import EspMiner.Main.StratumSubmissionNumbers

/-!
# Shares are written once, in the order of the queue

The tickets of the shares that were written, then of the share that the
submission task holds, then of the queue, and then the next ticket: this list is
sorted, and every step shortens it or appends to it.
-/

namespace EspMiner

open Library

/-- The ticket of the share that an event writes. -/
def SubmissionEvent.ticket : SubmissionEvent → Option Nat
  | .written _ _ share => some share.ticket
  | .used _ | .destroyed _ | .invalidated | .published _ _ _ | .request _ _ => none

/-- The tickets of the shares that were written, the newest first. -/
def writtenTickets (trace : List SubmissionEvent) : List Nat :=
  trace.filterMap SubmissionEvent.ticket

namespace StratumSubmission

variable (s : StratumSubmission)

/-- The tickets in the order in which they were drawn. -/
def line (s : StratumSubmission) : List Nat :=
  (writtenTickets s.trace).reverse ++
    ((s.submitter.share.toList ++ s.queue).map QueuedShare.ticket ++ [s.tickets])

/-- Every ticket stands before the later ones. -/
def OrderOk (s : StratumSubmission) : Prop := s.line.Pairwise (· < ·)

/-- No share is queued, dropped or written. -/
structure SameShares (s s' : StratumSubmission) : Prop where
  queue : s'.queue = s.queue
  submitter : s'.submitter = s.submitter
  tickets : s'.tickets = s.tickets
  written : writtenTickets s'.trace = writtenTickets s.trace

theorem OrderOk.same {s s' : StratumSubmission} (h : OrderOk s) (hsame : SameShares s s') :
    OrderOk s' := by
  have hline : s'.line = s.line := by
    unfold line
    rw [hsame.queue, hsame.submitter, hsame.tickets, hsame.written]
  unfold OrderOk
  rw [hline]
  exact h

/-! ## Steps of the receive task -/

theorem sameShares_nextUid (place : Int → SessionPlace) : SameShares s (s.nextUid place) := by
  unfold StratumSubmission.nextUid
  split <;> exact ⟨rfl, rfl, rfl, rfl⟩

theorem sameShares_v1CloseConnection (place : SessionPlace) :
    SameShares s (s.v1CloseConnection.goTo place) := by
  unfold StratumSubmission.v1CloseConnection
  dsimp only
  split <;> split <;> exact ⟨rfl, rfl, rfl, rfl⟩

theorem sameShares_v2CloseConnection (place : SessionPlace) :
    SameShares s (s.v2CloseConnection.goTo place) := by
  unfold StratumSubmission.v2CloseConnection
  dsimp only
  split <;> split <;> exact ⟨rfl, rfl, rfl, rfl⟩

theorem sameShares_v1Step (ok : Bool) : SameShares s (s.v1Step ok) := by
  unfold StratumSubmission.v1Step
  cases s.receiver with
  | v1NextUid transport sent => exact sameShares_nextUid s _
  | v1CloseConnection transport => exact sameShares_v1CloseConnection s _
  | v1FreeConn _ | v1InitConn _ | v1ResetUid _ =>
    dsimp only
    split <;> exact ⟨rfl, rfl, rfl, rfl⟩
  | v1AllocMessage transport =>
    dsimp only
    split
    · exact ⟨rfl, rfl, rfl, rfl⟩
    · split <;> exact ⟨rfl, rfl, rfl, rfl⟩
  | v1AllocConn _ | v1InitTransport | v1Connect _ | v1Loop _ =>
    cases ok <;> exact ⟨rfl, rfl, rfl, rfl⟩
  | _ => exact ⟨rfl, rfl, rfl, rfl⟩

theorem sameShares_v2Step (ok : Bool) : SameShares s (s.v2Step ok) := by
  unfold StratumSubmission.v2Step
  cases s.receiver with
  | v2CloseConnection transport => exact sameShares_v2CloseConnection s _
  | v2FreeConn _ | v2UpdatePending _ | v2CreateNoise _ =>
    dsimp only
    split <;> exact ⟨rfl, rfl, rfl, rfl⟩
  | v2Setup transport stage =>
    dsimp only
    split
    · split <;> exact ⟨rfl, rfl, rfl, rfl⟩
    · exact ⟨rfl, rfl, rfl, rfl⟩
  | v2AllocConn _ | v2InitTransport | v2Connect _ | v2Loop _ =>
    cases ok <;> exact ⟨rfl, rfl, rfl, rfl⟩
  | _ => exact ⟨rfl, rfl, rfl, rfl⟩

theorem sameShares_receiverStep (ok : Bool) : SameShares s (s.receiverStep ok) := by
  unfold StratumSubmission.receiverStep
  cases s.receiver
  all_goals first
    | exact sameShares_v1Step s ok
    | exact sameShares_v2Step s ok
    | exact ⟨rfl, rfl, rfl, rfl⟩

theorem sameShares_start (protocol : StratumProtocol) (poolIdx : U16) :
    SameShares s (s.start protocol poolIdx) := by
  unfold StratumSubmission.start
  split <;> exact ⟨rfl, rfl, rfl, rfl⟩

theorem sameShares_receive (message : ReceivedMessage) : SameShares s (s.receive message) := by
  unfold StratumSubmission.receive
  split
  · unfold v1Receive
    split
    · exact ⟨rfl, rfl, rfl, rfl⟩
    · exact sameShares_nextUid s _
    · split <;> exact ⟨rfl, rfl, rfl, rfl⟩
    · split <;> exact ⟨rfl, rfl, rfl, rfl⟩
  · unfold v2OpenChannel
    split <;> exact ⟨rfl, rfl, rfl, rfl⟩
  · unfold v2Receive
    split
    · dsimp only
      split <;> exact ⟨rfl, rfl, rfl, rfl⟩
    · exact ⟨rfl, rfl, rfl, rfl⟩
  · exact ⟨rfl, rfl, rfl, rfl⟩

/-! ## Steps of the other tasks -/

/-- The share that is submitted is written, or dropped. -/
structure SubmitsShare (s : StratumSubmission) (share : QueuedShare) (s' : StratumSubmission) :
    Prop where
  queue : s'.queue = s.queue
  tickets : s'.tickets = s.tickets
  written : writtenTickets s'.trace = writtenTickets s.trace ∨
    writtenTickets s'.trace = share.ticket :: writtenTickets s.trace

theorem submitsShare_writeShare (transport : Nat) (number : ShareNumber) (share : QueuedShare)
    (sent : Bool) : SubmitsShare s share (s.writeShare transport number share sent) := by
  unfold StratumSubmission.writeShare
  dsimp only
  split <;> exact ⟨rfl, rfl, .inr rfl⟩

theorem submitsShare_v1SubmitShare (share : QueuedShare) (sent : Bool) :
    SubmitsShare s share (s.v1SubmitShare share sent) := by
  unfold StratumSubmission.v1SubmitShare
  split
  · split
    · exact ⟨rfl, rfl, .inl rfl⟩
    · dsimp only
      split
      · exact ⟨rfl, rfl, .inl rfl⟩
      · split
        · exact ⟨rfl, rfl, .inl rfl⟩
        · have hwritten := submitsShare_writeShare
          exact ⟨(hwritten _ _ _ share sent).queue, (hwritten _ _ _ share sent).tickets,
            (hwritten _ _ _ share sent).written⟩
  · exact ⟨rfl, rfl, .inl rfl⟩

theorem submitsShare_v2SubmitShare (share : QueuedShare) (stack : Vector U8 32) (sent : Bool) :
    SubmitsShare s share (s.v2SubmitShare share stack sent) := by
  unfold StratumSubmission.v2SubmitShare
  dsimp only
  split
  · split
    · exact ⟨rfl, rfl, .inl rfl⟩
    · split
      · exact ⟨rfl, rfl, .inl rfl⟩
      · have hwritten := submitsShare_writeShare
        exact ⟨(hwritten _ _ _ share sent).queue, (hwritten _ _ _ share sent).tickets,
          (hwritten _ _ _ share sent).written⟩
  · exact ⟨rfl, rfl, .inl rfl⟩

/-- The submission task is done with its share. -/
theorem OrderOk.submit {s s' : StratumSubmission} (h : OrderOk s) {share : QueuedShare}
    (hsubmitter : s.submitter = .submit share) (hsubmits : SubmitsShare s share s') :
    OrderOk { s' with submitter := .receive } := by
  have hline : s.line = (writtenTickets s.trace).reverse ++
      share.ticket :: (s.queue.map QueuedShare.ticket ++ [s.tickets]) := by
    unfold line
    rw [hsubmitter]
    rfl
  unfold OrderOk at h ⊢
  rw [hline] at h
  refine h.sublist ?_
  unfold line
  dsimp only [SubmitterPlace.share]
  rw [hsubmits.queue, hsubmits.tickets]
  rcases hsubmits.written with hsame | hnew
  · rw [hsame]
    exact List.Sublist.append_left (List.sublist_cons_self _ _) _
  · rw [hnew]
    simp

theorem OrderOk.submitterStep {s : StratumSubmission} (h : OrderOk s) (poolIdx : U16)
    (stack : Vector U8 32) (sent : Bool) : OrderOk (s.submitterStep poolIdx stack sent) := by
  have hdrop {place : SubmitterPlace} {share : QueuedShare} (hsubmitter : s.submitter = place)
      (hshare : place.share = some share) {place' : SubmitterPlace}
      (hsub : List.Sublist place'.share.toList [share]) :
      OrderOk { s with submitter := place' } := by
    refine List.Pairwise.sublist (List.Sublist.append_left ?_ _) h
    refine List.Sublist.append_right (List.Sublist.map _ (List.Sublist.append_right ?_ _)) _
    rw [hsubmitter, hshare]
    exact hsub
  unfold StratumSubmission.submitterStep
  split
  · next hsubmitter =>
    split
    · exact h
    · next share queue hqueue =>
      unfold OrderOk line at h ⊢
      rw [hsubmitter, hqueue] at h
      exact h
  · next share hsubmitter =>
    refine hdrop hsubmitter rfl ?_
    split
    · exact .refl _
    · exact List.nil_sublist _
  · next share hsubmitter =>
    refine hdrop hsubmitter rfl ?_
    split
    · exact .refl _
    · exact List.nil_sublist _
  · next share hsubmitter =>
    dsimp only
    split
    · exact h.submit hsubmitter (submitsShare_v1SubmitShare s share sent)
    · exact h.submit hsubmitter (submitsShare_v2SubmitShare s share stack sent)

theorem OrderOk.queueShare {s : StratumSubmission} (h : OrderOk s) (job : Nat)
    (submission : AsicShareSubmission) (captured : Bool) :
    OrderOk (s.queueShare job submission captured) := by
  unfold StratumSubmission.queueShare
  split
  · unfold OrderOk line at h ⊢
    simp only [List.map_append, List.map_cons, List.map_nil, ← List.append_assoc] at h ⊢
    refine List.pairwise_append.mpr ⟨h, List.pairwise_singleton _ _, ?_⟩
    intro ticket hticket next hnext
    cases List.mem_singleton.mp hnext
    rcases List.mem_append.mp hticket with hbefore | hlast
    · exact Nat.lt_succ_of_lt
        ((List.pairwise_append.mp h).2.2 ticket hbefore _ (List.mem_singleton_self _))
    · cases List.mem_singleton.mp hlast
      exact Nat.lt_succ_self _
  · exact h

theorem OrderOk.requestReconnect {s : StratumSubmission} (h : OrderOk s) :
    OrderOk s.requestReconnect := by
  unfold StratumSubmission.requestReconnect
  split
  · exact h.same ⟨rfl, rfl, rfl, rfl⟩
  · exact h

theorem initial_order : OrderOk initial := List.pairwise_singleton _ _

theorem OrderOk.written {s : StratumSubmission} (h : OrderOk s) :
    (writtenTickets s.trace).Pairwise (· > ·) :=
  List.pairwise_reverse.mp (List.pairwise_append.mp h).1

/-! ## Runs -/

end StratumSubmission

/-- The next step allocates the message record, if there is none. -/
def SessionPlace.allocatesMessage : SessionPlace → Bool
  | .v1AllocMessage _ => true
  | _ => false

def ReceivedMessage.publishesClean : ReceivedMessage → Bool
  | .publish job => job.cleanJobs
  | .channelOpened _ _ | .request | .versionMask _ _ => false

namespace StratumSubmission

/-- The connection can draw another id: `send_uid` is an `int`. -/
def UidLeft (s : StratumSubmission) : Prop :=
  ∀ id ∈ s.sv1Conn, (s.sv1Conns id).sendUid < INT_MAX

instance (s : StratumSubmission) : Decidable s.UidLeft :=
  inferInstanceAs (Decidable (∀ id ∈ s.sv1Conn, (s.sv1Conns id).sendUid < INT_MAX))

instance (s : StratumSubmission) : Decidable s.FreshGeneration :=
  inferInstanceAs (Decidable (∀ job < s.published,
    (s.jobs job).workGeneration ≠ nextWorkGeneration s.stratumWorkGeneration))

instance (s : StratumSubmission) : Decidable s.SequenceNumberLeft :=
  decidable_of_iff (∀ transport ∈ s.transport, ∀ id ∈ s.sv2Conn,
      (s.sv2Conns id).sequenceNumber = 0 → requestIds transport s.trace = [])
    ⟨fun h transport id htransport hconn => h transport htransport id hconn,
      fun h transport htransport id hconn => h transport id htransport hconn⟩

/-- The message record can be allocated, and no counter is back at a value that
was used: the work generation, the request id, and the sequence number. -/
def SessionAllowed (s : StratumSubmission) : Input → Prop
  | .receiver ok =>
      (s.receiver.allocatesMessage = true → s.messageAllocated = true ∨ ok = true) ∧
        (s.receiver.invalidatesWork = true → s.FreshGeneration) ∧ s.UidLeft
  | .message message => (message.publishesClean = true → s.FreshGeneration) ∧ s.UidLeft
  | .submitter _ _ _ => s.SequenceNumberLeft ∧ s.UidLeft
  | .start _ _ | .reconnect | .queueShare _ _ _ => True

instance (s : StratumSubmission) (input : Input) : Decidable (SessionAllowed s input) :=
  match input with
  | .receiver ok => inferInstanceAs (Decidable ((s.receiver.allocatesMessage = true →
      s.messageAllocated = true ∨ ok = true) ∧
        (s.receiver.invalidatesWork = true → s.FreshGeneration) ∧ s.UidLeft))
  | .message message => inferInstanceAs (Decidable
      ((message.publishesClean = true → s.FreshGeneration) ∧ s.UidLeft))
  | .submitter _ _ _ => inferInstanceAs (Decidable (s.SequenceNumberLeft ∧ s.UidLeft))
  | .start _ _ => .isTrue trivial
  | .reconnect => .isTrue trivial
  | .queueShare _ _ _ => .isTrue trivial

/-- What holds between any two steps. -/
structure SubmissionOk (s : StratumSubmission) : Prop where
  objects : ObjectsOk s
  work : WorkOk s
  numbers : NumbersOk s
  order : OrderOk s

theorem initial_ok : SubmissionOk initial :=
  ⟨initial_objects, initial_work, initial_numbers, initial_order⟩

theorem SubmissionOk.step {s : StratumSubmission} (h : SubmissionOk s) {input : Input}
    (hallowed : SessionAllowed s input) : SubmissionOk (s.step input) := by
  obtain ⟨hobjects, hwork, hnumbers, horder⟩ := h
  cases input with
  | start protocol poolIdx =>
    exact ⟨hobjects.start protocol poolIdx, hwork.start protocol poolIdx,
      hnumbers.start protocol poolIdx, horder.same (sameShares_start s protocol poolIdx)⟩
  | receiver ok =>
    obtain ⟨hmessage, hfresh, -⟩ := hallowed
    refine ⟨hobjects.receiverStep fun transport hplace => hmessage ?_, hwork.receiverStep hfresh ok,
      hnumbers.receiverStep hobjects ok, horder.same (sameShares_receiverStep s ok)⟩
    rw [hplace]
    rfl
  | message message =>
    refine ⟨hobjects.receive message, hwork.receive fun job hjob hclean => hallowed.1 ?_,
      hnumbers.receive hobjects message, horder.same (sameShares_receive s message)⟩
    rw [hjob]
    exact hclean
  | reconnect =>
    exact ⟨hobjects.requestReconnect, hwork.requestReconnect, hnumbers.requestReconnect,
      horder.requestReconnect⟩
  | queueShare job submission captured =>
    exact ⟨hobjects.queueShare job submission captured, hwork.queueShare job submission captured,
      hnumbers.queueShare job submission captured, horder.queueShare job submission captured⟩
  | submitter poolIdx stack sent =>
    exact ⟨hobjects.submitterStep poolIdx stack sent,
      hwork.submitterStep hobjects poolIdx stack sent,
      hnumbers.submitterStep hobjects hwork hallowed.1 poolIdx stack sent,
      horder.submitterStep poolIdx stack sent⟩

/-- **Shares reach only the session that they were mined for.**  While the message
record can be allocated and no counter wraps, every share is written in the
session of its job before that work ends, shares are written once and in the
order of the queue, no transport or connection is used after it was destroyed,
and the numbers of one session are distinct. -/
theorem shares_reach_their_session (inputs : List Input)
    (hallowed : Guarded step SessionAllowed initial inputs) :
    let s := run step initial inputs
    Throughout WrittenInSession s.trace ∧ (writtenTickets s.trace).Pairwise (· > ·) ∧
      Throughout UsedBeforeDestroyed s.trace ∧
      ∀ transport, (requestIds transport s.trace).Nodup := by
  have h : SubmissionOk (run step initial inputs) :=
    Guarded.invariant step (fun _ _ hs hinput => hs.step hinput) hallowed initial_ok
  exact ⟨h.work.written, h.order.written, h.objects.safe, h.numbers.nodup⟩

/-! ## Two runs -/

def someSubmission : AsicShareSubmission where
  jobId := []
  extranonce2 := []
  nonce := 0
  ntime := 0
  finalVersion := 0
  versionBits := 0
  protocol := .v1
  poolId := 0
  workGeneration := 0

def submitterInput : Input := .submitter 0 (.replicate 32 0) true

/-- A session of Stratum V2 opens a channel and publishes a job, and a share of
the job is checked by the submission task. -/
def checkedShare : List Input :=
  .start .v2 0 :: List.replicate 13 (.receiver true) ++
    [.message (.channelOpened 1 .standard), .message (.publish .zero),
      .queueShare 0 someSubmission true, submitterInput, submitterInput, submitterInput]

/-- The session closes, a session of Stratum V1 gets no message record, and a
session of Stratum V2 no buffers. -/
def twoFailures : List Input :=
  List.replicate 3 (.receiver false) ++
    .start .v1 0 :: List.replicate 14 (.receiver true) ++ .receiver false ::
    .start .v2 0 :: List.replicate 3 (.receiver true) ++ [.receiver false, .receiver true]

theorem shares_reach_their_session_of_checkedShare :
    let s := run step initial (checkedShare ++ [submitterInput])
    Throughout WrittenInSession s.trace ∧ writtenTickets s.trace = [0] ∧
      (requestIds 1 s.trace).Nodup := by
  intro s
  have hwritten : writtenTickets s.trace = [0] := by decide +kernel
  obtain ⟨hsession, -, -, hnumbers⟩ :=
    shares_reach_their_session (checkedShare ++ [submitterInput]) (by decide +kernel)
  exact ⟨hsession, hwritten, hnumbers 1⟩

/-- The submission task looks for the Noise context in the connection that was
freed: it goes by the shared transport, which the first failure left behind. -/
theorem share_uses_destroyed_connection :
    ¬ Throughout UsedBeforeDestroyed
      (run step initial (checkedShare ++ twoFailures ++ [submitterInput])).trace := by
  intro hsafe
  have htrace : (run step initial (checkedShare ++ twoFailures ++ [submitterInput])).trace.head? =
      some (.used (.sv2Conn 4)) := by decide +kernel
  have hdestroyed : .destroyed (.sv2Conn 4) ∈
      (run step initial (checkedShare ++ twoFailures ++ [submitterInput])).trace.tail := by
    decide +kernel
  obtain ⟨older, heq⟩ := List.head?_eq_some_iff.mp htrace
  rw [heq] at hsafe hdestroyed
  exact hsafe.1 _ rfl hdestroyed

end StratumSubmission

end EspMiner
