import EspMiner.Main.StratumSubmissionObjects

/-!
# Shares are written in the session of their job

A job has the current work generation only in the session that published it, and
only until that work ends.  So the generation that a share carries is enough for
the submission task to recognise the session.
-/

namespace EspMiner

open Library

/-- No job published before in the session is good any more. -/
def EndsWork (transport : Nat) : SubmissionEvent → Prop
  | .invalidated => True
  | .published _ _ clean => clean = true
  | .destroyed object => object = .transport transport
  | .used _ | .request _ _ | .written _ _ _ => False

/-- The job was published in the session, and the work has not ended since. -/
def JobCurrent (transport job : Nat) (trace : List SubmissionEvent) : Prop :=
  ∃ newer clean older, trace = newer ++ .published transport job clean :: older ∧
    ∀ event ∈ newer, ¬ EndsWork transport event

/-- A share is written in the session of its job, while the work goes on. -/
def WrittenInSession (event : SubmissionEvent) (older : List SubmissionEvent) : Prop :=
  match event with
  | .written transport _ share => JobCurrent transport share.job older
  | _ => True

/-- An event that ends no work and writes no share. -/
def SubmissionEvent.Quiet : SubmissionEvent → Prop
  | .used _ | .request _ _ | .destroyed (.sv1Conn _) | .destroyed (.sv2Conn _) => True
  | .destroyed (.transport _) | .invalidated | .published _ _ _ | .written _ _ _ => False

/-- Only quiet events are new. -/
inductive QuietTrace (trace : List SubmissionEvent) : List SubmissionEvent → Prop where
  | refl : QuietTrace trace trace
  | step {event : SubmissionEvent} {trace' : List SubmissionEvent} (h : QuietTrace trace trace')
      (hevent : event.Quiet) : QuietTrace trace (event :: trace')

theorem SubmissionEvent.Quiet.not_endsWork {event : SubmissionEvent} (h : event.Quiet)
    (transport : Nat) : ¬ EndsWork transport event := by
  cases event with
  | used object => exact id
  | destroyed object => cases object <;> first | exact h.elim | nofun
  | invalidated => exact h.elim
  | published other job clean => exact h.elim
  | request other uid => exact id
  | written other number share => exact h.elim

theorem JobCurrent.cons {transport job : Nat} {trace : List SubmissionEvent}
    (h : JobCurrent transport job trace) {event : SubmissionEvent}
    (hevent : ¬ EndsWork transport event) : JobCurrent transport job (event :: trace) := by
  obtain ⟨newer, clean, older, rfl, hnewer⟩ := h
  refine ⟨event :: newer, clean, older, rfl, fun other hother => ?_⟩
  rcases List.mem_cons.mp hother with rfl | hmem
  · exact hevent
  · exact hnewer other hmem

theorem QuietTrace.jobCurrent {trace trace' : List SubmissionEvent} (h : QuietTrace trace trace')
    {transport job : Nat} (hjob : JobCurrent transport job trace) :
    JobCurrent transport job trace' := by
  induction h with
  | refl => exact hjob
  | step h hevent ih => exact ih.cons (hevent.not_endsWork transport)

theorem QuietTrace.written {trace trace' : List SubmissionEvent} (h : QuietTrace trace trace')
    (hwritten : Throughout WrittenInSession trace) : Throughout WrittenInSession trace' := by
  induction h with
  | refl => exact hwritten
  | @step event trace' h hevent ih =>
    refine ⟨?_, ih⟩
    cases event with
    | written transport number share => exact hevent.elim
    | _ => trivial

namespace SessionPlace

/-- The session whose jobs can be current. -/
def loop : SessionPlace → Option (StratumProtocol × Nat)
  | .v1Loop transport | .v1Request transport _ | .v1CloseConnection transport =>
      some (.v1, transport)
  | .v2Loop transport | .v2CloseConnection transport => some (.v2, transport)
  | _ => none

/-- The session is closed, and its work will be invalidated. -/
def ended : SessionPlace → Bool
  | .v1Invalidate | .v2Invalidate => true
  | _ => false

/-- The next step invalidates the work. -/
def invalidatesWork : SessionPlace → Bool
  | .v1CleanJobs _ | .v1Invalidate | .v2Invalidate => true
  | _ => false

/-- The loop of a session is not left. -/
structure StaysIn (place place' : SessionPlace) : Prop where
  loop : ∀ session, place.loop = some session → place'.loop = some session
  ended : place.ended = true → place'.ended = true

theorem StaysIn.refl (place : SessionPlace) : place.StaysIn place :=
  ⟨fun _ hsome => hsome, fun htrue => htrue⟩

theorem loop_openTransport {place : SessionPlace} {protocol : StratumProtocol} {transport : Nat}
    (h : place.loop = some (protocol, transport)) : place.openTransport = some transport := by
  cases place <;> cases h <;> rfl

theorem ended_openTransport {place : SessionPlace} (h : place.ended = true) :
    place.openTransport = none := by
  cases place <;> cases h <;> rfl

end SessionPlace

/-- The share that the submission task holds. -/
def SubmitterPlace.share : SubmitterPlace → Option QueuedShare
  | .receive => none
  | .checkCurrent share | .checkPool share | .submit share => some share

namespace StratumSubmission

variable {s s' : StratumSubmission}

/-- The share says of its job what the job says of itself. -/
structure BuiltFrom (s : StratumSubmission) (share : QueuedShare) : Prop where
  job : share.job < s.published
  generation : share.submission.workGeneration = (s.jobs share.job).workGeneration
  protocol : share.submission.protocol = (s.jobs share.job).type

/-- A job of the current generation is good in the session that the receive task
is in, and shares are written accordingly. -/
structure WorkOk (s : StratumSubmission) : Prop where
  current : ∀ job, job < s.published →
    (s.jobs job).workGeneration = s.stratumWorkGeneration →
    s.receiver.ended = true ∨ ∃ protocol transport,
      s.receiver.loop = some (protocol, transport) ∧
      ((s.jobs job).type = .v1 ↔ protocol = .v1) ∧ JobCurrent transport job s.trace
  queued : ∀ share, share ∈ s.queue ∨ s.submitter.share = some share → s.BuiltFrom share
  written : Throughout WrittenInSession s.trace

/-- Neither jobs nor shares change. -/
structure SameWork (s s' : StratumSubmission) : Prop where
  generation : s'.stratumWorkGeneration = s.stratumWorkGeneration
  published : s'.published = s.published
  jobs : s'.jobs = s.jobs
  queue : s'.queue = s.queue
  submitter : s'.submitter = s.submitter
  tickets : s'.tickets = s.tickets

theorem SameWork.of_eq
    (h : (s'.stratumWorkGeneration, s'.published, s'.jobs, s'.queue, s'.submitter, s'.tickets) =
      (s.stratumWorkGeneration, s.published, s.jobs, s.queue, s.submitter, s.tickets)) :
    SameWork s s' := by
  simp only [Prod.mk.injEq] at h
  exact ⟨h.1, h.2.1, h.2.2.1, h.2.2.2.1, h.2.2.2.2.1, h.2.2.2.2.2⟩

theorem SameWork.builtFrom (hsame : SameWork s s') {share : QueuedShare} (h : s.BuiltFrom share) :
    s'.BuiltFrom share := by
  refine ⟨?_, ?_, ?_⟩
  · rw [hsame.published]
    exact h.job
  · rw [hsame.jobs]
    exact h.generation
  · rw [hsame.jobs]
    exact h.protocol

theorem SameWork.queued (hsame : SameWork s s') (h : WorkOk s) :
    ∀ share, share ∈ s'.queue ∨ s'.submitter.share = some share → s'.BuiltFrom share := by
  intro share hshare
  rw [hsame.queue, hsame.submitter] at hshare
  exact hsame.builtFrom (h.queued share hshare)

/-- A step in which nothing happens to jobs and shares. -/
theorem WorkOk.quiet (h : WorkOk s) {place : SessionPlace} (hplace : s.receiver = place)
    (hsame : SameWork s s') (htrace : QuietTrace s.trace s'.trace)
    (hstays : place.StaysIn s'.receiver) : WorkOk s' := by
  subst hplace
  refine ⟨?_, hsame.queued h, htrace.written h.written⟩
  intro job hjob hgeneration
  rw [hsame.published] at hjob
  rw [hsame.jobs, hsame.generation] at hgeneration
  rw [hsame.jobs]
  rcases h.current job hjob hgeneration with hended | ⟨protocol, transport, hloop, htype, hcurrent⟩
  · exact .inl (hstays.ended hended)
  · exact .inr ⟨protocol, transport, hstays.loop _ hloop, htype, htrace.jobCurrent hcurrent⟩

/-- A session that has not reached its loop has no jobs. -/
theorem WorkOk.setup (h : WorkOk s) {place : SessionPlace} (hplace : s.receiver = place)
    (hloop : place.loop = none) (hended : place.ended = false) (hsame : SameWork s s')
    (hwritten : Throughout WrittenInSession s'.trace) : WorkOk s' := by
  subst hplace
  refine ⟨fun job hjob hgeneration => ?_, hsame.queued h, hwritten⟩
  rw [hsame.published] at hjob
  rw [hsame.jobs, hsame.generation] at hgeneration
  rcases h.current job hjob hgeneration with htrue | ⟨protocol, transport, hsome, -⟩
  · exact nomatch hended.symm.trans htrue
  · exact nomatch hloop.symm.trans hsome

/-- The session is closed. -/
theorem WorkOk.close (h : WorkOk s) (hsame : SameWork s s')
    (hwritten : Throughout WrittenInSession s'.trace) (hended : s'.receiver.ended = true) :
    WorkOk s' :=
  ⟨fun _ _ _ => .inl hended, hsame.queued h, hwritten⟩

/-- No published job has the next work generation. -/
def FreshGeneration (s : StratumSubmission) : Prop :=
  ∀ job < s.published, (s.jobs job).workGeneration ≠ nextWorkGeneration s.stratumWorkGeneration

/-- All work is invalidated. -/
theorem WorkOk.invalidateWork (h : WorkOk s) (hfresh : s.FreshGeneration) (place : SessionPlace) :
    WorkOk (s.invalidateWork.goTo place) :=
  ⟨fun job hjob hgeneration => absurd hgeneration (hfresh job hjob),
    fun share hshare => ⟨(h.queued share hshare).job, (h.queued share hshare).generation,
      (h.queued share hshare).protocol⟩, ⟨trivial, h.written⟩⟩

/-- A job is published in its session. -/
theorem WorkOk.publishJob (h : WorkOk s) {job : MinerJob}
    (hfresh : job.cleanJobs = true → s.FreshGeneration) {protocol : StratumProtocol}
    {transport : Nat} (hloop : s.receiver.loop = some (protocol, transport))
    (htype : job.type = .v1 ↔ protocol = .v1) : WorkOk (s.publishJob transport job) := by
  have hended : s.receiver.ended ≠ true := fun hended => by
    have hnone := SessionPlace.ended_openTransport hended
    rw [SessionPlace.loop_openTransport hloop] at hnone
    cases hnone
  have hother {other : Nat} (hlt : other < s.published) :
      (s.publishJob transport job).jobs other = s.jobs other :=
    Function.update_of_ne (Nat.ne_of_lt hlt) _ _
  refine ⟨?_, ?_, ⟨trivial, h.written⟩⟩
  · intro other hlt hgeneration
    rcases Nat.lt_succ_iff_lt_or_eq.mp hlt with hbefore | rfl
    · rw [hother hbefore] at hgeneration ⊢
      by_cases hclean : job.cleanJobs = true
      · have hnext : (s.publishJob transport job).stratumWorkGeneration =
            nextWorkGeneration s.stratumWorkGeneration := if_pos hclean
        exact absurd (hgeneration.trans hnext) (hfresh hclean other hbefore)
      · have hsame : (s.publishJob transport job).stratumWorkGeneration =
            s.stratumWorkGeneration := if_neg hclean
        rcases h.current other hbefore (hgeneration.trans hsame) with htrue |
          ⟨protocol', transport', hloop', htype', hcurrent⟩
        · exact absurd htrue hended
        · exact .inr ⟨protocol', transport', hloop', htype', hcurrent.cons hclean⟩
    · refine .inr ⟨protocol, transport, hloop, ?_, ⟨[], job.cleanJobs, s.trace, rfl, nofun⟩⟩
      rw [show (s.publishJob transport job).jobs s.published = _ from Function.update_self _ _ _]
      exact htype
  · intro share hshare
    obtain ⟨hjob, hgeneration, hprotocol⟩ := h.queued share hshare
    refine ⟨Nat.lt_succ_of_lt hjob, ?_, ?_⟩
    · rw [hother hjob]
      exact hgeneration
    · rw [hother hjob]
      exact hprotocol

/-! ## Steps of the receive task -/

theorem WorkOk.v1CloseConnection (h : WorkOk s) :
    WorkOk (s.v1CloseConnection.goTo .v1Invalidate) := by
  unfold StratumSubmission.v1CloseConnection
  dsimp only
  split <;> split <;>
    first
      | exact h.close (.of_eq rfl) h.written rfl
      | exact h.close (.of_eq rfl) ⟨trivial, trivial, h.written⟩ rfl
      | exact h.close (.of_eq rfl)
          ⟨trivial, trivial, trivial, trivial, h.written⟩ rfl

theorem WorkOk.v2CloseConnection (h : WorkOk s) :
    WorkOk (s.v2CloseConnection.goTo .v2Invalidate) := by
  unfold StratumSubmission.v2CloseConnection
  dsimp only
  split <;> split <;>
    first
      | exact h.close (.of_eq rfl) h.written rfl
      | exact h.close (.of_eq rfl) ⟨trivial, trivial, h.written⟩ rfl
      | exact h.close (.of_eq rfl) ⟨trivial, trivial, trivial, h.written⟩ rfl
      | exact h.close (.of_eq rfl)
          ⟨trivial, trivial, trivial, trivial, trivial, h.written⟩ rfl

theorem WorkOk.v1Step (h : WorkOk s)
    (hfresh : s.receiver.invalidatesWork = true → s.FreshGeneration) (ok : Bool) :
    WorkOk (s.v1Step ok) := by
  unfold StratumSubmission.v1Step
  cases hplace : s.receiver with
  | v1FreeConn poolIdx =>
    dsimp only
    split
    · exact h.setup hplace rfl rfl (.of_eq rfl) ⟨trivial, trivial, h.written⟩
    · exact h.setup hplace rfl rfl (.of_eq rfl) h.written
  | v1AllocConn poolIdx =>
    dsimp only
    split <;> exact h.setup hplace rfl rfl (.of_eq rfl) h.written
  | v1InitConn poolIdx =>
    dsimp only
    split
    · exact h.setup hplace rfl rfl (.of_eq rfl) ⟨trivial, h.written⟩
    · exact h.setup hplace rfl rfl (.of_eq rfl) h.written
  | v1InitTransport =>
    dsimp only
    split <;> exact h.setup hplace rfl rfl (.of_eq rfl) h.written
  | v1Connect transport =>
    dsimp only
    split
    · exact h.setup hplace rfl rfl (.of_eq rfl) ⟨trivial, h.written⟩
    · exact h.setup hplace rfl rfl (.of_eq rfl) ⟨trivial, trivial, h.written⟩
  | v1SetTransport transport =>
    exact h.setup hplace rfl rfl (.of_eq rfl) h.written
  | v1ResetUid transport =>
    dsimp only
    split
    · exact h.setup hplace rfl rfl (.of_eq rfl) ⟨trivial, h.written⟩
    · exact h.setup hplace rfl rfl (.of_eq rfl) h.written
  | v1CleanJobs transport =>
    rw [hplace] at hfresh
    exact h.invalidateWork (hfresh rfl) _
  | v1NextUid transport sent =>
    unfold StratumSubmission.nextUid
    dsimp only
    split
    · exact h.setup hplace rfl rfl (.of_eq rfl) h.written
    · exact h.setup hplace rfl rfl (.of_eq rfl) ⟨trivial, h.written⟩
  | v1Setup transport sent uid =>
    exact h.setup hplace rfl rfl (.of_eq rfl) ⟨trivial, trivial, h.written⟩
  | v1AllocMessage transport =>
    dsimp only
    split
    · exact h.setup hplace rfl rfl (.of_eq rfl) h.written
    · split
      · exact h.setup hplace rfl rfl (.of_eq rfl) h.written
      · exact h.setup hplace rfl rfl (.of_eq rfl) ⟨trivial, trivial, h.written⟩
  | v1Loop transport =>
    dsimp only
    split
    · exact h.quiet rfl (.of_eq rfl) (.step .refl trivial) (.refl _)
    · exact h.quiet hplace (.of_eq rfl) .refl ⟨fun _ hloop => hloop, nofun⟩
  | v1Request transport uid =>
    exact h.quiet hplace (.of_eq rfl) (.step (.step .refl trivial) trivial)
      ⟨fun _ hloop => hloop, nofun⟩
  | v1CloseConnection transport => exact h.v1CloseConnection
  | v1Invalidate =>
    rw [hplace] at hfresh
    exact h.invalidateWork (hfresh rfl) _
  | _ => exact h

theorem WorkOk.v2Step (h : WorkOk s)
    (hfresh : s.receiver.invalidatesWork = true → s.FreshGeneration) (ok : Bool) :
    WorkOk (s.v2Step ok) := by
  unfold StratumSubmission.v2Step
  cases hplace : s.receiver with
  | v2FreeConn starts =>
    dsimp only
    split
    · exact h.setup hplace rfl rfl (.of_eq rfl) ⟨trivial, trivial, h.written⟩
    · exact h.setup hplace rfl rfl (.of_eq rfl) h.written
  | v2ClearConn starts => exact h.setup hplace rfl rfl (.of_eq rfl) h.written
  | v2AllocConn poolIdx =>
    dsimp only
    split <;> exact h.setup hplace rfl rfl (.of_eq rfl) h.written
  | v2AllocBuffers => exact h.setup hplace rfl rfl (.of_eq rfl) h.written
  | v2InitTransport =>
    dsimp only
    split <;> exact h.setup hplace rfl rfl (.of_eq rfl) h.written
  | v2Connect transport =>
    dsimp only
    split
    · exact h.setup hplace rfl rfl (.of_eq rfl) ⟨trivial, h.written⟩
    · exact h.setup hplace rfl rfl (.of_eq rfl) ⟨trivial, trivial, h.written⟩
  | v2SetTransport transport =>
    exact h.setup hplace rfl rfl (.of_eq rfl) h.written
  | v2UpdatePending transport =>
    dsimp only
    split
    · exact h.setup hplace rfl rfl (.of_eq rfl) ⟨trivial, h.written⟩
    · exact h.setup hplace rfl rfl (.of_eq rfl) h.written
  | v2CreateNoise transport =>
    dsimp only
    split
    · exact h.setup hplace rfl rfl (.of_eq rfl) ⟨trivial, h.written⟩
    · exact h.setup hplace rfl rfl (.of_eq rfl) h.written
  | v2Setup transport stage =>
    dsimp only
    split
    · split
      · exact h.setup hplace rfl rfl (.of_eq rfl) ⟨trivial, h.written⟩
      · exact h
    · exact h.setup hplace rfl rfl (.of_eq rfl) h.written
  | v2Loop transport =>
    dsimp only
    split
    · exact h.quiet rfl (.of_eq rfl) (.step .refl trivial) (.refl _)
    · exact h.quiet hplace (.of_eq rfl) .refl ⟨fun _ hloop => hloop, nofun⟩
  | v2CloseConnection transport => exact h.v2CloseConnection
  | v2Invalidate =>
    rw [hplace] at hfresh
    exact h.invalidateWork (hfresh rfl) _
  | _ => exact h

theorem WorkOk.receiverStep (h : WorkOk s)
    (hfresh : s.receiver.invalidatesWork = true → s.FreshGeneration) (ok : Bool) :
    WorkOk (s.receiverStep ok) := by
  unfold StratumSubmission.receiverStep
  cases s.receiver
  all_goals first
    | exact h.v1Step hfresh ok
    | exact h.v2Step hfresh ok
    | exact h

theorem WorkOk.start (h : WorkOk s) (protocol : StratumProtocol) (poolIdx : U16) :
    WorkOk (s.start protocol poolIdx) := by
  unfold StratumSubmission.start
  split
  · next hplace => exact h.setup hplace rfl rfl (.of_eq rfl) h.written
  · next hplace => exact h.setup hplace rfl rfl (.of_eq rfl) h.written
  · exact h

theorem WorkOk.receive (h : WorkOk s) {message : ReceivedMessage}
    (hfresh : ∀ job, message = .publish job → job.cleanJobs = true → s.FreshGeneration) :
    WorkOk (s.receive message) := by
  unfold StratumSubmission.receive
  split
  · next transport hplace =>
    unfold v1Receive
    split
    · exact h
    · unfold StratumSubmission.nextUid
      split
      · exact h.quiet hplace (.of_eq rfl) .refl ⟨fun _ hloop => hloop, nofun⟩
      · exact h.quiet hplace (.of_eq rfl) (.step .refl trivial)
          ⟨fun _ hloop => hloop, nofun⟩
    · split
      · exact h.quiet rfl (.of_eq rfl) (.step .refl trivial) (.refl _)
      · exact h
    · next job =>
      have hloop : s.receiver.loop = some (.v1, transport) := congrArg SessionPlace.loop hplace
      split
      · next id hconn =>
        have hused : WorkOk (s.use (.sv1Conn id)) :=
          h.quiet rfl (.of_eq rfl) (.step .refl trivial) (.refl _)
        refine hused.publishJob ?_ hloop ⟨fun _ => rfl, fun _ => rfl⟩
        exact hfresh job rfl
      · exact h
  · next transport hplace =>
    unfold v2OpenChannel
    split
    · exact h.setup hplace rfl rfl (.of_eq rfl) ⟨trivial, trivial, h.written⟩
    · exact h
  · next transport hplace =>
    unfold v2Receive
    split
    · next job id hconn =>
      have hused : WorkOk (s.use (.sv2Conn id)) :=
        h.quiet rfl (.of_eq rfl) (.step .refl trivial) (.refl _)
      have hloop : s.receiver.loop = some (.v2, transport) := congrArg SessionPlace.loop hplace
      dsimp only
      split
      · refine hused.publishJob ?_ hloop ⟨nofun, nofun⟩
        exact hfresh job rfl
      · refine hused.publishJob ?_ hloop ⟨nofun, nofun⟩
        exact hfresh job rfl
      · exact h
    · exact h
  · exact h

/-! ## Steps of the other tasks -/

theorem WorkOk.requestReconnect (h : WorkOk s) : WorkOk s.requestReconnect := by
  unfold StratumSubmission.requestReconnect
  split
  · exact h.quiet rfl (.of_eq rfl) (.step .refl trivial) (.refl _)
  · exact h

theorem WorkOk.queueShare (h : WorkOk s) (job : Nat) (submission : AsicShareSubmission)
    (captured : Bool) : WorkOk (s.queueShare job submission captured) := by
  unfold StratumSubmission.queueShare
  split
  · next hcaptured =>
    refine ⟨h.current, fun share hshare => ?_, h.written⟩
    rcases hshare with hqueue | hsubmitter
    · rcases List.mem_append.mp hqueue with hbefore | hnew
      · have hbuilt := h.queued share (.inl hbefore)
        exact ⟨hbuilt.job, hbuilt.generation, hbuilt.protocol⟩
      · cases List.mem_singleton.mp hnew
        exact ⟨hcaptured.1, rfl, rfl⟩
    · have hbuilt := h.queued share (.inr hsubmitter)
      exact ⟨hbuilt.job, hbuilt.generation, hbuilt.protocol⟩
  · exact h

/-- The session that a share of the current generation belongs to is the one
whose transport is shared. -/
theorem WorkOk.session (h : WorkOk s) (hobjects : ObjectsOk s) {share : QueuedShare}
    (hbuilt : s.BuiltFrom share) {transport : Nat} (htransport : s.transport = some transport)
    (hgeneration : share.submission.workGeneration = s.stratumWorkGeneration) :
    ∃ protocol, s.receiver.loop = some (protocol, transport) ∧
      (share.submission.protocol = .v1 ↔ protocol = .v1) ∧
      JobCurrent transport share.job s.trace := by
  have hopen := hobjects.transport.symm.trans htransport
  rcases h.current share.job hbuilt.job (hbuilt.generation.symm.trans hgeneration) with
    hended | ⟨protocol, other, hloop, htype, hcurrent⟩
  · exact nomatch hopen.symm.trans (SessionPlace.ended_openTransport hended)
  · have hsame : transport = other :=
      Option.some.inj (hopen.symm.trans (SessionPlace.loop_openTransport hloop))
    subst hsame
    exact ⟨protocol, hloop, by rw [hbuilt.protocol]; exact htype, hcurrent⟩

/-- A share is written in the session of its job. -/
theorem WorkOk.writeShare (h : WorkOk s) {transport : Nat} {share : QueuedShare}
    (hcurrent : JobCurrent transport share.job s.trace) (number : ShareNumber) (sent : Bool) :
    WorkOk (s.writeShare transport number share sent) := by
  have hwritten : WorkOk ((s.use (.transport transport)).record
      (.written transport number share)) := by
    have hused : JobCurrent transport share.job (.used (.transport transport) :: s.trace) :=
      hcurrent.cons id
    refine ⟨fun job hjob hgeneration => ?_, fun other hother => ?_, ⟨hused, trivial, h.written⟩⟩
    · rcases h.current job hjob hgeneration with
        hended | ⟨protocol, other, hloop, htype, hjobCurrent⟩
      · exact .inl hended
      · exact .inr ⟨protocol, other, hloop, htype, (hjobCurrent.cons id).cons id⟩
    · have hbuilt := h.queued other hother
      exact ⟨hbuilt.job, hbuilt.generation, hbuilt.protocol⟩
  unfold StratumSubmission.writeShare
  dsimp only
  split
  · exact hwritten
  · exact hwritten.quiet rfl (.of_eq rfl) (.step .refl trivial) (.refl _)

theorem WorkOk.v1SubmitShare (h : WorkOk s) (hobjects : ObjectsOk s) {share : QueuedShare}
    (hbuilt : s.BuiltFrom share) (sent : Bool) : WorkOk (s.v1SubmitShare share sent) := by
  unfold StratumSubmission.v1SubmitShare
  split
  · next transport id htransport hconn =>
    split
    · exact h
    · next hgeneration =>
      obtain ⟨protocol, hloop, hprotocol, hcurrent⟩ :=
        h.session hobjects hbuilt htransport (not_not.mp hgeneration)
      have hused : WorkOk (s.use (.sv1Conn id)) :=
        h.quiet rfl (.of_eq rfl) (.step .refl trivial) (.refl _)
      dsimp only
      split
      · exact hused
      · split
        · exact hused
        · have hset : WorkOk ((s.use (.sv1Conn id)).setSv1Conn id
              { s.sv1Conns id with sendUid := (s.sv1Conns id).sendUid + 1 }) :=
            hused.quiet rfl (.of_eq rfl) .refl (.refl _)
          exact hset.writeShare (hcurrent.cons not_false) _ sent
  · exact h

theorem WorkOk.v2SubmitShare (h : WorkOk s) (hobjects : ObjectsOk s) {share : QueuedShare}
    (hbuilt : s.BuiltFrom share) (stack : Vector U8 32) (sent : Bool) :
    WorkOk (s.v2SubmitShare share stack sent) := by
  unfold StratumSubmission.v2SubmitShare
  dsimp only
  split
  · next transport id htransport hconn =>
    have hused : WorkOk (s.use (.sv2Conn id)) :=
      h.quiet rfl (.of_eq rfl) (.step .refl trivial) (.refl _)
    split
    · exact hused
    · next hchecked =>
      obtain ⟨-, hgeneration, -⟩ := not_or.mp hchecked |>.imp_right not_or.mp
      obtain ⟨protocol, hloop, hprotocol, hcurrent⟩ :=
        h.session hobjects hbuilt htransport (not_not.mp hgeneration)
      have hset : WorkOk ((s.use (.sv2Conn id)).setSv2Conn id
          { s.sv2Conns id with sequenceNumber := (s.sv2Conns id).sequenceNumber + 1 }) :=
        hused.quiet rfl (.of_eq rfl) .refl (.refl _)
      split
      · exact hset
      · exact hset.writeShare (hcurrent.cons not_false) _ sent
  · exact h

theorem WorkOk.submitterStep (h : WorkOk s) (hobjects : ObjectsOk s) (poolIdx : U16)
    (stack : Vector U8 32) (sent : Bool) : WorkOk (s.submitterStep poolIdx stack sent) := by
  have hreplace {s : StratumSubmission} (h : WorkOk s) {queue : List QueuedShare}
      {submitter : SubmitterPlace}
      (hshares : ∀ share, share ∈ queue ∨ submitter.share = some share →
        share ∈ s.queue ∨ s.submitter.share = some share) :
      WorkOk { s with queue := queue, submitter := submitter } :=
    ⟨h.current, fun share hshare =>
      have hbuilt := h.queued share (hshares share hshare)
      ⟨hbuilt.job, hbuilt.generation, hbuilt.protocol⟩, h.written⟩
  unfold StratumSubmission.submitterStep
  split
  · split
    · exact h
    · next share queue hqueue =>
      refine hreplace h fun other hother => .inl ?_
      rw [hqueue]
      rcases hother with hmem | hsome
      · exact List.mem_cons_of_mem _ hmem
      · cases hsome
        exact List.mem_cons_self
  · next share hsubmitter =>
    refine hreplace h fun other hother => hother.imp_right fun hsome => ?_
    rw [hsubmitter]
    split at hsome <;> first | exact hsome | cases hsome
  · next share hsubmitter =>
    refine hreplace h fun other hother => hother.imp_right fun hsome => ?_
    rw [hsubmitter]
    split at hsome <;> first | exact hsome | cases hsome
  · next share hsubmitter =>
    have hbuilt := h.queued share (.inr (congrArg SubmitterPlace.share hsubmitter))
    dsimp only
    split
    · exact hreplace (h.v1SubmitShare hobjects hbuilt sent) fun _ hother => hother.imp_right nofun
    · exact hreplace (h.v2SubmitShare hobjects hbuilt stack sent) fun _ hother =>
        hother.imp_right nofun

theorem initial_work : WorkOk initial :=
  ⟨nofun, fun _ hshare => hshare.elim nofun nofun, trivial⟩

end StratumSubmission

end EspMiner
