import EspMiner.Main.StratumSubmissionWork

/-!
# The numbers of the requests in one session

A Stratum V1 session draws its request ids from one counter, and a Stratum V2
session its sequence numbers.  The numbers sent so far are below the counter of
the session's connection, so the next number is a new one.
-/

namespace EspMiner

open Library

/-- The number that an event sends to a transport. -/
def SubmissionEvent.number (transport : Nat) : SubmissionEvent → Option ShareNumber
  | .request other uid => if other = transport then some (.uid uid) else none
  | .written other number _ => if other = transport then some number else none
  | .used _ | .destroyed _ | .invalidated | .published _ _ _ => none

/-- The request ids and sequence numbers sent to a transport, the newest first. -/
def requestIds (transport : Nat) (trace : List SubmissionEvent) : List ShareNumber :=
  trace.filterMap (SubmissionEvent.number transport)

section RequestIds

variable {transport : Nat} {trace : List SubmissionEvent}

@[simp] theorem requestIds_used (object : StratumObject) :
    requestIds transport (.used object :: trace) = requestIds transport trace := rfl

@[simp] theorem requestIds_destroyed (object : StratumObject) :
    requestIds transport (.destroyed object :: trace) = requestIds transport trace := rfl

@[simp] theorem requestIds_invalidated :
    requestIds transport (.invalidated :: trace) = requestIds transport trace := rfl

@[simp] theorem requestIds_published (other job : Nat) (clean : Bool) :
    requestIds transport (.published other job clean :: trace) = requestIds transport trace := rfl

theorem requestIds_cons {event : SubmissionEvent} {number : ShareNumber}
    (h : event.number transport = some number) :
    requestIds transport (event :: trace) = number :: requestIds transport trace :=
  List.filterMap_cons_some h

theorem requestIds_cons_none {event : SubmissionEvent} (h : event.number transport = none) :
    requestIds transport (event :: trace) = requestIds transport trace :=
  List.filterMap_cons_none h

end RequestIds

namespace StratumSubmission

variable {s s' : StratumSubmission} {transport : Nat} {place : SessionPlace}

/-- The ids sent in the session are below the counter of the connection. -/
def UidsBelow (s : StratumSubmission) (transport : Nat) : Prop :=
  ∀ id, s.sv1Conn = some id → ∀ number ∈ requestIds transport s.trace,
    ∃ uid, number = .uid uid ∧ uid < (s.sv1Conns id).sendUid

/-- An id that was drawn and not sent yet. -/
def UidPending (s : StratumSubmission) (transport : Nat) (uid : Int) : Prop :=
  .uid uid ∉ requestIds transport s.trace ∧
    ∀ id, s.sv1Conn = some id → uid < (s.sv1Conns id).sendUid

/-- The numbers sent in the session are below the counter of the connection,
unless it is back at zero. -/
def SequencesBelow (s : StratumSubmission) (transport : Nat) : Prop :=
  ∀ id, s.sv2Conn = some id → (s.sv2Conns id).sequenceNumber ≠ 0 →
    ∀ number ∈ requestIds transport s.trace,
      ∃ sequence, number = .sequence sequence ∧ sequence < (s.sv2Conns id).sequenceNumber

/-- What the numbers sent in a session are, at each place of the receive task. -/
def SessionNumbers (s : StratumSubmission) : SessionPlace → Prop
  | .v1Connect transport | .v1SetTransport transport | .v1ResetUid transport
  | .v1CleanJobs transport | .v2Connect transport | .v2SetTransport transport
  | .v2UpdatePending transport | .v2CreateNoise transport | .v2Setup transport _ =>
      requestIds transport s.trace = []
  | .v1NextUid transport _ | .v1AllocMessage transport | .v1Loop transport
  | .v1CloseConnection transport => s.UidsBelow transport
  | .v1Setup transport _ uid | .v1Request transport uid =>
      s.UidsBelow transport ∧ s.UidPending transport uid
  | .v2Loop transport | .v2CloseConnection transport => s.SequencesBelow transport
  | .idle | .v1FreeConn _ | .v1AllocConn _ | .v1InitConn _ | .v1InitTransport | .v1Invalidate
  | .v2FreeConn _ | .v2ClearConn _ | .v2AllocConn _ | .v2AllocBuffers | .v2InitTransport
  | .v2Invalidate => True

/-- No number is sent twice in a session, and a transport that is not allocated
yet has got none. -/
structure NumbersOk (s : StratumSubmission) : Prop where
  nodup : ∀ transport, (requestIds transport s.trace).Nodup
  fresh : ∀ transport, s.allocated ≤ transport → requestIds transport s.trace = []
  session : s.SessionNumbers s.receiver

theorem uidsBelow_of_nil (h : requestIds transport s.trace = []) : s.UidsBelow transport := by
  intro id _ number hnumber
  rw [h] at hnumber
  cases hnumber

theorem sequencesBelow_of_nil (h : requestIds transport s.trace = []) :
    s.SequencesBelow transport := by
  intro id _ _ number hnumber
  rw [h] at hnumber
  cases hnumber

theorem NumbersOk.sessionAt (h : NumbersOk s) (hplace : s.receiver = place) :
    s.SessionNumbers place := hplace ▸ h.session

/-- A step that sends nothing. -/
theorem NumbersOk.quiet (h : NumbersOk s)
    (hids : ∀ transport, requestIds transport s'.trace = requestIds transport s.trace)
    (hallocated : s.allocated ≤ s'.allocated) (hsession : s'.SessionNumbers s'.receiver) :
    NumbersOk s' := by
  refine ⟨fun transport => ?_, fun transport hle => ?_, hsession⟩
  · rw [hids]
    exact h.nodup transport
  · rw [hids]
    exact h.fresh transport (Nat.le_trans hallocated hle)

/-- A new number is sent. -/
theorem NumbersOk.send (h : NumbersOk s)
    {number : ShareNumber} (hnumber : number ∉ requestIds transport s.trace)
    (hlt : transport < s.allocated) (hallocated : s'.allocated = s.allocated)
    (hids : requestIds transport s'.trace = number :: requestIds transport s.trace)
    (hothers : ∀ other, other ≠ transport →
      requestIds other s'.trace = requestIds other s.trace)
    (hsession : s'.SessionNumbers s'.receiver) : NumbersOk s' := by
  refine ⟨fun other => ?_, fun other hle => ?_, hsession⟩
  · by_cases hother : other = transport
    · subst hother
      rw [hids]
      exact List.nodup_cons.mpr ⟨hnumber, h.nodup other⟩
    · rw [hothers other hother]
      exact h.nodup other
  · rw [hallocated] at hle
    rw [hothers other (Nat.ne_of_gt (Nat.lt_of_lt_of_le hlt hle))]
    exact h.fresh other hle

/-- A drawn id is a new one. -/
theorem UidsBelow.uid_not_mem {transport id : Nat} (h : s.UidsBelow transport)
    (hconn : s.sv1Conn = some id) :
    .uid (s.sv1Conns id).sendUid ∉ requestIds transport s.trace := by
  intro hmem
  obtain ⟨uid, heq, hlt⟩ := h id hconn _ hmem
  cases heq
  exact Int.lt_irrefl _ hlt

/-- The counter does not go down. -/
theorem UidsBelow.mono (h : s.UidsBelow transport)
    (hids : requestIds transport s'.trace = requestIds transport s.trace)
    (hconn : s'.sv1Conn = s.sv1Conn)
    (hcounter : ∀ id, s.sv1Conn = some id →
      (s.sv1Conns id).sendUid ≤ (s'.sv1Conns id).sendUid) : s'.UidsBelow transport := by
  intro id hid number hnumber
  rw [hconn] at hid
  rw [hids] at hnumber
  obtain ⟨uid, heq, hlt⟩ := h id hid number hnumber
  exact ⟨uid, heq, Int.lt_of_lt_of_le hlt (hcounter id hid)⟩

theorem UidPending.mono {uid : Int}
    (h : s.UidPending transport uid)
    (hids : requestIds transport s'.trace = requestIds transport s.trace)
    (hconn : s'.sv1Conn = s.sv1Conn)
    (hcounter : ∀ id, s.sv1Conn = some id →
      (s.sv1Conns id).sendUid ≤ (s'.sv1Conns id).sendUid) : s'.UidPending transport uid := by
  refine ⟨?_, fun id hid => ?_⟩
  · rw [hids]
    exact h.1
  · rw [hconn] at hid
    exact Int.lt_of_lt_of_le (h.2 id hid) (hcounter id hid)

theorem SequencesBelow.congr
    (h : s.SequencesBelow transport)
    (hids : requestIds transport s'.trace = requestIds transport s.trace)
    (hconn : s'.sv2Conn = s.sv2Conn)
    (hcounter : ∀ id, s.sv2Conn = some id →
      (s'.sv2Conns id).sequenceNumber = (s.sv2Conns id).sequenceNumber) :
    s'.SequencesBelow transport := by
  intro id hid
  rw [hconn] at hid
  rw [hcounter id hid, hids]
  exact h id hid

/-- Nothing changes that the numbers of a session depend on. -/
structure SameNumbers (s s' : StratumSubmission) : Prop where
  ids : ∀ transport, requestIds transport s'.trace = requestIds transport s.trace
  sv1Conn : s'.sv1Conn = s.sv1Conn
  sv2Conn : s'.sv2Conn = s.sv2Conn
  sendUid : ∀ id, (s'.sv1Conns id).sendUid = (s.sv1Conns id).sendUid
  sequenceNumber : ∀ id, (s'.sv2Conns id).sequenceNumber = (s.sv2Conns id).sequenceNumber

theorem SameNumbers.session (h : SameNumbers s s') (hsession : s.SessionNumbers place) :
    s'.SessionNumbers place := by
  have huids {transport : Nat} (hbelow : s.UidsBelow transport) : s'.UidsBelow transport :=
    hbelow.mono (h.ids _) h.sv1Conn fun id _ => Int.le_of_eq (h.sendUid id).symm
  have hpending {transport : Nat} {uid : Int} (hpending : s.UidPending transport uid) :
      s'.UidPending transport uid :=
    hpending.mono (h.ids _) h.sv1Conn fun id _ => Int.le_of_eq (h.sendUid id).symm
  have hsequences {transport : Nat} (hbelow : s.SequencesBelow transport) :
      s'.SequencesBelow transport :=
    hbelow.congr (h.ids _) h.sv2Conn fun id _ => h.sequenceNumber id
  cases place
  all_goals first
    | trivial
    | exact (h.ids _).trans hsession
    | exact huids hsession
    | exact ⟨huids hsession.1, hpending hsession.2⟩
    | exact hsequences hsession

/-- A step that sends nothing and draws nothing. -/
theorem NumbersOk.same (h : NumbersOk s) (hsame : SameNumbers s s')
    (hallocated : s'.allocated = s.allocated) (hreceiver : s'.receiver = s.receiver) :
    NumbersOk s' := by
  refine h.quiet hsame.ids (Nat.le_of_eq hallocated.symm) ?_
  rw [hreceiver]
  exact hsame.session h.session

/-! ## Steps of the receive task -/

/-- The connection of a session of Stratum V1. -/
theorem ObjectsOk.exists_sv1Conn (h : ObjectsOk s) (hplace : s.receiver = place)
    (hconn : place.hasSv1Conn = true) : ∃ id, s.sv1Conn = some id :=
  Option.ne_none_iff_exists'.mp (h.sv1Conn (hplace ▸ hconn))

theorem ObjectsOk.transport_lt (h : ObjectsOk s) (hplace : s.receiver = place)
    (hlocal : place.localTransport = some transport) : transport < s.allocated :=
  h.heldAllocated (.transport transport) (mem_held_transport.mpr (hplace ▸ hlocal))

/-- The receive task draws an id. -/
theorem NumbersOk.nextUid (h : NumbersOk s)
    (hbelow : s.UidsBelow transport) {id : Nat} (hconn : s.sv1Conn = some id)
    {place : Int → SessionPlace}
    (hplace : ∀ (s' : StratumSubmission) uid, s'.UidsBelow transport →
      s'.UidPending transport uid → s'.SessionNumbers (place uid)) :
    NumbersOk (s.nextUid place) := by
  unfold StratumSubmission.nextUid
  rw [hconn]
  dsimp only
  have hcounter : ∀ other, s.sv1Conn = some other → (s.sv1Conns other).sendUid ≤
      (Function.update s.sv1Conns id
        { s.sv1Conns id with sendUid := (s.sv1Conns id).sendUid + 1 } other).sendUid := by
    intro other hother
    cases hconn.symm.trans hother
    rw [Function.update_self]
    exact Int.le_of_lt (Int.lt_succ _)
  refine h.quiet (fun _ => rfl) (Nat.le_refl _) (hplace _ _ (hbelow.mono rfl rfl hcounter) ⟨?_, ?_⟩)
  · exact hbelow.uid_not_mem hconn
  · intro other hother
    cases hconn.symm.trans hother
    exact (congrArg Sv1Conn.sendUid (Function.update_self id _ s.sv1Conns)).symm ▸ Int.lt_succ _

/-- The receive task sends the request for which it drew the id. -/
theorem NumbersOk.sendRequest (h : NumbersOk s) {uid : Int} (hbelow : s.UidsBelow transport)
    (hpending : s.UidPending transport uid) (hlt : transport < s.allocated)
    (hplace : ∀ s' : StratumSubmission, s'.UidsBelow transport → s'.SessionNumbers place) :
    NumbersOk (((s.use (.transport transport)).record (.request transport uid)).goTo place) := by
  have hnumber : (SubmissionEvent.request transport uid).number transport = some (.uid uid) :=
    if_pos rfl
  refine h.send hpending.1 hlt rfl (requestIds_cons hnumber)
    (fun other hother => requestIds_cons_none (if_neg hother.symm)) (hplace _ ?_)
  intro id hid number hmem
  rcases List.mem_cons.mp ((requestIds_cons hnumber).symm ▸ hmem) with rfl | hbefore
  · exact ⟨uid, rfl, hpending.2 id hid⟩
  · exact hbelow id hid number hbefore

theorem requestIds_v1CloseConnection (s : StratumSubmission) (transport : Nat) :
    requestIds transport s.v1CloseConnection.trace = requestIds transport s.trace := by
  unfold StratumSubmission.v1CloseConnection
  dsimp only
  split <;> split <;> rfl

theorem requestIds_v2CloseConnection (s : StratumSubmission) (transport : Nat) :
    requestIds transport s.v2CloseConnection.trace = requestIds transport s.trace := by
  unfold StratumSubmission.v2CloseConnection
  dsimp only
  split <;> split <;> rfl

theorem allocated_v1CloseConnection (s : StratumSubmission) :
    s.v1CloseConnection.allocated = s.allocated := by
  unfold StratumSubmission.v1CloseConnection
  dsimp only
  split <;> split <;> rfl

theorem allocated_v2CloseConnection (s : StratumSubmission) :
    s.v2CloseConnection.allocated = s.allocated := by
  unfold StratumSubmission.v2CloseConnection
  dsimp only
  split <;> split <;> rfl

theorem NumbersOk.v1Step (h : NumbersOk s) (hobjects : ObjectsOk s) (ok : Bool) :
    NumbersOk (s.v1Step ok) := by
  unfold StratumSubmission.v1Step
  cases hplace : s.receiver with
  | v1FreeConn poolIdx =>
    dsimp only
    split <;> exact h.quiet (fun _ => rfl) (Nat.le_refl _) trivial
  | v1AllocConn poolIdx =>
    dsimp only
    split
    · exact h.quiet (fun _ => rfl) (Nat.le_succ _) trivial
    · exact h.quiet (fun _ => rfl) (Nat.le_refl _) trivial
  | v1InitConn poolIdx =>
    dsimp only
    split <;> exact h.quiet (fun _ => rfl) (Nat.le_refl _) trivial
  | v1InitTransport =>
    dsimp only
    split
    · exact h.quiet (fun _ => rfl) (Nat.le_succ _) (h.fresh s.allocated (Nat.le_refl _))
    · exact h.quiet (fun _ => rfl) (Nat.le_refl _) trivial
  | v1Connect transport =>
    dsimp only
    split
    · exact h.quiet (fun _ => rfl) (Nat.le_refl _) (h.sessionAt hplace)
    · exact h.quiet (fun _ => rfl) (Nat.le_refl _) trivial
  | v1SetTransport transport =>
    exact h.quiet (fun _ => rfl) (Nat.le_refl _) (h.sessionAt hplace)
  | v1ResetUid transport =>
    dsimp only
    split <;> exact h.quiet (fun _ => rfl) (Nat.le_refl _) (h.sessionAt hplace)
  | v1CleanJobs transport =>
    have hnil : requestIds transport s.trace = [] := h.sessionAt hplace
    have hbelow : (s.invalidateWork.goTo (.v1NextUid transport 0)).UidsBelow transport :=
      uidsBelow_of_nil hnil
    exact h.quiet (fun _ => rfl) (Nat.le_refl _) hbelow
  | v1NextUid transport sent =>
    obtain ⟨id, hconn⟩ := hobjects.exists_sv1Conn hplace rfl
    exact h.nextUid (h.sessionAt hplace) hconn fun _ _ hbelow hpending => ⟨hbelow, hpending⟩
  | v1Setup transport sent uid =>
    obtain ⟨hbelow, hpending⟩ := h.sessionAt hplace
    refine h.sendRequest hbelow hpending (hobjects.transport_lt hplace rfl) fun _ hbelow => ?_
    split
    · exact hbelow
    · exact hbelow
  | v1AllocMessage transport =>
    have hbelow : s.UidsBelow transport := h.sessionAt hplace
    dsimp only
    split
    · exact h.quiet (fun _ => rfl) (Nat.le_refl _) hbelow
    · split
      · exact h.quiet (fun _ => rfl) (Nat.le_refl _) hbelow
      · exact h.quiet (fun _ => rfl) (Nat.le_refl _) trivial
  | v1Loop transport =>
    dsimp only
    split
    · exact h.same ⟨fun _ => rfl, rfl, rfl, fun _ => rfl, fun _ => rfl⟩ rfl rfl
    · exact h.quiet (fun _ => rfl) (Nat.le_refl _) (h.sessionAt hplace)
  | v1Request transport uid =>
    obtain ⟨hbelow, hpending⟩ := h.sessionAt hplace
    exact h.sendRequest hbelow hpending (hobjects.transport_lt hplace rfl) fun _ hbelow => hbelow
  | v1CloseConnection transport =>
    exact h.quiet (requestIds_v1CloseConnection s)
      (Nat.le_of_eq (allocated_v1CloseConnection s).symm) trivial
  | v1Invalidate => exact h.quiet (fun _ => rfl) (Nat.le_refl _) trivial
  | _ => exact h

theorem NumbersOk.v2Step (h : NumbersOk s) (ok : Bool) : NumbersOk (s.v2Step ok) := by
  unfold StratumSubmission.v2Step
  cases hplace : s.receiver with
  | v2FreeConn starts =>
    dsimp only
    split <;> exact h.quiet (fun _ => rfl) (Nat.le_refl _) trivial
  | v2ClearConn starts =>
    cases starts <;> exact h.quiet (fun _ => rfl) (Nat.le_refl _) trivial
  | v2AllocConn poolIdx =>
    dsimp only
    split
    · exact h.quiet (fun _ => rfl) (Nat.le_succ _) trivial
    · exact h.quiet (fun _ => rfl) (Nat.le_refl _) trivial
  | v2AllocBuffers =>
    cases ok <;> exact h.quiet (fun _ => rfl) (Nat.le_refl _) trivial
  | v2InitTransport =>
    dsimp only
    split
    · exact h.quiet (fun _ => rfl) (Nat.le_succ _) (h.fresh s.allocated (Nat.le_refl _))
    · exact h.quiet (fun _ => rfl) (Nat.le_refl _) trivial
  | v2Connect transport =>
    dsimp only
    split
    · exact h.quiet (fun _ => rfl) (Nat.le_refl _) (h.sessionAt hplace)
    · exact h.quiet (fun _ => rfl) (Nat.le_refl _) trivial
  | v2SetTransport transport =>
    exact h.quiet (fun _ => rfl) (Nat.le_refl _) (h.sessionAt hplace)
  | v2UpdatePending transport =>
    dsimp only
    split <;> exact h.quiet (fun _ => rfl) (Nat.le_refl _) (h.sessionAt hplace)
  | v2CreateNoise transport =>
    have hnil : requestIds transport s.trace = [] := h.sessionAt hplace
    dsimp only
    split
    · exact h.quiet (fun _ => rfl) (Nat.le_refl _) hnil
    · have hbelow : (s.goTo (.v2CloseConnection transport)).SequencesBelow transport :=
        sequencesBelow_of_nil hnil
      exact h.quiet (fun _ => rfl) (Nat.le_refl _) hbelow
  | v2Setup transport stage =>
    have hnil : requestIds transport s.trace = [] := h.sessionAt hplace
    dsimp only
    split
    · split
      · exact h.quiet (fun _ => rfl) (Nat.le_refl _) hnil
      · exact h
    · have hbelow : (s.goTo (.v2CloseConnection transport)).SequencesBelow transport :=
        sequencesBelow_of_nil hnil
      exact h.quiet (fun _ => rfl) (Nat.le_refl _) hbelow
  | v2Loop transport =>
    dsimp only
    split
    · exact h.same ⟨fun _ => rfl, rfl, rfl, fun _ => rfl, fun _ => rfl⟩ rfl rfl
    · exact h.quiet (fun _ => rfl) (Nat.le_refl _) (h.sessionAt hplace)
  | v2CloseConnection transport =>
    exact h.quiet (requestIds_v2CloseConnection s)
      (Nat.le_of_eq (allocated_v2CloseConnection s).symm) trivial
  | v2Invalidate => exact h.quiet (fun _ => rfl) (Nat.le_refl _) trivial
  | _ => exact h

theorem NumbersOk.receiverStep (h : NumbersOk s) (hobjects : ObjectsOk s) (ok : Bool) :
    NumbersOk (s.receiverStep ok) := by
  unfold StratumSubmission.receiverStep
  cases s.receiver
  all_goals first
    | exact h.v1Step hobjects ok
    | exact h.v2Step ok
    | exact h

theorem NumbersOk.start (h : NumbersOk s) (protocol : StratumProtocol) (poolIdx : U16) :
    NumbersOk (s.start protocol poolIdx) := by
  unfold StratumSubmission.start
  split
  · exact h.quiet (fun _ => rfl) (Nat.le_refl _) trivial
  · exact h.quiet (fun _ => rfl) (Nat.le_refl _) trivial
  · exact h

theorem sendUid_stratumV1ApplyVersionMask (conn : Sv1Conn) (message : StratumApiV1Message)
    (supportedMask : U32) :
    (stratumV1ApplyVersionMask conn message supportedMask).sendUid = conn.sendUid := by
  unfold stratumV1ApplyVersionMask
  dsimp only
  split
  · split <;> rfl
  · split <;> rfl

/-- A connection is replaced by one with the same counter. -/
theorem sendUid_update {conns : Nat → Sv1Conn} {id : Nat} {conn : Sv1Conn}
    (h : conn.sendUid = (conns id).sendUid) (other : Nat) :
    (Function.update conns id conn other).sendUid = (conns other).sendUid := by
  by_cases hother : other = id
  · subst hother
    rw [Function.update_self]
    exact h
  · rw [Function.update_of_ne hother]

theorem NumbersOk.receive (h : NumbersOk s) (hobjects : ObjectsOk s) (message : ReceivedMessage) :
    NumbersOk (s.receive message) := by
  unfold StratumSubmission.receive
  split
  · next transport hplace =>
    unfold v1Receive
    split
    · exact h
    · obtain ⟨id, hconn⟩ := hobjects.exists_sv1Conn hplace rfl
      exact h.nextUid (h.sessionAt hplace) hconn fun _ _ hbelow hpending => ⟨hbelow, hpending⟩
    · next message supportedMask =>
      split
      · next id hconn =>
        refine h.same ⟨fun _ => rfl, rfl, rfl, sendUid_update ?_, fun _ => rfl⟩ rfl rfl
        exact sendUid_stratumV1ApplyVersionMask _ _ _
      · exact h
    · split
      · exact h.same ⟨fun _ => rfl, rfl, rfl, fun _ => rfl, fun _ => rfl⟩ rfl rfl
      · exact h
  · next transport hplace =>
    have hnil : requestIds transport s.trace = [] := h.sessionAt hplace
    unfold v2OpenChannel
    split
    · have hbelow (s' : StratumSubmission) (htrace : requestIds transport s'.trace = []) :
          s'.SessionNumbers (.v2Loop transport) := sequencesBelow_of_nil htrace
      exact h.quiet (fun _ => rfl) (Nat.le_refl _) (hbelow _ hnil)
    · exact h
  · next transport hplace =>
    unfold v2Receive
    split
    · dsimp only
      split
      · exact h.same ⟨fun _ => rfl, rfl, rfl, fun _ => rfl, fun _ => rfl⟩ rfl rfl
      · exact h.same ⟨fun _ => rfl, rfl, rfl, fun _ => rfl, fun _ => rfl⟩ rfl rfl
      · exact h
    · exact h
  · exact h

/-! ## Steps of the other tasks -/

/-- `writeShare` only adds to the trace. -/
theorem writeShare_eq (s : StratumSubmission) (transport : Nat) (number : ShareNumber)
    (share : QueuedShare) (sent : Bool) :
    ∃ trace, s.writeShare transport number share sent = { s with trace := trace } ∧
      ∀ other, requestIds other trace =
        requestIds other (.written transport number share :: s.trace) := by
  cases sent
  · exact ⟨_, rfl, fun _ => rfl⟩
  · exact ⟨_, rfl, fun _ => rfl⟩

/-- A share gets the next id of the session. -/
theorem NumbersOk.v1WriteShare (h : NumbersOk s) (hobjects : ObjectsOk s) {transport id : Nat}
    (hconn : s.sv1Conn = some id) (hloop : s.receiver.loop = some (.v1, transport))
    (share : QueuedShare) (sent : Bool) :
    NumbersOk (((s.use (.sv1Conn id)).setSv1Conn id
      { s.sv1Conns id with sendUid := (s.sv1Conns id).sendUid + 1 }).writeShare transport
        (.uid (s.sv1Conns id).sendUid) share sent) := by
  obtain ⟨trace, heq, hids⟩ := writeShare_eq ((s.use (.sv1Conn id)).setSv1Conn id
    { s.sv1Conns id with sendUid := (s.sv1Conns id).sendUid + 1 }) transport
    (.uid (s.sv1Conns id).sendUid) share sent
  rw [heq]
  have hnumber : (SubmissionEvent.written transport (.uid (s.sv1Conns id).sendUid) share).number
      transport = some (.uid (s.sv1Conns id).sendUid) := if_pos rfl
  have hself : requestIds transport trace =
      .uid (s.sv1Conns id).sendUid :: requestIds transport s.trace :=
    (hids transport).trans (requestIds_cons hnumber)
  have hbelow : s.UidsBelow transport := by
    have hsession := h.session
    revert hsession hloop
    cases s.receiver <;> intro hloop hsession <;> cases hloop
    · exact hsession
    · exact hsession.1
    · exact hsession
  have hnew (s' : StratumSubmission) (htrace : s'.trace = trace) (hsv1Conn : s'.sv1Conn = s.sv1Conn)
      (hcounter : (s'.sv1Conns id).sendUid = (s.sv1Conns id).sendUid + 1) :
      s'.UidsBelow transport ∧
        ∀ uid, s.UidPending transport uid → s'.UidPending transport uid := by
    have hlt := hcounter ▸ Int.lt_succ (s.sv1Conns id).sendUid
    refine ⟨fun other hother number hmem => ?_, fun uid hpending => ⟨?_, fun other hother => ?_⟩⟩
    · cases hconn.symm.trans (hsv1Conn.symm.trans hother)
      rw [htrace, hself] at hmem
      rcases List.mem_cons.mp hmem with rfl | hbefore
      · exact ⟨_, rfl, hlt⟩
      · obtain ⟨uid, hnumber, hbefore⟩ := hbelow id hconn number hbefore
        exact ⟨uid, hnumber, Int.lt_trans hbefore hlt⟩
    · rw [htrace, hself]
      intro hmem
      rcases List.mem_cons.mp hmem with hsame | hbefore
      · cases hsame
        exact Int.lt_irrefl _ (hpending.2 id hconn)
      · exact hpending.1 hbefore
    · cases hconn.symm.trans (hsv1Conn.symm.trans hother)
      exact Int.lt_trans (hpending.2 id hconn) hlt
  refine h.send (hbelow.uid_not_mem hconn) ?_ rfl hself (fun other hother => ?_) ?_
  · refine hobjects.transport_lt rfl ?_
    revert hloop
    cases s.receiver <;> intro hloop <;> cases hloop <;> rfl
  · exact (hids other).trans (requestIds_cons_none (if_neg hother.symm))
  · obtain ⟨hbelow', hpending'⟩ := hnew
      { (s.use (.sv1Conn id)).setSv1Conn id
          { s.sv1Conns id with sendUid := (s.sv1Conns id).sendUid + 1 } with trace := trace }
      rfl rfl (congrArg Sv1Conn.sendUid (Function.update_self id _ s.sv1Conns))
    have hsession := h.session
    show SessionNumbers _ s.receiver
    revert hsession hloop
    cases s.receiver <;> intro hloop hsession <;> cases hloop
    · exact hbelow'
    · exact ⟨hbelow', hpending' _ hsession.2⟩
    · exact hbelow'

/-- A sequence counter at zero has numbered no share of the session that is open. -/
def SequenceNumberLeft (s : StratumSubmission) : Prop :=
  ∀ transport id, s.transport = some transport → s.sv2Conn = some id →
    (s.sv2Conns id).sequenceNumber = 0 → requestIds transport s.trace = []

/-- A number below the counter stays below it, unless the counter gets to zero. -/
theorem lt_sequence_succ {number sequence : U32} (hlt : number < sequence)
    (hne : sequence + 1 ≠ 0) : number < sequence + 1 := by
  bv_omega

theorem sequence_lt_succ {sequence : U32} (hne : sequence + 1 ≠ 0) : sequence < sequence + 1 := by
  bv_omega

/-- The numbers of a session of Stratum V2 are below its counter. -/
theorem NumbersOk.sequencesBelow (h : NumbersOk s)
    (hloop : s.receiver.loop = some (.v2, transport)) : s.SequencesBelow transport := by
  have hsession := h.session
  revert hsession hloop
  cases s.receiver <;> intro hloop hsession <;> cases hloop <;> exact hsession

theorem sessionNumbers_of_sequencesBelow (hloop : place.loop = some (.v2, transport))
    (hbelow : s.SequencesBelow transport) : s.SessionNumbers place := by
  revert hloop
  cases place <;> intro hloop <;> cases hloop <;> exact hbelow

/-- The numbers sent so far are below the counter that they were drawn from. -/
theorem NumbersOk.lt_sequenceNumber (h : NumbersOk s) (hleft : s.SequenceNumberLeft)
    {transport id : Nat} (htransport : s.transport = some transport) (hconn : s.sv2Conn = some id)
    (hloop : s.receiver.loop = some (.v2, transport)) :
    ∀ number ∈ requestIds transport s.trace,
      ∃ sequence, number = .sequence sequence ∧ sequence < (s.sv2Conns id).sequenceNumber := by
  intro number hnumber
  by_cases hzero : (s.sv2Conns id).sequenceNumber = 0
  · rw [hleft transport id htransport hconn hzero] at hnumber
    cases hnumber
  · exact h.sequencesBelow hloop id hconn hzero number hnumber

theorem sequenceNumber_update (conns : Nat → Sv2Conn) (id : Nat) :
    (Function.update conns id { conns id with sequenceNumber := (conns id).sequenceNumber + 1 }
      id).sequenceNumber = (conns id).sequenceNumber + 1 := by
  rw [Function.update_self]

/-- A share draws a number that is not sent, because its frame cannot be built. -/
theorem NumbersOk.v2DrawNumber (h : NumbersOk s) (hleft : s.SequenceNumberLeft) {transport id : Nat}
    (htransport : s.transport = some transport) (hconn : s.sv2Conn = some id)
    (hloop : s.receiver.loop = some (.v2, transport)) :
    NumbersOk ((s.use (.sv2Conn id)).setSv2Conn id
      { s.sv2Conns id with sequenceNumber := (s.sv2Conns id).sequenceNumber + 1 }) := by
  have hlt := h.lt_sequenceNumber hleft htransport hconn hloop
  refine h.quiet (fun _ => rfl) (Nat.le_refl _) (sessionNumbers_of_sequencesBelow hloop ?_)
  intro other hother hne number hnumber
  cases hconn.symm.trans hother
  have hcounter := sequenceNumber_update s.sv2Conns id
  obtain ⟨sequence, heq, hbefore⟩ := hlt number hnumber
  exact ⟨sequence, heq, lt_of_lt_of_eq (lt_sequence_succ hbefore fun hzero =>
    hne (hcounter.trans hzero)) hcounter.symm⟩

/-- A share gets the next sequence number of the session. -/
theorem NumbersOk.v2WriteShare (h : NumbersOk s) (hobjects : ObjectsOk s)
    (hleft : s.SequenceNumberLeft) {transport id : Nat} (htransport : s.transport = some transport)
    (hconn : s.sv2Conn = some id) (hloop : s.receiver.loop = some (.v2, transport))
    (share : QueuedShare) (sent : Bool) :
    NumbersOk (((s.use (.sv2Conn id)).setSv2Conn id
      { s.sv2Conns id with sequenceNumber := (s.sv2Conns id).sequenceNumber + 1 }).writeShare
        transport (.sequence (s.sv2Conns id).sequenceNumber) share sent) := by
  obtain ⟨trace, heq, hids⟩ := writeShare_eq ((s.use (.sv2Conn id)).setSv2Conn id
    { s.sv2Conns id with sequenceNumber := (s.sv2Conns id).sequenceNumber + 1 }) transport
    (.sequence (s.sv2Conns id).sequenceNumber) share sent
  rw [heq]
  have hnumber : (SubmissionEvent.written transport (.sequence (s.sv2Conns id).sequenceNumber)
      share).number transport = some (.sequence (s.sv2Conns id).sequenceNumber) := if_pos rfl
  have hself : requestIds transport trace =
      .sequence (s.sv2Conns id).sequenceNumber :: requestIds transport s.trace :=
    (hids transport).trans (requestIds_cons hnumber)
  have hlt := h.lt_sequenceNumber hleft htransport hconn hloop
  refine h.send (fun hmem => ?_) ?_ rfl hself (fun other hother => ?_)
    (sessionNumbers_of_sequencesBelow hloop fun other hother hne number hmem => ?_)
  · obtain ⟨sequence, hsame, hbefore⟩ := hlt _ hmem
    cases hsame
    exact BitVec.lt_irrefl _ hbefore
  · refine hobjects.transport_lt rfl ?_
    revert hloop
    cases s.receiver <;> intro hloop <;> cases hloop <;> rfl
  · exact (hids other).trans (requestIds_cons_none (if_neg hother.symm))
  · cases hconn.symm.trans hother
    have hcounter := sequenceNumber_update s.sv2Conns id
    have hnonzero : (s.sv2Conns id).sequenceNumber + 1 ≠ 0 := fun hzero =>
      hne (hcounter.trans hzero)
    rcases List.mem_cons.mp (hself ▸ hmem) with rfl | hbefore
    · exact ⟨_, rfl, lt_of_lt_of_eq (sequence_lt_succ hnonzero) hcounter.symm⟩
    · obtain ⟨sequence, heq, hbefore⟩ := hlt number hbefore
      exact ⟨sequence, heq, lt_of_lt_of_eq (lt_sequence_succ hbefore hnonzero) hcounter.symm⟩

theorem NumbersOk.submitShare (h : NumbersOk s) (hobjects : ObjectsOk s) (hwork : WorkOk s)
    (hleft : s.SequenceNumberLeft) {share : QueuedShare} (hbuilt : s.BuiltFrom share)
    (stack : Vector U8 32) (sent : Bool) :
    NumbersOk (if share.submission.protocol = .v1 then s.v1SubmitShare share sent
      else s.v2SubmitShare share stack sent) := by
  have hused (object : StratumObject) : NumbersOk (s.use object) :=
    h.same ⟨fun _ => rfl, rfl, rfl, fun _ => rfl, fun _ => rfl⟩ rfl rfl
  split
  · next hv1 =>
    unfold StratumSubmission.v1SubmitShare
    split
    · next transport id htransport hconn =>
      split
      · exact h
      · next hgeneration =>
        obtain ⟨protocol, hloop, hprotocol, -⟩ :=
          hwork.session hobjects hbuilt htransport (not_not.mp hgeneration)
        cases hprotocol.mp hv1
        dsimp only
        split
        · exact hused _
        · split
          · exact hused _
          · exact h.v1WriteShare hobjects hconn hloop share sent
    · exact h
  · next hv2 =>
    unfold StratumSubmission.v2SubmitShare
    dsimp only
    split
    · next transport id htransport hconn =>
      split
      · exact hused _
      · next hchecked =>
        obtain ⟨-, hgeneration, -⟩ := not_or.mp hchecked |>.imp_right not_or.mp
        obtain ⟨protocol, hloop, hprotocol, -⟩ :=
          hwork.session hobjects hbuilt htransport (not_not.mp hgeneration)
        have hsession : s.receiver.loop = some (.v2, transport) := by
          cases protocol with
          | v1 => exact absurd (hprotocol.mpr rfl) hv2
          | v2 => exact hloop
        split
        · exact h.v2DrawNumber hleft htransport hconn hsession
        · exact h.v2WriteShare hobjects hleft htransport hconn hsession share sent
    · exact h

theorem NumbersOk.submitterStep (h : NumbersOk s) (hobjects : ObjectsOk s) (hwork : WorkOk s)
    (hleft : s.SequenceNumberLeft) (poolIdx : U16) (stack : Vector U8 32) (sent : Bool) :
    NumbersOk (s.submitterStep poolIdx stack sent) := by
  have hsame {s s' : StratumSubmission} (h : NumbersOk s) (htrace : s'.trace = s.trace)
      (hsv1Conn : s'.sv1Conn = s.sv1Conn) (hsv2Conn : s'.sv2Conn = s.sv2Conn)
      (hsv1Conns : s'.sv1Conns = s.sv1Conns) (hsv2Conns : s'.sv2Conns = s.sv2Conns)
      (hallocated : s'.allocated = s.allocated) (hreceiver : s'.receiver = s.receiver) :
      NumbersOk s' :=
    h.same ⟨fun _ => by rw [htrace], hsv1Conn, hsv2Conn, fun _ => by rw [hsv1Conns],
      fun _ => by rw [hsv2Conns]⟩ hallocated hreceiver
  unfold StratumSubmission.submitterStep
  split
  · split
    · exact h
    · exact hsame h rfl rfl rfl rfl rfl rfl rfl
  · exact hsame h rfl rfl rfl rfl rfl rfl rfl
  · exact hsame h rfl rfl rfl rfl rfl rfl rfl
  · next share hsubmitter =>
    have hbuilt := hwork.queued share (.inr (congrArg SubmitterPlace.share hsubmitter))
    exact hsame (h.submitShare hobjects hwork hleft hbuilt stack sent) rfl rfl rfl rfl rfl rfl rfl

theorem NumbersOk.queueShare (h : NumbersOk s) (job : Nat) (submission : AsicShareSubmission)
    (captured : Bool) : NumbersOk (s.queueShare job submission captured) := by
  unfold StratumSubmission.queueShare
  split
  · exact h.same ⟨fun _ => rfl, rfl, rfl, fun _ => rfl, fun _ => rfl⟩ rfl rfl
  · exact h

theorem NumbersOk.requestReconnect (h : NumbersOk s) : NumbersOk s.requestReconnect := by
  unfold StratumSubmission.requestReconnect
  split
  · exact h.same ⟨fun _ => rfl, rfl, rfl, fun _ => rfl, fun _ => rfl⟩ rfl rfl
  · exact h

theorem initial_numbers : NumbersOk initial := ⟨fun _ => .nil, fun _ _ => rfl, trivial⟩

end StratumSubmission

end EspMiner
