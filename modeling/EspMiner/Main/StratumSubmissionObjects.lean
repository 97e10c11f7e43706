import EspMiner.Main.StratumSubmission

/-!
# Transports and connections are not used after they were destroyed

The shared transport is the one of the session that the receive task is in, and
nothing points to a destroyed object, except a connection pointer between the
freeing and the clearing, when there is no transport.  One path breaks this: a
Stratum V1 session that gets no message record destroys its transport and
returns with the shared pointer set.
-/

namespace EspMiner

open Library

def StratumObject.id : StratumObject → Nat
  | .transport id | .sv1Conn id | .sv2Conn id => id

/-- The object that an event uses. -/
def SubmissionEvent.object : SubmissionEvent → Option StratumObject
  | .used object | .destroyed object => some object
  | .invalidated | .published _ _ _ | .request _ _ | .written _ _ _ => none

/-- An object is not used and not destroyed after it was destroyed. -/
def UsedBeforeDestroyed (event : SubmissionEvent) (older : List SubmissionEvent) : Prop :=
  ∀ object, event.object = some object → .destroyed object ∉ older

namespace SessionPlace

/-- The transport that the receive task works on. -/
def localTransport : SessionPlace → Option Nat
  | .v1Connect transport | .v1SetTransport transport | .v1ResetUid transport
  | .v1CleanJobs transport | .v1NextUid transport _ | .v1Setup transport _ _
  | .v1AllocMessage transport | .v1Loop transport | .v1Request transport _
  | .v1CloseConnection transport | .v2Connect transport | .v2SetTransport transport
  | .v2UpdatePending transport | .v2CreateNoise transport | .v2Setup transport _
  | .v2Loop transport | .v2CloseConnection transport => some transport
  | _ => none

/-- The transport that the session has published. -/
def openTransport : SessionPlace → Option Nat
  | .v1Connect _ | .v1SetTransport _ | .v2Connect _ | .v2SetTransport _ => none
  | place => place.localTransport

/-- The session has its Stratum V1 connection. -/
def hasSv1Conn : SessionPlace → Bool
  | .v1InitConn _ | .v1InitTransport | .v1Connect _ | .v1SetTransport _ | .v1ResetUid _
  | .v1CleanJobs _ | .v1NextUid _ _ | .v1Setup _ _ _ | .v1AllocMessage _ | .v1Loop _
  | .v1Request _ _ | .v1CloseConnection _ => true
  | _ => false

/-- The session has its Stratum V2 connection. -/
def hasSv2Conn : SessionPlace → Bool
  | .v2AllocBuffers | .v2InitTransport | .v2Connect _ | .v2SetTransport _ | .v2UpdatePending _
  | .v2CreateNoise _ | .v2Setup _ _ | .v2Loop _ | .v2CloseConnection _ => true
  | _ => false

/-- The Stratum V1 connection pointer is about to be overwritten. -/
def overwritesSv1Conn : SessionPlace → Bool
  | .v1AllocConn _ => true
  | _ => false

/-- The Stratum V2 connection pointer is about to be overwritten. -/
def overwritesSv2Conn : SessionPlace → Bool
  | .v2ClearConn _ => true
  | _ => false

/-- The receive task leaves the connection pointers alone. -/
structure KeepsConns (place place' : SessionPlace) : Prop where
  hasSv1Conn : place'.hasSv1Conn = true → place.hasSv1Conn = true
  hasSv2Conn : place'.hasSv2Conn = true → place.hasSv2Conn = true
  keepsSv1Conn : place.overwritesSv1Conn = false
  keepsSv2Conn : place.overwritesSv2Conn = false

/-- The receive task goes on with what it has. -/
structure Continues (place place' : SessionPlace) : Prop extends KeepsConns place place' where
  openTransport : place'.openTransport = place.openTransport
  localTransport : ∀ transport, place'.localTransport = some transport →
    place.localTransport = some transport

/-- The receive task stays in its open session. -/
theorem Continues.inSession {place place' : SessionPlace} {transport : Nat}
    (hopen : place.openTransport = some transport) (hopen' : place'.openTransport = some transport)
    (hsv1Conn : place'.hasSv1Conn = place.hasSv1Conn)
    (hsv2Conn : place'.hasSv2Conn = place.hasSv2Conn) : place.Continues place' := by
  have hlocal {place : SessionPlace} (h : place.openTransport = some transport) :
      place.localTransport = some transport := by
    cases place <;> first | exact h | cases h
  refine ⟨⟨fun h => hsv1Conn ▸ h, fun h => hsv2Conn ▸ h, ?_, ?_⟩, hopen'.trans hopen.symm,
    fun other hother => ?_⟩
  · cases place <;> first | rfl | cases hopen
  · cases place <;> first | rfl | cases hopen
  · rw [← hother, hlocal hopen, hlocal hopen']

end SessionPlace

/-! ## What somebody can use -/

namespace StratumSubmission

variable {s s' : StratumSubmission} {place place' : SessionPlace} {transport : Nat}

/-- The objects that somebody can still use: a pointer that is about to be
overwritten does not count. -/
def held (s : StratumSubmission) : List StratumObject :=
  (s.receiver.localTransport.map .transport).toList ++
    (if s.receiver.overwritesSv1Conn then [] else (s.sv1Conn.map .sv1Conn).toList) ++
    if s.receiver.overwritesSv2Conn then [] else (s.sv2Conn.map .sv2Conn).toList

theorem mem_held_transport :
    .transport transport ∈ s.held ↔ s.receiver.localTransport = some transport := by
  unfold held
  split <;> split <;> simp

theorem mem_held_sv1Conn {id : Nat} :
    .sv1Conn id ∈ s.held ↔ s.receiver.overwritesSv1Conn = false ∧ s.sv1Conn = some id := by
  unfold held
  split <;> split <;> simp [*]

theorem mem_held_sv2Conn {id : Nat} :
    .sv2Conn id ∈ s.held ↔ s.receiver.overwritesSv2Conn = false ∧ s.sv2Conn = some id := by
  unfold held
  split <;> split <;> simp [*]

/-- What somebody can use is the transport of the receive task or has a pointer. -/
theorem forall_held {P : StratumObject → Prop}
    (htransport : ∀ id, s.receiver.localTransport = some id → P (.transport id))
    (hsv1Conn : ∀ id, s.receiver.overwritesSv1Conn = false ∧ s.sv1Conn = some id →
      P (.sv1Conn id))
    (hsv2Conn : ∀ id, s.receiver.overwritesSv2Conn = false ∧ s.sv2Conn = some id →
      P (.sv2Conn id)) : ∀ object ∈ s.held, P object := by
  intro object hobject
  cases object with
  | transport id => exact htransport id (mem_held_transport.mp hobject)
  | sv1Conn id => exact hsv1Conn id (mem_held_sv1Conn.mp hobject)
  | sv2Conn id => exact hsv2Conn id (mem_held_sv2Conn.mp hobject)

/-- The pointers agree with the place of the receive task. -/
structure PointersOk (s : StratumSubmission) : Prop where
  transport : s.transport = s.receiver.openTransport
  sv1Conn : s.receiver.hasSv1Conn = true → s.sv1Conn ≠ none
  sv2Conn : s.receiver.hasSv2Conn = true → s.sv2Conn ≠ none

/-- The pointers agree with the place, and what somebody can use was not destroyed. -/
structure ObjectsOk (s : StratumSubmission) : Prop extends PointersOk s where
  live : ∀ object ∈ s.held, .destroyed object ∉ s.trace
  heldAllocated : ∀ object ∈ s.held, object.id < s.allocated
  destroyedAllocated : ∀ object, .destroyed object ∈ s.trace → object.id < s.allocated
  safe : Throughout UsedBeforeDestroyed s.trace

/-! ## Steps that free nothing -/

/-- Nothing changes that the objects depend on. -/
theorem ObjectsOk.congr (h : ObjectsOk s) (htransport : s'.transport = s.transport)
    (hsv1Conn : s'.sv1Conn = s.sv1Conn) (hsv2Conn : s'.sv2Conn = s.sv2Conn)
    (hallocated : s'.allocated = s.allocated) (hreceiver : s'.receiver = s.receiver)
    (htrace : s'.trace = s.trace) : ObjectsOk s' := by
  have hheld : s'.held = s.held := by
    unfold held
    rw [hreceiver, hsv1Conn, hsv2Conn]
  refine ⟨⟨?_, ?_, ?_⟩, ?_, ?_, ?_, ?_⟩
  · rw [htransport, hreceiver]
    exact h.transport
  · rw [hreceiver, hsv1Conn]
    exact h.sv1Conn
  · rw [hreceiver, hsv2Conn]
    exact h.sv2Conn
  · rw [hheld, htrace]
    exact h.live
  · rw [hheld, hallocated]
    exact h.heldAllocated
  · rw [htrace, hallocated]
    exact h.destroyedAllocated
  · rw [htrace]
    exact h.safe

/-- An event that destroys nothing and uses only what is held. -/
theorem ObjectsOk.record (h : ObjectsOk s) {event : SubmissionEvent}
    (hevent : ∀ object, event ≠ .destroyed object)
    (huses : ∀ object, event.object = some object → object ∈ s.held) :
    ObjectsOk (s.record event) := by
  have hmem : ∀ object, .destroyed object ∈ (s.record event).trace →
      .destroyed object ∈ s.trace := fun object hobject =>
    (List.mem_cons.mp hobject).resolve_left fun heq => hevent object heq.symm
  exact ⟨⟨h.transport, h.sv1Conn, h.sv2Conn⟩,
    fun object hheld hobject => h.live object hheld (hmem object hobject), h.heldAllocated,
    fun object hobject => h.destroyedAllocated object (hmem object hobject),
    fun object hobject => h.live object (huses object hobject), h.safe⟩

theorem ObjectsOk.use (h : ObjectsOk s) {object : StratumObject} (hheld : object ∈ s.held) :
    ObjectsOk (s.use object) :=
  h.record nofun fun other hother => by
    cases hother
    exact hheld

/-- A step that only records, apart from what the objects do not depend on. -/
theorem ObjectsOk.note (h : ObjectsOk s) {event : SubmissionEvent} (hobject : event.object = none)
    (htransport : s'.transport = s.transport) (hsv1Conn : s'.sv1Conn = s.sv1Conn)
    (hsv2Conn : s'.sv2Conn = s.sv2Conn) (hallocated : s'.allocated = s.allocated)
    (hreceiver : s'.receiver = s.receiver) (htrace : s'.trace = event :: s.trace) :
    ObjectsOk s' := by
  have hrecorded : ObjectsOk (s.record event) := by
    refine h.record (fun object heq => ?_) fun object hsome => nomatch hobject.symm.trans hsome
    rw [heq] at hobject
    cases hobject
  exact hrecorded.congr htransport hsv1Conn hsv2Conn hallocated hreceiver htrace

theorem ObjectsOk.goTo (h : ObjectsOk s) (hplace : s.receiver = place)
    (hcontinues : place.Continues place') : ObjectsOk (s.goTo place') := by
  subst hplace
  have hheld : ∀ object ∈ (s.goTo place').held, object ∈ s.held := forall_held
    (fun id hlocal => mem_held_transport.mpr (hcontinues.localTransport id hlocal))
    (fun _ hsome => mem_held_sv1Conn.mpr ⟨hcontinues.keepsSv1Conn, hsome.2⟩)
    fun _ hsome => mem_held_sv2Conn.mpr ⟨hcontinues.keepsSv2Conn, hsome.2⟩
  exact ⟨⟨h.transport.trans hcontinues.openTransport.symm,
    fun hsome => h.sv1Conn (hcontinues.hasSv1Conn hsome),
    fun hsome => h.sv2Conn (hcontinues.hasSv2Conn hsome)⟩,
    fun object hmem => h.live object (hheld object hmem),
    fun object hmem => h.heldAllocated object (hheld object hmem), h.destroyedAllocated, h.safe⟩

/-- The pointers agree with a place at which the connections are still there. -/
theorem PointersOk.pointers (h : PointersOk s) (hkeeps : s.receiver.KeepsConns s'.receiver)
    (htransport : s'.transport = s'.receiver.openTransport) (hsv1Conn : s'.sv1Conn = s.sv1Conn)
    (hsv2Conn : s'.sv2Conn = s.sv2Conn) : PointersOk s' where
  transport := htransport
  sv1Conn hsome := hsv1Conn ▸ h.sv1Conn (hkeeps.hasSv1Conn hsome)
  sv2Conn hsome := hsv2Conn ▸ h.sv2Conn (hkeeps.hasSv2Conn hsome)

/-! ## Steps that free or allocate -/

/-- An object that is held is destroyed, and afterwards nobody holds it. -/
theorem ObjectsOk.release (h : ObjectsOk s) {object : StratumObject} (hobject : object ∈ s.held)
    (htrace : s'.trace = .destroyed object :: .used object :: s.trace)
    (hheld : ∀ other ∈ s'.held, other ∈ s.held ∧ other ≠ object)
    (hallocated : s'.allocated = s.allocated) (hpointers : PointersOk s') : ObjectsOk s' := by
  have hlive := h.live object hobject
  have hmem : ∀ other, .destroyed other ∈ s'.trace →
      other = object ∨ .destroyed other ∈ s.trace := by
    intro other hother
    rw [htrace] at hother
    simpa using hother
  refine ⟨hpointers, ?_, ?_, ?_, ?_⟩
  · intro other hother hdestroyed
    obtain ⟨hbefore, hne⟩ := hheld other hother
    rcases hmem other hdestroyed with heq | hold
    · exact hne heq
    · exact h.live other hbefore hold
  · intro other hother
    rw [hallocated]
    exact h.heldAllocated other (hheld other hother).1
  · intro other hother
    rw [hallocated]
    rcases hmem other hother with heq | hold
    · rw [heq]
      exact h.heldAllocated object hobject
    · exact h.destroyedAllocated other hold
  · rw [htrace]
    refine ⟨fun other hother => ?_, fun other hother => ?_, h.safe⟩
    · cases hother
      simpa using hlive
    · cases hother
      exact hlive

/-- Something is allocated, and afterwards held besides what was held. -/
theorem ObjectsOk.allocate (h : ObjectsOk s) (htrace : s'.trace = s.trace)
    (hallocated : s'.allocated = s.allocated + 1)
    (hheld : ∀ object ∈ s'.held, object ∈ s.held ∨ object.id = s.allocated)
    (hpointers : PointersOk s') : ObjectsOk s' := by
  refine ⟨hpointers, ?_, ?_, ?_, ?_⟩
  · intro object hobject hdestroyed
    rw [htrace] at hdestroyed
    rcases hheld object hobject with hbefore | hid
    · exact h.live object hbefore hdestroyed
    · exact absurd hid (Nat.ne_of_lt (h.destroyedAllocated object hdestroyed))
  · intro object hobject
    rw [hallocated]
    rcases hheld object hobject with hbefore | hid
    · exact Nat.lt_succ_of_lt (h.heldAllocated object hbefore)
    · rw [hid]
      exact Nat.lt_succ_self _
  · intro object hobject
    rw [htrace] at hobject
    rw [hallocated]
    exact Nat.lt_succ_of_lt (h.destroyedAllocated object hobject)
  · rw [htrace]
    exact h.safe

/-- A pointer is overwritten, or a transport published. -/
theorem ObjectsOk.assign (h : ObjectsOk s) (htrace : s'.trace = s.trace)
    (hallocated : s'.allocated = s.allocated) (hheld : ∀ object ∈ s'.held, object ∈ s.held)
    (hpointers : PointersOk s') : ObjectsOk s' := by
  refine ⟨hpointers, ?_, ?_, ?_, ?_⟩
  · rw [htrace]
    exact fun object hobject => h.live object (hheld object hobject)
  · rw [hallocated]
    exact fun object hobject => h.heldAllocated object (hheld object hobject)
  · rw [htrace, hallocated]
    exact h.destroyedAllocated
  · rw [htrace]
    exact h.safe

/-! ## Steps of the receive task -/

/-- The task uses its connection and goes on. -/
theorem ObjectsOk.useSv1Conn (h : ObjectsOk s) (hplace : s.receiver = place)
    (hcontinues : place.Continues place') {id : Nat} (hconn : s.sv1Conn = some id)
    (conn : Sv1Conn) :
    ObjectsOk (((s.use (.sv1Conn id)).setSv1Conn id conn).goTo place') := by
  have hheld : .sv1Conn id ∈ s.held :=
    mem_held_sv1Conn.mpr ⟨hplace ▸ hcontinues.keepsSv1Conn, hconn⟩
  have hset : ObjectsOk ((s.use (.sv1Conn id)).setSv1Conn id conn) :=
    (h.use hheld).congr rfl rfl rfl rfl rfl rfl
  exact hset.goTo hplace hcontinues

theorem ObjectsOk.nextUid (h : ObjectsOk s) {place : SessionPlace} {place' : Int → SessionPlace}
    (hplace : s.receiver = place) (hcontinues : ∀ uid, place.Continues (place' uid)) :
    ObjectsOk (s.nextUid place') := by
  unfold StratumSubmission.nextUid
  split
  · exact h.goTo hplace (hcontinues 1)
  · next id hconn => exact h.useSv1Conn hplace (hcontinues _) hconn _

/-- The task sends a request and goes on. -/
theorem ObjectsOk.sendRequest (h : ObjectsOk s) (hplace : s.receiver = place)
    (hcontinues : place.Continues place') (htransport : place.localTransport = some transport)
    (uid : Int) :
    ObjectsOk (((s.use (.transport transport)).record (.request transport uid)).goTo place') := by
  have hused := h.use (mem_held_transport.mpr (hplace ▸ htransport))
  have hnoted : ObjectsOk ((s.use (.transport transport)).record (.request transport uid)) :=
    hused.note rfl rfl rfl rfl rfl rfl rfl
  exact hnoted.goTo hplace hcontinues

theorem ObjectsOk.invalidateWork (h : ObjectsOk s) : ObjectsOk s.invalidateWork :=
  h.note rfl rfl rfl rfl rfl rfl rfl

theorem ObjectsOk.publishJob (h : ObjectsOk s) (transport : Nat) (job : MinerJob) :
    ObjectsOk (s.publishJob transport job) :=
  h.note rfl rfl rfl rfl rfl rfl rfl

/-- A connection that is held stays held when a transport is given up. -/
theorem held_of_closed (s s' : StratumSubmission)
    (hlocal : s'.receiver.localTransport = none)
    (hkeepsSv1Conn : s.receiver.overwritesSv1Conn = false)
    (hkeepsSv2Conn : s.receiver.overwritesSv2Conn = false)
    (hsv1Conn : ∀ id, s'.sv1Conn = some id → s.sv1Conn = some id)
    (hsv2Conn : ∀ id, s'.sv2Conn = some id → s.sv2Conn = some id) :
    ∀ object ∈ s'.held, object ∈ s.held ∧ ∀ id, object ≠ .transport id :=
  forall_held (fun _ hsome => nomatch hlocal.symm.trans hsome)
    (fun id hsome => ⟨mem_held_sv1Conn.mpr ⟨hkeepsSv1Conn, hsv1Conn id hsome.2⟩, nofun⟩)
    fun id hsome => ⟨mem_held_sv2Conn.mpr ⟨hkeepsSv2Conn, hsv2Conn id hsome.2⟩, nofun⟩

/-- Under the lock, the transport and the connection of a Stratum V1 session are
given up. -/
theorem ObjectsOk.v1CloseConnection (h : ObjectsOk s)
    (hplace : s.receiver = .v1CloseConnection transport) :
    ObjectsOk (s.v1CloseConnection.goTo .v1Invalidate) := by
  have htransport : s.transport = some transport := h.transport.trans (by rw [hplace]; rfl)
  obtain ⟨id, hconn⟩ := Option.ne_none_iff_exists'.mp (h.sv1Conn (by rw [hplace]; rfl))
  have hheldTransport : .transport transport ∈ s.held :=
    mem_held_transport.mpr (by rw [hplace]; rfl)
  -- the state in which only the connection is left
  let closed := ({ s with transport := none }.destroy (.transport transport)).goTo .v1InitTransport
  have hclosed : ObjectsOk closed := by
    refine h.release hheldTransport rfl (fun other hother => ?_) rfl
      ⟨rfl, fun _ hnone => (nomatch hconn.symm.trans hnone), nofun⟩
    obtain ⟨hheld, hne⟩ := held_of_closed s closed rfl (by rw [hplace]; rfl) (by rw [hplace]; rfl)
      (fun _ hsome => hsome) (fun _ hsome => hsome) other hother
    exact ⟨hheld, hne transport⟩
  have hheldConn : .sv1Conn id ∈ closed.held := mem_held_sv1Conn.mpr ⟨rfl, hconn⟩
  unfold StratumSubmission.v1CloseConnection
  rw [htransport, hconn]
  refine hclosed.release hheldConn rfl ?_ rfl ⟨rfl, nofun, nofun⟩
  exact forall_held nofun nofun fun _ hsome => ⟨mem_held_sv2Conn.mpr ⟨rfl, hsome.2⟩, nofun⟩

/-- Under the lock, the transport and the connection of a Stratum V2 session are
given up. -/
theorem ObjectsOk.v2CloseConnection (h : ObjectsOk s)
    (hplace : s.receiver = .v2CloseConnection transport) :
    ObjectsOk (s.v2CloseConnection.goTo .v2Invalidate) := by
  have htransport : s.transport = some transport := h.transport.trans (by rw [hplace]; rfl)
  obtain ⟨id, hconn⟩ := Option.ne_none_iff_exists'.mp (h.sv2Conn (by rw [hplace]; rfl))
  have hheldTransport : .transport transport ∈ s.held :=
    mem_held_transport.mpr (by rw [hplace]; rfl)
  have hused : ObjectsOk (s.use (.sv2Conn id)) :=
    h.use (mem_held_sv2Conn.mpr ⟨by rw [hplace]; rfl, hconn⟩)
  -- the state in which only the connection is left
  let closed := ({ s.use (.sv2Conn id) with transport := none }.destroy
    (.transport transport)).goTo .v2InitTransport
  have hclosed : ObjectsOk closed := by
    refine hused.release hheldTransport rfl (fun other hother => ?_) rfl
      ⟨rfl, nofun, fun _ hnone => nomatch hconn.symm.trans hnone⟩
    obtain ⟨hheld, hne⟩ := held_of_closed s closed rfl (by rw [hplace]; rfl) (by rw [hplace]; rfl)
      (fun _ hsome => hsome) (fun _ hsome => hsome) other hother
    exact ⟨hheld, hne transport⟩
  have hheldConn : .sv2Conn id ∈ closed.held := mem_held_sv2Conn.mpr ⟨rfl, hconn⟩
  unfold StratumSubmission.v2CloseConnection
  rw [htransport, hconn]
  refine hclosed.release hheldConn rfl ?_ rfl ⟨rfl, nofun, nofun⟩
  exact forall_held nofun (fun _ hsome => ⟨mem_held_sv1Conn.mpr ⟨rfl, hsome.2⟩, nofun⟩) nofun

/-- The connection of an earlier Stratum V1 session is freed. -/
theorem ObjectsOk.v1FreeConn (h : ObjectsOk s) {poolIdx : U16}
    (hplace : s.receiver = .v1FreeConn poolIdx) {id : Nat} (hconn : s.sv1Conn = some id) :
    ObjectsOk ((s.destroy (.sv1Conn id)).goTo (.v1AllocConn poolIdx)) := by
  have htransport : s.transport = none := h.transport.trans (by rw [hplace]; rfl)
  refine h.release (mem_held_sv1Conn.mpr ⟨by rw [hplace]; rfl, hconn⟩) rfl ?_ rfl
    ⟨htransport, nofun, nofun⟩
  exact forall_held nofun nofun
    fun _ hsome => ⟨mem_held_sv2Conn.mpr ⟨by rw [hplace]; rfl, hsome.2⟩, nofun⟩

/-- A transport that was not published is destroyed. -/
theorem ObjectsOk.abandon (h : ObjectsOk s) (hplace : s.receiver = place)
    (hlocal : place.localTransport = some transport) (hopen : place.openTransport = none)
    (hopen' : place'.openTransport = none) (hlocal' : place'.localTransport = none)
    (hkeeps : place.KeepsConns place') :
    ObjectsOk ((s.destroy (.transport transport)).goTo place') := by
  subst hplace
  refine h.release (mem_held_transport.mpr hlocal) rfl (fun other hother => ?_) rfl
    (h.pointers hkeeps ((h.transport.trans hopen).trans hopen'.symm) rfl rfl)
  obtain ⟨hheld, hne⟩ := held_of_closed s ((s.destroy (.transport transport)).goTo place') hlocal'
    hkeeps.keepsSv1Conn hkeeps.keepsSv2Conn (fun _ hsome => hsome) (fun _ hsome => hsome) other
    hother
  exact ⟨hheld, hne transport⟩

/-- A transport is made. -/
theorem ObjectsOk.newTransport (h : ObjectsOk s) (hplace : s.receiver = place)
    (hopen : place.openTransport = none) (hopen' : place'.openTransport = none)
    (hlocal' : place'.localTransport = some s.allocated) (hkeeps : place.KeepsConns place') :
    ObjectsOk ({ s with allocated := s.allocated + 1 }.goTo place') := by
  subst hplace
  refine h.allocate rfl rfl ?_
    (h.pointers hkeeps ((h.transport.trans hopen).trans hopen'.symm) rfl rfl)
  exact forall_held (fun _ hsome => .inr (Option.some.inj (hsome.symm.trans hlocal')))
    (fun _ hsome => .inl (mem_held_sv1Conn.mpr ⟨hkeeps.keepsSv1Conn, hsome.2⟩))
    fun _ hsome => .inl (mem_held_sv2Conn.mpr ⟨hkeeps.keepsSv2Conn, hsome.2⟩)

/-- The transport of a session is published. -/
theorem ObjectsOk.setTransport (h : ObjectsOk s) (hplace : s.receiver = place)
    (hlocal : place.localTransport = some transport)
    (hopen' : place'.openTransport = some transport)
    (hlocal' : place'.localTransport = some transport) (hkeeps : place.KeepsConns place') :
    ObjectsOk ({ s with transport := some transport }.goTo place') := by
  subst hplace
  refine h.assign rfl rfl ?_ (h.pointers hkeeps hopen'.symm rfl rfl)
  exact forall_held
    (fun _ hsome => mem_held_transport.mpr (hlocal.trans (hlocal'.symm.trans hsome)))
    (fun _ hsome => mem_held_sv1Conn.mpr ⟨hkeeps.keepsSv1Conn, hsome.2⟩)
    fun _ hsome => mem_held_sv2Conn.mpr ⟨hkeeps.keepsSv2Conn, hsome.2⟩

theorem ObjectsOk.v1Step (h : ObjectsOk s) {ok : Bool}
    (hmessage : ∀ transport, s.receiver = .v1AllocMessage transport →
      s.messageAllocated = true ∨ ok = true) : ObjectsOk (s.v1Step ok) := by
  unfold StratumSubmission.v1Step
  cases hplace : s.receiver with
  | v1FreeConn poolIdx =>
    dsimp only
    split
    · next id hconn => exact h.v1FreeConn hplace hconn
    · next hconn =>
      refine h.assign rfl rfl ?_ ⟨h.transport.trans (by rw [hplace]; rfl), nofun, nofun⟩
      exact forall_held nofun (fun _ hsome => nomatch hconn.symm.trans hsome.2)
        fun _ hsome => mem_held_sv2Conn.mpr ⟨by rw [hplace]; rfl, hsome.2⟩
  | v1AllocConn poolIdx =>
    have htransport : s.transport = none := h.transport.trans (by rw [hplace]; rfl)
    dsimp only
    split
    · refine h.allocate rfl rfl ?_ ⟨htransport, fun _ => Option.some_ne_none _, nofun⟩
      exact forall_held nofun (fun _ hsome => .inr (Option.some.inj hsome.2).symm)
        fun _ hsome => .inl (mem_held_sv2Conn.mpr ⟨by rw [hplace]; rfl, hsome.2⟩)
    · refine h.assign rfl rfl ?_ ⟨htransport, nofun, nofun⟩
      exact forall_held nofun nofun
        fun _ hsome => mem_held_sv2Conn.mpr ⟨by rw [hplace]; rfl, hsome.2⟩
  | v1InitConn poolIdx =>
    dsimp only
    split
    · next id hconn =>
      refine h.useSv1Conn hplace ?_ hconn _
      exact ⟨⟨fun _ => rfl, nofun, rfl, rfl⟩, rfl, nofun⟩
    · exact h.goTo hplace ⟨⟨nofun, nofun, rfl, rfl⟩, rfl, nofun⟩
  | v1InitTransport =>
    dsimp only
    split
    · exact h.newTransport hplace rfl rfl rfl ⟨fun _ => rfl, nofun, rfl, rfl⟩
    · exact h.goTo hplace ⟨⟨nofun, nofun, rfl, rfl⟩, rfl, nofun⟩
  | v1Connect transport =>
    dsimp only
    split
    · have hused := h.use (mem_held_transport.mpr (by rw [hplace]; rfl))
      refine hused.goTo hplace ?_
      exact ⟨⟨fun _ => rfl, nofun, rfl, rfl⟩, rfl, fun _ hlocal => hlocal⟩
    · exact h.abandon hplace rfl rfl rfl rfl ⟨nofun, nofun, rfl, rfl⟩
  | v1SetTransport transport =>
    exact h.setTransport hplace rfl rfl rfl ⟨fun _ => rfl, nofun, rfl, rfl⟩
  | v1ResetUid transport =>
    dsimp only
    split
    · next id hconn =>
      refine h.useSv1Conn hplace ?_ hconn _
      exact .inSession rfl rfl rfl rfl
    · exact h.goTo hplace (.inSession rfl rfl rfl rfl)
  | v1CleanJobs transport =>
    exact h.invalidateWork.goTo hplace (.inSession rfl rfl rfl rfl)
  | v1NextUid transport sent =>
    exact h.nextUid hplace fun _ => .inSession rfl rfl rfl rfl
  | v1Setup transport sent uid =>
    refine h.sendRequest hplace ?_ rfl uid
    split
    · exact .inSession rfl rfl rfl rfl
    · exact .inSession rfl rfl rfl rfl
  | v1AllocMessage transport =>
    dsimp only
    split
    · exact h.goTo hplace (.inSession rfl rfl rfl rfl)
    · next hnone =>
      have hok : ok = true := (hmessage transport hplace).resolve_left hnone
      rw [if_pos hok]
      have hallocated : ObjectsOk { s with messageAllocated := true } :=
        h.congr rfl rfl rfl rfl rfl rfl
      exact hallocated.goTo hplace (.inSession rfl rfl rfl rfl)
  | v1Loop transport =>
    dsimp only
    split
    · exact h.use (mem_held_transport.mpr (by rw [hplace]; rfl))
    · exact h.goTo hplace (.inSession rfl rfl rfl rfl)
  | v1Request transport uid =>
    refine h.sendRequest hplace ?_ rfl uid
    exact .inSession rfl rfl rfl rfl
  | v1CloseConnection transport => exact h.v1CloseConnection hplace
  | v1Invalidate => exact h.invalidateWork.goTo hplace ⟨⟨nofun, nofun, rfl, rfl⟩, rfl, nofun⟩
  | _ => exact h

theorem ObjectsOk.v2Step (h : ObjectsOk s) (ok : Bool) : ObjectsOk (s.v2Step ok) := by
  unfold StratumSubmission.v2Step
  cases hplace : s.receiver with
  | v2FreeConn starts =>
    have htransport : s.transport = none := h.transport.trans (by rw [hplace]; rfl)
    dsimp only
    split
    · next id hconn =>
      refine h.release (mem_held_sv2Conn.mpr ⟨by rw [hplace]; rfl, hconn⟩) rfl ?_ rfl
        ⟨htransport, nofun, nofun⟩
      exact forall_held nofun
        (fun _ hsome => ⟨mem_held_sv1Conn.mpr ⟨by rw [hplace]; rfl, hsome.2⟩, nofun⟩) nofun
    · next hconn =>
      refine h.assign rfl rfl ?_ ⟨htransport, nofun, nofun⟩
      exact forall_held nofun
        (fun _ hsome => mem_held_sv1Conn.mpr ⟨by rw [hplace]; rfl, hsome.2⟩)
        fun _ hsome => nomatch hconn.symm.trans hsome.2
  | v2ClearConn starts =>
    have htransport : s.transport = none := h.transport.trans (by rw [hplace]; rfl)
    have hheld (place' : SessionPlace) (hlocal : place'.localTransport = none) :
        ∀ object ∈ ({ s with sv2Conn := none }.goTo place').held, object ∈ s.held :=
      forall_held (fun _ hsome => nomatch hlocal.symm.trans hsome)
        (fun _ hsome => mem_held_sv1Conn.mpr ⟨by rw [hplace]; rfl, hsome.2⟩) nofun
    cases starts with
    | some poolIdx => exact h.assign rfl rfl (hheld _ rfl) ⟨htransport, nofun, nofun⟩
    | none => exact h.assign rfl rfl (hheld _ rfl) ⟨htransport, nofun, nofun⟩
  | v2AllocConn poolIdx =>
    have htransport : s.transport = none := h.transport.trans (by rw [hplace]; rfl)
    dsimp only
    split
    · refine h.allocate rfl rfl ?_ ⟨htransport, nofun, fun _ => Option.some_ne_none _⟩
      exact forall_held nofun
        (fun _ hsome => .inl (mem_held_sv1Conn.mpr ⟨by rw [hplace]; rfl, hsome.2⟩))
        fun _ hsome => .inr (Option.some.inj hsome.2).symm
    · exact h.goTo hplace ⟨⟨nofun, nofun, rfl, rfl⟩, rfl, nofun⟩
  | v2AllocBuffers =>
    dsimp only
    split
    · exact h.goTo hplace ⟨⟨nofun, fun _ => rfl, rfl, rfl⟩, rfl, nofun⟩
    · exact h.goTo hplace ⟨⟨nofun, nofun, rfl, rfl⟩, rfl, nofun⟩
  | v2InitTransport =>
    dsimp only
    split
    · exact h.newTransport hplace rfl rfl rfl ⟨nofun, fun _ => rfl, rfl, rfl⟩
    · exact h.goTo hplace ⟨⟨nofun, nofun, rfl, rfl⟩, rfl, nofun⟩
  | v2Connect transport =>
    dsimp only
    split
    · have hused := h.use (mem_held_transport.mpr (by rw [hplace]; rfl))
      refine hused.goTo hplace ?_
      exact ⟨⟨nofun, fun _ => rfl, rfl, rfl⟩, rfl, fun _ hlocal => hlocal⟩
    · exact h.abandon hplace rfl rfl rfl rfl ⟨nofun, nofun, rfl, rfl⟩
  | v2SetTransport transport =>
    exact h.setTransport hplace rfl rfl rfl ⟨nofun, fun _ => rfl, rfl, rfl⟩
  | v2UpdatePending transport =>
    dsimp only
    split
    · next id hconn =>
      have hused := h.use (mem_held_sv2Conn.mpr ⟨by rw [hplace]; rfl, hconn⟩)
      exact hused.goTo hplace (.inSession rfl rfl rfl rfl)
    · exact h.goTo hplace (.inSession rfl rfl rfl rfl)
  | v2CreateNoise transport =>
    dsimp only
    split
    · next id hconn =>
      have hused := h.use (mem_held_sv2Conn.mpr ⟨by rw [hplace]; rfl, hconn⟩)
      have hcreated : ObjectsOk { s.use (.sv2Conn id) with
          noiseCtx := Function.update s.noiseCtx id true } := hused.congr rfl rfl rfl rfl rfl rfl
      exact hcreated.goTo hplace (.inSession rfl rfl rfl rfl)
    · exact h.goTo hplace (.inSession rfl rfl rfl rfl)
  | v2Setup transport stage =>
    dsimp only
    split
    · split
      · have hused := h.use (mem_held_transport.mpr (by rw [hplace]; rfl))
        exact hused.goTo hplace (.inSession rfl rfl rfl rfl)
      · exact h
    · exact h.goTo hplace (.inSession rfl rfl rfl rfl)
  | v2Loop transport =>
    dsimp only
    split
    · exact h.use (mem_held_transport.mpr (by rw [hplace]; rfl))
    · exact h.goTo hplace (.inSession rfl rfl rfl rfl)
  | v2CloseConnection transport => exact h.v2CloseConnection hplace
  | v2Invalidate => exact h.invalidateWork.goTo hplace ⟨⟨nofun, nofun, rfl, rfl⟩, rfl, nofun⟩
  | _ => exact h

theorem ObjectsOk.start (h : ObjectsOk s) (protocol : StratumProtocol) (poolIdx : U16) :
    ObjectsOk (s.start protocol poolIdx) := by
  unfold StratumSubmission.start
  split
  · next hplace => exact h.goTo hplace ⟨⟨nofun, nofun, rfl, rfl⟩, rfl, nofun⟩
  · next hplace => exact h.goTo hplace ⟨⟨nofun, nofun, rfl, rfl⟩, rfl, nofun⟩
  · exact h

theorem ObjectsOk.receiverStep (h : ObjectsOk s) {ok : Bool}
    (hmessage : ∀ transport, s.receiver = .v1AllocMessage transport →
      s.messageAllocated = true ∨ ok = true) : ObjectsOk (s.receiverStep ok) := by
  unfold StratumSubmission.receiverStep
  cases s.receiver
  all_goals first
    | exact h.v1Step hmessage
    | exact h.v2Step ok
    | exact h

theorem ObjectsOk.receive (h : ObjectsOk s) (message : ReceivedMessage) :
    ObjectsOk (s.receive message) := by
  unfold StratumSubmission.receive
  split
  · next transport hplace =>
    unfold v1Receive
    split
    · exact h
    · exact h.nextUid hplace fun _ => .inSession rfl rfl rfl rfl
    · split
      · next id hconn =>
        have hused := h.use (mem_held_sv1Conn.mpr ⟨by rw [hplace]; rfl, hconn⟩)
        exact hused.congr rfl rfl rfl rfl rfl rfl
      · exact h
    · split
      · next id hconn =>
        have hused := h.use (mem_held_sv1Conn.mpr ⟨by rw [hplace]; rfl, hconn⟩)
        exact hused.publishJob _ _
      · exact h
  · next transport hplace =>
    unfold v2OpenChannel
    split
    · next channelId channelType id hconn =>
      have hused := h.use (mem_held_transport.mpr (by rw [hplace]; rfl))
      have hopened : ObjectsOk ((s.use (.transport transport)).use (.sv2Conn id)) :=
        hused.use
          (mem_held_sv2Conn.mpr ⟨by rw [show (s.use _).receiver = _ from hplace]; rfl, hconn⟩)
      have hset : ObjectsOk (((s.use (.transport transport)).use (.sv2Conn id)).setSv2Conn id
          { s.sv2Conns id with channelId := channelId, channelType := channelType }) :=
        hopened.congr rfl rfl rfl rfl rfl rfl
      exact hset.goTo hplace (.inSession rfl rfl rfl rfl)
    · exact h
  · next transport hplace =>
    unfold v2Receive
    split
    · next job id hconn =>
      have hused := h.use (mem_held_sv2Conn.mpr ⟨by rw [hplace]; rfl, hconn⟩)
      dsimp only
      split
      · exact hused.publishJob _ _
      · exact hused.publishJob _ _
      · exact h
    · exact h
  · exact h

/-! ## Steps of the other tasks -/

/-- The shared transport is held by the receive task. -/
theorem ObjectsOk.mem_held_of_transport (h : ObjectsOk s)
    (htransport : s.transport = some transport) : .transport transport ∈ s.held := by
  refine mem_held_transport.mpr ?_
  have hopen := h.transport.symm.trans htransport
  cases hplace : s.receiver <;> rw [hplace] at hopen <;> first | exact hopen | cases hopen

/-- With a shared transport, no connection pointer is about to be overwritten. -/
theorem ObjectsOk.not_overwrites (h : ObjectsOk s) (htransport : s.transport = some transport) :
    s.receiver.overwritesSv1Conn = false ∧ s.receiver.overwritesSv2Conn = false := by
  have hopen := h.transport.symm.trans htransport
  cases hplace : s.receiver <;> rw [hplace] at hopen <;> first | exact ⟨rfl, rfl⟩ | cases hopen

theorem ObjectsOk.writeShare (h : ObjectsOk s) (htransport : s.transport = some transport)
    (number : ShareNumber) (share : QueuedShare) (sent : Bool) :
    ObjectsOk (s.writeShare transport number share sent) := by
  have hused := h.use (h.mem_held_of_transport htransport)
  have hwritten : ObjectsOk ((s.use (.transport transport)).record
      (.written transport number share)) := hused.note rfl rfl rfl rfl rfl rfl rfl
  unfold StratumSubmission.writeShare
  dsimp only
  split
  · exact hwritten
  · exact hwritten.use (hwritten.mem_held_of_transport htransport)

theorem ObjectsOk.v1SubmitShare (h : ObjectsOk s) (share : QueuedShare) (sent : Bool) :
    ObjectsOk (s.v1SubmitShare share sent) := by
  unfold StratumSubmission.v1SubmitShare
  split
  · next transport id htransport hconn =>
    split
    · exact h
    · have hused := h.use (mem_held_sv1Conn.mpr ⟨(h.not_overwrites htransport).1, hconn⟩)
      dsimp only
      split
      · exact hused
      · split
        · exact hused
        · have hset : ObjectsOk ((s.use (.sv1Conn id)).setSv1Conn id
              { s.sv1Conns id with sendUid := (s.sv1Conns id).sendUid + 1 }) :=
            hused.congr rfl rfl rfl rfl rfl rfl
          exact hset.writeShare htransport _ share sent
  · exact h

theorem ObjectsOk.v2SubmitShare (h : ObjectsOk s) (share : QueuedShare) (stack : Vector U8 32)
    (sent : Bool) : ObjectsOk (s.v2SubmitShare share stack sent) := by
  unfold StratumSubmission.v2SubmitShare
  dsimp only
  split
  · next transport id htransport hconn =>
    have hused := h.use (mem_held_sv2Conn.mpr ⟨(h.not_overwrites htransport).2, hconn⟩)
    split
    · exact hused
    · have hset : ObjectsOk ((s.use (.sv2Conn id)).setSv2Conn id
          { s.sv2Conns id with sequenceNumber := (s.sv2Conns id).sequenceNumber + 1 }) :=
        hused.congr rfl rfl rfl rfl rfl rfl
      split
      · exact hset
      · exact hset.writeShare htransport _ share sent
  · exact h

theorem ObjectsOk.submitterStep (h : ObjectsOk s) (poolIdx : U16) (stack : Vector U8 32)
    (sent : Bool) : ObjectsOk (s.submitterStep poolIdx stack sent) := by
  unfold StratumSubmission.submitterStep
  split
  · split
    · exact h
    · exact h.congr rfl rfl rfl rfl rfl rfl
  · exact h.congr rfl rfl rfl rfl rfl rfl
  · exact h.congr rfl rfl rfl rfl rfl rfl
  · next share hsubmitter =>
    dsimp only
    split
    · exact (h.v1SubmitShare share sent).congr rfl rfl rfl rfl rfl rfl
    · exact (h.v2SubmitShare share stack sent).congr rfl rfl rfl rfl rfl rfl

theorem ObjectsOk.queueShare (h : ObjectsOk s) (job : Nat) (submission : AsicShareSubmission)
    (captured : Bool) : ObjectsOk (s.queueShare job submission captured) := by
  unfold StratumSubmission.queueShare
  split
  · exact h.congr rfl rfl rfl rfl rfl rfl
  · exact h

theorem ObjectsOk.requestReconnect (h : ObjectsOk s) : ObjectsOk s.requestReconnect := by
  unfold StratumSubmission.requestReconnect
  split
  · next transport htransport => exact h.use (h.mem_held_of_transport htransport)
  · exact h

theorem initial_objects : ObjectsOk initial where
  toPointersOk := ⟨rfl, nofun, nofun⟩
  live := nofun
  heldAllocated := nofun
  destroyedAllocated := nofun
  safe := trivial

end StratumSubmission

end EspMiner
