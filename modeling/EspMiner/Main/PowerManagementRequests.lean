import EspMiner.Main.PowerManagement

/-!
# The life of a power request

A request has two references, one of its caller and one of the task.  The caller
and the task each decide its state at most once, and only the first decision
counts.  The facts here are about one request; they hold through every step of
its caller and of the task.
-/

namespace EspMiner

open Library

/-- How far the task is with a request. -/
inductive PowerService where
  | unqueued
  | queued
  | serving
  | served
deriving DecidableEq, Repr

/-- How far the task is, as the history says. -/
def powerService : List PowerRequestEvent → PowerService
  | [] => .unqueued
  | .enqueued :: _ => .queued
  | .received :: _ => .serving
  | .processed _ :: _ => .served
  | .created :: older | .accessed :: older | .freed :: older | .executed _ _ :: older =>
      powerService older

/-- A request is not used and not freed after it was freed. -/
def UsedBeforeFree (event : PowerRequestEvent) (older : List PowerRequestEvent) : Prop :=
  match event with
  | .accessed | .freed => .freed ∉ older
  | _ => True

/-- The references that a caller still has to give up. -/
def PowerCallPlace.share : PowerCallPlace → Nat
  | .enqueueing | .dropping => 2
  | .dropped | .waiting | .timedOut | .revoking | .reading _ | .releasing _ => 1
  | .absent | .called | .allocating | .stamping | .returned _ => 0

/-- The reference of the task. -/
def PowerService.share : PowerService → Nat
  | .queued | .serving => 1
  | .unqueued | .served => 0

/-- The caller has not allocated the request. -/
def PowerCallPlace.Unallocated : PowerCallPlace → Prop
  | .absent | .called | .allocating | .stamping => True
  | _ => False

/-- The caller has enqueued the request and has not returned. -/
def PowerCallPlace.Waits : PowerCallPlace → Prop
  | .waiting | .timedOut | .revoking | .reading _ | .releasing _ => True
  | _ => False

/-- What a caller at this place knows of the state and the result. -/
def PowerCallPlace.Verdict (place : PowerCallPlace) (service : PowerService)
    (state : PowerRequestState) (success : Bool) : Prop :=
  match place with
  | .waiting | .timedOut => state ≠ .cancelled
  | .revoking | .reading false => state = .cancelled
  | .reading true => state = .complete
  | .releasing true | .returned true => state = .complete ∧ success = true
  | .releasing false | .returned false => service ≠ .unqueued →
      state = .cancelled ∨ (state = .complete ∧ success = false)
  | _ => True

/-- No caller has seen the result of a request that is not complete. -/
theorem PowerCallPlace.Verdict.publish {place : PowerCallPlace} {service service' : PowerService}
    {state : PowerRequestState} {success : Bool} (h : place.Verdict service state success)
    (hservice : service ≠ .unqueued) (hstate : state ≠ .complete) (success' : Bool) :
    place.Verdict service' state success' := by
  unfold Verdict at h ⊢
  split at h
  all_goals first
    | exact h
    | exact absurd h hstate
    | exact absurd h.1 hstate
    | exact fun _ => .inl ((h hservice).resolve_right fun hboth => hstate hboth.1)

/-- A caller of a request without a decision is still waiting for it. -/
theorem PowerCallPlace.Verdict.complete {place : PowerCallPlace} {service : PowerService}
    {success : Bool} (h : place.Verdict service .waiting success) (hservice : service ≠ .unqueued) :
    place.Verdict service .complete success := by
  unfold Verdict at h ⊢
  split at h
  · decide
  · decide
  · cases h
  · cases h
  · rfl
  · cases h.1
  · cases h.1
  · exact absurd (h hservice) (by simp)
  · exact absurd (h hservice) (by simp)
  · trivial

/-- The task goes on with a request that it has got. -/
theorem PowerCallPlace.Verdict.serve {place : PowerCallPlace} {service service' : PowerService}
    {state : PowerRequestState} {success : Bool} (h : place.Verdict service state success)
    (hservice : service ≠ .unqueued) : place.Verdict service' state success := by
  unfold Verdict at h ⊢
  split at h
  all_goals first
    | exact h
    | exact fun _ => h hservice

namespace PowerRequest

variable {r : PowerRequest}

def service (r : PowerRequest) : PowerService := powerService r.history

/-- The operation of the request ended with true. -/
def Succeeded (r : PowerRequest) : Prop := ∃ before, .executed true before ∈ r.history

/-! ## References -/

/-- The request has `share` references, and was freed when it had none left. -/
structure Counted (r : PowerRequest) (share : Nat) : Prop where
  references : r.references = share
  freed : .freed ∈ r.history ↔ share = 0
  safe : Throughout UsedBeforeFree r.history

theorem Counted.log {share : Nat} (h : r.Counted share) {event : PowerRequestEvent}
    (hevent : event ≠ .freed) (haccess : event = .accessed → 0 < share) :
    (r.log event).Counted share := by
  refine ⟨h.references, ?_, ?_, h.safe⟩
  · rw [← h.freed]
    exact ⟨fun hmem => (List.mem_cons.mp hmem).resolve_left fun heq => hevent heq.symm,
      List.mem_cons_of_mem _⟩
  · cases event with
    | accessed => exact fun hmem => absurd (h.freed.mp hmem) (Nat.ne_of_gt (haccess rfl))
    | freed => exact absurd rfl hevent
    | _ => trivial

/-- The last reference frees the request. -/
theorem Counted.drop {share : Nat} (h : r.Counted (share + 1)) : r.drop.Counted share := by
  have hnotFreed : .freed ∉ r.history := fun hmem => nomatch h.freed.mp hmem
  unfold PowerRequest.drop
  dsimp only
  rw [h.references]
  split
  · next hlast =>
    have hshare : share = 0 := by omega
    refine ⟨hlast.symm ▸ hshare.symm, ⟨fun _ => hshare, fun _ => List.mem_cons_self⟩, ?_, ?_⟩
    · simpa [PowerRequest.log, UsedBeforeFree] using hnotFreed
    · exact ⟨hnotFreed, h.safe⟩
  · next hmore =>
    refine ⟨rfl, ⟨fun hmem => ?_, fun hzero => absurd (by omega) hmore⟩, hnotFreed, h.safe⟩
    rcases List.mem_cons.mp hmem with heq | hmem
    · cases heq
    · exact absurd hmem hnotFreed

theorem drop_history (r : PowerRequest) :
    r.drop.history = .accessed :: r.history ∨
      r.drop.history = .freed :: .accessed :: r.history := by
  unfold drop
  dsimp only
  split
  · exact .inr rfl
  · exact .inl rfl

theorem drop_service (r : PowerRequest) : r.drop.service = r.service := by
  unfold service
  rcases r.drop_history with h | h <;> rw [h] <;> rfl

theorem drop_fields (r : PowerRequest) : r.drop.kind = r.kind ∧ r.drop.owner = r.owner ∧
    r.drop.epoch = r.epoch ∧ r.drop.completion = r.completion ∧ r.drop.state = r.state ∧
    r.drop.success = r.success ∧ r.drop.caller = r.caller := by
  unfold drop
  dsimp only
  split <;> exact ⟨rfl, rfl, rfl, rfl, rfl, rfl, rfl⟩

theorem mem_drop_history {event : PowerRequestEvent} (h : event ∈ r.history) :
    event ∈ r.drop.history := by
  rcases r.drop_history with heq | heq <;> rw [heq] <;> simp [h]

/-! ## One request -/

/-- What the caller knows of the state and the result. -/
def VerdictKnown (r : PowerRequest) : Prop := r.caller.Verdict r.service r.state r.success

/-- What holds of a request apart from the verdict. -/
structure Counts (r : PowerRequest) : Prop where
  unallocated : r.caller.Unallocated → r.history = []
  counted : .created ∈ r.history → r.Counted (r.caller.share + r.service.share)
  allocated : r.caller.share + r.service.share ≠ 0 → .created ∈ r.history
  begun : r.history ≠ [] → .created ∈ r.history
  unqueued : r.service = .unqueued → ¬ r.caller.Waits ∧ r.caller ≠ .returned true ∧
    r.state = .waiting ∧ r.success = false
  queued : r.service ≠ .unqueued → r.caller.Waits ∨ ∃ success, r.caller = .returned success
  completion : r.completion = true → r.state ≠ .waiting
  succeeded : r.success = true → r.Succeeded

/-- What holds of a request between any two steps. -/
structure Ok (r : PowerRequest) : Prop extends Counts r where
  verdict : r.VerdictKnown

theorem unused_ok : unused.Ok where
  unallocated _ := rfl
  counted hmem := nomatch hmem
  allocated hshare := absurd rfl hshare
  begun hne := absurd rfl hne
  unqueued _ := ⟨id, nofun, rfl, rfl⟩
  queued hservice := absurd rfl hservice
  verdict := trivial
  completion hcompletion := nomatch hcompletion
  succeeded hsuccess := nomatch hsuccess

/-- The caller goes on without giving up a reference. -/
theorem Counts.goTo (h : r.Counts) {place : PowerCallPlace} (hshare : place.share = r.caller.share)
    (hunallocated : place.Unallocated → r.caller.Unallocated)
    (hunqueued : r.service = .unqueued → ¬ place.Waits ∧ place ≠ .returned true)
    (hqueued : r.service ≠ .unqueued → place.Waits ∨ ∃ success, place = .returned success) :
    (r.goTo place).Counts where
  unallocated hplace := h.unallocated (hunallocated hplace)
  counted hmem := by
    obtain ⟨hreferences, hfreed, hsafe⟩ := h.counted hmem
    rw [← hshare] at hreferences hfreed
    exact ⟨hreferences, hfreed, hsafe⟩
  allocated hne := h.allocated (by rwa [← hshare])
  begun := h.begun
  unqueued hservice := ⟨(hunqueued hservice).1, (hunqueued hservice).2, (h.unqueued hservice).2.2⟩
  queued := hqueued
  completion := h.completion
  succeeded := h.succeeded

/-- Somebody with a reference uses the request. -/
theorem Counts.access (h : r.Counts) (hshare : 0 < r.caller.share + r.service.share) :
    (r.log .accessed).Counts where
  unallocated hplace := by
    have hempty := h.unallocated hplace
    have hmem := h.allocated (Nat.ne_of_gt hshare)
    rw [hempty] at hmem
    cases hmem
  counted _ := (h.counted (h.allocated (Nat.ne_of_gt hshare))).log nofun fun _ => hshare
  allocated hne := List.mem_cons_of_mem _ (h.allocated hne)
  begun _ := List.mem_cons_of_mem _ (h.allocated (Nat.ne_of_gt hshare))
  unqueued := h.unqueued
  queued := h.queued
  completion := h.completion
  succeeded hsuccess := (h.succeeded hsuccess).imp fun _ => List.mem_cons_of_mem _

/-- A decision about a request that the task has got. -/
theorem Counts.decide (h : r.Counts) (hservice : r.service ≠ .unqueued) {state : PowerRequestState}
    (hstate : state ≠ .waiting) : { r with state := state }.Counts where
  unallocated := h.unallocated
  counted hmem := ⟨(h.counted hmem).references, (h.counted hmem).freed, (h.counted hmem).safe⟩
  allocated := h.allocated
  begun := h.begun
  unqueued hunqueued := absurd hunqueued hservice
  queued := h.queued
  completion _ := hstate
  succeeded := h.succeeded

/-- The semaphore is taken. -/
theorem Counts.take (h : r.Counts) :
    { r with completion := false }.Counts where
  unallocated := h.unallocated
  counted hmem := ⟨(h.counted hmem).references, (h.counted hmem).freed, (h.counted hmem).safe⟩
  allocated := h.allocated
  begun := h.begun
  unqueued := h.unqueued
  queued := h.queued
  completion hcompletion := nomatch hcompletion
  succeeded := h.succeeded

/-- The caller gives up a reference. -/
theorem Counts.dropCaller (h : r.Counts) {place : PowerCallPlace}
    (hshare : r.caller.share = place.share + 1) (hplace : ¬ place.Unallocated ∧ ¬ place.Waits)
    (hunqueued : r.service = .unqueued → place ≠ .returned true)
    (hqueued : r.service ≠ .unqueued → ∃ success, place = .returned success) :
    (r.drop.goTo place).Counts := by
  obtain ⟨-, -, -, hcompletion, hstate, hsuccess, -⟩ := r.drop_fields
  have hservice : (r.drop.goTo place).service = r.service := r.drop_service
  have hcreated : .created ∈ r.history := h.allocated (by omega)
  refine ⟨fun hun => absurd hun hplace.1, fun _ => ?_, fun _ => mem_drop_history hcreated,
    fun _ => mem_drop_history hcreated, ?_, ?_, ?_, ?_⟩
  · have hcounted := h.counted hcreated
    rw [hshare, Nat.add_right_comm] at hcounted
    have hdropped := hcounted.drop
    rw [hservice]
    exact ⟨hdropped.references, hdropped.freed, hdropped.safe⟩
  · intro hun
    rw [hservice] at hun
    exact ⟨hplace.2, hunqueued hun, hstate.trans (h.unqueued hun).2.2.1,
      hsuccess.trans (h.unqueued hun).2.2.2⟩
  · intro hne
    rw [hservice] at hne
    exact .inr (hqueued hne)
  · intro hgiven heq
    exact h.completion (hcompletion.symm.trans hgiven) (hstate.symm.trans heq)
  · intro htrue
    exact (h.succeeded (hsuccess.symm.trans htrue)).imp fun _ => mem_drop_history

/-! ## Steps of the caller -/

/-- The steps of a caller, apart from the ones that create and enqueue. -/
inductive CallerMove (r : PowerRequest) : PowerRequest → Prop where
  | starts (hcaller : r.caller = .called) : CallerMove r (r.goTo .allocating)
  | allocates (answer : Bool) (hcaller : r.caller = .allocating) :
      CallerMove r (r.goTo (if answer then .stamping else .returned false))
  | refused (hcaller : r.caller = .enqueueing) : CallerMove r (r.goTo .dropping)
  | drops (hcaller : r.caller = .dropping) : CallerMove r (r.drop.goTo .dropped)
  | dropsLast (hcaller : r.caller = .dropped) : CallerMove r (r.drop.goTo (.returned false))
  | timesOut (hcaller : r.caller = .waiting) : CallerMove r (r.goTo .timedOut)
  | wakes (hcaller : r.caller = .waiting) (hcompletion : r.completion = true) :
      CallerMove r (({ r with completion := false }.log .accessed).goTo (.reading true))
  | cancels (hcaller : r.caller = .timedOut) (hstate : r.state = .waiting) :
      CallerMove r (({ r with state := .cancelled }.log .accessed).goTo .revoking)
  | tooLate (hcaller : r.caller = .timedOut) (hstate : r.state ≠ .waiting) :
      CallerMove r ((r.log .accessed).goTo (.reading (decide (r.state = .complete))))
  | revokes (hcaller : r.caller = .revoking) : CallerMove r (r.goTo (.reading false))
  | reads (completed : Bool) (hcaller : r.caller = .reading completed) :
      CallerMove r ((r.log .accessed).goTo (.releasing (completed && r.success)))
  | returns (success : Bool) (hcaller : r.caller = .releasing success) :
      CallerMove r (r.drop.goTo (.returned success))

/-- A caller that waits has enqueued its request. -/
theorem Counts.service_of_waits (h : r.Counts) (hwaits : r.caller.Waits) :
    r.service ≠ .unqueued := fun hunqueued => (h.unqueued hunqueued).1 hwaits

/-- A caller that is not yet waiting has not enqueued its request. -/
theorem Counts.unqueued_of_caller (h : r.Counts) (hwaits : ¬ r.caller.Waits)
    (hreturned : ∀ success, r.caller ≠ .returned success) : r.service = .unqueued := by
  by_contra hservice
  rcases h.queued hservice with hcaller | ⟨success, hcaller⟩
  · exact hwaits hcaller
  · exact hreturned success hcaller

theorem share_of_waits {place : PowerCallPlace} (h : place.Waits) : place.share = 1 := by
  cases place <;> first | exact h.elim | rfl

/-- The caller goes on before the request is enqueued. -/
theorem Counts.prepare (h : r.Counts) (hservice : r.service = .unqueued) {place : PowerCallPlace}
    (hshare : place.share = r.caller.share)
    (hunallocated : place.Unallocated → r.caller.Unallocated)
    (hplace : ¬ place.Waits ∧ place ≠ .returned true) : (r.goTo place).Counts :=
  h.goTo hshare hunallocated (fun _ => hplace) (absurd hservice)

/-- The caller goes on after the request was enqueued. -/
theorem Counts.wait (h : r.Counts) (hcaller : r.caller.Waits) {place : PowerCallPlace}
    (hplace : place.Waits) : (r.goTo place).Counts :=
  h.goTo ((share_of_waits hplace).trans (share_of_waits hcaller).symm)
    (fun hunallocated => by cases place <;> cases hunallocated <;> cases hplace)
    (fun hunqueued => absurd hunqueued (h.service_of_waits hcaller)) fun _ => .inl hplace

theorem CallerMove.ok {r r' : PowerRequest} (hmove : CallerMove r r') (h : r.Ok) : r'.Ok := by
  have hcounts := h.toCounts
  have hverdict := h.verdict
  have hbefore (hwaits : ¬ r.caller.Waits) (hreturned : ∀ success, r.caller ≠ .returned success) :=
    hcounts.unqueued_of_caller hwaits hreturned
  have haccess (hwaits : r.caller.Waits) : 0 < r.caller.share + r.service.share := by
    rw [share_of_waits hwaits]
    omega
  unfold VerdictKnown PowerCallPlace.Verdict at hverdict
  cases hmove with
  | starts hcaller =>
    rw [hcaller] at hbefore
    exact ⟨hcounts.prepare (hbefore id nofun) (by rw [hcaller]; rfl) (by rw [hcaller]; exact id)
      ⟨id, nofun⟩, trivial⟩
  | allocates answer hcaller =>
    rw [hcaller] at hbefore
    have hservice := hbefore id nofun
    cases answer with
    | true =>
      exact ⟨hcounts.prepare hservice (by rw [hcaller]; rfl) (by rw [hcaller]; exact id)
        ⟨id, nofun⟩, trivial⟩
    | false =>
      exact ⟨hcounts.prepare hservice (by rw [hcaller]; rfl) (by rw [hcaller]; nofun)
        ⟨id, nofun⟩, absurd hservice⟩
  | refused hcaller =>
    rw [hcaller] at hbefore
    exact ⟨hcounts.prepare (hbefore id nofun) (by rw [hcaller]; rfl) (by rw [hcaller]; exact id)
      ⟨id, nofun⟩, trivial⟩
  | drops hcaller =>
    rw [hcaller] at hbefore
    have hservice := hbefore id nofun
    exact ⟨hcounts.dropCaller (by rw [hcaller]; rfl) ⟨id, id⟩ (fun _ => nofun) (absurd hservice),
      trivial⟩
  | dropsLast hcaller =>
    rw [hcaller] at hbefore
    have hservice := hbefore id nofun
    exact ⟨hcounts.dropCaller (by rw [hcaller]; rfl) ⟨id, id⟩ (fun _ => nofun) (absurd hservice),
      fun hqueued => absurd (r.drop_service.trans hservice) hqueued⟩
  | timesOut hcaller =>
    have hwaits : r.caller.Waits := by rw [hcaller]; trivial
    rw [hcaller] at hverdict
    exact ⟨hcounts.wait hwaits trivial, hverdict⟩
  | wakes hcaller hcompletion =>
    have hwaits : r.caller.Waits := by rw [hcaller]; trivial
    rw [hcaller] at hverdict
    refine ⟨(hcounts.take.access (haccess hwaits)).wait hwaits trivial, ?_⟩
    -- the semaphore was given after the decision, and nobody has cancelled
    have hdecided := hcounts.completion hcompletion
    show r.state = .complete
    cases hstate : r.state with
    | waiting => exact absurd hstate hdecided
    | complete => rfl
    | cancelled => exact absurd hstate hverdict
  | cancels hcaller hstate =>
    have hwaits : r.caller.Waits := by rw [hcaller]; trivial
    have hcancelled : { r with state := .cancelled }.Counts :=
      hcounts.decide (hcounts.service_of_waits hwaits) nofun
    exact ⟨(hcancelled.access (haccess hwaits)).wait hwaits trivial, rfl⟩
  | tooLate hcaller hstate =>
    have hwaits : r.caller.Waits := by rw [hcaller]; trivial
    rw [hcaller] at hverdict
    refine ⟨(hcounts.access (haccess hwaits)).wait hwaits trivial, ?_⟩
    cases hdecided : r.state with
    | waiting => exact absurd hdecided hstate
    | complete => exact hdecided
    | cancelled => exact absurd hdecided hverdict
  | revokes hcaller =>
    have hwaits : r.caller.Waits := by rw [hcaller]; trivial
    rw [hcaller] at hverdict
    exact ⟨hcounts.wait hwaits trivial, hverdict⟩
  | reads completed hcaller =>
    have hwaits : r.caller.Waits := by rw [hcaller]; trivial
    rw [hcaller] at hverdict
    refine ⟨(hcounts.access (haccess hwaits)).wait hwaits trivial, ?_⟩
    cases completed with
    | false => exact fun _ => .inl hverdict
    | true =>
      cases hsuccess : r.success with
      | false => exact fun _ => .inr ⟨hverdict, hsuccess⟩
      | true => exact ⟨hverdict, hsuccess⟩
  | returns success hcaller =>
    have hwaits : r.caller.Waits := by rw [hcaller]; trivial
    obtain ⟨-, -, -, -, hstate, hsuccess, -⟩ := r.drop_fields
    rw [hcaller] at hverdict
    refine ⟨hcounts.dropCaller (by rw [hcaller]; rfl) ⟨id, id⟩
      (fun hunqueued => absurd hunqueued (hcounts.service_of_waits hwaits))
      fun _ => ⟨success, rfl⟩, ?_⟩
    cases success with
    | false =>
      intro hqueued
      have hservice : r.service ≠ .unqueued := fun hun => hqueued (r.drop_service.trans hun)
      exact (hverdict hservice).imp hstate.trans fun hboth =>
        ⟨hstate.trans hboth.1, hsuccess.trans hboth.2⟩
    | true => exact ⟨hstate.trans hverdict.1, hsuccess.trans hverdict.2⟩

/-- The caller creates the request, with the stop epoch of this moment. -/
theorem Ok.create (h : r.Ok) (hcaller : r.caller = .stamping) (epoch : U32) :
    (({ r with epoch := epoch, references := 2, state := .waiting }.log .created).goTo
      .enqueueing).Ok := by
  have hempty : r.history = [] := h.unallocated (by rw [hcaller]; trivial)
  have hservice : powerService r.history = .unqueued := by rw [hempty]; rfl
  have hshare : PowerCallPlace.enqueueing.share + (powerService r.history).share = 2 := by
    rw [hservice]
    rfl
  refine ⟨⟨nofun, fun _ => ⟨hshare.symm, ?_, ?_⟩, fun _ => List.mem_cons_self,
    fun _ => List.mem_cons_self, ?_, ?_, ?_, ?_⟩, trivial⟩
  · refine ⟨fun hmem => ?_, fun hzero => nomatch hshare.symm.trans hzero⟩
    rw [goTo, log, hempty] at hmem
    simp at hmem
  · rw [goTo, log, hempty]
    exact ⟨trivial, trivial⟩
  · exact fun _ => ⟨id, nofun, rfl, (h.unqueued hservice).2.2.2⟩
  · exact absurd hservice
  · intro hcompletion
    exact absurd (h.unqueued hservice).2.2.1 (h.completion hcompletion)
  · intro hsuccess
    exact absurd ((h.unqueued hservice).2.2.2.symm.trans hsuccess) nofun

/-- The caller enqueues the request. -/
theorem Ok.enqueue (h : r.Ok) (hcaller : r.caller = .enqueueing) :
    ((r.log .enqueued).goTo .waiting).Ok := by
  have hservice : r.service = .unqueued :=
    h.unqueued_of_caller (by rw [hcaller]; exact id) (by rw [hcaller]; nofun)
  have hcreated : .created ∈ r.history := h.allocated (by rw [hcaller]; simp [PowerCallPlace.share])
  refine ⟨⟨nofun, fun _ => ?_, fun _ => List.mem_cons_of_mem _ hcreated,
    fun _ => List.mem_cons_of_mem _ hcreated, nofun, fun _ => .inl trivial, h.completion, ?_⟩, ?_⟩
  · have hcounted := h.counted hcreated
    rw [hcaller, hservice] at hcounted
    have hlogged : (r.log .enqueued).Counted _ := hcounted.log nofun nofun
    exact ⟨hlogged.references, hlogged.freed, hlogged.safe⟩
  · exact fun hsuccess => (h.succeeded hsuccess).imp fun _ => List.mem_cons_of_mem _
  · show r.state ≠ .cancelled
    rw [(h.unqueued hservice).2.2.1]
    nofun

/-- What a step of the caller keeps of its request. -/
structure Keeps (r r' : PowerRequest) : Prop where
  kind : r'.kind = r.kind
  owner : r'.owner = r.owner
  success : r'.success = r.success
  state : r'.state = r.state ∨ (r.state = .waiting ∧ r'.state = .cancelled)
  history : ∀ event ∈ r.history, event ∈ r'.history

/-- What a move of the caller leaves alone besides. -/
structure Unmoved (r r' : PowerRequest) : Prop where
  epoch : r'.epoch = r.epoch
  service : r'.service = r.service
  history : ∀ event ∈ r'.history, event ≠ .accessed → event ≠ .freed → event ∈ r.history

theorem CallerMove.keeps {r r' : PowerRequest} (hmove : CallerMove r r') :
    Keeps r r' ∧ Unmoved r r' := by
  have hdrop (place : PowerCallPlace) :
      Keeps r (r.drop.goTo place) ∧ Unmoved r (r.drop.goTo place) := by
    obtain ⟨hkind, howner, hepoch, -, hstate, hsuccess, -⟩ := r.drop_fields
    refine ⟨⟨hkind, howner, hsuccess, .inl hstate, fun _ => mem_drop_history⟩,
      ⟨hepoch, r.drop_service, fun event hmem haccessed hfreed => ?_⟩⟩
    have hcases : event ∈ r.drop.history := hmem
    rcases r.drop_history with heq | heq <;> rw [heq] at hcases <;>
      simpa [haccessed, hfreed] using hcases
  have huse (r'' : PowerRequest) (hstate : r''.state = r.state ∨
      (r.state = .waiting ∧ r''.state = .cancelled)) (hkind : r''.kind = r.kind)
      (howner : r''.owner = r.owner) (hepoch : r''.epoch = r.epoch)
      (hsuccess : r''.success = r.success) (hhistory : r''.history = .accessed :: r.history) :
      Keeps r r'' ∧ Unmoved r r'' := by
    refine ⟨⟨hkind, howner, hsuccess, hstate, fun _ hmem => ?_⟩,
      ⟨hepoch, ?_, fun _ hmem hne _ => ?_⟩⟩
    · rw [hhistory]
      exact List.mem_cons_of_mem _ hmem
    · rw [service, hhistory]
      rfl
    · rw [hhistory] at hmem
      exact (List.mem_cons.mp hmem).resolve_left hne
  cases hmove with
  | drops hcaller => exact hdrop _
  | dropsLast hcaller => exact hdrop _
  | returns success hcaller => exact hdrop _
  | cancels hcaller hstate => exact huse _ (.inr ⟨hstate, rfl⟩) rfl rfl rfl rfl rfl
  | wakes hcaller hcompletion => exact huse _ (.inl rfl) rfl rfl rfl rfl rfl
  | tooLate hcaller hstate => exact huse _ (.inl rfl) rfl rfl rfl rfl rfl
  | reads completed hcaller => exact huse _ (.inl rfl) rfl rfl rfl rfl rfl
  | _ => exact ⟨⟨rfl, rfl, rfl, .inl rfl, fun _ => id⟩, ⟨rfl, rfl, fun _ hmem _ _ => hmem⟩⟩

/-! ## Steps of the task -/

/-- The steps of the task with a request. -/
inductive TaskMove (r : PowerRequest) : PowerRequest → Prop where
  | receives (hservice : r.service = .queued) : TaskMove r (r.log .received)
  | uses (hservice : r.service = .serving) : TaskMove r (r.log .accessed)
  | executes (result : Bool) (before : PowerOwner) (hservice : r.service = .serving) :
      TaskMove r ((r.log .accessed).log (.executed result before))
  | publishes (success : Bool) (hservice : r.service = .serving) (hstate : r.state ≠ .complete)
      (hsucceeded : success = true → r.Succeeded) :
      TaskMove r ({ r with success := success }.log .accessed)
  | completes (hservice : r.service = .serving) (hstate : r.state = .waiting) :
      TaskMove r ({ r with state := .complete }.log .accessed)
  | gives (hservice : r.service = .serving) (hstate : r.state ≠ .waiting) :
      TaskMove r ({ r with completion := true }.log .accessed)
  | drops (owner : PowerOwner) (hservice : r.service = .serving) :
      TaskMove r (r.drop.log (.processed owner))

theorem TaskMove.ok {r r' : PowerRequest} (hmove : TaskMove r r') (h : r.Ok) : r'.Ok := by
  have hcounts := h.toCounts
  have hqueued (hservice : r.service = .serving) : r.service ≠ .unqueued := by
    rw [hservice]
    nofun
  have haccess (hservice : r.service = .serving) : 0 < r.caller.share + r.service.share := by
    rw [hservice]
    exact Nat.succ_pos _
  cases hmove with
  | receives hservice =>
    have hne : r.service ≠ .unqueued := by rw [hservice]; nofun
    have hcreated : .created ∈ r.history := h.allocated (by rw [hservice]; exact Nat.succ_ne_zero _)
    refine ⟨⟨fun hplace => ?_, fun _ => ?_, fun _ => List.mem_cons_of_mem _ hcreated,
      fun _ => List.mem_cons_of_mem _ hcreated, nofun, fun _ => h.queued hne, h.completion, ?_⟩,
      h.verdict.serve hne⟩
    · rw [h.unallocated hplace] at hcreated
      cases hcreated
    · have hcounted := h.counted hcreated
      rw [hservice] at hcounted
      exact hcounted.log nofun nofun
    · exact fun hsuccess => (h.succeeded hsuccess).imp fun _ => List.mem_cons_of_mem _
  | uses hservice => exact ⟨hcounts.access (haccess hservice), h.verdict⟩
  | executes result before hservice =>
    have hused := hcounts.access (haccess hservice)
    refine ⟨⟨fun hplace => ?_, fun hmem => ?_, fun hne => List.mem_cons_of_mem _
      (hused.allocated hne), fun _ => List.mem_cons_of_mem _ (hused.begun nofun), hused.unqueued,
      hused.queued, hused.completion, ?_⟩, h.verdict⟩
    · exact nomatch hused.unallocated hplace
    · exact (hused.counted ((List.mem_cons.mp hmem).resolve_left nofun)).log nofun nofun
    · exact fun hsuccess => (hused.succeeded hsuccess).imp fun _ => List.mem_cons_of_mem _
  | publishes success hservice hstate hsucceeded =>
    have hpublished : { r with success := success }.Counts :=
      ⟨h.unallocated, fun hmem => ⟨(h.counted hmem).references, (h.counted hmem).freed,
        (h.counted hmem).safe⟩, h.allocated, h.begun, fun hun => absurd hun (hqueued hservice),
        h.queued, h.completion, hsucceeded⟩
    exact ⟨hpublished.access (haccess hservice),
      h.verdict.publish (hqueued hservice) hstate success⟩
  | completes hservice hstate =>
    have hcompleted : { r with state := .complete }.Counts :=
      hcounts.decide (hqueued hservice) nofun
    have hverdict := h.verdict
    rw [VerdictKnown, hstate] at hverdict
    exact ⟨hcompleted.access (haccess hservice), hverdict.complete (hqueued hservice)⟩
  | gives hservice hstate =>
    have hgiven : { r with completion := true }.Counts :=
      ⟨h.unallocated, fun hmem => ⟨(h.counted hmem).references, (h.counted hmem).freed,
        (h.counted hmem).safe⟩, h.allocated, h.begun, h.unqueued, h.queued, fun _ => hstate,
        h.succeeded⟩
    exact ⟨hgiven.access (haccess hservice), h.verdict⟩
  | drops owner hservice =>
    obtain ⟨-, -, -, hcompletion, hstate, hsuccess, hcaller⟩ := r.drop_fields
    have hcreated : .created ∈ r.history := h.allocated (Nat.ne_of_gt (haccess hservice))
    have hdropCreated : .created ∈ (r.drop.log (.processed owner)).history :=
      List.mem_cons_of_mem _ (mem_drop_history hcreated)
    refine ⟨⟨fun hplace => ?_, fun _ => ?_, fun _ => hdropCreated, fun _ => hdropCreated, nofun,
      fun _ => ?_, ?_, ?_⟩, ?_⟩
    · rw [show (r.drop.log (.processed owner)).caller = r.caller from hcaller] at hplace
      rw [h.unallocated hplace] at hcreated
      cases hcreated
    · have hcounted := h.counted hcreated
      rw [hservice] at hcounted
      have hdropped : (r.drop.log (.processed owner)).Counted _ := hcounted.drop.log nofun nofun
      rw [show (r.drop.log (.processed owner)).caller = r.caller from hcaller]
      exact hdropped
    · rw [show (r.drop.log (.processed owner)).caller = r.caller from hcaller]
      exact h.queued (hqueued hservice)
    · exact fun hgiven heq => h.completion (hcompletion.symm.trans hgiven) (hstate.symm.trans heq)
    · exact fun htrue => (h.succeeded (hsuccess.symm.trans htrue)).imp
        fun _ hmem => List.mem_cons_of_mem _ (mem_drop_history hmem)
    · have hverdict : r.caller.Verdict .served r.state r.success :=
        h.verdict.serve (hqueued hservice)
      unfold VerdictKnown
      rw [show (r.drop.log (.processed owner)).caller = r.caller from hcaller,
        show (r.drop.log (.processed owner)).state = r.state from hstate,
        show (r.drop.log (.processed owner)).success = r.success from hsuccess]
      exact hverdict

end PowerRequest

end EspMiner
