import EspMiner.Main.PowerManagementRequests

/-!
# What the power owner task does with requests

Every request is before the queue, in it, being served or served, and the task
serves one at a time.  The facts about the request being served say how far
`process_request` has come with it.
-/

namespace EspMiner

open Library

/-- The request that the task is serving. -/
def PowerTaskPlace.request : PowerTaskPlace → Option Nat
  | .loadState id | .compareEpoch id | .acceptEpoch id | .markMaintenance id | .execute id
  | .clearMaintenance id | .publish id _ | .complete id _ | .undo id _ | .pauseCancelled id
  | .storeMaintenance id | .give id | .drop id => some id
  | .top | .receive | .check | .checkAccepted _ | .selfTest | .stepPolicy | .waiting => none

/-- The operation of the request has just ended with true. -/
def PowerTaskPlace.Succeeding (place : PowerTaskPlace) (id : Nat) : Prop :=
  place = .publish id true ∨ place = .complete id true ∨ place = .undo id true

theorem PowerTaskPlace.Succeeding.request {place : PowerTaskPlace} {id : Nat}
    (h : place.Succeeding id) : place.request = some id := by
  rcases h with rfl | rfl | rfl <;> rfl

namespace PowerRequest

/-- A release was executed, and if its owner owned the policy then, nobody does. -/
def Ended (r : PowerRequest) (owner : PowerOwner) : Prop :=
  r.kind = .release → ∃ result before, .executed result before ∈ r.history ∧
    (before = r.owner → owner = .none)

/-- How far `process_request` has come with a request. -/
def Serving (place : PowerTaskPlace) (r : PowerRequest) (owner : PowerOwner) : Prop :=
  match place with
  | .loadState _ | .execute _ => r.state ≠ .complete
  | .compareEpoch _ | .acceptEpoch _ => r.state ≠ .complete ∧ r.kind = .resume
  | .markMaintenance _ => r.state ≠ .complete ∧ r.kind = .acquire
  | .clearMaintenance _ => r.state ≠ .complete ∧ r.Succeeded ∧ r.Ended owner ∧ r.kind = .release
  | .publish _ success => r.state ≠ .complete ∧ (success = true → r.Succeeded) ∧ r.Ended owner
  | .complete _ success => r.state ≠ .complete ∧ r.success = success ∧ r.Ended owner
  | .undo _ success => r.state = .cancelled ∧ r.success = success ∧ r.Ended owner
  | .pauseCancelled _ | .storeMaintenance _ | .give _ | .drop _ =>
      r.state ≠ .waiting ∧ r.Ended owner
  | _ => True

theorem Ended.mono {r r' : PowerRequest} {owner : PowerOwner} (h : r.Ended owner)
    (hkind : r'.kind = r.kind) (howner : r'.owner = r.owner)
    (hhistory : ∀ event ∈ r.history, event ∈ r'.history) : r'.Ended owner := by
  intro hrelease
  obtain ⟨result, before, hmem, hvacated⟩ := h (hkind.symm.trans hrelease)
  exact ⟨result, before, hhistory _ hmem, fun heq => hvacated (heq.trans howner)⟩

theorem Keeps.ended {r r' : PowerRequest} (hkeeps : Keeps r r') {owner : PowerOwner}
    (h : r.Ended owner) : r'.Ended owner :=
  h.mono hkeeps.kind hkeeps.owner hkeeps.history

theorem Keeps.succeeded {r r' : PowerRequest} (hkeeps : Keeps r r') (h : r.Succeeded) :
    r'.Succeeded :=
  h.imp fun _ => hkeeps.history _

theorem Keeps.serving {r r' : PowerRequest} (hkeeps : Keeps r r') {place : PowerTaskPlace}
    {owner : PowerOwner} (h : Serving place r owner) : Serving place r' owner := by
  have hcomplete : r.state ≠ .complete → r'.state ≠ .complete := by
    intro hstate
    rcases hkeeps.state with heq | ⟨-, heq⟩ <;> rw [heq]
    · exact hstate
    · decide
  have hwaiting : r.state ≠ .waiting → r'.state ≠ .waiting := by
    intro hstate
    rcases hkeeps.state with heq | ⟨-, heq⟩ <;> rw [heq]
    · exact hstate
    · decide
  unfold Serving at h ⊢
  split at h
  · exact hcomplete h
  · exact hcomplete h
  · exact ⟨hcomplete h.1, hkeeps.kind.trans h.2⟩
  · exact ⟨hcomplete h.1, hkeeps.kind.trans h.2⟩
  · exact ⟨hcomplete h.1, hkeeps.kind.trans h.2⟩
  · exact ⟨hcomplete h.1, hkeeps.succeeded h.2.1, hkeeps.ended h.2.2.1, hkeeps.kind.trans h.2.2.2⟩
  · exact ⟨hcomplete h.1, fun htrue => hkeeps.succeeded (h.2.1 htrue), hkeeps.ended h.2.2⟩
  · exact ⟨hcomplete h.1, hkeeps.success.trans h.2.1, hkeeps.ended h.2.2⟩
  · refine ⟨?_, hkeeps.success.trans h.2.1, hkeeps.ended h.2.2⟩
    rcases hkeeps.state with heq | ⟨hstate, -⟩
    · exact heq.trans h.1
    · rw [h.1] at hstate
      cases hstate
  · exact ⟨hwaiting h.1, hkeeps.ended h.2⟩
  · exact ⟨hwaiting h.1, hkeeps.ended h.2⟩
  · exact ⟨hwaiting h.1, hkeeps.ended h.2⟩
  · exact ⟨hwaiting h.1, hkeeps.ended h.2⟩
  · trivial

/-- A request that was enqueued at some time is not before the queue. -/
theorem service_of_mem {history : List PowerRequestEvent} {event : PowerRequestEvent}
    (h : event ∈ history) (hevent : ∀ older, powerService (event :: older) ≠ .unqueued) :
    powerService history ≠ .unqueued := by
  induction history with
  | nil => cases h
  | cons last history ih =>
    rcases List.mem_cons.mp h with rfl | hmem
    · exact hevent history
    · cases last with
      | enqueued => exact nofun
      | received => exact nofun
      | processed later => exact nofun
      | _ => exact ih hmem

/-- A served request has been processed. -/
theorem processed_of_service {history : List PowerRequestEvent}
    (h : powerService history = .served) : ∃ owner, .processed owner ∈ history := by
  induction history with
  | nil => cases h
  | cons event history ih =>
    cases event with
    | processed owner => exact ⟨owner, List.mem_cons_self⟩
    | enqueued => cases h
    | received => cases h
    | _ => exact (ih h).imp fun _ => List.mem_cons_of_mem _

/-- What the task keeps of a request that it serves. -/
structure Grows (r r' : PowerRequest) : Prop where
  kind : r'.kind = r.kind
  owner : r'.owner = r.owner
  service : r'.service = r.service
  history : ∀ event ∈ r.history, event ∈ r'.history
  processed : ∀ owner, .processed owner ∈ r'.history → .processed owner ∈ r.history

theorem Grows.refl (r : PowerRequest) : r.Grows r :=
  ⟨rfl, rfl, rfl, fun _ hmem => hmem, fun _ hmem => hmem⟩

/-- The request is used, and what it says of itself may change. -/
theorem Grows.access {r r' : PowerRequest} (hkind : r'.kind = r.kind) (howner : r'.owner = r.owner)
    (hhistory : r'.history = .accessed :: r.history) : r.Grows r' := by
  have hservice : r'.service = r.service := by
    rw [PowerRequest.service, hhistory]
    rfl
  refine ⟨hkind, howner, hservice, fun event hmem => ?_, fun owner hmem => ?_⟩
  · rw [hhistory]
    exact List.mem_cons_of_mem _ hmem
  · rw [hhistory] at hmem
    refine (List.mem_cons.mp hmem).resolve_left fun hends => ?_
    cases hends

theorem Grows.ended {r r' : PowerRequest} (hgrows : r.Grows r') {owner : PowerOwner}
    (h : r.Ended owner) : r'.Ended owner :=
  h.mono hgrows.kind hgrows.owner hgrows.history

end PowerRequest

namespace PowerManagement

variable {s s' : PowerManagement}

/-- The request for which the policy has its owner. -/
def holder : List PowerManagementEvent → Option Nat
  | [] => none
  | .acquired id :: _ => some id
  | .vacated :: _ => none
  | .stopIntent :: older | .stamped _ :: older | .accepted _ :: older | .stopCheck :: older =>
      holder older

/-- Why request `id` may hold the policy. -/
structure Holds (s : PowerManagement) (id : Nat) : Prop where
  kind : (s.requests id).kind = .acquire
  owner : s.power.policy.owner = (s.requests id).owner
  granted : s.place.Succeeding id ∨
    ((s.requests id).state = .complete ∧ (s.requests id).success = true)

/-- The requests, the queue and the place of the task agree. -/
structure ServiceOk (s : PowerManagement) : Prop where
  requests : ∀ id, (s.requests id).Ok
  queue : ∀ id, id ∈ s.queue ↔ (s.requests id).service = .queued
  nodup : s.queue.Nodup
  pending : ∀ id, (s.requests id).service = .queued → (s.requests id).state ≠ .complete
  request : ∀ id, s.place.request = some id ↔ (s.requests id).service = .serving
  serving : ∀ id, s.place.request = some id →
    PowerRequest.Serving s.place (s.requests id) s.power.policy.owner
  ended : ∀ id owner, .processed owner ∈ (s.requests id).history → (s.requests id).Ended owner
  holds : ∀ id, holder s.trace = some id → s.Holds id
  owned : holder s.trace = none ↔ s.power.policy.owner = .none

/-- The holder was got by the task. -/
theorem ServiceOk.service_of_holder (h : ServiceOk s) {id : Nat}
    (hholder : holder s.trace = some id) : (s.requests id).service ≠ .unqueued := by
  intro hservice
  rcases (h.holds id hholder).granted with hsucceeding | ⟨hstate, -⟩
  · rw [(h.request id).mp hsucceeding.request] at hservice
    cases hservice
  · rw [((h.requests id).unqueued hservice).2.2.1] at hstate
    cases hstate

/-! ## Steps on one request -/

/-- A step that changes request `id` only. -/
theorem ServiceOk.update (h : ServiceOk s) {id : Nat} {r' : PowerRequest}
    (hrequests : s'.requests = Function.update s.requests id r') (hok : r'.Ok)
    (hqueue : ∀ other, other ≠ id → (other ∈ s'.queue ↔ other ∈ s.queue))
    (hqueued : id ∈ s'.queue ↔ r'.service = .queued) (hnodup : s'.queue.Nodup)
    (hpending : r'.service = .queued → r'.state ≠ .complete)
    (hplace : ∀ other, other ≠ id → (s'.place.request = some other ↔ s.place.request = some other))
    (hrequest : s'.place.request = some id ↔ r'.service = .serving)
    (hothers : ∀ other, other ≠ id → s.place.request = some other →
      s'.place = s.place ∧ s'.power = s.power)
    (hserving : s'.place.request = some id →
      PowerRequest.Serving s'.place r' s'.power.policy.owner)
    (hended : ∀ owner, .processed owner ∈ r'.history → r'.Ended owner)
    (hholds : ∀ other, holder s'.trace = some other → s'.Holds other)
    (howned : holder s'.trace = none ↔ s'.power.policy.owner = .none) : ServiceOk s' := by
  have hself : s'.requests id = r' := by rw [hrequests, Function.update_self]
  have hother : ∀ other, other ≠ id → s'.requests other = s.requests other := by
    intro other hne
    rw [hrequests, Function.update_of_ne hne]
  refine ⟨?_, ?_, hnodup, ?_, ?_, ?_, ?_, hholds, howned⟩
  all_goals intro other
  all_goals rcases eq_or_ne other id with heq | hne
  · rwa [heq, hself]
  · rw [hother other hne]
    exact h.requests other
  · rwa [heq, hself]
  · rw [hqueue other hne, hother other hne]
    exact h.queue other
  · rwa [heq, hself]
  · rw [hother other hne]
    exact h.pending other
  · rwa [heq, hself]
  · rw [hplace other hne, hother other hne]
    exact h.request other
  · rwa [heq, hself]
  · intro hserved
    have hbefore := (hplace other hne).mp hserved
    obtain ⟨hsamePlace, hsamePower⟩ := hothers other hne hbefore
    rw [hother other hne, hsamePlace, hsamePower]
    exact h.serving other hbefore
  · rwa [heq, hself]
  · rw [hother other hne]
    exact h.ended other

/-- The owner stays, and so does the reason for which another request holds the
policy. -/
theorem Holds.keep {id : Nat} (h : s.Holds id) (hplace : s.place.request ≠ some id)
    (hrequest : s'.requests id = s.requests id)
    (howner : s'.power.policy.owner = s.power.policy.owner) : s'.Holds id := by
  refine ⟨?_, ?_, ?_⟩
  · rw [hrequest]
    exact h.kind
  · rw [howner, hrequest]
    exact h.owner
  · rw [hrequest]
    exact .inr (h.granted.resolve_left fun hsucceeding => hplace hsucceeding.request)

/-! ## Steps of the callers -/

/-- A step of a caller that changes its request `id` only, and records nothing
about the owner. -/
theorem ServiceOk.ofCaller (h : ServiceOk s) {id : Nat}
    {r' : PowerRequest} (hrequests : s'.requests = Function.update s.requests id r')
    (hqueue : s'.queue = s.queue) (hplace : s'.place = s.place) (hpower : s'.power = s.power)
    (hholder : holder s'.trace = holder s.trace) (hok : r'.Ok)
    (hservice : r'.service = (s.requests id).service)
    (hkeeps : (s.requests id).service ≠ .unqueued → (s.requests id).Keeps r')
    (hprocessed : ∀ owner, .processed owner ∈ r'.history →
      .processed owner ∈ (s.requests id).history) : ServiceOk s' := by
  refine h.update hrequests hok (fun _ _ => by rw [hqueue]) ?_ (hqueue ▸ h.nodup) ?_
    (fun _ _ => by rw [hplace]) ?_ (fun _ _ _ => ⟨hplace, hpower⟩) ?_ ?_ ?_ ?_
  · rw [hqueue, hservice]
    exact h.queue id
  · intro hqueued
    rw [hservice] at hqueued
    rcases (hkeeps (by rw [hqueued]; nofun)).state with heq | ⟨-, heq⟩ <;> rw [heq]
    · exact h.pending id hqueued
    · nofun
  · rw [hplace, hservice]
    exact h.request id
  · intro hrequest
    rw [hplace] at hrequest ⊢
    rw [hpower]
    refine (hkeeps ?_).serving (h.serving id hrequest)
    rw [(h.request id).mp hrequest]
    nofun
  · intro owner hmem
    have hbefore := hprocessed owner hmem
    exact (hkeeps (PowerRequest.service_of_mem hbefore fun _ => nofun)).ended
      (h.ended id owner hbefore)
  · intro other hheld
    rw [hholder] at hheld
    have hholds := h.holds other hheld
    rcases eq_or_ne other id with rfl | hne
    · have hkept := hkeeps (h.service_of_holder hheld)
      have hself : s'.requests other = r' := by rw [hrequests, Function.update_self]
      refine ⟨?_, ?_, ?_⟩
      · rw [hself]
        exact hkept.kind.trans hholds.kind
      · rw [hpower, hself, hkept.owner]
        exact hholds.owner
      · rw [hplace, hself, hkept.success]
        refine hholds.granted.imp_right fun ⟨hstate, hsuccess⟩ => ⟨?_, hsuccess⟩
        rcases hkept.state with heq | ⟨hwaiting, -⟩
        · exact heq.trans hstate
        · rw [hwaiting] at hstate
          cases hstate
    · have hsame : s'.requests other = s.requests other := by
        rw [hrequests, Function.update_of_ne hne]
      refine ⟨?_, ?_, ?_⟩
      · rw [hsame]
        exact hholds.kind
      · rw [hpower, hsame]
        exact hholds.owner
      · rw [hplace, hsame]
        exact hholds.granted
  · rw [hholder, hpower]
    exact h.owned

/-- What a step of caller `id` does. -/
inductive CallerEffect (s : PowerManagement) (id : Nat) : PowerManagement → Prop where
  | stays : CallerEffect s id s
  | moves {r' : PowerRequest} (hmove : (s.requests id).CallerMove r') :
      CallerEffect s id (s.setRequest id r')
  | revokes {r' : PowerRequest} (hmove : (s.requests id).CallerMove r') :
      CallerEffect s id (s.revokeWork.setRequest id r')
  | stamps (hcaller : (s.requests id).caller = .stamping) :
      CallerEffect s id ((s.record (.stamped id)).setRequest id
        (({ s.requests id with
          epoch := s.stopEpoch
          references := 2
          state := .waiting }.log .created).goTo .enqueueing))
  | enqueues (hcaller : (s.requests id).caller = .enqueueing) :
      CallerEffect s id { s.setRequest id (((s.requests id).log .enqueued).goTo .waiting) with
        queue := s.queue ++ [id] }

theorem callerStep_effect (s : PowerManagement) (id : Nat) (answer : Bool) :
    CallerEffect s id (s.callerStep id answer) := by
  unfold callerStep
  dsimp only
  split
  · exact .stays
  · exact .stays
  · next hcaller =>
    split
    · exact .revokes (.starts hcaller)
    · exact .moves (.starts hcaller)
  · next hcaller => exact .moves (.allocates answer hcaller)
  · next hcaller => exact .stamps hcaller
  · next hcaller =>
    split
    · exact .enqueues hcaller
    · exact .moves (.refused hcaller)
  · next hcaller => exact .moves (.drops hcaller)
  · next hcaller => exact .moves (.dropsLast hcaller)
  · next hcaller =>
    split
    · exact .moves (.timesOut hcaller)
    · split
      · next hcompletion => exact .moves (.wakes hcaller hcompletion)
      · exact .stays
  · next hcaller =>
    split
    · next hstate => exact .moves (.cancels hcaller hstate)
    · next hstate => exact .moves (.tooLate hcaller hstate)
  · next hcaller => exact .revokes (.revokes hcaller)
  · next completed hcaller => exact .moves (.reads completed hcaller)
  · next success hcaller => exact .moves (.returns success hcaller)

theorem ServiceOk.callerStep (h : ServiceOk s) (id : Nat) (answer : Bool) :
    ServiceOk (s.callerStep id answer) := by
  have heffect := callerStep_effect s id answer
  generalize s.callerStep id answer = s' at heffect ⊢
  have hid := h.requests id
  cases heffect with
  | stays => exact h
  | moves hmove =>
    obtain ⟨hkeeps, hunmoved⟩ := hmove.keeps
    exact h.ofCaller rfl rfl rfl rfl rfl (hmove.ok hid) hunmoved.service (fun _ => hkeeps)
      fun owner hmem => hunmoved.history _ hmem nofun nofun
  | revokes hmove =>
    obtain ⟨hkeeps, hunmoved⟩ := hmove.keeps
    exact h.ofCaller rfl rfl rfl rfl rfl (hmove.ok hid) hunmoved.service (fun _ => hkeeps)
      fun owner hmem => hunmoved.history _ hmem nofun nofun
  | stamps hcaller =>
    have hservice : (s.requests id).service = .unqueued :=
      hid.unqueued_of_caller (by rw [hcaller]; exact fun hwaits => hwaits) (by rw [hcaller]; nofun)
    exact h.ofCaller rfl rfl rfl rfl rfl (hid.create hcaller s.stopEpoch) rfl (absurd hservice)
      fun owner hmem => (List.mem_cons.mp hmem).resolve_left nofun
  | enqueues hcaller =>
    have hservice : (s.requests id).service = .unqueued :=
      hid.unqueued_of_caller (by rw [hcaller]; exact fun hwaits => hwaits) (by rw [hcaller]; nofun)
    have hnotQueued : id ∉ s.queue := by
      rw [h.queue id, hservice]
      nofun
    have hnotServed : s.place.request ≠ some id := by
      rw [Ne, h.request id, hservice]
      nofun
    have hstate : (s.requests id).state = .waiting := (hid.unqueued hservice).2.2.1
    refine h.update rfl (hid.enqueue hcaller) ?_ ?_ ?_
      (fun _ => hstate.symm ▸ nofun) (fun _ _ => Iff.rfl) ?_
      (fun _ _ _ => ⟨rfl, rfl⟩) (fun hserved => absurd hserved hnotServed) ?_ ?_ h.owned
    · intro other hne
      simp [hne]
    · exact ⟨fun _ => rfl, fun _ => List.mem_append_right _ List.mem_cons_self⟩
    · exact List.nodup_append.mpr ⟨h.nodup, List.pairwise_singleton _ id, by
        rintro a ha b hb rfl
        exact hnotQueued (List.mem_singleton.mp hb ▸ ha)⟩
    · exact ⟨fun hserved => absurd hserved hnotServed, nofun⟩
    · intro owner hmem
      have hbefore : .processed owner ∈ (s.requests id).history :=
        (List.mem_cons.mp hmem).resolve_left nofun
      exact absurd hservice (PowerRequest.service_of_mem hbefore fun _ => nofun)
    · intro other hheld
      have hholds := h.holds other hheld
      have hne : other ≠ id := fun heq => h.service_of_holder hheld (heq ▸ hservice)
      have hsame := s.setRequest_of_ne hne (((s.requests id).log .enqueued).goTo .waiting)
      exact ⟨hsame.symm ▸ hholds.kind, hsame.symm ▸ hholds.owner, hsame.symm ▸ hholds.granted⟩

/-- A call begins. -/
theorem ServiceOk.call (h : ServiceOk s) (id : Nat) (kind : PowerRequestKind) (owner : PowerOwner) :
    ServiceOk (s.call id kind owner) := by
  unfold PowerManagement.call
  split
  · next hcaller =>
    have hempty : (s.requests id).history = [] :=
      (h.requests id).unallocated (by rw [hcaller]; trivial)
    have hservice : (s.requests id).service = .unqueued := by
      rw [PowerRequest.service, hempty]
      rfl
    refine h.ofCaller rfl rfl rfl rfl rfl ?_ hservice.symm (absurd hservice) (by rintro _ ⟨⟩)
    exact ⟨⟨fun _ => rfl, by rintro ⟨⟩, fun hshare => absurd rfl hshare,
      fun hne => absurd rfl hne, fun _ => ⟨fun hwaits => hwaits, by rintro ⟨⟩, rfl, rfl⟩,
      absurd rfl, by rintro ⟨⟩, by rintro ⟨⟩⟩, trivial⟩
  · exact h

/-! ## Steps of the task -/

theorem ownerEvents_holder (id : Nat) (before after : PowerOwner)
    (trace : List PowerManagementEvent) :
    (before = .none ∧ after ≠ .none ∧ holder (ownerEvents id before after ++ trace) = some id) ∨
      (before ≠ .none ∧ after = .none ∧ holder (ownerEvents id before after ++ trace) = none) ∨
      ((before = .none ↔ after = .none) ∧
        holder (ownerEvents id before after ++ trace) = holder trace) := by
  unfold ownerEvents
  split
  · next hacquired => exact .inl ⟨hacquired.1, hacquired.2, rfl⟩
  · next hnotAcquired =>
    split
    · next hvacated => exact .inr (.inl ⟨hvacated.1, hvacated.2, rfl⟩)
    · next hnotVacated =>
      refine .inr (.inr ⟨⟨fun hbefore => ?_, fun hafter => ?_⟩, rfl⟩)
      · by_contra hafter
        exact hnotAcquired ⟨hbefore, hafter⟩
      · by_contra hbefore
        exact hnotVacated ⟨hbefore, hafter⟩

/-- The trace knows whether the policy has an owner. -/
theorem owned_ownerEvents {trace : List PowerManagementEvent} {before : PowerOwner}
    (howned : holder trace = none ↔ before = .none) (id : Nat) (after : PowerOwner) :
    holder (ownerEvents id before after ++ trace) = none ↔ after = .none := by
  rcases ownerEvents_holder id before after trace with
    ⟨-, hafter, heq⟩ | ⟨-, hafter, heq⟩ | ⟨hsame, heq⟩
  · rw [heq]
    exact ⟨nofun, fun hnone => absurd hnone hafter⟩
  · exact ⟨fun _ => hafter, fun _ => heq⟩
  · rw [heq, howned, hsame]

/-- The owner before and after the operation of a request. -/
theorem executeRequest_owner (operations : PowerOperations) (kind : PowerRequestKind)
    (owner : PowerOwner) (m : PowerMachine) :
    let executed := executeRequest operations kind owner m
    (kind = .acquire ∧ executed.1 = true ∧ m.policy.owner = .none ∧
        executed.2.policy.owner = owner) ∨
      (kind = .release ∧ m.policy.owner = owner ∧ executed.2.policy.owner = .none) ∨
      (executed.2.policy.owner = m.policy.owner ∧ (kind = .release → m.policy.owner ≠ owner)) := by
  cases kind with
  | pause => exact .inr (.inr ⟨powerPolicyPause_owner operations m, nofun⟩)
  | resume => exact .inr (.inr ⟨powerPolicyResume_owner operations m, nofun⟩)
  | acquire =>
    rcases powerPolicyMaintenance_acquire operations m owner with ⟨hresult, hfree, -, howner⟩ |
      ⟨-, howner⟩
    · exact .inl ⟨rfl, hresult, hfree, howner⟩
    · exact .inr (.inr ⟨howner, nofun⟩)
  | release =>
    rcases powerPolicyMaintenance_release operations m owner with ⟨hsame, howner⟩ |
      ⟨hother, -, howner⟩
    · exact .inr (.inl ⟨rfl, hsame, howner⟩)
    · exact .inr (.inr ⟨howner, fun _ => hother⟩)

/-- A step that serves request `id` before and after, and changes the owner only
as its request allows. -/
theorem ServiceOk.serve (h : ServiceOk s) {id : Nat} {r' : PowerRequest}
    (hbefore : s.place.request = some id) (hafter : s'.place.request = some id)
    (hrequests : s'.requests = Function.update s.requests id r') (hqueue : s'.queue = s.queue)
    (hok : r'.Ok) (hgrows : (s.requests id).Grows r')
    (hserving : PowerRequest.Serving s'.place r' s'.power.policy.owner)
    (htrace : holder s'.trace =
      holder (ownerEvents id s.power.policy.owner s'.power.policy.owner ++ s.trace))
    (howner : s'.power.policy.owner = s.power.policy.owner ∨ s'.power.policy.owner = .none ∨
      ((s.requests id).kind = .acquire ∧ s'.power.policy.owner = (s.requests id).owner ∧
        s.power.policy.owner = .none ∧ s'.place.Succeeding id))
    (hgranted : holder s.trace = some id → s'.power.policy.owner = s.power.policy.owner →
      s'.place.Succeeding id ∨ (r'.state = .complete ∧ r'.success = true)) : ServiceOk s' := by
  have hself : s'.requests id = r' := by rw [hrequests, Function.update_self]
  have hserved := (h.request id).mp hbefore
  have hqueued := h.queue id
  rw [hserved] at hqueued
  refine h.update hrequests hok (fun _ _ => by rw [hqueue]) ?_ (hqueue ▸ h.nodup) ?_ ?_ ?_ ?_
    (fun _ => hserving) ?_ ?_ ?_
  · rw [hqueue, hgrows.service, hserved]
    exact hqueued
  · rw [hgrows.service, hserved]
    nofun
  · intro other _
    rw [hbefore, hafter]
  · exact ⟨fun _ => hgrows.service.trans hserved, fun _ => hafter⟩
  · intro other hne hother
    exact absurd (Option.some.inj (hother.symm.trans hbefore)) hne
  · exact fun owner hmem => hgrows.ended (h.ended id owner (hgrows.processed owner hmem))
  · intro other hheld
    rw [htrace] at hheld
    rcases ownerEvents_holder id s.power.policy.owner s'.power.policy.owner s.trace with
      ⟨hfree, hafterOwner, heq⟩ | ⟨-, -, heq⟩ | ⟨hsame, heq⟩
    · -- the request has just acquired the policy
      rw [heq] at hheld
      obtain rfl := Option.some.inj hheld
      rcases howner with hkept | hvacated | ⟨hkind, hacquired, -, hsucceeding⟩
      · exact absurd (hkept.trans hfree) hafterOwner
      · exact absurd hvacated hafterOwner
      · refine ⟨?_, ?_, .inl hsucceeding⟩
        · rw [hself, hgrows.kind]
          exact hkind
        · rw [hself, hgrows.owner]
          exact hacquired
    · rw [heq] at hheld
      cases hheld
    · rw [heq] at hheld
      have howned : s.power.policy.owner ≠ .none := fun hnone =>
        nomatch (h.owned.mpr hnone).symm.trans hheld
      have hkept : s'.power.policy.owner = s.power.policy.owner := by
        rcases howner with hkept | hvacated | ⟨-, -, hfree, -⟩
        · exact hkept
        · exact absurd (hsame.mpr hvacated) howned
        · exact absurd hfree howned
      have hholds := h.holds other hheld
      rcases eq_or_ne other id with rfl | hne
      · refine ⟨?_, ?_, ?_⟩
        · rw [hself, hgrows.kind]
          exact hholds.kind
        · rw [hself, hgrows.owner, hkept]
          exact hholds.owner
        · rw [hself]
          exact hgranted hheld hkept
      · refine hholds.keep ?_ ?_ hkept
        · intro hother
          exact hne (Option.some.inj (hother.symm.trans hbefore))
        · rw [hrequests, Function.update_of_ne hne]
  · rw [htrace]
    exact owned_ownerEvents h.owned id _

/-- A step that serves request `id` before and after, and does not touch the
owner. -/
theorem ServiceOk.serveOn (h : ServiceOk s) {id : Nat} {r' : PowerRequest}
    (hbefore : s.place.request = some id) (hafter : s'.place.request = some id)
    (hrequests : s'.requests = Function.update s.requests id r') (hqueue : s'.queue = s.queue)
    (hok : r'.Ok) (hgrows : (s.requests id).Grows r')
    (hserving : PowerRequest.Serving s'.place r' s'.power.policy.owner)
    (htrace : holder s'.trace = holder s.trace)
    (howner : s'.power.policy.owner = s.power.policy.owner)
    (hgranted : holder s.trace = some id →
      s'.place.Succeeding id ∨ (r'.state = .complete ∧ r'.success = true)) : ServiceOk s' := by
  refine h.serve hbefore hafter hrequests hqueue hok hgrows hserving ?_ (.inl howner)
    fun hheld _ => hgranted hheld
  rw [howner, htrace]
  rcases ownerEvents_holder id s.power.policy.owner s.power.policy.owner s.trace with
    ⟨hfree, howned, -⟩ | ⟨howned, hfree, -⟩ | ⟨-, heq⟩
  · exact absurd hfree howned
  · exact absurd hfree howned
  · exact heq.symm

/-- A request that is not decided does not hold the policy before it succeeds. -/
theorem ServiceOk.not_holder (h : ServiceOk s) {id : Nat}
    (hstate : (s.requests id).state ≠ .complete) (hplace : ¬ s.place.Succeeding id) :
    holder s.trace ≠ some id := by
  intro hheld
  rcases (h.holds id hheld).granted with hsucceeding | ⟨hcomplete, -⟩
  · exact hplace hsucceeding
  · exact hstate hcomplete

/-- A step of the task without a request. -/
theorem ServiceOk.idle (h : ServiceOk s) (hbefore : s.place.request = none)
    (hafter : s'.place.request = none) (hrequests : s'.requests = s.requests)
    (hqueue : s'.queue = s.queue) (htrace : holder s'.trace = holder s.trace)
    (howner : s'.power.policy.owner = s.power.policy.owner) : ServiceOk s' := by
  refine ⟨?_, ?_, hqueue ▸ h.nodup, ?_, ?_, ?_, ?_, ?_, ?_⟩
  · exact fun id => hrequests ▸ h.requests id
  · exact fun id => hqueue ▸ hrequests ▸ h.queue id
  · exact fun id => hrequests ▸ h.pending id
  · intro id
    rw [hafter, hrequests, ← hbefore]
    exact h.request id
  · intro id hrequest
    rw [hafter] at hrequest
    cases hrequest
  · exact fun id => hrequests ▸ h.ended id
  · intro id hheld
    rw [htrace] at hheld
    exact (h.holds id hheld).keep (by rw [hbefore]; nofun) (by rw [hrequests]) howner
  · rw [htrace, howner]
    exact h.owned

/-- The task receives the request at the head of the queue. -/
theorem ServiceOk.receive (h : ServiceOk s) {id : Nat} {queue : List Nat}
    (hplace : s.place = .receive) (hqueue : s.queue = id :: queue) :
    ServiceOk ({ s.setRequest id ((s.requests id).log .received) with queue := queue }.goTo
      (.loadState id)) := by
  have hnodup := h.nodup
  rw [hqueue] at hnodup
  have hnotMem : id ∉ queue := (List.nodup_cons.mp hnodup).1
  have hservice : (s.requests id).service = .queued := (h.queue id).mp (by simp [hqueue])
  have hmove : (s.requests id).TaskMove ((s.requests id).log .received) := .receives hservice
  have hnone : s.place.request = none := by rw [hplace]; rfl
  refine h.update rfl (hmove.ok (h.requests id)) ?_ ?_ (List.nodup_cons.mp hnodup).2 nofun ?_ ?_ ?_
    (fun _ => h.pending id hservice) ?_ ?_ h.owned
  · intro other hne
    rw [hqueue]
    exact ⟨List.mem_cons_of_mem _, fun hmem => (List.mem_cons.mp hmem).resolve_left hne⟩
  · exact ⟨fun hmem => absurd hmem hnotMem, nofun⟩
  · intro other hne
    rw [hnone]
    exact ⟨fun hother => absurd (Option.some.inj hother).symm hne, nofun⟩
  · exact ⟨fun _ => rfl, fun _ => rfl⟩
  · intro other hne hother
    rw [hnone] at hother
    cases hother
  · intro owner hmem
    have hended := h.ended id owner ((List.mem_cons.mp hmem).resolve_left nofun)
    exact hended.mono rfl rfl fun _ => List.mem_cons_of_mem _
  · intro other hheld
    have hne : other ≠ id := by
      rintro rfl
      rcases (h.holds other hheld).granted with hsucceeding | ⟨hstate, -⟩
      · exact nomatch hnone.symm.trans hsucceeding.request
      · exact h.pending other hservice hstate
    exact (h.holds other hheld).keep (by rw [hnone]; nofun) (Function.update_of_ne hne _ _) rfl

/-- The task is done with its request. -/
theorem ServiceOk.drop (h : ServiceOk s) {id : Nat} (hplace : s.place = .drop id) :
    ServiceOk ((s.setRequest id
      ((s.requests id).drop.log (.processed s.power.policy.owner))).goTo .receive) := by
  have hrequest : s.place.request = some id := by rw [hplace]; rfl
  have hservice := (h.request id).mp hrequest
  have hserving := h.serving id hrequest
  rw [hplace] at hserving
  obtain ⟨hstate, hended⟩ := hserving
  obtain ⟨hkind, howner, -, -, hdropState, hdropSuccess, -⟩ := (s.requests id).drop_fields
  have hmove := PowerRequest.TaskMove.drops s.power.policy.owner hservice
  have hdropEnded {owner : PowerOwner} (hbefore : (s.requests id).Ended owner) :
      ((s.requests id).drop.log (.processed s.power.policy.owner)).Ended owner :=
    hbefore.mono hkind howner
      fun _ hmem => List.mem_cons_of_mem _ (PowerRequest.mem_drop_history hmem)
  refine h.update rfl (hmove.ok (h.requests id)) (fun _ _ => Iff.rfl) ?_ h.nodup nofun ?_ ?_ ?_
    nofun ?_ ?_ h.owned
  · refine ⟨fun hmem => ?_, nofun⟩
    rw [(h.queue id).mp hmem] at hservice
    cases hservice
  · intro other hne
    rw [hrequest]
    exact ⟨nofun, fun hother => absurd (Option.some.inj hother).symm hne⟩
  · exact ⟨nofun, nofun⟩
  · intro other hne hother
    exact absurd (Option.some.inj (hother.symm.trans hrequest)) hne
  · intro owner hmem
    rcases List.mem_cons.mp hmem with heq | hmem
    · cases heq
      exact hdropEnded hended
    · refine hdropEnded (h.ended id owner ?_)
      rcases (s.requests id).drop_history with heq | heq <;> rw [heq] at hmem <;> simpa using hmem
  · intro other hheld
    have hholds := h.holds other hheld
    rcases eq_or_ne other id with rfl | hne
    · have hgranted := hholds.granted.resolve_left (by rw [hplace]; rintro (h | h | h) <;> cases h)
      have hself : (Function.update s.requests other ((s.requests other).drop.log
          (.processed s.power.policy.owner))) other = _ := Function.update_self _ _ _
      refine ⟨?_, ?_, .inr ⟨?_, ?_⟩⟩
      · exact (congrArg PowerRequest.kind hself).trans (hkind.trans hholds.kind)
      · exact hholds.owner.trans ((congrArg PowerRequest.owner hself).trans howner).symm
      · exact (congrArg PowerRequest.state hself).trans (hdropState.trans hgranted.1)
      · exact (congrArg PowerRequest.success hself).trans (hdropSuccess.trans hgranted.2)
    · refine hholds.keep ?_ (Function.update_of_ne hne _ _) rfl
      rw [hrequest]
      exact fun heq => hne (Option.some.inj heq).symm

theorem afterLoad_request (r : PowerRequest) (id : Nat) : (afterLoad r id).request = some id := by
  unfold afterLoad
  split
  · rfl
  · rfl
  · split <;> rfl
  · split <;> rfl

theorem afterLoad_serving {r : PowerRequest} (hstate : r.state ≠ .complete) (id : Nat)
    (owner : PowerOwner) : PowerRequest.Serving (afterLoad r id) r owner := by
  have hpublish (hkind : r.kind ≠ .release) :
      PowerRequest.Serving (.publish id false) r owner :=
    ⟨hstate, nofun, fun hrelease => absurd hrelease hkind⟩
  unfold afterLoad
  split
  · exact hstate
  · exact hstate
  · next hkind =>
    split
    · exact hpublish (by rw [hkind]; nofun)
    · exact ⟨hstate, hkind⟩
  · next hkind =>
    split
    · exact hpublish (by rw [hkind]; nofun)
    · exact ⟨hstate, hkind⟩

/-- The operation of a request is executed. -/
theorem ServiceOk.execute (h : ServiceOk s) {id : Nat} (hplace : s.place = .execute id)
    (operations : PowerOperations) :
    let r := s.requests id
    let executed := executeRequest operations r.kind r.owner s.power
    ServiceOk (((s.setPower id executed.2).setRequest id
      ((r.log .accessed).log (.executed executed.1 s.power.policy.owner))).goTo
        (if r.kind = .release ∧ executed.1 = true then .clearMaintenance id
        else .publish id executed.1)) := by
  intro r executed
  have hrequest : s.place.request = some id := by rw [hplace]; rfl
  have hservice := (h.request id).mp hrequest
  have hstate : r.state ≠ .complete := by
    have hserving := h.serving id hrequest
    rwa [hplace] at hserving
  have hnotHolder : holder s.trace ≠ some id :=
    h.not_holder hstate (by rw [hplace]; rintro (h | h | h) <;> cases h)
  have howner := executeRequest_owner operations r.kind r.owner s.power
  have hmove := PowerRequest.TaskMove.executes executed.1 s.power.policy.owner hservice
  have hsucceeded : executed.1 = true →
      ((r.log .accessed).log (.executed executed.1 s.power.policy.owner)).Succeeded := by
    intro htrue
    rw [htrue]
    exact ⟨_, List.mem_cons_self⟩
  have hended : ((r.log .accessed).log (.executed executed.1 s.power.policy.owner)).Ended
      executed.2.policy.owner := by
    intro hrelease
    have hkind : r.kind = .release := hrelease
    refine ⟨executed.1, s.power.policy.owner, List.mem_cons_self, fun hbefore => ?_⟩
    rcases howner with ⟨hacquire, -⟩ | ⟨-, -, hvacated⟩ | ⟨-, hother⟩
    · rw [hkind] at hacquire
      cases hacquire
    · exact hvacated
    · exact absurd hbefore (hother hkind)
  refine h.serve hrequest ?_ rfl rfl (hmove.ok (h.requests id)) ⟨rfl, rfl, rfl, ?_, ?_⟩ ?_ rfl ?_
    (fun hheld => absurd hheld hnotHolder)
  · show (if r.kind = .release ∧ executed.1 = true then PowerTaskPlace.clearMaintenance id
      else .publish id executed.1).request = some id
    split <;> rfl
  · exact fun _ hmem => List.mem_cons_of_mem _ (List.mem_cons_of_mem _ hmem)
  · intro owner hmem
    exact (List.mem_cons.mp ((List.mem_cons.mp hmem).resolve_left nofun)).resolve_left nofun
  · show PowerRequest.Serving (if r.kind = .release ∧ executed.1 = true then
      .clearMaintenance id else .publish id executed.1) _ executed.2.policy.owner
    split
    · next hreleased => exact ⟨hstate, hsucceeded hreleased.2, hended, hreleased.1⟩
    · exact ⟨hstate, hsucceeded, hended⟩
  · show executed.2.policy.owner = s.power.policy.owner ∨ executed.2.policy.owner = .none ∨ _
    rcases howner with ⟨hkind, hresult, hfree, hacquired⟩ | ⟨-, -, hvacated⟩ | ⟨hkept, -⟩
    · have hnotRelease : ¬ (r.kind = .release ∧ executed.1 = true) :=
        fun hrelease => nomatch hkind.symm.trans hrelease.1
      exact .inr (.inr ⟨hkind, hacquired, hfree,
        .inl ((if_neg hnotRelease).trans (congrArg _ hresult))⟩)
    · exact .inr (.inl hvacated)
    · exact .inl hkept

/-- An acquisition that nobody waits for is undone. -/
theorem ServiceOk.undo (h : ServiceOk s) {id : Nat} {success : Bool}
    (hplace : s.place = .undo id success) (operations : PowerOperations) :
    ServiceOk (((if success = true ∧ (s.requests id).kind = .acquire then
      s.setPower id (powerPolicyMaintenance operations s.power (s.requests id).owner false).2
    else s).access id).goTo (.pauseCancelled id)) := by
  have hrequest : s.place.request = some id := by rw [hplace]; rfl
  have hservice := (h.request id).mp hrequest
  have hserving := h.serving id hrequest
  rw [hplace] at hserving
  obtain ⟨hstate, hsuccess, hended⟩ := hserving
  have hmove := PowerRequest.TaskMove.uses hservice
  have hgrows : (s.requests id).Grows ((s.requests id).log .accessed) := .access rfl rfl rfl
  have hdecided : (s.requests id).state ≠ .waiting := by
    rw [hstate]
    nofun
  -- a request that holds the policy has just acquired it
  have hholder : holder s.trace = some id →
      success = true ∧ (s.requests id).kind = .acquire ∧
        s.power.policy.owner = (s.requests id).owner := by
    intro hheld
    obtain ⟨hkind, howner, hsucceeding | ⟨hcomplete, -⟩⟩ := h.holds id hheld
    · rw [hplace] at hsucceeding
      rcases hsucceeding with heq | heq | heq
      · cases heq
      · cases heq
      · cases heq
        exact ⟨rfl, hkind, howner⟩
    · rw [hstate] at hcomplete
      cases hcomplete
  split
  · next hacquired =>
    have howner := powerPolicyMaintenance_release operations s.power (s.requests id).owner
    refine h.serve hrequest rfl rfl rfl (hmove.ok (h.requests id)) hgrows ⟨hdecided, ?_⟩ rfl ?_ ?_
    · exact fun hrelease => nomatch hacquired.2.symm.trans hrelease
    · rcases howner with ⟨-, hvacated⟩ | ⟨-, -, hkept⟩
      · exact .inr (.inl hvacated)
      · exact .inl hkept
    · intro hheld hkept
      have howned : s.power.policy.owner ≠ .none := fun hnone =>
        nomatch (h.owned.mpr hnone).symm.trans hheld
      rcases howner with ⟨-, hvacated⟩ | ⟨hother, -⟩
      · exact absurd (hkept.symm.trans hvacated) howned
      · exact absurd (hholder hheld).2.2 hother
  · next hnotAcquired =>
    refine h.serveOn hrequest rfl rfl rfl (hmove.ok (h.requests id)) hgrows
      ⟨hdecided, hgrows.ended hended⟩ rfl rfl fun hheld => ?_
    exact absurd ⟨(hholder hheld).1, (hholder hheld).2.1⟩ hnotAcquired

theorem ServiceOk.taskStep (h : ServiceOk s) (input : PowerTaskInput) :
    ServiceOk (s.taskStep input) := by
  have huses {id : Nat} (hrequest : s.place.request = some id) :
      ((s.requests id).log .accessed).Ok ∧ (s.requests id).Grows ((s.requests id).log .accessed) :=
    ⟨(PowerRequest.TaskMove.uses ((h.request id).mp hrequest)).ok (h.requests id),
      .access rfl rfl rfl⟩
  have hserves {id : Nat} {place : PowerTaskPlace} (hplace : s.place = place)
      (hrequest : place.request = some id) : s.place.request = some id ∧
        PowerRequest.Serving place (s.requests id) s.power.policy.owner :=
    ⟨hplace ▸ hrequest, hplace ▸ h.serving id (hplace ▸ hrequest)⟩
  have hnotGranted {id : Nat} {P : Prop} (hstate : (s.requests id).state ≠ .complete)
      (hplace : ¬ s.place.Succeeding id) (hheld : holder s.trace = some id) : P :=
    absurd hheld (h.not_holder hstate hplace)
  unfold PowerManagement.taskStep
  split
  · next hplace => exact h.idle (by rw [hplace]; rfl) rfl rfl rfl rfl rfl
  · next hplace =>
    split
    · exact h.idle (by rw [hplace]; rfl) rfl rfl rfl rfl rfl
    · next hqueue => exact h.receive hplace hqueue
  · next id hplace =>
    obtain ⟨hrequest, hstate⟩ := hserves hplace rfl
    obtain ⟨hok, hgrows⟩ := huses hrequest
    exact h.serveOn hrequest (afterLoad_request _ id) rfl rfl hok hgrows
      (afterLoad_serving (r := (s.requests id).log .accessed) hstate id _) rfl rfl
      (hnotGranted hstate (by rw [hplace]; rintro (h | h | h) <;> cases h))
  · next id hplace =>
    obtain ⟨hrequest, hstate, hkind⟩ := hserves hplace rfl
    obtain ⟨hok, hgrows⟩ := huses hrequest
    have hgranted {P : Prop} : holder s.trace = some id → P :=
      hnotGranted hstate (by rw [hplace]; rintro (h | h | h) <;> cases h)
    split
    · exact h.serveOn hrequest rfl rfl rfl hok hgrows ⟨hstate, hkind⟩ rfl rfl hgranted
    · exact h.serveOn hrequest rfl rfl rfl hok hgrows
        ⟨hstate, nofun, fun hrelease => nomatch hkind.symm.trans hrelease⟩ rfl rfl hgranted
  · next id hplace =>
    obtain ⟨hrequest, hstate, hkind⟩ := hserves hplace rfl
    obtain ⟨hok, hgrows⟩ := huses hrequest
    exact h.serveOn hrequest rfl rfl rfl hok hgrows hstate rfl rfl
      (hnotGranted hstate (by rw [hplace]; rintro (h | h | h) <;> cases h))
  · next id hplace =>
    obtain ⟨hrequest, hstate, hkind⟩ := hserves hplace rfl
    exact h.serveOn hrequest rfl (Function.update_eq_self id s.requests).symm rfl (h.requests id)
      (.refl _) hstate rfl rfl
      (hnotGranted hstate (by rw [hplace]; rintro (h | h | h) <;> cases h))
  · next id hplace => exact h.execute hplace input.operations
  · next id hplace =>
    obtain ⟨hrequest, hstate, hsucceeded, hended, hkind⟩ := hserves hplace rfl
    exact h.serveOn hrequest rfl (Function.update_eq_self id s.requests).symm rfl (h.requests id)
      (.refl _) ⟨hstate, fun _ => hsucceeded, hended⟩ rfl rfl
      (hnotGranted hstate (by rw [hplace]; rintro (h | h | h) <;> cases h))
  · next id success hplace =>
    obtain ⟨hrequest, hstate, hsucceeded, hended⟩ := hserves hplace rfl
    have hmove := PowerRequest.TaskMove.publishes success ((h.request id).mp hrequest) hstate
      hsucceeded
    have hgrows : (s.requests id).Grows ({ s.requests id with success := success }.log .accessed) :=
      .access rfl rfl rfl
    refine h.serveOn hrequest rfl rfl rfl (hmove.ok (h.requests id)) hgrows
      ⟨hstate, rfl, hgrows.ended hended⟩ rfl rfl fun hheld => .inl ?_
    rcases (h.holds id hheld).granted with hsucceeding | ⟨hcomplete, -⟩
    · rw [hplace] at hsucceeding
      rcases hsucceeding with heq | heq | heq <;> cases heq
      exact .inr (.inl rfl)
    · exact absurd hcomplete hstate
  · next id success hplace =>
    obtain ⟨hrequest, hstate, hsuccess, hended⟩ := hserves hplace rfl
    have hservice := (h.request id).mp hrequest
    have hsucceeding : holder s.trace = some id → success = true := by
      intro hheld
      rcases (h.holds id hheld).granted with hsucceeding | ⟨hcomplete, -⟩
      · rw [hplace] at hsucceeding
        rcases hsucceeding with heq | heq | heq <;> cases heq
        rfl
      · exact absurd hcomplete hstate
    split
    · next hwaiting =>
      have hmove := PowerRequest.TaskMove.completes hservice hwaiting
      have hgrows : (s.requests id).Grows
          ({ s.requests id with state := .complete }.log .accessed) := .access rfl rfl rfl
      exact h.serveOn hrequest rfl rfl rfl (hmove.ok (h.requests id)) hgrows
        ⟨nofun, hgrows.ended hended⟩ rfl rfl
        fun hheld => .inr ⟨rfl, hsuccess.trans (hsucceeding hheld)⟩
    · next hdecided =>
      obtain ⟨hok, hgrows⟩ := huses hrequest
      have hcancelled : (s.requests id).state = .cancelled := by
        cases hvalue : (s.requests id).state with
        | waiting => exact absurd hvalue hdecided
        | complete => exact absurd hvalue hstate
        | cancelled => rfl
      refine h.serveOn hrequest rfl rfl rfl hok hgrows ⟨hcancelled, hsuccess, hgrows.ended hended⟩
        rfl rfl fun hheld => .inl (.inr (.inr ?_))
      rw [hsucceeding hheld]
      rfl
  · next id success hplace => exact h.undo hplace input.operations
  · next id hplace =>
    obtain ⟨hrequest, hstate, hended⟩ := hserves hplace rfl
    have hgranted (hheld : holder s.trace = some id) :=
      (h.holds id hheld).granted.resolve_left (by rw [hplace]; rintro (h | h | h) <;> cases h)
    split
    · have howner := powerPolicyPause_owner input.operations s.power
      exact h.serveOn hrequest rfl (Function.update_eq_self id s.requests).symm rfl (h.requests id)
        (.refl _) ⟨hstate, howner.symm ▸ hended⟩ rfl howner fun hheld => .inr (hgranted hheld)
    · exact h.serveOn hrequest rfl (Function.update_eq_self id s.requests).symm rfl (h.requests id)
        (.refl _) ⟨hstate, hended⟩ rfl rfl fun hheld => .inr (hgranted hheld)
  · next id hplace =>
    obtain ⟨hrequest, hstate, hended⟩ := hserves hplace rfl
    have hgranted (hheld : holder s.trace = some id) :=
      (h.holds id hheld).granted.resolve_left (by rw [hplace]; rintro (h | h | h) <;> cases h)
    exact h.serveOn hrequest rfl (Function.update_eq_self id s.requests).symm rfl (h.requests id)
      (.refl _) ⟨hstate, hended⟩ rfl rfl fun hheld => .inr (hgranted hheld)
  · next id hplace =>
    obtain ⟨hrequest, hstate, hended⟩ := hserves hplace rfl
    have hmove := PowerRequest.TaskMove.gives ((h.request id).mp hrequest) hstate
    have hgrows : (s.requests id).Grows ({ s.requests id with completion := true }.log .accessed) :=
      .access rfl rfl rfl
    have hgranted (hheld : holder s.trace = some id) :=
      (h.holds id hheld).granted.resolve_left (by rw [hplace]; rintro (h | h | h) <;> cases h)
    exact h.serveOn hrequest rfl rfl rfl (hmove.ok (h.requests id)) hgrows
      ⟨hstate, hgrows.ended hended⟩ rfl rfl fun hheld => .inr (hgranted hheld)
  · next id hplace => exact h.drop hplace
  · next hplace => exact h.idle (by rw [hplace]; rfl) rfl rfl rfl rfl rfl
  · next epoch hplace =>
    have hnone : s.place.request = none := by rw [hplace]; rfl
    split
    · exact h.idle hnone rfl rfl rfl rfl (powerPolicyPause_owner input.operations s.power)
    · exact h.idle hnone rfl rfl rfl rfl rfl
  · next hplace =>
    have hnone : s.place.request = none := by rw [hplace]; rfl
    split
    · exact h.idle hnone rfl rfl rfl rfl rfl
    · exact h.idle hnone rfl rfl rfl rfl rfl
  · next hplace =>
    exact h.idle (by rw [hplace]; rfl) rfl rfl rfl rfl
      (powerPolicyStep_owner input.operations s.power _)
  · next hplace => exact h.idle (by rw [hplace]; rfl) rfl rfl rfl rfl rfl

theorem ServiceOk.step (h : ServiceOk s) (input : Input) : ServiceOk (s.step input) := by
  cases input with
  | call id kind owner => exact h.call id kind owner
  | caller id answer => exact h.callerStep id answer
  | revoke =>
    have hholds (id : Nat) (hheld : holder s.trace = some id) : s.revokeWork.Holds id :=
      ⟨(h.holds id hheld).kind, (h.holds id hheld).owner, (h.holds id hheld).granted⟩
    exact ⟨h.requests, h.queue, h.nodup, h.pending, h.request, h.serving, h.ended, hholds, h.owned⟩
  | task input => exact h.taskStep input

theorem initialized_service (boardFailed : Bool) : ServiceOk (initialized boardFailed) where
  requests _ := PowerRequest.unused_ok
  queue _ := ⟨nofun, nofun⟩
  nodup := List.nodup_nil
  pending := nofun
  request _ := ⟨nofun, nofun⟩
  serving := nofun
  ended := nofun
  holds := nofun
  owned := ⟨fun _ => rfl, fun _ => rfl⟩

end PowerManagement

end EspMiner
