import EspMiner.Main.PowerManagementService

/-!
# Stop intent, and what the callers are told

The stop epoch counts the stop intents, and the accepted epoch is the stop epoch
at which the last accepted resume was stamped.  The stop check compares the two,
so a policy that runs after it was resumed since every stop intent before it.
What a caller is told follows from the life of its request.
-/

namespace EspMiner

open Library

namespace PowerManagement

variable {s : PowerManagement}

/-- How many stop intents there were. -/
def stopIntents (trace : List PowerManagementEvent) : Nat := trace.count .stopIntent

/-- The stop intents when request `id` was stamped. -/
def stampedIntents (id : Nat) (trace : List PowerManagementEvent) : Nat :=
  stopIntents (olderThan (.stamped id) trace)

/-- The stop intents at the last stop check. -/
def checkedIntents (trace : List PowerManagementEvent) : Nat :=
  stopIntents (olderThan .stopCheck trace)

/-- The last resume that the task accepted. -/
def lastAccepted : List PowerManagementEvent → Option Nat
  | [] => none
  | .accepted id :: _ => some id
  | .stopIntent :: older | .stamped _ :: older | .stopCheck :: older | .acquired _ :: older
  | .vacated :: older => lastAccepted older

/-- The stop intents when the last accepted resume was stamped; none at boot. -/
def acceptedIntents (trace : List PowerManagementEvent) : Nat :=
  match lastAccepted trace with
  | some id => stampedIntents id trace
  | none => 0

/-- Every stop intent with a stop check after it has the last accepted resume
after it. -/
def ResumedSince (trace : List PowerManagementEvent) : Prop :=
  ∀ newer older, trace = newer ++ .stopIntent :: older → .stopCheck ∈ newer →
    ∃ id, lastAccepted trace = some id ∧ .stamped id ∈ newer

/-- Equal counts leave no stop intent between the resume and the check. -/
theorem resumedSince_of_intents {trace : List PowerManagementEvent}
    (h : checkedIntents trace = acceptedIntents trace) : ResumedSince trace := by
  rintro newer older rfl hcheck
  have hchecked : stopIntents older <
      checkedIntents (newer ++ .stopIntent :: older) := by
    unfold checkedIntents stopIntents
    rw [olderThan_append_of_mem hcheck, List.count_append, List.count_cons_self]
    omega
  cases hlast : lastAccepted (newer ++ .stopIntent :: older) with
  | none =>
    rw [h, acceptedIntents, hlast] at hchecked
    exact absurd hchecked (Nat.not_lt_zero _)
  | some id =>
    refine ⟨id, rfl, ?_⟩
    by_contra hstamp
    rw [h, acceptedIntents, hlast] at hchecked
    refine absurd hchecked (Nat.not_lt.mpr ?_)
    have hne : PowerManagementEvent.stopIntent ≠ .stamped id := nofun
    show stopIntents (olderThan _ _) ≤ _
    rw [olderThan_append_of_not_mem hstamp, olderThan_cons_of_ne hne]
    exact (olderThan_sublist _ _).count_le _

/-! ## What an event changes -/

/-- The events say the same of the epochs. -/
structure SameEpochs (trace trace' : List PowerManagementEvent) : Prop where
  intents : stopIntents trace' = stopIntents trace
  stamped : ∀ id, .stamped id ∈ trace' ↔ .stamped id ∈ trace
  stampedIntents : ∀ id, stampedIntents id trace' = stampedIntents id trace
  accepted : lastAccepted trace' = lastAccepted trace
  checked : checkedIntents trace' = checkedIntents trace

theorem SameEpochs.refl (trace : List PowerManagementEvent) : SameEpochs trace trace :=
  ⟨rfl, fun _ => Iff.rfl, fun _ => rfl, rfl, rfl⟩

theorem SameEpochs.acceptedIntents {trace trace' : List PowerManagementEvent}
    (h : SameEpochs trace trace') : acceptedIntents trace' = acceptedIntents trace := by
  unfold PowerManagement.acceptedIntents
  rw [h.accepted]
  split
  · exact h.stampedIntents _
  · rfl

/-- The owner of the policy says nothing about the epochs. -/
theorem sameEpochs_ownerEvents (id : Nat) (before after : PowerOwner)
    (trace : List PowerManagementEvent) :
    SameEpochs trace (ownerEvents id before after ++ trace) := by
  have hacquired : SameEpochs trace (.acquired id :: trace) :=
    ⟨by simp [stopIntents], by simp, fun _ => by simp [stampedIntents, olderThan], rfl,
      by simp [checkedIntents, olderThan]⟩
  have hvacated : SameEpochs trace (.vacated :: trace) :=
    ⟨by simp [stopIntents], by simp, fun _ => by simp [stampedIntents, olderThan], rfl,
      by simp [checkedIntents, olderThan]⟩
  unfold ownerEvents
  split
  · exact hacquired
  · split
    · exact hvacated
    · exact .refl trace

/-! ## The invariant -/

/-- The stop check found no stop intent that was not accepted. -/
def Checked (s : PowerManagement) : Prop :=
  BitVec.ofNat 32 (checkedIntents s.trace) = BitVec.ofNat 32 (acceptedIntents s.trace)

/-- What the task knows after the stop check of its iteration. -/
def CheckOk (s : PowerManagement) : Prop :=
  match s.place with
  | .checkAccepted epoch => epoch = BitVec.ofNat 32 (checkedIntents s.trace)
  | .selfTest | .stepPolicy =>
      s.Checked ∨ s.power.policy.paused = true ∨ s.power.policy.owner ≠ .none
  | .waiting => s.Checked ∨ s.power.policy.running = false
  | _ => True

/-- The epochs count the stop intents. -/
structure EpochsOk (s : PowerManagement) : Prop where
  stop : s.stopEpoch = BitVec.ofNat 32 (stopIntents s.trace)
  stamped : ∀ id, .stamped id ∈ s.trace ↔ .created ∈ (s.requests id).history
  epoch : ∀ id, .stamped id ∈ s.trace →
    (s.requests id).epoch = BitVec.ofNat 32 (stampedIntents id s.trace)
  accepted : s.acceptedEpoch = BitVec.ofNat 32 (acceptedIntents s.trace)
  known : ∀ id, lastAccepted s.trace = some id → .stamped id ∈ s.trace
  safe : PolicySafe s.power
  check : s.CheckOk

/-- The requests were stamped the same. -/
def SameStamps (s s' : PowerManagement) : Prop :=
  ∀ id, (s'.requests id).epoch = (s.requests id).epoch ∧
    (.created ∈ (s'.requests id).history ↔ .created ∈ (s.requests id).history)

theorem SameStamps.refl (s : PowerManagement) : SameStamps s s := fun _ => ⟨rfl, Iff.rfl⟩

theorem SameStamps.update {s s' : PowerManagement} {id : Nat} {r' : PowerRequest}
    (hrequests : s'.requests = Function.update s.requests id r')
    (hepoch : r'.epoch = (s.requests id).epoch)
    (hcreated : .created ∈ r'.history ↔ .created ∈ (s.requests id).history) : SameStamps s s' := by
  intro other
  rw [hrequests]
  rcases eq_or_ne other id with rfl | hne
  · rw [Function.update_self]
    exact ⟨hepoch, hcreated⟩
  · rw [Function.update_of_ne hne]
    exact ⟨rfl, Iff.rfl⟩

/-- A step that touches no epoch. -/
theorem EpochsOk.quiet {s s' : PowerManagement} (h : EpochsOk s)
    (htrace : SameEpochs s.trace s'.trace) (hstop : s'.stopEpoch = s.stopEpoch)
    (haccepted : s'.acceptedEpoch = s.acceptedEpoch) (hrequests : SameStamps s s')
    (hsafe : PolicySafe s'.power) (hcheck : s'.CheckOk) : EpochsOk s' := by
  refine ⟨?_, ?_, ?_, ?_, ?_, hsafe, hcheck⟩
  · rw [hstop, htrace.intents]
    exact h.stop
  · intro id
    rw [htrace.stamped, (hrequests id).2]
    exact h.stamped id
  · intro id
    rw [htrace.stamped, (hrequests id).1, htrace.stampedIntents]
    exact h.epoch id
  · rw [haccepted, htrace.acceptedIntents]
    exact h.accepted
  · intro id
    rw [htrace.accepted, htrace.stamped]
    exact h.known id

/-- A step that leaves the task alone keeps what the task knows. -/
theorem CheckOk.keep {s s' : PowerManagement} (h : s.CheckOk) (hplace : s'.place = s.place)
    (hpower : s'.power = s.power) (hchecked : checkedIntents s'.trace = checkedIntents s.trace)
    (haccepted : acceptedIntents s'.trace = acceptedIntents s.trace) : s'.CheckOk := by
  unfold CheckOk Checked at h ⊢
  rwa [hplace, hpower, hchecked, haccepted]

/-! ## Steps of the callers -/

/-- A stop intent. -/
theorem EpochsOk.revokeWork (h : EpochsOk s) : EpochsOk s.revokeWork := by
  have hstamped (id : Nat) :
      stampedIntents id (.stopIntent :: s.trace) = stampedIntents id s.trace := by
    simp [stampedIntents, olderThan]
  have haccepted : acceptedIntents (.stopIntent :: s.trace) = acceptedIntents s.trace := by
    unfold acceptedIntents
    rw [show lastAccepted (.stopIntent :: s.trace) = lastAccepted s.trace from rfl]
    split
    · exact hstamped _
    · rfl
  have hchecked : checkedIntents (.stopIntent :: s.trace) = checkedIntents s.trace := by
    simp [checkedIntents, olderThan]
  have hmem (id : Nat) : .stamped id ∈ s.revokeWork.trace ↔ .stamped id ∈ s.trace := by
    simp [PowerManagement.revokeWork, record]
  refine ⟨?_, ?_, ?_, ?_, ?_, h.safe, h.check.keep rfl rfl hchecked haccepted⟩
  · show s.stopEpoch + 1 = BitVec.ofNat 32 (stopIntents (.stopIntent :: s.trace))
    rw [stopIntents, List.count_cons_self, BitVec.ofNat_add, h.stop]
    rfl
  · exact fun id => (hmem id).trans (h.stamped id)
  · exact fun id hid => (h.epoch id ((hmem id).mp hid)).trans (congrArg _ (hstamped id)).symm
  · exact h.accepted.trans (congrArg _ haccepted).symm
  · exact fun id hid => (hmem id).mpr (h.known id hid)

/-- A caller moves on with its request. -/
theorem EpochsOk.move (h : EpochsOk s) {id : Nat} {r' : PowerRequest}
    (hmove : (s.requests id).CallerMove r') : EpochsOk (s.setRequest id r') := by
  obtain ⟨hkeeps, hunmoved⟩ := hmove.keeps
  exact h.quiet (.refl _) rfl rfl (.update rfl hunmoved.epoch
    ⟨fun hmem => hunmoved.history _ hmem nofun nofun, hkeeps.history _⟩) h.safe
    (h.check.keep rfl rfl rfl rfl)

/-- A caller stamps its request with the stop epoch of this moment. -/
theorem EpochsOk.stamp (h : EpochsOk s) {id : Nat} (hnew : .stamped id ∉ s.trace)
    {r' : PowerRequest} (hepoch : r'.epoch = s.stopEpoch) (hcreated : .created ∈ r'.history) :
    EpochsOk ((s.record (.stamped id)).setRequest id r') := by
  have hstamped {other : Nat} (hne : other ≠ id) :
      stampedIntents other (.stamped id :: s.trace) = stampedIntents other s.trace := by
    simp [stampedIntents, olderThan, hne.symm]
  have hlast : lastAccepted s.trace ≠ some id := fun hid => hnew (h.known id hid)
  have haccepted : acceptedIntents (.stamped id :: s.trace) = acceptedIntents s.trace := by
    unfold acceptedIntents
    rw [show lastAccepted (.stamped id :: s.trace) = lastAccepted s.trace from rfl]
    split
    · next other hother => exact hstamped fun heq => hlast (heq ▸ hother)
    · rfl
  have hchecked : checkedIntents (.stamped id :: s.trace) = checkedIntents s.trace := by
    simp [checkedIntents, olderThan]
  refine ⟨?_, ?_, ?_, ?_, ?_, h.safe, h.check.keep rfl rfl hchecked haccepted⟩
  · refine h.stop.trans (congrArg _ ?_)
    simp [stopIntents, setRequest, record]
  · intro other
    rcases eq_or_ne other id with rfl | hne
    · rw [setRequest_self]
      exact ⟨fun _ => hcreated, fun _ => List.mem_cons_self⟩
    · rw [setRequest_of_ne _ hne]
      refine Iff.trans ?_ (h.stamped other)
      simp [setRequest, record, hne]
  · intro other hmem
    rcases eq_or_ne other id with rfl | hne
    · rw [setRequest_self, hepoch, h.stop]
      exact congrArg _ (congrArg stopIntents (olderThan_cons_self _ s.trace).symm)
    · rw [setRequest_of_ne _ hne]
      refine (h.epoch other ?_).trans (congrArg _ (hstamped hne)).symm
      refine (List.mem_cons.mp hmem).resolve_left fun heq => ?_
      exact hne (PowerManagementEvent.stamped.inj heq)
  · exact h.accepted.trans (congrArg _ haccepted).symm
  · exact fun other hlastOther => List.mem_cons_of_mem _ (h.known other hlastOther)

theorem EpochsOk.callerStep (h : EpochsOk s) (hservice : ServiceOk s) (id : Nat) (answer : Bool) :
    EpochsOk (s.callerStep id answer) := by
  have heffect := callerStep_effect s id answer
  generalize s.callerStep id answer = s' at heffect ⊢
  cases heffect with
  | stays => exact h
  | moves hmove => exact h.move hmove
  | revokes hmove => exact h.revokeWork.move hmove
  | stamps hcaller =>
    refine h.stamp ?_ rfl List.mem_cons_self
    rw [h.stamped id, (hservice.requests id).unallocated (by rw [hcaller]; trivial)]
    nofun
  | enqueues hcaller =>
    exact h.quiet (.refl _) rfl rfl (.update rfl rfl (by simp [PowerRequest.log,
      PowerRequest.goTo])) h.safe (h.check.keep rfl rfl rfl rfl)

theorem EpochsOk.call (h : EpochsOk s) (hservice : ServiceOk s) (id : Nat) (kind : PowerRequestKind)
    (owner : PowerOwner) : EpochsOk (s.call id kind owner) := by
  unfold PowerManagement.call
  split
  · next hcaller =>
    have hempty : (s.requests id).history = [] :=
      (hservice.requests id).unallocated (by rw [hcaller]; trivial)
    have hnew : .stamped id ∉ s.trace := by
      rw [h.stamped id, hempty]
      nofun
    refine ⟨h.stop, fun other => ?_, fun other hmem => ?_, h.accepted, h.known, h.safe,
      h.check.keep rfl rfl rfl rfl⟩
    · refine (h.stamped other).trans ?_
      rcases eq_or_ne other id with rfl | hne
      · rw [hempty, setRequest_self]
        rfl
      · rw [setRequest_of_ne _ hne]
    · have hne : other ≠ id := fun heq => hnew (heq ▸ hmem)
      rw [setRequest_of_ne _ hne]
      exact h.epoch other hmem
  · exact h

/-! ## Steps of the task -/

theorem executeRequest_safe (operations : PowerOperations) (kind : PowerRequestKind)
    (owner : PowerOwner) {m : PowerMachine} (h : PolicySafe m) :
    PolicySafe (executeRequest operations kind owner m).2 := by
  cases kind with
  | pause => exact powerPolicyPause_safe operations h
  | resume => exact powerPolicyResume_safe operations h
  | acquire => exact powerPolicyMaintenance_safe operations h owner true
  | release => exact powerPolicyMaintenance_safe operations h owner false

/-- The task uses a request. -/
theorem SameStamps.access (s : PowerManagement) (id : Nat) (place : PowerTaskPlace) :
    SameStamps s ((s.access id).goTo place) :=
  .update rfl rfl (by simp [PowerRequest.log])

theorem afterLoad_check (s : PowerManagement) {r : PowerRequest} {id : Nat} :
    CheckOk (s.goTo (afterLoad r id)) := by
  unfold afterLoad
  split
  · trivial
  · trivial
  · split <;> trivial
  · split <;> trivial

/-- The task accepts a resume, with the epoch at which it was stamped. -/
theorem EpochsOk.accept (h : EpochsOk s) {id : Nat}
    (hcreated : .created ∈ (s.requests id).history) :
    EpochsOk ({ (s.access id).record (.accepted id) with
      acceptedEpoch := (s.requests id).epoch }.goTo (.execute id)) := by
  have hstamped : .stamped id ∈ s.trace := (h.stamped id).mpr hcreated
  have hsame (other : Nat) :
      stampedIntents other (.accepted id :: s.trace) = stampedIntents other s.trace := by
    simp [stampedIntents, olderThan]
  have haccess := SameStamps.access s id (.execute id)
  refine ⟨?_, fun other => ?_, fun other hmem => ?_, ?_, fun other hlast => ?_, h.safe, trivial⟩
  · refine h.stop.trans (congrArg _ ?_)
    simp [stopIntents, goTo, record, access, setRequest]
  · refine Iff.trans ?_ ((h.stamped other).trans (haccess other).2.symm)
    simp [goTo, record, access, setRequest]
  · refine (haccess other).1.trans ((h.epoch other ?_).trans (congrArg _ (hsame other)).symm)
    exact (List.mem_cons.mp hmem).resolve_left nofun
  · exact (h.epoch id hstamped).trans (congrArg _ (hsame id)).symm
  · cases hlast
    exact List.mem_cons_of_mem _ hstamped

/-- The task records the stop epoch. -/
theorem EpochsOk.checkStop (h : EpochsOk s) :
    EpochsOk ((s.record .stopCheck).goTo (.checkAccepted s.stopEpoch)) := by
  have hsame (id : Nat) :
      stampedIntents id (.stopCheck :: s.trace) = stampedIntents id s.trace := by
    simp [stampedIntents, olderThan]
  have haccepted : acceptedIntents (.stopCheck :: s.trace) = acceptedIntents s.trace := by
    unfold acceptedIntents
    rw [show lastAccepted (.stopCheck :: s.trace) = lastAccepted s.trace from rfl]
    split
    · exact hsame _
    · rfl
  refine ⟨?_, fun id => ?_, fun id hmem => ?_, ?_, fun id hlast => ?_, h.safe, ?_⟩
  · refine h.stop.trans (congrArg _ ?_)
    simp [stopIntents, goTo, record]
  · refine Iff.trans ?_ (h.stamped id)
    simp [goTo, record]
  · refine (h.epoch id ?_).trans (congrArg _ (hsame id)).symm
    exact (List.mem_cons.mp hmem).resolve_left nofun
  · exact h.accepted.trans (congrArg _ haccepted).symm
  · exact List.mem_cons_of_mem _ (h.known id hlast)
  · exact h.stop.trans (congrArg _ (congrArg stopIntents (olderThan_cons_self _ s.trace).symm))

theorem EpochsOk.taskStep (h : EpochsOk s) (hservice : ServiceOk s) (input : PowerTaskInput) :
    EpochsOk (s.taskStep input) := by
  unfold PowerManagement.taskStep
  split
  · exact h.quiet (.refl _) rfl rfl (.refl _) (h.safe.change rfl rfl rfl rfl rfl) trivial
  · split
    · exact h.quiet (.refl _) rfl rfl (.refl _) h.safe trivial
    · exact h.quiet (.refl _) rfl rfl (.update rfl rfl (by simp [PowerRequest.log])) h.safe trivial
  · next id hplace =>
    exact h.quiet (.refl _) rfl rfl (.access s id _) h.safe (afterLoad_check _)
  · next id hplace =>
    refine h.quiet (.refl _) rfl rfl (.access s id _) h.safe ?_
    split <;> trivial
  · next id hplace =>
    have hserving := (hservice.request id).mp (by rw [hplace]; rfl)
    refine h.accept ((hservice.requests id).allocated ?_)
    rw [hserving]
    exact Nat.succ_ne_zero _
  · exact h.quiet (.refl _) rfl rfl (.refl _) h.safe trivial
  · next id hplace =>
    refine h.quiet (sameEpochs_ownerEvents _ _ _ _) rfl rfl
      (.update rfl rfl (by simp [PowerRequest.log])) (executeRequest_safe _ _ _ h.safe) ?_
    dsimp only
    split <;> trivial
  · exact h.quiet (.refl _) rfl rfl (.refl _) h.safe trivial
  · exact h.quiet (.refl _) rfl rfl (.update rfl rfl (by simp [PowerRequest.log])) h.safe trivial
  · split
    · exact h.quiet (.refl _) rfl rfl (.update rfl rfl (by simp [PowerRequest.log])) h.safe trivial
    · next id success hplace hstate =>
      exact h.quiet (.refl _) rfl rfl (.access s id _) h.safe trivial
  · next id success hplace =>
    dsimp only
    split
    · exact h.quiet (sameEpochs_ownerEvents _ _ _ _) rfl rfl
        (.update rfl rfl (by simp [PowerRequest.log, setPower]))
        (powerPolicyMaintenance_safe _ h.safe _ false) trivial
    · exact h.quiet (.refl _) rfl rfl (.access s id _) h.safe trivial
  · split
    · exact h.quiet (.refl _) rfl rfl (.refl _) (powerPolicyPause_safe _ h.safe) trivial
    · exact h.quiet (.refl _) rfl rfl (.refl _) h.safe trivial
  · exact h.quiet (.refl _) rfl rfl (.refl _) h.safe trivial
  · exact h.quiet (.refl _) rfl rfl (.update rfl rfl (by simp [PowerRequest.log])) h.safe trivial
  · next id hplace =>
    obtain ⟨-, -, hepoch, -⟩ := (s.requests id).drop_fields
    refine h.quiet (.refl _) rfl rfl (.update rfl hepoch ?_) h.safe trivial
    rw [PowerRequest.log]
    rcases (s.requests id).drop_history with heq | heq <;> simp [heq]
  · exact h.checkStop
  · next epoch hplace =>
    have hcheck := h.check
    unfold CheckOk at hcheck
    rw [hplace] at hcheck
    split
    · exact h.quiet (.refl _) rfl rfl (.refl _) (powerPolicyPause_safe _ h.safe)
        (.inr (.inl (powerPolicyPause_paused _ _)))
    · next hnotStopped =>
      refine h.quiet (.refl _) rfl rfl (.refl _) h.safe ?_
      by_cases hepoch : epoch = s.acceptedEpoch
      · exact .inl (hcheck.symm.trans (hepoch.trans h.accepted))
      · refine .inr ?_
        by_contra hneither
        obtain ⟨hpaused, howner⟩ := not_or.mp hneither
        exact hnotStopped ⟨hepoch, Bool.eq_false_iff.mpr hpaused, not_not.mp howner⟩
  · next hplace =>
    have hcheck := h.check
    unfold CheckOk at hcheck
    rw [hplace] at hcheck
    split
    · exact h.quiet (.refl _) rfl rfl (.refl _) (h.safe.change rfl rfl rfl rfl rfl)
        (.inr (.inl rfl))
    · exact h.quiet (.refl _) rfl rfl (.refl _) h.safe hcheck
  · next hplace =>
    have hcheck := h.check
    unfold CheckOk at hcheck
    rw [hplace] at hcheck
    refine h.quiet (.refl _) rfl rfl (.refl _) (powerPolicyStep_safe _ h.safe _) ?_
    rcases hcheck with hchecked | hheld
    · exact .inl hchecked
    · exact .inr (powerPolicyStep_idle _ h.safe hheld _)
  · exact h.quiet (.refl _) rfl rfl (.refl _) h.safe trivial

theorem EpochsOk.step (h : EpochsOk s) (hservice : ServiceOk s) (input : Input) :
    EpochsOk (s.step input) := by
  cases input with
  | call id kind owner => exact h.call hservice id kind owner
  | caller id answer => exact h.callerStep hservice id answer
  | revoke => exact h.revokeWork
  | task input => exact h.taskStep hservice input

/-! ## Runs -/

/-- What holds of the whole system between any two steps. -/
structure PowerManagementOk (s : PowerManagement) : Prop extends ServiceOk s, EpochsOk s

theorem initialized_safe (boardFailed : Bool) : PolicySafe (initialized boardFailed).power where
  allowed call hcall := by cases hcall
  sticks := trivial
  recorded call hcall := by cases hcall
  running h := by cases h
  stopped h := by cases h

theorem initialized_epochs (boardFailed : Bool) : EpochsOk (initialized boardFailed) where
  stop := rfl
  stamped _ := ⟨nofun, nofun⟩
  epoch := nofun
  accepted := rfl
  known := nofun
  safe := initialized_safe boardFailed
  check := trivial

theorem run_ok (boardFailed : Bool) (inputs : List Input) :
    PowerManagementOk (run PowerManagement.step (initialized boardFailed) inputs) :=
  run_invariant (P := PowerManagementOk) _
    (fun _ input h => ⟨h.toServiceOk.step input, h.toEpochsOk.step h.toServiceOk input⟩)
    ⟨initialized_service boardFailed, initialized_epochs boardFailed⟩ inputs

theorem checkedIntents_le (trace : List PowerManagementEvent) :
    checkedIntents trace ≤ stopIntents trace :=
  (olderThan_sublist _ _).count_le _

theorem acceptedIntents_le (trace : List PowerManagementEvent) :
    acceptedIntents trace ≤ stopIntents trace := by
  unfold acceptedIntents
  split
  · exact (olderThan_sublist _ _).count_le _
  · exact Nat.zero_le _

/-- With fewer than 2^32 stop intents, a policy that runs while the task waits
was resumed since every stop intent before the last stop check. -/
theorem EpochsOk.resumedSince (h : EpochsOk s) (hintents : stopIntents s.trace < 2 ^ 32)
    (hplace : s.place = .waiting) (hrunning : s.power.policy.running = true) :
    ResumedSince s.trace := by
  have hcheck := h.check
  unfold CheckOk at hcheck
  rw [hplace] at hcheck
  refine resumedSince_of_intents ?_
  rcases hcheck with hchecked | hidle
  · have hnat := congrArg BitVec.toNat hchecked
    rwa [BitVec.toNat_ofNat, BitVec.toNat_ofNat,
      Nat.mod_eq_of_lt (Nat.lt_of_le_of_lt (checkedIntents_le _) hintents),
      Nat.mod_eq_of_lt (Nat.lt_of_le_of_lt (acceptedIntents_le _) hintents)] at hnat
  · exact nomatch hidle.symm.trans hrunning

/-! ## What the callers are told -/

/-- The task still has to process the request. -/
def Pending (s : PowerManagement) (id : Nat) : Prop :=
  id ∈ s.queue ∨ s.place.request = some id

theorem ServiceOk.not_pending (h : ServiceOk s) {id : Nat} (hpending : ¬ s.Pending id) :
    (s.requests id).service = .unqueued ∨ (s.requests id).service = .served := by
  cases hservice : (s.requests id).service with
  | unqueued => exact .inl rfl
  | served => exact .inr rfl
  | queued => exact absurd (.inl ((h.queue id).mpr hservice)) hpending
  | serving => exact absurd (.inr ((h.request id).mpr hservice)) hpending

/-- A caller that got true had its operation executed. -/
theorem ServiceOk.succeeded (h : ServiceOk s) {id : Nat}
    (hcaller : (s.requests id).caller = .returned true) : (s.requests id).Succeeded := by
  have hverdict := (h.requests id).verdict
  unfold PowerRequest.VerdictKnown PowerCallPlace.Verdict at hverdict
  rw [hcaller] at hverdict
  exact (h.requests id).succeeded hverdict.2

/-- A caller that got false does not own the policy. -/
theorem ServiceOk.not_holder_of_false (h : ServiceOk s) {id : Nat}
    (hcaller : (s.requests id).caller = .returned false) (hpending : ¬ s.Pending id) :
    holder s.trace ≠ some id := by
  intro hheld
  have hverdict := (h.requests id).verdict
  unfold PowerRequest.VerdictKnown PowerCallPlace.Verdict at hverdict
  rw [hcaller] at hverdict
  rcases (h.holds id hheld).granted with hsucceeding | ⟨hstate, hsuccess⟩
  · exact hpending (.inr hsucceeding.request)
  · rcases hverdict (h.service_of_holder hheld) with hcancelled | ⟨-, hfailed⟩
    · exact nomatch hstate.symm.trans hcancelled
    · exact nomatch hsuccess.symm.trans hfailed

/-- A request that was enqueued and is not pending was processed. -/
theorem ServiceOk.processed (h : ServiceOk s) {id : Nat}
    (henqueued : .enqueued ∈ (s.requests id).history) (hpending : ¬ s.Pending id) :
    ∃ owner, .processed owner ∈ (s.requests id).history :=
  PowerRequest.processed_of_service ((h.not_pending hpending).resolve_left
    (PowerRequest.service_of_mem henqueued fun _ => nofun))

/-- A history in which nothing is used after it is freed frees at most once. -/
theorem count_freed_le {history : List PowerRequestEvent} (h : Throughout UsedBeforeFree history) :
    history.count .freed ≤ 1 := by
  induction history with
  | nil => exact Nat.zero_le _
  | cons event history ih =>
    by_cases heq : event = .freed
    · subst heq
      rw [List.count_cons_self, List.count_eq_zero_of_not_mem h.1]
    · rw [List.count_cons_of_ne heq]
      exact ih h.2

theorem ServiceOk.safe (h : ServiceOk s) (id : Nat) :
    Throughout UsedBeforeFree (s.requests id).history := by
  by_cases hempty : (s.requests id).history = []
  · rw [hempty]
    trivial
  · exact ((h.requests id).counted ((h.requests id).begun hempty)).safe

/-- A request that its caller and the task are done with was freed once. -/
theorem ServiceOk.freed (h : ServiceOk s) {id : Nat} {success : Bool}
    (hcaller : (s.requests id).caller = .returned success)
    (hcreated : .created ∈ (s.requests id).history) (hpending : ¬ s.Pending id) :
    (s.requests id).history.count .freed = 1 := by
  have hcounted := (h.requests id).counted hcreated
  have hshare : (s.requests id).caller.share + (s.requests id).service.share = 0 := by
    rw [hcaller]
    rcases h.not_pending hpending with hservice | hservice <;> rw [hservice] <;> rfl
  have hpositive := List.count_pos_iff.mpr (hcounted.freed.mpr hshare)
  exact Nat.le_antisymm (count_freed_le hcounted.safe) hpositive

/-- **Stop intent is not lost, and results are truthful.**  In every run with
fewer than 2^32 stop intents: a policy that runs while the task waits was resumed
since every stop intent before the last stop check.  The policy has an owner
exactly when some acquisition holds it.  Of each request: true means that its
operation was executed and ended with true; false means that it does not hold the
policy once the task is done with it; a release that was enqueued is pending or
processed, and processed it was executed, and left no owner if it named the owner
it found; the request is never used after it was freed, and it was freed once
when its caller has returned and the task is done with it. -/
theorem stop_intent_and_results (boardFailed : Bool) (inputs : List Input)
    (hintents :
      stopIntents (run PowerManagement.step (initialized boardFailed) inputs).trace < 2 ^ 32) :
    let s := run PowerManagement.step (initialized boardFailed) inputs
    (s.place = .waiting → s.power.policy.running = true → ResumedSince s.trace) ∧
      (holder s.trace = none ↔ s.power.policy.owner = .none) ∧
      (∀ id, holder s.trace = some id → (s.requests id).kind = .acquire ∧
        s.power.policy.owner = (s.requests id).owner) ∧
      ∀ id, let r := s.requests id
        (r.caller = .returned true → ∃ before, .executed true before ∈ r.history) ∧
        (r.caller = .returned false → ¬ s.Pending id → holder s.trace ≠ some id) ∧
        (.enqueued ∈ r.history → s.Pending id ∨ ∃ owner, .processed owner ∈ r.history) ∧
        (∀ owner, r.kind = .release → .processed owner ∈ r.history →
          ∃ result before, .executed result before ∈ r.history ∧
            (before = r.owner → owner = .none)) ∧
        Throughout UsedBeforeFree r.history ∧ r.history.count .freed ≤ 1 ∧
        (∀ success, r.caller = .returned success → .created ∈ r.history → ¬ s.Pending id →
          r.history.count .freed = 1) := by
  intro s
  obtain ⟨hservice, hepochs⟩ : PowerManagementOk s := run_ok boardFailed inputs
  refine ⟨hepochs.resumedSince hintents, hservice.owned, fun id hheld => ?_, fun id => ?_⟩
  · exact ⟨(hservice.holds id hheld).kind, (hservice.holds id hheld).owner⟩
  refine ⟨hservice.succeeded, hservice.not_holder_of_false, fun henqueued => ?_, ?_,
    hservice.safe id, count_freed_le (hservice.safe id), fun success => hservice.freed⟩
  · by_cases hpending : s.Pending id
    · exact .inl hpending
    · exact .inr (hservice.processed henqueued hpending)
  · exact fun owner hkind hprocessed => hservice.ended id owner hprocessed hkind

/-! ## A run -/

/-- A step of the task on a sound board whose workers are ready. -/
def readyInput : PowerTaskInput where
  operations := soundBoard
  ready := true
  target := ⟨1200, .ofNat 500⟩
  poolsUnavailable := false
  selfTestFinished := false
  step := goodStep 0

/-- A pause and then a resume are called and enqueued; the task processes both
and comes to wait; both callers return. -/
def pauseAndResume : List Input :=
  .call 0 .pause .none :: List.replicate 4 (.caller 0 true) ++
    .call 1 .resume .none :: List.replicate 4 (.caller 1 true) ++
    List.replicate 24 (.task readyInput) ++ List.replicate 3 (.caller 0 true) ++
    List.replicate 3 (.caller 1 true)

theorem stop_intent_and_results_of_resume :
    let s := run PowerManagement.step (initialized false) pauseAndResume
    s.place = .waiting ∧ s.power.policy.running = true ∧ ResumedSince s.trace ∧
      (∃ before, .executed true before ∈ (s.requests 1).history) ∧
      (s.requests 1).history.count .freed = 1 := by
  intro s
  have hplace : s.place = .waiting := by decide +kernel
  have hrunning : s.power.policy.running = true := by decide +kernel
  have hcaller : (s.requests 1).caller = .returned true := by decide +kernel
  have hfreed : (s.requests 1).history.count .freed = 1 := by decide +kernel
  obtain ⟨hresumed, -, -, hresults⟩ :=
    stop_intent_and_results false pauseAndResume (by decide +kernel)
  exact ⟨hplace, hrunning, hresumed hplace hrunning, (hresults 1).1 hcaller, hfreed⟩

end PowerManagement

end EspMiner
