import EspMiner.Power.PowerPolicy

/-!
# What the parts of the power policy do

One lemma for each function of the policy that says which calls it makes and
what it leaves in the policy.  The cancellation checks around a start are calls
too; they change nothing.
-/

namespace EspMiner

open Library

/-- Answers of the cancellation check, all given to the policy `p`. -/
def CancelAnswers (p : PowerPolicy) (calls : List PowerCall) : Prop :=
  ∀ call ∈ calls, ∃ answer, call = ⟨p, .cancelled answer⟩

section Operations

variable (operations : PowerOperations)

/-! ## Stopping -/

/-- The policy after a stop with the given answer. -/
def PowerPolicy.afterStop (p : PowerPolicy) (answer : Bool) : PowerPolicy :=
  { p with running := false, stopped := answer, fault := p.fault || !answer }

/-- A stop is one call, made with the running flag already clear. -/
theorem powerStop_eq (m : PowerMachine) :
    ∃ answer, powerStop operations m = {
      policy := m.policy.afterStop answer
      trace := ⟨{ m.policy with running := false }, .stop answer⟩ :: m.trace } :=
  ⟨operations.stop m.trace, rfl⟩

/-- The policy at the moment a cooling episode is reported. -/
def PowerPolicy.atCooling (p : PowerPolicy) (nowMs : U64) (target : PowerTarget) : PowerPolicy :=
  { p with
    cooling := true
    coolingSinceMs := nowMs
    coolingTarget := target
    reducedTargetSaved := false }

/-- The beginning of an episode reports the overheat, then stops. -/
theorem beginCooling_eq (m : PowerMachine) (nowMs : U64) (target : PowerTarget) :
    ∃ answer, beginCooling operations m nowMs target = {
      policy := (m.policy.atCooling nowMs target).afterStop answer
      trace := ⟨{ m.policy.atCooling nowMs target with running := false }, .stop answer⟩ ::
        ⟨m.policy.atCooling nowMs target, .overheat true⟩ :: m.trace } :=
  powerStop_eq operations _

/-! ## Starting -/

/-- The calls of one cancellation check that answered `answer`. -/
def cancelCalls (p : PowerPolicy) (answer : Bool) : List PowerCall :=
  match operations.cancelled with
  | none => []
  | some _ => [⟨p, .cancelled answer⟩]

theorem cancelCalls_answers (p : PowerPolicy) (answer : Bool) :
    CancelAnswers p (cancelCalls operations p answer) := by
  intro call hcall
  unfold cancelCalls at hcall
  split at hcall
  · cases hcall
  · exact ⟨answer, List.mem_singleton.mp hcall⟩

/-- A cancellation check changes nothing but the trace. -/
theorem powerCancelled_eq (m : PowerMachine) :
    (powerCancelled operations m).2 = { m with
      trace := cancelCalls operations m.policy (powerCancelled operations m).1 ++ m.trace } := by
  unfold powerCancelled cancelCalls
  cases operations.cancelled <;> rfl

/-- Without the callback nothing is cancelled. -/
theorem powerCancelled_true {m : PowerMachine} (h : (powerCancelled operations m).1 = true) :
    operations.cancelled.isNone = false ∧
      cancelCalls operations m.policy true = [⟨m.policy, .cancelled true⟩] := by
  unfold powerCancelled at h
  unfold cancelCalls
  cases hcancelled : operations.cancelled with
  | none =>
    rw [hcancelled] at h
    cases h
  | some cancelled => exact ⟨rfl, rfl⟩

/-- The end of a failed or cancelled start: one more check decides about the
fault, then the board is stopped. -/
theorem failedStart_eq (m : PowerMachine) :
    ∃ answer fault, powerStop operations ((powerCancelled operations m).2.update fun p =>
        { p with fault := !(powerCancelled operations m).1 }) =
      powerStop operations {
        policy := { m.policy with fault := fault }
        trace := cancelCalls operations m.policy answer ++ m.trace } := by
  refine ⟨(powerCancelled operations m).1, !(powerCancelled operations m).1, ?_⟩
  rw [powerCancelled_eq]
  rfl

/-- How a start can end: overheated and not cancelled, with the policy as it was;
failed or cancelled, after a stop; or running. -/
inductive PowerStartCases (m : PowerMachine) : PowerStartOutcome × PowerMachine → Prop
  | overheated : PowerStartCases m (.overheated, { m with
      trace := cancelCalls operations m.policy false ++ ⟨m.policy, .start .overheat⟩ :: m.trace })
  | failed (answer fault : Bool) : PowerStartCases m (.failed, powerStop operations {
      policy := { m.policy with fault := fault }
      trace := cancelCalls operations m.policy answer ++
        ⟨m.policy, .start .failed⟩ :: m.trace })
  | cancelled (result : PowerStartResult) (answer fault : Bool)
      (hchecks : operations.cancelled.isNone = false) :
      PowerStartCases m (.failed, powerStop operations {
        policy := { m.policy with fault := fault }
        trace := cancelCalls operations m.policy answer ++
          ⟨m.policy, .cancelled true⟩ :: ⟨m.policy, .start result⟩ :: m.trace })
  | running : PowerStartCases m (.running, {
      policy := { m.policy with running := true, stopped := false }
      trace := cancelCalls operations m.policy false ++ ⟨m.policy, .start .ok⟩ :: m.trace })

/-- A start whose first check says that it was cancelled. -/
theorem cancelledStart_eq {m : PowerMachine} {result : PowerStartResult}
    (h : (powerCancelled operations (m.record (.start result))).1 = true) :
    let checked := (powerCancelled operations (m.record (.start result))).2
    PowerStartCases operations m (.failed, powerStop operations
      ((powerCancelled operations checked).2.update fun p =>
        { p with fault := !(powerCancelled operations checked).1 })) := by
  intro checked
  have hchecked : checked = { m with
      trace := ⟨m.policy, .cancelled true⟩ :: ⟨m.policy, .start result⟩ :: m.trace } := by
    have heq := powerCancelled_eq operations (m.record (.start result))
    rw [h, (powerCancelled_true operations h).2] at heq
    exact heq
  obtain ⟨answer, fault, hfailed⟩ := failedStart_eq operations checked
  rw [hfailed, hchecked]
  exact .cancelled result answer fault (powerCancelled_true operations h).1

theorem powerStart_cases (m : PowerMachine) :
    PowerStartCases operations m (powerStart operations m) := by
  unfold powerStart
  cases operations.start m.trace with
  | failed =>
    obtain ⟨answer, fault, hfailed⟩ := failedStart_eq operations (m.record (.start .failed))
    have hcase : PowerStartCases operations m _ := .failed answer fault
    refine cast (congrArg (fun stopped => PowerStartCases operations m (.failed, stopped)) ?_) hcase
    exact hfailed.symm
  | overheat =>
    have heq := powerCancelled_eq operations (m.record (.start .overheat))
    cases hanswer : (powerCancelled operations (m.record (.start .overheat))).1 with
    | false =>
      rw [hanswer] at heq
      simp only [if_true, hanswer, heq]
      exact .overheated
    | true =>
      have hcase := cancelledStart_eq operations hanswer
      simpa [hanswer] using hcase
  | ok =>
    have heq := powerCancelled_eq operations (m.record (.start .ok))
    cases hanswer : (powerCancelled operations (m.record (.start .ok))).1 with
    | false =>
      rw [hanswer] at heq
      have hcase : PowerStartCases operations m _ := .running
      simpa [hanswer, heq, PowerMachine.update] using hcase
    | true =>
      have hcase := cancelledStart_eq operations hanswer
      simpa [hanswer] using hcase

/-! ## Recovering -/

/-- A step of an episode looks at the ASIC sensor and finds it above 45 degrees:
the stop is verified, the regulator reading is usable and the sensor is required
and readable. -/
def SeesHotAsic (p : PowerPolicy) (sample : PowerSample) : Prop :=
  p.stopped = true ∧ sample.vregValid = true ∧ sample.vregC.isFinite = true ∧
    sample.offAsicSensorRequired = true ∧ sample.asicValid = true ∧
    sample.asicC.isFinite = true ∧ (Binary32.ofNat 45).lt sample.asicC = true

instance (p : PowerPolicy) (sample : PowerSample) : Decidable (SeesHotAsic p sample) :=
  inferInstanceAs (Decidable (_ ∧ _))

/-- The cooldown clock once a step has established it. -/
def PowerPolicy.establishedClock (p : PowerPolicy) (nowMs : U64) : U64 :=
  if p.coolingSinceMs = COOLING_CLOCK_UNSET then nowMs else p.coolingSinceMs

/-- The samples of a step allow the recovery to go on. -/
structure CoolEnough (p : PowerPolicy) (input : PowerStepInput) : Prop where
  stopped : p.stopped = true
  vregValid : input.sample.vregValid = true
  vregFinite : input.sample.vregC.isFinite = true
  vregCool : (Binary32.ofNat 95).lt input.sample.vregC = false
  asicCool : input.sample.offAsicSensorRequired = true → input.sample.asicValid = true ∧
    input.sample.asicC.isFinite = true ∧ (Binary32.ofNat 45).lt input.sample.asicC = false
  clockPassed : p.establishedClock input.nowMs ≤ input.nowMs
  cooledDown : 30000 ≤ (input.nowMs - p.establishedClock input.nowMs).toNat

/-- The gate only moves the clock, and opens only on good samples. -/
theorem coolingGate_cases (m : PowerMachine) (input : PowerStepInput) :
    (coolingGate m input).2 = m.update (fun p => { p with
        coolingSinceMs := if SeesHotAsic m.policy input.sample then input.nowMs
          else m.policy.establishedClock input.nowMs }) ∧
      ((coolingGate m input).1 = true → CoolEnough m.policy input ∧
        ¬ SeesHotAsic m.policy input.sample) := by
  have hclock : (if m.policy.coolingSinceMs = COOLING_CLOCK_UNSET then
        m.update fun p => { p with coolingSinceMs := input.nowMs } else m) =
      m.update fun p => { p with coolingSinceMs := m.policy.establishedClock input.nowMs } := by
    unfold PowerPolicy.establishedClock
    split <;> rfl
  unfold coolingGate
  rw [hclock]
  dsimp only
  split
  · next hunusable =>
    have hcold : ¬ SeesHotAsic m.policy input.sample := by
      rintro ⟨hstopped, hvalid, hfinite, -⟩
      simp_all
    rw [if_neg hcold]
    exact ⟨rfl, by simp⟩
  · next husable =>
    simp only [PowerMachine.update_policy, not_or, Bool.not_eq_false] at husable
    split
    · next hunreadable =>
      have hcold : ¬ SeesHotAsic m.policy input.sample := by
        rintro ⟨-, -, -, -, hvalid, hfinite, -⟩
        simp_all
      rw [if_neg hcold]
      exact ⟨rfl, by simp⟩
    · next hreadable =>
      split
      · next hhot =>
        have hsees : SeesHotAsic m.policy input.sample := by
          simp only [hhot.1, true_and, not_or, Bool.not_eq_false] at hreadable
          exact ⟨husable.1, husable.2.1, husable.2.2, hhot.1, hreadable.1, hreadable.2, hhot.2⟩
        rw [if_pos hsees]
        exact ⟨rfl, by simp⟩
      · next hcool =>
        have hcold : ¬ SeesHotAsic m.policy input.sample := fun hsees =>
          hcool ⟨hsees.2.2.2.1, hsees.2.2.2.2.2.2⟩
        rw [if_neg hcold]
        split
        · exact ⟨rfl, by simp⟩
        · next hopen =>
          simp only [PowerMachine.update_policy, not_or, BitVec.not_lt, Nat.not_lt,
            Bool.not_eq_true] at hopen
          refine ⟨rfl, fun _ => ⟨⟨husable.1, husable.2.1, husable.2.2, hopen.2.2, ?_, hopen.1,
            hopen.2.1⟩, hcold⟩⟩
          intro hrequired
          simp only [hrequired, true_and, not_or, Bool.not_eq_false, Bool.not_eq_true]
            at hreadable hcool
          exact ⟨hreadable.1, hreadable.2, hcool⟩

/-- What saving the reduced target can do. -/
theorem saveReducedTarget_cases (m : PowerMachine) :
    (m.policy.reducedTargetSaved = true ∧ saveReducedTarget operations m = (true, m)) ∨
    (m.policy.coolingTarget.frequencyMhz.isFinite = true ∧
      m.policy.coolingTarget.frequencyMhz.lt operations.minimumFrequencyMhz = false ∧
      operations.minimumVoltageMv.toNat ≤ m.policy.coolingTarget.voltageMv.toNat ∧
      saveReducedTarget operations m = (true, {
        policy := { m.policy with reducedTargetSaved := true }
        trace := ⟨m.policy, .saveTarget (reducedTarget operations m.policy.coolingTarget) true⟩ ::
          m.trace })) ∨
    (∃ calls, (calls = [] ∨ calls =
          [⟨m.policy, .saveTarget (reducedTarget operations m.policy.coolingTarget) false⟩]) ∧
      saveReducedTarget operations m = (false, {
        policy := { m.policy with fault := true }
        trace := calls ++ m.trace })) := by
  unfold saveReducedTarget
  split
  · next hsaved => exact .inl ⟨hsaved, rfl⟩
  · dsimp only
    split
    · exact .inr (.inr ⟨[], .inl rfl, rfl⟩)
    · next hvalid =>
      simp only [not_or, Bool.not_eq_false, Bool.not_eq_true, Nat.not_lt] at hvalid
      split
      · next hanswer =>
        refine .inr (.inr ⟨_, .inr rfl, ?_⟩)
        simp [PowerMachine.record, PowerMachine.update, hanswer]
      · next hanswer =>
        rw [Bool.not_eq_false] at hanswer
        refine .inr (.inl ⟨hvalid.1, hvalid.2.1, hvalid.2.2, ?_⟩)
        simp [PowerMachine.record, PowerMachine.update, hanswer]

/-! ## One step -/

/-- The rule for normal operation: `T` holds where tuning starts, on a board that
runs already or has just been resumed, `Q` from the call that tunes it on, and `P`
of whatever the step returns. -/
theorem operateStep_rule {P T Q : PowerMachine → Prop} {m : PowerMachine} {input : PowerStepInput}
    (hstop : P (powerStop operations m)) (hrest : P m) (hrunning : T m)
    (hrefused : P (powerPolicyResume operations m).2)
    (hresumed : (powerPolicyResume operations m).1 = true → T (powerPolicyResume operations m).2)
    (happly : ∀ m' applied, T m' → Q (m'.record (.apply input.target applied)))
    (hcancelled : ∀ m', Q m' → Q (powerCancelled operations m').2)
    (hdone : ∀ m', Q m' → P m')
    (hfailed : ∀ m' fault, Q m' →
      P (powerStop operations (m'.update fun p => { p with fault := fault }))) :
    P (operateStep operations m input) := by
  unfold operateStep
  split
  · split
    · exact hstop
    · exact hrest
  · dsimp only
    -- the machine that tuning finds: running already, or just resumed
    obtain ⟨resumed, heq⟩ : ∃ resumed, resumed =
        if m.policy.running = false then powerPolicyResume operations m else (true, m) := ⟨_, rfl⟩
    rw [← heq]
    have hmachine : P resumed.2 ∧ (resumed.1 = true → T resumed.2) := by
      rw [heq]
      split
      · exact ⟨hrefused, hresumed⟩
      · exact ⟨hrest, fun _ => hrunning⟩
    split
    · exact hmachine.1
    · next htrue =>
      generalize operations.apply _ _ = applied
      have hcall := happly _ applied (hmachine.2 (by simpa using htrue))
      obtain ⟨failed, heq'⟩ : ∃ failed, failed = if applied = false then
          (true, resumed.2.record (.apply input.target applied))
        else powerCancelled operations (resumed.2.record (.apply input.target applied)) := ⟨_, rfl⟩
      rw [← heq']
      have hchecked : Q failed.2 := by
        rw [heq']
        split
        · exact hcall
        · exact hcancelled _ hcall
      split
      · exact hfailed _ _ (hcancelled _ hchecked)
      · exact hdone _ hchecked

/-- The ways a step can go: maintenance, a fault, the beginning of an episode, an
episode, or normal operation. -/
inductive PowerStepCases (m : PowerMachine) (input : PowerStepInput) : PowerMachine → Prop
  | maintenance (howner : m.policy.owner ≠ .none) : PowerStepCases m input (m.beginStep input)
  | faulted (howner : m.policy.owner = .none)
      (hfault : ReportsFault input ∨ m.policy.fault = true) :
      PowerStepCases m input
        (if m.policy.stopped = false then
          powerStop operations ((m.beginStep input).update fun p => { p with fault := true })
        else (m.beginStep input).update fun p => { p with fault := true })
  | begins (howner : m.policy.owner = .none) (hreports : ¬ ReportsFault input)
      (hfault : m.policy.fault = false) (hbegins : BeginsCooling m.policy input) :
      PowerStepCases m input
        (if (beginCooling operations (m.beginStep input) input.nowMs input.target).policy.stopped =
            false then beginCooling operations (m.beginStep input) input.nowMs input.target
        else recoverStep operations
          (beginCooling operations (m.beginStep input) input.nowMs input.target) input)
  | recovers (howner : m.policy.owner = .none) (hreports : ¬ ReportsFault input)
      (hfault : m.policy.fault = false) (hcooling : m.policy.cooling = true) :
      PowerStepCases m input (recoverStep operations (m.beginStep input) input)
  | operates (howner : m.policy.owner = .none) (hreports : ¬ ReportsFault input)
      (hfault : m.policy.fault = false) (hcooling : m.policy.cooling = false)
      (hbegins : ¬ BeginsCooling m.policy input) :
      PowerStepCases m input (operateStep operations (m.beginStep input) input)

theorem powerPolicyStep_cases (m : PowerMachine) (input : PowerStepInput) :
    PowerStepCases operations m input (powerPolicyStep operations m input) := by
  have howner' : (m.beginStep input).policy.owner = m.policy.owner := rfl
  have hfault' : (m.beginStep input).policy.fault = m.policy.fault := rfl
  have hstopped' : (m.beginStep input).policy.stopped = m.policy.stopped := rfl
  have hcooling' : (m.beginStep input).policy.cooling = m.policy.cooling := rfl
  unfold powerPolicyStep
  dsimp only
  rw [howner']
  by_cases howner : m.policy.owner = .none
  · rw [if_neg (not_not.mpr howner)]
    by_cases hreports : ReportsFault input
    · rw [if_pos hreports, if_pos (show ((m.beginStep input).update fun p =>
        { p with fault := true }).policy.fault = true from rfl)]
      exact .faulted howner (.inl hreports)
    · rw [if_neg hreports]
      cases hfault : m.policy.fault with
      | true =>
        have hsame : (m.beginStep input).update (fun p => { p with fault := true }) =
            m.beginStep input := by
          simp [PowerMachine.update, PowerMachine.beginStep, PowerMachine.record, hfault]
        rw [if_pos (hfault'.trans hfault)]
        have hcase : PowerStepCases operations m input _ := .faulted howner (.inr hfault)
        rwa [hsame] at hcase
      | false =>
        rw [if_neg (by rw [hfault', hfault]; simp)]
        by_cases hbegins : BeginsCooling m.policy input
        · have hcase : PowerStepCases operations m input _ :=
            .begins howner hreports hfault hbegins
          have hbegins' : BeginsCooling (m.beginStep input).policy input := hbegins
          obtain ⟨answer, hbegun⟩ := beginCooling_eq operations (m.beginStep input) input.nowMs
            input.target
          rw [if_pos hbegins']
          simp only [hbegins', true_and]
          have hcooling : (beginCooling operations (m.beginStep input) input.nowMs
              input.target).policy.cooling = true := by rw [hbegun]; rfl
          rw [if_pos hcooling]
          exact hcase
        · have hbegins' : ¬ BeginsCooling (m.beginStep input).policy input := hbegins
          rw [if_neg hbegins', if_neg (fun h => hbegins' h.1), hcooling']
          cases hcooling : m.policy.cooling with
          | true =>
            rw [if_pos rfl]
            exact .recovers howner hreports hfault hcooling
          | false =>
            rw [if_neg (by simp)]
            exact .operates howner hreports hfault hcooling hbegins
  · rw [if_pos howner]
    exact .maintenance howner

end Operations

end EspMiner
