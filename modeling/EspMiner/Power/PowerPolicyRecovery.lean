import EspMiner.Power.PowerPolicySafety

/-!
# Overheat recovery is never skipped

An observer reads the trace alone and says whether a cooling episode is open,
which target it recorded, when its clock was last set, whether a stop of it
succeeded and what it saved.  The policy's own flags agree with the observer
after every operation, so the gate that the code puts before a start during an
episode is the gate that the observer asks for.
-/

namespace EspMiner

open Library

/-- A cooling episode as the calls show it. -/
structure CoolingEpisode where
  target : PowerTarget
  clock : Option U64
  stopVerified : Bool
  saved : Option PowerTarget

/-- The step in progress, unless a resume has begun since. -/
def currentStep : List PowerCall → Option PowerStepInput
  | [] => none
  | call :: older =>
    match call.event with
    | .stepBegins input => some input
    | .resumeBegins => none
    | _ => currentStep older

/-- The time of the newest step. -/
def latestNow : List PowerCall → U64
  | [] => 0
  | call :: older =>
    match call.event with
    | .stepBegins input => input.nowMs
    | _ => latestNow older

/-- A step that looks at its sample: no owner and no fault. -/
def Inspects (p : PowerPolicy) (input : PowerStepInput) : Prop :=
  p.owner = .none ∧ p.fault = false ∧ ¬ ReportsFault input

instance (p : PowerPolicy) (input : PowerStepInput) : Decidable (Inspects p input) :=
  inferInstanceAs (Decidable (_ ∧ _))

/-- The newest call is a start that found the board overheated. -/
def lastStartOverheated : List PowerCall → Bool
  | ⟨_, .start .overheat⟩ :: _ => true
  | _ => false

/-- What an inspecting step does to an episode: an overheat begins one, and a hot
ASIC sets the clock, as does the first such step of an episode without one. -/
def observeStep (current : Option CoolingEpisode) (p : PowerPolicy) (input : PowerStepInput) :
    Option CoolingEpisode :=
  match current with
  | none =>
      if input.sample.health = .overheat ∨ input.persistedOverheat = true then
        some ⟨input.target, some input.nowMs, false, none⟩
      else none
  | some episode => some { episode with
      clock := if SeesHotAsic p input.sample then some input.nowMs
        else some (episode.clock.getD input.nowMs) }

section Operations

variable (operations : PowerOperations) {m : PowerMachine}

/-- The open cooling episode, from the calls alone.  It begins with an overheat
that an inspecting step sees, or with a start that reports one and is not
cancelled, and ends when the end of the overheat is reported. -/
def coolingEpisode : List PowerCall → Option CoolingEpisode
  | [] => none
  | ⟨p, event⟩ :: older =>
    let current := coolingEpisode older
    let begun : Option CoolingEpisode :=
      some ⟨p.target, (currentStep older).map (·.nowMs), false, none⟩
    match event with
    | .stepBegins input => if Inspects p input then observeStep current p input else current
    | .start .overheat => if operations.cancelled.isNone then begun else current
    | .cancelled false => if lastStartOverheated older then begun else current
    | .stop true => current.map fun episode => { episode with stopVerified := true }
    | .saveTarget target true => current.map fun episode => { episode with saved := some target }
    | .overheat false => none
    | _ => current

/-- A target no larger than the recorded one and no smaller than the minimums. -/
structure ReducedFrom (recorded target : PowerTarget) : Prop where
  voltageLe : target.voltageMv.toNat ≤ recorded.voltageMv.toNat
  frequencyLe : target.frequencyMhz.le recorded.frequencyMhz = true
  voltageMin : operations.minimumVoltageMv.toNat ≤ target.voltageMv.toNat
  frequencyMin : operations.minimumFrequencyMhz.le target.frequencyMhz = true

/-- What has to be true before the board is started during an episode. -/
structure RecoveryGate (episode : CoolingEpisode) (input : PowerStepInput) : Prop where
  stopVerified : episode.stopVerified = true
  regulator : input.sample.vregValid = true ∧ input.sample.vregC.isFinite = true ∧
    input.sample.vregC.le (.ofNat 95) = true
  asic : input.sample.offAsicSensorRequired = true → input.sample.asicValid = true ∧
    input.sample.asicC.le (.ofNat 45) = true
  clock : ∃ since, episode.clock = some since ∧ since ≤ input.nowMs ∧
    30000 ≤ input.nowMs.toNat - since.toNat
  saved : ∃ target, episode.saved = some target ∧ ReducedFrom operations episode.target target

/-- The checks of cancellation that follow a start which was not cancelled. -/
def RightAfterStart (older : List PowerCall) : Prop :=
  ∃ p before episode, older = cancelCalls operations p false ++ ⟨p, .start .ok⟩ :: before ∧
    coolingEpisode operations before = some episode

/-- A start during an episode meets the gate in the step it happens in, and the
end of an overheat is reported right after a start that ended an episode. -/
def RecoveryRespected (call : PowerCall) (older : List PowerCall) : Prop :=
  match call.event with
  | .start _ => ∀ episode, coolingEpisode operations older = some episode →
      ∃ input, currentStep older = some input ∧ RecoveryGate operations episode input
  | .overheat false => RightAfterStart operations older
  | _ => True

/-- The policy's clock is the episode's: both unset, or both set to a time that
has passed. -/
def ClockAgrees (p : PowerPolicy) (episode : CoolingEpisode) (latest : U64) : Prop :=
  (p.coolingSinceMs = COOLING_CLOCK_UNSET ∧ episode.clock = none) ∨
    (episode.clock = some p.coolingSinceMs ∧ p.coolingSinceMs ≤ latest)

/-- The policy's flags describe the open episode. -/
structure EpisodeMatches (p : PowerPolicy) (episode : CoolingEpisode) (latest : U64) : Prop where
  cooling : p.cooling = true
  target : p.coolingTarget = episode.target
  clock : p.fault = false → ClockAgrees p episode latest
  saved : p.reducedTargetSaved = true → ∃ target, episode.saved = some target ∧
    ReducedFrom operations episode.target target

/-- The policy and the observer agree. -/
def Agrees (m : PowerMachine) : Prop :=
  match coolingEpisode operations m.trace with
  | none => m.policy.cooling = false
  | some episode => EpisodeMatches operations m.policy episode (latestNow m.trace)

/-- The invariant of the recovery.  While no fault is recorded, the board was
stopped in the open episode. -/
structure RecoveryTracked (m : PowerMachine) : Prop where
  agrees : Agrees operations m
  stopped : ∀ episode, coolingEpisode operations m.trace = some episode →
    m.policy.fault = false → episode.stopVerified = true
  respected : Throughout (RecoveryRespected operations) m.trace

/-! ## What changes leave alone -/

/-- A change of the policy that does not touch the episode, except that it may
record a fault. -/
structure KeepsEpisode (p p' : PowerPolicy) : Prop where
  cooling : p'.cooling = p.cooling
  target : p'.coolingTarget = p.coolingTarget
  clock : p'.coolingSinceMs = p.coolingSinceMs
  saved : p'.reducedTargetSaved = p.reducedTargetSaved
  fault : p'.fault = false → p.fault = false

variable {operations}

theorem EpisodeMatches.change {p p' : PowerPolicy} {episode : CoolingEpisode} {latest : U64}
    (h : EpisodeMatches operations p episode latest) (hkeeps : KeepsEpisode p p') :
    EpisodeMatches operations p' episode latest where
  cooling := hkeeps.cooling.trans h.cooling
  target := hkeeps.target.trans h.target
  clock hfault := by
    rw [ClockAgrees, hkeeps.clock]
    exact h.clock (hkeeps.fault hfault)
  saved hsaved := h.saved (hkeeps.saved ▸ hsaved)

theorem Agrees.change {p : PowerPolicy} (h : Agrees operations m)
    (hkeeps : KeepsEpisode m.policy p) : Agrees operations { m with policy := p } := by
  unfold Agrees at *
  dsimp only
  cases hepisode : coolingEpisode operations m.trace with
  | none =>
    rw [hepisode] at h
    exact hkeeps.cooling.trans h
  | some episode =>
    rw [hepisode] at h
    exact h.change hkeeps

theorem Agrees.of_trace {p : PowerPolicy} {trace trace' : List PowerCall}
    (h : Agrees operations ⟨p, trace⟩)
    (hepisode : coolingEpisode operations trace' = coolingEpisode operations trace)
    (hlatest : latestNow trace' = latestNow trace) : Agrees operations ⟨p, trace'⟩ := by
  unfold Agrees at *
  rw [hepisode, hlatest]
  exact h

theorem RecoveryTracked.change {p : PowerPolicy} (h : RecoveryTracked operations m)
    (hkeeps : KeepsEpisode m.policy p) : RecoveryTracked operations { m with policy := p } :=
  ⟨h.agrees.change hkeeps, fun episode hepisode hfault =>
    h.stopped episode hepisode (hkeeps.fault hfault), h.respected⟩

/-- A call that the observer passes over. -/
theorem RecoveryTracked.push {call : PowerCall} (h : RecoveryTracked operations m)
    (hepisode : coolingEpisode operations (call :: m.trace) = coolingEpisode operations m.trace)
    (hlatest : latestNow (call :: m.trace) = latestNow m.trace)
    (hrespected : RecoveryRespected operations call m.trace) :
    RecoveryTracked operations { m with trace := call :: m.trace } where
  agrees := h.agrees.of_trace hepisode hlatest
  stopped episode hopen := h.stopped episode (hepisode ▸ hopen)
  respected := ⟨hrespected, h.respected⟩

/-! ## The parts of the operations -/

/-- A stop verifies the open episode, or records a fault. -/
theorem powerStop_tracked (hagrees : Agrees operations m)
    (hrespected : Throughout (RecoveryRespected operations) m.trace) :
    RecoveryTracked operations (powerStop operations m) := by
  obtain ⟨answer, heq⟩ := powerStop_eq operations m
  rw [heq]
  have hkeeps : KeepsEpisode m.policy (m.policy.afterStop answer) := by
    refine ⟨rfl, rfl, rfl, rfl, fun hfault => ?_⟩
    exact (Bool.or_eq_false_iff.mp hfault).1
  cases answer with
  | false =>
    refine ⟨(hagrees.change hkeeps).of_trace rfl rfl, fun episode _ hfault => ?_, trivial,
      hrespected⟩
    simp [PowerPolicy.afterStop] at hfault
  | true =>
    have hverified : ∀ p, coolingEpisode operations (⟨p, .stop true⟩ :: m.trace) =
        (coolingEpisode operations m.trace).map fun episode =>
          { episode with stopVerified := true } := fun _ => rfl
    refine ⟨?_, ?_, trivial, hrespected⟩
    · have h := hagrees.change hkeeps
      unfold Agrees at h ⊢
      rw [hverified]
      cases hepisode : coolingEpisode operations m.trace with
      | none =>
        rw [hepisode] at h
        exact h
      | some episode =>
        rw [hepisode] at h
        exact ⟨h.cooling, h.target, h.clock, h.saved⟩
    · intro episode hepisode _
      rw [hverified] at hepisode
      obtain ⟨before, -, rfl⟩ := Option.map_eq_some_iff.mp hepisode
      rfl

/-- `begin_cooling` for an episode that the observer has just opened. -/
theorem beginCooling_tracked {nowMs : U64} {target : PowerTarget}
    {clock : Option U64}
    (hepisode : coolingEpisode operations m.trace = some ⟨target, clock, false, none⟩)
    (hclock : (nowMs = COOLING_CLOCK_UNSET ∧ clock = none) ∨
      (clock = some nowMs ∧ nowMs ≤ latestNow m.trace))
    (hrespected : Throughout (RecoveryRespected operations) m.trace) :
    RecoveryTracked operations (beginCooling operations m nowMs target) := by
  refine powerStop_tracked (m := ⟨m.policy.atCooling nowMs target,
    ⟨m.policy.atCooling nowMs target, .overheat true⟩ :: m.trace⟩) ?_ ⟨trivial, hrespected⟩
  have hopen : coolingEpisode operations
      (⟨m.policy.atCooling nowMs target, .overheat true⟩ :: m.trace) =
        some ⟨target, clock, false, none⟩ := hepisode
  unfold Agrees
  dsimp only
  rw [hopen]
  exact ⟨rfl, rfl, fun _ => hclock, fun hsaved => by cases hsaved⟩

/-- Checks of cancellation that do not answer an overheated start. -/
theorem RecoveryTracked.answers (h : RecoveryTracked operations m)
    (hlast : lastStartOverheated m.trace = false) (p : PowerPolicy) (answer : Bool) :
    RecoveryTracked operations { m with trace := cancelCalls operations p answer ++ m.trace } := by
  unfold cancelCalls
  split
  · exact h
  · refine h.push ?_ rfl trivial
    cases answer with
    | true => rfl
    | false => simp [coolingEpisode, hlast]

/-- An overheated start that is not cancelled begins an episode. -/
theorem coolingEpisode_overheatedStart (p : PowerPolicy) (trace : List PowerCall) :
    coolingEpisode operations
        (cancelCalls operations p false ++ ⟨p, .start .overheat⟩ :: trace) =
      some ⟨p.target, (currentStep trace).map (·.nowMs), false, none⟩ := by
  unfold cancelCalls
  cases hcancelled : operations.cancelled with
  | none => simp [coolingEpisode, hcancelled]
  | some cancelled => simp [coolingEpisode, lastStartOverheated, currentStep]

theorem latestNow_overheatedStart (p : PowerPolicy) (trace : List PowerCall) :
    latestNow (cancelCalls operations p false ++ ⟨p, .start .overheat⟩ :: trace) =
      latestNow trace := by
  unfold cancelCalls
  split <;> rfl

/-- What each way a start can end leaves behind. -/
theorem powerStart_tracked (h : RecoveryTracked operations m)
    (hfault : m.policy.fault = false)
    (hgate : ∀ episode, coolingEpisode operations m.trace = some episode →
      ∃ input, currentStep m.trace = some input ∧ RecoveryGate operations episode input) :
    match powerStart operations m with
    | (.overheated, m') => m'.policy = m.policy ∧
        coolingEpisode operations m'.trace =
          some ⟨m.policy.target, (currentStep m.trace).map (·.nowMs), false, none⟩ ∧
        latestNow m'.trace = latestNow m.trace ∧
        Throughout (RecoveryRespected operations) m'.trace
    | (.failed, m') => RecoveryTracked operations m'
    | (.running, m') => RecoveryTracked operations m' ∧
        m'.policy = { m.policy with running := true, stopped := false } ∧
        m'.trace = cancelCalls operations m.policy false ++ ⟨m.policy, .start .ok⟩ :: m.trace := by
  have hstart : ∀ result, (result = .overheat → operations.cancelled.isNone = false) →
      RecoveryTracked operations ⟨m.policy, ⟨m.policy, .start result⟩ :: m.trace⟩ := by
    intro result hresult
    refine h.push ?_ rfl hgate
    cases result with
    | overheat => simp [coolingEpisode, hresult rfl]
    | _ => rfl
  have hclear : ∀ fault : Bool, KeepsEpisode m.policy { m.policy with fault := fault } :=
    fun fault => ⟨rfl, rfl, rfl, rfl, fun _ => hfault⟩
  have hcases := powerStart_cases operations m
  generalize powerStart operations m = outcome at hcases ⊢
  cases hcases with
  | overheated =>
    refine ⟨rfl, coolingEpisode_overheatedStart _ _, latestNow_overheatedStart _ _, ?_⟩
    unfold cancelCalls
    split
    · exact ⟨hgate, h.respected⟩
    · exact ⟨trivial, hgate, h.respected⟩
  | failed answer fault =>
    have htracked := ((hstart .failed (by simp)).answers rfl m.policy answer).change (hclear fault)
    exact powerStop_tracked htracked.agrees htracked.respected
  | cancelled result answer fault hchecks =>
    have hstarted := hstart result fun _ => hchecks
    have hcancelled := @RecoveryTracked.push operations _ ⟨m.policy, .cancelled true⟩ hstarted
      rfl rfl trivial
    have htracked := (hcancelled.answers rfl m.policy answer).change (hclear fault)
    exact powerStop_tracked htracked.agrees htracked.respected
  | running =>
    refine ⟨?_, rfl, rfl⟩
    exact ((hstart .ok (by simp)).answers rfl m.policy false).change ⟨rfl, rfl, rfl, rfl, id⟩

/-! ## The operations -/

theorem Agrees.closed (h : Agrees operations m) (hcooling : m.policy.cooling = false) :
    coolingEpisode operations m.trace = none := by
  unfold Agrees at h
  cases hepisode : coolingEpisode operations m.trace with
  | none => rfl
  | some episode =>
    rw [hepisode] at h
    exact absurd (hcooling.symm.trans h.cooling) (by decide)

theorem powerPolicyPause_tracked (h : RecoveryTracked operations m) :
    RecoveryTracked operations (powerPolicyPause operations m).2 := by
  have hpaused : RecoveryTracked operations (m.update fun p => { p with paused := true }) :=
    h.change ⟨rfl, rfl, rfl, rfl, id⟩
  unfold powerPolicyPause
  dsimp only
  split
  · exact hpaused
  · exact powerStop_tracked hpaused.agrees hpaused.respected

/-- A resume starts the board only while no episode is open.  The episode that
its start may begin has no clock yet. -/
theorem powerPolicyResume_tracked (h : RecoveryTracked operations m) :
    RecoveryTracked operations (powerPolicyResume operations m).2 := by
  have hbegins : RecoveryTracked operations (m.record .resumeBegins) := h.push rfl rfl trivial
  have hstep : currentStep (m.record .resumeBegins).trace = none := rfl
  unfold powerPolicyResume
  generalize m.record .resumeBegins = m at *
  have hresumed : RecoveryTracked operations (m.update fun p => { p with paused := false }) :=
    hbegins.change ⟨rfl, rfl, rfl, rfl, id⟩
  dsimp only
  split
  · exact hbegins
  · next hfree =>
    simp only [not_or, Bool.not_eq_true] at hfree
    split
    · exact hresumed
    · next hwarm =>
      simp only [PowerMachine.update_policy, not_or, Bool.not_eq_true] at hwarm
      split
      · exact hresumed
      · have hclosed := hresumed.agrees.closed hwarm.1
        have hstart := powerStart_tracked hresumed hfree.2.1 fun episode hopen => by
          rw [hclosed] at hopen
          cases hopen
        generalize powerStart operations (m.update fun p => { p with paused := false }) =
          attempt at hstart ⊢
        rcases attempt with ⟨outcome, m'⟩
        cases outcome with
        | overheated =>
          obtain ⟨hpolicy, hepisode, -, hrespected⟩ := hstart
          dsimp only
          rw [PowerMachine.update_trace, hstep, ← hpolicy] at hepisode
          exact beginCooling_tracked hepisode (.inl ⟨rfl, rfl⟩) hrespected
        | failed => exact hstart
        | running => exact hstart.1

theorem powerPolicyMaintenance_tracked (h : RecoveryTracked operations m) (owner : PowerOwner)
    (acquire : Bool) :
    RecoveryTracked operations (powerPolicyMaintenance operations m owner acquire).2 := by
  have hfaulted : ∀ m' : PowerMachine, RecoveryTracked operations m' → RecoveryTracked operations
      (m'.update fun p => { p with fault := true, stopped := false }) :=
    fun m' h' => h'.change ⟨rfl, rfl, rfl, rfl, fun hfault => by cases hfault⟩
  unfold powerPolicyMaintenance
  split
  · exact h
  · split
    · split
      · exact h
      · dsimp only
        generalize operations.maintenance _ owner true = acquired
        have hidle : RecoveryTracked operations
            (m.update fun p => { p with paused := true, running := false }) :=
          h.change ⟨rfl, rfl, rfl, rfl, id⟩
        have hcall : RecoveryTracked operations ((m.update fun p =>
            { p with paused := true, running := false }).record
              (.maintenance owner true acquired)) := hidle.push rfl rfl trivial
        split
        · exact hfaulted _ hcall
        · exact hcall.change ⟨rfl, rfl, rfl, rfl, id⟩
    · split
      · exact h
      · dsimp only
        generalize operations.maintenance _ owner false = released
        have hcall : RecoveryTracked operations (m.record (.maintenance owner false released)) :=
          h.push rfl rfl trivial
        have hfree := hcall.change (p := { m.policy with owner := .none })
          ⟨rfl, rfl, rfl, rfl, id⟩
        split
        · exact hfaulted _ hfree
        · exact hfree

theorem powerCancelled_tracked (h : RecoveryTracked operations m)
    (hlast : lastStartOverheated m.trace = false) :
    RecoveryTracked operations (powerCancelled operations m).2 ∧
      lastStartOverheated (powerCancelled operations m).2.trace = false := by
  rw [powerCancelled_eq]
  refine ⟨h.answers hlast _ _, ?_⟩
  unfold cancelCalls
  split
  · exact hlast
  · rfl

/-- Outside of an episode the policy starts the board through a resume. -/
theorem operateStep_tracked (h : RecoveryTracked operations m) (hfault : m.policy.fault = false)
    (input : PowerStepInput) : RecoveryTracked operations (operateStep operations m input) := by
  refine operateStep_rule operations
    (T := fun m => RecoveryTracked operations m ∧ m.policy.fault = false)
    (Q := fun m => (RecoveryTracked operations m ∧ lastStartOverheated m.trace = false) ∧
      m.policy.fault = false)
    (powerStop_tracked h.agrees h.respected) h ⟨h, hfault⟩ (powerPolicyResume_tracked h)
    (fun htrue => ⟨powerPolicyResume_tracked h, powerPolicyResume_true operations htrue⟩)
    (fun m applied htuned => ⟨⟨htuned.1.push rfl rfl trivial, rfl⟩, htuned.2⟩)
    (fun m hchecked => ?_) (fun m hchecked => hchecked.1.1) fun m fault hchecked => ?_
  · refine ⟨powerCancelled_tracked hchecked.1.1 hchecked.1.2, ?_⟩
    rw [powerCancelled_eq]
    exact hchecked.2
  · have hstopping := hchecked.1.1.change (p := { m.policy with fault := fault })
      ⟨rfl, rfl, rfl, rfl, fun _ => hchecked.2⟩
    exact powerStop_tracked hstopping.agrees hstopping.respected

/-! ## The recovery -/

theorem reducedFrom_reducedTarget (hfinite : operations.minimumFrequencyMhz.isFinite = true)
    (hpositive : operations.minimumFrequencyMhz.le (.ofNat 0) = false) {target : PowerTarget}
    (htarget : target.frequencyMhz.isFinite = true)
    (hfrequency : target.frequencyMhz.lt operations.minimumFrequencyMhz = false)
    (hvoltage : operations.minimumVoltageMv.toNat ≤ target.voltageMv.toNat) :
    ReducedFrom operations target (reducedTarget operations target) := by
  have hzero : (Binary32.ofNat 0).isFinite = true := by decide +kernel
  have hhundred : (Binary32.ofNat 100).isFinite = true := by decide +kernel
  have hmin : operations.minimumFrequencyMhz.le target.frequencyMhz = true :=
    Binary32.le_of_not_lt htarget hfinite hfrequency
  have hnonneg : (Binary32.ofNat 0).le target.frequencyMhz = true :=
    Binary32.le_trans_of_finite hzero hfinite htarget
      (Binary32.le_total_of_finite hfinite hzero hpositive) hmin
  have hsub : 100 ≤ target.voltageMv.toNat →
      (target.voltageMv - 100).toNat = target.voltageMv.toNat - 100 := fun h =>
    BitVec.toNat_sub_of_le (by simpa [BitVec.le_def] using h)
  refine ⟨?_, ?_, ?_, Binary32.le_fmaxf_left _ hfinite⟩
  · unfold reducedTarget
    dsimp only
    split
    · rw [hsub (by omega)]
      omega
    · exact hvoltage
  · exact Binary32.fmaxf_le hmin (Binary32.sub_le htarget hnonneg hhundred (by decide +kernel))
  · unfold reducedTarget
    dsimp only
    split
    · rw [hsub (by omega)]
      omega
    · exact Nat.le_refl _

theorem saveReducedTarget_tracked (hfinite : operations.minimumFrequencyMhz.isFinite = true)
    (hpositive : operations.minimumFrequencyMhz.le (.ofNat 0) = false)
    (h : RecoveryTracked operations m) :
    RecoveryTracked operations (saveReducedTarget operations m).2 ∧
      ((saveReducedTarget operations m).1 = true →
        (saveReducedTarget operations m).2.policy =
            { m.policy with reducedTargetSaved := true } ∧
          currentStep (saveReducedTarget operations m).2.trace = currentStep m.trace ∧
          latestNow (saveReducedTarget operations m).2.trace = latestNow m.trace) := by
  rcases saveReducedTarget_cases operations m with
    ⟨hsaved, heq⟩ | ⟨htarget, hfrequency, hvoltage, heq⟩ | ⟨calls, hcalls, heq⟩
  · rw [heq]
    exact ⟨h, fun _ => ⟨by rw [← hsaved], rfl, rfl⟩⟩
  · rw [heq]
    refine ⟨⟨?_, ?_, trivial, h.respected⟩, fun _ => ⟨rfl, rfl, rfl⟩⟩
    · have hagrees := h.agrees
      have hreduced := reducedFrom_reducedTarget hfinite hpositive htarget hfrequency hvoltage
      unfold Agrees at hagrees ⊢
      cases hepisode : coolingEpisode operations m.trace with
      | none =>
        rw [hepisode] at hagrees
        simpa [coolingEpisode, hepisode] using hagrees
      | some episode =>
        rw [hepisode] at hagrees
        simp only [coolingEpisode, hepisode, Option.map_some]
        exact ⟨hagrees.cooling, hagrees.target, hagrees.clock, fun _ =>
          ⟨_, rfl, by rw [← hagrees.target]; exact hreduced⟩⟩
    · intro episode hepisode hfault
      obtain ⟨before, hbefore, rfl⟩ := Option.map_eq_some_iff.mp hepisode
      exact h.stopped before hbefore hfault
  · rw [heq]
    refine ⟨?_, fun htrue => by cases htrue⟩
    have hcall : RecoveryTracked operations { m with trace := calls ++ m.trace } := by
      rcases hcalls with rfl | rfl
      · exact h
      · exact h.push rfl rfl trivial
    exact hcall.change ⟨rfl, rfl, rfl, rfl, fun hfault => by cases hfault⟩

/-- The gate of the code is the gate of the observer. -/
theorem recoveryGate_of_coolEnough {p : PowerPolicy}
    {episode : CoolingEpisode} (h : RecoveryTracked operations m)
    (hopen : coolingEpisode operations m.trace = some episode) (hfault : m.policy.fault = false)
    (hcool : CoolEnough p input) (hclock : m.policy.coolingSinceMs = p.establishedClock input.nowMs)
    (hsaved : m.policy.reducedTargetSaved = true) : RecoveryGate operations episode input := by
  have hmatches : EpisodeMatches operations m.policy episode (latestNow m.trace) := by
    have hagrees := h.agrees
    unfold Agrees at hagrees
    rwa [hopen] at hagrees
  have helapsed : input.nowMs.toNat - (p.establishedClock input.nowMs).toNat =
      (input.nowMs - p.establishedClock input.nowMs).toNat :=
    (BitVec.toNat_sub_of_le hcool.clockPassed).symm
  refine ⟨h.stopped episode hopen hfault, ⟨hcool.vregValid, hcool.vregFinite, ?_⟩, ?_, ?_,
    hmatches.saved hsaved⟩
  · exact Binary32.le_of_not_lt (by decide +kernel) hcool.vregFinite hcool.vregCool
  · intro hrequired
    obtain ⟨hvalid, hfinite, hcold⟩ := hcool.asicCool hrequired
    exact ⟨hvalid, Binary32.le_of_not_lt (by decide +kernel) hfinite hcold⟩
  · rcases hmatches.clock hfault with ⟨hunset, -⟩ | ⟨hset, -⟩
    · -- an unset clock would be established at this very step
      have hnow : p.establishedClock input.nowMs = input.nowMs := by
        unfold PowerPolicy.establishedClock at hclock ⊢
        split
        · rfl
        · next hold =>
          rw [if_neg hold, hunset] at hclock
          exact absurd hclock.symm hold
      have hcooled := hcool.cooledDown
      rw [hnow, BitVec.sub_self] at hcooled
      exact absurd hcooled (by decide)
    · rw [hclock] at hset
      exact ⟨_, hset, hcool.clockPassed, helapsed ▸ hcool.cooledDown⟩

theorem Agrees.opened (h : Agrees operations m) (hcooling : m.policy.cooling = true) :
    ∃ episode, coolingEpisode operations m.trace = some episode ∧
      EpisodeMatches operations m.policy episode (latestNow m.trace) := by
  unfold Agrees at h
  cases hepisode : coolingEpisode operations m.trace with
  | none =>
    rw [hepisode] at h
    exact absurd (hcooling.symm.trans h) (by decide)
  | some episode =>
    rw [hepisode] at h
    exact ⟨episode, rfl, h⟩

/-- A recovery starts the board through the gate, and only then reports the end
of the overheat. -/
theorem recoverStep_tracked (hfinite : operations.minimumFrequencyMhz.isFinite = true)
    (hpositive : operations.minimumFrequencyMhz.le (.ofNat 0) = false)
    (h : RecoveryTracked operations (coolingGate m input).2)
    (hstep : currentStep m.trace = some input) (hlatest : latestNow m.trace = input.nowMs)
    (hfault : m.policy.fault = false) (hcooling : m.policy.cooling = true)
    (htarget : m.policy.target = input.target) :
    RecoveryTracked operations (recoverStep operations m input) := by
  obtain ⟨hgate, hcool⟩ := coolingGate_cases m input
  obtain ⟨htracked, hsaved⟩ := saveReducedTarget_tracked hfinite hpositive h
  unfold recoverStep
  dsimp only
  split
  · exact h
  · next hopen =>
    obtain ⟨hcool, hcold⟩ := hcool (by simpa using hopen)
    split
    · exact htracked
    · next htrue =>
      obtain ⟨hpolicy, hcurrent, hnow⟩ := hsaved (by simpa using htrue)
      split
      · exact htracked
      · generalize (saveReducedTarget operations (coolingGate m input).2).2 = m' at *
        rw [hgate, if_neg hcold] at hpolicy
        rw [hgate] at hcurrent hnow
        have hfault' : m'.policy.fault = false := by rw [hpolicy]; exact hfault
        have hcooling' : m'.policy.cooling = true := by rw [hpolicy]; exact hcooling
        have htarget' : m'.policy.target = input.target := by rw [hpolicy]; exact htarget
        have hstep' : currentStep m'.trace = some input := hcurrent.trans hstep
        have hlatest' : latestNow m'.trace = input.nowMs := hnow.trans hlatest
        have hstart := powerStart_tracked htracked hfault' fun episode hepisode =>
          ⟨input, hstep', recoveryGate_of_coolEnough htracked hepisode hfault' hcool
            (by rw [hpolicy]; rfl) (by rw [hpolicy])⟩
        generalize powerStart operations m' = attempt at hstart ⊢
        rcases attempt with ⟨outcome, started⟩
        cases outcome with
        | overheated =>
          obtain ⟨-, hepisode, hlatest, hrespected⟩ := hstart
          rw [hstep', htarget'] at hepisode
          refine beginCooling_tracked hepisode (.inr ⟨rfl, ?_⟩) hrespected
          rw [hlatest, hlatest']
          exact BitVec.le_refl _
        | failed => exact hstart
        | running =>
          obtain ⟨hrunning, -, htrace⟩ := hstart
          obtain ⟨episode, hepisode, -⟩ := htracked.agrees.opened hcooling'
          dsimp only
          refine RecoveryTracked.mk rfl (fun episode hopen => ?_) ⟨?_, hrunning.respected⟩
          · cases hopen
          · exact ⟨m'.policy, m'.trace, episode, htrace, hepisode⟩

/-! ## Steps -/

/-- A step whose beginning the observer passes over. -/
theorem RecoveryTracked.beginStep (h : RecoveryTracked operations m)
    {input : PowerStepInput} (hnow : latestNow m.trace ≤ input.nowMs)
    (hepisode : coolingEpisode operations (m.beginStep input).trace =
      coolingEpisode operations m.trace) : RecoveryTracked operations (m.beginStep input) := by
  refine ⟨?_, ?_, trivial, h.respected⟩
  · have hagrees := h.agrees
    unfold Agrees at hagrees ⊢
    rw [hepisode]
    cases hopen : coolingEpisode operations m.trace with
    | none =>
      rw [hopen] at hagrees
      exact hagrees
    | some episode =>
      rw [hopen] at hagrees
      refine ⟨hagrees.cooling, hagrees.target, fun hfault => ?_, hagrees.saved⟩
      rcases hagrees.clock hfault with hunset | ⟨hset, hle⟩
      · exact .inl hunset
      · exact .inr ⟨hset, BitVec.le_trans hle hnow⟩
  · rw [hepisode]
    exact h.stopped

/-- A step that does not look at its sample leaves the episode alone. -/
theorem coolingEpisode_uninspected {input : PowerStepInput} (h : ¬ Inspects m.policy input) :
    coolingEpisode operations (m.beginStep input).trace = coolingEpisode operations m.trace :=
  if_neg h

theorem coolingEpisode_inspected {input : PowerStepInput} (h : Inspects m.policy input) :
    coolingEpisode operations (m.beginStep input).trace =
      observeStep (coolingEpisode operations m.trace) m.policy input :=
  if_pos h

/-- After the gate has moved the clock, the policy agrees with what the observer
made of the step. -/
theorem coolingGate_tracked (h : RecoveryTracked operations m)
    (hnow : latestNow m.trace ≤ input.nowMs) (hinspects : Inspects m.policy input)
    (hcooling : m.policy.cooling = true) :
    RecoveryTracked operations (coolingGate (m.beginStep input) input).2 := by
  obtain ⟨episode, hopen, hmatches⟩ := h.agrees.opened hcooling
  have hobserved : coolingEpisode operations (m.beginStep input).trace = some { episode with
      clock := if SeesHotAsic m.policy input.sample then some input.nowMs
        else some (episode.clock.getD input.nowMs) } := by
    rw [coolingEpisode_inspected hinspects, hopen]
    rfl
  rw [(coolingGate_cases (m.beginStep input) input).1]
  refine ⟨?_, ?_, trivial, h.respected⟩
  · unfold Agrees
    dsimp only [PowerMachine.update_trace]
    rw [hobserved]
    refine ⟨hcooling, hmatches.target, fun _ => .inr ?_, hmatches.saved⟩
    have hsees : SeesHotAsic (m.beginStep input).policy input.sample ↔
        SeesHotAsic m.policy input.sample := Iff.rfl
    have hestablished : (m.beginStep input).policy.establishedClock input.nowMs =
        m.policy.establishedClock input.nowMs := rfl
    simp only [PowerMachine.update_policy, hsees, hestablished]
    split
    · exact ⟨rfl, BitVec.le_refl _⟩
    · unfold PowerPolicy.establishedClock
      rcases hmatches.clock hinspects.2.1 with ⟨hunset, hnone⟩ | ⟨hset, hle⟩
      · rw [if_pos hunset, hnone]
        exact ⟨rfl, BitVec.le_refl _⟩
      · have hle' : m.policy.coolingSinceMs ≤ input.nowMs :=
          BitVec.le_trans hle hnow
        rw [hset]
        split
        · next hunset =>
          -- the clock reads the sentinel as a time, which is then the present one
          have hmax : input.nowMs = COOLING_CLOCK_UNSET := by
            rw [hunset] at hle'
            exact BitVec.allOnes_le_iff.mp hle'
          exact ⟨by rw [hunset, hmax]; rfl, BitVec.le_refl _⟩
        · exact ⟨rfl, hle'⟩
  · intro opened hopened hfault
    rw [PowerMachine.update_trace, hobserved] at hopened
    obtain rfl := Option.some.inj hopened
    exact h.stopped episode hopen hfault

theorem powerPolicyStep_tracked (hfinite : operations.minimumFrequencyMhz.isFinite = true)
    (hpositive : operations.minimumFrequencyMhz.le (.ofNat 0) = false)
    (h : RecoveryTracked operations m)
    (hnow : latestNow m.trace ≤ input.nowMs) :
    RecoveryTracked operations (powerPolicyStep operations m input) := by
  have hcases := powerPolicyStep_cases operations m input
  generalize powerPolicyStep operations m input = m' at hcases ⊢
  cases hcases with
  | maintenance howner =>
    exact h.beginStep hnow (coolingEpisode_uninspected fun hinspects => howner hinspects.1)
  | faulted howner hfault =>
    have hidle : ¬ Inspects m.policy input := by
      rintro ⟨-, hclear, hreports⟩
      rcases hfault with hfault | hfault
      · exact hreports hfault
      · exact absurd (hclear.symm.trans hfault) (by decide)
    have hfaulted := (h.beginStep hnow (coolingEpisode_uninspected hidle)).change
      (p := { (m.beginStep input).policy with fault := true })
      ⟨rfl, rfl, rfl, rfl, fun hclear => by cases hclear⟩
    split
    · exact powerStop_tracked hfaulted.agrees hfaulted.respected
    · exact hfaulted
  | begins howner hreports hfault hbegins =>
    have hepisode : coolingEpisode operations (m.beginStep input).trace =
        some ⟨input.target, some input.nowMs, false, none⟩ := by
      rw [coolingEpisode_inspected ⟨howner, hfault, hreports⟩, h.agrees.closed hbegins.1]
      exact if_pos hbegins.2
    have hbegun : RecoveryTracked operations
        (beginCooling operations (m.beginStep input) input.nowMs input.target) :=
      beginCooling_tracked hepisode (.inr ⟨rfl, BitVec.le_refl _⟩) ⟨trivial, h.respected⟩
    split
    · exact hbegun
    · next hstopped =>
      obtain ⟨answer, heq⟩ := beginCooling_eq operations (m.beginStep input) input.nowMs
        input.target
      have hanswer : answer = true := by
        rw [heq] at hstopped
        simpa [PowerPolicy.afterStop] using hstopped
      have hfault' : (m.policy.fault || !answer) = false := by simp [hfault, hanswer]
      refine recoverStep_tracked hfinite hpositive ?_ (by rw [heq]; rfl) (by rw [heq]; rfl)
        (by rw [heq]; exact hfault') (by rw [heq]; rfl) (by rw [heq]; rfl)
      -- the episode has just begun, so the gate sets its clock to the same time
      rw [(coolingGate_cases _ input).1]
      refine hbegun.change ⟨rfl, rfl, ?_, rfl, id⟩
      have hclock : (beginCooling operations (m.beginStep input) input.nowMs
          input.target).policy.coolingSinceMs = input.nowMs := by rw [heq]; rfl
      unfold PowerPolicy.establishedClock
      rw [hclock]
      split_ifs <;> rfl
  | recovers howner hreports hfault hcooling =>
    exact recoverStep_tracked hfinite hpositive
      (coolingGate_tracked h hnow ⟨howner, hfault, hreports⟩ hcooling) rfl rfl hfault hcooling rfl
  | operates howner hreports hfault hcooling hbegins =>
    have hquiet : coolingEpisode operations (m.beginStep input).trace =
        coolingEpisode operations m.trace := by
      rw [coolingEpisode_inspected ⟨howner, hfault, hreports⟩, h.agrees.closed hcooling]
      exact if_neg fun hbegin => hbegins ⟨hcooling, hbegin⟩
    exact operateStep_tracked (h.beginStep hnow hquiet) hfault input

/-! ## Runs -/

/-- The time of a step is not before the time of the step before it. -/
def StepTimeAllowed (m : PowerMachine) : PowerInput → Prop
  | .step input => latestNow m.trace ≤ input.nowMs
  | _ => True

instance (m : PowerMachine) (input : PowerInput) : Decidable (StepTimeAllowed m input) := by
  cases input <;> unfold StepTimeAllowed <;> infer_instance

theorem step_tracked (hfinite : operations.minimumFrequencyMhz.isFinite = true)
    (hpositive : operations.minimumFrequencyMhz.le (.ofNat 0) = false)
    (h : RecoveryTracked operations m) (input : PowerInput) (htime : StepTimeAllowed m input) :
    RecoveryTracked operations (m.step operations input) := by
  cases input with
  | setReady ready => exact h.change ⟨rfl, rfl, rfl, rfl, id⟩
  | pause => exact powerPolicyPause_tracked h
  | resume => exact powerPolicyResume_tracked h
  | maintenance owner acquire => exact powerPolicyMaintenance_tracked h owner acquire
  | step input => exact powerPolicyStep_tracked hfinite hpositive h htime

/-- **Overheat recovery is never skipped.**  In every run from a successful
initialisation with non-decreasing times, a start during an open cooling episode
happens in a step that meets the recovery gate, and the end of an overheat is
reported only right after a start that ended an episode.  The cooldown counts from the
clock of the episode: a hot ASIC restarts it, but not in a step whose regulator reading
cannot be used, which returns before it looks at the ASIC. -/
theorem overheat_recovery_never_skipped {policy : PowerPolicy}
    (hinit : powerPolicyInit operations = some policy) (inputs : List PowerInput)
    (htimes : Guarded (PowerMachine.step operations) StepTimeAllowed ⟨policy, []⟩ inputs)
    (newer : List PowerCall) (call : PowerCall) (older : List PowerCall)
    (hsplit : (run (PowerMachine.step operations) ⟨policy, []⟩ inputs).trace =
      newer ++ call :: older) :
    (∀ result episode, call.event = .start result →
        coolingEpisode operations older = some episode →
        ∃ input, currentStep older = some input ∧ RecoveryGate operations episode input) ∧
      (call.event = .overheat false → RightAfterStart operations older) := by
  have hvalid : operations.minimumFrequencyMhz.isFinite = true ∧
      operations.minimumFrequencyMhz.le (.ofNat 0) = false ∧ policy = .initial := by
    unfold powerPolicyInit at hinit
    split at hinit
    · cases hinit
    · next hminimums =>
      simp only [not_or, Bool.not_eq_false, Bool.not_eq_true] at hminimums
      exact ⟨hminimums.2.1, hminimums.2.2, (Option.some.inj hinit).symm⟩
  obtain ⟨hfinite, hpositive, rfl⟩ := hvalid
  have hinitial : RecoveryTracked operations ⟨.initial, []⟩ :=
    ⟨rfl, fun _ hopen => (by cases hopen), trivial⟩
  have htracked : RecoveryTracked operations
      (run (PowerMachine.step operations) ⟨.initial, []⟩ inputs) :=
    Guarded.invariant (P := RecoveryTracked operations) _
      (fun _ input h htime => step_tracked hfinite hpositive h input htime) htimes hinitial
  have hrespected := throughout_iff.mp htracked.respected newer call older hsplit
  unfold RecoveryRespected at hrespected
  constructor
  · intro result episode hevent hopen
    rw [hevent] at hrespected
    exact hrespected episode hopen
  · intro hevent
    rw [hevent] at hrespected
    exact hrespected

end Operations

/-! ## A board that cools down -/

/-- A step at time `nowMs` whose sample reports an overheat. -/
def hotStep (nowMs : U64) : PowerStepInput :=
  { goodStep nowMs with sample := ⟨.overheat, true, .ofNat 110, true, true, .ofNat 90⟩ }

/-- An overheat at time 0 and a good step when the cooldown is over. -/
def cooldownInputs : List PowerInput :=
  [.setReady true, .step (hotStep 0), .step (goodStep 30000)]

theorem overheat_recovery_of_cooldown :
    ∃ episode input call older, coolingEpisode soundBoard older = some episode ∧
      RecoveryGate soundBoard episode input ∧
      (run (PowerMachine.step soundBoard) ⟨.initial, []⟩ cooldownInputs).trace.drop 1 =
        call :: older ∧ call.event = .start .ok := by
  have htimes : Guarded (PowerMachine.step soundBoard) StepTimeAllowed ⟨.initial, []⟩
      cooldownInputs := ⟨trivial, by decide +kernel, by decide +kernel, trivial⟩
  have hevent : (run (PowerMachine.step soundBoard) ⟨.initial, []⟩
      cooldownInputs).trace[1]?.map (·.event) = some (.start .ok) := by decide +kernel
  have hepisode : (coolingEpisode soundBoard ((run (PowerMachine.step soundBoard)
      ⟨.initial, []⟩ cooldownInputs).trace.drop 2)).isSome = true := by decide +kernel
  have hrecovery := overheat_recovery_never_skipped soundBoard_init cooldownInputs htimes
  generalize (run (PowerMachine.step soundBoard) ⟨.initial, []⟩ cooldownInputs).trace = trace at *
  obtain ⟨call, hcall, hstart⟩ := Option.map_eq_some_iff.mp hevent
  obtain ⟨episode, hopen⟩ := Option.isSome_iff_exists.mp hepisode
  obtain ⟨hlt, hget⟩ := List.getElem?_eq_some_iff.mp hcall
  have hdrop : trace.drop 1 = call :: trace.drop 2 := by
    rw [List.drop_eq_getElem_cons hlt, hget]
  obtain ⟨input, -, hgate⟩ := (hrecovery (trace.take 1) call (trace.drop 2)
    (by rw [← hdrop, List.take_append_drop])).1 .ok episode hstart hopen
  exact ⟨episode, input, call, _, hopen, hgate, hdrop, hstart⟩

end EspMiner
