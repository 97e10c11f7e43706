import EspMiner.Bzm.LiveTuningClocks
import Mathlib.Data.Int.ConditionallyCompleteOrder

/-!
# The rail covers the clocks

Over every run of starts, tuning steps, stops and faults, no domain may run faster than a target
that was in force since the start and whose voltage the rail has been given.  What a call of the
board leaves is safe in every case, and settled where the call is done (`SafeOutcome`); with the
starts, which settle the board, this carries the invariant from step to step.
-/

namespace EspMiner

open Library BringupScript

/-! ### The clocks of a start -/

variable {ops : BzmBringupOps}

/-- What is recorded of the clocks -/
def BzmBringupState.clockRates (state : BzmBringupState) : Bool × (ClockDomain → ℚ) :=
  (state.clocksVerified, state.domainClockMhz)

/-- A part that does not reach the dividers leaves what the domains run at. -/
def KeepsClockRates {α : Type} (x : BringupScript α) : Prop :=
  AppendsOnly BringupMachine.trace
    (BzmBringupState.clockRates ∘ BringupMachine.state)
    (fun event => ∀ domain : ClockDomain,
      ¬ event.Touches (wireId domain.1) (dividerOffset domain)) x

theorem dividerOffset_mem (domain : ClockDomain) : dividerOffset domain ∈ dividerOffsets := by
  have hall : ∀ pll : Fin BZM_BRINGUP_PLL_COUNT,
      pllRegister pll BZM_LOCAL_REG_PLL0_FBDIV ∈ dividerOffsets := by decide
  exact hall domain.2

theorem RampStep.not_touches_divider {event : BringupEvent} (h : BringupScript.RampStep event)
    (domain : ClockDomain) : ¬ event.Touches (wireId domain.1) (dividerOffset domain) := by
  have hne : ∀ offset ∈ dividerOffsets, offset ≠ BZM_LOCAL_REG_RESULT_STATUS_CONTROL := by decide
  rcases h with hwithin | hcommit
  · exact hwithin.not_touches fun _ hoffset =>
      absurd hoffset (hne _ (dividerOffset_mem domain))
  · cases event with
    | write => exact absurd hcommit not_false
    | _ => exact not_false

theorem KeepsClockRates.of_ramp {α : Type} {x : BringupScript α} (h : RampOnly x) :
    KeepsClockRates x :=
  AppendsOnly.mono (h.forget BzmBringupState.clockRates) fun _ hevent =>
    RampStep.not_touches_divider hevent

theorem update_keepsClockRates {change : BzmBringupState → BzmBringupState}
    (hclocks : ∀ state, (change state).clockRates = state.clockRates) :
    KeepsClockRates (update change) :=
  appendsOnly_modify (fun _ => rfl) fun m => hclocks m.state

theorem failIf_keepsClockRates {condition : Prop} [Decidable condition]
    {outcome : BzmBringupOutcome} {reason : BzmBringupReason} {id pll offset : U8}
    {expected actual : U32} {n : Nat} :
    KeepsClockRates (failIf condition outcome reason id pll offset expected actual n) :=
  .of_ramp within_failIf.rampOnly

theorem stageBalancedRamp_keepsClockRates (policy : BzmBringupTelemetryPolicy) :
    KeepsClockRates (stageBalancedRamp ops policy) := by
  unfold stageBalancedRamp
  generalize topologyIsExact = exact
  have hbarrier : RampOnly (activationBarrier ops BZM_BRINGUP_ASIC_COUNT BZM_TOPOLOGY_PAIR_COUNT) :=
    appendsOnly_call (fun result => .activationBarrier BZM_BRINGUP_ASIC_COUNT
      BZM_TOPOLOGY_PAIR_COUNT result) (fun _ _ => rfl) (fun _ _ => rfl) fun _ => .inr trivial
  refine AppendsOnly.bind (update_keepsClockRates fun _ => rfl) fun _ => ?_
  refine AppendsOnly.bind appendsOnly_get fun m => ?_
  iterate 4 refine AppendsOnly.bind failIf_keepsClockRates fun _ => ?_
  refine AppendsOnly.bind failIf_keepsClockRates fun _ => ?_
  refine AppendsOnly.bind
    (KeepsClockRates.of_ramp (appendsOnly_forM fun _ _ => resultReporting_within.rampOnly))
    fun _ => ?_
  refine AppendsOnly.bind
    (KeepsClockRates.of_ramp (appendsOnly_forM fun pairIndex _ => rampPair_only pairIndex))
    fun _ => ?_
  refine AppendsOnly.bind (KeepsClockRates.of_ramp hbarrier) fun opened => ?_
  refine AppendsOnly.bind failIf_keepsClockRates fun _ => ?_
  exact AppendsOnly.bind (update_keepsClockRates fun _ => rfl) fun _ =>
    appendsOnly_pure _

theorem checkRunning_keepsClockRates (policy : BzmBringupTelemetryPolicy) :
    KeepsClockRates (checkRunning ops policy) := by
  unfold checkRunning
  generalize topologyIsExact = exact
  refine AppendsOnly.bind failIf_keepsClockRates fun _ => ?_
  refine AppendsOnly.bind (update_keepsClockRates fun _ => rfl) fun _ => ?_
  refine AppendsOnly.bind appendsOnly_get fun m => ?_
  iterate 3 refine AppendsOnly.bind failIf_keepsClockRates fun _ => ?_
  refine AppendsOnly.bind
    (KeepsClockRates.of_ramp (appendsOnly_forM fun _ _ => resultReporting_within.rampOnly))
    fun _ => ?_
  refine AppendsOnly.bind (KeepsClockRates.of_ramp nowUs_within.rampOnly) fun _ => ?_
  refine AppendsOnly.bind (KeepsClockRates.of_ramp verifyTelemetry_within.rampOnly) fun _ => ?_
  exact AppendsOnly.bind (update_keepsClockRates fun _ => rfl) fun _ =>
    appendsOnly_pure _

/-- The clocks are verified, and every domain runs at the power-on frequency, as is recorded. -/
def AtPowerOn (m : BringupMachine) : Prop :=
  m.state.clocksVerified = true ∧ ∀ domain, Reached m domain BZM_FREQUENCY_POWER_ON_MHZ

theorem AtPowerOn.keeps {α : Type} {x : BringupScript α} (hx : KeepsClockRates x)
    {m : BringupMachine} (h : AtPowerOn m) :
    Wp x (fun _ m' => AtPowerOn m') (fun _ => True) m := by
  refine (hx m).mono ?_ fun _ _ => trivial
  rintro _ m' ⟨hkept, events, htrace, hevents⟩
  obtain ⟨hverified, hclocks⟩ := Prod.mk.inj hkept
  refine ⟨hverified.trans h.1, fun domain => ?_⟩
  refine (h.2 domain).congr (congrFun hclocks domain) fun value hvalue => ?_
  rw [htrace] at hvalue
  exact hvalue.of_untouched fun event hevent => hevents event hevent domain

theorem powerOn_divider : gridMhz ((128#16).setWidth 32 : U32).toNat = BZM_FREQUENCY_POWER_ON_MHZ :=
  powerOn_eq.symm

/-- **The stage of the clocks ends at the power-on frequency.** -/
theorem stageClocks_atPowerOn (configTdmGapCount : U8) (policy : BzmBringupTelemetryPolicy)
    (m : BringupMachine) :
    Wp (stageClocks ops bzmBringupPll800Profile configTdmGapCount policy)
      (fun _ m' => AtPowerOn m') (fun _ => True) m := by
  have htrue : ∀ {α : Type} {x : BringupScript α} {R : α → List BringupEvent → Prop}, Adds x R →
      AppendsOnly BringupMachine.trace BringupMachine.state (fun _ => True) x := anyEvents
  unfold stageClocks
  apply wp_failIf trivial
  intro _
  apply wp_get_bind
  apply wp_failIf trivial
  intro _
  apply wp_failIf trivial
  intro _
  apply wp_update
  have hcontrol : ∀ {control : U32}, Adds (writeTdmControl ops control)
      fun _ events => events = [.write BZM_ALL_ASICS BZM_LOCAL_REG_UART_TDM_CONTROL control true] :=
    writeRegister_adds _ _ _ _ _ _ _
  refine wp_adds hcontrol (htrue hcontrol) (fun _ _ => trivial) ?_
  intro _ off _ _
  have hverify : WritesWithin (fun _ _ => False)
      ((List.finRange BZM_MAX_ASIC_COUNT).forM fun index =>
        verifyRegister ops (wireId index) 0
          ⟨BZM_LOCAL_REG_UART_TDM_CONTROL, bzmBringupReferenceTdmControl &&& ~~~1⟩ index) :=
    appendsOnly_forM fun index _ => verifyRegister_within _ _ _ _
  refine wp_adds hverify.adds (htrue hverify.adds) (fun _ _ => trivial) ?_
  intro _ verifying _ _
  refine wp_adds (configureAllClocks_adds _ _) (htrue (configureAllClocks_adds _ _))
    (fun _ _ => trivial) ?_
  intro _ configuring hconfiguring _
  refine wp_adds hcontrol (htrue hcontrol) (fun _ _ => trivial) ?_
  rintro _ _ rfl _
  refine wp_adds nowUs_adds (htrue nowUs_adds) (fun _ _ => trivial) ?_
  rintro configuredUs _ rfl _
  apply wp_update
  have hquiet : WritesWithin (fun _ _ => False) (verifyTelemetry ops policy configuredUs true) :=
    verifyTelemetry_within
  refine wp_adds hquiet.quiet (htrue hquiet.quiet) (fun _ _ => trivial) ?_
  intro _ observing hobserving _
  apply wp_update
  refine ⟨rfl, fun domain => ⟨rfl, fun value hvalue => ?_⟩⟩
  have hread := (hconfiguring domain.1 domain.2
    ⟨dividerOffset domain, (128#16).setWidth 32⟩ List.mem_cons_self).past
      (verifying ++ (off ++ m.trace))
  have hnot : ∀ event ∈ observing ++ [.now configuredUs,
      .write BZM_ALL_ASICS BZM_LOCAL_REG_UART_TDM_CONTROL bzmBringupReferenceTdmControl true],
      ¬ event.Touches (wireId domain.1) (dividerOffset domain) := by
    have hne : ∀ offset ∈ dividerOffsets, BZM_LOCAL_REG_UART_TDM_CONTROL ≠ offset := by decide
    intro event hevent
    rcases List.mem_append.mp hevent with hmem | hmem
    · exact BringupEvent.Quiet.not_touches (hobserving event hmem) _ _
    · simp only [List.mem_cons, List.not_mem_nil, or_false] at hmem
      rcases hmem with rfl | rfl
      · exact not_false
      · exact fun htouches => hne _ (dividerOffset_mem domain) htouches.1
  have heq : value = (128#16).setWidth 32 :=
    MayRun.eq_of_readBack (by simpa using hvalue) (hread.append hnot)
  rw [heq]
  exact powerOn_divider

/-- The last stage sets its flag. -/
theorem checkRunning_verifies (policy : BzmBringupTelemetryPolicy) (m : BringupMachine) :
    Wp (checkRunning ops policy) (fun _ m' => m'.state.runningVerified = true) (fun _ => True)
      m := by
  unfold checkRunning
  generalize topologyIsExact = exact
  refine wp_bind_true fun _ m => ?_
  apply wp_update
  apply wp_get_bind
  refine wp_bind_true fun _ m => wp_bind_true fun _ m => wp_bind_true fun _ m => ?_
  refine wp_bind_true fun _ m => wp_bind_true fun _ m => wp_bind_true fun _ m => ?_
  apply wp_update
  rfl

theorem startScript_atPowerOn (i : StartInputs) (m : BringupMachine) :
    Wp (startScript i) (fun _ m' => AtPowerOn m' ∧ m'.state.runningVerified = true)
      (fun _ => True) m := by
  unfold startScript
  apply wp_update
  refine wp_bind_true fun _ m => wp_bind_true fun _ m => ?_
  rw [wp_bind]
  refine (stageClocks_atPowerOn _ _ _).mono (fun _ m hm => ?_) fun _ _ => trivial
  have hkeeps : KeepsClockRates (do
      let _ ← stageBalancedRamp i.rampOps i.policy
      checkRunning i.runningOps i.policy) :=
    AppendsOnly.bind (stageBalancedRamp_keepsClockRates i.policy) fun _ =>
      checkRunning_keepsClockRates i.policy
  have hrunning : Wp (do
      let _ ← stageBalancedRamp i.rampOps i.policy
      checkRunning i.runningOps i.policy) (fun _ m' => m'.state.runningVerified = true)
        (fun _ => True) m := wp_bind_true fun _ m => checkRunning_verifies i.policy m
  exact ((hm.keeps hkeeps).and hrunning).mono (fun _ _ h => h) fun _ _ => trivial

/-! ### The invariant -/

/-- **The rail covers a clock**: a target that was in force since the start goes at least as fast,
and the rail has been given its voltage. -/
def Covers (s : LiveTuning) (mhz : ℚ) : Prop :=
  ∃ target ∈ s.inForce, mhz ≤ target.1 ∧
    target.2 ≤ s.railCommandV + BZM_TPS546_VOUT_READBACK_TOLERANCE_V

theorem readbackTolerance_pos : 0 < BZM_TPS546_VOUT_READBACK_TOLERANCE_V := by
  unfold BZM_TPS546_VOUT_READBACK_TOLERANCE_V
  norm_num

/-- No domain of a chain that runs may run at a clock that the rail does not cover. -/
def RailCoversClocks (s : LiveTuning) : Prop :=
  s.bringup.state.runningVerified = true → ∀ domain value, MayRun s.bringup.trace domain value →
    Covers s (gridMhz value.toNat)

/-- A transaction moves each domain by a short step, or jumps once from the power-on frequency. -/
def SafeTransaction : TuningEvent → Prop
  | .transaction clocks targetMhz allowInitialJump =>
      (∀ domain, |targetMhz domain - clocks domain| ≤ BZM_FREQUENCY_RAMP_STEP_MHZ) ∨
        allowInitialJump = true ∧ ∀ domain, clocks domain = BZM_FREQUENCY_POWER_ON_MHZ ∧
          targetMhz domain = targetMhz firstDomain ∧
          targetMhz domain ≤ BZM_FREQUENCY_INITIAL_MAX_MHZ
  | _ => True

/-- A board between two calls of the power policy -/
structure Settled (s : LiveTuning) : Prop where
  clocks_verified : s.bringup.state.clocksVerified = true
  target_grid : GridFrequency s.frequencyTargetMhz
  target_mv : ∃ millivolts : ℕ, s.voltageTargetV = millivolts / 1000
  in_force : (s.frequencyTargetMhz, s.voltageTargetV) ∈ s.inForce
  clocks : ∀ domain, GridFrequency (s.bringup.state.domainClockMhz domain) ∧
    RunsAt s.bringup.trace domain (s.bringup.state.domainClockMhz domain) ∧
    Covers s (s.bringup.state.domainClockMhz domain)

/-- What holds in every state that the policy and the monitor reach -/
structure TuningInvariant (s : LiveTuning) : Prop where
  settled : s.running = true → s.bringup.state.runningVerified = true → Settled s
  covers : RailCoversClocks s
  events : ∀ event ∈ s.events, SafeTransaction event

/-! ### Steps on the grid -/

section Grid

variable {c g : ℤ}

theorem gridMhz_monotone : Monotone gridMhz := fun _ _ h => gridMhz_le.mpr h

theorem add_tolerance_lt_gridMhz : gridMhz g + TUNING_TOLERANCE < gridMhz c ↔ g < c := by
  rw [← not_le, show TUNING_TOLERANCE = BZM_FREQUENCY_EPSILON_MHZ from rfl, gridMhz_le_add_epsilon,
    not_le]

theorem lt_sub_tolerance_gridMhz : gridMhz c < gridMhz g - TUNING_TOLERANCE ↔ c < g := by
  rw [lt_sub_iff_add_lt, add_tolerance_lt_gridMhz]

theorem abs_sub_lt_tolerance_gridMhz : |gridMhz c - gridMhz g| < TUNING_TOLERANCE ↔ c = g :=
  abs_gridMhz_sub_lt

/-- A clock takes a step as the live ramp does. -/
theorem nextDomainMhz_gridMhz :
    LiveTuning.nextDomainMhz (gridMhz g) (gridMhz c) = gridMhz (liveDivider c g) := by
  have hdown : gridMhz c - BZM_FREQUENCY_RAMP_STEP_MHZ = gridMhz (c - 4) := by
    rw [sub_eq_iff_eq_add, gridMhz_add_four, sub_add_cancel]
  simp only [LiveTuning.nextDomainMhz, add_tolerance_lt_gridMhz, lt_sub_tolerance_gridMhz, hdown,
    gridMhz_add_four, liveDivider]
  split
  · rw [if_neg (by omega), ← gridMhz_monotone.map_max, max_comm]
  · split
    · rw [← gridMhz_monotone.map_min, min_comm]
    · rw [show max (c - 4) g = c by omega]

theorem liveDivider_mem (hcmin : 128 ≤ c) (hcmax : c ≤ 320) (hgmin : 128 ≤ g) (hgmax : g ≤ 320) :
    128 ≤ liveDivider c g ∧ liveDivider c g ≤ 320 := by
  unfold liveDivider
  split <;> omega

/-- A step ends at the target at most, or no faster than it began. -/
theorem liveDivider_le : liveDivider c g ≤ g ∨ liveDivider c g ≤ c := by
  unfold liveDivider
  split <;> omega

theorem abs_liveDivider_sub :
    |gridMhz (liveDivider c g) - gridMhz c| ≤ BZM_FREQUENCY_RAMP_STEP_MHZ := by
  have hup : gridMhz (liveDivider c g) ≤ gridMhz (c + 4) := by
    refine gridMhz_le.mpr ?_
    unfold liveDivider
    split <;> omega
  have hdown : gridMhz c ≤ gridMhz (liveDivider c g + 4) := by
    refine gridMhz_le.mpr ?_
    unfold liveDivider
    split <;> omega
  rw [← gridMhz_add_four] at hup hdown
  rw [abs_le]
  constructor <;> linarith

end Grid

/-! ### The steps of a board -/

section Board

variable {s : LiveTuning}

theorem Covers.mono {s s' : LiveTuning} {mhz : ℚ} (h : Covers s mhz)
    (htargets : ∀ target ∈ s.inForce, target ∈ s'.inForce)
    (hrail : s.railCommandV ≤ s'.railCommandV) : Covers s' mhz := by
  obtain ⟨target, hmem, hmhz, hvolts⟩ := h
  exact ⟨target, htargets target hmem, hmhz, by linarith⟩

theorem Settled.covers (h : Settled s) : RailCoversClocks s := by
  intro _ domain value hvalue
  rw [(h.clocks domain).2.1 value hvalue]
  exact (h.clocks domain).2.2

theorem railCoversClocks_latchFault (code : U32) : RailCoversClocks (s.latchFault code) :=
  fun hrunning => absurd hrunning Bool.false_ne_true

theorem Settled.tuningSetActive (h : Settled s) (active : Bool) (generation : U32) :
    Settled (s.tuningSetActive active generation) := by
  unfold LiveTuning.tuningSetActive
  split
  · exact ⟨h.clocks_verified, h.target_grid, h.target_mv, h.in_force, h.clocks⟩
  · exact h

theorem TuningTarget.resolve_grid {target : TuningTarget} {resolved : ℚ × ℚ}
    (h : target.resolve = some resolved) : GridFrequency resolved.1 := by
  unfold TuningTarget.resolve at h
  split at h
  · obtain ⟨volts, -, rfl⟩ := Option.map_eq_some_iff.mp h
    exact gridFrequency_iff.mpr ⟨_, (dividerOf_mem _).1, (dividerOf_mem _).2, actualMhz_eq _⟩
  · exact absurd h (Option.some_ne_none _).symm

theorem TuningTarget.resolve_mv {target : TuningTarget} {resolved : ℚ × ℚ}
    (h : target.resolve = some resolved) : ∃ millivolts : ℕ, resolved.2 = millivolts / 1000 := by
  unfold TuningTarget.resolve at h
  split at h
  · obtain ⟨volts, hvolts, rfl⟩ := Option.map_eq_some_iff.mp h
    unfold bzmPowerResolveUserVoltage at hvolts
    simp only at hvolts
    split at hvolts
    · exact ⟨_, (Option.some.inj hvolts).symm⟩
    · exact absurd hvolts (Option.some_ne_none _).symm
  · exact absurd h (Option.some_ne_none _).symm

/-- A change of the target keeps what is settled. -/
theorem Settled.retarget (h : Settled s) {resolved : ℚ × ℚ} (hgrid : GridFrequency resolved.1)
    (hmv : ∃ millivolts : ℕ, resolved.2 = millivolts / 1000) :
    Settled (s.retarget resolved) := by
  unfold LiveTuning.retarget
  split
  · refine ⟨h.clocks_verified, hgrid, hmv, List.mem_cons_self, fun domain => ?_⟩
    obtain ⟨hclock, hruns, hcovers⟩ := h.clocks domain
    exact ⟨hclock, hruns, hcovers.mono (fun _ hmem => List.mem_cons_of_mem _ hmem) le_rfl⟩
  · exact h

theorem Settled.tuningSnapshot (h : Settled s) (target : TuningTarget) (reads : TuningReads) :
    Settled (s.tuningSnapshot target reads).2 := by
  unfold LiveTuning.tuningSnapshot
  split
  · exact ⟨h.clocks_verified, h.target_grid, h.target_mv, h.in_force, h.clocks⟩
  · next resolved hresolved =>
    exact h.retarget (TuningTarget.resolve_grid hresolved) (TuningTarget.resolve_mv hresolved)

theorem tuningSnapshot_kept (target : TuningTarget) (reads : TuningReads) :
    (s.tuningSnapshot target reads).2.bringup = s.bringup ∧
      (s.tuningSnapshot target reads).2.events = s.events := by
  unfold LiveTuning.tuningSnapshot LiveTuning.retarget
  split
  · exact ⟨rfl, rfl⟩
  · split
    · exact ⟨rfl, rfl⟩
    · exact ⟨rfl, rfl⟩

/-- What a call of the board leaves: where it is done the board is settled, and in every case the
rail covers the clocks and what was done is safe. -/
structure SafeOutcome (done : Prop) (before : List TuningEvent) (outcome : LiveTuning) : Prop where
  settled : done → outcome.bringup.state.runningVerified = true → Settled outcome
  covers : RailCoversClocks outcome
  events : ∀ event ∈ outcome.events, event ∈ before ∨ SafeTransaction event

theorem SafeOutcome.of_settled {done : Prop} (h : Settled s) : SafeOutcome done s.events s :=
  ⟨fun _ _ => h, h.covers, fun _ => .inl⟩

theorem SafeOutcome.tuningSetActive {done : Prop} {outcome : LiveTuning}
    (h : SafeOutcome done s.events outcome) (active : Bool) (generation : U32) :
    SafeOutcome done s.events (outcome.tuningSetActive active generation) := by
  unfold LiveTuning.tuningSetActive
  split
  · refine ⟨fun hdone hrunning => ?_, h.covers, h.events⟩
    obtain ⟨hverified, hgrid, hmv, hforce, hclocks⟩ := h.settled hdone hrunning
    exact ⟨hverified, hgrid, hmv, hforce, hclocks⟩
  · exact h

/-- The rail goes where it covers the clocks. -/
theorem frequencyApplyVoltage_safe (h : Settled s)
    (hcovers : ∀ domain, Covers { s with railCommandV := s.voltageTargetV }
      (s.bringup.state.domainClockMhz domain)) (generation : U32) (i : ApplyInputs) :
    SafeOutcome True s.events (s.frequencyApplyVoltage s.voltageTargetV generation i).2 := by
  have hevents : ∀ event ∈ TuningEvent.railCommand s.voltageTargetV i.railApplied :: s.events,
      event ∈ s.events ∨ SafeTransaction event := by
    intro event hevent
    rcases List.mem_cons.mp hevent with rfl | hold
    · exact .inr trivial
    · exact .inl hold
  unfold LiveTuning.frequencyApplyVoltage
  split
  · exact .of_settled h
  · split
    · exact .of_settled h
    · have hcommanded : Settled
          { s with
            railCommandV := s.voltageTargetV
            events := .railCommand s.voltageTargetV i.railApplied :: s.events } :=
        ⟨h.clocks_verified, h.target_grid, h.target_mv, h.in_force, fun domain =>
          ⟨(h.clocks domain).1, (h.clocks domain).2.1, hcovers domain⟩⟩
      simp only
      split
      · exact ⟨fun _ _ => hcommanded, hcommanded.covers, hevents⟩
      · split
        · refine ⟨fun _ hrunning => absurd hrunning Bool.false_ne_true,
            railCoversClocks_latchFault _, fun event hevent => ?_⟩
          rcases List.mem_cons.mp hevent with rfl | hold
          · exact .inr trivial
          · exact hevents event hold
        · exact ⟨fun _ _ => hcommanded, hcommanded.covers, hevents⟩

theorem tuningSetActive_own (active : Bool) :
    s.tuningSetActive active s.frequencyTargetGeneration
      = { s with frequencyRampActive := active } := if_pos rfl

theorem commandRail_safe (h : Settled s)
    (hcovers : ∀ domain, Covers { s with railCommandV := s.voltageTargetV }
      (s.bringup.state.domainClockMhz domain)) (i : ApplyInputs) :
    SafeOutcome True s.events (s.commandRail i).2 := by
  have hactive := h.tuningSetActive true s.frequencyTargetGeneration
  have hsafe : SafeOutcome True s.events ((s.tuningSetActive true
      s.frequencyTargetGeneration).frequencyApplyVoltage s.voltageTargetV
        s.frequencyTargetGeneration i).2 := by
    rw [tuningSetActive_own] at hactive ⊢
    exact frequencyApplyVoltage_safe hactive hcovers _ i
  unfold LiveTuning.commandRail
  simp only
  split
  · exact hsafe
  · exact hsafe.tuningSetActive false _

variable {targetMhz : ClockDomain → ℚ} {allowInitialJump : Bool} {i : ApplyInputs}

/-- A transaction leaves the flags. -/
theorem stepLive_verified :
    (s.stepLive targetMhz allowInitialJump i).2.state.verified = s.bringup.state.verified := by
  have hkept := @liveFrequencyDomainsStep_only i.liveOps targetMhz allowInitialJump s.bringup
  unfold LiveTuning.stepLive
  split
  · cases hstep : liveFrequencyDomainsStep i.liveOps targetMhz allowInitialJump s.bringup with
    | ok report m' =>
      rw [Wp, hstep] at hkept
      exact hkept.1
    | error report m' =>
      rw [Wp, hstep] at hkept
      exact hkept.1
  · rfl

/-- The domains after a transaction, good or not -/
theorem stepLive_inFlight (h : Settled s) :
    ((s.stepLive targetMhz allowInitialJump i).1 = true → ∀ domain,
      Reached (s.stepLive targetMhz allowInitialJump i).2 domain
        (bzmFrequencyResolveTarget (targetMhz domain)).actualMhz) ∧
    ∀ domain, InFlight (s.stepLive targetMhz allowInitialJump i).2 domain
      (s.bringup.state.domainClockMhz domain)
      (bzmFrequencyResolveTarget (targetMhz domain)).actualMhz := by
  have hflight : ∀ domain, InFlight s.bringup domain (s.bringup.state.domainClockMhz domain)
      (bzmFrequencyResolveTarget (targetMhz domain)).actualMhz := fun domain =>
    .inl ⟨rfl, fun value hvalue => .inl ((h.clocks domain).2.1 value hvalue)⟩
  have hwp := @liveFrequencyDomainsStep_wp i.liveOps _ _ targetMhz allowInitialJump _ hflight
    (fun _ => rfl) fun domain => (h.clocks domain).1
  unfold LiveTuning.stepLive
  split
  · cases hstep : liveFrequencyDomainsStep i.liveOps targetMhz allowInitialJump s.bringup with
    | ok report m' =>
      rw [Wp, hstep] at hwp
      exact ⟨fun _ => hwp, fun domain => .inr (hwp domain)⟩
    | error report m' =>
      rw [Wp, hstep] at hwp
      exact ⟨fun hgood => absurd hgood Bool.false_ne_true, hwp⟩
  · exact ⟨fun hgood => absurd hgood Bool.false_ne_true, hflight⟩

theorem frequencyApplyDomains_safe (h : Settled s)
    (hcovers : ∀ domain, Covers s (bzmFrequencyResolveTarget (targetMhz domain)).actualMhz)
    (hsafe : SafeTransaction
      (.transaction s.bringup.state.domainClockMhz targetMhz allowInitialJump))
    (generation : U32) :
    SafeOutcome ((s.frequencyApplyDomains targetMhz allowInitialJump generation i).1 = true)
      s.events (s.frequencyApplyDomains targetMhz allowInitialJump generation i).2 := by
  obtain ⟨hgood, hflight⟩ := @stepLive_inFlight s targetMhz allowInitialJump i h
  have hevents : ∀ event ∈ TuningEvent.transaction s.bringup.state.domainClockMhz targetMhz
      allowInitialJump :: s.events, event ∈ s.events ∨ SafeTransaction event := by
    intro event hevent
    rcases List.mem_cons.mp hevent with rfl | hold
    · exact .inr hsafe
    · exact .inl hold
  have hfault : ∀ event ∈ TuningEvent.fault 0x100a :: .transaction s.bringup.state.domainClockMhz
      targetMhz allowInitialJump :: s.events, event ∈ s.events ∨ SafeTransaction event := by
    intro event hevent
    rcases List.mem_cons.mp hevent with rfl | hold
    · exact .inr trivial
    · exact hevents event hold
  have hrail : ∀ stepped : LiveTuning,
      stepped.bringup = (s.stepLive targetMhz allowInitialJump i).2 →
      stepped.inForce = s.inForce → stepped.railCommandV = s.railCommandV →
      RailCoversClocks stepped := by
    intro stepped hbringup hforce hvolts _ domain value hvalue
    have hsame : ∀ {mhz : ℚ}, Covers s mhz → Covers stepped mhz := fun hc =>
      hc.mono (fun _ hmem => hforce ▸ hmem) hvolts.ge
    rw [hbringup] at hvalue
    rcases hflight domain with ⟨-, hruns⟩ | ⟨-, hruns⟩
    · rcases hruns value hvalue with hfrom | hto
      · exact hsame (hfrom ▸ (h.clocks domain).2.2)
      · exact hsame (hto ▸ hcovers domain)
    · exact hsame (hruns value hvalue ▸ hcovers domain)
  unfold LiveTuning.frequencyApplyDomains
  simp only
  split
  · exact ⟨fun hdone => absurd hdone Bool.false_ne_true, hrail _ rfl rfl rfl, hevents⟩
  · split
    · exact ⟨fun hdone => absurd hdone Bool.false_ne_true, railCoversClocks_latchFault _, hfault⟩
    · next houtcome =>
      split
      · exact ⟨fun hdone => absurd hdone Bool.false_ne_true, railCoversClocks_latchFault _, hfault⟩
      · have hverified := @stepLive_verified s targetMhz allowInitialJump i
        simp only [BzmBringupState.verified, Prod.mk.injEq] at hverified
        refine ⟨fun _ _ => ⟨hverified.2.2.1.trans h.clocks_verified, h.target_grid, h.target_mv,
          h.in_force, fun domain => ?_⟩, hrail _ rfl rfl rfl, hevents⟩
        obtain ⟨hrecorded, hruns⟩ := hgood (Bool.eq_true_of_not_eq_false houtcome) domain
        refine ⟨?_, ?_, ?_⟩
        · rw [hrecorded]
          exact gridFrequency_iff.mpr ⟨_, (dividerOf_mem _).1, (dividerOf_mem _).2,
            actualMhz_eq _⟩
        · rw [hrecorded]
          exact hruns
        · rw [hrecorded]
          exact hcovers domain

theorem transact_safe (h : Settled s)
    (hcovers : ∀ domain, Covers s (bzmFrequencyResolveTarget (targetMhz domain)).actualMhz)
    (hsafe : SafeTransaction
      (.transaction s.bringup.state.domainClockMhz targetMhz allowInitialJump)) :
    SafeOutcome ((s.transact targetMhz allowInitialJump i).1 = true ∧ i.stopRequested = false)
      s.events (s.transact targetMhz allowInitialJump i).2 := by
  have happly := frequencyApplyDomains_safe (i := i) h hcovers hsafe s.frequencyTargetGeneration
  unfold LiveTuning.transact
  simp only
  split
  · next hdone =>
    refine ⟨fun _ hrunning => ?_, happly.covers, happly.events⟩
    obtain ⟨hverified, hgrid, hmv, hforce, hclocks⟩ := happly.settled hdone hrunning
    exact ⟨hverified, hgrid, hmv, hforce, hclocks⟩
  · next hfailed =>
    refine SafeOutcome.tuningSetActive (s := s)
      ⟨fun hdone => ?_, happly.covers, happly.events⟩ false _
    exact absurd (hdone.1.symm.trans hdone.2) (by decide)

theorem domainsAllAt_iff {state : BzmBringupState} {mhz : ℚ} (hmhz : GridFrequency mhz)
    (hgrid : ∀ domain, GridFrequency (state.domainClockMhz domain)) :
    LiveTuning.frequencyDomainsAllAt state mhz = true ↔
      ∀ domain, state.domainClockMhz domain = mhz := by
  rw [LiveTuning.frequencyDomainsAllAt, List.all_eq_true]
  obtain ⟨g, -, -, rfl⟩ := gridFrequency_iff.mp hmhz
  have hdomain : ∀ domain, |state.domainClockMhz domain - gridMhz g| < TUNING_TOLERANCE ↔
      state.domainClockMhz domain = gridMhz g := by
    intro domain
    obtain ⟨c, -, -, hc⟩ := gridFrequency_iff.mp (hgrid domain)
    rw [hc, abs_sub_lt_tolerance_gridMhz]
    exact ⟨fun h => h ▸ rfl, fun h => by
      have h1 := gridMhz_le.mp h.le
      have h2 := gridMhz_le.mp h.ge
      omega⟩
  constructor
  · exact fun h domain =>
      (hdomain domain).mp (of_decide_eq_true (h domain (mem_clockDomains domain)))
  · exact fun h domain _ => decide_eq_true ((hdomain domain).mpr (h domain))

/-- Where the rail has the voltage of the target, the clocks may go to the target. -/
theorem Settled.covers_target (h : Settled s)
    (hrail : s.voltageTargetV ≤ s.railCommandV + BZM_TPS546_VOUT_READBACK_TOLERANCE_V) {mhz : ℚ}
    (hmhz : mhz ≤ s.frequencyTargetMhz) : Covers s mhz :=
  ⟨_, h.in_force, hmhz, hrail⟩

theorem stepClocks_safe (h : Settled s)
    (hrail : s.voltageTargetV ≤ s.railCommandV + BZM_TPS546_VOUT_READBACK_TOLERANCE_V) :
    SafeOutcome ((s.stepClocks i).1 = true ∧ i.stopRequested = false) s.events
      (s.stepClocks i).2 := by
  obtain ⟨g, hgmin, hgmax, hg⟩ := gridFrequency_iff.mp h.target_grid
  unfold LiveTuning.stepClocks
  simp only
  split
  · next hjump =>
    -- the jump ends below the target
    obtain ⟨-, hpowerOn, hinitial⟩ := hjump
    rw [hg, initialMhz_gridMhz hgmin hgmax, powerOn_eq, add_tolerance_lt_gridMhz] at hinitial
    have hatPowerOn := (domainsAllAt_iff (gridFrequency_iff.mpr ⟨128, le_rfl, by omega, powerOn_eq⟩)
      fun domain => (h.clocks domain).1).mp hpowerOn
    rw [hg, initialMhz_gridMhz hgmin hgmax]
    refine transact_safe h (fun domain => ?_)
      (.inr ⟨rfl, fun domain => ⟨hatPowerOn domain, rfl, ?_⟩⟩)
    · rw [resolve_gridMhz (by omega) (by omega)]
      exact h.covers_target hrail (hg ▸ gridMhz_le.mpr (by omega))
    · have hmax : gridMhz (max 128 (min (g - 16) 228)) ≤ gridMhz 228 := gridMhz_le.mpr (by omega)
      refine hmax.trans (le_of_eq ?_)
      unfold gridMhz BZM_FREQUENCY_INITIAL_MAX_MHZ
      norm_num
  · split
    · exact (SafeOutcome.of_settled h).tuningSetActive false _
    · refine transact_safe h (fun domain => ?_) (.inl fun domain => ?_)
      · obtain ⟨c, hcmin, hcmax, hc⟩ := gridFrequency_iff.mp (h.clocks domain).1
        obtain ⟨hmin, hmax⟩ := liveDivider_mem hcmin hcmax hgmin hgmax
        rw [hc, hg, nextDomainMhz_gridMhz, resolve_gridMhz hmin hmax]
        rcases liveDivider_le (c := c) (g := g) with hle | hle
        · exact h.covers_target hrail (hg ▸ gridMhz_le.mpr hle)
        · obtain ⟨target, hmem, hmhz, hvolts⟩ := (h.clocks domain).2.2
          exact ⟨target, hmem, (gridMhz_le.mpr hle).trans (hc ▸ hmhz), hvolts⟩
      · obtain ⟨c, -, -, hc⟩ := gridFrequency_iff.mp (h.clocks domain).1
        show |LiveTuning.nextDomainMhz s.frequencyTargetMhz
          (s.bringup.state.domainClockMhz domain) - s.bringup.state.domainClockMhz domain| ≤ _
        rw [hc, hg, nextDomainMhz_gridMhz]
        exact abs_liveDivider_sub

theorem tune_safe (h : Settled s) :
    SafeOutcome ((s.tune i).1 = true ∧ i.stopRequested = false) s.events (s.tune i).2 := by
  have hraised : ∀ {done : Prop} {outcome : LiveTuning}, SafeOutcome True s.events outcome →
      SafeOutcome done s.events outcome := fun hout =>
    ⟨fun _ => hout.settled trivial, hout.covers, hout.events⟩
  unfold LiveTuning.tune
  split
  · exact .of_settled h
  · split
    · next hraise =>
      refine hraised (commandRail_safe h (fun domain => ?_) i)
      refine (h.clocks domain).2.2.mono (fun _ hmem => hmem) ?_
      have htolerance := readbackTolerance_pos
      exact (by linarith : s.railCommandV ≤ s.voltageTargetV)
    · next hnoRaise =>
      split
      · next hat =>
        split
        · -- every clock is at the target whose voltage the rail goes to
          refine hraised (commandRail_safe h (fun domain => ?_) i)
          rw [(domainsAllAt_iff h.target_grid fun domain => (h.clocks domain).1).mp hat domain]
          exact ⟨_, h.in_force, le_rfl, le_add_of_nonneg_right readbackTolerance_pos.le⟩
        · exact (SafeOutcome.of_settled h).tuningSetActive false _
      · rw [tuningSetActive_own]
        exact stepClocks_safe (s := { s with frequencyRampActive := true })
          ⟨h.clocks_verified, h.target_grid, h.target_mv, h.in_force, h.clocks⟩ (not_lt.mp hnoRaise)

theorem boardApply_safe (h : Settled s) (target : TuningTarget) :
    SafeOutcome ((s.boardApply target i).1 = true ∧ i.stopRequested = false) s.events
      (s.boardApply target i).2 := by
  have hsnapshot := h.tuningSnapshot target i.snapshotReads
  obtain ⟨-, hevents⟩ := tuningSnapshot_kept (s := s) target i.snapshotReads
  unfold LiveTuning.boardApply
  simp only
  split
  · exact hevents ▸ .of_settled hsnapshot
  · split
    · exact hevents ▸ .of_settled hsnapshot
    · rw [← hevents]
      exact tune_safe (s := { (s.tuningSnapshot target i.snapshotReads).2 with
        replacementPending := false }) ⟨hsnapshot.clocks_verified, hsnapshot.target_grid,
          hsnapshot.target_mv, hsnapshot.in_force, hsnapshot.clocks⟩

/-- A board whose chain does not run is left alone but for its target. -/
theorem boardApply_off (hoff : s.bringup.state.runningVerified = false) (target : TuningTarget) :
    (s.boardApply target i).2.bringup = s.bringup ∧
      (s.boardApply target i).2.events = s.events := by
  obtain ⟨hbringup, hevents⟩ := tuningSnapshot_kept (s := s) target i.snapshotReads
  unfold LiveTuning.boardApply
  simp only
  split
  · exact ⟨hbringup, hevents⟩
  · split
    · exact ⟨hbringup, hevents⟩
    · unfold LiveTuning.tune
      rw [if_pos (by rw [← hoff, ← hbringup])]
      exact ⟨hbringup, hevents⟩

/-- A start that is good leaves a settled board. -/
theorem boardStart_settled (i : StartInputs) (h : (s.boardStart i).1 = true) :
    Settled (s.boardStart i).2 := by
  unfold LiveTuning.boardStart at h ⊢
  cases hresolve : i.target.resolve with
  | none =>
    rw [hresolve] at h
    exact absurd h Bool.false_ne_true
  | some resolved =>
    rw [hresolve] at h
    simp only at h ⊢
    have hwp := startScript_atPowerOn i (s.startTargets resolved).bringup
    cases hscript : startScript i (s.startTargets resolved).bringup with
    | error report m =>
      rw [hscript] at h
      exact absurd h Bool.false_ne_true
    | ok report m =>
      rw [Wp, hscript] at hwp
      refine ⟨hwp.1.1, TuningTarget.resolve_grid hresolve, TuningTarget.resolve_mv hresolve,
        List.mem_cons_self, fun domain => ?_⟩
      obtain ⟨hrecorded, hruns⟩ := hwp.1.2 domain
      refine ⟨?_, ?_, ?_⟩
      · rw [hrecorded]
        exact gridFrequency_iff.mpr ⟨128, le_rfl, by omega, powerOn_eq⟩
      · rw [hrecorded]
        exact hruns
      · exact ⟨_, List.mem_cons_of_mem _ List.mem_cons_self, hrecorded.le,
          le_add_of_nonneg_right readbackTolerance_pos.le⟩

theorem boardStart_events (i : StartInputs) : (s.boardStart i).2.events = s.events := by
  unfold LiveTuning.boardStart
  split
  · rfl
  · simp only
    split <;> rfl

/-- A board that was stopped is off. -/
theorem TuningInvariant.boardStop (hevents : ∀ event ∈ s.events, SafeTransaction event)
    (safe : Bool) : TuningInvariant (s.boardStop safe) :=
  ⟨fun hrunning => absurd hrunning Bool.false_ne_true,
    fun hverified => absurd hverified Bool.false_ne_true, hevents⟩

theorem TuningInvariant.orStop {outcome : Bool × LiveTuning} {cancelled safe : Bool}
    (hdone : outcome.1 = true → cancelled = false →
      outcome.2.bringup.state.runningVerified = true → Settled outcome.2)
    (hevents : ∀ event ∈ outcome.2.events, SafeTransaction event) :
    TuningInvariant (orStop outcome cancelled safe) := by
  unfold EspMiner.orStop
  split
  · next hgood =>
    rw [Bool.and_eq_true, Bool.not_eq_true'] at hgood
    have hsettled : outcome.2.bringup.state.runningVerified = true →
        Settled { outcome.2 with running := true } := fun hverified => by
      obtain ⟨hclock, hgrid, hmv, hforce, hclocks⟩ := hdone hgood.1 hgood.2 hverified
      exact ⟨hclock, hgrid, hmv, hforce, hclocks⟩
    exact ⟨fun _ => hsettled, fun hverified => (hsettled hverified).covers hverified, hevents⟩
  · exact .boardStop hevents safe

end Board

/-! ### Runs -/

/-- **One step** keeps the invariant. -/
theorem TuningInvariant.step {s : LiveTuning} (h : TuningInvariant s) (step : TuningStep) :
    TuningInvariant (step.perform s) := by
  cases step with
  | start i cancelled safe =>
    simp only [TuningStep.perform]
    split
    · exact h
    · exact .orStop (fun hgood _ _ => boardStart_settled i hgood)
        (boardStart_events (s := s) i ▸ h.events)
  | apply target i cancelled safe =>
    simp only [TuningStep.perform]
    split
    · next hrunning =>
      cases hverified : s.bringup.state.runningVerified with
      | true =>
        have hsafe := boardApply_safe (i := i) (h.settled hrunning hverified) target
        refine .orStop (fun hgood hcancelled => hsafe.settled ⟨hgood, ?_⟩) fun event hevent => ?_
        · exact (Bool.or_eq_false_iff.mp hcancelled).1
        · exact (hsafe.events event hevent).elim (h.events event) id
      | false =>
        obtain ⟨hbringup, hevents⟩ := boardApply_off (i := i) hverified target
        refine .orStop (fun _ _ hon => ?_) (hevents ▸ h.events)
        rw [hbringup, hverified] at hon
        exact absurd hon Bool.false_ne_true
    · exact h
  | stop safe => exact .boardStop h.events safe
  | monitorFault code =>
    refine ⟨fun _ hverified => absurd hverified Bool.false_ne_true,
      railCoversClocks_latchFault code, fun event hevent => ?_⟩
    rcases List.mem_cons.mp hevent with rfl | hold
    · trivial
    · exact h.events event hold

theorem tuningRun_invariant (steps : List TuningStep) : TuningInvariant (tuningRun steps) := by
  refine List.foldlRecOn steps TuningStep.perform ?_ fun s hs step _ => hs.step step
  exact ⟨fun hrunning => absurd hrunning Bool.false_ne_true,
    fun hverified => absurd hverified Bool.false_ne_true, fun _ h => absurd h List.not_mem_nil⟩

/-- **The rail covers the clocks** in every state that starts, tuning steps, stops and faults reach,
also where a call has just failed, whatever the callbacks answer: whatever divider a domain may run
with, a target in force since the start goes at least as fast and the rail has been given its
voltage.  Every transaction moves each domain by 25 MHz at most or is the jump from power-on. -/
theorem liveTuning_railCoversClocks (steps : List TuningStep) :
    RailCoversClocks (tuningRun steps) ∧
      (∀ event ∈ (tuningRun steps).events, SafeTransaction event) ∧
      ((tuningRun steps).running = true → ∀ target i,
        RailCoversClocks ((tuningRun steps).boardApply target i).2) := by
  have h := tuningRun_invariant steps
  refine ⟨h.covers, h.events, fun hrunning target i => ?_⟩
  cases hverified : (tuningRun steps).bringup.state.runningVerified with
  | true => exact (boardApply_safe (h.settled hrunning hverified) target).covers
  | false =>
    intro hon
    rw [(boardApply_off hverified target).1, hverified] at hon
    exact absurd hon Bool.false_ne_true

/-! ### A chain that works -/

/-- Each chip has its id, locked PLLs, and in every other register what was written last. -/
def workingRegister (asicId offset : U8) (history : List BringupEvent) : U32 :=
  if offset = BZM_LOCAL_REG_ASIC_ID then asicId.setWidth 32 ||| 0x100
  else if offset = BZM_LOCAL_REG_PLL0_ENABLE ∨ offset = BZM_LOCAL_REG_PLL0_ENABLE + 0x0a then
    BZM_PLL_LOCK_MASK
  else (history.findSome? fun
    | .write id written value _ =>
        if written = offset ∧ (id = asicId ∨ id = BZM_ALL_ASICS) then some value else none
    | _ => none).getD 0

/-- Callbacks that succeed; the time is the number of calls. -/
def workingOps : BzmBringupOps where
  probeNoop := some fun history _ =>
    if (history.countP fun
      | .write _ offset _ _ => offset = BZM_LOCAL_REG_ASIC_ID
      | _ => false) < 4 then .response else .noResponse
  writeU32 := some fun _ _ _ _ _ => true
  readU32 := some fun history asicId _ offset => some (workingRegister asicId offset history)
  delayMs := true
  nowUs := some fun history => BitVec.ofNat 64 history.length
  telemetrySnapshot := some fun history => some ⟨fun index =>
    { BzmTelemetrySample.zero with
      asicId := wireId index, timestampUs := BitVec.ofNat 64 history.length, received := true
      thermalValid := true, voltageEnabled := true, voltageValid := true, pllLocked := true
      valid := true }⟩
  balancedBatchBegin := some fun _ _ => true
  balancedPairCommit := some fun _ _ _ => true
  balancedBatchEnd := some fun _ _ => true
  activationBarrier := some fun _ _ _ => true

def workingPolicy : BzmBringupTelemetryPolicy where
  bounds := ⟨.ofNat 0, .ofNat 90, .ofNat 0, .ofNat 0, .ofNat 0, .ofNat 0, .ofNat 0, .ofNat 0⟩
  maxAgeUs := 1000
  ch2ConfirmSamples := 1

def workingStart (target : TuningTarget) : TuningStep :=
  .start ⟨target, workingOps, workingOps, workingOps, workingOps, workingOps, 10, workingPolicy⟩
    false true

def workingReads : TuningReads := ⟨true, true, false, false, true, true, false, true, true, true⟩

def workingApply (target : TuningTarget) : TuningStep :=
  .apply target ⟨workingReads, (0, 0, false), 0, workingReads, true, false, true, workingOps, true,
    (0, 0, false), 0, false⟩ false true

/-- Whether the board runs, its rail and its clocks -/
def LiveTuning.shown (s : LiveTuning) : Bool × ℚ × List ℚ :=
  (s.running, s.railCommandV, clockDomains.map s.bringup.state.domainClockMhz)

-- it runs at 800 MHz, then raises the rail, then the clocks, and lowers them by a step
example : (tuningRun [workingStart ⟨2800, 1000⟩, workingApply ⟨2900, 1000⟩,
    workingApply ⟨2900, 1000⟩, workingApply ⟨2800, 850⟩]).shown =
      (true, 2.9, List.replicate 8 875) := by
  decide +kernel

end EspMiner
