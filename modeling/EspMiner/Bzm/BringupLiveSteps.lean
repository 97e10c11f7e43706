import EspMiner.Bzm.BringupEvidence

/-!
# What a live step leaves alone

A live frequency step writes dividers and nothing else, and keeps every flag of the bring-up,
wherever it gives up.  Before that, the rules that carry a weakest precondition over the calls of a
stage.
-/

namespace EspMiner

open Library BringupScript

/-! ## Rules for the parts of a stage -/

section Rules

variable {β : Type} {m : BringupMachine} {Q : β → BringupMachine → Prop} {E : BringupMachine → Prop}

theorem wp_failIf {condition : Prop} [Decidable condition] {outcome : BzmBringupOutcome}
    {reason : BzmBringupReason} {asicId pll offset : U8} {expected actual : U32} {completed : Nat}
    {f : PUnit → BringupScript β} (hE : E m) (hf : ¬ condition → Wp (f ⟨⟩) Q E m) :
    Wp (failIf condition outcome reason asicId pll offset expected actual completed >>= f) Q E
      m := by
  unfold failIf
  split
  · exact hE
  · next hnot => exact hf hnot

theorem wp_update {change : BzmBringupState → BzmBringupState} {f : PUnit → BringupScript β}
    (hf : Wp (f ⟨⟩) Q E (m.update change)) : Wp (update change >>= f) Q E m := hf

theorem wp_get_bind {f : BringupMachine → BringupScript β} (hf : Wp (f m) Q E m) :
    Wp (get >>= f) Q E m := hf

end Rules

variable {ops : BzmBringupOps}

theorem anyEvents {α : Type} {x : BringupScript α} {R : α → List BringupEvent → Prop}
    (h : Adds x R) : AppendsOnly BringupMachine.trace BringupMachine.state (fun _ => True) x :=
  Appends.mono h (fun _ _ _ _ _ => trivial) fun _ _ _ _ => trivial

/-! ## Live frequencies -/

/-- The flags, with what they are about -/
def BzmBringupState.verified (state : BzmBringupState) : Bool × Bool × Bool × Bool × Bool × U64 :=
  (state.chainVerified, state.sensorsVerified, state.clocksVerified, state.balancedRampVerified,
    state.runningVerified, state.sensorsConfiguredUs)

/-- A part of a live step: it writes dividers at most, and keeps the flags. -/
abbrev LiveOnly {α : Type} (x : BringupScript α) : Prop :=
  AppendsOnly BringupMachine.trace (BzmBringupState.verified ∘ BringupMachine.state)
    (BringupEvent.Within fun _ offset => offset ∈ dividerOffsets) x

theorem BringupScript.WritesWithin.liveOnly {α : Type} {x : BringupScript α}
    (h : WritesWithin (fun _ offset => offset ∈ dividerOffsets) x) : LiveOnly x :=
  h.forget BzmBringupState.verified

theorem update_liveOnly {change : BzmBringupState → BzmBringupState}
    (h : ∀ state, (change state).verified = state.verified) : LiveOnly (update change) :=
  appendsOnly_modify (fun _ => rfl) fun m => h m.state

section Live

variable {targetMhz clocks : ClockDomain → ℚ} {domain : ClockDomain} {target : BzmFrequencyTarget}
  {completed : Nat}

theorem pollDomainLock_within {p : U8 → U8 → Prop} (left : Nat) (value : U32) :
    WritesWithin p (pollDomainLock ops domain completed left value) := by
  induction left generalizing value with
  | zero => exact within_failIf
  | succ left ih =>
    refine (readPllEnable_within _).bind fun value => ?_
    split
    · exact within_pure _
    · exact (delayMs_within _).bind fun _ => ih value

theorem verifyLiveFrequencyDomain_within {p : U8 → U8 → Prop} :
    WritesWithin p (verifyLiveFrequencyDomain ops domain target completed) :=
  verifyDividers_within.bind fun _ => pollDomainLock_within 30 0

theorem programLiveFrequencyDomain_within :
    WritesWithin (fun _ offset => offset ∈ dividerOffsets)
      (programLiveFrequencyDomain ops domain target completed) :=
  (writeDividers_within fun _ hoffset => hoffset).bind fun _ =>
    (delayMs_within 1).bind fun _ => verifyLiveFrequencyDomain_within

theorem programLiveBroadcastShortcut_within :
    WritesWithin (fun _ offset => offset ∈ dividerOffsets)
      (programLiveBroadcastShortcut ops target) :=
  (appendsOnly_forM fun _ _ => (writeDividers_within fun _ hoffset => hoffset).bind fun _ =>
    delayMs_within 1).bind fun _ =>
      appendsOnly_forM fun _ _ => verifyLiveFrequencyDomain_within

theorem programDomains_only (domains : List ClockDomain) :
    LiveOnly (programDomains ops clocks targetMhz domains) := by
  induction domains with
  | nil => exact appendsOnly_pure _
  | cons domain later ih =>
    refine AppendsOnly.bind ?_ fun _ => ih
    unfold programDomain
    simp only
    split
    · exact programLiveFrequencyDomain_within.liveOnly.bind fun _ => update_liveOnly fun _ => rfl
    · exact appendsOnly_pure _

theorem finishLiveStep_only : LiveOnly (finishLiveStep ops) := by
  have hnow : LiveOnly (configuredNow ops) := by
    unfold configuredNow
    split
    · exact nowUs_within.liveOnly
    · exact appendsOnly_pure _
  refine hnow.bind fun _ => AppendsOnly.bind (update_liveOnly ?_) fun _ => ?_
  · exact fun _ => rfl
  · exact appendsOnly_get.bind fun _ => appendsOnly_pure _

theorem recordAverage_only : LiveOnly recordAverage := update_liveOnly fun _ => rfl

theorem stepDomains_only : LiveOnly (stepDomains ops clocks targetMhz) :=
  ((programDomains_only clockDomains).tryCatch fun report =>
    recordAverage_only.bind fun _ => appendsOnly_throw report).bind fun _ =>
      recordAverage_only.bind fun _ => finishLiveStep_only

theorem liveFrequencyDomainsStepOnce_only (allowInitialJump : Bool) :
    LiveOnly (liveFrequencyDomainsStepOnce ops targetMhz allowInitialJump) := by
  refine appendsOnly_get.bind fun m => within_failIf.liveOnly.bind fun _ =>
    (within_giveUpWith _).liveOnly.bind fun _ => ?_
  simp only
  split
  · refine programLiveBroadcastShortcut_within.liveOnly.bind fun _ =>
      AppendsOnly.bind (update_liveOnly ?_) fun _ => finishLiveStep_only
    exact fun _ => rfl
  · exact stepDomains_only

/-- **A live step leaves what is verified**, whatever it does to the frequencies. -/
theorem liveFrequencyDomainsStep_only (allowInitialJump : Bool) :
    LiveOnly (liveFrequencyDomainsStep ops targetMhz allowInitialJump) := by
  unfold liveFrequencyDomainsStep
  generalize 2 = left
  induction left with
  | zero => exact liveFrequencyDomainsStepOnce_only allowInitialJump
  | succ left ih =>
    refine (liveFrequencyDomainsStepOnce_only allowInitialJump).tryCatch fun report => ?_
    split
    · exact (delayMs_within 10).liveOnly.bind fun _ => ih
    · exact appendsOnly_throw report

end Live

/-! ## Reporting -/

theorem resultReporting_within {asicId : U8} {value : U32} {completed : Nat} :
    WritesWithin (fun _ offset => offset = BZM_LOCAL_REG_RESULT_STATUS_CONTROL)
      (writeAndVerifyRegisters ops asicId (resultReporting value) completed) := by
  refine writeAndVerifyRegisters_within (fun register hregister => ?_) completed
  obtain rfl := List.mem_singleton.mp hregister
  rfl

end EspMiner
