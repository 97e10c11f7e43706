import EspMiner.Bzm.Supervisor

/-!
# What a supervisor operation can do

Every operation either leaves the hardware alone or ends with a proven safe-off,
a recorded failed safe-off or a held run.  `step_effect` says which, once; the
safety results are inductions over it.
-/

namespace EspMiner

namespace BzmSupervisor

/-- The last callback was a safe-off that returned GOOD, and nobody holds the
hardware. -/
structure SafeOffProven (s : BzmSupervisor) : Prop where
  callback : ∃ result older, s.trace = .forceSafeOff result :: older ∧ result.status = .good
  energized : s.report.energized = false
  state : s.report.state = .offSafe ∨ s.report.state = .faultLatched
  unleased : ¬ s.leased

/-- A failed safe-off has been recorded. -/
structure SafeOffFailed (s : BzmSupervisor) : Prop where
  callback : ∃ result older, s.trace = .forceSafeOff result :: older
  energized : s.report.energized = true
  state : s.report.state = .shutdownUnverified
  owner : s.owner = .none
  faultLatched : s.faultLatched = true

/-- The hardware is held after a run of stages up to `target`. -/
structure Held (s : BzmSupervisor) (target : BzmValidationStage) (nowMs : U64) (leaseMs : U32) :
    Prop where
  trace : ∃ policy run older,
    s.trace = .leaseGranted nowMs leaseMs ::
      (stageEvents run target.upTo ++ .execute policy :: older) ∧
    (validatePolicy policy).status = .good ∧ policy.requestedStage = some target ∧
    ∀ stage ∈ target.upTo, (run stage).status = .good
  owner : s.owner = if target = .running then .mining else .validation
  state : s.report.state = .holding
  energized : s.report.energized = true
  deadline : s.leaseDeadlineMs = nowMs + leaseMs.setWidth 64
  lease : leaseMs ≤ s.config.maximumLeaseMs
  faultLatched : s.faultLatched = false

end BzmSupervisor

/-- The stage a call asks to validate. -/
def BzmSupervisorOp.requestedStage : BzmSupervisorOp → BzmStageValue
  | .requestValidation targetStage _ _ _ _ _ => targetStage
  | _ => none

/-- The deadline that a call may record: a powered request to hold, or a heartbeat. -/
def BzmSupervisorOp.deadline : BzmSupervisorOp → Option U64
  | .requestValidation (some targetStage) _ true leaseMs nowMs _ =>
      if .powerRail ≤ targetStage then some (nowMs + leaseMs.setWidth 64) else none
  | .heartbeat leaseMs nowMs => some (nowMs + leaseMs.setWidth 64)
  | _ => none

namespace BzmSupervisor

/-- The call is taken: the request gets past the checks that turn it away, or the
heartbeat renews the lease. -/
def Takes (s : BzmSupervisor) : BzmSupervisorOp → Prop
  | .requestValidation (some targetStage) _ _ leaseMs _ _ =>
      s.owner.isMaintenance = false ∧ (s.faultLatched = true → targetStage = .offSafe) ∧
        leaseMs ≤ s.config.maximumLeaseMs
  | .heartbeat leaseMs nowMs =>
      s.leased ∧ s.report.state = .holding ∧ leaseMs ≠ 0 ∧ leaseMs ≤ s.config.maximumLeaseMs ∧
        nowMs < s.leaseDeadlineMs
  | _ => False

/-- What one operation can do to a supervisor. -/
inductive Effect (s : BzmSupervisor) (op : BzmSupervisorOp) : BzmSupervisor → Prop
  | unchanged : Effect s op s
  | blocked (target : BzmValidationStage) (detail : String)
      (request : op.requestedStage = some target) (owner : s.owner.isMaintenance = true) :
      Effect s op (s.blockReport target detail)
  | safeOff {s' : BzmSupervisor} (proven : SafeOffProven s') : Effect s op s'
  | safeOffFailed {s' : BzmSupervisor} (failed : SafeOffFailed s') : Effect s op s'
  | held {s' : BzmSupervisor} (target : BzmValidationStage) (nowMs : U64) (leaseMs : U32)
      (held : Held s' target nowMs leaseMs) (recorded : op.deadline = some s'.leaseDeadlineMs)
      (taken : s.Takes op) : Effect s op s'
  | renewed (nowMs : U64) (leaseMs : U32) (leased : s.leased) (state : s.report.state = .holding)
      (lease : leaseMs ≤ s.config.maximumLeaseMs)
      (recorded : op.deadline = some (nowMs + leaseMs.setWidth 64)) (taken : s.Takes op) :
      Effect s op { s with
        leaseDeadlineMs := nowMs + leaseMs.setWidth 64
        report := { s.report with leaseMs := leaseMs }
        trace := .leaseGranted nowMs leaseMs :: s.trace }
  | faultCleared (latched : s.faultLatched = true) (verified : s.safeOffVerified = true) :
      Effect s op (({ s with
        faultLatched := false
        faultCode := 0
        faultDetail := "" }).setState .offSafe)
  | bridgeRecovery (owner : s.owner = .none) (latched : s.faultLatched = true)
      (state : s.report.state = .shutdownUnverified) :
      Effect s op { s with owner := .bridgeUpdate, leaseDeadlineMs := 0 }

section Fields

variable (s : BzmSupervisor) (code : BzmValidationCode) (detail : Option String)

@[simp] theorem latchFirst_report : (s.latchFirst code detail).report = s.report := by
  unfold latchFirst; simp only; split <;> rfl

@[simp] theorem latchFirst_trace : (s.latchFirst code detail).trace = s.trace := by
  unfold latchFirst; simp only; split <;> rfl

@[simp] theorem latchFirst_owner : (s.latchFirst code detail).owner = s.owner := by
  unfold latchFirst; simp only; split <;> rfl

@[simp] theorem latchFirst_config : (s.latchFirst code detail).config = s.config := by
  unfold latchFirst; simp only; split <;> rfl

@[simp] theorem latchFirst_faultLatched : (s.latchFirst code detail).faultLatched = true := by
  unfold latchFirst; simp only; split <;> rfl

end Fields

/-- Either a stop is refused, or its safe-off is proven or recorded as failed. -/
theorem stopInternal_cases (s : BzmSupervisor) (reason : Option String) (preempt : Bool)
    (safeOff : BzmStageResult) :
    (s.stopInternal reason preempt safeOff = (false, s) ∧ preempt = false ∧
        s.owner.isMaintenance = true) ∨
    (∃ s', s.stopInternal reason preempt safeOff = (true, s') ∧ SafeOffProven s' ∧
        s'.owner = .none ∧ s'.faultLatched = s.faultLatched ∧ s'.config = s.config ∧
        (s.faultLatched = true → s'.report.state = .faultLatched)) ∨
    (∃ s', s.stopInternal reason preempt safeOff = (false, s') ∧ SafeOffFailed s' ∧
        s'.config = s.config) := by
  unfold stopInternal
  by_cases hrefused : (!preempt && s.owner.isMaintenance) = true
  · exact .inl ⟨by simp only [hrefused, if_true], by simpa using hrefused⟩
  · simp only [hrefused]
    by_cases hgood : safeOff.status = .good
    · simp only [hgood, ne_eq, not_true_eq_false, if_false]
      refine .inr (.inl ⟨_, rfl, ⟨⟨safeOff, s.trace, rfl, hgood⟩, ?_, ?_, ?_⟩, rfl, rfl, rfl, ?_⟩)
      · simp [setState]
      · cases s.faultLatched <;> simp [setState]
      · simp [leased, setState]
      · simp +contextual [setState]
    · simp only [hgood, ne_eq, not_false_eq_true, if_true]
      refine .inr (.inr ⟨_, rfl, ⟨⟨safeOff, s.trace, ?_⟩, ?_, rfl, ?_, ?_⟩, ?_⟩)
      all_goals simp

/-- With no maintenance owner in the way a stop always reaches its safe-off. -/
theorem stop_cases {s : BzmSupervisor} (howner : s.owner.isMaintenance = false)
    (reason : Option String) (safeOff : BzmStageResult) :
    (∃ s', s.stop reason safeOff = (true, s') ∧ SafeOffProven s' ∧ s'.owner = .none ∧
        s'.faultLatched = s.faultLatched ∧ s'.config = s.config ∧
        (s.faultLatched = true → s'.report.state = .faultLatched)) ∨
    (∃ s', s.stop reason safeOff = (false, s') ∧ SafeOffFailed s') := by
  rcases s.stopInternal_cases reason false safeOff with ⟨-, -, h⟩ | h | ⟨s', heq, hfailed, -⟩
  · rw [howner] at h
    cases h
  · exact .inl h
  · exact .inr ⟨s', heq, hfailed⟩

theorem SafeOffProven.setFaultLatched {s : BzmSupervisor} (h : SafeOffProven s) :
    SafeOffProven (s.setState .faultLatched) :=
  ⟨h.callback, h.energized, .inr rfl, h.unleased⟩

theorem SafeOffProven.latchFirst {s : BzmSupervisor} (h : SafeOffProven s)
    (code : BzmValidationCode) (detail : Option String) :
    SafeOffProven (s.latchFirst code detail) :=
  ⟨by simpa using h.callback, by simpa using h.energized, by simpa using h.state,
    by simpa [leased] using h.unleased⟩

/-- A run that ended with its safe-off leaves nobody holding the hardware. -/
theorem recordRun_of_safeOff (s : BzmSupervisor) (target : BzmValidationStage) (leaseMs : U32)
    (nowMs : U64) {completed : Bool} {before : BzmValidationReport} {off : BzmStageResult}
    (events : List BzmValidationEvent) (hcompleted : completed = true → off.status = .good) :
    let r := s.recordRun target leaseMs nowMs completed (forceSafeOff (some off) before).2
      (.forceSafeOff off :: events)
    (SafeOffProven r.2 ∧ r.2.owner = .none ∧
      (s.faultLatched = true → r.2.report.state = .faultLatched)) ∨
    (r.1 = false ∧ SafeOffFailed r.2) := by
  by_cases hgood : off.status = .good
  · obtain ⟨-, henergized, hstate⟩ := forceSafeOff_of_good hgood before
    have hheld : (forceSafeOff (some off) before).2.state ≠ .holding := by
      rcases hstate with h | h <;> simp [h]
    have hverified : (forceSafeOff (some off) before).2.state ≠ .shutdownUnverified := by
      rcases hstate with h | h <;> simp [h]
    have hproven : SafeOffProven ⟨s.config, (forceSafeOff (some off) before).2, .none,
        s.nextRunId + 1, 0, s.faultLatched, s.faultCode, s.faultDetail,
        .forceSafeOff off :: events ++ s.trace⟩ :=
      ⟨⟨off, events ++ s.trace, rfl, hgood⟩, henergized, hstate, by simp [leased]⟩
    cases completed with
    | false =>
      have hlatched := hproven.latchFirst .stageFailed (some "startup step failed")
      simp only [recordRun, if_true]
      by_cases hbad : (forceSafeOff (some off) before).2.overall = .bad
      · simp only [hbad, if_true, latchFirst_faultLatched, latchFirst_report, hverified, ne_eq,
          not_false_eq_true, and_self]
        exact .inl ⟨hlatched.setFaultLatched, latchFirst_owner _ _ _, fun _ => rfl⟩
      · simp only [hbad, if_false, hverified, ne_eq, not_false_eq_true, and_true]
        split
        · exact .inl ⟨hproven.setFaultLatched, rfl, fun _ => rfl⟩
        · next hunlatched => exact .inl ⟨hproven, rfl, fun h => absurd h hunlatched⟩
    | true =>
      simp only [recordRun, Bool.true_eq_false, if_false, hheld]
      split
      · exact .inl ⟨hproven.setFaultLatched, rfl, fun _ => rfl⟩
      · next hunlatched => exact .inl ⟨hproven, rfl, fun h => absurd h hunlatched⟩
  · obtain ⟨-, henergized, hstate, hoverall⟩ := forceSafeOff_of_not_good hgood before
    have hfalse : completed = false := by
      by_contra h
      exact hgood (hcompleted (by simpa using h))
    subst hfalse
    simp only [recordRun, hoverall, hstate, if_true, ne_eq, not_true_eq_false, and_false, if_false,
      latchFirst_report]
    refine .inr ⟨trivial, ⟨⟨off, events ++ s.trace, ?_⟩, ?_, ?_, ?_, ?_⟩⟩
    all_goals simp [henergized, hstate]

/-- After its rejections a request ends in one of the three ways of a validation run. -/
theorem runValidation_cases (s : BzmSupervisor) (target : BzmValidationStage)
    (localArm hold : Bool) (leaseMs : U32) (nowMs : U64) (answers : BzmSupervisorAnswers)
    (hlease : leaseMs ≤ s.config.maximumLeaseMs)
    (hfault : s.faultLatched = true → target = .offSafe) :
    let r := s.runValidation target localArm hold leaseMs nowMs answers
    (Held r.2 target nowMs leaseMs ∧ hold = true ∧ .powerRail ≤ target) ∨
    (SafeOffProven r.2 ∧ r.2.owner = .none ∧
      (s.faultLatched = true → r.2.report.state = .faultLatched)) ∨
    (r.1 = false ∧ SafeOffFailed r.2) := by
  simp only [runValidation]
  rcases bzmValidationExecute_cases (s.policyFor target localArm hold leaseMs) answers.runStage
    answers.runSafeOff with ⟨requested, report, events, heq, hheld⟩ |
      ⟨completed, before, events, heq, hcompleted⟩
  · have hrequested : target = requested := Option.some.inj hheld.requestedStage
    subst hrequested
    have hunlatched : s.faultLatched = false := by
      by_contra hlatched
      have := hfault (by simpa using hlatched)
      subst this
      exact absurd hheld.powered (by decide)
    rw [heq]
    simp only [recordRun, Bool.true_eq_false, if_false, hheld.state, if_true, hunlatched,
      Bool.false_eq_true]
    refine .inl ⟨?_, hheld.hold, hheld.powered⟩
    exact {
      trace := ⟨_, answers.runStage, s.trace, by simp [hheld.events], hheld.accepted, rfl,
        hheld.stagesGood⟩
      owner := rfl
      state := hheld.state
      energized := hheld.energized
      deadline := rfl
      lease := hlease
      faultLatched := rfl }
  · rw [heq]
    exact .inr (s.recordRun_of_safeOff target leaseMs nowMs events hcompleted)

/-- What a request can end in. -/
theorem requestValidation_cases (s : BzmSupervisor) (target : BzmStageValue)
    (localArm hold : Bool) (leaseMs : U32) (nowMs : U64) (answers : BzmSupervisorAnswers) :
    let r := s.requestValidation target localArm hold leaseMs nowMs answers
    (r = (false, s) ∧ target = none) ∨
    (∃ stage detail, r = (false, s.blockReport stage detail) ∧ target = some stage ∧
      s.owner.isMaintenance = true) ∨
    (∃ stage, target = some stage ∧
      s.Takes (.requestValidation target localArm hold leaseMs nowMs answers) ∧
      Held r.2 stage nowMs leaseMs ∧ hold = true ∧ .powerRail ≤ stage) ∨
    (SafeOffProven r.2 ∧ r.2.owner = .none ∧
      (s.faultLatched = true → r.2.report.state = .faultLatched)) ∨
    (r.1 = false ∧ SafeOffFailed r.2) := by
  cases target with
  | none => exact .inl ⟨rfl, rfl⟩
  | some stage =>
    simp only [requestValidation]
    by_cases hmaintenance : s.owner.isMaintenance = true
    · simp only [hmaintenance, if_true]
      exact .inr (.inl ⟨stage, _, rfl, rfl, trivial⟩)
    have howner : s.owner.isMaintenance = false := by simpa using hmaintenance
    simp only [howner, Bool.false_eq_true, if_false]
    -- both rejections that follow a blocked report stop the hardware
    have hrejected : ∀ detail reason,
        let r := (s.blockReport stage detail).stop reason answers.stopSafeOff
        (SafeOffProven r.2 ∧ r.2.owner = .none ∧
          (s.faultLatched = true → r.2.report.state = .faultLatched)) ∨ SafeOffFailed r.2 := by
      intro detail reason
      rcases stop_cases (s := s.blockReport stage detail) howner reason answers.stopSafeOff with
        ⟨s', heq, hproven, hnone, -, -, hstate⟩ | ⟨s', heq, hfailed⟩
      · rw [heq]; exact .inl ⟨hproven, hnone, hstate⟩
      · rw [heq]; exact .inr hfailed
    split
    · exact .inr (.inr (.inr ((hrejected _ _).imp_right fun h => ⟨rfl, h⟩)))
    next hfault =>
    split
    · exact .inr (.inr (.inr ((hrejected _ _).imp_right fun h => ⟨rfl, h⟩)))
    next hlease =>
    have hlatched : s.faultLatched = true → stage = .offSafe := by
      intro h
      by_contra hstage
      exact hfault ⟨h, hstage⟩
    have htaken : s.Takes (.requestValidation (some stage) localArm hold leaseMs nowMs answers) :=
      ⟨howner, hlatched, BitVec.not_lt.mp hlease⟩
    by_cases hnone : s.owner = .none
    · simp only [hnone, ne_eq, not_true_eq_false, if_false, Bool.true_eq_false]
      rcases s.runValidation_cases stage localArm hold leaseMs nowMs answers (by simpa using hlease)
        hlatched with hheld | hoff
      · exact .inr (.inr (.inl ⟨stage, rfl, htaken, hheld⟩))
      · exact .inr (.inr (.inr hoff))
    · simp only [hnone, ne_eq, not_false_eq_true, if_true]
      rcases stop_cases howner (some "replacing active validation") answers.stopSafeOff with
        ⟨s', heq, -, -, hfaulted, hconfig, -⟩ | ⟨s', heq, hfailed⟩
      · rw [heq, ← hfaulted]
        simp only [Bool.true_eq_false, if_false]
        rcases s'.runValidation_cases stage localArm hold leaseMs nowMs answers
          (by rw [hconfig]; simpa using hlease) (by rwa [hfaulted])
          with hheld | hoff
        · exact .inr (.inr (.inl ⟨stage, rfl, htaken, hheld⟩))
        · exact .inr (.inr (.inr hoff))
      · rw [heq]
        simp only [if_true]
        exact .inr (.inr (.inr (.inr ⟨trivial, hfailed⟩)))

/-- The states that acquiring or releasing ownership may leave. -/
theorem SafeOffProven.setOwner {s : BzmSupervisor} (h : SafeOffProven s)
    {owner : BzmSupervisorOwner} (howner : owner.isMaintenance = true ∨ owner = .none) :
    SafeOffProven { s with owner := owner } := by
  refine ⟨h.callback, h.energized, h.state, ?_⟩
  rcases howner with howner | rfl
  · cases owner <;> simp_all [leased, BzmSupervisorOwner.isMaintenance]
  · simp [leased]

theorem SafeOffProven.clearFault {s : BzmSupervisor} (h : SafeOffProven s) :
    SafeOffProven s.clearFault.2 := by
  unfold BzmSupervisor.clearFault
  split
  · exact h
  · exact ⟨h.callback, h.energized, .inl rfl, h.unleased⟩

theorem acquireMaintenance_effect (s : BzmSupervisor) (owner : BzmSupervisorOwner) (nowMs : U64)
    (answers : BzmSupervisorAnswers) :
    Effect s (.acquireMaintenance owner nowMs answers)
      (s.acquireMaintenance owner nowMs answers).2 := by
  unfold acquireMaintenance
  split
  · exact .unchanged
  next hguard =>
  simp only [not_or, Bool.not_eq_false, Bool.not_eq_true] at hguard
  have hgranted : ∀ c : Bool × BzmSupervisor, SafeOffProven c.2 →
      Effect s (.acquireMaintenance owner nowMs answers)
        (if c.1 = false then (false, c.2) else (true, { c.2 with owner := owner })).2 := by
    intro c hc
    split
    · exact .safeOff hc
    · exact .safeOff (hc.setOwner (.inl hguard.1))
  -- the fresh OFF_SAFE run and the stop both end with their safe-off
  have hoff : ∀ r : Bool × BzmSupervisor,
      (SafeOffProven r.2 ∨ (r.1 = false ∧ SafeOffFailed r.2)) →
      ∀ c : Bool × BzmSupervisor, c = (if r.2.faultLatched then r.2.clearFault else (true, r.2)) →
      Effect s (.acquireMaintenance owner nowMs answers)
        (if r.1 = false ∨ r.2.safeOffVerified = false then (false, r.2)
        else if c.1 = false then (false, c.2) else (true, { c.2 with owner := owner })).2 := by
    rintro r (hproven | ⟨hfalse, hfailed⟩) c rfl
    · split
      · exact .safeOff hproven
      · refine hgranted _ ?_
        split
        · exact hproven.clearFault
        · exact hproven
    · simp only [hfalse, true_or, if_true]
      exact .safeOffFailed hfailed
  by_cases hnone : s.owner = .none
  · simp only [hnone, if_true]
    refine hoff _ ?_ _ rfl
    rcases s.requestValidation_cases (some .offSafe) false false 0 nowMs answers with
      ⟨-, hnone⟩ | ⟨stage, detail, -, -, hmaintenance⟩ | ⟨stage, -, -, -, hhold, -⟩ |
        ⟨hproven, -⟩ |
        hfailed
    · cases hnone
    · rw [hguard.2] at hmaintenance
      cases hmaintenance
    · cases hhold
    · exact .inl hproven
    · exact .inr hfailed
  · simp only [hnone, if_false]
    refine hoff _ ?_ _ rfl
    rcases stop_cases hguard.2 (some "maintenance requested") answers.stopSafeOff with
      ⟨s', heq, hproven, -⟩ | ⟨s', heq, hfailed⟩
    · rw [heq]; exact .inl hproven
    · rw [heq]; exact .inr ⟨rfl, hfailed⟩

theorem latchFault_effect (s : BzmSupervisor) (faultCode : U32) (detail : Option String)
    (safeOff : BzmStageResult) :
    Effect s (.latchFault faultCode detail safeOff) (s.latchFault faultCode detail safeOff).2 := by
  unfold latchFault
  split
  · exact .unchanged
  simp only
  generalize ({ (if s.faultLatched then s else
    ({ s with faultCode := faultCode }).setFaultDetail detail) with faultLatched := true }) = t
  rcases t.stopInternal_cases detail true safeOff with ⟨-, h, -⟩ | ⟨s', heq, hproven, -⟩ |
    ⟨s', heq, hfailed, -⟩
  · cases h
  · rw [heq]
    exact .safeOff ⟨hproven.callback, hproven.energized, .inr rfl, hproven.unleased⟩
  · rw [heq]
    exact .safeOffFailed
      ⟨hfailed.callback, hfailed.energized, hfailed.state, hfailed.owner, hfailed.faultLatched⟩

theorem releaseMaintenance_effect (s : BzmSupervisor) (owner : BzmSupervisorOwner)
    (safeOff : BzmStageResult) :
    Effect s (.releaseMaintenance owner safeOff) (s.releaseMaintenance owner safeOff).2 := by
  unfold releaseMaintenance
  split
  · exact .unchanged
  rcases s.stopInternal_cases (some "maintenance released") true safeOff with ⟨-, h, -⟩ |
    ⟨s', heq, hproven, hnone, -⟩ | ⟨s', heq, hfailed, -⟩
  · cases h
  · rw [heq]
    simp only [Bool.and_true]
    split
    · exact .safeOff ⟨hproven.callback, hproven.energized, hproven.state, by simp [leased]⟩
    · exact .safeOff (hproven.setOwner (.inr rfl))
  · rw [heq]
    simp only [Bool.and_false, Bool.false_eq_true, if_false]
    exact .safeOffFailed
      ⟨hfailed.callback, hfailed.energized, hfailed.state, rfl, hfailed.faultLatched⟩

theorem prepareRestart_effect (s : BzmSupervisor) (safeOff : BzmStageResult) :
    Effect s (.prepareRestart safeOff) (s.prepareRestart safeOff).2 := by
  unfold prepareRestart
  split
  · exact .unchanged
  next howner =>
  rcases stop_cases (by simpa using howner) (some "ESP restart requested") safeOff with
    ⟨s', heq, hproven, -⟩ | ⟨s', heq, hfailed⟩
  · rw [heq]
    simp only [Bool.true_eq_false, false_or]
    split
    · exact .safeOff hproven
    · exact .safeOff (hproven.setOwner (.inl rfl))
  · rw [heq]
    exact .safeOffFailed hfailed

/-- A plain stop is refused to maintenance owners and otherwise reaches its safe-off. -/
theorem stop_effect (s : BzmSupervisor) (op : BzmSupervisorOp) (reason : Option String)
    (safeOff : BzmStageResult) : Effect s op (s.stop reason safeOff).2 := by
  rcases s.stopInternal_cases reason false safeOff with ⟨heq, -⟩ | ⟨s', heq, hproven, -⟩ |
    ⟨s', heq, hfailed, -⟩
  · rw [stop, heq]; exact .unchanged
  · rw [stop, heq]; exact .safeOff hproven
  · rw [stop, heq]; exact .safeOffFailed hfailed

/-- **One operation.**  Whatever the callbacks answer, an operation has one of
the listed effects. -/
theorem step_effect (s : BzmSupervisor) (op : BzmSupervisorOp) : Effect s op (s.step op) := by
  cases op with
  | requestValidation target localArm hold leaseMs nowMs answers =>
    simp only [step]
    rcases s.requestValidation_cases target localArm hold leaseMs nowMs answers with
      ⟨heq, -⟩ | ⟨stage, detail, heq, rfl, howner⟩ | ⟨stage, rfl, htaken, hheld, rfl, hpowered⟩ |
        ⟨hproven, -⟩ | ⟨-, hfailed⟩
    · rw [heq]; exact .unchanged
    · rw [heq]; exact .blocked stage detail rfl howner
    · refine .held stage nowMs leaseMs hheld ?_ htaken
      rw [hheld.deadline]
      simp [BzmSupervisorOp.deadline, hpowered]
    · exact .safeOff hproven
    · exact .safeOffFailed hfailed
  | stop reason safeOff => exact s.stop_effect _ reason safeOff
  | tick nowMs safeOff =>
    simp only [step, tick]
    split
    · exact s.stop_effect _ _ safeOff
    · exact .unchanged
  | heartbeat leaseMs nowMs =>
    simp only [step, heartbeat]
    split
    · exact .unchanged
    · next hguard =>
      simp only [not_or, not_not, BitVec.not_lt, BitVec.not_le] at hguard
      exact .renewed nowMs leaseMs hguard.1 hguard.2.1 hguard.2.2.2.1 rfl
        ⟨hguard.1, hguard.2.1, hguard.2.2⟩
  | latchFault faultCode detail safeOff => exact s.latchFault_effect faultCode detail safeOff
  | clearFault =>
    simp only [step, clearFault]
    split
    · exact .unchanged
    · next hguard =>
      simp only [not_or, Bool.not_eq_false] at hguard
      exact .faultCleared hguard.1 hguard.2.2
  | acquireMaintenance owner nowMs answers => exact s.acquireMaintenance_effect owner nowMs answers
  | acquireBridgeRecovery =>
    simp only [step, acquireBridgeRecovery]
    split
    · exact .unchanged
    · next hguard =>
      simp only [not_or, not_not, Bool.not_eq_false] at hguard
      exact .bridgeRecovery hguard.1 hguard.2.1 hguard.2.2
  | releaseMaintenance owner safeOff => exact s.releaseMaintenance_effect owner safeOff
  | prepareRestart safeOff => exact s.prepareRestart_effect safeOff

end BzmSupervisor

end EspMiner
