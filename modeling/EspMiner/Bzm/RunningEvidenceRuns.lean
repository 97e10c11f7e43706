import EspMiner.Bzm.RunningEvidence

/-!
# How long GOOD evidence is retained

The elapsed time decides nothing in an evaluation but whether pending evidence is
answered PENDING or BAD.  After the first GOOD a pending call starts the recovery
clock unless it runs already, and only new proof starts it again: so the clock of
a pending call never started after an earlier pending call without new proof in
between.
-/

namespace EspMiner

open Library

/-! ### Evaluations at different times -/

section Evaluate

variable {baseline current : BzmRunningStats} {config : BzmRunningEvidenceConfig}

/-- The verdict on the counters alone. -/
def evidenceStatus (config : BzmRunningEvidenceConfig) (baseline current : BzmRunningStats) :
    BzmRunningEvidenceStatus :=
  (bzmRunningEvidenceEvaluate baseline current config 0).status

/-- A status at a later time: pending evidence has timed out or not. -/
def BzmRunningEvidenceStatus.after (status : BzmRunningEvidenceStatus) (timeoutMs : U32)
    (elapsedMs : U64) : BzmRunningEvidenceStatus :=
  if status = .pending ∧ timeoutMs.setWidth 64 ≤ elapsedMs then .bad else status

@[simp] theorem resultWith_status (status : BzmRunningEvidenceStatus)
    (fault : BzmRunningEvidenceFault) (observed : Option BzmRunningStats) (elapsedMs : U64)
    (detail : String) : (resultWith status fault observed elapsedMs detail).status = status := rfl

@[simp] theorem resultWith_observed (status : BzmRunningEvidenceStatus)
    (fault : BzmRunningEvidenceFault) (observed : BzmRunningStats) (elapsedMs : U64)
    (detail : String) :
    (resultWith status fault (some observed) elapsedMs detail).observed = observed := rfl

theorem pendingUntilTimeout_status (fault : BzmRunningEvidenceFault) (observed : BzmRunningStats)
    (elapsedMs : U64) (detail : String) :
    (pendingUntilTimeout config fault observed elapsedMs detail).status =
      BzmRunningEvidenceStatus.after .pending config.proofTimeoutMs elapsedMs := by
  unfold pendingUntilTimeout BzmRunningEvidenceStatus.after
  by_cases h : config.proofTimeoutMs.setWidth 64 ≤ elapsedMs <;> simp [h]

/-- A configuration that is not refused has timeouts. -/
theorem BzmRunningEvidenceConfig.timeouts_of_valid (h : config.isInvalid = false) :
    config.proofTimeoutMs ≠ 0 ∧ config.recoveryTimeoutMs ≠ 0 := by
  simp only [isInvalid, Bool.or_eq_false_iff, decide_eq_false_iff_not] at h
  exact ⟨h.1.1.1.2, h.1.1.2⟩

theorem not_timedOut_zero {timeoutMs : U32} (h : timeoutMs ≠ 0) :
    ¬ timeoutMs.setWidth 64 ≤ (0 : U64) := by
  intro hle
  apply h
  have hzero : (timeoutMs.setWidth 64).toNat ≤ 0 := hle
  rw [BitVec.toNat_setWidth] at hzero
  have := timeoutMs.isLt
  apply BitVec.eq_of_toNat_eq
  change timeoutMs.toNat = 0
  omega

/-- **Time and evidence.**  With another timeout, and later, an evaluation has
the same status, unless it was pending and has timed out. -/
theorem evaluate_status (baseline current : BzmRunningStats)
    (hvalid : config.isInvalid = false) {timeoutMs : U32}
    (htimeout : timeoutMs ≠ 0) (elapsedMs : U64) :
    (bzmRunningEvidenceEvaluate baseline current { config with proofTimeoutMs := timeoutMs }
        elapsedMs).status =
      (evidenceStatus config baseline current).after timeoutMs elapsedMs := by
  have hvalid' : ({ config with proofTimeoutMs := timeoutMs }).isInvalid = false := by
    simp only [BzmRunningEvidenceConfig.isInvalid, Bool.or_eq_false_iff,
      decide_eq_false_iff_not] at hvalid ⊢
    exact ⟨⟨⟨⟨hvalid.1.1.1.1, htimeout⟩, hvalid.1.1.2⟩, hvalid.1.2⟩, hvalid.2⟩
  have hproof := not_timedOut_zero (BzmRunningEvidenceConfig.timeouts_of_valid hvalid).1
  have hpending (fault : BzmRunningEvidenceFault) (observed : BzmRunningStats)
      (detail detail' : String) :
      (pendingUntilTimeout { config with proofTimeoutMs := timeoutMs } fault observed elapsedMs
          detail).status =
        (pendingUntilTimeout config fault observed 0 detail').status.after timeoutMs elapsedMs := by
    have hzero : BzmRunningEvidenceStatus.after .pending config.proofTimeoutMs 0 = .pending :=
      if_neg fun h => hproof h.2
    rw [pendingUntilTimeout_status, pendingUntilTimeout_status, hzero]
  have hbad : BzmRunningEvidenceStatus.after .bad timeoutMs elapsedMs = .bad := by
    simp [BzmRunningEvidenceStatus.after]
  have hgood : BzmRunningEvidenceStatus.after .good timeoutMs elapsedMs = .good := by
    simp [BzmRunningEvidenceStatus.after]
  unfold evidenceStatus bzmRunningEvidenceEvaluate
  rw [hvalid, hvalid']
  simp only [Bool.false_eq_true, if_false]
  split
  · exact hbad.symm
  · split
    · exact hbad.symm
    · split
      · exact hbad.symm
      · split
        · exact hpending _ _ _ _
        · split
          · exact hpending _ _ _ _
          · change (if proofRequirementsMet (subtractStats current baseline) config = true then _
              else _ : BzmRunningEvidenceResult).status = _
            split
            · exact hgood.symm
            · exact hpending _ _ _ _

/-- Pending or good evidence comes with the differences of the counters. -/
theorem evaluate_observed {elapsedMs : U64} :
    (bzmRunningEvidenceEvaluate baseline current config elapsedMs).status ≠ .bad →
      (bzmRunningEvidenceEvaluate baseline current config elapsedMs).observed =
        subtractStats current baseline ∧ config.isInvalid = false := by
  have hpending (fault : BzmRunningEvidenceFault) (detail : String) :
      (pendingUntilTimeout config fault (subtractStats current baseline) elapsedMs
        detail).observed = subtractStats current baseline := by
    unfold pendingUntilTimeout
    split <;> rfl
  unfold bzmRunningEvidenceEvaluate
  split
  · exact fun h => absurd rfl h
  · next hvalid =>
    have hvalid' : config.isInvalid = false := by simpa using hvalid
    split
    · exact fun h => absurd rfl h
    · simp only
      split
      · exact fun h => absurd rfl h
      · split
        · exact fun h => absurd rfl h
        · split
          · exact fun _ => ⟨hpending _ _, hvalid'⟩
          · split
            · exact fun _ => ⟨hpending _ _, hvalid'⟩
            · split
              · exact fun _ => ⟨rfl, hvalid'⟩
              · exact fun _ => ⟨hpending _ _, hvalid'⟩

end Evaluate

/-! ### Calls -/

/-- The arguments of one call of `bzm_running_evidence_track`. -/
structure EvidenceCall where
  baseline : BzmRunningStats
  current : BzmRunningStats
  startedAtMs : U64
  nowMs : U64
deriving DecidableEq

namespace EvidenceCall

/-- The verdict of a direct evaluation of the counters of a call. -/
def evidence (config : BzmRunningEvidenceConfig) (call : EvidenceCall) :
    BzmRunningEvidenceStatus := evidenceStatus config call.baseline call.current

/-- The locally valid results that a call observes. -/
def validResults (call : EvidenceCall) : U64 :=
  (subtractStats call.current call.baseline).locallyValidResults

/-- A call that sees no new proof: neither more valid results than the call
before it nor GOOD evidence. -/
def SeesNoProof (config : BzmRunningEvidenceConfig) (previous call : EvidenceCall) : Prop :=
  call.validResults ≤ previous.validResults ∧ call.evidence config ≠ .good

end EvidenceCall

/-- A call with its answer. -/
structure EvidenceAnswer where
  call : EvidenceCall
  status : BzmRunningEvidenceStatus
deriving DecidableEq

/-! ### One call -/

/-- The status and the lifecycle after one call. -/
def EvidenceCall.track (config : BzmRunningEvidenceConfig) (lifecycle : BzmRunningEvidenceLifecycle)
    (call : EvidenceCall) : BzmRunningEvidenceStatus × BzmRunningEvidenceLifecycle :=
  let answer := bzmRunningEvidenceTrack lifecycle call.baseline call.current config
    call.startedAtMs call.nowMs
  (answer.1.status, answer.2)

section Track

variable {config : BzmRunningEvidenceConfig} {lifecycle : BzmRunningEvidenceLifecycle}
  {call : EvidenceCall}


/-- Counters that are BAD at once. -/
theorem track_of_bad (h : call.evidence config = .bad) :
    call.track config lifecycle = (.bad, lifecycle) := by
  have hstatus : (bzmRunningEvidenceEvaluate call.baseline call.current config 0).status = .bad := h
  simp only [EvidenceCall.track, bzmRunningEvidenceTrack]
  rw [if_pos hstatus]
  exact congrArg (·, lifecycle) hstatus

/-- Counters that are not BAD at once show their differences. -/
theorem observed_of_not_bad (h : call.evidence config ≠ .bad) :
    (bzmRunningEvidenceEvaluate call.baseline call.current config 0).observed =
        subtractStats call.current call.baseline ∧ config.isInvalid = false :=
  evaluate_observed h

/-- What a call before the first GOOD does. -/
theorem track_before_good (h : call.evidence config ≠ .bad)
    (hfirst : lifecycle.completedOnce = false) :
    (config.proofTimeoutMs.setWidth 64 ≤ elapsedSince call.startedAtMs call.nowMs →
      call.track config lifecycle = (.bad, lifecycle)) ∧
    ((call.track config lifecycle).1 = .good ∧
        (call.track config lifecycle).2.completedOnce = true ∧
        (call.evidence config = .good ∧
            (call.track config lifecycle).2.recoveryActive = false ∨
          (call.track config lifecycle).2 = ⟨true, true, call.nowMs, call.validResults⟩) ∨
      (call.track config lifecycle).1 ≠ .good ∧ (call.track config lifecycle).2 = lifecycle) := by
  obtain ⟨hobserved, hvalid⟩ := observed_of_not_bad h
  have htimeouts := BzmRunningEvidenceConfig.timeouts_of_valid hvalid
  have hlater := evaluate_status call.baseline call.current hvalid
    htimeouts.1 (elapsedSince call.startedAtMs call.nowMs)
  have hnot : ¬ (bzmRunningEvidenceEvaluate call.baseline call.current config 0).status = .bad := h
  simp only [EvidenceCall.track, bzmRunningEvidenceTrack, if_neg hnot, if_pos hfirst,
    trackFirstProof]
  refine ⟨fun htimeout => ?_, ?_⟩
  · rw [if_pos htimeout]
    rfl
  · split
    · exact .inr ⟨by simp, rfl⟩
    · next hearly =>
      split
      · next hgood => exact .inl ⟨hgood, rfl, .inl ⟨hgood, rfl⟩⟩
      · next hgood =>
        split
        · refine .inl ⟨rfl, rfl, .inr ?_⟩
          rw [hobserved]
          rfl
        · refine .inr ⟨?_, rfl⟩
          change (bzmRunningEvidenceEvaluate call.baseline call.current
            { config with proofTimeoutMs := config.proofTimeoutMs } _).status ≠ _
          rw [hlater, BzmRunningEvidenceStatus.after]
          split
          · simp
          · exact hgood

/-- What a call after the first GOOD does on good evidence. -/
theorem track_good (h : call.evidence config = .good)
    (hcompleted : lifecycle.completedOnce = true) :
    (call.track config lifecycle).1 = .good ∧
      (call.track config lifecycle).2.completedOnce = true ∧
      (call.track config lifecycle).2.recoveryActive = false := by
  have hgood : (bzmRunningEvidenceEvaluate call.baseline call.current config 0).status = .good := h
  have hnotBad : ¬ (bzmRunningEvidenceEvaluate call.baseline call.current config 0).status =
      .bad := by
    rw [hgood]
    simp
  simp only [EvidenceCall.track, bzmRunningEvidenceTrack]
  rw [if_neg hnotBad, if_neg (by simp [hcompleted]), if_pos hgood]
  exact ⟨hgood, hcompleted, rfl⟩

/-- What a call after the first GOOD does on pending evidence: it may start the
recovery clock, and answers by it. -/
theorem track_pending (h : call.evidence config = .pending)
    (hcompleted : lifecycle.completedOnce = true) :
    call.track config lifecycle =
      (if config.recoveryTimeoutMs.setWidth 64 ≤ elapsedSince
            (trackRecoveryClock lifecycle (subtractStats call.current call.baseline)
              call.nowMs).recoveryStartedAtMs call.nowMs
          then .bad else .good,
        trackRecoveryClock lifecycle (subtractStats call.current call.baseline) call.nowMs) := by
  have hpending : (bzmRunningEvidenceEvaluate call.baseline call.current config 0).status =
    .pending := h
  have hshown : call.evidence config ≠ .bad := by
    rw [h]
    simp
  obtain ⟨hobserved, hvalid⟩ := observed_of_not_bad hshown
  have htimeouts := BzmRunningEvidenceConfig.timeouts_of_valid hvalid
  have hnotBad : ¬ (bzmRunningEvidenceEvaluate call.baseline call.current config 0).status =
      .bad := by
    rw [hpending]
    simp
  have hnotGood : ¬ (bzmRunningEvidenceEvaluate call.baseline call.current config 0).status =
      .good := by
    rw [hpending]
    simp
  simp only [EvidenceCall.track, bzmRunningEvidenceTrack]
  rw [if_neg hnotBad, if_neg (by simp [hcompleted]), if_neg hnotGood, hobserved]
  generalize trackRecoveryClock lifecycle (subtractStats call.current call.baseline)
    call.nowMs = clock
  refine congrArg (·, clock) ?_
  have hlater := evaluate_status call.baseline call.current hvalid
    htimeouts.2 (elapsedSince clock.recoveryStartedAtMs call.nowMs)
  rw [evidenceStatus, hpending, BzmRunningEvidenceStatus.after] at hlater
  simp only [trackRecovery, hlater, true_and]
  split <;> simp_all

end Track

/-! ### Sequences of calls -/

/-- A lifecycle with the calls so far, newest first. -/
structure EvidenceRun where
  lifecycle : BzmRunningEvidenceLifecycle
  trace : List EvidenceAnswer

namespace EvidenceRun

def init : EvidenceRun := ⟨.init, []⟩

def track (config : BzmRunningEvidenceConfig) (s : EvidenceRun) (call : EvidenceCall) :
    EvidenceRun :=
  let (status, lifecycle) := call.track config s.lifecycle
  ⟨lifecycle, ⟨call, status⟩ :: s.trace⟩

theorem track_eq (config : BzmRunningEvidenceConfig) (s : EvidenceRun) (call : EvidenceCall) :
    s.track config call = ⟨(call.track config s.lifecycle).2,
      ⟨call, (call.track config s.lifecycle).1⟩ :: s.trace⟩ := rfl

end EvidenceRun

/-- Some answer was GOOD. -/
def AnsweredGood (trace : List EvidenceAnswer) : Prop := ∃ answer ∈ trace, answer.status = .good

/-- The newest call and the calls before it, back to one behind `first`, see no
new proof. -/
def NoProofSince (config : BzmRunningEvidenceConfig) (first : EvidenceAnswer) :
    List EvidenceAnswer → Prop
  | [] => True
  | answer :: older =>
      EvidenceCall.SeesNoProof config (older.headD first).call answer.call ∧
        NoProofSince config first older

/-- What every call of a lifecycle answers.  `first` is an earlier call that had
pending evidence after the first GOOD, or with it. -/
structure EvidenceSound (config : BzmRunningEvidenceConfig) (answer : EvidenceAnswer)
    (older : List EvidenceAnswer) : Prop where
  deadline : ¬ AnsweredGood older →
    answer.call.startedAtMs.toNat + config.proofTimeoutMs.toNat ≤ answer.call.nowMs.toNat →
    answer.status = .bad
  notPending : AnsweredGood older → answer.status ≠ .pending
  recovery : ∀ newer first earlier, older = newer ++ first :: earlier →
    AnsweredGood (first :: earlier) → first.call.evidence config = .pending →
    NoProofSince config first (answer :: newer) → answer.call.evidence config = .pending →
    first.call.nowMs.toNat + config.recoveryTimeoutMs.toNat ≤ answer.call.nowMs.toNat →
    answer.status = .bad

/-- The recovery clock runs since `firstMs` or longer, and only more than
`validResults` would start it again. -/
def ClockRuns (lifecycle : BzmRunningEvidenceLifecycle) (firstMs validResults : U64) : Prop :=
  lifecycle.recoveryActive = true ∧ lifecycle.recoveryStartedAtMs ≤ firstMs ∧
    validResults ≤ lifecycle.lastLocallyValidResults

/-- The invariant of a lifecycle. -/
structure EvidenceInv (config : BzmRunningEvidenceConfig) (s : EvidenceRun) : Prop where
  completed : s.lifecycle.completedOnce = true ↔ AnsweredGood s.trace
  started_le : s.lifecycle.recoveryActive = true →
    ∀ answer ∈ s.trace.head?, s.lifecycle.recoveryStartedAtMs ≤ answer.call.nowMs
  active : s.lifecycle.recoveryActive = true → s.lifecycle.completedOnce = true
  recovery : ∀ newer first earlier, s.trace = newer ++ first :: earlier →
    AnsweredGood (first :: earlier) → first.call.evidence config = .pending →
    NoProofSince config first newer →
      ClockRuns s.lifecycle first.call.nowMs (newer.headD first).call.validResults

/-- The clock does not go back. -/
def ClockMonotone (calls : List EvidenceCall) : Prop :=
  calls.Pairwise fun earlier later => earlier.nowMs ≤ later.nowMs

theorem answeredGood_cons {answer : EvidenceAnswer} {trace : List EvidenceAnswer} :
    AnsweredGood (answer :: trace) ↔ answer.status = .good ∨ AnsweredGood trace := by
  simp [AnsweredGood]

/-- A running clock has not timed out too late. -/
theorem recoveryTimedOut {startedAtMs firstMs nowMs : U64} {timeoutMs : U32}
    (hstarted : startedAtMs ≤ firstMs) (hlate : firstMs.toNat + timeoutMs.toNat ≤ nowMs.toNat) :
    timeoutMs.setWidth 64 ≤ elapsedSince startedAtMs nowMs := by
  have hstartedNat : startedAtMs.toNat ≤ firstMs.toNat := hstarted
  have hsize := timeoutMs.isLt
  have hle : startedAtMs ≤ nowMs := by
    rw [BitVec.le_def]
    omega
  rw [elapsedSince, if_pos hle, BitVec.le_def, BitVec.toNat_sub_of_le hle, BitVec.toNat_setWidth]
  omega

section Step

variable {config : BzmRunningEvidenceConfig} {s : EvidenceRun} {call : EvidenceCall}

/-- The clock before a call that saw no new proof. -/
theorem EvidenceInv.clockRuns (h : EvidenceInv config s) {newer : List EvidenceAnswer}
    {first : EvidenceAnswer} {earlier : List EvidenceAnswer}
    (htrace : s.trace = newer ++ first :: earlier) (hgood : AnsweredGood (first :: earlier))
    (hfirst : first.call.evidence config = .pending) {status : BzmRunningEvidenceStatus}
    (hquiet : NoProofSince config first (⟨call, status⟩ :: newer)) :
    ClockRuns s.lifecycle first.call.nowMs call.validResults := by
  obtain ⟨⟨hvalid, -⟩, hrest⟩ := hquiet
  obtain ⟨hactive, hstarted, hlast⟩ := h.recovery newer first earlier htrace hgood hfirst hrest
  exact ⟨hactive, hstarted, BitVec.le_trans hvalid hlast⟩

/-- The clause of the invariant about the clock, for one more call. -/
theorem EvidenceInv.recovery_cons (h : EvidenceInv config s) {status : BzmRunningEvidenceStatus}
    {lifecycle : BzmRunningEvidenceLifecycle}
    (hself : call.evidence config = .pending → (status = .good ∨ AnsweredGood s.trace) →
      ClockRuns lifecycle call.nowMs call.validResults)
    (hkeep : ∀ firstMs, call.evidence config ≠ .good → AnsweredGood s.trace →
      ClockRuns s.lifecycle firstMs call.validResults →
        ClockRuns lifecycle firstMs call.validResults)
    {newer : List EvidenceAnswer} {first : EvidenceAnswer} {earlier : List EvidenceAnswer}
    (htrace : (⟨call, status⟩ : EvidenceAnswer) :: s.trace = newer ++ first :: earlier)
    (hgood : AnsweredGood (first :: earlier)) (hfirst : first.call.evidence config = .pending)
    (hquiet : NoProofSince config first newer) :
    ClockRuns lifecycle first.call.nowMs (newer.headD first).call.validResults := by
  cases newer with
  | nil =>
    obtain ⟨rfl, rfl⟩ := List.cons.inj htrace
    exact hself hfirst (answeredGood_cons.mp hgood)
  | cons answer newer =>
    obtain ⟨rfl, hrest⟩ := List.cons.inj htrace
    have hbefore : AnsweredGood s.trace := by
      obtain ⟨good, hmem, hstatus⟩ := hgood
      refine ⟨good, ?_, hstatus⟩
      rw [hrest]
      exact List.mem_append_right newer hmem
    exact hkeep _ hquiet.1.2 hbefore (h.clockRuns hrest hgood hfirst hquiet)

/-- The newest call came after the clock started. -/
theorem EvidenceInv.started_le_now (h : EvidenceInv config s)
    (hclock : ∀ answer ∈ s.trace, answer.call.nowMs ≤ call.nowMs)
    (hactive : s.lifecycle.recoveryActive = true) :
    s.lifecycle.recoveryStartedAtMs ≤ call.nowMs := by
  obtain ⟨good, hgood, -⟩ := h.completed.mp (h.active hactive)
  obtain ⟨head, older, htrace⟩ := List.exists_cons_of_ne_nil (List.ne_nil_of_mem hgood)
  have hstarted := h.started_le hactive head (by rw [htrace]; rfl)
  exact BitVec.le_trans hstarted (hclock head (by rw [htrace]; exact List.mem_cons_self))

/-- A call without new proof leaves the clock alone. -/
theorem trackRecoveryClock_of_quiet {lifecycle : BzmRunningEvidenceLifecycle}
    {observed : BzmRunningStats} (hactive : lifecycle.recoveryActive = true)
    (hvalid : observed.locallyValidResults ≤ lifecycle.lastLocallyValidResults) (nowMs : U64) :
    trackRecoveryClock lifecycle observed nowMs =
      { lifecycle with lastLocallyValidResults := observed.locallyValidResults } := by
  simp only [trackRecoveryClock]
  rw [if_neg]
  rintro (hidle | hlt)
  · rw [hactive] at hidle
    cases hidle
  · exact BitVec.not_lt.mpr hvalid hlt

/-- A call that changes nothing and does not answer GOOD. -/
theorem EvidenceInv.unchanged (h : EvidenceInv config s) {status : BzmRunningEvidenceStatus}
    (hstatus : status ≠ .good)
    (hclock : ∀ answer ∈ s.trace, answer.call.nowMs ≤ call.nowMs)
    (hidle : call.evidence config = .pending → ¬ AnsweredGood s.trace) :
    EvidenceInv config ⟨s.lifecycle, ⟨call, status⟩ :: s.trace⟩ := by
  refine ⟨?_, ?_, h.active, ?_⟩
  · rw [answeredGood_cons, h.completed]
    simp [hstatus]
  · intro hactive answer hanswer
    obtain rfl := Option.some.inj hanswer
    exact h.started_le_now hclock hactive
  · intro newer first earlier htrace hgood hfirst hquiet
    refine h.recovery_cons ?_ (fun _ _ _ hruns => hruns) htrace hgood hfirst hquiet
    rintro hpending (hgoodNow | hgoodBefore)
    · exact absurd hgoodNow hstatus
    · exact absurd hgoodBefore (hidle hpending)

/-- A call after the first GOOD keeps the invariant. -/
theorem EvidenceInv.track_completed (h : EvidenceInv config s)
    (hcompleted : s.lifecycle.completedOnce = true)
    (hclock : ∀ answer ∈ s.trace, answer.call.nowMs ≤ call.nowMs) :
    EvidenceInv config (s.track config call) := by
  have hgoodBefore := h.completed.mp hcompleted
  cases hevidence : call.evidence config with
  | bad =>
    simp only [EvidenceRun.track, track_of_bad hevidence]
    exact h.unchanged (by simp) hclock (by simp [hevidence])
  | good =>
    obtain ⟨hstatus, hcompleted', hidle⟩ := track_good hevidence hcompleted
    refine ⟨?_, ?_, fun _ => hcompleted', ?_⟩
    · exact iff_of_true hcompleted' (answeredGood_cons.mpr (.inl hstatus))
    · intro hactive
      change (call.track config s.lifecycle).2.recoveryActive = true at hactive
      rw [hidle] at hactive
      cases hactive
    · intro newer first earlier htrace hgood hfirst hquiet
      refine h.recovery_cons ?_ ?_ htrace hgood hfirst hquiet
      · intro hpending
        rw [hevidence] at hpending
        cases hpending
      · exact fun _ hnot => absurd hevidence hnot
  | pending =>
    have htrack := track_pending hevidence hcompleted
    have hlast : (trackRecoveryClock s.lifecycle (subtractStats call.current call.baseline)
        call.nowMs).lastLocallyValidResults = call.validResults := rfl
    have hstate : (trackRecoveryClock s.lifecycle (subtractStats call.current call.baseline)
          call.nowMs).completedOnce = true ∧
        (trackRecoveryClock s.lifecycle (subtractStats call.current call.baseline)
          call.nowMs).recoveryActive = true ∧
        (trackRecoveryClock s.lifecycle (subtractStats call.current call.baseline)
          call.nowMs).recoveryStartedAtMs ≤ call.nowMs := by
      simp only [trackRecoveryClock]
      split
      · exact ⟨hcompleted, rfl, BitVec.le_refl _⟩
      · next hruns =>
        simp only [not_or, Bool.not_eq_false] at hruns
        exact ⟨hcompleted, hruns.1, h.started_le_now hclock hruns.1⟩
    simp only [EvidenceRun.track, htrack]
    refine ⟨?_, ?_, fun _ => hstate.1, ?_⟩
    · exact iff_of_true hstate.1 (answeredGood_cons.mpr (.inr hgoodBefore))
    · intro _ answer hanswer
      obtain rfl := Option.some.inj hanswer
      exact hstate.2.2
    · intro newer first earlier htrace hgood hfirst hquiet
      refine h.recovery_cons ?_ ?_ htrace hgood hfirst hquiet
      · exact fun _ _ => ⟨hstate.2.1, hstate.2.2, BitVec.le_of_eq hlast.symm⟩
      · rintro firstMs - - ⟨hactive, hstarted, hvalid⟩
        rw [trackRecoveryClock_of_quiet hactive hvalid]
        exact ⟨hactive, hstarted, BitVec.le_refl _⟩

/-- A call before the first GOOD keeps the invariant. -/
theorem EvidenceInv.track_first (h : EvidenceInv config s)
    (hfirst : s.lifecycle.completedOnce = false)
    (hclock : ∀ answer ∈ s.trace, answer.call.nowMs ≤ call.nowMs) :
    EvidenceInv config (s.track config call) := by
  have hnone : ¬ AnsweredGood s.trace := fun hgood => by
    rw [h.completed.mpr hgood] at hfirst
    cases hfirst
  by_cases hevidence : call.evidence config = .bad
  · simp only [EvidenceRun.track, track_of_bad hevidence]
    exact h.unchanged (by simp) hclock fun _ => hnone
  · obtain ⟨-, ⟨hstatus, hcompleted, hstate⟩ | ⟨hstatus, hsame⟩⟩ :=
      track_before_good hevidence hfirst
    · refine ⟨?_, ?_, fun _ => hcompleted, ?_⟩
      · exact iff_of_true hcompleted (answeredGood_cons.mpr (.inl hstatus))
      · intro hactive answer hanswer
        obtain rfl := Option.some.inj hanswer
        change (call.track config s.lifecycle).2.recoveryActive = true at hactive
        change (call.track config s.lifecycle).2.recoveryStartedAtMs ≤ call.nowMs
        rcases hstate with ⟨-, hidle⟩ | hstarted
        · rw [hidle] at hactive
          cases hactive
        · rw [hstarted]
          exact BitVec.le_refl _
      · intro newer first earlier htrace hgood hfirst hquiet
        refine h.recovery_cons ?_ ?_ htrace hgood hfirst hquiet
        · intro hpending _
          change ClockRuns (call.track config s.lifecycle).2 call.nowMs call.validResults
          rcases hstate with ⟨hgoodEvidence, -⟩ | hstarted
          · rw [hgoodEvidence] at hpending
            cases hpending
          · rw [hstarted]
            exact ⟨rfl, BitVec.le_refl _, BitVec.le_refl _⟩
        · exact fun _ _ hgood => absurd hgood hnone
    · have hrun : s.track config call =
          ⟨s.lifecycle, ⟨call, (call.track config s.lifecycle).1⟩ :: s.trace⟩ := by
        rw [EvidenceRun.track_eq, hsame]
      rw [hrun]
      exact h.unchanged hstatus hclock fun _ => hnone

/-- What one call answers. -/
theorem EvidenceInv.sound (h : EvidenceInv config s) :
    EvidenceSound config ⟨call, (call.track config s.lifecycle).1⟩ s.trace := by
  constructor
  · intro hnone hlate
    by_cases hevidence : call.evidence config = .bad
    · rw [track_of_bad hevidence]
    · have hfirst : s.lifecycle.completedOnce = false := by
        simpa using fun hcompleted => hnone (h.completed.mp hcompleted)
      have htimeout : config.proofTimeoutMs.setWidth 64 ≤
          elapsedSince call.startedAtMs call.nowMs :=
        recoveryTimedOut (BitVec.le_refl _) hlate
      rw [(track_before_good hevidence hfirst).1 htimeout]
  · intro hgood
    have hcompleted := h.completed.mpr hgood
    cases hevidence : call.evidence config with
    | bad => simp [track_of_bad hevidence]
    | good => simp [(track_good hevidence hcompleted).1]
    | pending =>
      rw [track_pending hevidence hcompleted]
      dsimp only
      split <;> simp
  · intro newer first earlier htrace hgood hfirst hquiet hevidence hlate
    have hbefore : AnsweredGood s.trace := by
      obtain ⟨good, hmem, hstatus⟩ := hgood
      refine ⟨good, ?_, hstatus⟩
      rw [htrace]
      exact List.mem_append_right newer hmem
    obtain ⟨hactive, hstarted, hvalid⟩ := h.clockRuns htrace hgood hfirst hquiet
    rw [track_pending hevidence (h.completed.mpr hbefore),
      trackRecoveryClock_of_quiet hactive hvalid]
    exact if_pos (recoveryTimedOut hstarted hlate)

end Step

/-! ### Whole sequences -/

/-- The lifecycle after a sequence of calls. -/
def evidenceRun (config : BzmRunningEvidenceConfig) (calls : List EvidenceCall) : EvidenceRun :=
  run (EvidenceRun.track config) .init calls

theorem EvidenceInv.init (config : BzmRunningEvidenceConfig) : EvidenceInv config .init := by
  constructor
  · simp [AnsweredGood, EvidenceRun.init, BzmRunningEvidenceLifecycle.init]
  · intro hactive
    cases hactive
  · intro hactive
    cases hactive
  · intro newer first earlier htrace
    simp [EvidenceRun.init] at htrace

theorem EvidenceInv.run {config : BzmRunningEvidenceConfig} {s : EvidenceRun}
    (h : EvidenceInv config s) (hsound : Throughout (EvidenceSound config) s.trace)
    {calls : List EvidenceCall} (hclock : ClockMonotone calls)
    (hbefore : ∀ call ∈ calls, ∀ answer ∈ s.trace, answer.call.nowMs ≤ call.nowMs) :
    Throughout (EvidenceSound config) (Library.run (EvidenceRun.track config) s calls).trace := by
  induction calls generalizing s with
  | nil => exact hsound
  | cons call calls ih =>
    obtain ⟨hlater, hclock⟩ := List.pairwise_cons.mp hclock
    have hnow := hbefore call List.mem_cons_self
    have hstep : EvidenceInv config (s.track config call) := by
      cases hcompleted : s.lifecycle.completedOnce with
      | true => exact h.track_completed hcompleted hnow
      | false => exact h.track_first hcompleted hnow
    refine ih hstep ⟨h.sound, hsound⟩ hclock ?_
    intro later hmem answer hanswer
    rcases List.mem_cons.mp hanswer with rfl | hold
    · exact hlater later hmem
    · exact hbefore later (List.mem_cons_of_mem _ hmem) answer hold

/-- **Retained evidence is bounded.**  Over every sequence of calls whose clock
does not go back: before the first GOOD the proof has its deadline; after it no
answer is PENDING; and a call with pending evidence is BAD once the recovery
timeout has passed since an earlier call with pending evidence and no new proof
was seen after that one. -/
theorem runningEvidence_bounded (config : BzmRunningEvidenceConfig) (calls : List EvidenceCall)
    (hclock : ClockMonotone calls) :
    Throughout (EvidenceSound config) (evidenceRun config calls).trace :=
  (EvidenceInv.init config).run trivial hclock fun _ _ _ hanswer => by cases hanswer

/-! ### A gap between the last proof and the next call -/

def gapConfig : BzmRunningEvidenceConfig where
  requiredChipEngineWrites := 1
  minimumValidResults := 1
  allowMappingRecovery := true
  maximumMappingRejections := 1
  maximumLocalRejections := 1
  proofTimeoutMs := 1000
  recoveryTimeoutMs := 500

/-- A complete proof at the start. -/
def gapProof : EvidenceCall where
  baseline := .zero
  current := { BzmRunningStats.zero with
    dispatchBatches := 1
    dispatchedChipEngines := 1
    mappedResults := 1
    locallyValidResults := 1 }
  startedAtMs := 0
  nowMs := 0

/-- 600 ms later an unattributed frame has made the evidence pending. -/
def gapPending : EvidenceCall where
  baseline := .zero
  current := { gapProof.current with
    mappingRejections := 1
    mappingRejectionStreak := 1
    mappingRecoveryPending := true }
  startedAtMs := 0
  nowMs := 600

theorem runningEvidence_bounded_gap :
    ClockMonotone [gapProof, gapPending] ∧
      Throughout (EvidenceSound gapConfig)
        (evidenceRun gapConfig [gapProof, gapPending]).trace := by
  have hclock : ClockMonotone [gapProof, gapPending] := by
    refine List.pairwise_cons.mpr ⟨?_, List.pairwise_singleton _ _⟩
    intro later hlater
    obtain rfl := List.mem_singleton.mp hlater
    decide
  exact ⟨hclock, runningEvidence_bounded gapConfig [gapProof, gapPending] hclock⟩

/-- The clock starts with the first pending call, not with the last proof: since
1 ms no call has seen new proof, but 500 ms after that the verdict is GOOD. -/
theorem retained_after_gap :
    (evidenceRun gapConfig [gapProof, gapPending]).trace =
        [⟨gapPending, .good⟩, ⟨gapProof, .good⟩] ∧
      ¬ ∀ sinceMs : Nat, gapProof.nowMs.toNat < sinceMs →
        EvidenceCall.SeesNoProof gapConfig gapProof gapPending →
        gapPending.evidence gapConfig = .pending →
        sinceMs + gapConfig.recoveryTimeoutMs.toNat ≤ gapPending.nowMs.toNat →
        ∀ answer ∈ (evidenceRun gapConfig [gapProof, gapPending]).trace.head?,
          answer.status = .bad := by
  have hproof : gapProof.track gapConfig .init = (.good, ⟨true, false, 0, 1⟩) := by rfl
  have hpending :
      gapPending.track gapConfig ⟨true, false, 0, 1⟩ = (.good, ⟨true, true, 600, 1⟩) := by
    rfl
  have htrace : (evidenceRun gapConfig [gapProof, gapPending]).trace =
      [⟨gapPending, .good⟩, ⟨gapProof, .good⟩] := by
    rw [evidenceRun, run_cons, run_cons, run_nil, EvidenceRun.track_eq, EvidenceRun.track_eq]
    simp only [EvidenceRun.init, hproof, hpending]
  refine ⟨htrace, fun h => ?_⟩
  have hbad := h 1 (by decide) ⟨by decide, by decide⟩ (by decide) (by decide) ⟨gapPending, .good⟩
    (by rw [htrace]; rfl)
  cases hbad

end EspMiner
