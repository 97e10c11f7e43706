import EspMiner.Bzm.TelemetryConfirmation

/-!
# Telemetry confirmation counts runs of unsafe samples

After every sequence of calls the object holds, for each ASIC, the timestamp of
the newest sample taken and the length of the run of unsafe samples that ends
with it, where a trip counts for as many samples as are required.
-/

namespace EspMiner

open Library

/-! ### Counts and runs -/

/-- The counter of an ASIC that these samples were taken of. -/
def anomalyCount (requiredConsecutiveSamples : U8) : List TakenSample → U8
  | [] => 0
  | s :: older =>
      if s.trip then requiredConsecutiveSamples
      else if s.safe then 0
      else if anomalyCount requiredConsecutiveSamples older < 0xff#8 then
        anomalyCount requiredConsecutiveSamples older + 1
      else anomalyCount requiredConsecutiveSamples older

section Counts

variable {required : U8}

theorem toNat_succ {count : U8} (h : count < 0xff#8) : (count + 1).toNat = count.toNat + 1 := by
  have hlt : count.toNat < 255 := h
  rw [BitVec.toNat_add]
  change (count.toNat + 1) % 2 ^ 8 = _
  omega

theorem anomalyRun_of_safe {s : TakenSample} (h : s.safe = true) (older : List TakenSample) :
    anomalyRun (s :: older) = [] := by
  simp [anomalyRun, h]

theorem anomalyRun_of_not_safe {s : TakenSample} (h : s.safe = false) (older : List TakenSample) :
    anomalyRun (s :: older) = s :: anomalyRun older := by
  simp [anomalyRun, h]

/-- A count is zero exactly after an empty run. -/
theorem anomalyCount_eq_zero (hrequired : required ≠ 0) (taken : List TakenSample) :
    anomalyCount required taken = 0 ↔ anomalyRun taken = [] := by
  induction taken with
  | nil => simp [anomalyCount, anomalyRun]
  | cons s older ih =>
    rw [anomalyCount]
    cases htrip : s.trip with
    | true =>
      rw [anomalyRun_of_not_safe (s.trip_not_safe htrip)]
      exact iff_of_false hrequired (List.cons_ne_nil _ _)
    | false =>
      cases hsafe : s.safe with
      | true => simp [anomalyRun_of_safe hsafe]
      | false =>
        rw [anomalyRun_of_not_safe hsafe]
        simp only [Bool.false_eq_true, if_false, reduceCtorEq, iff_false]
        split
        · next hlt =>
          intro hzero
          have hnat := congrArg BitVec.toNat hzero
          rw [toNat_succ hlt] at hnat
          exact absurd hnat (Nat.succ_ne_zero _)
        · next hfull =>
          intro hzero
          rw [hzero] at hfull
          exact hfull (by decide)

/-- A count without a trip is the length of the run; a trip makes it high enough
for the rest of the run. -/
theorem anomalyCount_spec (required : U8) (taken : List TakenSample) :
    ((∀ s ∈ anomalyRun taken, s.trip = false) →
      (anomalyCount required taken).toNat = min (anomalyRun taken).length 255) ∧
    ((∃ s ∈ anomalyRun taken, s.trip = true) → required ≤ anomalyCount required taken) := by
  induction taken with
  | nil => simp [anomalyCount, anomalyRun]
  | cons s older ih =>
    rw [anomalyCount]
    cases htrip : s.trip with
    | true =>
      rw [anomalyRun_of_not_safe (s.trip_not_safe htrip)]
      refine ⟨fun hnone => ?_, fun _ => BitVec.le_refl _⟩
      rw [hnone s List.mem_cons_self] at htrip
      cases htrip
    | false =>
      cases hsafe : s.safe with
      | true => simp [anomalyRun_of_safe hsafe]
      | false =>
        rw [anomalyRun_of_not_safe hsafe]
        simp only [Bool.false_eq_true, if_false, List.length_cons]
        generalize anomalyCount required older = count at ih ⊢
        have hsize := count.isLt
        constructor
        · intro hnone
          have hcount := ih.1 fun s hs => hnone s (List.mem_cons_of_mem _ hs)
          split
          · next hlt =>
            have hltNat : count.toNat < 255 := hlt
            rw [toNat_succ hlt]
            omega
          · next hfull =>
            have hfullNat : 255 ≤ count.toNat := BitVec.not_lt.mp hfull
            omega
        · rintro ⟨trip, hmem, htripping⟩
          have holder : required ≤ count := by
            rcases List.mem_cons.mp hmem with rfl | hmem
            · rw [htrip] at htripping
              cases htripping
            · exact ih.2 ⟨trip, hmem, htripping⟩
          split
          · next hlt =>
            have hle : required.toNat ≤ count.toNat := holder
            rw [BitVec.le_def, toNat_succ hlt]
            omega
          · exact holder

/-- **Confirmed anomalies.**  A count is high enough exactly after a run that is
long enough or has a trip in it. -/
theorem le_anomalyCount (hrequired : required ≤ BZM_CH2_CONFIRM_MAX_SAMPLES)
    (taken : List TakenSample) :
    required ≤ anomalyCount required taken ↔
      required.toNat ≤ (anomalyRun taken).length ∨ ∃ s ∈ anomalyRun taken, s.trip = true := by
  have hten : required.toNat ≤ 10 := hrequired
  obtain ⟨hlength, htrip⟩ := anomalyCount_spec required taken
  by_cases hany : ∃ s ∈ anomalyRun taken, s.trip = true
  · exact iff_of_true (htrip hany) (.inr hany)
  · have hcount := hlength fun s hs => by
      simpa using fun hs' => hany ⟨s, hs, hs'⟩
    rw [BitVec.le_def, hcount]
    constructor
    · intro hle
      exact .inl (by omega)
    · rintro (hle | htripping)
      · omega
      · exact absurd htripping hany

end Counts

/-! ### The first loop -/

/-- The object counts the samples that were taken. -/
def CountsTaken (policy : ConfirmationPolicy) (confirmation : BzmTelemetryConfirmation)
    (taken : Fin BZM_MAX_ASIC_COUNT → List TakenSample) : Prop :=
  ∀ index, confirmation.lastTimestampUs index = lastTaken (taken index) ∧
    confirmation.consecutiveAnomalies index =
      anomalyCount policy.requiredConsecutiveSamples (taken index)

section Loop

variable {policy : ConfirmationPolicy} {call : ConfirmationCall}
  {taken : Fin BZM_MAX_ASIC_COUNT → List TakenSample}

/-- The sample of an ASIC can be taken. -/
def Usable (call : ConfirmationCall) (taken : Fin BZM_MAX_ASIC_COUNT → List TakenSample)
    (index : Fin BZM_MAX_ASIC_COUNT) : Prop :=
  sampleUnusable index (lastTaken (taken index)) (call.store.samples index) = false

instance (index : Fin BZM_MAX_ASIC_COUNT) : Decidable (Usable call taken index) :=
  inferInstanceAs (Decidable (_ = false))

/-- The samples taken by the loop over `indices`. -/
def takenOver (policy : ConfirmationPolicy) (call : ConfirmationCall)
    (taken : Fin BZM_MAX_ASIC_COUNT → List TakenSample) (indices : List (Fin BZM_MAX_ASIC_COUNT))
    (index : Fin BZM_MAX_ASIC_COUNT) : List TakenSample :=
  if index ∈ indices ∧ ∀ earlier ∈ indices, earlier ≤ index → Usable call taken earlier then
    takeSample policy call (call.store.samples index) (taken index)
  else taken index

theorem takeSample_of_new {sample : BzmTelemetrySample} {older : List TakenSample}
    (h : lastTaken older < sample.timestampUs) :
    takeSample policy call sample older = seeSample policy call sample :: older := if_pos h

theorem takeSample_of_repeated {sample : BzmTelemetrySample} {older : List TakenSample}
    (h : sample.timestampUs = lastTaken older) : takeSample policy call sample older = older := by
  rw [takeSample, if_neg]
  rw [h]
  exact BitVec.lt_irrefl _

/-- The counter of a new sample. -/
theorem countAnomaly_eq (sample : BzmTelemetrySample) (older : List TakenSample) :
    countAnomaly policy call sample (anomalyCount policy.requiredConsecutiveSamples older) =
      anomalyCount policy.requiredConsecutiveSamples (seeSample policy call sample :: older) := by
  rfl

/-- A call that ends at the first of its ASICs takes nothing. -/
theorem takenOver_of_unusable {first : Fin BZM_MAX_ASIC_COUNT}
    {later : List (Fin BZM_MAX_ASIC_COUNT)} (hsorted : (first :: later).Pairwise (· < ·))
    (h : ¬ Usable call taken first) : takenOver policy call taken (first :: later) = taken := by
  funext index
  rw [takenOver, if_neg]
  rintro ⟨hmem, husable⟩
  apply h
  apply husable first List.mem_cons_self
  rcases List.mem_cons.mp hmem with rfl | hlater
  · exact Fin.le_refl _
  · exact Fin.le_of_lt ((List.pairwise_cons.mp hsorted).1 index hlater)

/-- The samples taken after the first ASIC's. -/
theorem takenOver_of_usable {first : Fin BZM_MAX_ASIC_COUNT}
    {later : List (Fin BZM_MAX_ASIC_COUNT)} (hsorted : (first :: later).Pairwise (· < ·))
    (h : Usable call taken first) :
    takenOver policy call taken (first :: later) = takenOver policy call
      (Function.update taken first
        (takeSample policy call (call.store.samples first) (taken first))) later := by
  have hafter := (List.pairwise_cons.mp hsorted).1
  have hfirst : first ∉ later := fun hmem => Nat.lt_irrefl _ (hafter first hmem)
  funext index
  by_cases hindex : index = first
  · subst hindex
    have hall : ∀ earlier ∈ index :: later, earlier ≤ index → Usable call taken earlier := by
      intro earlier hmem hle
      rcases List.mem_cons.mp hmem with rfl | hlater
      · exact h
      · exact absurd (hafter earlier hlater) (Nat.not_lt.mpr hle)
    rw [takenOver, if_pos ⟨List.mem_cons_self, hall⟩, takenOver, if_neg (fun hin => hfirst hin.1),
      Function.update_self]
  · have hsame : (index ∈ first :: later ∧
          ∀ earlier ∈ first :: later, earlier ≤ index → Usable call taken earlier) ↔
        (index ∈ later ∧ ∀ earlier ∈ later, earlier ≤ index →
          Usable call (Function.update taken first
            (takeSample policy call (call.store.samples first) (taken first))) earlier) := by
      have hkeep : ∀ earlier ∈ later, (Usable call (Function.update taken first
          (takeSample policy call (call.store.samples first) (taken first))) earlier ↔
          Usable call taken earlier) := by
        intro earlier hmem
        have hne : earlier ≠ first := by
          rintro rfl
          exact hfirst hmem
        rw [Usable, Function.update_of_ne hne, ← Usable]
      constructor
      · rintro ⟨hmem, husable⟩
        refine ⟨(List.mem_cons.mp hmem).resolve_left hindex, fun earlier hlater hle => ?_⟩
        exact (hkeep earlier hlater).mpr (husable earlier (List.mem_cons_of_mem _ hlater) hle)
      · rintro ⟨hmem, husable⟩
        refine ⟨List.mem_cons_of_mem _ hmem, fun earlier hmem' hle => ?_⟩
        rcases List.mem_cons.mp hmem' with rfl | hlater
        · exact h
        · exact (hkeep earlier hlater).mp (husable earlier hlater hle)
    rw [takenOver, takenOver, Function.update_of_ne hindex]
    exact if_congr hsame rfl rfl

/-- A usable sample is new or repeats the last one. -/
theorem Usable.new_or_repeated {index : Fin BZM_MAX_ASIC_COUNT} (h : Usable call taken index) :
    lastTaken (taken index) < (call.store.samples index).timestampUs ∨
      (call.store.samples index).timestampUs = lastTaken (taken index) := by
  simp only [Usable, sampleUnusable, Bool.or_eq_false_iff, decide_eq_false_iff_not] at h
  have hle := BitVec.not_lt.mp h.2
  by_cases heq : (call.store.samples index).timestampUs = lastTaken (taken index)
  · exact .inr heq
  · exact .inl (BitVec.lt_of_le_ne hle (Ne.symm heq))

/-- The object after a new sample of one ASIC. -/
theorem CountsTaken.take (call : ConfirmationCall)
    {confirmation : BzmTelemetryConfirmation} {index : Fin BZM_MAX_ASIC_COUNT}
    (h : CountsTaken policy confirmation taken)
    (hnew : lastTaken (taken index) < (call.store.samples index).timestampUs) :
    CountsTaken policy {
        lastTimestampUs := Function.update confirmation.lastTimestampUs index
          (call.store.samples index).timestampUs
        consecutiveAnomalies := Function.update confirmation.consecutiveAnomalies index
          (countAnomaly policy call (call.store.samples index)
            (confirmation.consecutiveAnomalies index)) }
      (Function.update taken index
        (takeSample policy call (call.store.samples index) (taken index))) := by
  intro other
  by_cases hother : other = index
  · subst hother
    simp only [Function.update_self, takeSample_of_new hnew]
    refine ⟨rfl, ?_⟩
    rw [(h other).2, countAnomaly_eq]
  · simp only [Function.update_of_ne hother]
    exact h other

/-- **The first loop** takes the samples of the ASICs up to the first that has
none, and counts them. -/
theorem takeSamples_spec (call : ConfirmationCall) (indices : List (Fin BZM_MAX_ASIC_COUNT))
    (hsorted : indices.Pairwise (· < ·)) (anyNewSample : Bool)
    (confirmation : BzmTelemetryConfirmation)
    (taken : Fin BZM_MAX_ASIC_COUNT → List TakenSample)
    (h : CountsTaken policy confirmation taken) :
    CountsTaken policy (takeSamples policy call indices anyNewSample confirmation).confirmation
        (takenOver policy call taken indices) ∧
      ((takeSamples policy call indices anyNewSample confirmation).complete = true ↔
        ∀ index ∈ indices, Usable call taken index) ∧
      ((∀ index ∈ indices, Usable call taken index) →
        ((takeSamples policy call indices anyNewSample confirmation).anyNewSample = true ↔
          anyNewSample = true ∨ ∃ index ∈ indices,
            lastTaken (taken index) < (call.store.samples index).timestampUs)) := by
  induction indices generalizing anyNewSample confirmation taken with
  | nil =>
    refine ⟨fun index => ?_, by simp [takeSamples], by simp [takeSamples]⟩
    rw [takenOver, if_neg (fun hin => List.not_mem_nil hin.1)]
    exact h index
  | cons index later ih =>
    have hlater := (List.pairwise_cons.mp hsorted).2
    have hafter := (List.pairwise_cons.mp hsorted).1
    have hlast := (h index).1
    rw [takeSamples]
    simp only [hlast]
    by_cases husable : Usable call taken index
    · rw [if_neg (by rw [Usable] at husable; simp [husable])]
      have hkeep : ∀ other ∈ later, ∀ samples,
          (Function.update taken index samples) other = taken other := by
        intro other hmem samples
        exact Function.update_of_ne (fun heq => Nat.lt_irrefl _ (heq ▸ hafter other hmem)) _ _
      have hall : ∀ samples,
          (∀ other ∈ later, Usable call (Function.update taken index samples) other) ↔
            ∀ other ∈ index :: later, Usable call taken other := by
        intro samples
        rw [List.forall_mem_cons, and_iff_right husable]
        refine forall₂_congr fun other hmem => ?_
        rw [Usable, hkeep other hmem, ← Usable]
      have hany : ∀ samples, (∃ other ∈ later,
          lastTaken (Function.update taken index samples other) <
            (call.store.samples other).timestampUs) ↔ ∃ other ∈ later, lastTaken (taken other) <
            (call.store.samples other).timestampUs := by
        intro samples
        refine exists_congr fun other => and_congr_right fun hmem => ?_
        rw [hkeep other hmem]
      rw [takenOver_of_usable hsorted husable]
      rcases husable.new_or_repeated with hnew | hrepeated
      · have hne : (call.store.samples index).timestampUs ≠ lastTaken (taken index) :=
          fun heq => BitVec.lt_irrefl _ (heq ▸ hnew)
        rw [if_neg hne]
        obtain ⟨hcounts, hcomplete, hsome⟩ := ih hlater true _ _ (h.take call hnew)
        rw [hall] at hcomplete hsome
        refine ⟨hcounts, hcomplete, fun hmem => ?_⟩
        rw [hsome hmem]
        simp [hnew]
      · rw [if_pos hrepeated]
        obtain ⟨hcounts, hcomplete, hsome⟩ := ih hlater anyNewSample confirmation
          (Function.update taken index (taken index)) (by rwa [Function.update_eq_self])
        rw [hall] at hcomplete hsome
        rw [takeSample_of_repeated hrepeated]
        refine ⟨hcounts, hcomplete, fun hmem => ?_⟩
        rw [hsome hmem, hany, List.exists_mem_cons_iff, hrepeated]
        simp
    · rw [if_pos (by simpa [Usable] using husable), takenOver_of_unusable hsorted husable]
      refine ⟨h, ?_, fun hmem => absurd (hmem index List.mem_cons_self) husable⟩
      exact iff_of_false (by simp) (fun hmem => husable (hmem index List.mem_cons_self))

end Loop

/-! ### The second loop -/

/-- What the second loop knows after some of the ASICs. -/
theorem highestCount_foldl (required : U8) (confirmation : BzmTelemetryConfirmation)
    (indices : List (Fin BZM_MAX_ASIC_COUNT)) (highest : HighestCount) :
    let last := indices.foldl (fun highest index =>
      let count := confirmation.consecutiveAnomalies index
      { count := if highest.count < count then count else highest.count
        index := if highest.count < count then index else highest.index
        continuous := highest.continuous || decide (required ≤ count) }) highest
    (last.continuous = true ↔ highest.continuous = true ∨
        ∃ index ∈ indices, required ≤ confirmation.consecutiveAnomalies index) ∧
      (last.count = 0 ↔ highest.count = 0 ∧
        ∀ index ∈ indices, confirmation.consecutiveAnomalies index = 0) := by
  intro last
  induction indices generalizing highest with
  | nil => simp [last]
  | cons index later ih =>
    obtain ⟨hcontinuous, hcount⟩ := ih _
    refine ⟨hcontinuous.trans ?_, hcount.trans ?_⟩
    · simp only [Bool.or_eq_true, decide_eq_true_eq, List.exists_mem_cons_iff, or_assoc]
    · rw [List.forall_mem_cons, ← and_assoc]
      refine and_congr_left fun _ => ?_
      by_cases hlt : highest.count < confirmation.consecutiveAnomalies index
      · simp only [if_pos hlt]
        have hne : confirmation.consecutiveAnomalies index ≠ 0 := by
          intro hzero
          rw [hzero] at hlt
          exact BitVec.not_lt_zero hlt
        exact iff_of_false hne fun hboth => hne hboth.2
      · simp only [if_neg hlt]
        constructor
        · intro hzero
          rw [hzero, BitVec.not_lt] at hlt
          exact ⟨hzero, BitVec.le_zero_iff.mp hlt⟩
        · exact And.left

/-- **The second loop** sees every count. -/
theorem highestCount_spec (required : U8) (confirmation : BzmTelemetryConfirmation) :
    ((highestCount required confirmation).continuous = true ↔
        ∃ index, required ≤ confirmation.consecutiveAnomalies index) ∧
      ((highestCount required confirmation).count = 0 ↔
        ∀ index, confirmation.consecutiveAnomalies index = 0) := by
  obtain ⟨hcontinuous, hcount⟩ := highestCount_foldl required confirmation
    (List.finRange BZM_MAX_ASIC_COUNT) ⟨0, (0 : Fin 4), false⟩
  refine ⟨hcontinuous.trans ?_, hcount.trans ?_⟩
  · simp
  · simp

/-! ### Runs -/

section Runs

variable {policy : ConfirmationPolicy} {call : ConfirmationCall}
  {taken : Fin BZM_MAX_ASIC_COUNT → List TakenSample}

theorem usableUpTo_eq_true (index : Fin BZM_MAX_ASIC_COUNT) :
    usableUpTo call taken index = true ↔
      ∀ earlier, earlier ≤ index → Usable call taken earlier := by
  simp only [usableUpTo, List.all_eq_true, List.mem_finRange, true_implies, Bool.or_eq_true,
    decide_eq_true_eq, Bool.not_eq_true', Usable]
  refine forall_congr' fun earlier => ?_
  rw [← not_le, ← imp_iff_not_or]

/-- A call that gets past its arguments takes what the first loop takes. -/
theorem takenAfter_of_valid (hvalid : confirmationArgumentsInvalid policy call = false) :
    takenAfter policy call taken =
      takenOver policy call taken (List.finRange BZM_MAX_ASIC_COUNT) := by
  funext index
  rw [takenAfter, takenOver]
  refine if_congr ?_ rfl rfl
  simp [hvalid, usableUpTo_eq_true]

/-- A call with invalid arguments takes nothing. -/
theorem takenAfter_of_invalid (hinvalid : confirmationArgumentsInvalid policy call = true) :
    takenAfter policy call taken = taken := by
  funext index
  simp [takenAfter, hinvalid]

/-- One call keeps the count of the samples taken. -/
theorem CountsTaken.observe {confirmation : BzmTelemetryConfirmation}
    (h : CountsTaken policy confirmation taken) :
    CountsTaken policy (bzmTelemetryConfirmationObserve policy confirmation call).2
      (takenAfter policy call taken) := by
  rw [bzmTelemetryConfirmationObserve]
  by_cases hinvalid : confirmationArgumentsInvalid policy call = true
  · rw [if_pos hinvalid, takenAfter_of_invalid hinvalid]
    exact h
  · rw [if_neg hinvalid, takenAfter_of_valid (by simpa using hinvalid)]
    have hcounts := (takeSamples_spec call (List.finRange BZM_MAX_ASIC_COUNT)
      (List.pairwise_lt_finRange _) false confirmation taken h).1
    simp only
    split <;> exact hcounts

/-- After every sequence of calls, the object counts the samples taken. -/
theorem confirmationAfter_counts (policy : ConfirmationPolicy) (calls : List ConfirmationCall) :
    CountsTaken policy (confirmationAfter policy calls) (takenBy policy calls) := by
  induction calls using List.reverseRecOn with
  | nil =>
    intro index
    exact ⟨rfl, rfl⟩
  | append_singleton calls call ih =>
    rw [confirmationAfter, takenBy, run_append, run_append]
    exact ih.observe

/-- A call is refused for its arguments or for the sample of an ASIC. -/
theorem observe_invalid_iff (call : ConfirmationCall)
    {confirmation : BzmTelemetryConfirmation}
    (h : CountsTaken policy confirmation taken) :
    (bzmTelemetryConfirmationObserve policy confirmation call).1.result = .invalid ↔
      confirmationArgumentsInvalid policy call = true ∨ ∃ index, ¬ Usable call taken index := by
  obtain ⟨-, hcomplete, -⟩ := takeSamples_spec call (List.finRange BZM_MAX_ASIC_COUNT)
    (List.pairwise_lt_finRange _) false confirmation taken h
  rw [bzmTelemetryConfirmationObserve]
  by_cases hinvalid : confirmationArgumentsInvalid policy call = true
  · rw [if_pos hinvalid]
    exact iff_of_true rfl (.inl hinvalid)
  · rw [if_neg hinvalid, or_iff_right hinvalid, ← not_forall]
    simp only [List.mem_finRange, true_implies] at hcomplete
    rw [← hcomplete, Bool.not_eq_true]
    by_cases hdone : (takeSamples policy call (List.finRange BZM_MAX_ASIC_COUNT) false
        confirmation).complete = false
    · rw [if_pos hdone]
      exact iff_of_true rfl hdone
    · rw [if_neg hdone]
      refine iff_of_false ?_ hdone
      simp only
      split_ifs <;> simp

/-- What a call that is not refused returns. -/
theorem observe_result_of_usable {confirmation : BzmTelemetryConfirmation}
    (h : CountsTaken policy confirmation taken)
    (hvalid : confirmationArgumentsInvalid policy call = false)
    (husable : ∀ index, Usable call taken index) :
    ((bzmTelemetryConfirmationObserve policy confirmation call).1.result = .continuous ↔
        ∃ index, policy.requiredConsecutiveSamples ≤
          anomalyCount policy.requiredConsecutiveSamples (takenAfter policy call taken index)) ∧
      ((bzmTelemetryConfirmationObserve policy confirmation call).1.result = .good ↔
        (¬ ∃ index, policy.requiredConsecutiveSamples ≤
          anomalyCount policy.requiredConsecutiveSamples (takenAfter policy call taken index)) ∧
        (∃ index, lastTaken (taken index) < (call.store.samples index).timestampUs) ∧
        ∀ index, anomalyCount policy.requiredConsecutiveSamples
          (takenAfter policy call taken index) = 0) := by
  obtain ⟨hcounts, hcomplete, hnew⟩ := takeSamples_spec call
    (List.finRange BZM_MAX_ASIC_COUNT) (List.pairwise_lt_finRange _) false confirmation taken h
  rw [← takenAfter_of_valid hvalid] at hcounts
  simp only [List.mem_finRange, true_implies, true_and, Bool.false_eq_true, false_or]
    at hcomplete hnew
  have hdone := hcomplete.mpr husable
  have hany := hnew husable
  have hlast : ∀ index, _ := fun index => (hcounts index).2
  rw [bzmTelemetryConfirmationObserve, if_neg (by simp [hvalid])]
  generalize takeSamples policy call (List.finRange BZM_MAX_ASIC_COUNT) false confirmation = out
    at hdone hany hlast ⊢
  obtain ⟨hcontinuous, hzero⟩ :=
    highestCount_spec policy.requiredConsecutiveSamples out.confirmation
  simp only [hlast] at hcontinuous hzero
  rw [← hcontinuous, ← hzero, ← hany, if_neg (by simp [hdone])]
  simp only
  split_ifs with hhigh hold hnone
  · simp [hhigh]
  · simp [hhigh, hold]
  · simp [hhigh, hnone, Bool.eq_true_of_not_eq_false hold]
  · exact ⟨iff_of_false (by simp) hhigh, iff_of_false (by simp) fun hgood => hnone hgood.2.2⟩

/-- **An anomaly is confirmed** when the unsafe samples in a row of some ASIC are
as many as required, or one of them is a trip. -/
def AnomalyConfirmed (requiredConsecutiveSamples : U8)
    (taken : Fin BZM_MAX_ASIC_COUNT → List TakenSample) : Prop :=
  ∃ index, requiredConsecutiveSamples.toNat ≤ (anomalyRun (taken index)).length ∨
    ∃ s ∈ anomalyRun (taken index), s.trip = true

/-- The arguments of a call that is not refused for them. -/
theorem required_of_valid (hvalid : confirmationArgumentsInvalid policy call = false) :
    policy.requiredConsecutiveSamples ≠ 0 ∧
      policy.requiredConsecutiveSamples ≤ BZM_CH2_CONFIRM_MAX_SAMPLES := by
  simp only [confirmationArgumentsInvalid, Bool.or_eq_false_iff, decide_eq_false_iff_not,
    BitVec.not_lt] at hvalid
  exact ⟨hvalid.1.2, hvalid.2⟩

/-- **Telemetry confirmation is neither blind nor jumpy.**  After every sequence
of calls the object remembers the newest sample taken of each ASIC, and the next
call answers from the runs of unsafe samples alone: it is refused exactly for its
arguments or for a sample that cannot be taken, it reports a continuous anomaly
exactly when one is confirmed, and a good board exactly when a sample was new and
no run is left.  A sample that was seen before changes no run. -/
theorem telemetryConfirmation_exact (policy : ConfirmationPolicy) (calls : List ConfirmationCall)
    (call : ConfirmationCall) :
    let before := takenBy policy calls
    let after := takenBy policy (calls ++ [call])
    let answer := (bzmTelemetryConfirmationObserve policy (confirmationAfter policy calls) call).1
    (∀ index, (confirmationAfter policy calls).lastTimestampUs index = lastTaken (before index)) ∧
    (answer.result = .invalid ↔ confirmationArgumentsInvalid policy call = true ∨
      ∃ index, sampleUnusable index (lastTaken (before index)) (call.store.samples index) = true) ∧
    (answer.result ≠ .invalid →
      (answer.result = .continuous ↔
        AnomalyConfirmed policy.requiredConsecutiveSamples after) ∧
      (answer.result = .good ↔
        (∃ index, lastTaken (before index) < (call.store.samples index).timestampUs) ∧
          ∀ index, anomalyRun (after index) = [])) ∧
    (∀ index, (call.store.samples index).timestampUs = lastTaken (before index) →
      after index = before index) := by
  intro before after answer
  have hcounts := confirmationAfter_counts policy calls
  have hafter : after = takenAfter policy call before := by
    simp only [after, before, takenBy, run_append, run_cons, run_nil]
  have hinvalid := observe_invalid_iff call hcounts
  refine ⟨fun index => (hcounts index).1, ?_, ?_, ?_⟩
  · simpa only [Usable, Bool.not_eq_false] using hinvalid
  · intro hanswer
    have haccepted := mt hinvalid.mpr hanswer
    rw [not_or, Bool.not_eq_true, not_exists_not] at haccepted
    obtain ⟨hvalid, husable⟩ := haccepted
    obtain ⟨hnonzero, hrequired⟩ := required_of_valid hvalid
    obtain ⟨hcontinuous, hgood⟩ := observe_result_of_usable hcounts hvalid husable
    have hconfirmed : AnomalyConfirmed policy.requiredConsecutiveSamples after ↔
        ∃ index, policy.requiredConsecutiveSamples ≤
          anomalyCount policy.requiredConsecutiveSamples (after index) :=
      exists_congr fun index => (le_anomalyCount hrequired (after index)).symm
    have hnone : (∀ index, anomalyRun (after index) = []) ↔
        ∀ index, anomalyCount policy.requiredConsecutiveSamples (after index) = 0 :=
      forall_congr' fun index => (anomalyCount_eq_zero hnonzero (after index)).symm
    rw [hconfirmed, hnone, hafter]
    refine ⟨hcontinuous, hgood.trans (and_iff_right_of_imp ?_)⟩
    rintro ⟨-, hzero⟩ ⟨index, hle⟩
    rw [hzero index] at hle
    exact hnonzero (BitVec.le_zero_iff.mp hle)
  · intro index hrepeated
    rw [hafter, takenAfter, takeSample_of_repeated hrepeated, ite_self]

end Runs

end EspMiner
