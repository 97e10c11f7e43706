import EspMiner.Bzm.Work
import EspMiner.Library.MaskedCounter
import EspMiner.Main.CreateJobs
import EspMiner.Stratum.MiningJob

/-!
# Versions of fixed-merkle jobs

A job whose Merkle root the pool fixes can only be varied through its version.
The Bonanza driver programs four consecutive versions of the pool's mask, and
the job task moves its version on by four steps of the bits that the driver
supports.  Over the bits of the mask up to the top of the supported range these
are two strides of one counter, so no version comes up twice before it wraps.
-/

namespace EspMiner

open Library

/-- The bits that the producer steps. -/
def producerMask (poolMask : U32) : U32 := poolMask &&& BZM_CAPABILITIES.supportedVersionMask

/-- The version of the job after `sends` accepted sends. -/
def producerVersion (poolMask version : U32) (sends : Nat) : U32 :=
  (fun version => incrementBitmask version (producerMask poolMask))^[4 * sends] version

/-- Variant `variant` of a job. -/
def driverVersion (poolMask version : U32) (variant : Nat) : U32 :=
  (fun version => incrementBitmask version poolMask)^[variant] version

/-- The versions programmed for `sends` jobs, oldest first. -/
def rolledVersions (poolMask version : U32) (sends : Nat) : List U32 :=
  (List.range sends).flatMap fun send =>
    bzmBuildVersions (producerVersion poolMask version send) poolMask true

/-- The supported bits are the positions from 13 up to 28. -/
theorem getLsbD_producerMask (poolMask : U32) (i : Nat) :
    (producerMask poolMask).getLsbD i =
      (poolMask.getLsbD i && (decide (13 ≤ i) && decide (i < 29))) := by
  have hsupported : ∀ i < 32,
      BM_SUPPORTED_VERSION_MASK.getLsbD i = (decide (13 ≤ i) && decide (i < 29)) := by decide
  rw [producerMask, BitVec.getLsbD_and]
  rcases Nat.lt_or_ge i 32 with hi | hi
  · exact congrArg _ (hsupported i hi)
  · simp [BitVec.getLsbD_of_ge _ _ hi]

theorem producerMask_window (poolMask : U32) :
    IsWindow poolMask (producerMask poolMask) 13 29 where
  below i hi := by simp [getLsbD_producerMask, show ¬ 13 ≤ i by omega]
  inside i hlo hhi := by simp [getLsbD_producerMask, hlo, hhi]

theorem poolMask_window (poolMask : U32) : IsWindow poolMask poolMask 0 29 where
  below i hi := absurd hi (Nat.not_lt_zero i)
  inside _ _ _ := rfl

/-! ## One counter, two strides -/

/-- The rank of a programmed version, up to the top of the supported range. -/
theorem rank_driverVersion (poolMask version : U32) (send variant : Nat) :
    maskedRank poolMask
        (driverVersion poolMask (producerVersion poolMask version send) variant) 29 ≡
      maskedRank poolMask version 29 + (4 * send * 2 ^ bitsBelow poolMask 13 + variant)
        [MOD 2 ^ bitsBelow poolMask 29] := by
  have hdriver := maskedRank_iterate (poolMask_window poolMask) (by omega)
    (producerVersion poolMask version send) variant
  have hproducer := maskedRank_iterate (producerMask_window poolMask) (by omega) version (4 * send)
  rw [bitsBelow, Nat.pow_zero, Nat.mul_one] at hdriver
  rw [← Nat.add_assoc]
  exact hdriver.trans (hproducer.add_right variant)

/-- The strides stay below the wrap of the counter. -/
theorem stride_lt {poolMask : U32} {sends send variant : Nat}
    (hsends : 4 * sends ≤ 2 ^ (producerMask poolMask).cpop.toNat) (hsend : send < sends)
    (hvariant : variant < 4) :
    4 * send * 2 ^ bitsBelow poolMask 13 + variant < 2 ^ bitsBelow poolMask 29 := by
  have habove : ∀ i, 29 ≤ i → (producerMask poolMask).getLsbD i = false := by
    intro i hi
    simp [getLsbD_producerMask, show ¬ i < 29 by omega]
  have hbits := bitsBelow_window (producerMask_window poolMask) habove (by omega) (by omega)
  have hpos : 0 < 2 ^ bitsBelow poolMask 13 := Nat.two_pow_pos _
  calc 4 * send * 2 ^ bitsBelow poolMask 13 + variant
      < (4 * send + 4) * 2 ^ bitsBelow poolMask 13 := by
        rw [Nat.add_mul]
        omega
    _ ≤ 2 ^ (producerMask poolMask).cpop.toNat * 2 ^ bitsBelow poolMask 13 :=
        Nat.mul_le_mul_right _ (by omega)
    _ = 2 ^ bitsBelow poolMask 29 := by rw [← hbits, Nat.pow_add, Nat.mul_comm]

/-- Two programmed versions are equal only for the same variant of the same send. -/
theorem driverVersion_inj {poolMask version : U32} {sends send send' variant variant' : Nat}
    (hsends : 4 * sends ≤ 2 ^ (producerMask poolMask).cpop.toNat)
    (hsend : send < sends) (hsend' : send' < sends) (hvariant : variant < 4)
    (hvariant' : variant' < 4)
    (heq : driverVersion poolMask (producerVersion poolMask version send) variant =
      driverVersion poolMask (producerVersion poolMask version send') variant') :
    send = send' ∧ variant = variant' := by
  have hrank := rank_driverVersion poolMask version send variant
  have hrank' := rank_driverVersion poolMask version send' variant'
  rw [heq] at hrank
  have hmod := Nat.ModEq.add_left_cancel' _ (hrank.symm.trans hrank')
  have hstride := Nat.ModEq.eq_of_lt_of_lt hmod (stride_lt hsends hsend hvariant)
    (stride_lt hsends hsend' hvariant')
  obtain ⟨weight, hweight⟩ : ∃ weight, 2 ^ bitsBelow poolMask 13 = weight + 1 :=
    ⟨2 ^ bitsBelow poolMask 13 - 1, by have := Nat.two_pow_pos (bitsBelow poolMask 13); omega⟩
  rw [hweight] at hstride
  -- one send moves by at least the four variants
  have horder : ∀ {a b c d : Nat}, c < 4 → d < 4 →
      4 * a * (weight + 1) + c = 4 * b * (weight + 1) + d → ¬ a < b := by
    intro a b c d hc hd h hlt
    have hle : 4 * (a + 1) * (weight + 1) ≤ 4 * b * (weight + 1) :=
      Nat.mul_le_mul_right _ (by omega)
    have hexpand : 4 * (a + 1) * (weight + 1) = 4 * a * (weight + 1) + 4 * (weight + 1) := by ring
    omega
  have hsends : send = send' := by
    have hnot := horder hvariant hvariant' hstride
    have hnot' := horder hvariant' hvariant hstride.symm
    omega
  subst hsends
  exact ⟨rfl, by omega⟩

/-! ## The list of programmed versions -/

theorem bzmBuildVersions_eq_map {poolMask : U32} (hmask : poolMask ≠ 0) (base : U32) :
    bzmBuildVersions base poolMask true = (List.range 4).map (driverVersion poolMask base) := by
  rw [bzmBuildVersions, if_neg (by decide), if_neg hmask]
  exact (List.range_map_iterate _ _ _).symm

theorem mem_bzmBuildVersions {poolMask version base : U32} (hmask : poolMask ≠ 0) :
    version ∈ bzmBuildVersions base poolMask true ↔
      ∃ variant < 4, driverVersion poolMask base variant = version := by
  simp only [bzmBuildVersions_eq_map hmask, List.mem_map, List.mem_range]

theorem poolMask_ne_zero {poolMask : U32} (hbits : 2 ≤ (producerMask poolMask).cpop.toNat) :
    poolMask ≠ 0 := by
  rintro rfl
  have hzero : (producerMask 0).cpop.toNat = 0 := by decide
  omega

theorem length_rolledVersions (poolMask version : U32) (sends : Nat) :
    (rolledVersions poolMask version sends).length = 4 * sends := by
  have hlength : ∀ base, (bzmBuildVersions base poolMask true).length = 4 := fun base => by
    rw [length_bzmBuildVersions]
    rfl
  induction sends with
  | zero => rfl
  | succ sends ih =>
    rw [rolledVersions, List.range_succ, List.flatMap_append, List.length_append]
    simp only [List.flatMap_cons, List.flatMap_nil, List.append_nil, hlength]
    rw [rolledVersions] at ih
    omega

theorem nodup_rolledVersions {poolMask : U32} {sends : Nat} (version : U32)
    (hbits : 2 ≤ (producerMask poolMask).cpop.toNat)
    (hsends : 4 * sends ≤ 2 ^ (producerMask poolMask).cpop.toNat) :
    (rolledVersions poolMask version sends).Nodup := by
  have hmask := poolMask_ne_zero hbits
  rw [rolledVersions, List.nodup_flatMap]
  constructor
  · intro send hsend
    rw [List.mem_range] at hsend
    rw [bzmBuildVersions_eq_map hmask]
    refine List.Nodup.map_on ?_ List.nodup_range
    intro variant hvariant variant' hvariant' heq
    exact (driverVersion_inj hsends hsend hsend (List.mem_range.mp hvariant)
      (List.mem_range.mp hvariant') heq).2
  · refine List.Nodup.pairwise_of_forall_ne List.nodup_range ?_
    intro send hsend send' hsend' hne value hvalue hvalue'
    obtain ⟨variant, hvariant, heq⟩ := (mem_bzmBuildVersions hmask).mp hvalue
    obtain ⟨variant', hvariant', heq'⟩ := (mem_bzmBuildVersions hmask).mp hvalue'
    exact hne (driverVersion_inj hsends (List.mem_range.mp hsend) (List.mem_range.mp hsend')
      hvariant hvariant' (heq.trans heq'.symm)).1

theorem producerVersion_outside (poolMask version : U32) (sends : Nat) :
    producerVersion poolMask version sends &&& ~~~poolMask = version &&& ~~~poolMask := by
  refine iterate_maskedSucc_and_not ?_ version (4 * sends)
  intro i hi
  rw [getLsbD_producerMask] at hi
  simp_all

theorem driverVersion_outside (poolMask version : U32) (variant : Nat) :
    driverVersion poolMask version variant &&& ~~~poolMask = version &&& ~~~poolMask :=
  iterate_maskedSucc_and_not (fun _ h => h) version variant

theorem rolledVersions_outside {poolMask version value : U32} {sends : Nat}
    (hmask : poolMask ≠ 0) (h : value ∈ rolledVersions poolMask version sends) :
    value &&& ~~~poolMask = version &&& ~~~poolMask := by
  obtain ⟨send, -, hvalue⟩ := List.mem_flatMap.mp h
  obtain ⟨variant, -, rfl⟩ := (mem_bzmBuildVersions hmask).mp hvalue
  rw [driverVersion_outside, producerVersion_outside]

/-! ## Runs of the job task -/

/-- The driver took the job and the generation was still current. -/
def CreateJobsEvent.isAccepted : CreateJobsEvent → Bool
  | .submission _ accepted => accepted
  | _ => false

namespace CreateJobsTask

/-- The number of accepted sends of a trace. -/
def acceptedSends (trace : List CreateJobsEvent) : Nat :=
  trace.countP CreateJobsEvent.isAccepted

/-- The versions that the Bonanza driver programs, in enhanced mode, for the
accepted sends of a trace, oldest first. -/
def programmedVersions : List CreateJobsEvent → List U32
  | .submission _ true :: .sendJob _ template :: older =>
      programmedVersions older ++ bzmBuildVersions template.version template.versionMask true
  | _ :: older => programmedVersions older
  | [] => []

/-- An iteration in which no job is notified and `slot` still holds `job`. -/
def Repeats (slot : Fin MINER_JOB_POOL_SIZE) (job : MinerJob) (input : CreateJobsInput) : Prop :=
  input.slotNotify = none ∧ input.pool slot = job

/-- The task is at the version that its accepted sends have led to. -/
structure RollsVersions (slot : Fin MINER_JOB_POOL_SIZE) (job : MinerJob) (version : U32)
    (t : CreateJobsTask) : Prop where
  work : t.currentWork = some slot
  current : t.currentVersion = producerVersion job.versionMask version (acceptedSends t.trace)
  programmed : programmedVersions t.trace =
    rolledVersions job.versionMask version (acceptedSends t.trace)

theorem producerVersion_succ (poolMask version : U32) (sends : Nat) :
    (fun version => incrementBitmask version (producerMask poolMask))^[4]
        (producerVersion poolMask version sends) =
      producerVersion poolMask version (sends + 1) := by
  rw [producerVersion, producerVersion, ← Function.iterate_add_apply, Nat.mul_add, Nat.add_comm]

theorem rolledVersions_succ (poolMask version : U32) (sends : Nat) :
    rolledVersions poolMask version (sends + 1) = rolledVersions poolMask version sends ++
      bzmBuildVersions (producerVersion poolMask version sends) poolMask true := by
  simp [rolledVersions, List.range_succ, List.flatMap_append]

/-- What `generate_work_from_miner_job` can answer. -/
theorem generateWork_cases (buildAsicJob : MinerJob → U64 → U32 → Option AsicJob)
    (input : CreateJobsInput) (job : MinerJob) (extranonce2 : U64) (version : U32)
    (cleanJobs : Bool) :
    generateWorkFromMinerJob buildAsicJob input job extranonce2 version cleanJobs = (false, []) ∨
      ∃ template sent, buildAsicJob job extranonce2 version = some template ∧
        generateWorkFromMinerJob buildAsicJob input job extranonce2 version cleanJobs =
          (sent, [.sendJob (contextOf job cleanJobs) template]) := by
  unfold generateWorkFromMinerJob
  split
  · exact .inl rfl
  · split
    · exact .inl rfl
    · next template hbuilt => exact .inr ⟨template, _, hbuilt, rfl⟩

/-- A submission of a fixed-merkle job is rejected, or its versions are
programmed and the version moves on by four steps. -/
theorem submit_fixed_cases (buildAsicJob : MinerJob → U64 → U32 → Option AsicJob)
    (t : CreateJobsTask) (input : CreateJobsInput) {job : MinerJob}
    (hfixed : job.isRollable = false) :
    let t' := t.submit BZM_CAPABILITIES buildAsicJob input job
    t'.currentWork = t.currentWork ∧
      ((t'.currentVersion = t.currentVersion ∧ acceptedSends t'.trace = acceptedSends t.trace ∧
          programmedVersions t'.trace = programmedVersions t.trace) ∨
        ∃ template, buildAsicJob job t.extranonce2 t.currentVersion = some template ∧
          t'.currentVersion = (fun version =>
            incrementBitmask version (producerMask job.versionMask))^[4] t.currentVersion ∧
          acceptedSends t'.trace = acceptedSends t.trace + 1 ∧
          programmedVersions t'.trace = programmedVersions t.trace ++
            bzmBuildVersions template.version template.versionMask true) := by
  rcases generateWork_cases buildAsicJob input job t.extranonce2 t.currentVersion
    t.cleanJobsPending with hnone | ⟨template, sent, hbuilt, hsome⟩
  · simp [submit, hnone, acceptedSends, programmedVersions, CreateJobsEvent.isAccepted]
  · cases sent with
    | false => simp [submit, hsome, acceptedSends, programmedVersions, CreateJobsEvent.isAccepted]
    | true =>
      have hmidstate : BZM_CAPABILITIES.versionRolling = .midstate := rfl
      refine ⟨?_, .inr ⟨template, hbuilt, ?_⟩⟩
      · simp only [submit, hsome, hfixed, hmidstate]
        split_ifs <;> rfl
      · simp only [submit, hsome, hfixed, hmidstate, Bool.true_eq_false, Bool.false_eq_true,
          if_false, if_true]
        split_ifs <;>
          exact ⟨rfl, by simp [acceptedSends, List.countP_cons, CreateJobsEvent.isAccepted],
            by simp [programmedVersions]⟩

section Runs

variable {doubleSha256Bin : List U8 → Vector U8 32} {canAllocate : Nat → Bool}

/-- A version with a bit outside the mask is never the zero that stands for the
version of the pool job. -/
theorem template_version {job : MinerJob} {version : U32} {sends : Nat} {extranonce2 : U64}
    {template : AsicJob} (houtside : version &&& ~~~job.versionMask ≠ 0)
    (h : miningBuildAsicJob doubleSha256Bin canAllocate job extranonce2
      (producerVersion job.versionMask version sends) = some template) :
    template.version = producerVersion job.versionMask version sends ∧
      template.versionMask = job.versionMask := by
  obtain ⟨hversion, hmask, -⟩ := miningBuildAsicJob_fields doubleSha256Bin canAllocate h
  have hne : producerVersion job.versionMask version sends ≠ 0 := by
    intro hzero
    apply houtside
    rw [← producerVersion_outside job.versionMask version sends, hzero]
    exact BitVec.zero_and
  rw [if_pos hne] at hversion
  exact ⟨hversion, hmask⟩

theorem step_rollsVersions {slot : Fin MINER_JOB_POOL_SIZE} {job : MinerJob} {version : U32}
    (hfixed : job.isRollable = false) (houtside : version &&& ~~~job.versionMask ≠ 0)
    {t : CreateJobsTask} {input : CreateJobsInput} (h : RollsVersions slot job version t)
    (hrepeats : Repeats slot job input) :
    RollsVersions slot job version
      (t.step BZM_CAPABILITIES (miningBuildAsicJob doubleSha256Bin canAllocate) input) := by
  obtain ⟨hwork, hcurrent, hprogrammed⟩ := h
  have hstep : t.step BZM_CAPABILITIES (miningBuildAsicJob doubleSha256Bin canAllocate) input =
      t.submit BZM_CAPABILITIES (miningBuildAsicJob doubleSha256Bin canAllocate) input job := by
    have hstatic : BZM_CAPABILITIES.supportStaticWork = false := by decide
    simp [step, hrepeats.1, hwork, hrepeats.2, hstatic]
  rw [hstep]
  obtain ⟨hwork', hcases⟩ := submit_fixed_cases
    (miningBuildAsicJob doubleSha256Bin canAllocate) t input hfixed
  rcases hcases with ⟨hversion, hsends, hversions⟩ |
    ⟨template, hbuilt, hversion, hsends, hversions⟩
  · exact ⟨hwork'.trans hwork, by rw [hversion, hsends, hcurrent],
      by rw [hversions, hsends, hprogrammed]⟩
  · rw [hcurrent] at hbuilt
    obtain ⟨htemplate, hmask⟩ := template_version houtside hbuilt
    refine ⟨hwork'.trans hwork, ?_, ?_⟩
    · rw [hversion, hsends, hcurrent, producerVersion_succ]
    · rw [hversions, hsends, htemplate, hmask, hprogrammed, rolledVersions_succ]

/-- **No version comes up twice.**  While a fixed-merkle job whose mask has at
least two supported bits is repeated, from any version with a bit outside the
mask, the versions programmed for up to a quarter of the supported range's
accepted sends are four for each send, pairwise distinct, and agree with the
starting version outside the mask. -/
theorem programmed_versions_distinct (t : CreateJobsTask) (slot : Fin MINER_JOB_POOL_SIZE)
    (job : MinerJob) (inputs : List CreateJobsInput)
    (hwork : t.currentWork = some slot) (hfixed : job.isRollable = false)
    (hbits : 2 ≤ (job.versionMask &&& BZM_CAPABILITIES.supportedVersionMask).cpop.toNat)
    (houtside : t.currentVersion &&& ~~~job.versionMask ≠ 0)
    (hinputs : ∀ input ∈ inputs, Repeats slot job input)
    (hsends : 4 * acceptedSends (run (step BZM_CAPABILITIES
        (miningBuildAsicJob doubleSha256Bin canAllocate)) { t with trace := [] } inputs).trace ≤
      2 ^ (job.versionMask &&& BZM_CAPABILITIES.supportedVersionMask).cpop.toNat) :
    let trace := (run (step BZM_CAPABILITIES
      (miningBuildAsicJob doubleSha256Bin canAllocate)) { t with trace := [] } inputs).trace
    (programmedVersions trace).length = 4 * acceptedSends trace ∧
      (programmedVersions trace).Nodup ∧
      ∀ version ∈ programmedVersions trace,
        version &&& ~~~job.versionMask = t.currentVersion &&& ~~~job.versionMask := by
  have hguarded : Guarded (step BZM_CAPABILITIES (miningBuildAsicJob doubleSha256Bin canAllocate))
      (fun _ input => Repeats slot job input) { t with trace := [] } inputs :=
    Guarded.of_forall _ (fun input hinput _ => hinputs input hinput) _
  have hrolls := Guarded.invariant (P := RollsVersions slot job t.currentVersion) _
    (fun _ _ h hrepeats => step_rollsVersions hfixed houtside h hrepeats) hguarded
    ⟨hwork, rfl, rfl⟩
  intro trace
  have hprogrammed := hrolls.programmed
  refine ⟨?_, ?_, ?_⟩
  · rw [hprogrammed, length_rolledVersions]
  · rw [hprogrammed]
    exact nodup_rolledVersions _ hbits hsends
  · intro version hversion
    rw [hprogrammed] at hversion
    exact rolledVersions_outside (poolMask_ne_zero hbits) hversion

end Runs

/-- A standard job that may roll the two lowest supported bits. -/
def twoBitJob : MinerJob :=
  { MinerJob.zero with type := .sv2Standard, version := 0x20000000, versionMask := 0x6000 }

/-- The task while `twoBitJob` is its current work. -/
def twoBitTask : CreateJobsTask :=
  { start with currentWork := some (minerJobSlot 0), currentVersion := 0x20000000 }

/-- A timer tick while `twoBitJob` is in every slot. -/
def twoBitTick : CreateJobsInput := ⟨none, fun _ => twoBitJob, true, 0, 0⟩

theorem programmed_versions_distinct_of_two_bits :
    let trace := (run (step BZM_CAPABILITIES (miningBuildAsicJob
      (fun _ => Vector.replicate 32 0) fun _ => true)) { twoBitTask with trace := [] }
      [twoBitTick]).trace
    (programmedVersions trace).length = 4 * acceptedSends trace ∧
      (programmedVersions trace).Nodup ∧
      ∀ version ∈ programmedVersions trace,
        version &&& ~~~twoBitJob.versionMask =
          twoBitTask.currentVersion &&& ~~~twoBitJob.versionMask :=
  programmed_versions_distinct twoBitTask (minerJobSlot 0) twoBitJob [twoBitTick] rfl rfl
    (by decide) (by decide)
    (by
      intro input hinput
      rw [List.mem_singleton] at hinput
      subst hinput
      exact ⟨rfl, rfl⟩)
    (by decide +kernel)

end CreateJobsTask

end EspMiner
