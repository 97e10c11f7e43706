import EspMiner.Asic.Capabilities
import EspMiner.Library.Run
import EspMiner.Stratum.Mining
import EspMiner.Stratum.MinerJob
import Mathlib.Logic.Function.Iterate

/-!
# The job task and its clean boundary

`main/tasks/create_jobs_task.c`: one iteration of the task takes the latest
notified pool slot, or a timer tick, and may submit work built from the current
slot.  Building the ASIC job is a parameter: every result below holds for every
builder.

A clean job, or a change of work generation, opens a boundary that the next
accepted submission closes.
-/

namespace EspMiner

open Library

/-- What one iteration of the task finds: the notified slot, if there is one,
the pool, whether the ASICs are up, and the published work generation as it is
read before and after the submission. -/
structure CreateJobsInput where
  slotNotify : Option U32
  pool : MinerJobPool
  asicInitialized : Bool
  generationBefore : U64
  generationAfter : U64

/-- What the task did. -/
inductive CreateJobsEvent where
  | notified (job : MinerJob)
  | setVersionMask (versionMask : U32)
  | sendJob (context : AsicJobContext) (template : AsicJob)
  | submission (context : AsicJobContext) (accepted : Bool)
  | decodeCoinbase (job : MinerJob)

/-- The locals of `create_jobs_task`, without its timer, and its trace. -/
structure CreateJobsTask where
  currentVersionMask : U32
  currentWork : Option (Fin MINER_JOB_POOL_SIZE)
  currentWorkSent : Bool
  cleanJobsPending : Bool
  currentWorkGeneration : U64
  extranonce2 : U64
  currentVersion : U32
  trace : List CreateJobsEvent

namespace CreateJobsTask

/-- The locals before the first iteration. -/
def start : CreateJobsTask where
  currentVersionMask := 0
  currentWork := none
  currentWorkSent := false
  cleanJobsPending := false
  currentWorkGeneration := 0xffffffffffffffff#64
  extranonce2 := 0
  currentVersion := 0
  trace := []

/-- The context that `generate_work_from_miner_job` submits under. -/
def contextOf (job : MinerJob) (cleanJobs : Bool) : AsicJobContext where
  workGeneration := job.workGeneration
  jobVersion := job.version
  cleanJobs := cleanJobs
  poolWork := true

section Task

variable (capabilities : AsicCapabilities)
variable (buildAsicJob : MinerJob → U64 → U32 → Option AsicJob)

/-- `generate_work_from_miner_job`: its answer, and the job it sent. -/
def generateWorkFromMinerJob (input : CreateJobsInput) (job : MinerJob) (extranonce2 : U64)
    (version : U32) (cleanJobs : Bool) : Bool × List CreateJobsEvent :=
  if input.asicInitialized = false ∨ input.generationBefore ≠ job.workGeneration then (false, [])
  else
    match buildAsicJob job extranonce2 version with
    | none => (false, [])
    | some template =>
        (decide (input.generationAfter = job.workGeneration),
          [.sendJob (contextOf job cleanJobs) template])

/-- The branch of the loop that a notification takes. -/
def receive (t : CreateJobsTask) (input : CreateJobsInput) (slotNotify : U32) : CreateJobsTask :=
  let newWork := input.pool (minerJobSlot slotNotify)
  let t := { t with
    currentWork := some (minerJobSlot slotNotify)
    currentWorkSent := false
    cleanJobsPending := newWork.cleanJobs ||
      decide (newWork.workGeneration ≠ t.currentWorkGeneration)
    currentWorkGeneration := newWork.workGeneration
    currentVersion := newWork.version
    trace := .notified newWork :: t.trace }
  let t := if newWork.versionMask ≠ t.currentVersionMask ∧ input.asicInitialized = true then
      { t with
        currentVersionMask := newWork.versionMask
        trace := .setVersionMask newWork.versionMask :: t.trace }
    else t
  { t with extranonce2 := 0 }

/-- The end of the loop: submit the current work and, if it was accepted, move
on to the next extranonce or version. -/
def submit (t : CreateJobsTask) (input : CreateJobsInput) (job : MinerJob) : CreateJobsTask :=
  let (sent, events) := generateWorkFromMinerJob buildAsicJob input job t.extranonce2
    t.currentVersion t.cleanJobsPending
  let t := { t with
    trace := .submission (contextOf job t.cleanJobsPending) sent :: events ++ t.trace }
  if sent = false then t
  else
    let t := { t with cleanJobsPending := false }
    let t := if t.currentWorkSent = false then { t with trace := .decodeCoinbase job :: t.trace }
      else t
    let t := { t with currentWorkSent := true }
    if job.isRollable then { t with extranonce2 := t.extranonce2 + 1 }
    else if capabilities.versionRolling = .midstate then
      let mask := job.versionMask &&& capabilities.supportedVersionMask
      let advance (version : U32) := incrementBitmask version mask
      let currentVersion := advance^[capabilities.maxVersionVariants.toNat] t.currentVersion
      { t with currentVersion := currentVersion }
    else t

/-- One iteration of the loop of `create_jobs_task`. -/
def step (t : CreateJobsTask) (input : CreateJobsInput) : CreateJobsTask :=
  match input.slotNotify with
  | some slotNotify =>
      let t := t.receive input slotNotify
      if t.cleanJobsPending = false then t
      else t.submit capabilities buildAsicJob input (input.pool (minerJobSlot slotNotify))
  | none =>
      match t.currentWork with
      | none => t
      | some slot =>
          if (input.pool slot).isRollable = false ∧ t.currentWorkSent = true ∧
              capabilities.supportStaticWork = true then t
          else t.submit capabilities buildAsicJob input (input.pool slot)

end Task

/-! ## Boundaries in the trace -/

/-- The work generation of the newest notified job. -/
def latestGeneration : List CreateJobsEvent → Option U64
  | [] => none
  | .notified job :: _ => some job.workGeneration
  | _ :: older => latestGeneration older

/-- A notified job opens a boundary: it is clean or changes the generation. -/
def OpensBoundary (job : MinerJob) (older : List CreateJobsEvent) : Prop :=
  job.cleanJobs = true ∨ latestGeneration older ≠ some job.workGeneration

/-- Some notification has opened a boundary and nothing has been accepted since. -/
def BoundaryOpen (trace : List CreateJobsEvent) : Prop :=
  ∃ newer job older, trace = newer ++ .notified job :: older ∧ OpensBoundary job older ∧
    ∀ context, .submission context true ∉ newer

/-- Every accepted submission is clean exactly when it is the first since a boundary. -/
def CleanExactlyAtBoundaries (trace : List CreateJobsEvent) : Prop :=
  ∀ newer context older, trace = newer ++ .submission context true :: older →
    (context.cleanJobs = true ↔ BoundaryOpen older)

theorem boundaryOpen_cons (event : CreateJobsEvent) (older : List CreateJobsEvent) :
    BoundaryOpen (event :: older) ↔
      (∃ job, event = .notified job ∧ OpensBoundary job older) ∨
      ((∀ context, event ≠ .submission context true) ∧ BoundaryOpen older) := by
  constructor
  · rintro ⟨newer, job, rest, hsplit, hopens, hnewer⟩
    cases newer with
    | nil =>
      obtain ⟨rfl, rfl⟩ := List.cons.inj hsplit
      exact .inl ⟨job, rfl, hopens⟩
    | cons first newer =>
      obtain ⟨rfl, rfl⟩ := List.cons.inj hsplit
      refine .inr ⟨fun context heq => hnewer context (by simp [heq]), newer, job, rest, rfl, hopens,
        fun context hmem => hnewer context (.tail _ hmem)⟩
  · rintro (⟨job, rfl, hopens⟩ | ⟨hevent, newer, job, rest, rfl, hopens, hnewer⟩)
    · exact ⟨[], job, older, rfl, hopens, by simp⟩
    · refine ⟨event :: newer, job, rest, rfl, hopens, ?_⟩
      intro context hmem
      rcases List.mem_cons.mp hmem with heq | hmem
      · exact hevent context heq.symm
      · exact hnewer context hmem

theorem cleanExactly_cons (event : CreateJobsEvent) (older : List CreateJobsEvent) :
    CleanExactlyAtBoundaries (event :: older) ↔
      (∀ context, event = .submission context true →
        (context.cleanJobs = true ↔ BoundaryOpen older)) ∧ CleanExactlyAtBoundaries older := by
  constructor
  · intro h
    refine ⟨fun context heq => h [] context older (by simp [heq]), ?_⟩
    intro newer context rest heq
    exact h (event :: newer) context rest (by simp [heq])
  · rintro ⟨hevent, holder⟩ newer context rest hsplit
    cases newer with
    | nil =>
      obtain ⟨rfl, rfl⟩ := List.cons.inj hsplit
      exact hevent context rfl
    | cons first newer => exact holder newer context rest (List.cons.inj hsplit).2

/-- The events that neither open nor close a boundary. -/
def Neutral : CreateJobsEvent → Prop
  | .notified _ => False
  | .submission _ accepted => accepted = false
  | _ => True

theorem neutral_append {events : List CreateJobsEvent} (h : ∀ event ∈ events, Neutral event)
    (older : List CreateJobsEvent) :
    (BoundaryOpen (events ++ older) ↔ BoundaryOpen older) ∧
      (CleanExactlyAtBoundaries (events ++ older) ↔ CleanExactlyAtBoundaries older) ∧
      latestGeneration (events ++ older) = latestGeneration older := by
  induction events with
  | nil => simp
  | cons event events ih =>
    obtain ⟨hopen, hexact, hlatest⟩ := ih fun e he => h e (.tail _ he)
    have hevent : Neutral event := h event (.head _)
    rw [List.cons_append, boundaryOpen_cons, cleanExactly_cons, hopen, hexact]
    cases event with
    | notified job => cases hevent
    | submission context accepted =>
      cases hevent
      simp [latestGeneration, hlatest]
    | setVersionMask versionMask => simp [latestGeneration, hlatest]
    | sendJob context template => simp [latestGeneration, hlatest]
    | decodeCoinbase job => simp [latestGeneration, hlatest]

/-! ## The pending flag tracks the boundary -/

/-- The pending flag and the remembered generation are what the trace says. -/
structure BoundaryTracked (t : CreateJobsTask) : Prop where
  pending : t.cleanJobsPending = true ↔ BoundaryOpen t.trace
  generation : latestGeneration t.trace = t.currentWork.map fun _ => t.currentWorkGeneration
  exact : CleanExactlyAtBoundaries t.trace

theorem start_boundaryTracked : BoundaryTracked start where
  pending := by
    constructor
    · intro h
      cases h
    · rintro ⟨newer, job, older, heq, -⟩
      simp [start] at heq
  generation := rfl
  exact := by
    intro newer context older heq
    simp [start] at heq

/-- A plain notification of the remembered generation meets a boundary that is
still pending, or no job at all: the recomputed flag then forgets it. -/
def ForgetsBoundary (t : CreateJobsTask) (input : CreateJobsInput) : Prop :=
  ∃ slotNotify, input.slotNotify = some slotNotify ∧
    (input.pool (minerJobSlot slotNotify)).cleanJobs = false ∧
    (input.pool (minerJobSlot slotNotify)).workGeneration = t.currentWorkGeneration ∧
    (t.cleanJobsPending = true ∨ t.currentWork = none)

theorem receive_boundaryTracked {t : CreateJobsTask} {input : CreateJobsInput} {slotNotify : U32}
    (h : BoundaryTracked t) (hslot : input.slotNotify = some slotNotify)
    (hkeeps : ¬ ForgetsBoundary t input) : BoundaryTracked (t.receive input slotNotify) := by
  obtain ⟨hpending, hgeneration, hexact⟩ := h
  set job := input.pool (minerJobSlot slotNotify) with hjob
  obtain ⟨events, hneutral, htrace⟩ : ∃ events, (∀ event ∈ events, Neutral event) ∧
      (t.receive input slotNotify).trace = events ++ .notified job :: t.trace := by
    simp only [receive]
    split
    · exact ⟨[.setVersionMask job.versionMask], by simp [Neutral], rfl⟩
    · exact ⟨[], by simp, rfl⟩
  have hpending' : (t.receive input slotNotify).cleanJobsPending =
      (job.cleanJobs || decide (job.workGeneration ≠ t.currentWorkGeneration)) := by
    simp only [receive]; split <;> rfl
  have hwork : (t.receive input slotNotify).currentWork = some (minerJobSlot slotNotify) ∧
      (t.receive input slotNotify).currentWorkGeneration = job.workGeneration := by
    simp only [receive]; split <;> exact ⟨rfl, rfl⟩
  obtain ⟨hopen, hclean, hlatest⟩ := neutral_append hneutral (.notified job :: t.trace)
  refine ⟨?_, ?_, ?_⟩
  · rw [hpending', htrace, hopen, boundaryOpen_cons]
    by_cases hopens : job.cleanJobs = true ∨ job.workGeneration ≠ t.currentWorkGeneration
    · have hboundary : OpensBoundary job t.trace := by
        refine hopens.imp_right fun hne heq => hne ?_
        rw [hgeneration] at heq
        cases hcurrent : t.currentWork <;> simp_all
      simpa [hboundary] using hopens
    · -- a plain notification of the remembered generation: nothing was pending
      simp only [not_or, Bool.not_eq_true, not_not] at hopens
      have hquiet : t.cleanJobsPending = false ∧ t.currentWork ≠ none := by
        by_contra hcon
        refine hkeeps ⟨slotNotify, hslot, hopens.1, hopens.2, ?_⟩
        by_contra hboth
        exact hcon (by simpa using hboth)
      have hclosed : ¬ BoundaryOpen t.trace := by
        rw [← hpending, hquiet.1]
        simp
      have hnot : ¬ OpensBoundary job t.trace := by
        rintro (hclean | hne)
        · rw [hopens.1] at hclean; cases hclean
        · refine hne ?_
          rw [hgeneration, hopens.2]
          cases hcurrent : t.currentWork with
          | none => exact absurd hcurrent hquiet.2
          | some slot => rfl
      simp [hopens.1, hopens.2, hclosed, hnot]
  · rw [htrace, hlatest, hwork.1, hwork.2]
    rfl
  · rw [htrace, hclean, cleanExactly_cons]
    exact ⟨fun context heq => (by cases heq), hexact⟩

section Submit

variable (capabilities : AsicCapabilities)
variable (buildAsicJob : MinerJob → U64 → U32 → Option AsicJob)

theorem submit_eq (t : CreateJobsTask) (input : CreateJobsInput) (job : MinerJob) :
    ∃ sent before after, (∀ event ∈ before, Neutral event) ∧ (∀ event ∈ after, Neutral event) ∧
      (t.submit capabilities buildAsicJob input job).trace =
        after ++ .submission (contextOf job t.cleanJobsPending) sent :: (before ++ t.trace) ∧
      (t.submit capabilities buildAsicJob input job).cleanJobsPending =
        (t.cleanJobsPending && !sent) ∧
      (t.submit capabilities buildAsicJob input job).currentWork = t.currentWork ∧
      (t.submit capabilities buildAsicJob input job).currentWorkGeneration =
        t.currentWorkGeneration := by
  have hevents : ∀ event ∈ (generateWorkFromMinerJob buildAsicJob input job t.extranonce2
      t.currentVersion t.cleanJobsPending).2, Neutral event := by
    unfold generateWorkFromMinerJob
    split
    · simp
    · split <;> simp [Neutral]
  cases hsent : (generateWorkFromMinerJob buildAsicJob input job t.extranonce2
      t.currentVersion t.cleanJobsPending).1 with
  | false =>
    refine ⟨false, _, [], hevents, by simp, ?_⟩
    simp [submit, hsent]
  | true =>
    refine ⟨true, _, if t.currentWorkSent = false then [.decodeCoinbase job] else [], hevents, ?_,
      ?_⟩
    · split <;> simp [Neutral]
    · simp only [submit, hsent, Bool.true_eq_false, if_false]
      split_ifs <;> simp

theorem submit_boundaryTracked {t : CreateJobsTask} (h : BoundaryTracked t)
    (input : CreateJobsInput) (job : MinerJob) :
    BoundaryTracked (t.submit capabilities buildAsicJob input job) := by
  obtain ⟨hpending, hgeneration, hexact⟩ := h
  obtain ⟨sent, before, after, hbefore, hafter, htrace, hpending', hwork, hgeneration'⟩ :=
    submit_eq capabilities buildAsicJob t input job
  obtain ⟨hopenBefore, hexactBefore, hlatestBefore⟩ := neutral_append hbefore t.trace
  obtain ⟨hopenAfter, hexactAfter, hlatestAfter⟩ := neutral_append hafter
    (.submission (contextOf job t.cleanJobsPending) sent :: (before ++ t.trace))
  refine ⟨?_, ?_, ?_⟩
  · rw [htrace, hpending', hopenAfter, boundaryOpen_cons, hopenBefore, ← hpending]
    cases sent <;> simp
  · rw [htrace, hlatestAfter, hwork, hgeneration', ← hgeneration, ← hlatestBefore]
    rfl
  · rw [htrace, hexactAfter, cleanExactly_cons, hexactBefore, hopenBefore, ← hpending]
    refine ⟨?_, hexact⟩
    intro context heq
    cases heq
    rfl

theorem step_boundaryTracked {t : CreateJobsTask} {input : CreateJobsInput}
    (h : BoundaryTracked t) (hkeeps : ¬ ForgetsBoundary t input) :
    BoundaryTracked (t.step capabilities buildAsicJob input) := by
  unfold step
  cases hslot : input.slotNotify with
  | some slotNotify =>
    have hreceived := receive_boundaryTracked h hslot hkeeps
    simp only
    split
    · exact hreceived
    · exact submit_boundaryTracked capabilities buildAsicJob hreceived input _
  | none =>
    cases hwork : t.currentWork with
    | none => exact h
    | some slot =>
      simp only
      split
      · exact h
      · exact submit_boundaryTracked capabilities buildAsicJob h input _

/-- **The clean boundary.**  While a plain notification of the remembered
generation arrives only after a job has been notified and with no boundary
pending, an accepted submission is clean exactly when it is the first one since
a clean notification or a change of generation. -/
theorem clean_exactly_at_boundaries {inputs : List CreateJobsInput}
    (hinputs : Guarded (step capabilities buildAsicJob)
      (fun t input => ¬ ForgetsBoundary t input) start inputs) :
    CleanExactlyAtBoundaries (run (step capabilities buildAsicJob) start inputs).trace :=
  (Guarded.invariant (P := BoundaryTracked) (step capabilities buildAsicJob)
    (fun _ _ h hkeeps => step_boundaryTracked capabilities buildAsicJob h hkeeps) hinputs
    start_boundaryTracked).exact

end Submit

/-! ## A forgotten boundary -/

/-- A job of generation 1. -/
def generationOneJob (cleanJobs : Bool) : MinerJob :=
  { MinerJob.zero with cleanJobs := cleanJobs, workGeneration := 1 }

/-- A clean job in slot 0 and plain jobs of its generation elsewhere. -/
def cleanThenPlain : MinerJobPool := fun slot => generationOneJob (decide (slot.val = 0))

/-- An iteration over `cleanThenPlain` while generation 1 is current. -/
def iteration (slotNotify : Option U32) (asicInitialized : Bool) : CreateJobsInput :=
  ⟨slotNotify, cleanThenPlain, asicInitialized, 1, 1⟩

/-- A builder that accepts every job. -/
def acceptingBuilder (_ : MinerJob) (_ : U64) (version : U32) : Option AsicJob :=
  some { AsicJob.zero with version := version }

theorem clean_exactly_at_boundaries_of_two :
    CleanExactlyAtBoundaries (run (step BZM_CAPABILITIES acceptingBuilder) start
      [iteration (some 0) true, iteration none true]).trace := by
  apply clean_exactly_at_boundaries BZM_CAPABILITIES acceptingBuilder
  refine ⟨?_, ?_, trivial⟩
  · rintro ⟨slotNotify, hslot, hclean, -⟩
    cases hslot
    cases hclean
  · rintro ⟨slotNotify, hslot, -⟩
    cases hslot

/-- The clean job arrives before the ASICs are up and is rejected, a plain job
of its generation follows, and the first accepted submission is not clean. -/
theorem plain_notification_forgets_boundary :
    ¬ CleanExactlyAtBoundaries (run (step BZM_CAPABILITIES acceptingBuilder) start
      [iteration (some 0) false, iteration (some 1) true, iteration none true]).trace := by
  intro h
  let rejected : List CreateJobsEvent :=
    [.sendJob (contextOf (generationOneJob false) false) AsicJob.zero,
      .notified (generationOneJob false),
      .submission (contextOf (generationOneJob true) true) false]
  have hclean := (h [.decodeCoinbase (generationOneJob false)]
    (contextOf (generationOneJob false) false)
    (rejected ++ [.notified (generationOneJob true)]) rfl).mpr
    ⟨rejected, generationOneJob true, [], rfl, .inl rfl, by simp [rejected]⟩
  cases hclean

end CreateJobsTask

end EspMiner
