import EspMiner.Bzm.Reactor
import Mathlib.Logic.Relation

/-!
# What one reactor call does

An assignment is refused, stores a job that cannot become a work item, is
aborted by the transport, or is committed.  A flush is opened once and its
callback repeated until it succeeds.  The invariants of the reactor are derived
from these cases and never from the bodies of the calls.
-/

namespace EspMiner

open Library

/-- What `bzm_reactor_init` accepts. -/
structure BzmReactorConfig.Valid (config : BzmReactorConfig) : Prop where
  engineCount_pos : 0 < config.engineCount
  engineCount_le : config.engineCount ≤ BZM_ENGINES_PER_ASIC
  timestampCount_le : config.timestampCount ≤ 0x7f#8

/-- The callbacks that an assignment makes use of all return true. -/
def BzmTransportAnswers.delivered (answers : BzmTransportAnswers) (transport : BzmTransportOps) :
    Bool :=
  answers.writeWork && (!transport.hasDispatchCheckpoint || answers.dispatchCheckpoint)

namespace BzmReactor

variable (r : BzmReactor) (template : JobRef)

/-- The handle that the next `store_generated` returns. -/
def nextHandle : AsicWorkHandle :=
  generatedHandle r.jobStore.nextGeneration.val r.jobStore.generatedSlot

/-- The reactor after `store_generated`. -/
def afterStore : BzmReactor :=
  { r with
    jobStore := (r.jobStore.storeGenerated template).2
    trace := .stored r.nextHandle :: r.trace }

/-- The reactor after some events that only its trace shows. -/
def noted (events : List BzmReactorEvent) : BzmReactor := { r with trace := events ++ r.trace }

def releaseHandle (handle : AsicWorkHandle) : BzmReactor :=
  { r with jobStore := (r.jobStore.release handle).2 }

/-- The events of handing a work item to the transport; the flag tells whether
all callbacks returned true. -/
inductive Sent (work : BzmWork) : Bool → List BzmReactorEvent → Prop
  | written (ok : Bool) : Sent work ok [.writeWork work ok]
  | checked (ok : Bool) : Sent work ok [.dispatchCheckpoint ok, .writeWork work true]

/-- The work item of an assignment that reaches the transport. -/
structure Attempted (index : Nat) (record : BzmAssigned) : Prop where
  notPending : r.flushPending = false
  space : (r.nextEngineSequence r.nextEngine).toNat < r.config.sequenceSpace
  scheduled : scheduledEngineAt r.nextEngine = some record.engine
  index_eq : r.assignmentIndexFor record.engine.physicalId = some index
  built : record.work.BuiltFrom ⟨r.nextHandle, template⟩ record.engine.physicalId
    (r.nextEngineSequence r.nextEngine) r.config.timestampCount r.config.enhancedMode
  handle_ne : r.nextHandle ≠ ASIC_WORK_HANDLE_INVALID
  context_eq : record.context = r.jobStore.contextFor template
  epoch_eq : record.epoch = r.epoch

/-- The possible outcomes of `assign`. -/
inductive AssignEffect (answers : BzmTransportAnswers) : BzmAssignStatus × BzmReactor → Prop
  | flushRequired
      (h : r.flushPending = true ∨
        r.config.sequenceSpace ≤ (r.nextEngineSequence r.nextEngine).toNat) :
      AssignEffect answers (.flushRequired, r)
  | refused {status : BzmAssignStatus} (hstatus : status = .invalid ∨ status = .busy)
      (h : ∀ engine, scheduledEngineAt r.nextEngine = some engine →
        r.assignmentIndexFor engine.physicalId = none) :
      AssignEffect answers (status, r)
  | unbuilt {engine : BzmEngineLocation} (hpending : r.flushPending = false)
      (hengine : scheduledEngineAt r.nextEngine = some engine)
      (hnone : bzmWorkBuild ⟨r.nextHandle, template⟩ engine.physicalId
        (r.nextEngineSequence r.nextEngine) r.config.timestampCount r.config.leadZeros
        r.config.enhancedMode = none) :
      AssignEffect answers (.invalid, (r.afterStore template).releaseHandle r.nextHandle)
  | aborted {index : Nat} {record : BzmAssigned} {sent : List BzmReactorEvent}
      (hanswers : answers.delivered r.transport = false)
      (h : r.Attempted template index record) (hsent : Sent record.work false sent) :
      AssignEffect answers
        (.transportError, ((r.afterStore template).noted sent).abortAssign r.nextHandle
          answers.flush)
  | committed {index : Nat} {record : BzmAssigned} {sent : List BzmReactorEvent}
      (hanswers : answers.delivered r.transport = true)
      (h : r.Attempted template index record) (hsent : Sent record.work true sent) :
      AssignEffect answers
        (.ok, ((r.afterStore template).noted sent).commitAssignment r.nextEngine index record)

theorem writeAndCommit_cases (scheduleIndex index : Nat) (record : BzmAssigned)
    (answers : BzmTransportAnswers) :
    ∃ sent, Sent record.work (answers.delivered r.transport) sent ∧
      r.writeAndCommit scheduleIndex index record answers =
        if answers.delivered r.transport then
          (.ok, (r.noted sent).commitAssignment scheduleIndex index record)
        else (.transportError,
          (r.noted sent).abortAssign record.work.source.handle answers.flush) := by
  cases hwrite : answers.writeWork with
  | false =>
    have hdelivered : answers.delivered r.transport = false := by
      simp [BzmTransportAnswers.delivered, hwrite]
    rw [hdelivered]
    refine ⟨_, .written false, ?_⟩
    simp [writeAndCommit, hwrite, noted]
  | true =>
    cases hcheckpoint : r.transport.hasDispatchCheckpoint with
    | false =>
      have hdelivered : answers.delivered r.transport = true := by
        simp [BzmTransportAnswers.delivered, hwrite, hcheckpoint]
      rw [hdelivered]
      refine ⟨_, .written true, ?_⟩
      simp [writeAndCommit, hwrite, hcheckpoint, noted]
    | true =>
      have hdelivered : answers.delivered r.transport = answers.dispatchCheckpoint := by
        simp [BzmTransportAnswers.delivered, hwrite, hcheckpoint]
      rw [hdelivered]
      refine ⟨_, .checked answers.dispatchCheckpoint, ?_⟩
      cases hanswer : answers.dispatchCheckpoint <;>
        simp [writeAndCommit, hwrite, hcheckpoint, hanswer, noted]

theorem assign_effect (answers : BzmTransportAnswers) :
    r.AssignEffect template answers (r.assign template answers) := by
  by_cases hpending : r.flushPending = true
  · have hassign : r.assign template answers = (.flushRequired, r) := by simp [assign, hpending]
    rw [hassign]
    exact .flushRequired (.inl hpending)
  have hnotPending : r.flushPending = false := by simpa using hpending
  by_cases hspace : r.config.sequenceSpace ≤ (r.nextEngineSequence r.nextEngine).toNat
  · have hassign : r.assign template answers = (.flushRequired, r) := by
      simp [assign, hnotPending, hspace]
    rw [hassign]
    exact .flushRequired (.inr hspace)
  cases hengine : scheduledEngineAt r.nextEngine with
  | none =>
    have hassign : r.assign template answers = (.invalid, r) := by
      simp [assign, hnotPending, hspace, hengine]
    rw [hassign]
    exact .refused (.inl rfl) (by simp [hengine])
  | some engine =>
    cases hindex : r.assignmentIndexFor engine.physicalId with
    | none =>
      have hassign : r.assign template answers = (.busy, r) := by
        simp [assign, hnotPending, hspace, hengine, hindex]
      rw [hassign]
      exact .refused (.inr rfl) (by simp [hengine, hindex])
    | some index =>
      cases hbuild : bzmWorkBuild ⟨r.nextHandle, template⟩ engine.physicalId
          (r.nextEngineSequence r.nextEngine) r.config.timestampCount r.config.leadZeros
          r.config.enhancedMode with
      | none =>
        have hassign : r.assign template answers =
            (.invalid, (r.afterStore template).releaseHandle r.nextHandle) := by
          simp only [nextHandle] at hbuild
          rw [assign, if_neg hpending]
          simp only [hspace, if_false, hengine, hindex, AsicJobStore.storeGenerated_fst, hbuild]
          rfl
        rw [hassign]
        exact .unbuilt hnotPending hengine hbuild
      | some built =>
        obtain ⟨hhandle, hbuilt⟩ := bzmWorkBuild_builtFrom hbuild
        -- the work item as it goes to the transport, with the whole nonce domain
        obtain ⟨work, hwork⟩ : ∃ work : BzmWork,
            work = { built with startingNonce := 0, endNonce := 0xffffffff#32 } := ⟨_, rfl⟩
        have hassign : r.assign template answers =
            (r.afterStore template).writeAndCommit r.nextEngine index
              ⟨engine, work, r.jobStore.contextFor template, r.epoch⟩ answers := by
          simp only [nextHandle] at hbuild
          rw [assign, if_neg hpending]
          simp only [hspace, if_false, hengine, hindex, AsicJobStore.storeGenerated_fst, hbuild,
            hwork]
          rfl
        have hattempt : r.Attempted template index
            ⟨engine, work, r.jobStore.contextFor template, r.epoch⟩ := by
          refine ⟨hnotPending, Nat.not_le.mp hspace, hengine, hindex, ?_, hhandle, rfl, rfl⟩
          rw [hwork]
          exact ⟨hbuilt.source_eq, hbuilt.engineId_eq, hbuilt.logicalSequence_eq,
            hbuilt.timestampCount_eq, hbuilt.startNtime_eq, hbuilt.versions_eq,
            hbuilt.midstates_eq, hbuilt.midstateCount_eq⟩
        obtain ⟨sent, hsent, heq⟩ := (r.afterStore template).writeAndCommit_cases
          r.nextEngine index ⟨engine, work, r.jobStore.contextFor template, r.epoch⟩ answers
        have htransport : (r.afterStore template).transport = r.transport := rfl
        rw [htransport] at hsent heq
        rw [hassign, heq, hattempt.built.source_eq]
        cases hanswers : answers.delivered r.transport with
        | true => exact .committed hanswers hattempt (hanswers ▸ hsent)
        | false => exact .aborted hanswers hattempt (hanswers ▸ hsent)

/-! ### Moves -/

/-- What `bzm_reactor_finish_flush` leaves when it does something. -/
def flushFinished : BzmReactor :=
  { r with
    assignments := fun _ => BzmAssignment.zero
    previousAssignments := fun _ => BzmAssignment.zero
    nextEngineSequence := fun _ => 0
    retiredSequences := fun _ => 0
    previousBatch := BzmAssignment.zero
    previousBatchComplete := false
    nextEngine := 0
    flushPending := false
    flushComplete := false
    resultsQuarantined := true
    trace := .flushFinished :: r.trace }

/-- The elementary changes of a reactor.  Every call is a sequence of them, so an
invariant is preserved by all calls once it is preserved by all moves. -/
inductive Move : BzmReactor → BzmReactor → Prop
  | submission (r : BzmReactor) (job : Option Nat) (context : AsicJobContext) :
      Move r { r with jobStore :=
        { r.jobStore with submissionJob := job, submissionContext := context } }
  | lost {r : BzmReactor} (template : JobRef) (hpending : r.flushPending = false)
      (hhandle : r.nextHandle = ASIC_WORK_HANDLE_INVALID) : Move r (r.afterStore template)
  | committed {r : BzmReactor} {template : JobRef} {index : Nat} {record : BzmAssigned}
      {sent : List BzmReactorEvent} (h : r.Attempted template index record)
      (hsent : Sent record.work true sent) :
      Move r (((r.afterStore template).noted sent).commitAssignment r.nextEngine index record)
  | aborted {r : BzmReactor} {template : JobRef} {index : Nat} {record : BzmAssigned}
      {sent : List BzmReactorEvent} (h : r.Attempted template index record)
      (hsent : Sent record.work false sent) :
      Move r (((r.afterStore template).noted sent).releaseHandle r.nextHandle).openFlush
  | opened {r : BzmReactor} (hpending : r.flushPending = false) : Move r r.openFlush
  | flushCalled {r : BzmReactor} (answer : Bool) (hpending : r.flushPending = true)
      (hcomplete : r.flushComplete = false) : Move r (r.callFlush answer)
  | finished {r : BzmReactor} (hpending : r.flushPending = true)
      (hcomplete : r.flushComplete = true) : Move r r.flushFinished
  | invalidated (r : BzmReactor) : Move r r.invalidateWork

open Relation (ReflTransGen)

theorem finishFlush_moves : ReflTransGen Move r r.finishFlush := by
  by_cases h : r.flushPending = true ∧ r.flushComplete = true
  · have hfinish : r.finishFlush = r.flushFinished := by
      simp [finishFlush, flushFinished, h.1, h.2]
    rw [hfinish]
    exact .single (.finished h.1 h.2)
  · have hfinish : r.finishFlush = r := by
      rw [finishFlush, if_pos]
      by_cases hpending : r.flushPending = true
      · have hcomplete : r.flushComplete = false := by
          simpa using fun hcomplete => h ⟨hpending, hcomplete⟩
        simp [hcomplete]
      · simp [hpending]
    rw [hfinish]

theorem callFlush_moves (answer : Bool) (hpending : r.flushPending = true) :
    ReflTransGen Move r (if r.flushComplete then r else r.callFlush answer) := by
  cases hcomplete : r.flushComplete with
  | true => exact .refl
  | false => exact .single (.flushCalled answer hpending hcomplete)

theorem beginFlush_moves (flushAnswer : Bool) :
    ReflTransGen Move r (r.beginFlush flushAnswer).2 := by
  cases hpending : r.flushPending with
  | true =>
    have hbegin : (r.beginFlush flushAnswer).2 =
        if r.flushComplete then r else r.callFlush flushAnswer := by
      cases hcomplete : r.flushComplete <;> simp [beginFlush, hpending, hcomplete]
    rw [hbegin]
    exact r.callFlush_moves flushAnswer hpending
  | false =>
    have hbegin : (r.beginFlush flushAnswer).2 = r.openFlush.callFlush flushAnswer := by
      simp [beginFlush, hpending]
    rw [hbegin]
    exact .head (.opened hpending) (.single (.flushCalled flushAnswer rfl rfl))

theorem abortAssign_moves {template : JobRef} {index : Nat} {record : BzmAssigned}
    {sent : List BzmReactorEvent} (h : r.Attempted template index record)
    (hsent : Sent record.work false sent) (flushAnswer : Bool) :
    ReflTransGen Move r
      (((r.afterStore template).noted sent).abortAssign r.nextHandle flushAnswer) := by
  -- the flush that the failed callback opens, before and after its own callback
  obtain ⟨opened, hopened⟩ : ∃ opened,
      opened = (((r.afterStore template).noted sent).releaseHandle r.nextHandle).openFlush :=
    ⟨_, rfl⟩
  have habort : ((r.afterStore template).noted sent).abortAssign r.nextHandle flushAnswer =
      if (opened.callFlush flushAnswer).flushComplete then
        (opened.callFlush flushAnswer).finishFlush
      else opened.callFlush flushAnswer := by
    have hpending : (r.afterStore template).flushPending = false := h.notPending
    rw [hopened]
    simp [abortAssign, beginFlush, noted, hpending, releaseHandle]
  have hcalled : ReflTransGen Move r (opened.callFlush flushAnswer) := by
    have hpending : opened.flushPending = true := by rw [hopened]; rfl
    have hcomplete : opened.flushComplete = false := by rw [hopened]; rfl
    refine .head ?_ (.single (.flushCalled flushAnswer hpending hcomplete))
    rw [hopened]
    exact .aborted h hsent
  rw [habort]
  split
  · exact hcalled.trans (finishFlush_moves _)
  · exact hcalled

theorem assign_moves (hvalid : r.config.Valid) (template : JobRef)
    (answers : BzmTransportAnswers) : ReflTransGen Move r (r.assign template answers).2 := by
  have heffect := r.assign_effect template answers
  generalize r.assign template answers = outcome at heffect ⊢
  cases heffect with
  | flushRequired => exact .refl
  | refused => exact .refl
  | unbuilt hpending hengine hnone =>
    -- the only way a work item cannot be built is the all-ones handle
    have hhandle : r.nextHandle = ASIC_WORK_HANDLE_INVALID := by
      by_contra hhandle
      have hsource : (AsicWork.mk r.nextHandle template).handle ≠ ASIC_WORK_HANDLE_INVALID :=
        hhandle
      obtain ⟨work, hwork⟩ := bzmWorkBuild_isSome hsource
        (activationAt_located hengine).2.1.physicalId_lt hvalid.timestampCount_le
      exact absurd (hnone.symm.trans hwork) (by simp)
    have hrelease : (r.afterStore template).releaseHandle r.nextHandle = r.afterStore template := by
      simp [releaseHandle, hhandle, AsicJobStore.release]
    show ReflTransGen Move r ((r.afterStore template).releaseHandle r.nextHandle)
    rw [hrelease]
    exact .single (.lost template hpending hhandle)
  | aborted _ h hsent => exact r.abortAssign_moves h hsent answers.flush
  | committed _ h hsent => exact .single (.committed h hsent)

/-- **Calls are sequences of moves.** -/
theorem step_moves (hvalid : r.config.Valid) (op : BzmReactorOp) :
    ReflTransGen Move r (r.step op) := by
  cases op with
  | assign template answers => exact r.assign_moves hvalid template answers
  | invalidateWork => exact .single (.invalidated r)
  | beginFlush flushAnswer => exact r.beginFlush_moves flushAnswer
  | finishFlush => exact r.finishFlush_moves
  | beginSubmission job context => exact .single (.submission r (some job.address) context)
  | endSubmission => exact .single (.submission r none AsicJobContext.zero)

@[simp] theorem callFlush_config (answer : Bool) : (r.callFlush answer).config = r.config := by
  unfold callFlush
  split <;> rfl

@[simp] theorem callFlush_transport (answer : Bool) :
    (r.callFlush answer).transport = r.transport := by
  unfold callFlush
  split <;> rfl

/-- No move touches the configuration or the transport. -/
theorem Move.config_eq {r s : BzmReactor} (h : Move r s) :
    s.config = r.config ∧ s.transport = r.transport := by
  cases h with
  | flushCalled answer _ _ => exact ⟨r.callFlush_config answer, r.callFlush_transport answer⟩
  | submission => exact ⟨rfl, rfl⟩
  | lost => exact ⟨rfl, rfl⟩
  | committed => exact ⟨rfl, rfl⟩
  | aborted => exact ⟨rfl, rfl⟩
  | opened => exact ⟨rfl, rfl⟩
  | finished => exact ⟨rfl, rfl⟩
  | invalidated => exact ⟨rfl, rfl⟩

/-- The invariant rule for one call. -/
theorem step_invariant {P : BzmReactor → Prop} (hmove : ∀ r s, P r → Move r s → P s)
    {r : BzmReactor} (hvalid : r.config.Valid) (h : P r) (op : BzmReactorOp) : P (r.step op) := by
  have hmoves := r.step_moves hvalid op
  generalize r.step op = s at hmoves ⊢
  induction hmoves with
  | refl => exact h
  | tail _ hlast ih => exact hmove _ _ ih hlast

/-- No call touches the configuration or the transport. -/
theorem step_config (hvalid : r.config.Valid) (op : BzmReactorOp) :
    (r.step op).config = r.config ∧ (r.step op).transport = r.transport := by
  refine step_invariant (P := fun s => s.config = r.config ∧ s.transport = r.transport)
    (fun s t hs hmove => ?_) hvalid ⟨rfl, rfl⟩ op
  rw [hmove.config_eq.1, hmove.config_eq.2]
  exact hs

/-- The history of a committed assignment. -/
theorem committed_trace (sent : List BzmReactorEvent) (scheduleIndex index : Nat)
    (record : BzmAssigned) :
    (((r.afterStore template).noted sent).commitAssignment scheduleIndex index record).trace =
      (.assigned record :: (sent ++ [.stored r.nextHandle])) ++ r.trace := by
  simp [commitAssignment, noted, afterStore]

/-- A history only grows. -/
theorem Move.trace_suffix {r s : BzmReactor} (h : Move r s) : r.trace <:+ s.trace := by
  cases h with
  | flushCalled answer =>
    unfold callFlush
    split
    · exact List.suffix_cons _ _
    · exact List.suffix_refl _
  | submission => exact List.suffix_refl _
  | lost => exact List.suffix_cons _ _
  | @committed template index record sent =>
    exact ⟨_, (r.committed_trace template sent r.nextEngine index record).symm⟩
  | @aborted template index record sent =>
    exact ⟨.flushBegun :: (sent ++ [.stored r.nextHandle]), by
      simp [openFlush, releaseHandle, noted, afterStore]⟩
  | opened => exact List.suffix_cons _ _
  | finished => exact List.suffix_cons _ _
  | invalidated => exact List.suffix_cons _ _

theorem step_trace_suffix (hvalid : r.config.Valid) (op : BzmReactorOp) :
    r.trace <:+ (r.step op).trace :=
  step_invariant (P := fun s => r.trace <:+ s.trace)
    (fun _ _ hs hmove => hs.trans hmove.trace_suffix) hvalid (List.suffix_refl _) op

end BzmReactor

end EspMiner
