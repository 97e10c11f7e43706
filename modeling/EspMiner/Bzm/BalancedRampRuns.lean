import EspMiner.Bzm.BalancedRampEvidence

/-!
# Runs of the balanced ramp

Over any sequence of commits and barriers the stacks of each ASIC stay balanced, a failed ramp
stays silent, and the barrier passes only if every engine was proved.  The proof goes up from one
callback to a pair of engines, to a commit or a barrier, and from these to the run.
-/

namespace EspMiner

open Library

/-- A call returned false. -/
def RampEvent.failedReturn : RampEvent → Bool
  | .committed _ result | .barrier result => !result
  | _ => false

namespace RampMachine

open RampScript

/-- A register is written only if no call has failed before. -/
def WriteAllowed (event : RampEvent) (older : List RampEvent) : Prop :=
  ∀ asicId request result, event = .write asicId request result →
    ∀ earlier ∈ older, earlier.failedReturn = false

/-- What a barrier that passes has seen: 236 activations on each ASIC, one for each
engine if the pairs were the topology's, and a clean parser. -/
structure BarrierEarned (topology : Prop) (older : List RampEvent) : Prop where
  activated : ∀ asicId ∈ bzmAsicWireIds,
    (activations asicId older).length = BZM_TOPOLOGY_ENGINE_COUNT
  proved : topology → ∀ asicId ∈ bzmAsicWireIds, ∀ topologyIndex < BZM_TOPOLOGY_ENGINE_COUNT,
    ∀ engine, bzmTopologyEngineAt topologyIndex = some engine →
      EngineProved asicId engine.physicalId (engineEvents asicId engine.physicalId older)
  clean : ∃ current earlier baseline,
    older = .parserStats true current :: .finalBarrier true :: earlier ∧
      acceptedBaseline earlier = some baseline ∧ parserIsCleanRelativeTo baseline current

/-- The history of a ramp at any time. -/
structure TraceOk (topology : Prop) (trace : List RampEvent) : Prop where
  pairs : ∀ asicId, PairsInOrder (activations asicId trace)
  writes : Throughout WriteAllowed trace
  barriers : Throughout (fun event older => event = .barrier true →
    BarrierEarned topology older) trace

/-- A ramp that has not failed, also during a call. -/
structure Sound (topology : Prop) (m : RampMachine) : Prop where
  trace : TraceOk topology m.trace
  failure : m.ramp.failure = none
  returns : ∀ event ∈ m.trace, event.failedReturn = false
  proved : ∀ asicId engineId, engineId ≠ BZM_CONTROL_ENGINE_ID →
    Repeated (EngineProved asicId engineId)
      ((activations asicId m.trace).countP (·.physicalId = engineId))
      (engineEvents asicId engineId m.trace)
  baseline : m.ramp.baselineCaptured = true →
    acceptedBaseline m.trace = some m.ramp.parserBaseline
  located : topology → ∀ asicId, ∀ engine ∈ activations asicId m.trace,
    bzmTopologyStackEngineAt engine.stack engine.stackIndex = some engine

/-- The pairs that were committed on each ASIC are complete. -/
def AllPaired (m : RampMachine) : Prop :=
  ∀ asicId index, bzmTopologyAsicIndex asicId = some index →
    Paired (m.ramp.nextPair index) (activations asicId m.trace)

/-- What holds between calls. -/
structure RampOk (topology : Prop) (m : RampMachine) : Prop where
  trace : TraceOk topology m.trace
  sound : m.ramp.failure = none → Sound topology m ∧ AllPaired m

variable {topology : Prop} {s m : RampMachine} {ops : RampOps}

/-! ## Callbacks -/

theorem activations_of_callbacks {events : List RampEvent}
    (h : ∀ event ∈ events, event.isCallback = true) (asicId : U8) (trace : List RampEvent) :
    activations asicId (events ++ trace) = activations asicId trace := by
  rw [activations, List.filterMap_append, List.filterMap_eq_nil_iff.mpr]
  · rfl
  · intro event hmem
    have := h event hmem
    cases event <;> first | rfl | cases this

theorem acceptedBaseline_of_callbacks {events : List RampEvent}
    (h : ∀ event ∈ events, event.isCallback = true) (trace : List RampEvent) :
    acceptedBaseline (events ++ trace) = acceptedBaseline trace := by
  rw [acceptedBaseline, List.findSome?_append, List.findSome?_eq_none_iff.mpr]
  · rfl
  · intro event hmem
    have := h event hmem
    cases event <;> first | rfl | cases this

theorem failedReturn_of_callback {event : RampEvent} (h : event.isCallback = true) :
    event.failedReturn = false := by
  cases event <;> first | rfl | cases h

theorem TraceOk.callbacks {events trace : List RampEvent} (h : TraceOk topology trace)
    (hreturns : ∀ event ∈ trace, event.failedReturn = false)
    (hevents : ∀ event ∈ events, event.isCallback = true) :
    TraceOk topology (events ++ trace) := by
  refine ⟨fun asicId => ?_, ?_, ?_⟩
  · rw [activations_of_callbacks hevents]
    exact h.pairs asicId
  · induction events with
    | nil => exact h.writes
    | cons event events ih =>
      obtain ⟨hevent, hrest⟩ := List.forall_mem_cons.mp hevents
      refine ⟨fun _ _ _ _ earlier hmem => ?_, ih hrest⟩
      rcases List.mem_append.mp hmem with hmem | hmem
      · exact failedReturn_of_callback (hrest earlier hmem)
      · exact hreturns earlier hmem
  · induction events with
    | nil => exact h.barriers
    | cons event events ih =>
      obtain ⟨hevent, hrest⟩ := List.forall_mem_cons.mp hevents
      refine ⟨fun heq => ?_, ih hrest⟩
      rw [heq] at hevent
      cases hevent

/-- A ramp that gives up keeps its history. -/
theorem Sound.gaveUp (h : Sound topology s) (hm : GaveUp s m) :
    m.ramp.failure ≠ none ∧ TraceOk topology m.trace := by
  obtain ⟨hfailure, events, hevents, htrace⟩ := hm
  exact ⟨hfailure, htrace ▸ h.trace.callbacks h.returns hevents⟩

/-- The ramp changes only where no invariant looks. -/
theorem Sound.offEngines (h : Sound topology s) (hoff : OffEngines s m)
    (hfailure : m.ramp.failure = s.ramp.failure)
    (hcaptured : m.ramp.baselineCaptured = s.ramp.baselineCaptured)
    (hbaseline : m.ramp.parserBaseline = s.ramp.parserBaseline) :
    Sound topology m ∧ ∀ asicId, activations asicId m.trace = activations asicId s.trace := by
  obtain ⟨events, hevents, hengines, htrace⟩ := hoff
  have hactivations (asicId : U8) :
      activations asicId m.trace = activations asicId s.trace := by
    rw [htrace, activations_of_callbacks hevents]
  refine ⟨⟨htrace ▸ h.trace.callbacks h.returns hevents, hfailure.trans h.failure,
    fun event hmem => ?_, fun asicId engineId hengine => ?_, fun hcapture => ?_,
    fun htopology asicId engine hmem => ?_⟩, hactivations⟩
  · rw [htrace] at hmem
    rcases List.mem_append.mp hmem with hmem | hmem
    · exact failedReturn_of_callback (hevents event hmem)
    · exact h.returns event hmem
  · rw [hactivations, htrace, engineEvents_append, engineEvents,
      List.filter_eq_nil_iff.mpr fun event hmem => by
        rw [hengines event hmem asicId engineId hengine]
        exact Bool.false_ne_true]
    exact h.proved asicId engineId hengine
  · rw [htrace, acceptedBaseline_of_callbacks hevents, hbaseline]
    exact h.baseline (hcaptured ▸ hcapture)
  · rw [hactivations] at hmem
    exact h.located htopology asicId engine hmem

/-! ## A commit -/

/-- An accepted baseline is noted. -/
theorem Sound.acceptBaseline (h : Sound topology s) (stats : BzmSerialParserStats)
    {ramp : BzmBalancedRamp} (hfailure : ramp.failure = none)
    (hstats : ramp.parserBaseline = stats) :
    Sound topology ⟨ramp, .baseline stats :: s.trace⟩ := by
  refine ⟨⟨h.trace.pairs, ⟨nofun, h.trace.writes⟩, ⟨nofun, h.trace.barriers⟩⟩, hfailure,
    List.forall_mem_cons.mpr ⟨rfl, h.returns⟩, h.proved, fun _ => ?_, h.located⟩
  rw [hstats]
  rfl

/-- An engine more is proved active. -/
theorem Sound.activate (h : Sound topology s) {asicId : U8} {engine : BzmEngineLocation}
    (hactive : Activated asicId engine s m)
    (hpairs : PairsInOrder (engine :: activations asicId s.trace))
    (hlocated : topology →
      bzmTopologyStackEngineAt engine.stack engine.stackIndex = some engine) :
    Sound topology m ∧ ∀ other, activations other m.trace =
      if asicId = other then engine :: activations asicId s.trace
      else activations other s.trace := by
  obtain ⟨hramp, events, hevents, hproved, hothers, htrace⟩ := hactive
  have hactivations (other : U8) : activations other m.trace =
      if asicId = other then engine :: activations asicId s.trace
      else activations other s.trace := by
    have hrest := activations_of_callbacks hevents other s.trace
    rw [htrace, activations, List.filterMap_cons]
    split
    · next hnone =>
      dsimp only at hnone
      split at hnone
      · cases hnone
      · next hne => rw [if_neg hne]; exact hrest
    · next found hsome =>
      dsimp only at hsome
      split at hsome
      · next heq =>
        subst heq
        rw [← Option.some.inj hsome, if_pos rfl]
        exact congrArg _ hrest
      · cases hsome
  have hbefore := h.trace.callbacks h.returns hevents
  refine ⟨⟨⟨fun other => ?_, ?_, ?_⟩, ?_, fun event hmem => ?_, fun other engineId hengine => ?_,
    fun hcapture => ?_, fun htopology other found hmem => ?_⟩, hactivations⟩
  · rw [hactivations]
    split
    · exact hpairs
    · exact h.trace.pairs other
  · rw [htrace]
    exact ⟨nofun, hbefore.writes⟩
  · rw [htrace]
    exact ⟨nofun, hbefore.barriers⟩
  · rw [hramp]
    exact h.failure
  · rw [htrace] at hmem
    rcases List.mem_cons.mp hmem with rfl | hmem
    · rfl
    · rcases List.mem_append.mp hmem with hmem | hmem
      · exact failedReturn_of_callback (hevents event hmem)
      · exact h.returns event hmem
  · have hbase := h.proved other engineId hengine
    have hsplit : engineEvents other engineId m.trace =
        engineEvents other engineId events ++ engineEvents other engineId s.trace := by
      rw [htrace, engineEvents, List.filter_cons_of_neg Bool.false_ne_true]
      exact engineEvents_append other engineId events s.trace
    rw [hactivations, hsplit]
    by_cases hsame : asicId = other ∧ engine.physicalId = engineId
    · obtain ⟨rfl, rfl⟩ := hsame
      rw [if_pos rfl, List.countP_cons_of_pos (by simp)]
      exact .succ hproved hbase
    · rw [hothers other engineId hsame, List.nil_append]
      split
      · next heq =>
        subst heq
        rw [List.countP_cons_of_neg (by simpa using fun hid => hsame ⟨rfl, hid⟩)]
        exact hbase
      · exact hbase
  · rw [htrace, acceptedBaseline, List.findSome?_cons]
    have := acceptedBaseline_of_callbacks hevents s.trace
    rw [hramp] at hcapture ⊢
    exact this.trans (h.baseline hcapture)
  · rw [hactivations] at hmem
    split at hmem
    · rcases List.mem_cons.mp hmem with rfl | hmem
      · exact hlocated htopology
      · exact h.located htopology asicId found hmem
    · exact h.located htopology other found hmem

/-- The locations of a pair of the topology. -/
theorem bzmTopologyBalancedPairAt_located {pair : BzmEnginePair}
    (h : bzmTopologyBalancedPairAt pair.pairIndex = some pair) :
    bzmTopologyStackEngineAt .bottom pair.pairIndex = some pair.bottom ∧
      bzmTopologyStackEngineAt .top pair.pairIndex = some pair.top := by
  unfold bzmTopologyBalancedPairAt at h
  split at h
  · cases h
  · split at h
    · next hbottom htop =>
      have hpair := Option.some.inj h
      exact ⟨hbottom.trans (congrArg (fun p => some p.bottom) hpair),
        htop.trans (congrArg (fun p => some p.top) hpair)⟩
    · cases h

/-- A commit gave up, or the ramp goes on with a pair more. -/
def CommitFailed (topology : Prop) (m : RampMachine) : Prop :=
  m.ramp.failure ≠ none ∧ TraceOk topology m.trace

/-- What a commit leaves alone before it activates engines. -/
def Kept (s m : RampMachine) : Prop :=
  m.ramp.nextPair = s.ramp.nextPair ∧
    ∀ asicId, activations asicId m.trace = activations asicId s.trace

/-- A callback that does not touch an engine. -/
theorem Sound.callback (h : Sound topology s) {event : RampEvent}
    (hcallback : event.isCallback = true)
    (hengine : ∀ asicId engineId, engineId ≠ BZM_CONTROL_ENGINE_ID →
      event.concerns asicId engineId = false) :
    Sound topology (s.record event) ∧ Kept s (s.record event) := by
  obtain ⟨hsound, hactivations⟩ :=
    h.offEngines ((OffEngines.refl s).record hcallback hengine) rfl rfl rfl
  exact ⟨hsound, rfl, hactivations⟩

/-- The two engines of a pair, in either order. -/
theorem activatePair_spec (hsound : Sound topology s) (hpaired : AllPaired s) {asicId : U8}
    {index : Nat} (hindex : bzmTopologyAsicIndex asicId = some index)
    {first second : BzmEngineLocation} (hfirst : first.stackIndex = s.ramp.nextPair index)
    (hsecond : second.stackIndex = s.ramp.nextPair index) (hstack : first.stack ≠ second.stack)
    (hlocated : topology → bzmTopologyStackEngineAt first.stack first.stackIndex = some first ∧
      bzmTopologyStackEngineAt second.stack second.stackIndex = some second) :
    Wp (do
      activateEngine ops asicId first
      activateEngine ops asicId second
      RampScript.update fun ramp => { ramp with
        nextPair := fun other =>
          if other = index then ramp.nextPair other + 1 else ramp.nextPair other
        completedPairs := ramp.completedPairs + 1 })
      (fun _ m => Sound topology m ∧ AllPaired m) (CommitFailed topology) s := by
  have hcomplete := hpaired asicId index hindex
  rw [wp_bind]
  refine (activateEngine_spec asicId first).mono (fun _ m hm => ?_) fun m hm => hsound.gaveUp hm
  obtain ⟨hsound', hactivations⟩ := hsound.activate hm
    ⟨_, _, hcomplete, .inr ⟨first, hfirst, rfl⟩⟩ fun htopology => (hlocated htopology).1
  rw [wp_bind]
  refine (activateEngine_spec asicId second).mono (fun _ r hr => ?_) fun r hr => hsound'.gaveUp hr
  have hpair : Paired (s.ramp.nextPair index + 1)
      (second :: first :: activations asicId s.trace) := .pair hcomplete hfirst hsecond hstack
  have hnow : activations asicId m.trace = first :: activations asicId s.trace := by
    rw [hactivations, if_pos rfl]
  obtain ⟨hsound'', hactivations'⟩ := hsound'.activate hr
    (hnow ▸ ⟨_, _, hpair, .inl rfl⟩) fun htopology => (hlocated htopology).2
  refine ⟨⟨hsound''.trace, hsound''.failure, hsound''.returns, hsound''.proved,
    hsound''.baseline, hsound''.located⟩, fun other otherIndex hother => ?_⟩
  have hnext : r.ramp.nextPair = s.ramp.nextPair := by
    rw [hr.1, hm.1]
  show Paired (if otherIndex = index then r.ramp.nextPair otherIndex + 1
    else r.ramp.nextPair otherIndex) (activations other r.trace)
  rw [hnext, hactivations']
  by_cases hsame : asicId = other
  · subst hsame
    cases Option.some.inj (hindex.symm.trans hother)
    rw [if_pos rfl, if_pos rfl, hnow]
    exact hpair
  · have hne : otherIndex ≠ index := by
      rintro rfl
      exact hsame (bzmTopologyAsicIndex_inj hindex hother)
    rw [if_neg hne, if_neg hsame, hactivations, if_neg hsame]
    exact hpaired other otherIndex hother

theorem commitPair_spec (hsound : Sound topology s) (hpaired : AllPaired s) {asicId : U8}
    {index : Nat} (hindex : bzmTopologyAsicIndex asicId = some index) {pair : BzmEnginePair}
    (haccepted : pairAccepted s.ramp index pair)
    (htopology : topology → bzmTopologyBalancedPairAt pair.pairIndex = some pair) :
    Wp (commitPair ops asicId index pair) (fun _ m => Sound topology m ∧ AllPaired m)
      (CommitFailed topology) s := by
  rw [commitPair, wp_bind]
  refine (captureBaseline_spec asicId).mono (fun _ m hm => ?_) fun m hm => hsound.gaveUp hm
  have hcaptured : Sound topology m ∧ Kept s m := by
    rcases hm with ⟨rfl, -⟩ | ⟨stats, rfl⟩
    · exact ⟨hsound, rfl, fun _ => rfl⟩
    · obtain ⟨hasked, hkept⟩ :=
        hsound.callback (show (RampEvent.parserStats true stats).isCallback = true from rfl)
          fun _ _ _ => rfl
      exact ⟨hasked.acceptBaseline stats hsound.failure rfl, hkept⟩
  clear hm
  obtain ⟨hsound₁, hkept₁⟩ := hcaptured
  rw [wp_bind]
  refine (prepareAsic_spec asicId index).mono (fun _ r hr => ?_) fun r hr => hsound₁.gaveUp hr
  obtain ⟨⟨prepared, hramp⟩, hoff⟩ := hr
  obtain ⟨hsound₂, hkept₂⟩ :=
    hsound₁.offEngines hoff (by rw [hramp]) (by rw [hramp]) (by rw [hramp])
  rw [wp_bind, telemetrySample, wp_call]
  generalize ops.telemetrySample r.trace asicId = answer
  obtain ⟨result, sample⟩ := answer
  obtain ⟨hsound₃, -, hkept₃⟩ := hsound₂.callback
    (show (RampEvent.telemetrySample asicId result sample).isCallback = true from rfl)
    fun _ _ _ => rfl
  have hnext : r.ramp.nextPair = s.ramp.nextPair := by
    rw [hramp]
    exact hkept₁.1
  have hpaired₃ : AllPaired (r.record (.telemetrySample asicId result sample)) := by
    intro other otherIndex hother
    rw [hkept₃, hkept₂, hkept₁.2, RampMachine.record_ramp, hnext]
    exact hpaired other otherIndex hother
  obtain ⟨-, hbottom, htop, hbottomIndex, htopIndex, hpairIndex⟩ := haccepted
  have hindexes : (r.record (.telemetrySample asicId result sample)).ramp.nextPair index =
      pair.pairIndex := (congrFun hnext index).trans hpairIndex
  have hlocated (h : topology) :
      bzmTopologyStackEngineAt pair.bottom.stack pair.bottom.stackIndex = some pair.bottom ∧
        bzmTopologyStackEngineAt pair.top.stack pair.top.stackIndex = some pair.top := by
    rw [hbottom, htop, hbottomIndex, htopIndex]
    exact bzmTopologyBalancedPairAt_located (htopology h)
  dsimp only
  split
  · exact wp_bind.mpr ((fail_spec (.refl _) _ _ _ _ _ _).mono (fun _ _ h => h)
      fun m hm => hsound₃.gaveUp hm)
  · split
    · exact activatePair_spec hsound₃ hpaired₃ hindex (hbottomIndex.trans hindexes.symm)
        (htopIndex.trans hindexes.symm) (by rw [hbottom, htop]; decide) hlocated
    · exact activatePair_spec hsound₃ hpaired₃ hindex (htopIndex.trans hindexes.symm)
        (hbottomIndex.trans hindexes.symm) (by rw [hbottom, htop]; decide)
        fun h => (hlocated h).symm

/-! ## Calls -/

/-- A note that is neither a write nor a barrier that passes. -/
theorem TraceOk.note {trace : List RampEvent} (h : TraceOk topology trace) {event : RampEvent}
    (hwrite : ∀ asicId request result, event ≠ .write asicId request result)
    (hactive : ∀ asicId engine, event ≠ .activated asicId engine)
    (hbarrier : event = .barrier true → BarrierEarned topology trace) :
    TraceOk topology (event :: trace) := by
  refine ⟨fun asicId => ?_, ⟨fun _ _ _ heq => absurd heq (hwrite _ _ _), h.writes⟩,
    ⟨hbarrier, h.barriers⟩⟩
  have hsame : activations asicId (event :: trace) = activations asicId trace := by
    cases event <;> first | rfl | exact absurd rfl (hactive _ _)
  rw [hsame]
  exact h.pairs asicId

/-- A call returns. -/
theorem RampOk.finish {script : RampScript PUnit} {returned : Bool → RampEvent}
    (hreturned : (∃ asicId, returned = .committed asicId) ∨ returned = .barrier)
    (h : Wp script (fun _ m => Sound topology m ∧ AllPaired m ∧
      (returned = .barrier → BarrierEarned topology m.trace)) (CommitFailed topology) s) :
    RampOk topology (s.finish script returned) := by
  have hnote {result : Bool} {m : RampMachine} (htrace : TraceOk topology m.trace)
      (hearned : returned result = .barrier true → BarrierEarned topology m.trace) :
      TraceOk topology (m.record (returned result)).trace := by
    rcases hreturned with ⟨asicId, rfl⟩ | rfl
    · exact htrace.note nofun nofun hearned
    · exact htrace.note nofun nofun hearned
  unfold RampMachine.finish
  unfold Wp at h
  split
  · next m hm =>
    rw [hm] at h
    obtain ⟨hsound, hpaired, hearned⟩ := h
    have htrace : TraceOk topology (m.record (returned true)).trace := by
      refine hnote hsound.trace fun heq => hearned ?_
      rcases hreturned with ⟨asicId, rfl⟩ | rfl
      · cases heq
      · rfl
    refine ⟨htrace, fun _ => ⟨⟨htrace, hsound.failure, ?_, ?_, ?_, ?_⟩, ?_⟩⟩
    all_goals rcases hreturned with ⟨asicId, rfl⟩ | rfl
    · exact List.forall_mem_cons.mpr ⟨rfl, hsound.returns⟩
    · exact List.forall_mem_cons.mpr ⟨rfl, hsound.returns⟩
    · exact hsound.proved
    · exact hsound.proved
    · exact hsound.baseline
    · exact hsound.baseline
    · exact hsound.located
    · exact hsound.located
    · exact hpaired
    · exact hpaired
  · next m hm =>
    rw [hm] at h
    refine ⟨hnote h.2 fun heq => ?_, fun hnone => absurd hnone h.1⟩
    rcases hreturned with ⟨asicId, rfl⟩ | rfl
    · cases heq
    · cases heq

theorem RampOk.commitPair (h : RampOk topology s) (complete : Bool) (asicId : U8)
    {pair : Option BzmEnginePair} (htopology : topology → ∀ found ∈ pair,
      bzmTopologyBalancedPairAt found.pairIndex = some found) :
    RampOk topology (s.finish (bzmBalancedRampCommitPair ops complete asicId pair)
      (.committed asicId)) := by
  refine RampOk.finish (.inl ⟨asicId, rfl⟩) ?_
  have hfail (engineId : Nat) : Wp (fail .argument asicId engineId 0 1 0 : RampScript PUnit)
      (fun _ m => Sound topology m ∧ AllPaired m ∧
        (RampEvent.committed asicId = .barrier → BarrierEarned topology m.trace))
      (CommitFailed topology) s := ⟨nofun, h.trace⟩
  rw [bzmBalancedRampCommitPair, wp_bind, wp_get]
  dsimp only
  split
  · next hfailed => exact ⟨fun hnone => (nomatch hnone ▸ hfailed), h.trace⟩
  · next hfailed =>
    obtain ⟨hsound, hpaired⟩ := h.sound (by simpa using hfailed)
    split
    · next found index hindex =>
      split
      · exact hfail _
      · next hchecks =>
        obtain ⟨-, haccepted⟩ := not_or.mp hchecks
        exact (commitPair_spec hsound hpaired hindex (not_not.mp haccepted) fun ht =>
          htopology ht found rfl).mono
            (fun _ m hm => ⟨hm.1, hm.2, fun heq => (nomatch congrFun heq true)⟩) fun _ hm => hm
    · exact hfail _
    · exact hfail _

/-! ## The barrier -/

theorem mem_bzmAsicWireIds {asicId : U8} (h : asicId ∈ bzmAsicWireIds) :
    ∃ index < BZM_BRINGUP_ASIC_COUNT, bzmTopologyAsicIndex asicId = some index :=
  ⟨bzmAsicWireIds.idxOf asicId, List.idxOf_lt_length_of_mem h, if_pos h⟩

/-- A physical id of the topology is not that of the control engine. -/
theorem physicalId_ne_control {engine : BzmEngineLocation} (h : engine.Located) :
    engine.physicalId ≠ BZM_CONTROL_ENGINE_ID := by
  intro heq
  have hfound := h.fromPhysicalId
  have hnone : bzmTopologyFromPhysicalId BZM_CONTROL_ENGINE_ID = none := by decide
  rw [heq, hnone] at hfound
  cases hfound

/-- In all pairs of the topology each engine occurs once. -/
theorem Paired.countP_physicalId {engines : List BzmEngineLocation}
    (h : Paired BZM_TOPOLOGY_PAIR_COUNT engines)
    (hlocated : ∀ engine ∈ engines,
      bzmTopologyStackEngineAt engine.stack engine.stackIndex = some engine)
    {topologyIndex : Nat} (hlt : topologyIndex < BZM_TOPOLOGY_ENGINE_COUNT)
    {engine : BzmEngineLocation} (hengine : bzmTopologyEngineAt topologyIndex = some engine) :
    engine.Located ∧ engines.countP (·.physicalId = engine.physicalId) = 1 := by
  obtain ⟨stack, stackIndex, hindex, hat⟩ := exists_stackEngineAt hengine hlt
  have hfound := (activationAt_located hat).2.1
  have hsame : ∀ other ∈ engines, other.physicalId = engine.physicalId ↔
      other.stack = stack ∧ other.stackIndex = stackIndex := by
    intro other hmem
    have hother := stackEngineAt_eq_activationAt (hlocated other hmem)
    constructor
    · intro hid
      have heq := (activationAt_located hother).2.1.eq_of_physicalId hfound hid
      exact activationIndex_inj (activationAt_inj (heq ▸ hother) hat)
    · rintro ⟨hstack, hstackIndex⟩
      rw [hstack, hstackIndex, hat] at hother
      rw [Option.some.inj hother]
  refine ⟨hfound, ?_⟩
  refine (List.countP_congr fun other hmem => ?_).trans
    ((h.countP_slot stack stackIndex).trans (if_pos hindex))
  rw [decide_eq_true_iff, decide_eq_true_iff]
  exact hsame other hmem

theorem Repeated.one {P : List RampEvent → Prop} {events : List RampEvent}
    (h : Repeated P 1 events) : P events := by
  cases h with
  | succ hnewer holder =>
    cases holder
    rwa [List.append_nil]

/-- All pairs are committed: the barrier has what it needs. -/
theorem Sound.earned (hsound : Sound topology s) (hpaired : AllPaired s)
    (hnext : ∀ index < BZM_BRINGUP_ASIC_COUNT, s.ramp.nextPair index = BZM_TOPOLOGY_PAIR_COUNT)
    (hcaptured : s.ramp.baselineCaptured = true) {current : BzmSerialParserStats}
    (hclean : parserIsCleanRelativeTo s.ramp.parserBaseline current) :
    BarrierEarned topology (.parserStats true current :: .finalBarrier true :: s.trace) := by
  have hcomplete {asicId : U8} (hasic : asicId ∈ bzmAsicWireIds) :
      Paired BZM_TOPOLOGY_PAIR_COUNT (activations asicId s.trace) := by
    obtain ⟨index, hlt, hindex⟩ := mem_bzmAsicWireIds hasic
    exact hnext index hlt ▸ hpaired asicId index hindex
  refine ⟨fun asicId hasic => (hcomplete hasic).length, ?_,
    ⟨current, s.trace, _, rfl, hsound.baseline hcaptured, hclean⟩⟩
  intro htopology asicId hasic topologyIndex hlt engine hengine
  obtain ⟨hlocated, hcount⟩ := (hcomplete hasic).countP_physicalId
    (hsound.located htopology asicId) hlt hengine
  have hproved := hsound.proved asicId engine.physicalId (physicalId_ne_control hlocated)
  rw [hcount] at hproved
  exact hproved.one

theorem RampOk.barrier (h : RampOk topology s) (complete : Bool) (asicCount pairsPerAsic : Nat) :
    RampOk topology (s.finish (bzmBalancedRampBarrier ops complete asicCount pairsPerAsic)
      .barrier) := by
  refine RampOk.finish (.inr rfl) ?_
  rw [bzmBalancedRampBarrier, wp_bind, wp_get]
  dsimp only
  split
  · exact ⟨by rintro ⟨⟩, h.trace⟩
  · next hready =>
    simp only [not_or] at hready
    obtain ⟨-, hnotFailed, hcaptured, -⟩ := hready
    obtain ⟨hsound, hpaired⟩ := h.sound (by simpa using hnotFailed)
    split
    · exact ⟨by rintro ⟨⟩, h.trace⟩
    · next hnone =>
      have hnext : ∀ index < BZM_BRINGUP_ASIC_COUNT,
          s.ramp.nextPair index = BZM_TOPOLOGY_PAIR_COUNT := by
        intro index hlt
        simpa using List.find?_eq_none.mp hnone index (List.mem_range.mpr hlt)
      rw [wp_bind, finalBarrier, wp_call]
      generalize ops.finalBarrier s.trace = passed
      have hpassed := hsound.callback
        (show (RampEvent.finalBarrier passed).isCallback = true from rfl) fun _ _ _ => rfl
      cases passed with
      | false => exact ⟨by rintro ⟨⟩, hpassed.1.trace⟩
      | true =>
        rw [if_pos rfl, wp_bind, parserStats, wp_call]
        generalize ops.parserStats _ = answer
        obtain ⟨result, current⟩ := answer
        have hasked := hpassed.1.callback
          (show (RampEvent.parserStats result current).isCallback = true from rfl) fun _ _ _ => rfl
        dsimp only
        split
        · next hclean =>
          obtain ⟨rfl, hclean⟩ := hclean
          exact ⟨hasked.1, hpaired, fun _ =>
            hsound.earned hpaired hnext (eq_true_of_ne_false hcaptured) hclean⟩
        · exact ⟨by rintro ⟨⟩, hasked.1.trace⟩

/-! ## Runs -/

/-- The pairs that are committed are those of the topology. -/
def Input.FromTopology : Input → Prop
  | .commitPair _ _ (some pair) => bzmTopologyBalancedPairAt pair.pairIndex = some pair
  | _ => True

theorem RampOk.step (h : RampOk topology s) {input : Input}
    (htopology : topology → input.FromTopology) : RampOk topology (s.step ops input) := by
  cases input with
  | commitPair complete asicId pair =>
    refine h.commitPair complete asicId fun ht found hfound => ?_
    cases hfound
    exact htopology ht
  | acceptTransitionDiscards current =>
    show RampOk topology (s.bzmBalancedRampAcceptTransitionDiscards current)
    unfold bzmBalancedRampAcceptTransitionDiscards
    dsimp only
    split
    · exact h
    · refine ⟨h.trace.note nofun nofun nofun, fun hnone => ?_⟩
      obtain ⟨hsound, hpaired⟩ := h.sound hnone
      exact ⟨hsound.acceptBaseline _ hnone rfl, hpaired⟩
  | barrier complete asicCount pairsPerAsic => exact h.barrier complete asicCount pairsPerAsic

theorem RampOk.initial : RampOk topology RampMachine.initial := by
  have htrace : TraceOk topology ([] : List RampEvent) :=
    ⟨fun _ => ⟨0, [], .zero, .inl rfl⟩, trivial, trivial⟩
  exact ⟨htrace, fun _ => ⟨⟨htrace, rfl, fun _ h => (nomatch h), fun _ _ _ => .zero, nofun,
    fun _ _ _ h => (nomatch h)⟩, fun _ _ _ => .zero⟩⟩

/-- **Engine activation is balanced and stops at the first failure.**  At any time
of any run the stacks of every ASIC are balanced and the pairs in order, nothing is
written after a failure, and a barrier passes only if every ASIC has had its 236
activations, one for each engine if the pairs are the topology's. -/
theorem engine_activation_balanced (ops : RampOps) (inputs : List Input) :
    let trace := (run (RampMachine.step ops) RampMachine.initial inputs).trace
    (∀ history, history <:+ trace → ∀ asicId, Balanced (activations asicId history)) ∧
      Throughout WriteAllowed trace ∧
      Throughout (fun event older => event = .barrier true →
        BarrierEarned (∀ input ∈ inputs, input.FromTopology) older) trace := by
  intro trace
  have hinputs : Guarded (RampMachine.step ops)
      (fun _ input => (∀ input ∈ inputs, input.FromTopology) → input.FromTopology)
      RampMachine.initial inputs :=
    .of_forall _ (fun input hmem _ h => h input hmem) _
  have hok : RampOk (∀ input ∈ inputs, input.FromTopology)
      (run (RampMachine.step ops) RampMachine.initial inputs) :=
    hinputs.invariant _ (fun _ _ h htopology => h.step htopology) .initial
  refine ⟨fun history hsuffix asicId => ?_, hok.trace.writes, hok.trace.barriers⟩
  refine ((hok.trace.pairs asicId).of_suffix ?_).balanced
  exact hsuffix.filterMap _

/-- Callbacks that all succeed. -/
def obligingOps : RampOps where
  beginEngine := fun _ _ _ => true
  writeRegister := fun _ _ _ => true
  readRegister := fun _ _ _ _ =>
    (true, BZM_BALANCED_RAMP_ENGINE_BUSY_MASK, BZM_BALANCED_RAMP_ENGINE_CONFIG)
  telemetrySample := fun _ _ =>
    (true, { BzmTelemetrySample.zero with received := true, valid := true })
  parserStats := fun _ => (true, .zero)
  finalBarrier := fun _ => true

/-- The first pair on the first ASIC. -/
theorem engine_activation_balanced_of_pair :
    Balanced (activations 0x0a (run (RampMachine.step obligingOps) RampMachine.initial
      [.commitPair true 0x0a (bzmTopologyBalancedPairAt 0)]).trace) ∧
    (activations 0x0a (run (RampMachine.step obligingOps) RampMachine.initial
      [.commitPair true 0x0a (bzmTopologyBalancedPairAt 0)]).trace).length = 2 :=
  ⟨(engine_activation_balanced obligingOps _).1 _ List.suffix_rfl 0x0a, by decide +kernel⟩

/-- A pair with the right indexes whose locations all name one engine. -/
def misplacedPair (pairIndex : Nat) : BzmEnginePair :=
  let location (stack : BzmEngineStack) : BzmEngineLocation :=
    { row := 0, column := 0, stack := stack, physicalId := 0, gridId := 0, topologyIndex := 0
      stackIndex := pairIndex }
  { pairIndex := pairIndex, bottom := location .bottom, top := location .top }

def misplacedInputs : List Input :=
  (List.range BZM_TOPOLOGY_PAIR_COUNT).flatMap (fun pairIndex =>
    bzmAsicWireIds.map fun asicId => .commitPair true asicId (some (misplacedPair pairIndex))) ++
  [.barrier true BZM_BRINGUP_ASIC_COUNT BZM_TOPOLOGY_PAIR_COUNT]

/-- The physical ids of a pair are not checked: the barrier passes although the
second engine of the topology was never written or read. -/
theorem barrier_passes_without_engine :
    let trace := (run (RampMachine.step obligingOps) RampMachine.initial misplacedInputs).trace
    trace.head? = some (.barrier true) ∧ engineEvents 0x0a 1 trace = [] ∧
      (bzmTopologyEngineAt 1).map BzmEngineLocation.physicalId = some 1 := by
  decide +kernel

end RampMachine

end EspMiner
