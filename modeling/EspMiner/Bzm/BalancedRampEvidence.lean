import EspMiner.Bzm.BalancedRamp

/-!
# What a balanced ramp proves

The engines that are proved active on an ASIC come in complete pairs, the newest
pair perhaps half done.  Each of them has answered its own activation, and after a
failure the ramp is silent.
-/

namespace EspMiner

open Library

/-! ## Evidence in the trace -/

/-- Whether an engine was written or read. -/
def RampEvent.concerns (asicId : U8) (engineId : Nat) : RampEvent → Bool
  | .write id request _ => id = asicId ∧ request.engineId = engineId
  | .read id engine _ _ _ _ => id = asicId ∧ engine = engineId
  | _ => false

/-- A callback, as opposed to what is noted about the call. -/
def RampEvent.isCallback : RampEvent → Bool
  | .beginEngine .. | .write .. | .read .. | .delay .. | .telemetrySample .. | .parserStats ..
  | .finalBarrier .. => true
  | .activated .. | .baseline .. | .committed .. | .barrier .. => false

namespace RampMachine

variable {engines : List BzmEngineLocation}

/-- The engines of an ASIC that were proved active, newest first. -/
def activations (asicId : U8) (trace : List RampEvent) : List BzmEngineLocation :=
  trace.filterMap fun
    | .activated id engine => if id = asicId then some engine else none
    | _ => none

/-- What an engine was asked and answered, newest first. -/
def engineEvents (asicId : U8) (engineId : Nat) (trace : List RampEvent) : List RampEvent :=
  trace.filter (RampEvent.concerns asicId engineId)

/-- The baseline that was accepted last. -/
def acceptedBaseline (trace : List RampEvent) : Option BzmSerialParserStats :=
  trace.findSome? fun
    | .baseline stats => some stats
    | _ => none

/-- The stacks are at most one engine apart, and the pairs come in their order. -/
structure Balanced (engines : List BzmEngineLocation) : Prop where
  bottom_le : engines.countP (·.stack = .bottom) ≤ engines.countP (·.stack = .top) + 1
  top_le : engines.countP (·.stack = .top) ≤ engines.countP (·.stack = .bottom) + 1
  order : engines.reverse.map BzmEngineLocation.stackIndex =
    (List.range engines.length).map (· / 2)

/-- A read of the status of an engine that does not show it busy. -/
def NotBusy (asicId : U8) (engineId : Nat) : RampEvent → Prop
  | .read id engine offset result status _ =>
      id = asicId ∧ engine = engineId ∧ offset = BZM_ENGINE_REG_STATUS ∧
        (result = true → status &&& BZM_BALANCED_RAMP_ENGINE_BUSY_MASK = 0)
  | _ => False

/-- The engine was written once: its configuration and the sentinel work.  Then it
was read until it was busy, with an acceptable configuration. -/
def EngineProved (asicId : U8) (engineId : Nat) (events : List RampEvent) : Prop :=
  ∃ writes idle status config, bzmTransportProgramStage6Sentinel engineId = some writes ∧
    (∀ event ∈ idle, NotBusy asicId engineId event) ∧
    status &&& BZM_BALANCED_RAMP_ENGINE_BUSY_MASK ≠ 0 ∧ RampScript.configAccepted config ∧
    events = .read asicId engineId BZM_ENGINE_REG_STATUS true status config :: idle ++
      ((RampScript.configWrite engineId :: writes).map fun write =>
        .write asicId write true).reverse

/-- A list in `n` parts that each meet `P`, newest first. -/
inductive Repeated (P : List RampEvent → Prop) : Nat → List RampEvent → Prop
  | zero : Repeated P 0 []
  | succ {n : Nat} {newer older : List RampEvent} : P newer → Repeated P n older →
      Repeated P (n + 1) (newer ++ older)

/-! ## Complete pairs -/

/-- The engines of the first `n` pairs, newest first. -/
inductive Paired : Nat → List BzmEngineLocation → Prop
  | zero : Paired 0 []
  | pair {n : Nat} {first second : BzmEngineLocation} {older : List BzmEngineLocation} :
      Paired n older → first.stackIndex = n → second.stackIndex = n →
      first.stack ≠ second.stack → Paired (n + 1) (second :: first :: older)

/-- Complete pairs, and perhaps one engine of the next. -/
def PairsInOrder (engines : List BzmEngineLocation) : Prop :=
  ∃ n older, Paired n older ∧
    (engines = older ∨ ∃ first, first.stackIndex = n ∧ engines = first :: older)

theorem Paired.length {n : Nat} (h : Paired n engines) : engines.length = 2 * n := by
  induction h with
  | zero => rfl
  | pair _ _ _ _ ih =>
    rw [List.length_cons, List.length_cons, ih]
    omega

theorem Paired.countP_stack {n : Nat} (h : Paired n engines) (stack : BzmEngineStack) :
    engines.countP (·.stack = stack) = n := by
  induction h with
  | zero => rfl
  | @pair n first second older _ _ _ hstack ih =>
    rw [List.countP_cons, List.countP_cons, ih]
    revert hstack
    cases first.stack <;> cases second.stack <;> cases stack <;> simp

theorem range_map_half (n : Nat) :
    (List.range (2 * (n + 1))).map (· / 2) = (List.range (2 * n)).map (· / 2) ++ [n, n] := by
  rw [show 2 * (n + 1) = 2 * n + 1 + 1 by omega, List.range_succ, List.range_succ]
  simp only [List.map_append, List.map_cons, List.map_nil, List.append_assoc, List.cons_append,
    List.nil_append]
  rw [show 2 * n / 2 = n by omega, show (2 * n + 1) / 2 = n by omega]

theorem Paired.order {n : Nat} (h : Paired n engines) :
    engines.reverse.map BzmEngineLocation.stackIndex = (List.range (2 * n)).map (· / 2) := by
  induction h with
  | zero => rfl
  | pair _ hfirst hsecond _ ih =>
    rw [range_map_half, ← ih]
    simp [hfirst, hsecond]

theorem PairsInOrder.balanced (h : PairsInOrder engines) : Balanced engines := by
  obtain ⟨n, older, hpaired, rfl | ⟨first, hfirst, rfl⟩⟩ := h
  · refine ⟨?_, ?_, ?_⟩
    · rw [hpaired.countP_stack, hpaired.countP_stack]
      omega
    · rw [hpaired.countP_stack, hpaired.countP_stack]
      omega
    · rw [hpaired.order, hpaired.length]
  · refine ⟨?_, ?_, ?_⟩
    · rw [List.countP_cons, List.countP_cons, hpaired.countP_stack, hpaired.countP_stack]
      split <;> omega
    · rw [List.countP_cons, List.countP_cons, hpaired.countP_stack, hpaired.countP_stack]
      split <;> omega
    · rw [List.length_cons, hpaired.length, List.range_succ, List.reverse_cons, List.map_append,
        List.map_append, hpaired.order, List.map_singleton, List.map_singleton, hfirst]
      congr 2
      omega

/-- Earlier, fewer engines were active. -/
theorem PairsInOrder.tail {first : BzmEngineLocation} (h : PairsInOrder (first :: engines)) :
    PairsInOrder engines := by
  obtain ⟨n, older, hpaired, heq | ⟨last, -, heq⟩⟩ := h
  · cases hpaired with
    | zero => cases heq
    | @pair n other second older hpaired hother _ _ =>
      obtain ⟨-, rfl⟩ := List.cons.inj heq
      exact ⟨n, older, hpaired, .inr ⟨other, hother, rfl⟩⟩
  · obtain ⟨-, rfl⟩ := List.cons.inj heq
    exact ⟨n, engines, hpaired, .inl rfl⟩

theorem PairsInOrder.of_suffix {engines older : List BzmEngineLocation} (h : PairsInOrder engines)
    (hsuffix : older <:+ engines) : PairsInOrder older := by
  obtain ⟨newer, rfl⟩ := hsuffix
  induction newer with
  | nil => exact h
  | cons first newer ih => exact ih (PairsInOrder.tail h)

/-- Each index below `n` has one engine on each stack. -/
theorem Paired.countP_slot {n : Nat} (h : Paired n engines) (stack : BzmEngineStack) (index : Nat) :
    engines.countP (fun engine => engine.stack = stack ∧ engine.stackIndex = index) =
      if index < n then 1 else 0 := by
  induction h with
  | zero => rfl
  | @pair n first second older _ hfirst hsecond hstack ih =>
    rw [List.countP_cons, List.countP_cons, ih, hfirst, hsecond]
    rcases Nat.lt_trichotomy index n with hlt | rfl | hgt
    · have hne : n ≠ index := by omega
      simp [hne, hlt, Nat.lt_succ_of_lt hlt]
    · revert hstack
      cases first.stack <;> cases second.stack <;> cases stack <;> simp
    · have hne : n ≠ index := by omega
      simp [hne, Nat.not_lt_of_lt hgt, show ¬ index < n + 1 by omega]

/-! ## The parts of a call -/

/-- Only callbacks were made since. -/
def OnlyCallbacks (s m : RampMachine) : Prop :=
  ∃ events, (∀ event ∈ events, event.isCallback = true) ∧ m.trace = events ++ s.trace

theorem OnlyCallbacks.refl (s : RampMachine) : OnlyCallbacks s s :=
  ⟨[], fun _ h => (nomatch h), rfl⟩

theorem OnlyCallbacks.record {s m : RampMachine} (h : OnlyCallbacks s m) {event : RampEvent}
    (hevent : event.isCallback = true) : OnlyCallbacks s (m.record event) := by
  obtain ⟨events, hevents, htrace⟩ := h
  refine ⟨event :: events, fun other hmem => ?_, by rw [RampMachine.record_trace, htrace]; rfl⟩
  rcases List.mem_cons.mp hmem with rfl | hmem
  · exact hevent
  · exact hevents other hmem

theorem OnlyCallbacks.trans {s m r : RampMachine} (h : OnlyCallbacks s m)
    (h' : OnlyCallbacks m r) : OnlyCallbacks s r := by
  obtain ⟨older, holder, htrace⟩ := h
  obtain ⟨newer, hnewer, htrace'⟩ := h'
  refine ⟨newer ++ older, fun event hmem => ?_, by rw [htrace', htrace, List.append_assoc]⟩
  rcases List.mem_append.mp hmem with hmem | hmem
  · exact hnewer event hmem
  · exact holder event hmem

/-- A part of a call gave up. -/
def GaveUp (s m : RampMachine) : Prop := m.ramp.failure ≠ none ∧ OnlyCallbacks s m

end RampMachine

namespace RampScript

open RampMachine

variable {ops : RampOps} {s : RampMachine}

theorem wp_note (event : RampEvent) {Q : PUnit → RampMachine → Prop} {E : RampMachine → Prop} :
    Wp (note event) Q E s ↔ Q ⟨⟩ (s.record event) := Iff.rfl

theorem wp_update (change : BzmBalancedRamp → BzmBalancedRamp)
    {Q : PUnit → RampMachine → Prop} {E : RampMachine → Prop} :
    Wp (update change) Q E s ↔ Q ⟨⟩ (s.update change) := Iff.rfl

theorem fail_spec {α : Type} {Q : α → RampMachine → Prop} {m : RampMachine}
    (h : OnlyCallbacks s m) (failure : RampFailureKind) (asicId : U8) (engineId : Nat)
    (registerOffset : U8) (expected actual : Nat) :
    Wp (fail failure asicId engineId registerOffset expected actual) Q (GaveUp s) m :=
  ⟨nofun, h⟩

theorem writeAll_spec (asicId : U8) (writes : List BzmRegisterWrite) (E : RampMachine → Prop) :
    Wp (writeAll ops asicId writes) (fun written m => m.ramp = s.ramp ∧ OnlyCallbacks s m ∧
      (written = true →
        m.trace = (writes.map fun write => .write asicId write true).reverse ++ s.trace)) E s := by
  induction writes generalizing s with
  | nil => exact ⟨rfl, .refl s, fun _ => rfl⟩
  | cons write writes ih =>
    rw [writeAll, wp_bind, writeRegister, wp_call]
    generalize ops.writeRegister s.trace asicId write = result
    cases result with
    | false => exact ⟨rfl, (OnlyCallbacks.refl s).record rfl, nofun⟩
    | true =>
      refine (ih (s := s.record (.write asicId write true))).mono
        (fun written m hm => ?_) fun _ hE => hE
      obtain ⟨hramp, hcallbacks, htrace⟩ := hm
      refine ⟨hramp, ((OnlyCallbacks.refl s).record rfl).trans hcallbacks, fun hwritten => ?_⟩
      rw [htrace hwritten]
      simp

/-- What the poll loop does before the read that shows the engine busy. -/
def Idle (asicId : U8) (engineId : Nat) (event : RampEvent) : Prop :=
  NotBusy asicId engineId event ∨ ∃ ms, event = .delay ms

theorem Idle.isCallback {asicId : U8} {engineId : Nat} {event : RampEvent}
    (h : Idle asicId engineId event) : event.isCallback = true := by
  rcases h with h | ⟨ms, rfl⟩
  · cases event <;> first | rfl | exact h.elim
  · rfl

/-- The engine is busy after some idle events. -/
def BecameBusy (asicId : U8) (engineId : Nat) (s : RampMachine) (answer : U8 × U8)
    (m : RampMachine) : Prop :=
  m.ramp = s.ramp ∧ answer.1 &&& BZM_BALANCED_RAMP_ENGINE_BUSY_MASK ≠ 0 ∧
    ∃ idle, (∀ event ∈ idle, Idle asicId engineId event) ∧
      m.trace = .read asicId engineId BZM_ENGINE_REG_STATUS true answer.1 answer.2 ::
        idle ++ s.trace

/-- An idle event more before the rest of the loop. -/
theorem wp_after_idle {asicId : U8} {engineId : Nat} {event : RampEvent}
    {x : RampScript (U8 × U8)} (hevent : Idle asicId engineId event)
    (h : Wp x (BecameBusy asicId engineId (s.record event)) (GaveUp (s.record event))
      (s.record event)) :
    Wp x (BecameBusy asicId engineId s) (GaveUp s) (s.record event) := by
  refine h.mono (fun answer m hm => ?_) fun m hm => ?_
  · obtain ⟨hramp, hbusy, idle, hidle, htrace⟩ := hm
    refine ⟨hramp, hbusy, idle ++ [event], fun other hmem => ?_, by rw [htrace]; simp⟩
    rcases List.mem_append.mp hmem with hmem | hmem
    · exact hidle other hmem
    · cases List.mem_singleton.mp hmem
      exact hevent
  · exact ⟨hm.1, ((OnlyCallbacks.refl s).record hevent.isCallback).trans hm.2⟩

theorem pollBusy_spec (asicId : U8) (engineId left : Nat) (last : U8 × U8) :
    Wp (pollBusy ops asicId engineId left last) (BecameBusy asicId engineId s) (GaveUp s) s := by
  induction left generalizing s last with
  | zero => exact fail_spec (.refl s) _ _ _ _ _ _
  | succ left ih =>
    rw [pollBusy]
    -- reading the status, with or without the delay before it
    generalize hrest : readRegister ops asicId engineId BZM_ENGINE_REG_STATUS >>= _ = rest
    have hread (s : RampMachine) :
        Wp rest (BecameBusy asicId engineId s) (GaveUp s) s := by
      rw [← hrest, wp_bind, readRegister, wp_call]
      generalize ops.readRegister s.trace asicId engineId BZM_ENGINE_REG_STATUS = answer
      obtain ⟨result, status, config⟩ := answer
      dsimp only
      split
      · next hresult =>
        have hidle : Idle asicId engineId
            (.read asicId engineId BZM_ENGINE_REG_STATUS result status config) :=
          .inl ⟨rfl, rfl, rfl, fun htrue => absurd (hresult.symm.trans htrue) Bool.false_ne_true⟩
        split
        · exact fail_spec ((OnlyCallbacks.refl s).record rfl) _ _ _ _ _ _
        · exact wp_after_idle hidle (ih _)
      · next hresult =>
        split
        · next hbusy =>
          rw [eq_true_of_ne_false hresult]
          exact ⟨rfl, hbusy, [], fun _ h => absurd h List.not_mem_nil, rfl⟩
        · next hbusy =>
          exact wp_after_idle (.inl ⟨rfl, rfl, rfl, fun _ => not_not.mp hbusy⟩) (ih _)
    split
    · refine wp_bind.mpr ?_
      exact wp_after_idle (.inr ⟨_, rfl⟩) (hread (s.record (.delay _)))
    · exact hread s

/-- An engine is proved active. -/
def Activated (asicId : U8) (engine : BzmEngineLocation) (s m : RampMachine) : Prop :=
  m.ramp = { s.ramp with completedEngines := s.ramp.completedEngines + 1 } ∧
    ∃ events, (∀ event ∈ events, event.isCallback = true) ∧
      EngineProved asicId engine.physicalId (engineEvents asicId engine.physicalId events) ∧
      (∀ other engineId, ¬ (asicId = other ∧ engine.physicalId = engineId) →
        engineEvents other engineId events = []) ∧
      m.trace = .activated asicId engine :: (events ++ s.trace)

theorem engineId_of_mem_program {work : BzmWork} {includeNonceRange : Bool}
    {writes : List BzmRegisterWrite} (h : work.program includeNonceRange = some writes) :
    ∀ write ∈ writes, write.engineId = work.engineId := by
  unfold BzmWork.program at h
  split at h
  · cases h
  · cases Option.some.inj h
    cases includeNonceRange
    all_goals
      simp only [List.forall_mem_append, List.forall_mem_cons, List.forall_mem_map, if_true,
        Bool.false_eq_true, if_false]
      simp

/-- All writes of the sentinel go to its engine. -/
theorem engineId_of_mem_sentinel {engineId : Nat} {writes : List BzmRegisterWrite}
    (h : bzmTransportProgramStage6Sentinel engineId = some writes) :
    ∀ write ∈ writes, write.engineId = engineId := by
  unfold bzmTransportProgramStage6Sentinel at h
  split at h
  · cases h
  · obtain ⟨program, hprogram, rfl⟩ := Option.map_eq_some_iff.mp h
    refine List.forall_mem_append.mpr ⟨engineId_of_mem_program hprogram, ?_⟩
    simp only [programFlushJob, List.forall_mem_append, List.forall_mem_cons, List.forall_mem_map]
    simp

theorem engineEvents_append (asicId : U8) (engineId : Nat) (newer older : List RampEvent) :
    engineEvents asicId engineId (newer ++ older) =
      engineEvents asicId engineId newer ++ engineEvents asicId engineId older :=
  List.filter_append _ _

/-- What was read and written before an engine is busy. -/
theorem engineEvents_activation {asicId : U8} {engineId : Nat} {idle : List RampEvent}
    (hidle : ∀ event ∈ idle, Idle asicId engineId event) {writes : List BzmRegisterWrite}
    (hwrites : ∀ write ∈ writes, write.engineId = engineId) (status config : U8)
    (other : U8) (otherId : Nat) :
    engineEvents other otherId (.read asicId engineId BZM_ENGINE_REG_STATUS true status config ::
      (idle ++ (writes.map fun write => .write asicId write true).reverse)) =
      if asicId = other ∧ engineId = otherId then
        .read asicId engineId BZM_ENGINE_REG_STATUS true status config ::
          (engineEvents asicId engineId idle ++
            (writes.map fun write => .write asicId write true).reverse)
      else [] := by
  have hidles (event : RampEvent) (hmem : event ∈ idle)
      (hconcerns : event.concerns other otherId = true) : asicId = other ∧ engineId = otherId := by
    rcases hidle event hmem with hread | ⟨ms, rfl⟩
    · cases event <;> first | exact hread.elim | skip
      obtain ⟨rfl, rfl, -⟩ := hread
      exact of_decide_eq_true hconcerns
    · cases hconcerns
  split
  · next heq =>
    obtain ⟨rfl, rfl⟩ := heq
    rw [engineEvents, List.filter_cons_of_pos (by simp [RampEvent.concerns]), List.filter_append]
    congr 2
    refine List.filter_eq_self.mpr fun event hmem => ?_
    obtain ⟨write, hwrite, rfl⟩ := List.mem_map.mp (List.mem_reverse.mp hmem)
    simp [RampEvent.concerns, hwrites write hwrite]
  · next hne =>
    refine List.filter_eq_nil_iff.mpr fun event hmem hconcerns => hne ?_
    rcases List.mem_cons.mp hmem with rfl | hmem
    · exact of_decide_eq_true hconcerns
    · rcases List.mem_append.mp hmem with hmem | hmem
      · exact hidles event hmem hconcerns
      · obtain ⟨write, hwrite, rfl⟩ := List.mem_map.mp (List.mem_reverse.mp hmem)
        rw [← hwrites write hwrite]
        exact of_decide_eq_true hconcerns

/-- Busy with an acceptable configuration after the sentinel: the engine is active. -/
theorem activated_of_trace {asicId : U8} {engine : BzmEngineLocation} {s m : RampMachine}
    {writes : List BzmRegisterWrite}
    (hsentinel : bzmTransportProgramStage6Sentinel engine.physicalId = some writes)
    (hcallbacks : OnlyCallbacks s m) (hramp : m.ramp = s.ramp) {idle : List RampEvent}
    (hidle : ∀ event ∈ idle, Idle asicId engine.physicalId event) {status config : U8}
    (hbusy : status &&& BZM_BALANCED_RAMP_ENGINE_BUSY_MASK ≠ 0) (hconfig : configAccepted config)
    (htrace : m.trace = .read asicId engine.physicalId BZM_ENGINE_REG_STATUS true status config ::
      (idle ++ ((configWrite engine.physicalId :: writes).map fun write =>
        .write asicId write true).reverse) ++
      (.beginEngine asicId engine.physicalId true :: s.trace)) :
    Activated asicId engine s ((m.update fun ramp => { ramp with
      completedEngines := ramp.completedEngines + 1 }).record (.activated asicId engine)) := by
  obtain ⟨events, hall, hevents⟩ := hcallbacks
  have hengine : ∀ write ∈ configWrite engine.physicalId :: writes,
      write.engineId = engine.physicalId :=
    List.forall_mem_cons.mpr ⟨rfl, engineId_of_mem_sentinel hsentinel⟩
  have hsame := hevents.symm.trans htrace
  rw [← List.singleton_append (l := s.trace), ← List.append_assoc] at hsame
  replace hsame := List.append_cancel_right hsame
  have hpart (other : U8) (otherId : Nat) :
      engineEvents other otherId events = if asicId = other ∧ engine.physicalId = otherId then
        .read asicId engine.physicalId BZM_ENGINE_REG_STATUS true status config ::
          (engineEvents asicId engine.physicalId idle ++
            ((configWrite engine.physicalId :: writes).map fun write =>
              .write asicId write true).reverse)
      else [] := by
    rw [hsame, engineEvents_append, engineEvents_activation hidle hengine]
    exact List.append_nil _
  refine ⟨?_, events, hall, ?_, fun other otherId hne => ?_, ?_⟩
  · rw [← hramp]
    rfl
  · rw [hpart, if_pos ⟨rfl, rfl⟩]
    refine ⟨writes, _, status, config, hsentinel, fun event hmem => ?_, hbusy, hconfig, rfl⟩
    obtain ⟨hmem, hconcerns⟩ := List.mem_filter.mp hmem
    rcases hidle event hmem with hread | ⟨ms, rfl⟩
    · exact hread
    · cases hconcerns
  · rw [hpart, if_neg hne]
  · rw [RampMachine.record_trace, RampMachine.update_trace, hevents]

theorem activateEngine_spec (asicId : U8) (engine : BzmEngineLocation) :
    Wp (activateEngine ops asicId engine) (fun _ m => Activated asicId engine s m)
      (GaveUp s) s := by
  rw [activateEngine, wp_bind, beginEngine, wp_call]
  generalize ops.beginEngine s.trace asicId engine.physicalId = begun
  have hbegun := (OnlyCallbacks.refl s).record
    (show (RampEvent.beginEngine asicId engine.physicalId begun).isCallback = true from rfl)
  cases begun with
  | false => exact fail_spec hbegun _ _ _ _ _ _
  | true =>
    rw [if_pos rfl, wp_bind, writeRegister, wp_call]
    generalize ops.writeRegister _ asicId (configWrite engine.physicalId) = configured
    have hconfigured := hbegun.record (show (RampEvent.write asicId
      (configWrite engine.physicalId) configured).isCallback = true from rfl)
    cases configured with
    | false => exact fail_spec hconfigured _ _ _ _ _ _
    | true =>
      rw [if_pos rfl]
      cases hsentinel : bzmTransportProgramStage6Sentinel engine.physicalId with
      | none => exact fail_spec hconfigured _ _ _ _ _ _
      | some writes =>
        refine wp_bind.mpr ((writeAll_spec asicId writes _).mono (fun written m hm => ?_)
          fun _ hE => hE)
        obtain ⟨hramp, hcallbacks, hwritten⟩ := hm
        replace hcallbacks := hconfigured.trans hcallbacks
        cases written with
        | false => exact fail_spec hcallbacks _ _ _ _ _ _
        | true =>
          refine wp_bind.mpr ((pollBusy_spec asicId engine.physicalId _ _).mono
            (fun answer m' hm' => ?_) fun m' hm' => ⟨hm'.1, hcallbacks.trans hm'.2⟩)
          obtain ⟨hramp', hbusy, idle, hidle, htrace⟩ := hm'
          have hread : OnlyCallbacks m m' := by
            refine ⟨_, fun event hmem => ?_, htrace⟩
            rcases List.mem_cons.mp hmem with rfl | hmem
            · rfl
            · exact (hidle event hmem).isCallback
          dsimp only
          split
          · next haccepted =>
            refine activated_of_trace hsentinel (hcallbacks.trans hread) (hramp'.trans hramp)
              hidle hbusy haccepted ?_
            rw [htrace, hwritten rfl]
            simp
          · exact fail_spec (hcallbacks.trans hread) _ _ _ _ _ _

/-- Callbacks were made since, none of them to an engine. -/
def OffEngines (s m : RampMachine) : Prop :=
  ∃ events, (∀ event ∈ events, event.isCallback = true) ∧
    (∀ event ∈ events, ∀ asicId engineId, engineId ≠ BZM_CONTROL_ENGINE_ID →
      event.concerns asicId engineId = false) ∧
    m.trace = events ++ s.trace

theorem OffEngines.refl (s : RampMachine) : OffEngines s s :=
  ⟨[], fun _ h => (nomatch h), fun _ h => (nomatch h), rfl⟩

theorem OffEngines.record {m : RampMachine} (h : OffEngines s m) {event : RampEvent}
    (hcallback : event.isCallback = true)
    (hengine : ∀ asicId engineId, engineId ≠ BZM_CONTROL_ENGINE_ID →
      event.concerns asicId engineId = false) : OffEngines s (m.record event) := by
  obtain ⟨events, hevents, hoff, htrace⟩ := h
  exact ⟨event :: events, List.forall_mem_cons.mpr ⟨hcallback, hevents⟩,
    List.forall_mem_cons.mpr ⟨hengine, hoff⟩, by rw [RampMachine.record_trace, htrace]; rfl⟩

theorem OffEngines.onlyCallbacks {m : RampMachine} (h : OffEngines s m) : OnlyCallbacks s m := by
  obtain ⟨events, hevents, -, htrace⟩ := h
  exact ⟨events, hevents, htrace⟩

theorem concerns_resetWrite (asicId other : U8) (reset : U32) (result : Bool) {engineId : Nat}
    (h : engineId ≠ BZM_CONTROL_ENGINE_ID) :
    (RampEvent.write asicId (resetWrite reset) result).concerns other engineId = false :=
  decide_eq_false fun hand => h hand.2.symm

theorem prepareAsic_spec (asicId : U8) (index : Nat) :
    Wp (prepareAsic ops asicId index) (fun _ m =>
      (∃ prepared, m.ramp = { s.ramp with preparedAsic := prepared }) ∧ OffEngines s m)
      (GaveUp s) s := by
  rw [prepareAsic, wp_bind, wp_get]
  split
  · rw [wp_bind, beginEngine, wp_call]
    generalize ops.beginEngine s.trace asicId BZM_CONTROL_ENGINE_ID = begun
    have hbegun := (OffEngines.refl s).record
      (show (RampEvent.beginEngine asicId BZM_CONTROL_ENGINE_ID begun).isCallback = true from rfl)
      fun _ _ _ => rfl
    cases begun with
    | false => exact fail_spec hbegun.onlyCallbacks _ _ _ _ _ _
    | true =>
      rw [if_pos rfl, wp_bind, writeRegister, wp_call]
      generalize ops.writeRegister _ asicId (resetWrite 0) = asserted
      have hasserted := hbegun.record
        (show (RampEvent.write asicId (resetWrite 0) asserted).isCallback = true from rfl)
        fun other _ => concerns_resetWrite asicId other 0 asserted
      cases asserted with
      | false => exact fail_spec hasserted.onlyCallbacks _ _ _ _ _ _
      | true =>
        have hdelayed := hasserted.record (show (RampEvent.delay
          BZM_BALANCED_RAMP_RESET_DELAY_MS).isCallback = true from rfl) fun _ _ _ => rfl
        rw [if_pos rfl, wp_bind, delayMs, wp_note, wp_bind, writeRegister, wp_call]
        generalize ops.writeRegister _ asicId (resetWrite 1) = released
        have hreleased := hdelayed.record
          (show (RampEvent.write asicId (resetWrite 1) released).isCallback = true from rfl)
          fun other _ => concerns_resetWrite asicId other 1 released
        cases released with
        | false => exact fail_spec hreleased.onlyCallbacks _ _ _ _ _ _
        | true =>
          rw [if_pos rfl, wp_bind, wp_note, wp_update]
          exact ⟨⟨_, rfl⟩, hreleased.record rfl fun _ _ _ => rfl⟩
  · exact ⟨⟨s.ramp.preparedAsic, rfl⟩, .refl s⟩

theorem captureBaseline_spec (asicId : U8) :
    Wp (captureBaseline ops asicId) (fun _ m => m = s ∧ s.ramp.baselineCaptured = true ∨
      ∃ stats, m = ((s.record (.parserStats true stats)).update fun ramp => { ramp with
        parserBaseline := stats
        baselineCaptured := true }).record (.baseline stats)) (GaveUp s) s := by
  rw [captureBaseline, wp_bind, wp_get]
  split
  · rw [wp_bind, parserStats, wp_call]
    generalize ops.parserStats s.trace = answer
    obtain ⟨result, stats⟩ := answer
    have hasked := (OnlyCallbacks.refl s).record
      (show (RampEvent.parserStats result stats).isCallback = true from rfl)
    dsimp only
    rw [wp_bind, wp_update]
    split
    · exact wp_bind.mpr (fail_spec (by exact hasked) _ _ _ _ _ _)
    · next hclean =>
      obtain ⟨hresult, -⟩ := not_or.mp hclean
      rw [eq_true_of_ne_false hresult, wp_bind, wp_update, wp_note]
      exact .inr ⟨stats, rfl⟩
  · next hcaptured => exact .inl ⟨rfl, eq_true_of_ne_false hcaptured⟩

end RampScript

end EspMiner
