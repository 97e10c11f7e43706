import EspMiner.Bzm.Bringup
import EspMiner.Bzm.TelemetryConfirmationRuns

/-!
# What a bring-up leaves in the trace

The parts of the stages by the events that they add: which registers they write at most, and for
the stage of the clocks what it has read when it is good, every divider as it was written, with no
write to it since.
-/

namespace EspMiner

open Library

/-! ## Evidence in the trace -/

/-- A write that reaches a register of an ASIC -/
def BringupEvent.Touches (asicId offset : U8) : BringupEvent → Prop
  | .write id other _ _ => other = offset ∧ (id = asicId ∨ id = BZM_ALL_ASICS)
  | _ => False

/-- Registers are read or written, the writes within `p`, or the stage looks on. -/
def BringupEvent.Within (p : U8 → U8 → Prop) : BringupEvent → Prop
  | .write id offset _ _ => p id offset
  | .read .. | .delay .. | .now .. | .snapshot .. => True
  | .probe .. | .batchBegin .. | .pairCommit .. | .batchEnd .. | .activationBarrier .. => False

/-- The stage looks on. -/
def BringupEvent.Quiet (event : BringupEvent) : Prop := event.Within fun _ _ => False

/-- **The register was read as it must be**, and nothing was written to it since. -/
def ReadBack (trace : List BringupEvent) (asicId : U8) (register : BzmRegisterValue) : Prop :=
  ∃ newer older,
    trace = newer ++ .read asicId register.offset (some register.value) :: older ∧
      ∀ event ∈ newer, ¬ event.Touches asicId register.offset

theorem ReadBack.append {newer trace : List BringupEvent} {asicId : U8}
    {register : BzmRegisterValue} (h : ReadBack trace asicId register)
    (hnewer : ∀ event ∈ newer, ¬ event.Touches asicId register.offset) :
    ReadBack (newer ++ trace) asicId register := by
  obtain ⟨before, older, rfl, hbefore⟩ := h
  refine ⟨newer ++ before, older, by rw [List.append_assoc], ?_⟩
  intro event hevent
  exact (List.mem_append.mp hevent).elim (hnewer event) (hbefore event)

theorem ReadBack.past {trace : List BringupEvent} {asicId : U8} {register : BzmRegisterValue}
    (h : ReadBack trace asicId register) (past : List BringupEvent) :
    ReadBack (trace ++ past) asicId register := by
  obtain ⟨newer, older, rfl, hnewer⟩ := h
  exact ⟨newer, older ++ past, by rw [List.append_assoc]; rfl, hnewer⟩

theorem BringupEvent.Within.not_touches {p : U8 → U8 → Prop} {event : BringupEvent}
    (h : event.Within p) {asicId offset : U8}
    (hp : ∀ id, p id offset → id ≠ asicId ∧ id ≠ BZM_ALL_ASICS) :
    ¬ event.Touches asicId offset := by
  cases event with
  | write id other value result =>
    rintro ⟨rfl, hid | hid⟩
    · exact (hp id h).1 hid
    · exact (hp id h).2 hid
  | _ => exact not_false

theorem BringupEvent.Quiet.not_touches {event : BringupEvent} (h : event.Quiet)
    (asicId offset : U8) : ¬ event.Touches asicId offset :=
  BringupEvent.Within.not_touches h fun _ hfalse => hfalse.elim

/-! ## Scripts that only look at registers and telemetry -/

namespace BringupScript

/-- What a part of a stage adds to the trace where it does not give up; the state stays. -/
def Adds {α : Type} (x : BringupScript α) (Q : α → List BringupEvent → Prop) : Prop :=
  Appends BringupMachine.trace BringupMachine.state x Q fun _ => True

/-- A part of a stage writes within `p` at most. -/
def WritesWithin {α : Type} (p : U8 → U8 → Prop) (x : BringupScript α) : Prop :=
  AppendsOnly BringupMachine.trace BringupMachine.state (BringupEvent.Within p) x

section Rules

variable {α β : Type} {x : BringupScript α} {f : α → BringupScript β}
  {Q Q' : α → List BringupEvent → Prop} {R : β → List BringupEvent → Prop}
  {p q : U8 → U8 → Prop}

theorem Adds.mono (h : Adds x Q) (hQ : ∀ a events, Q a events → Q' a events) : Adds x Q' :=
  Appends.mono h hQ fun _ _ => trivial

theorem Adds.bind (h : Adds x Q)
    (hf : ∀ a events, Q a events → Adds (f a) fun b more => R b (more ++ events)) :
    Adds (x >>= f) R :=
  Appends.bind h hf

theorem adds_pure {a : α} (h : Q a []) : Adds (pure a) Q := appends_pure h

theorem adds_fail {outcome : BzmBringupOutcome} {reason : BzmBringupReason}
    {asicId pll offset : U8} {expected actual : U32} {completed : Nat} :
    Adds (fail outcome reason asicId pll offset expected actual completed : BringupScript α) Q :=
  appends_throw trivial

theorem adds_throw {report : BzmBringupReport} : Adds (throw report : BringupScript α) Q :=
  appends_throw trivial

/-- What is added, and within which registers it writes -/
theorem Adds.within (h : Adds x Q) (hx : WritesWithin p x) :
    Adds x fun a events => Q a events ∧ ∀ event ∈ events, event.Within p :=
  (Appends.and h hx).mono (fun _ _ both => both) fun _ _ => trivial

theorem WritesWithin.adds (h : WritesWithin p x) :
    Adds x fun _ events => ∀ event ∈ events, event.Within p :=
  Appends.mono h (fun _ _ hevents => hevents) fun _ _ => trivial

/-- A part that writes nothing -/
theorem WritesWithin.quiet (h : WritesWithin (fun _ _ => False) x) :
    Adds x fun _ events => ∀ event ∈ events, event.Quiet :=
  h.adds

theorem WritesWithin.bind (hx : WritesWithin p x) (hf : ∀ a, WritesWithin p (f a)) :
    WritesWithin p (x >>= f) :=
  AppendsOnly.bind hx hf

theorem within_pure (a : α) : WritesWithin p (pure a : BringupScript α) := appendsOnly_pure a

theorem within_fail {outcome : BzmBringupOutcome} {reason : BzmBringupReason}
    {asicId pll offset : U8} {expected actual : U32} {completed : Nat} :
    WritesWithin p
      (fail outcome reason asicId pll offset expected actual completed : BringupScript α) :=
  appendsOnly_throw _

/-- A stage that goes on did not meet the condition. -/
theorem adds_failIf {condition : Prop} [Decidable condition] {outcome : BzmBringupOutcome}
    {reason : BzmBringupReason} {asicId pll offset : U8} {expected actual : U32} {completed : Nat} :
    Adds (failIf condition outcome reason asicId pll offset expected actual completed)
      fun _ events => ¬ condition ∧ events = [] := by
  unfold failIf
  split
  · exact adds_fail
  · next hnot => exact adds_pure ⟨hnot, rfl⟩

theorem adds_giveUpWith (report : Option BzmBringupReport) :
    Adds (giveUpWith report) fun _ events => report = none ∧ events = [] := by
  cases report with
  | none => exact adds_pure ⟨rfl, rfl⟩
  | some report => exact adds_throw

theorem within_failIf {condition : Prop} [Decidable condition] {outcome : BzmBringupOutcome}
    {reason : BzmBringupReason} {asicId pll offset : U8} {expected actual : U32} {completed : Nat} :
    WritesWithin p
      (failIf condition outcome reason asicId pll offset expected actual completed) := by
  unfold failIf
  split
  · exact within_fail
  · exact within_pure _

theorem within_giveUpWith (report : Option BzmBringupReport) :
    WritesWithin p (giveUpWith report) := by
  cases report with
  | none => exact within_pure _
  | some report => exact appendsOnly_throw _

theorem within_throw (report : BzmBringupReport) :
    WritesWithin p (throw report : BringupScript α) := appendsOnly_throw _

end Rules

variable {ops : BzmBringupOps} {p : U8 → U8 → Prop}

/-! ### Calls -/

theorem writeU32_adds (asicId offset : U8) (value : U32) :
    Adds (writeU32 ops asicId offset value)
      fun result events => events = [.write asicId offset value result] :=
  appends_call _ (fun _ _ => rfl) (fun _ _ => rfl) fun _ => rfl

theorem readU32_adds (asicId offset : U8) :
    Adds (readU32 ops asicId offset) fun answer events => events = [.read asicId offset answer] :=
  appends_call _ (fun _ _ => rfl) (fun _ _ => rfl) fun _ => rfl

theorem nowUs_adds : Adds (nowUs ops) fun us events => events = [.now us] :=
  appends_call _ (fun _ _ => rfl) (fun _ _ => rfl) fun _ => rfl

theorem writeU32_within {asicId offset : U8} (h : p asicId offset) (value : U32) :
    WritesWithin p (writeU32 ops asicId offset value) :=
  appendsOnly_call _ (fun _ _ => rfl) (fun _ _ => rfl) fun _ => h

theorem readU32_within (asicId offset : U8) : WritesWithin p (readU32 ops asicId offset) :=
  appendsOnly_call (fun answer => .read asicId offset answer) (fun _ _ => rfl)
    (fun _ _ => rfl) fun _ => trivial

theorem nowUs_within : WritesWithin p (nowUs ops) :=
  appendsOnly_call (fun us => .now us) (fun _ _ => rfl) (fun _ _ => rfl) fun _ => trivial

theorem telemetrySnapshot_within : WritesWithin p (telemetrySnapshot ops) :=
  appendsOnly_call (fun answer => .snapshot answer) (fun _ _ => rfl) (fun _ _ => rfl)
    fun _ => trivial

theorem delayMs_within (ms : Nat) : WritesWithin p (delayMs ops ms) := by
  unfold delayMs
  split
  · intro m
    exact ⟨rfl, [.delay ms], rfl, fun event hevent => List.mem_singleton.mp hevent ▸ trivial⟩
  · exact within_pure _

theorem delayBefore_within (left ms : Nat) : WritesWithin p (delayBefore ops left ms) := by
  unfold delayBefore
  split
  · exact within_pure _
  · exact delayMs_within ms

theorem delayMs_adds (ms : Nat) :
    Adds (delayMs ops ms) fun _ events => ∀ event ∈ events, event.Quiet :=
  (delayMs_within ms).quiet

/-! ### Registers -/

theorem verifyRegister_adds (asicId pll : U8) (register : BzmRegisterValue) (completed : Nat) :
    Adds (verifyRegister ops asicId pll register completed)
      fun _ events => events = [.read asicId register.offset (some register.value)] := by
  apply (readU32_adds asicId register.offset).bind
  rintro answer events rfl
  cases answer with
  | none => exact adds_fail
  | some actual =>
    apply adds_failIf.mono
    rintro _ events ⟨hequal, rfl⟩
    rw [not_not.mp hequal, List.nil_append]

theorem verifyRegister_within (asicId pll : U8) (register : BzmRegisterValue) (completed : Nat) :
    WritesWithin p (verifyRegister ops asicId pll register completed) := by
  apply (readU32_within asicId register.offset).bind
  intro answer
  cases answer with
  | none => exact within_fail
  | some actual => exact within_failIf

theorem writeRegister_adds (asicId : U8) (register : BzmRegisterValue)
    (reportAsicId pll reportOffset : U8) (expected : U32) (completed : Nat) :
    Adds (writeRegister ops asicId register reportAsicId pll reportOffset expected completed)
      fun _ events => events = [.write asicId register.offset register.value true] := by
  apply (writeU32_adds asicId register.offset register.value).bind
  rintro result events rfl
  apply adds_failIf.mono
  rintro _ events ⟨hresult, rfl⟩
  rw [Bool.eq_true_of_not_eq_false hresult, List.nil_append]

theorem writeRegister_within {asicId : U8} {register : BzmRegisterValue}
    (h : p asicId register.offset) (reportAsicId pll reportOffset : U8) (expected : U32)
    (completed : Nat) :
    WritesWithin p
      (writeRegister ops asicId register reportAsicId pll reportOffset expected completed) :=
  (writeU32_within h register.value).bind fun _ => within_failIf

/-- Reads of the registers, the last in front -/
def readsOf (asicId : U8) (registers : List BzmRegisterValue) : List BringupEvent :=
  (registers.map fun register =>
    BringupEvent.read asicId register.offset (some register.value)).reverse

theorem quiet_readsOf {asicId : U8} {registers : List BzmRegisterValue} :
    ∀ event ∈ readsOf asicId registers, event.Quiet := by
  intro event hevent
  obtain ⟨register, -, rfl⟩ := List.mem_map.mp (List.mem_reverse.mp hevent)
  trivial

theorem readBack_readsOf {asicId : U8} {registers : List BzmRegisterValue}
    {register : BzmRegisterValue} (h : register ∈ registers) :
    ReadBack (readsOf asicId registers) asicId register := by
  obtain ⟨before, after, rfl⟩ := List.append_of_mem h
  refine ⟨readsOf asicId after, readsOf asicId before, by simp [readsOf], ?_⟩
  exact fun event hevent => (quiet_readsOf event hevent).not_touches _ _

theorem verifyRegisters_adds (asicId pll : U8) (registers : List BzmRegisterValue)
    (completed : Nat) :
    Adds (registers.forM fun register => verifyRegister ops asicId pll register completed)
      fun _ events => events = readsOf asicId registers :=
  appends_forM_map fun register _ => verifyRegister_adds asicId pll register completed

theorem writeAndVerifyRegisters_within {asicId : U8} {registers : List BzmRegisterValue}
    (h : ∀ register ∈ registers, p asicId register.offset) (completed : Nat) :
    WritesWithin p (writeAndVerifyRegisters ops asicId registers completed) := by
  refine (appendsOnly_forM fun register hregister => ?_).bind fun _ =>
    appendsOnly_forM fun register _ => verifyRegister_within asicId 0 register completed
  exact writeRegister_within (h register hregister) _ _ _ _ _

/-! ### Parts for each ASIC -/

theorem wireId_injective : Function.Injective wireId := by
  unfold Function.Injective
  decide

theorem wireId_ne_all (index : Fin BZM_MAX_ASIC_COUNT) : wireId index ≠ BZM_ALL_ASICS := by
  revert index
  decide

/-- Among the parts of a loop over the ASICs, nothing behind the part of one reaches it. -/
theorem exists_part_of_asics {P : Fin BZM_MAX_ASIC_COUNT → List BringupEvent → Prop}
    {parts : List (List BringupEvent)}
    (h : List.Forall₂
      (fun index part => P index part ∧ ∀ event ∈ part, event.Within fun id _ => id = wireId index)
      (List.finRange BZM_MAX_ASIC_COUNT) parts) (index : Fin BZM_MAX_ASIC_COUNT) :
    ∃ newer part older, parts.reverse.flatten = newer ++ (part ++ older) ∧ P index part ∧
      ∀ event ∈ newer, ∀ offset, ¬ event.Touches (wireId index) offset := by
  obtain ⟨newer, part, older, hsplit, hpart, hnewer⟩ :=
    exists_split_of_forall₂ h (List.nodup_finRange _) (List.mem_finRange index)
  refine ⟨newer, part, older, hsplit, hpart.1, ?_⟩
  intro event hevent offset
  obtain ⟨other, -, hother, part', hpart', hmem⟩ := hnewer event hevent
  exact (hpart'.2 event hmem).not_touches fun id hid =>
    ⟨hid ▸ wireId_injective.ne hother, hid ▸ wireId_ne_all other⟩

/-! ### Telemetry -/

section Confirmation

variable {policy : BzmBringupTelemetryPolicy} {requireClockLocks : Bool}
  {stores : List BzmTelemetryStore} {taken : Fin BZM_MAX_ASIC_COUNT → List TakenSample}
  {store : BzmTelemetryStore} {nowUs : U64}

/-! The loops of `verify_telemetry` -/

variable {ops : BzmBringupOps} {configuredAfterUs : U64}

theorem acquireTelemetry_within {p : U8 → U8 → Prop} (left : Nat) (store : BzmTelemetryStore) :
    WritesWithin p (acquireTelemetry ops configuredAfterUs left store) := by
  induction left generalizing store with
  | zero => exact within_pure store
  | succ left ih =>
    apply telemetrySnapshot_within.bind
    intro answer
    cases answer with
    | none => exact within_fail
    | some store =>
      simp only
      split
      · exact within_pure store
      · exact (delayBefore_within _ _).bind fun _ => ih store

theorem observeTelemetry_within {p : U8 → U8 → Prop} (store : BzmTelemetryStore)
    (confirmation : BzmTelemetryConfirmation) :
    WritesWithin p (observeTelemetry ops policy configuredAfterUs requireClockLocks store
      confirmation) := by
  refine nowUs_within.bind fun nowUs => (within_giveUpWith _).bind fun _ => ?_
  simp only
  split
  · exact within_pure _
  · exact within_fail
  · exact within_fail
  all_goals
    split
    · exact within_pure _
    · exact within_fail

theorem confirmTelemetry_within {p : U8 → U8 → Prop} (left : Nat) (store : BzmTelemetryStore)
    (confirmation : BzmTelemetryConfirmation) :
    WritesWithin p (confirmTelemetry ops policy configuredAfterUs requireClockLocks left store
      confirmation) := by
  induction left generalizing store confirmation with
  | zero =>
    refine (observeTelemetry_within store confirmation).bind fun observed => ?_
    cases observed with
    | none => exact within_pure _
    | some observed => exact within_fail
  | succ left ih =>
    refine (observeTelemetry_within store confirmation).bind fun observed => ?_
    cases observed with
    | none => exact within_pure _
    | some observed =>
      refine (delayMs_within _).bind fun _ => telemetrySnapshot_within.bind fun answer => ?_
      cases answer with
      | none => exact within_fail
      | some store => exact ih store _

theorem verifyTelemetry_within {p : U8 → U8 → Prop} :
    WritesWithin p (verifyTelemetry ops policy configuredAfterUs requireClockLocks) :=
  within_failIf.bind fun _ => (acquireTelemetry_within _ _).bind fun store =>
    confirmTelemetry_within _ store _

end Confirmation

variable {ops : BzmBringupOps}

/-! ### The clocks -/

/-- The registers that switch a PLL or a DLL -/
def clockOffsets : List U8 :=
  [BZM_LOCAL_REG_PLL0_ENABLE, BZM_LOCAL_REG_PLL0_ENABLE + 0x0a, BZM_LOCAL_REG_DLL0_CONTROL_5,
   BZM_LOCAL_REG_DLL1_CONTROL_5]

/-- The registers that switch a DLL -/
def dllOffsets : List U8 := [BZM_LOCAL_REG_DLL0_CONTROL_5, BZM_LOCAL_REG_DLL1_CONTROL_5]

/-- The registers of the dividers of the PLLs -/
def dividerOffsets : List U8 :=
  [BZM_LOCAL_REG_PLL0_FBDIV, BZM_LOCAL_REG_PLL0_POSTDIV, BZM_LOCAL_REG_PLL0_FBDIV + 0x0a,
   BZM_LOCAL_REG_PLL0_POSTDIV + 0x0a]

theorem dividerRegisters_offset {pll : Fin BZM_BRINGUP_PLL_COUNT} {feedbackDivider : U16}
    {postdivRegister : U32} {register : BzmRegisterValue}
    (h : register ∈ dividerRegisters pll feedbackDivider postdivRegister) :
    register.offset ∈ dividerOffsets := by
  have hall : ∀ pll : Fin BZM_BRINGUP_PLL_COUNT,
      pllRegister pll BZM_LOCAL_REG_PLL0_FBDIV ∈ dividerOffsets ∧
        pllRegister pll BZM_LOCAL_REG_PLL0_POSTDIV ∈ dividerOffsets := by decide
  simp only [dividerRegisters, List.mem_cons, List.not_mem_nil, or_false] at h
  rcases h with rfl | rfl
  · exact (hall pll).1
  · exact (hall pll).2

theorem enable_mem (pll : Fin BZM_BRINGUP_PLL_COUNT) :
    pllRegister pll BZM_LOCAL_REG_PLL0_ENABLE ∈ clockOffsets := by
  revert pll
  decide

section Clocks

variable {p : U8 → U8 → Prop} {asicId : U8} {completed : Nat}

theorem writeDividers_within {reportAsicId : U8} {pll : Fin BZM_BRINGUP_PLL_COUNT}
    {feedbackDivider : U16} {postdivRegister : U32}
    (hp : ∀ offset ∈ dividerOffsets, p asicId offset) :
    WritesWithin p (writeDividers ops asicId pll feedbackDivider postdivRegister reportAsicId
      completed) :=
  appendsOnly_forM fun register hregister =>
    writeRegister_within (hp register.offset (dividerRegisters_offset hregister)) _ _ _ _ _

theorem writePllEnable_within {pll : Fin BZM_BRINGUP_PLL_COUNT} {value : U32}
    (hp : ∀ offset ∈ clockOffsets, p asicId offset) :
    WritesWithin p (writePllEnable ops asicId pll value completed) :=
  @writeRegister_within ops p asicId ⟨_, value⟩ (hp _ (enable_mem pll)) _ _ _ _ _

theorem verifyDividers_within {pll : Fin BZM_BRINGUP_PLL_COUNT} {feedbackDivider : U16}
    {postdivRegister : U32} :
    WritesWithin p (verifyDividers ops asicId pll feedbackDivider postdivRegister completed) :=
  appendsOnly_forM fun register _ => verifyRegister_within asicId _ register completed

/-- The dividers of both PLLs are read back. -/
theorem verifyAllDividers_adds (feedbackDivider : U16) (postdivRegister : U32) :
    Adds ((List.finRange BZM_BRINGUP_PLL_COUNT).forM fun pll =>
        verifyDividers ops asicId pll feedbackDivider postdivRegister completed)
      fun _ events => ∀ pll, ∀ register ∈ dividerRegisters pll feedbackDivider postdivRegister,
        ReadBack events asicId register := by
  refine Appends.mono (appends_forM (P := fun pll part =>
    part = readsOf asicId (dividerRegisters pll feedbackDivider postdivRegister))
    fun pll _ => verifyRegisters_adds asicId (pllIndex pll) _ completed) ?_ fun _ h => h
  rintro _ events ⟨parts, rfl, hparts⟩ pll register hregister
  obtain ⟨newer, part, older, hsplit, rfl, hnewer⟩ :=
    exists_split_of_forall₂ hparts (List.nodup_finRange _) (List.mem_finRange pll)
  rw [hsplit]
  refine ((readBack_readsOf hregister).past older).append fun event hevent => ?_
  obtain ⟨other, -, -, part, rfl, hmem⟩ := hnewer event hevent
  exact (quiet_readsOf event hmem).not_touches _ _

theorem readPllEnable_within (pll : Fin BZM_BRINGUP_PLL_COUNT) :
    WritesWithin p (readPllEnable ops asicId pll completed) := by
  apply (readU32_within _ _).bind
  intro answer
  cases answer with
  | none => exact within_fail
  | some value => exact within_pure _

theorem delayUnlessLocked_within (locked : Bool) (ms : Nat) :
    WritesWithin p (delayUnlessLocked ops locked ms) := by
  unfold delayUnlessLocked
  split
  · exact within_pure _
  · exact delayMs_within ms

theorem pollLocks_within (pollDelayMs left : Nat) (values : U32 × U32) :
    WritesWithin p (pollLocks ops asicId pollDelayMs completed left values) := by
  induction left generalizing values with
  | zero => exact within_pure _
  | succ left ih =>
    unfold pollLocks
    split
    · exact within_pure _
    · exact (readPllEnable_within _).bind fun first => (readPllEnable_within _).bind fun second =>
        (delayUnlessLocked_within _ _).bind fun _ => ih (first, second)

/-- A write to registers of a list does not touch a register outside it. -/
theorem not_touches_of_offsets {offsets : List U8} {event : BringupEvent}
    (h : event.Within fun _ offset => offset ∈ offsets) {offset : U8} (hoffset : offset ∉ offsets)
    (asicId : U8) : ¬ event.Touches asicId offset :=
  h.not_touches fun _ hmem => absurd hmem hoffset

/-- The dividers of an ASIC are read back, and nothing behind that reaches them. -/
theorem configureClocks_adds (profile : BzmBringupPllProfile) (configTdmGapCount : U8)
    (index : Fin BZM_MAX_ASIC_COUNT) :
    Adds (configureClocks ops profile configTdmGapCount index)
      fun _ events => ∀ pll, ∀ register ∈ dividerRegisters pll profile.feedbackDivider
        profile.postdivRegister, ReadBack events (wireId index) register := by
  have hforget : ∀ {x : BringupScript PUnit},
      WritesWithin (fun _ _ => True) x → Adds x fun _ _ => True :=
    fun hx => hx.adds.mono fun _ _ _ => trivial
  apply (hforget (appendsOnly_forM fun pll _ => writePllEnable_within fun _ _ => trivial)).bind
  intro _ disabled _
  apply (hforget (appendsOnly_forM fun pll _ => writeDividers_within fun _ _ => trivial)).bind
  intro _ written _
  apply (hforget (delayMs_within _)).bind
  intro _ delays _
  apply (hforget (appendsOnly_forM fun pll _ => writePllEnable_within fun _ _ => trivial)).bind
  intro _ enabled _
  apply (verifyAllDividers_adds _ _).bind
  intro _ reads hreads
  refine (WritesWithin.adds (p := fun _ offset => offset ∈ dllOffsets) ?_).mono ?_
  · exact (pollLocks_within _ _ _).bind fun _ => within_failIf.bind fun _ =>
      within_failIf.bind fun _ => (writeAndVerifyRegisters_within (by decide) index).bind
        fun _ => appendsOnly_forM fun register _ => verifyRegister_within _ _ _ _
  · intro _ later hlater pll register hregister
    have houtside : register.offset ∉ dllOffsets := by
      have hoffset := dividerRegisters_offset hregister
      revert hoffset
      generalize register.offset = offset
      revert offset
      decide
    have hread := ((hreads pll register hregister).past
      (enabled ++ (delays ++ (written ++ disabled)))).append fun event hevent =>
        not_touches_of_offsets (hlater event hevent) houtside _
    simpa only [List.append_assoc, List.nil_append, List.append_nil] using hread

theorem configureClocks_within (profile : BzmBringupPllProfile) (configTdmGapCount : U8)
    (index : Fin BZM_MAX_ASIC_COUNT)
    (hp : ∀ offset, offset ∈ clockOffsets ∨ offset ∈ dividerOffsets → p (wireId index) offset) :
    WritesWithin p (configureClocks ops profile configTdmGapCount index) := by
  have henable : ∀ value, WritesWithin p ((List.finRange BZM_BRINGUP_PLL_COUNT).forM fun pll =>
      writePllEnable ops (wireId index) pll value index) := fun value =>
    appendsOnly_forM fun pll _ => writePllEnable_within fun offset h => hp offset (.inl h)
  have hwrite : WritesWithin p ((List.finRange BZM_BRINGUP_PLL_COUNT).forM fun pll =>
      writeDividers ops (wireId index) pll profile.feedbackDivider profile.postdivRegister
        (wireId index) index) :=
    appendsOnly_forM fun pll _ => writeDividers_within fun offset h => hp offset (.inr h)
  have hdll : ∀ register ∈ dllDisabled, register.offset ∈ clockOffsets := by decide
  refine (henable 0).bind fun _ => hwrite.bind fun _ => (delayMs_within _).bind fun _ =>
    (henable _).bind fun _ => (appendsOnly_forM fun pll _ => verifyDividers_within).bind fun _ =>
    (pollLocks_within _ _ _).bind fun _ => within_failIf.bind fun _ => within_failIf.bind fun _ =>
    (writeAndVerifyRegisters_within (fun register h => hp _ (.inl (hdll register h))) _).bind
      fun _ => appendsOnly_forM fun register _ => verifyRegister_within _ _ _ _

/-- The dividers of every ASIC are read back. -/
theorem configureAllClocks_adds (profile : BzmBringupPllProfile) (configTdmGapCount : U8) :
    Adds ((List.finRange BZM_MAX_ASIC_COUNT).forM fun index =>
        configureClocks ops profile configTdmGapCount index)
      fun _ events => ∀ index pll, ∀ register ∈ dividerRegisters pll profile.feedbackDivider
        profile.postdivRegister, ReadBack events (wireId index) register := by
  refine Appends.mono (appends_forM fun index _ =>
    (configureClocks_adds profile configTdmGapCount index).within
      (configureClocks_within (p := fun id _ => id = wireId index) profile configTdmGapCount index
        fun _ _ => rfl)) ?_ fun _ h => h
  rintro _ events ⟨parts, rfl, hparts⟩ index pll register hregister
  obtain ⟨newer, part, older, hsplit, hpart, hnewer⟩ := exists_part_of_asics hparts index
  rw [hsplit]
  exact ((hpart pll register hregister).past older).append fun event hevent => hnewer event hevent _

end Clocks

/-! ### The balanced ramp -/

/-- The adapter is told about a pair. -/
def CommitEvent : BringupEvent → Prop
  | .batchBegin .. | .pairCommit .. | .batchEnd .. | .activationBarrier .. => True
  | _ => False

section Ramp

variable {policy : BzmBringupTelemetryPolicy}

/-- What the ramp does: it looks on, it switches the reports, or it tells the adapter. -/
def RampStep (event : BringupEvent) : Prop :=
  event.Within (fun _ offset => offset = BZM_LOCAL_REG_RESULT_STATUS_CONTROL) ∨ CommitEvent event

abbrev RampOnly {α : Type} (x : BringupScript α) : Prop :=
  AppendsOnly BringupMachine.trace BringupMachine.state RampStep x

theorem WritesWithin.rampOnly {α : Type} {x : BringupScript α}
    (h : WritesWithin (fun _ offset => offset = BZM_LOCAL_REG_RESULT_STATUS_CONTROL) x) :
    RampOnly x :=
  AppendsOnly.mono h fun _ hevent => .inl hevent

theorem rampPair_only (pairIndex : Nat) : RampOnly (rampPair ops policy pairIndex) := by
  have hfail : ∀ {condition : Prop} [Decidable condition] {outcome reason asicId pll offset}
      {expected actual : U32} {completed : Nat},
      RampOnly (failIf condition outcome reason asicId pll offset expected actual completed) :=
    within_failIf.rampOnly
  unfold rampPair
  simp only
  split
  · exact within_fail.rampOnly
  · next pair _ =>
    have hbegin : RampOnly (balancedBatchBegin ops pairIndex) :=
      appendsOnly_call (fun result => .batchBegin pairIndex result) (fun _ _ => rfl)
        (fun _ _ => rfl) fun _ => .inr trivial
    have hend : RampOnly (balancedBatchEnd ops pairIndex) :=
      appendsOnly_call (fun result => .batchEnd pairIndex result) (fun _ _ => rfl)
        (fun _ _ => rfl) fun _ => .inr trivial
    have hcommit : ∀ asic, RampOnly (balancedPairCommit ops (wireId asic) pair) := fun asic =>
      appendsOnly_call (fun result => .pairCommit (wireId asic) pair result) (fun _ _ => rfl)
        (fun _ _ => rfl) fun _ => .inr trivial
    exact hbegin.bind fun _ => hfail.bind fun _ =>
      (appendsOnly_forM fun asic _ => (hcommit asic).bind fun _ => hfail).bind fun _ =>
      hend.bind fun _ => hfail.bind fun _ => nowUs_within.rampOnly.bind fun _ =>
      verifyTelemetry_within.rampOnly.tryCatch fun _ => (within_throw _).rampOnly

end Ramp

end BringupScript

end EspMiner
