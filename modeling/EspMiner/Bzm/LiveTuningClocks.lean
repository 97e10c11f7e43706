import EspMiner.Bzm.FrequencyRamps
import EspMiner.Bzm.LiveTuning

/-!
# What the clocks may run at

A divider that is written may be in force whether or not the write was reported as done; a read
that shows another rules it out.  A live step moves each domain from the frequency that is recorded
to its target, and where it is good every domain runs at what is recorded then.
-/

namespace EspMiner

variable {domain : ClockDomain}

open Library BringupScript

/-- The register of the feedback divider of a domain -/
def dividerOffset (domain : ClockDomain) : U8 := pllRegister domain.2 BZM_LOCAL_REG_PLL0_FBDIV

/-- **A divider that a domain may run with**: it was written, and no read since shows another. -/
def MayRun (trace : List BringupEvent) (domain : ClockDomain) (value : U32) : Prop :=
  ∃ newer id result older,
    trace = newer ++ .write id (dividerOffset domain) value result :: older ∧
      (id = wireId domain.1 ∨ id = BZM_ALL_ASICS) ∧
      ∀ other, .read (wireId domain.1) (dividerOffset domain) (some other) ∈ newer → other = value

/-- Whatever divider the domain runs with, it is that of the frequency. -/
def RunsAt (trace : List BringupEvent) (domain : ClockDomain) (mhz : ℚ) : Prop :=
  ∀ value, MayRun trace domain value → gridMhz value.toNat = mhz

/-- A domain runs at what is recorded, which is `mhz`. -/
def Reached (m : BringupMachine) (domain : ClockDomain) (mhz : ℚ) : Prop :=
  m.state.domainClockMhz domain = mhz ∧ RunsAt m.trace domain mhz

/-- A domain is on its way from one frequency to another, or is there. -/
def InFlight (m : BringupMachine) (domain : ClockDomain) (fromMhz toMhz : ℚ) : Prop :=
  (m.state.domainClockMhz domain = fromMhz ∧ ∀ value, MayRun m.trace domain value →
    gridMhz value.toNat = fromMhz ∨ gridMhz value.toNat = toMhz) ∨ Reached m domain toMhz

/-! ### The trace of a domain -/

section MayRun

variable {events older : List BringupEvent} {value : U32}

theorem MayRun.of_append (h : MayRun (events ++ older) domain value) :
    MayRun events domain value ∨ MayRun older domain value ∧
      ∀ other, .read (wireId domain.1) (dividerOffset domain) (some other) ∈ events →
        other = value := by
  obtain ⟨newer, id, result, past, htrace, hid, hreads⟩ := h
  rcases List.append_eq_append_iff.mp htrace with ⟨more, rfl, holder⟩ | ⟨more, rfl, hpast⟩
  · refine .inr ⟨⟨more, id, result, past, holder, hid, fun other hother => ?_⟩,
      fun other hother => ?_⟩
    · exact hreads other (List.mem_append_right _ hother)
    · exact hreads other (List.mem_append_left _ hother)
  · cases more with
    | nil =>
      refine .inr ⟨⟨[], id, result, past, ?_, hid, ?_⟩, ?_⟩
      · simpa using hpast.symm
      · exact fun _ hother => absurd hother List.not_mem_nil
      · simpa using hreads
    | cons first more =>
      rw [List.cons_append, List.cons.injEq] at hpast
      obtain ⟨rfl, rfl⟩ := hpast
      exact .inl ⟨newer, id, result, more, rfl, hid, hreads⟩

/-- Some write to the domain -/
theorem MayRun.exists_write (h : MayRun events domain value) :
    ∃ event ∈ events, event.Touches (wireId domain.1) (dividerOffset domain) := by
  obtain ⟨newer, id, result, past, rfl, hid, -⟩ := h
  exact ⟨_, List.mem_append_right _ List.mem_cons_self, rfl, hid⟩

/-- Events that do not reach the divider of a domain leave what it may run with. -/
theorem MayRun.of_untouched (h : MayRun (events ++ older) domain value)
    (hevents : ∀ event ∈ events, ¬ event.Touches (wireId domain.1) (dividerOffset domain)) :
    MayRun older domain value := by
  rcases h.of_append with hnew | ⟨hold, -⟩
  · obtain ⟨event, hmem, htouches⟩ := hnew.exists_write
    exact absurd htouches (hevents event hmem)
  · exact hold

/-- What was read back and not written since is what the domain runs with. -/
theorem MayRun.eq_of_readBack {trace : List BringupEvent} (h : MayRun trace domain value)
    {read : U32} (hread : ReadBack trace (wireId domain.1) ⟨dividerOffset domain, read⟩) :
    value = read := by
  obtain ⟨newer, past, rfl, hnewer⟩ := hread
  have hold := h.of_untouched hnewer
  rw [← List.singleton_append] at hold
  rcases hold.of_append with hnew | ⟨-, hreads⟩
  · obtain ⟨event, hmem, htouches⟩ := hnew.exists_write
    rw [List.mem_singleton.mp hmem] at htouches
    exact absurd htouches not_false
  · exact (hreads read List.mem_cons_self).symm

end MayRun

/-! ### Passes over the dividers -/

/-- Only registers of the list are written, with their values, and only on one address. -/
def LivePass (asicId : U8) (registers : List BzmRegisterValue) : BringupEvent → Prop
  | .write id offset value _ => id = asicId ∧ ⟨offset, value⟩ ∈ registers
  | .read .. | .delay .. => True
  | _ => False

/-- The value that the feedback divider of a target is written with -/
def dividerValue (target : BzmFrequencyTarget) : U32 := target.feedbackDivider.setWidth 32

/-- The dividers of both PLLs for a target -/
def targetDividers (target : BzmFrequencyTarget) : List BzmRegisterValue :=
  (List.finRange BZM_BRINGUP_PLL_COUNT).flatMap fun pll =>
    dividerRegisters pll target.feedbackDivider target.postdivRegister

theorem dividerValue_mhz (mhz : ℚ) :
    gridMhz (dividerValue (bzmFrequencyResolveTarget mhz)).toNat
      = (bzmFrequencyResolveTarget mhz).actualMhz := by
  have hwide : (dividerValue (bzmFrequencyResolveTarget mhz)).toNat
      = (bzmFrequencyResolveTarget mhz).feedbackDivider.toNat := by
    rw [dividerValue, BitVec.toNat_setWidth]
    exact Nat.mod_eq_of_lt (lt_of_lt_of_le (BitVec.isLt _) (by decide))
  rw [hwide, actualMhz_eq, ← feedbackDivider_eq]

/-- The register of a feedback divider is written with the divider. -/
theorem value_of_dividerOffset {target : BzmFrequencyTarget} {pll : Fin BZM_BRINGUP_PLL_COUNT}
    {value : U32} (h : (⟨dividerOffset domain, value⟩ : BzmRegisterValue) ∈
      dividerRegisters pll target.feedbackDivider target.postdivRegister) :
    pll = domain.2 ∧ value = dividerValue target := by
  have hoffsets : ∀ pll pll' : Fin BZM_BRINGUP_PLL_COUNT,
      (pllRegister pll BZM_LOCAL_REG_PLL0_FBDIV = pllRegister pll' BZM_LOCAL_REG_PLL0_FBDIV →
        pll' = pll) ∧
      pllRegister pll BZM_LOCAL_REG_PLL0_FBDIV ≠ pllRegister pll' BZM_LOCAL_REG_PLL0_POSTDIV := by
    decide
  simp only [dividerRegisters, List.mem_cons, List.not_mem_nil, or_false, dividerOffset,
    BzmRegisterValue.mk.injEq] at h
  rcases h with ⟨hoffset, hvalue⟩ | ⟨hoffset, -⟩
  · exact ⟨(hoffsets _ _).1 hoffset, hvalue⟩
  · exact absurd hoffset (hoffsets _ _).2

theorem value_of_targetDividers {target : BzmFrequencyTarget} {value : U32}
    (h : (⟨dividerOffset domain, value⟩ : BzmRegisterValue) ∈ targetDividers target) :
    value = dividerValue target := by
  obtain ⟨pll, -, hpll⟩ := List.mem_flatMap.mp h
  exact (value_of_dividerOffset hpll).2

section Pass

variable {events older : List BringupEvent} {value : U32} {asicId : U8}
  {target : BzmFrequencyTarget}

/-- A pass adds the divider of its target to what a domain may run with. -/
theorem MayRun.of_pass (h : MayRun (events ++ older) domain value)
    (hevents : ∀ event ∈ events, LivePass asicId (targetDividers target) event) :
    value = dividerValue target ∨ MayRun older domain value := by
  rcases h.of_append with ⟨newer, id, result, past, rfl, -, -⟩ | ⟨hold, -⟩
  · exact .inl (value_of_targetDividers
      (hevents _ (List.mem_append_right _ List.mem_cons_self)).2)
  · exact .inr hold

/-- A pass that reads the divider back leaves it alone. -/
theorem MayRun.of_pass_read (h : MayRun (events ++ older) domain value)
    (hevents : ∀ event ∈ events, LivePass asicId (targetDividers target) event)
    (hread : .read (wireId domain.1) (dividerOffset domain) (some (dividerValue target)) ∈ events) :
    value = dividerValue target := by
  rcases h.of_append with ⟨newer, id, result, past, rfl, -, -⟩ | ⟨-, hreads⟩
  · exact value_of_targetDividers (hevents _ (List.mem_append_right _ List.mem_cons_self)).2
  · exact (hreads _ hread).symm

end Pass

theorem LivePass.mono {asicId : U8} {registers registers' : List BzmRegisterValue}
    {event : BringupEvent} (h : LivePass asicId registers event)
    (hsub : ∀ register ∈ registers, register ∈ registers') : LivePass asicId registers' event := by
  cases event with
  | write id offset value result => exact ⟨h.1, hsub _ h.2⟩
  | read | delay => trivial
  | _ => exact h

/-- A pass over one domain does not reach another. -/
theorem LivePass.not_touches {target : BzmFrequencyTarget} {domain other : ClockDomain}
    (hne : other ≠ domain) {event : BringupEvent}
    (h : LivePass (wireId domain.1)
      (dividerRegisters domain.2 target.feedbackDivider target.postdivRegister) event) :
    ¬ event.Touches (wireId other.1) (dividerOffset other) := by
  cases event with
  | write id offset value result =>
    obtain ⟨rfl, hregister⟩ := h
    rintro ⟨rfl, hid | hid⟩
    · exact hne (Prod.ext (wireId_injective hid).symm (value_of_dividerOffset hregister).1.symm)
    · exact wireId_ne_all _ hid
  | _ => exact not_false

variable {ops : BzmBringupOps} {target : BzmFrequencyTarget}
  {completed : Nat}

/-- A script that makes a pass -/
abbrev PassOnly {α : Type} (asicId : U8) (registers : List BzmRegisterValue)
    (x : BringupScript α) : Prop :=
  AppendsOnly BringupMachine.trace BringupMachine.state (LivePass asicId registers) x

section PassRules

variable {asicId : U8} {registers : List BzmRegisterValue}

theorem failIf_pass {condition : Prop} [Decidable condition] {outcome : BzmBringupOutcome}
    {reason : BzmBringupReason} {id pll offset : U8} {expected actual : U32} {n : Nat} :
    PassOnly asicId registers
      (failIf condition outcome reason id pll offset expected actual n) := by
  unfold failIf
  split
  · exact appendsOnly_throw _
  · exact appendsOnly_pure _

theorem writeRegister_pass {register : BzmRegisterValue} (h : register ∈ registers)
    (reportAsicId pll reportOffset : U8) (expected : U32) (n : Nat) :
    PassOnly asicId registers
      (writeRegister ops asicId register reportAsicId pll reportOffset expected n) :=
  AppendsOnly.bind (appendsOnly_call (fun result => .write asicId register.offset register.value
    result) (fun _ _ => rfl) (fun _ _ => rfl) fun _ => ⟨rfl, h⟩) fun _ => failIf_pass

theorem readU32_pass (id offset : U8) : PassOnly asicId registers (readU32 ops id offset) :=
  appendsOnly_call (fun answer => .read id offset answer) (fun _ _ => rfl) (fun _ _ => rfl)
    fun _ => trivial

theorem verifyRegister_pass (id pll : U8) (register : BzmRegisterValue) (n : Nat) :
    PassOnly asicId registers (verifyRegister ops id pll register n) := by
  refine (readU32_pass id register.offset).bind fun answer => ?_
  cases answer with
  | none => exact appendsOnly_throw _
  | some actual => exact failIf_pass

theorem delayMs_pass (ms : Nat) : PassOnly asicId registers (delayMs ops ms) := by
  unfold delayMs
  split
  · intro m
    exact ⟨rfl, [.delay ms], rfl, fun event hevent => List.mem_singleton.mp hevent ▸ trivial⟩
  · exact appendsOnly_pure _

theorem pollDomainLock_pass (left : Nat) (value : U32) :
    PassOnly asicId registers (pollDomainLock ops domain completed left value) := by
  induction left generalizing value with
  | zero => exact failIf_pass
  | succ left ih =>
    refine AppendsOnly.bind ?_ fun value => ?_
    · refine (readU32_pass _ _).bind fun answer => ?_
      cases answer with
      | none => exact appendsOnly_throw _
      | some value => exact appendsOnly_pure _
    · split
      · exact appendsOnly_pure _
      · exact (delayMs_pass _).bind fun _ => ih value

theorem verifyLiveFrequencyDomain_pass :
    PassOnly asicId registers (verifyLiveFrequencyDomain ops domain target completed) :=
  (appendsOnly_forM fun register _ => verifyRegister_pass _ _ register _).bind fun _ =>
    pollDomainLock_pass 30 0

theorem writeDividers_pass {pll : Fin BZM_BRINGUP_PLL_COUNT} {reportAsicId : U8} {n : Nat}
    (h : ∀ register ∈ dividerRegisters pll target.feedbackDivider target.postdivRegister,
      register ∈ registers) :
    PassOnly asicId registers
      (writeDividers ops asicId pll target.feedbackDivider target.postdivRegister reportAsicId n) :=
  appendsOnly_forM fun register hregister => writeRegister_pass (h register hregister) _ _ _ _ _

end PassRules

theorem programLiveFrequencyDomain_pass :
    PassOnly (wireId domain.1)
      (dividerRegisters domain.2 target.feedbackDivider target.postdivRegister)
      (programLiveFrequencyDomain ops domain target completed) :=
  (writeDividers_pass fun _ h => h).bind fun _ => (delayMs_pass 1).bind fun _ =>
    verifyLiveFrequencyDomain_pass

theorem programLiveBroadcastShortcut_pass :
    PassOnly BZM_ALL_ASICS (targetDividers target) (programLiveBroadcastShortcut ops target) :=
  (appendsOnly_forM fun pll hpll => (writeDividers_pass fun _ h =>
      List.mem_flatMap.mpr ⟨pll, hpll, h⟩).bind fun _ => delayMs_pass 1).bind fun _ =>
    appendsOnly_forM fun _ _ => verifyLiveFrequencyDomain_pass

/-- The divider of a domain is read back. -/
def DividerRead (domain : ClockDomain) (target : BzmFrequencyTarget)
    (events : List BringupEvent) : Prop :=
  .read (wireId domain.1) (dividerOffset domain) (some (dividerValue target)) ∈ events

theorem adds_any {α : Type} {p : BringupEvent → Prop} {x : BringupScript α}
    (h : AppendsOnly BringupMachine.trace BringupMachine.state p x) : Adds x fun _ _ => True :=
  Appends.mono h (fun _ _ _ => trivial) fun _ _ => trivial

theorem verifyLiveFrequencyDomain_adds :
    Adds (verifyLiveFrequencyDomain ops domain target completed)
      fun _ events => DividerRead domain target events := by
  apply (verifyRegisters_adds (wireId domain.1) (pllIndex domain.2)
    (dividerRegisters domain.2 target.feedbackDivider target.postdivRegister) completed).bind
  rintro _ events rfl
  have hpoll : PassOnly 0 [] (pollDomainLock ops domain completed 30 0) := pollDomainLock_pass 30 0
  apply (adds_any hpoll).mono
  intro _ more _
  refine List.mem_append_right _ ?_
  simp [readsOf, dividerRegisters, dividerOffset, dividerValue]

theorem programLiveFrequencyDomain_adds :
    Adds (programLiveFrequencyDomain ops domain target completed)
      fun _ events => DividerRead domain target events := by
  apply (adds_any (writeDividers_pass  fun _ h => h)).bind
  intro _ writes _
  apply (delayMs_adds 1).bind
  intro _ delays _
  apply verifyLiveFrequencyDomain_adds.mono
  intro _ events hread
  exact List.mem_append_left _ (List.mem_append_left _ hread)

theorem mem_clockDomains (domain : ClockDomain) : domain ∈ clockDomains :=
  List.mem_flatMap.mpr ⟨domain.1, List.mem_finRange _, List.mem_map.mpr
    ⟨domain.2, List.mem_finRange _, rfl⟩⟩

theorem programLiveBroadcastShortcut_adds :
    Adds (programLiveBroadcastShortcut ops target)
      fun _ events => ∀ domain, DividerRead domain target events := by
  have hwrites : PassOnly BZM_ALL_ASICS (targetDividers target)
      ((List.finRange BZM_BRINGUP_PLL_COUNT).forM fun pll => do
        writeDividers ops BZM_ALL_ASICS pll target.feedbackDivider target.postdivRegister
          BZM_ALL_ASICS pll
        delayMs ops 1) :=
    appendsOnly_forM fun pll hpll => (writeDividers_pass fun _ h =>
      List.mem_flatMap.mpr ⟨pll, hpll, h⟩).bind fun _ => delayMs_pass 1
  apply (adds_any hwrites).bind
  intro _ writes _
  refine Appends.mono (appends_forM fun domain _ => verifyLiveFrequencyDomain_adds) ?_
    fun _ h => h
  rintro _ events ⟨parts, rfl, hparts⟩ domain
  obtain ⟨newer, part, older, hsplit, hpart, -⟩ :=
    exists_split_of_forall₂ hparts (by decide) (mem_clockDomains domain)
  rw [DividerRead, hsplit]
  exact List.mem_append_left _ (List.mem_append_right _ (List.mem_append_left _ hpart))

/-! ### One live step -/

/-- The other domains are left alone. -/
def OthersKept (domain : ClockDomain) (m m' : BringupMachine) : Prop :=
  ∀ other, other ≠ domain → m'.state.domainClockMhz other = m.state.domainClockMhz other ∧
    ∀ value, MayRun m'.trace other value → MayRun m.trace other value

theorem Reached.kept {m m' : BringupMachine} {domain other : ClockDomain} {mhz : ℚ}
    (h : Reached m other mhz) (hkept : OthersKept domain m m') (hne : other ≠ domain) :
    Reached m' other mhz :=
  ⟨(hkept other hne).1.trans h.1, fun value hvalue => h.2 value ((hkept other hne).2 value hvalue)⟩

theorem InFlight.kept {m m' : BringupMachine} {domain other : ClockDomain} {fromMhz toMhz : ℚ}
    (h : InFlight m other fromMhz toMhz) (hkept : OthersKept domain m m') (hne : other ≠ domain) :
    InFlight m' other fromMhz toMhz := by
  rcases h with ⟨hrecorded, hruns⟩ | hreached
  · exact .inl ⟨(hkept other hne).1.trans hrecorded, fun value hvalue =>
      hruns value ((hkept other hne).2 value hvalue)⟩
  · exact .inr (hreached.kept hkept hne)

/-- What is recorded and what the dividers may be count, not the averages and times. -/
theorem Reached.congr {m m' : BringupMachine} {mhz : ℚ} (h : Reached m domain mhz)
    (hrecorded : m'.state.domainClockMhz domain = m.state.domainClockMhz domain)
    (hruns : ∀ value, MayRun m'.trace domain value → MayRun m.trace domain value) :
    Reached m' domain mhz :=
  ⟨hrecorded.trans h.1, fun value hvalue => h.2 value (hruns value hvalue)⟩

theorem InFlight.congr {m m' : BringupMachine} {fromMhz toMhz : ℚ}
    (h : InFlight m domain fromMhz toMhz)
    (hrecorded : m'.state.domainClockMhz domain = m.state.domainClockMhz domain)
    (hruns : ∀ value, MayRun m'.trace domain value → MayRun m.trace domain value) :
    InFlight m' domain fromMhz toMhz := by
  rcases h with ⟨hfrom, hmay⟩ | hreached
  · exact .inl ⟨hrecorded.trans hfrom, fun value hvalue => hmay value (hruns value hvalue)⟩
  · exact .inr (hreached.congr hrecorded hruns)

/-- What a part adds, and where it may write, decide how a script goes on. -/
theorem wp_adds {α β : Type} {x : BringupScript α} {f : α → BringupScript β}
    {R : α → List BringupEvent → Prop} {p : BringupEvent → Prop}
    {Q : β → BringupMachine → Prop} {E : BringupMachine → Prop} {m : BringupMachine}
    (hx : Adds x R) (hp : AppendsOnly BringupMachine.trace BringupMachine.state p x)
    (hE : ∀ events, (∀ event ∈ events, p event) → E ⟨m.state, events ++ m.trace⟩)
    (hf : ∀ a events, R a events → (∀ event ∈ events, p event) →
      Wp (f a) Q E ⟨m.state, events ++ m.trace⟩) :
    Wp (x >>= f) Q E m := by
  refine (Appends.and hx hp).wp_bind ?_ ?_
  · rintro a ⟨state, trace⟩ events (rfl : state = m.state)
      (rfl : trace = events ++ m.trace) ⟨hR, hevents⟩
    exact hf a events hR hevents
  · rintro ⟨state, trace⟩ events (rfl : state = m.state)
      (rfl : trace = events ++ m.trace) ⟨-, hevents⟩
    exact hE events hevents

section LiveStep

variable {fromMhz toMhz clocks targetMhz : ClockDomain → ℚ}

theorem InFlight.of_pass {m : BringupMachine} {asicId : U8}
    {events : List BringupEvent} {requestedMhz startMhz : ℚ}
    (h : InFlight m domain startMhz (bzmFrequencyResolveTarget requestedMhz).actualMhz)
    (hevents : ∀ event ∈ events,
      LivePass asicId (targetDividers (bzmFrequencyResolveTarget requestedMhz)) event) :
    InFlight ⟨m.state, events ++ m.trace⟩ domain startMhz
      (bzmFrequencyResolveTarget requestedMhz).actualMhz := by
  rcases h with ⟨hrecorded, hruns⟩ | ⟨hrecorded, hruns⟩
  · refine .inl ⟨hrecorded, fun value hvalue => ?_⟩
    rcases hvalue.of_pass hevents with rfl | hold
    · exact .inr (dividerValue_mhz requestedMhz)
    · exact hruns value hold
  · refine .inr ⟨hrecorded, fun value hvalue => ?_⟩
    rcases hvalue.of_pass hevents with rfl | hold
    · exact dividerValue_mhz requestedMhz
    · exact hruns value hold

theorem dividers_sub_target {target : BzmFrequencyTarget} :
    ∀ register ∈ dividerRegisters domain.2 target.feedbackDivider target.postdivRegister,
      register ∈ targetDividers target := fun _ hregister =>
  List.mem_flatMap.mpr ⟨domain.2, List.mem_finRange _, hregister⟩

/-- One domain is programmed. -/
theorem programDomain_wp {m : BringupMachine}
    (hflight : ∀ other, InFlight m other (fromMhz other) (toMhz other))
    (hto : toMhz domain = (bzmFrequencyResolveTarget (targetMhz domain)).actualMhz)
    (hgrid : GridFrequency (fromMhz domain))
    (hclocks : m.state.domainClockMhz domain = clocks domain) :
    Wp (programDomain ops clocks targetMhz domain)
      (fun _ m' => Reached m' domain (toMhz domain) ∧ OthersKept domain m m')
      (fun m' => ∀ other, InFlight m' other (fromMhz other) (toMhz other)) m := by
  unfold programDomain
  simp only
  split
  · have hkept : ∀ {events : List BringupEvent}, (∀ event ∈ events,
        LivePass (wireId domain.1) (dividerRegisters domain.2
          (bzmFrequencyResolveTarget (targetMhz domain)).feedbackDivider
          (bzmFrequencyResolveTarget (targetMhz domain)).postdivRegister) event) →
        ∀ other, other ≠ domain → ∀ value,
          MayRun (events ++ m.trace) other value → MayRun m.trace other value :=
      fun hevents other hne value hvalue => hvalue.of_untouched fun event hevent =>
        (hevents event hevent).not_touches hne
    refine wp_adds programLiveFrequencyDomain_adds programLiveFrequencyDomain_pass ?_ ?_
    · intro events hevents other
      by_cases hne : other = domain
      · subst hne
        have hself := hflight other
        rw [hto] at hself ⊢
        exact hself.of_pass fun event hevent => (hevents event hevent).mono dividers_sub_target
      · exact (hflight other).congr rfl (hkept hevents other hne)
    · intro _ events hread hevents
      refine ⟨⟨?_, fun value hvalue => ?_⟩, fun other hne => ⟨?_, hkept hevents other hne⟩⟩
      · exact (Function.update_self ..).trans hto.symm
      · rw [hto, ← dividerValue_mhz]
        rw [hvalue.of_pass_read (fun event hevent =>
          (hevents event hevent).mono dividers_sub_target) hread]
      · exact Function.update_of_ne hne ..
  · next hsame =>
    refine ⟨?_, fun _ _ => ⟨rfl, fun _ hvalue => hvalue⟩⟩
    rcases hflight domain with ⟨hrecorded, hruns⟩ | hreached
    · -- the domain is where it is to go already
      have heq : fromMhz domain = toMhz domain := by
        obtain ⟨c, -, -, hc⟩ := gridFrequency_iff.mp hgrid
        simp only [domainChanges, decide_eq_true_eq, not_le] at hsame
        rw [← hclocks, hrecorded, hc, actualMhz_eq, abs_gridMhz_sub_lt] at hsame
        rw [hc, hto, actualMhz_eq, hsame]
      refine ⟨hrecorded.trans heq, fun value hvalue => ?_⟩
      rcases hruns value hvalue with hfrom | hmto
      · exact hfrom.trans heq
      · exact hmto
    · exact hreached

/-- The domains that are left are programmed one after another. -/
theorem programDomains_wp {domains : List ClockDomain} (hnodup : domains.Nodup) {m : BringupMachine}
    (hflight : ∀ domain, InFlight m domain (fromMhz domain) (toMhz domain))
    (hto : ∀ domain, toMhz domain = (bzmFrequencyResolveTarget (targetMhz domain)).actualMhz)
    (hgrid : ∀ domain, GridFrequency (fromMhz domain))
    (hclocks : ∀ domain ∈ domains, m.state.domainClockMhz domain = clocks domain) :
    Wp (programDomains ops clocks targetMhz domains)
      (fun _ m' => (∀ domain, InFlight m' domain (fromMhz domain) (toMhz domain)) ∧
        ∀ domain, domain ∈ domains ∨ Reached m domain (toMhz domain) →
          Reached m' domain (toMhz domain))
      (fun m' => ∀ domain, InFlight m' domain (fromMhz domain) (toMhz domain)) m := by
  induction domains generalizing m with
  | nil => exact ⟨hflight, fun domain h => h.resolve_left List.not_mem_nil⟩
  | cons domain later ih =>
    rw [List.nodup_cons] at hnodup
    unfold programDomains
    rw [wp_bind]
    refine (programDomain_wp hflight (hto domain) (hgrid domain)
      (hclocks domain List.mem_cons_self)).mono ?_ fun _ h => h
    rintro _ m' ⟨hreached, hkept⟩
    have hflight' : ∀ other, InFlight m' other (fromMhz other) (toMhz other) := by
      intro other
      by_cases hne : other = domain
      · exact hne ▸ .inr hreached
      · exact (hflight other).kept hkept hne
    refine (ih hnodup.2 hflight' fun other hother => ?_).mono ?_ fun _ h => h
    · have hne : other ≠ domain := fun heq => hnodup.1 (heq ▸ hother)
      exact (hkept other hne).1.trans (hclocks other (List.mem_cons_of_mem _ hother))
    · rintro _ m'' ⟨hall, hlater⟩
      refine ⟨hall, fun other hother => hlater other ?_⟩
      by_cases hne : other = domain
      · exact .inr (hne ▸ hreached)
      · rcases hother with hmem | hbefore
        · exact .inl ((List.mem_cons.mp hmem).resolve_left hne)
        · exact .inr (hbefore.kept hkept hne)

theorem finishLiveStep_wp {m : BringupMachine} {P : BringupMachine → Prop}
    (hcongr : ∀ m', m'.state.domainClockMhz = m.state.domainClockMhz →
      (∀ domain value, MayRun m'.trace domain value → MayRun m.trace domain value) → P m') :
    Wp (finishLiveStep ops) (fun _ m' => P m') P m := by
  have hquiet : ∀ {events : List BringupEvent}, (∀ event ∈ events, event.Quiet) →
      ∀ domain value, MayRun (events ++ m.trace) domain value → MayRun m.trace domain value :=
    fun hevents _ _ hvalue => hvalue.of_untouched fun event hevent =>
      (hevents event hevent).not_touches _ _
  have hnow : WritesWithin (fun _ _ => False) (configuredNow ops) := by
    unfold configuredNow
    split
    · exact nowUs_within
    · exact within_pure _
  refine wp_adds hnow.adds hnow ?_ ?_
  · exact fun events hevents => hcongr _ rfl (hquiet hevents)
  · exact fun _ events _ hevents => hcongr _ rfl (hquiet hevents)

/-- A jump that is not refused is one for all domains. -/
theorem sameShortcut {recorded : ClockDomain → ℚ} {allowInitialJump : Bool}
    (hrefused : clockDomains.findSome? (domainRefused recorded targetMhz allowInitialJump) = none)
    (hjump : allowInitialJump = true) (domain : ClockDomain) :
    (bzmFrequencyResolveTarget (targetMhz domain)).actualMhz
      = (bzmFrequencyResolveTarget (targetMhz firstDomain)).actualMhz := by
  have hnone := List.findSome?_eq_none_iff.mp hrefused domain (mem_clockDomains domain)
  by_cases hfirst : domain = firstDomain
  · rw [hfirst]
  · simp only [domainRefused, hjump, if_true] at hnone
    split_ifs at hnone with hinvalid hrange hdiffers
    rw [not_and, not_le, actualMhz_eq, actualMhz_eq, abs_gridMhz_sub_lt] at hdiffers
    rw [actualMhz_eq, actualMhz_eq, hdiffers hfirst]

/-- **One attempt** leaves every domain on its way, and where it is good each runs at its target. -/
theorem liveFrequencyDomainsStepOnce_wp (allowInitialJump : Bool) {m : BringupMachine}
    (hflight : ∀ domain, InFlight m domain (fromMhz domain) (toMhz domain))
    (hto : ∀ domain, toMhz domain = (bzmFrequencyResolveTarget (targetMhz domain)).actualMhz)
    (hgrid : ∀ domain, GridFrequency (fromMhz domain)) :
    Wp (liveFrequencyDomainsStepOnce ops targetMhz allowInitialJump)
      (fun _ m' => ∀ domain, Reached m' domain (toMhz domain))
      (fun m' => ∀ domain, InFlight m' domain (fromMhz domain) (toMhz domain)) m := by
  apply wp_get_bind
  apply wp_failIf hflight
  intro _
  refine wp_adds (adds_giveUpWith _) (within_giveUpWith (p := fun _ _ => False) _) ?_ ?_
  · exact fun events hevents domain => (hflight domain).congr rfl fun value hvalue =>
      hvalue.of_untouched fun event hevent =>
        BringupEvent.Quiet.not_touches (hevents event hevent) _ _
  rintro _ _ ⟨hrefused, rfl⟩ -
  simp only
  split
  · next hjump =>
    have hshortcut : ∀ domain, toMhz domain
        = (bzmFrequencyResolveTarget (targetMhz firstDomain)).actualMhz :=
      fun domain => (hto domain).trans (sameShortcut hrefused hjump.1 domain)
    refine wp_adds programLiveBroadcastShortcut_adds programLiveBroadcastShortcut_pass ?_ ?_
    · intro events hevents domain
      have hself := hflight domain
      rw [hshortcut] at hself ⊢
      exact hself.of_pass hevents
    · intro _ events hreads hevents
      apply wp_update
      have hreached : ∀ domain, Reached (BringupMachine.update ⟨m.state, events ++ m.trace⟩
          fun state => state.setAllDomainClocks
            (bzmFrequencyResolveTarget (targetMhz firstDomain)).actualMhz)
          domain (toMhz domain) := by
        intro domain
        refine ⟨(hshortcut domain).symm, fun value hvalue => ?_⟩
        have heq := MayRun.of_pass_read hvalue hevents (hreads domain)
        rw [heq, hshortcut, dividerValue_mhz]
      refine (finishLiveStep_wp (P := fun m' => ∀ domain, Reached m' domain (toMhz domain))
        ?_).mono (fun _ _ h => h) fun _ h domain => .inr (h domain)
      exact fun m' hclocks hmay domain => (hreached domain).congr (congrFun hclocks domain)
        (hmay domain)
  · have hpass := @programDomains_wp ops fromMhz toMhz m.state.domainClockMhz targetMhz clockDomains
      (by decide) m hflight hto hgrid fun domain _ => rfl
    unfold stepDomains
    rw [wp_bind]
    refine wp_tryCatch (hpass.mono (fun _ m' hm' => ?_) fun _ h => h) ?_
    · apply wp_update
      refine (finishLiveStep_wp (P := fun m' => ∀ domain, Reached m' domain (toMhz domain))
        ?_).mono (fun _ _ h => h) fun _ h domain => .inr (h domain)
      exact fun m'' hclocks hmay domain =>
        (hm'.2 domain (.inl (mem_clockDomains domain))).congr (congrFun hclocks domain)
          (hmay domain)
    · exact fun report m' hm' domain => (hm' domain).congr rfl fun _ hvalue => hvalue

/-- **A live step** leaves every domain on its way, and where it is good each runs at its target,
as is recorded. -/
theorem liveFrequencyDomainsStep_wp (allowInitialJump : Bool) {m : BringupMachine}
    (hflight : ∀ domain, InFlight m domain (fromMhz domain) (toMhz domain))
    (hto : ∀ domain, toMhz domain = (bzmFrequencyResolveTarget (targetMhz domain)).actualMhz)
    (hgrid : ∀ domain, GridFrequency (fromMhz domain)) :
    Wp (liveFrequencyDomainsStep ops targetMhz allowInitialJump)
      (fun _ m' => ∀ domain, Reached m' domain (toMhz domain))
      (fun m' => ∀ domain, InFlight m' domain (fromMhz domain) (toMhz domain)) m := by
  unfold liveFrequencyDomainsStep
  generalize 2 = left
  induction left generalizing m with
  | zero => exact liveFrequencyDomainsStepOnce_wp allowInitialJump hflight hto hgrid
  | succ left ih =>
    refine wp_tryCatch (liveFrequencyDomainsStepOnce_wp allowInitialJump hflight hto hgrid) ?_
    intro report m' hm'
    split
    · refine wp_adds (delayMs_adds 10) (delayMs_within (p := fun _ _ => False) 10) ?_ ?_
      · exact fun events hevents domain => (hm' domain).congr rfl fun value hvalue =>
          hvalue.of_untouched fun event hevent =>
            BringupEvent.Quiet.not_touches (hevents event hevent) _ _
      · exact fun _ events _ hevents => ih fun domain => (hm' domain).congr rfl
          fun value hvalue => hvalue.of_untouched fun event hevent =>
            BringupEvent.Quiet.not_touches (hevents event hevent) _ _
    · exact hm'

end LiveStep

end EspMiner
