import EspMiner.Bzm.ParserRealign

/-!
# Parser realignment is bounded

The invariant compares the tracker with the sequence of calls: its counters of
windows and bursts never fall behind those of the unresolved episode, and its
counter of clean windows never runs ahead, as long as the window counter has not
come to its end.
-/

namespace EspMiner

variable {limits : RealignLimits}

open Library

/-! ### Snapshots -/

theorem parserRealignTransitionIsValid_iff {baseline current : ParserSnapshot} :
    parserRealignTransitionIsValid baseline current = true ↔
      baseline.discardedBytes ≤ current.discardedBytes ∧
      baseline.unexpectedRegisterHeaders ≤ current.unexpectedRegisterHeaders ∧
      baseline.emittedFrames ≤ current.emittedFrames ∧
      current.unexpectedRegisterHeaders - baseline.unexpectedRegisterHeaders ≤
        current.discardedBytes - baseline.discardedBytes ∧
      current.errors = baseline.errors := by
  unfold parserRealignTransitionIsValid
  split
  · next h =>
    refine ⟨fun hfalse => absurd hfalse Bool.false_ne_true, ?_⟩
    rintro ⟨hdiscarded, hunexpected, -⟩
    rcases h with h | h
    · exact absurd h (BitVec.not_lt.mpr hdiscarded)
    · exact absurd h (BitVec.not_lt.mpr hunexpected)
  · next h =>
    simp only [not_or, BitVec.not_lt] at h
    simp [h.1, h.2, and_assoc]

theorem parserGrew_eq_false {previous current : ParserSnapshot} :
    parserGrew previous current = false ↔
      current.discardedBytes = previous.discardedBytes ∧
        current.unexpectedRegisterHeaders = previous.unexpectedRegisterHeaders := by
  simp [parserGrew]

namespace ParserSnapshot.CountersLe

variable {first second third : ParserSnapshot}

theorem refl (snapshot : ParserSnapshot) : snapshot.CountersLe snapshot := by
  constructor <;> exact BitVec.le_refl _

theorem trans (h : first.CountersLe second) (h' : second.CountersLe third) :
    first.CountersLe third where
  emittedFrames := BitVec.le_trans h.emittedFrames h'.emittedFrames
  discardedBytes := BitVec.le_trans h.discardedBytes h'.discardedBytes
  unexpectedRegisterHeaders :=
    BitVec.le_trans h.unexpectedRegisterHeaders h'.unexpectedRegisterHeaders
  droppedResults := BitVec.le_trans h.droppedResults h'.droppedResults
  rejectedResultFrames := BitVec.le_trans h.rejectedResultFrames h'.rejectedResultFrames
  unmatchedRegisterFrames := BitVec.le_trans h.unmatchedRegisterFrames h'.unmatchedRegisterFrames
  unsolicitedNoopFrames := BitVec.le_trans h.unsolicitedNoopFrames h'.unsolicitedNoopFrames
  invalidNoopFrames := BitVec.le_trans h.invalidNoopFrames h'.invalidNoopFrames
  telemetryDecodeFailures := BitVec.le_trans h.telemetryDecodeFailures h'.telemetryDecodeFailures

/-- A snapshot between two that agree agrees with them. -/
theorem squeeze (h : first.CountersLe second) (h' : second.CountersLe third)
    (hgrew : parserGrew first third = false) (herrors : third.errors = first.errors) :
    parserGrew first second = false ∧ parserGrew second third = false ∧
      second.errors = first.errors := by
  have hle {a b c : U32} (hab : a ≤ b) (hbc : b ≤ c) (hca : c = a) : b = a :=
    BitVec.le_antisymm (hca ▸ hbc) hab
  rw [parserGrew_eq_false] at hgrew
  have hdiscarded := hle h.discardedBytes h'.discardedBytes hgrew.1
  have hunexpected := hle h.unexpectedRegisterHeaders h'.unexpectedRegisterHeaders hgrew.2
  refine ⟨parserGrew_eq_false.mpr ⟨hdiscarded, hunexpected⟩, parserGrew_eq_false.mpr
    ⟨hgrew.1.trans hdiscarded.symm, hgrew.2.trans hunexpected.symm⟩, ?_⟩
  have hfield (field : ParserErrors → U32) (hab : field first.errors ≤ field second.errors)
      (hbc : field second.errors ≤ field third.errors) :
      field second.errors = field first.errors := hle hab hbc (by rw [herrors])
  have h1 := hfield _ h.droppedResults h'.droppedResults
  have h2 := hfield _ h.rejectedResultFrames h'.rejectedResultFrames
  have h3 := hfield _ h.unmatchedRegisterFrames h'.unmatchedRegisterFrames
  have h4 := hfield _ h.unsolicitedNoopFrames h'.unsolicitedNoopFrames
  have h5 := hfield _ h.invalidNoopFrames h'.invalidNoopFrames
  have h6 := hfield _ h.telemetryDecodeFailures h'.telemetryDecodeFailures
  cases hsecond : second.errors
  cases hfirst : first.errors
  simp_all

end ParserSnapshot.CountersLe

/-- A transition that shows no loss and no error stays valid. -/
theorem valid_of_not_grew {accepted last current : ParserSnapshot}
    (h : parserRealignTransitionIsValid accepted last = true)
    (hemitted : last.emittedFrames ≤ current.emittedFrames)
    (hgrew : parserGrew last current = false) (herrors : current.errors = last.errors) :
    parserRealignTransitionIsValid accepted current = true := by
  rw [parserGrew_eq_false] at hgrew
  rw [parserRealignTransitionIsValid_iff] at h ⊢
  rw [hgrew.1, hgrew.2, herrors]
  exact ⟨h.1, h.2.1, BitVec.le_trans h.2.2.1 hemitted, h.2.2.2⟩

theorem valid_refl (snapshot : ParserSnapshot) :
    parserRealignTransitionIsValid snapshot snapshot = true := by
  rw [parserRealignTransitionIsValid_iff]
  exact ⟨BitVec.le_refl _, BitVec.le_refl _, BitVec.le_refl _, by simp, rfl⟩

/-! ### Sequences of calls -/

section Trace

variable {baseline current : ParserSnapshot} {result : BzmParserRealignResult}
  {trace : List RealignObservation}

theorem pendingWindows_cons (o : RealignObservation) (trace : List RealignObservation) :
    pendingWindows (o :: trace) =
      if acceptsSnapshot o then 0
      else pendingWindows trace + if o.result = .pending then 1 else 0 := by
  unfold pendingWindows
  rw [since_cons]
  split
  · rfl
  · rw [List.countP_cons]
    simp

theorem quietWindows_of_quiet
    (hgrew : parserGrew (previousSnapshot baseline trace) current = false)
    (haligned : parserAligned current = true) :
    quietWindows baseline (⟨current, result⟩ :: trace) = quietWindows baseline trace + 1 := by
  rw [quietWindows, if_pos ⟨hgrew, haligned⟩]

end Trace

/-! ### The counter of windows -/

theorem toNat_countWindow (windows : U8) :
    (countWindow windows).toNat = min (windows.toNat + 1) 255 := by
  unfold countWindow
  have := windows.isLt
  split
  · next h =>
    have hlt : windows.toNat < 255 := h
    rw [BitVec.toNat_add]
    change (windows.toNat + 1) % 2 ^ 8 = _
    omega
  · next h =>
    have hge : 255 ≤ windows.toNat := BitVec.not_lt.mp h
    omega

/-! ### The invariant -/

/-- An initialised tracker and the calls that led to it. -/
structure RealignInv (limits : RealignLimits) (baseline : ParserSnapshot)
    (realign : BzmParserRealign) (trace : List RealignObservation) : Prop where
  initialized : realign.initialized = true
  accepted_eq : realign.accepted = acceptedSnapshot baseline trace
  last_valid : parserRealignTransitionIsValid realign.accepted realign.last = true
  last_le : realign.last.CountersLe (previousSnapshot baseline trace)
  windows_le : pendingWindows trace ≤ limits.maximumWindows.toNat
  idle : realign.recovering = false →
    realign.last = realign.accepted ∧ pendingWindows trace = 0 ∧ episodeBursts baseline trace = 0
  burstBaseline : realign.recovering = true →
    realign.burstDiscardBaseline = realign.accepted.discardedBytes
  observed : realign.recovering = true → realign.observedWindows.toNat < 255 →
    pendingWindows trace ≤ realign.observedWindows.toNat
  bursts : realign.recovering = true →
    episodeBursts baseline trace ≤ realign.episodeBursts.toNat ∧
      realign.episodeBursts ≤ limits.maximumEvents
  clean : realign.recovering = true →
    parserGrew realign.last (previousSnapshot baseline trace) = false →
    (previousSnapshot baseline trace).errors = realign.last.errors →
    realign.cleanWindows.toNat ≤ quietWindows baseline trace

/-- A tracker in an episode that has taken `current` and has not yet checked the
limits. -/
structure OpenEpisode (limits : RealignLimits) (baseline : ParserSnapshot)
    (realign : BzmParserRealign) (current : ParserSnapshot) (older : List RealignObservation) :
    Prop where
  initialized : realign.initialized = true
  recovering : realign.recovering = true
  accepted_eq : realign.accepted = acceptedSnapshot baseline older
  last_eq : realign.last = current
  last_valid : parserRealignTransitionIsValid realign.accepted current = true
  windows_le : pendingWindows older ≤ limits.maximumWindows.toNat
  burstBaseline : realign.burstDiscardBaseline = realign.accepted.discardedBytes
  observed : realign.observedWindows.toNat < 255 →
    pendingWindows older + 1 ≤ realign.observedWindows.toNat
  bursts : episodeBursts baseline older +
      (if parserGrew (previousSnapshot baseline older) current then 1 else 0) ≤
    realign.episodeBursts.toNat
  bursts_le : realign.episodeBursts ≤ limits.maximumEvents
  clean : ∀ result, realign.cleanWindows.toNat ≤ quietWindows baseline (⟨current, result⟩ :: older)

section Check

variable {baseline current : ParserSnapshot} {realign : BzmParserRealign}
  {older : List RealignObservation}

/-- A call that is answered BAD or PENDING leaves an episode open. -/
theorem OpenEpisode.inv (h : OpenEpisode limits baseline realign current older)
    {result : BzmParserRealignResult} (hresult : result = .bad ∨
      result = .pending ∧ realign.observedWindows ≤ limits.maximumWindows ∧
        limits.maximumWindows.toNat < 255) :
    RealignInv limits baseline realign (⟨current, result⟩ :: older) := by
  have haccepts : acceptsSnapshot ⟨current, result⟩ = false := by
    rcases hresult with rfl | ⟨rfl, -⟩ <;> rfl
  have hwindows : pendingWindows (⟨current, result⟩ :: older) ≤ pendingWindows older + 1 := by
    rw [pendingWindows_cons, haccepts]
    simp only [Bool.false_eq_true, if_false]
    split <;> omega
  constructor
  · exact h.initialized
  · rw [h.accepted_eq, acceptedSnapshot, haccepts]
    rfl
  · rw [h.last_eq]
    exact h.last_valid
  · rw [h.last_eq]
    exact .refl _
  · rcases hresult with rfl | ⟨rfl, hle, hlt⟩
    · rw [pendingWindows_cons]
      exact h.windows_le
    · have hobserved : realign.observedWindows.toNat ≤ limits.maximumWindows.toNat := hle
      have := h.observed (by omega)
      omega
  · intro hidle
    rw [h.recovering] at hidle
    cases hidle
  · exact fun _ => h.burstBaseline
  · intro _ hlt
    have := h.observed hlt
    omega
  · intro _
    refine ⟨?_, h.bursts_le⟩
    refine Nat.le_trans ?_ h.bursts
    rw [episodeBursts, haccepts]
    simp only [Bool.false_eq_true, if_false]
    rw [Nat.add_comm]
    refine Nat.add_le_add_left ?_ _
    split
    · next hgrew => rw [if_pos hgrew.2]
    · exact Nat.zero_le _
  · exact fun _ _ _ => h.clean result

/-- What the check of the limits answers, and what it leaves. -/
theorem OpenEpisode.check (h : OpenEpisode limits baseline realign current older)
    (hmax : limits.maximumWindows ≠ 255) :
    let answer := checkEpisode limits realign current
    RealignInv limits baseline answer.2 (⟨current, answer.1⟩ :: older) ∧
      (answer.1 = .recovered → RecoverySound limits baseline ⟨current, answer.1⟩ older) := by
  have hmaxNat : limits.maximumWindows.toNat < 255 := by
    have hlt := limits.maximumWindows.isLt
    have hne : limits.maximumWindows.toNat ≠ 255 := fun heq =>
      hmax (BitVec.eq_of_toNat_eq heq)
    omega
  simp only [checkEpisode]
  split
  · exact ⟨h.inv (.inl rfl), fun hbad => by cases hbad⟩
  · next hlimits =>
    simp only [not_or, BitVec.not_lt] at hlimits
    obtain ⟨hdiscarded, hobserved⟩ := hlimits
    split
    · next hclean =>
      have hobservedNat : realign.observedWindows.toNat ≤ limits.maximumWindows.toNat := hobserved
      have hcleanNat : limits.requiredCleanWindows.toNat ≤ realign.cleanWindows.toNat := hclean
      refine ⟨⟨h.initialized, rfl, valid_refl _, .refl _, ?_, fun _ => ⟨rfl, ?_, rfl⟩, ?_, ?_, ?_,
        ?_⟩, fun _ => ⟨?_, ?_, ?_, ?_⟩⟩
      · rw [pendingWindows_cons]
        exact Nat.zero_le _
      · rw [pendingWindows_cons]
        rfl
      · exact fun hopen => by cases hopen
      · exact fun hopen => by cases hopen
      · exact fun hopen => by cases hopen
      · exact fun hopen => by cases hopen
      · exact hcleanNat.trans (h.clean _)
      · have hvalid := (parserRealignTransitionIsValid_iff.mp h.last_valid).1
        have hdelta : (current.discardedBytes - realign.burstDiscardBaseline).toNat ≤
            limits.maximumDiscardedBytes.toNat := hdiscarded
        rw [h.burstBaseline, BitVec.toNat_sub_of_le hvalid] at hdelta
        rw [← h.accepted_eq]
        change current.discardedBytes.toNat ≤ _
        omega
      · have := h.observed (by omega)
        omega
      · have hbursts := h.bursts
        have hle : realign.episodeBursts.toNat ≤ limits.maximumEvents.toNat := h.bursts_le
        omega
    · exact ⟨h.inv (.inr ⟨rfl, hobserved, hmaxNat⟩), fun hpending => by cases hpending⟩

/-- A call that is refused changes nothing, and shows that something changed that
the tracker does not accept. -/
theorem RealignInv.refused (h : RealignInv limits baseline realign older)
    (hmono : (previousSnapshot baseline older).CountersLe current)
    (hinvalid : parserRealignTransitionIsValid realign.accepted current = false ∨
      parserRealignTransitionIsValid realign.last current = false) :
    RealignInv limits baseline realign (⟨current, .bad⟩ :: older) := by
  have hwindows : pendingWindows (⟨current, .bad⟩ :: older) = pendingWindows older := by
    rw [pendingWindows_cons]
    rfl
  have hbursts : episodeBursts baseline (⟨current, .bad⟩ :: older) =
      episodeBursts baseline older := by
    rw [episodeBursts]
    simp [acceptsSnapshot]
  have hle := h.last_le.trans hmono
  refine ⟨h.initialized, h.accepted_eq, h.last_valid, hle, by rw [hwindows]; exact h.windows_le,
    by rw [hwindows, hbursts]; exact h.idle, h.burstBaseline, by rw [hwindows]; exact h.observed,
    by rw [hbursts]; exact h.bursts, ?_⟩
  intro _ hgrew herrors
  -- had nothing changed, both transitions would be valid
  exfalso
  rcases hinvalid with hinvalid | hinvalid
  · rw [valid_of_not_grew h.last_valid hle.emittedFrames hgrew herrors] at hinvalid
    cases hinvalid
  · rw [valid_of_not_grew (valid_refl _) hle.emittedFrames hgrew herrors] at hinvalid
    cases hinvalid

theorem continueEpisode_eq_false {maximumEvents : U8} {next : BzmParserRealign}
    (h : continueEpisode maximumEvents realign current = (false, next)) :
    parserGrew realign.last current = true ∧
      next = { realign with observedWindows := countWindow realign.observedWindows } := by
  simp only [EspMiner.continueEpisode] at h
  split at h
  · next hgrew =>
    split at h
    · exact ⟨hgrew, (Prod.mk.inj h).2.symm⟩
    · cases h
  · split at h <;> cases h

/-- The window of a recovery that is one burst too many. -/
theorem RealignInv.tooManyBursts (h : RealignInv limits baseline realign older)
    (hmono : (previousSnapshot baseline older).CountersLe current)
    (hgrew : parserGrew realign.last current = true) :
    RealignInv limits baseline
      { realign with observedWindows := countWindow realign.observedWindows }
      (⟨current, .bad⟩ :: older) := by
  have hwindows : pendingWindows (⟨current, .bad⟩ :: older) = pendingWindows older := by
    rw [pendingWindows_cons]
    rfl
  have hbursts : episodeBursts baseline (⟨current, .bad⟩ :: older) =
      episodeBursts baseline older := by
    rw [episodeBursts]
    simp [acceptsSnapshot]
  refine ⟨h.initialized, h.accepted_eq, h.last_valid, h.last_le.trans hmono,
    by rw [hwindows]; exact h.windows_le, by rw [hwindows, hbursts]; exact h.idle, h.burstBaseline,
    ?_, by rw [hbursts]; exact h.bursts, ?_⟩
  · intro hrecovering hlt
    rw [hwindows]
    change (countWindow realign.observedWindows).toNat < 255 at hlt
    change _ ≤ (countWindow realign.observedWindows).toNat
    rw [toNat_countWindow] at hlt ⊢
    have := h.observed hrecovering (by omega)
    omega
  · intro _ hsame _
    change parserGrew realign.last current = false at hsame
    rw [hgrew] at hsame
    cases hsame

/-- The first window of an episode. -/
theorem RealignInv.beginEpisode (h : RealignInv limits baseline realign older)
    (hvalid : limits.Valid) (hidle : realign.recovering = false)
    (hcurrent : parserRealignTransitionIsValid realign.accepted current = true) :
    OpenEpisode limits baseline (beginEpisode realign current) current older := by
  obtain ⟨-, hwindows, hbursts⟩ := h.idle hidle
  refine ⟨h.initialized, rfl, h.accepted_eq, rfl, hcurrent, h.windows_le, rfl, ?_, ?_,
    hvalid.events, fun _ => Nat.zero_le _⟩
  · intro _
    rw [hwindows]
    rfl
  · rw [hbursts]
    change 0 + _ ≤ 1
    split <;> omega

/-- A later window of an episode. -/
theorem RealignInv.continueEpisode (h : RealignInv limits baseline realign older)
    (hopen : realign.recovering = true)
    (hmono : (previousSnapshot baseline older).CountersLe current)
    (haccepted : parserRealignTransitionIsValid realign.accepted current = true)
    (hlast : parserRealignTransitionIsValid realign.last current = true)
    {next : BzmParserRealign}
    (hnext : continueEpisode limits.maximumEvents realign current = (true, next)) :
    OpenEpisode limits baseline next current older := by
  have hobserved : (countWindow realign.observedWindows).toNat < 255 →
      pendingWindows older + 1 ≤ (countWindow realign.observedWindows).toNat := by
    intro hlt
    rw [toNat_countWindow] at hlt ⊢
    have := h.observed hopen (by omega)
    omega
  obtain ⟨hbursts, hburstsLe⟩ := h.bursts hopen
  have herrors := (parserRealignTransitionIsValid_iff.mp hlast).2.2.2.2
  simp only [EspMiner.continueEpisode] at hnext
  split at hnext
  · next hgrew =>
    split at hnext
    · cases hnext
    · next hroom =>
      obtain rfl := (Prod.mk.inj hnext).2
      have hlt : realign.episodeBursts.toNat < limits.maximumEvents.toNat :=
        BitVec.not_le.mp hroom
      have hsize := limits.maximumEvents.isLt
      have hsucc : (realign.episodeBursts + 1).toNat = realign.episodeBursts.toNat + 1 := by
        rw [BitVec.toNat_add]
        change (realign.episodeBursts.toNat + 1) % 2 ^ 8 = _
        omega
      refine ⟨h.initialized, hopen, h.accepted_eq, rfl, haccepted, h.windows_le,
        h.burstBaseline hopen, hobserved, ?_, ?_, fun _ => Nat.zero_le _⟩
      · change _ ≤ (realign.episodeBursts + 1).toNat
        rw [hsucc]
        split <;> omega
      · change (realign.episodeBursts + 1).toNat ≤ limits.maximumEvents.toNat
        omega
  · next hquiet =>
    have hsame : parserGrew realign.last current = false := by simpa using hquiet
    -- the call before this one saw the same counters as well
    obtain ⟨hbefore, hnow, herrorsBefore⟩ := h.last_le.squeeze hmono hsame herrors
    have hburstsNow : episodeBursts baseline older +
        (if parserGrew (previousSnapshot baseline older) current then 1 else 0) ≤
          realign.episodeBursts.toNat := by
      rw [hnow]
      exact hbursts
    split at hnext
    · next haligned =>
      obtain rfl := (Prod.mk.inj hnext).2
      refine ⟨h.initialized, hopen, h.accepted_eq, rfl, haccepted, h.windows_le,
        h.burstBaseline hopen, hobserved, hburstsNow, hburstsLe, fun result => ?_⟩
      change (countWindow realign.cleanWindows).toNat ≤ _
      rw [quietWindows_of_quiet hnow haligned, toNat_countWindow]
      have := h.clean hopen hbefore herrorsBefore
      omega
    · obtain rfl := (Prod.mk.inj hnext).2
      exact ⟨h.initialized, hopen, h.accepted_eq, rfl, haccepted, h.windows_le,
        h.burstBaseline hopen, hobserved, hburstsNow, hburstsLe, fun _ => Nat.zero_le _⟩

end Check

/-- One call keeps the invariant and is sound. -/
theorem RealignInv.observe {baseline current : ParserSnapshot} {realign : BzmParserRealign}
    {older : List RealignObservation} (h : RealignInv limits baseline realign older)
    (hvalid : limits.Valid) (hmax : limits.maximumWindows ≠ 255)
    (hmono : (previousSnapshot baseline older).CountersLe current) :
    let answer := bzmParserRealignObserve limits realign current
    RealignInv limits baseline answer.2 (⟨current, answer.1⟩ :: older) ∧
      (answer.1 = .recovered → RecoverySound limits baseline ⟨current, answer.1⟩ older) := by
  simp only [bzmParserRealignObserve]
  split
  · next hrefused =>
    refine ⟨h.refused hmono ?_, fun hbad => by cases hbad⟩
    have hdiscarded := hvalid.discarded
    have hclean := hvalid.clean
    have hevents := hvalid.events
    rcases hrefused with huninit | hzero | hzero | hlt | hzero | hinvalid
    · rw [h.initialized] at huninit
      cases huninit
    · rw [hzero] at hdiscarded
      exact absurd hdiscarded (by decide)
    · rw [hzero] at hclean
      exact absurd hclean (by decide)
    · exact absurd hlt (BitVec.not_lt.mpr hvalid.windows)
    · rw [hzero] at hevents
      exact absurd hevents (by decide)
    · exact hinvalid
  · next htaken =>
    simp only [not_or, Bool.not_eq_false] at htaken
    obtain ⟨-, -, -, -, -, haccepted, hlast⟩ := htaken
    split
    · next hclean =>
      have hidle {P : Prop} (hopen : realign.recovering = true) : P := by
        rw [hclean.1] at hopen
        cases hopen
      refine ⟨⟨h.initialized, rfl, valid_refl _, .refl _, ?_, fun _ => ⟨rfl, ?_, rfl⟩, hidle, hidle,
        hidle, hidle⟩, fun hrecovered => by cases hrecovered⟩
      · rw [pendingWindows_cons]
        exact Nat.zero_le _
      · rw [pendingWindows_cons]
        rfl
    · split
      · next hidle => exact (h.beginEpisode hvalid hidle haccepted).check hmax
      · next hopen =>
        have hopen' : realign.recovering = true := by simpa using hopen
        split
        · next next hnext =>
          obtain ⟨hgrew, rfl⟩ := continueEpisode_eq_false hnext
          exact ⟨h.tooManyBursts hmono hgrew, fun hbad => by cases hbad⟩
        · next next hnext =>
          exact (h.continueEpisode hopen' hmono haccepted hlast hnext).check hmax

/-! ### Runs -/

/-- The run of a tracker. -/
def realignRun (limits : RealignLimits) (baseline : ParserSnapshot)
    (snapshots : List ParserSnapshot) : RealignRun :=
  run (RealignRun.observe limits) (.init baseline) snapshots

/-- Each snapshot of the sequence has counters at least those of the one before. -/
def MonotoneCounters : ParserSnapshot → List ParserSnapshot → Prop
  | _, [] => True
  | previous, current :: snapshots =>
      previous.CountersLe current ∧ MonotoneCounters current snapshots

theorem RealignInv.run (hvalid : limits.Valid) (hmax : limits.maximumWindows ≠ 255) {s : RealignRun}
    (h : RealignInv limits s.baseline s.realign s.trace) (hbounded : RealignBounded limits s)
    {snapshots : List ParserSnapshot}
    (hmono : MonotoneCounters (previousSnapshot s.baseline s.trace) snapshots) :
    RealignBounded limits (Library.run (RealignRun.observe limits) s snapshots) := by
  induction snapshots generalizing s with
  | nil => exact hbounded
  | cons current snapshots ih =>
    obtain ⟨hle, hrest⟩ := hmono
    obtain ⟨hinv, hsound⟩ := h.observe hvalid hmax hle
    exact ih hinv ⟨⟨hsound, hinv.windows_le⟩, hbounded⟩ hrest

/-- A tracker that was not initialised answers BAD. -/
theorem realignBounded_of_uninitialized {s : RealignRun} (h : s.realign.initialized = false)
    (hwindows : pendingWindows s.trace = 0) (hbounded : RealignBounded limits s)
    (snapshots : List ParserSnapshot) :
    RealignBounded limits (Library.run (RealignRun.observe limits) s snapshots) := by
  induction snapshots generalizing s with
  | nil => exact hbounded
  | cons current snapshots ih =>
    have hanswer : bzmParserRealignObserve limits s.realign current = (.bad, s.realign) := by
      rw [bzmParserRealignObserve, if_pos (.inl h)]
    have hstep : s.observe limits current =
        { s with trace := ⟨current, .bad⟩ :: s.trace } := by
      rw [RealignRun.observe, hanswer]
    have hwindows' : pendingWindows (⟨current, .bad⟩ :: s.trace) = 0 := by
      rw [pendingWindows_cons, hwindows]
      rfl
    rw [run_cons, hstep]
    refine ih h hwindows' ⟨⟨(fun hbad => by cases hbad), ?_⟩, hbounded⟩
    rw [hwindows']
    exact Nat.zero_le _

theorem realignRun_bounded (hvalid : limits.Valid) (hmax : limits.maximumWindows ≠ 255)
    {baseline : ParserSnapshot} {snapshots : List ParserSnapshot}
    (hmono : MonotoneCounters baseline snapshots) :
    RealignBounded limits (realignRun limits baseline snapshots) := by
  by_cases hready : baseline.queuedResults = 0 ∧ baseline.bufferedBytes = 0
  · have hinit : bzmParserRealignInit baseline =
        { BzmParserRealign.zero with
          accepted := baseline
          last := baseline
          initialized := true } := if_pos hready
    refine RealignInv.run hvalid hmax (s := .init baseline) ?_ trivial hmono
    simp only [RealignRun.init, hinit]
    refine ⟨rfl, rfl, valid_refl _, .refl _, Nat.zero_le _, fun _ => ⟨rfl, rfl, rfl⟩,
      ?_, ?_, ?_, ?_⟩
    all_goals
      intro hopen
      cases hopen
  · refine realignBounded_of_uninitialized (s := .init baseline) ?_ rfl trivial snapshots
    rw [RealignRun.init, bzmParserRealignInit, if_neg hready]
    rfl

/-! ### The longest window limit -/

/-- A snapshot with one lost byte and an open frame behind it. -/
def openFrame : ParserSnapshot :=
  { ParserSnapshot.zero with discardedBytes := 1, bufferedBytes := 1 }

/-- The tracker that saw `openFrame` in all `windows` of an episode. -/
def stuckRealign (windows : U8) : BzmParserRealign where
  accepted := .zero
  last := openFrame
  burstDiscardBaseline := 0
  burstUnexpectedRegisterBaseline := 0
  cleanWindows := 0
  observedWindows := windows
  episodeBursts := 1
  initialized := true
  recovering := true

section Stuck

variable (hvalid : limits.Valid)
include hvalid

theorem not_refused (realign : BzmParserRealign) (hinit : realign.initialized = true)
    (haccepted : realign.accepted = .zero)
    (hlast : parserRealignTransitionIsValid realign.last openFrame = true) :
    ¬ (realign.initialized = false ∨ limits.maximumDiscardedBytes = 0 ∨
      limits.requiredCleanWindows = 0 ∨ limits.maximumWindows < limits.requiredCleanWindows ∨
      limits.maximumEvents = 0 ∨
      parserRealignTransitionIsValid realign.accepted openFrame = false ∨
      parserRealignTransitionIsValid realign.last openFrame = false) := by
  have hdiscarded := hvalid.discarded
  have hclean := hvalid.clean
  have hevents := hvalid.events
  rintro (h | h | h | h | h | h | h)
  · rw [hinit] at h
    cases h
  · rw [h] at hdiscarded
    exact absurd hdiscarded (by decide)
  · rw [h] at hclean
    exact absurd hclean (by decide)
  · exact absurd h (BitVec.not_lt.mpr hvalid.windows)
  · rw [h] at hevents
    exact absurd hevents (by decide)
  · rw [haccepted] at h
    exact absurd h (by decide)
  · rw [hlast] at h
    cases h

variable (hmax : limits.maximumWindows = 255)
include hmax

/-- The limits never end an episode of `openFrame`. -/
theorem checkEpisode_stuck (windows : U8) :
    checkEpisode limits (stuckRealign windows) openFrame = (.pending, stuckRealign windows) := by
  rw [checkEpisode, if_neg, if_neg]
  · exact BitVec.not_le.mpr hvalid.clean
  · rw [hmax]
    rintro (h | h)
    · have hone : openFrame.discardedBytes - (stuckRealign windows).burstDiscardBaseline = 1 :=
        BitVec.sub_zero _
      rw [hone] at h
      exact absurd hvalid.discarded (BitVec.not_le.mpr h)
    · have hlt : 255 < windows.toNat := h
      have := windows.isLt
      omega

theorem observe_stuck (windows : U8) :
    bzmParserRealignObserve limits (stuckRealign windows) openFrame =
      (.pending, stuckRealign (countWindow windows)) := by
  rw [bzmParserRealignObserve, if_neg (not_refused hvalid _ rfl rfl (valid_refl _)),
    if_neg (fun h => by cases h.1), if_neg (fun h => by cases h)]
  exact checkEpisode_stuck hvalid hmax (countWindow windows)

theorem observe_first :
    bzmParserRealignObserve limits (bzmParserRealignInit .zero) openFrame =
      (.pending, stuckRealign 1) := by
  rw [bzmParserRealignObserve,
    if_neg (not_refused hvalid _ rfl rfl (by decide)), if_neg (by decide),
    if_pos (show (bzmParserRealignInit .zero).recovering = false by decide)]
  exact checkEpisode_stuck hvalid hmax 1

/-- Each further window of `openFrame` is one more window of the episode. -/
theorem pendingWindows_stuck (count : Nat) {s : RealignRun} {windows : U8}
    (h : s.realign = stuckRealign windows) :
    pendingWindows (run (RealignRun.observe limits) s (List.replicate count openFrame)).trace =
      pendingWindows s.trace + count := by
  induction count generalizing s windows with
  | zero => rfl
  | succ count ih =>
    have hstep : s.observe limits openFrame = { s with
        realign := stuckRealign (countWindow windows)
        trace := ⟨openFrame, .pending⟩ :: s.trace } := by
      rw [RealignRun.observe, h, observe_stuck hvalid hmax]
    rw [List.replicate_succ, run_cons, hstep, ih rfl]
    change pendingWindows (⟨openFrame, .pending⟩ :: s.trace) + count = _
    rw [pendingWindows_cons]
    simp [acceptsSnapshot]
    omega

/-- Any number of windows that keep the frame open. -/
theorem realignRun_stuck (count : Nat) :
    pendingWindows (realignRun limits .zero (List.replicate (count + 1) openFrame)).trace =
      count + 1 := by
  have hstep : (RealignRun.init .zero).observe limits openFrame =
      ⟨.zero, stuckRealign 1, [⟨openFrame, .pending⟩]⟩ := by
    rw [RealignRun.observe, RealignRun.init, observe_first hvalid hmax]
  rw [realignRun, List.replicate_succ, run_cons, hstep, pendingWindows_stuck hvalid hmax count rfl,
    Nat.add_comm]
  rfl

end Stuck

theorem monotoneCounters_replicate (count : Nat) :
    MonotoneCounters openFrame (List.replicate count openFrame) := by
  induction count with
  | zero => trivial
  | succ count ih => exact ⟨.refl _, ih⟩

theorem monotoneCounters_stuck (count : Nat) :
    MonotoneCounters .zero (List.replicate (count + 1) openFrame) := by
  refine ⟨?_, monotoneCounters_replicate count⟩
  constructor <;> decide

/-- The head of a bounded run is within the window limit. -/
theorem RealignBounded.pendingWindows_le {s : RealignRun} (h : RealignBounded limits s) :
    pendingWindows s.trace ≤ limits.maximumWindows.toNat := by
  unfold RealignBounded at h
  cases htrace : s.trace with
  | nil => exact Nat.zero_le _
  | cons o older =>
    rw [htrace] at h
    exact h.1.2

/-- A window limit of 255 does not end an episode that has 256 windows. -/
theorem not_realignBounded_stuck (hvalid : limits.Valid) (hmax : limits.maximumWindows = 255)
    {count : Nat} (hcount : count = 256) :
    MonotoneCounters .zero (List.replicate count openFrame) ∧
      ¬ RealignBounded limits (realignRun limits .zero (List.replicate count openFrame)) := by
  cases count with
  | zero => omega
  | succ count =>
    refine ⟨monotoneCounters_stuck count, fun hbounded => ?_⟩
    have hle := hbounded.pendingWindows_le
    have hlimit : limits.maximumWindows.toNat = 255 := by rw [hmax]; rfl
    have hstuck := realignRun_stuck hvalid hmax count
    omega

/-- **Realignment is bounded exactly below the end of the window counter.**  For
the limits that the tracker accepts, all runs over growing counters are bounded
if and only if the window limit is not `UINT8_MAX`, where the saturated counter
never exceeds it. -/
theorem parserRealign_bounded_iff (limits : RealignLimits) (hvalid : limits.Valid) :
    (∀ (baseline : ParserSnapshot) (snapshots : List ParserSnapshot),
      MonotoneCounters baseline snapshots →
        RealignBounded limits (realignRun limits baseline snapshots)) ↔
      limits.maximumWindows ≠ 255 := by
  constructor
  · intro hbounded hmax
    obtain ⟨count, hcount⟩ : ∃ count, count = 256 := ⟨_, rfl⟩
    obtain ⟨hmono, hnot⟩ := not_realignBounded_stuck hvalid hmax hcount
    exact hnot (hbounded _ _ hmono)
  · intro hmax baseline snapshots hmono
    exact realignRun_bounded hvalid hmax hmono

/-- The limits that the firmware is configured with. -/
theorem parserRealign_bounded_configured :
    (⟨256, 2, 20, 20⟩ : RealignLimits).Valid ∧
      ∀ (baseline : ParserSnapshot) (snapshots : List ParserSnapshot),
        MonotoneCounters baseline snapshots →
          RealignBounded ⟨256, 2, 20, 20⟩ (realignRun ⟨256, 2, 20, 20⟩ baseline snapshots) := by
  have hvalid : (⟨256, 2, 20, 20⟩ : RealignLimits).Valid := by
    constructor <;> decide
  exact ⟨hvalid, (parserRealign_bounded_iff ⟨256, 2, 20, 20⟩ hvalid).mpr (by decide)⟩

/-- With a window limit of 255, 256 windows in a row are PENDING. -/
theorem parserRealign_unbounded :
    (⟨256, 2, 255, 20⟩ : RealignLimits).Valid ∧
      MonotoneCounters .zero (List.replicate 256 openFrame) ∧
      ¬ RealignBounded ⟨256, 2, 255, 20⟩
        (realignRun ⟨256, 2, 255, 20⟩ .zero (List.replicate 256 openFrame)) := by
  have hvalid : (⟨256, 2, 255, 20⟩ : RealignLimits).Valid := by
    constructor <;> decide
  exact ⟨hvalid, not_realignBounded_stuck hvalid rfl rfl⟩

end EspMiner
