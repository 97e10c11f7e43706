import EspMiner.Library.Ranking
import EspMiner.Main.Scoreboard

/-!
# What the scoreboard holds

The board is the start of a ranking of all results so far, and a restart reads the same board from
the slots, as long as every restart finds readable entries and none falls within an add.  The text
of an entry leaves out digits of its difficulty, so results are ranked by tenths, and equal ones in
the order of their arrival only where ties are kept.
-/

namespace EspMiner

open Library

/-! ## Reading an entry -/

/-- The text of an entry, before it is cut to the size of `nvs_entry`. -/
def ScoreboardEntry.text (entry : ScoreboardEntry) : List U8 :=
  entryText (entry.difficulty.toFraction 1) entry.jobId entry.extranonce2 entry.ntime entry.nonce
    entry.versionBits

/-- The entry can be read back from its slot: both texts are there, neither holds the
separator, and the whole text fits. -/
structure ScoreboardEntry.Readable (entry : ScoreboardEntry) : Prop where
  jobId : entry.jobId ≠ []
  extranonce2 : entry.extranonce2 ≠ []
  jobId_separator : 59#8 ∉ entry.jobId
  extranonce2_separator : 59#8 ∉ entry.extranonce2
  fits : entry.text.length ≤ 127

theorem takeWhile_isDigit_separator (rest : List U8) :
    (59#8 :: rest).takeWhile isDigit = [] := List.takeWhile_cons_of_neg (by decide)

theorem scanField_append {field : List U8} (hne : field ≠ []) (hlength : field.length ≤ 31)
    (hseparator : 59#8 ∉ field) (rest : List U8) :
    scanField (field ++ 59#8 :: rest) = some (field, 59#8 :: rest) := by
  have htake : (field ++ 59#8 :: rest).takeWhile (fun byte => byte ≠ 59#8) = field := by
    rw [List.takeWhile_append_of_pos (fun byte hbyte => ?_), List.takeWhile_cons_of_neg (by simp),
      List.append_nil]
    refine decide_eq_true ?_
    rintro rfl
    exact hseparator hbyte
  unfold scanField
  rw [htake]
  dsimp only
  rw [List.take_of_length_le hlength, if_neg hne, List.drop_left]

theorem scanLu_append (value : U32) {rest : List U8} (hrest : rest.takeWhile isDigit = []) :
    scanLu (decimalText value.toNat ++ rest) = some (value, rest) := by
  have hdigits : ∀ byte ∈ decimalText value.toNat, isDigit byte = true :=
    decimalDigits_isDigit _ _
  have hdrop : rest.dropWhile isDigit = rest := by
    have hsplit := List.takeWhile_append_dropWhile (p := isDigit) (l := rest)
    rwa [hrest] at hsplit
  unfold scanLu
  rw [splitSign_of_digits (decimalText_ne_nil _) hdigits]
  dsimp only
  rw [List.takeWhile_append_of_pos hdigits, hrest, List.append_nil, if_neg (decimalText_ne_nil _),
    strtoul_decimalText_append value hrest, List.dropWhile_append_of_pos hdigits, hdrop]

theorem scanByte_self (byte : U8) (rest : List U8) : scanByte byte (byte :: rest) = some rest :=
  if_pos rfl

/-- The entry as it is after a restart. -/
def ScoreboardEntry.stored (entry : ScoreboardEntry) : ScoreboardEntry :=
  { entry with difficulty := entry.difficulty.reread 1 }

@[simp] theorem ScoreboardEntry.stored_nvsEntry (entry : ScoreboardEntry) :
    entry.stored.nvsEntry = entry.nvsEntry := by
  cases entry
  rfl

/-- **A readable result is read back** from the text that was written for it. -/
theorem scanEntry_text {result : ScoreboardResult} (h : result.newEntry.Readable) :
    scanEntry result.newEntry.nvsEntry = some result.newEntry.stored := by
  have htext : result.newEntry.nvsEntry = result.text := List.take_of_length_le h.fits
  have hjob := scanField_append h.jobId (List.length_take_le 31 result.jobId) h.jobId_separator
  have hextranonce := scanField_append h.extranonce2
    (List.length_take_le 31 result.extranonce2) h.extranonce2_separator
  simp only [ScoreboardResult.newEntry] at hjob hextranonce
  have hend : scanLu (decimalText result.versionBits.toNat ++ []) =
      some (result.versionBits, []) := scanLu_append result.versionBits rfl
  rw [List.append_nil] at hend
  have hdifficulty (rest : List U8) := scanFixed_fixedText result.difficulty.negative
    1 (result.difficulty.toFraction 1).digits (takeWhile_isDigit_separator rest)
  rw [htext]
  unfold scanEntry ScoreboardResult.text entryText
  simp only [Binary64.toFraction] at hdifficulty ⊢
  simp only [hdifficulty, hjob, hextranonce, hend, scanByte_self, Option.bind_eq_bind,
    Option.bind_some, scanLu_append _ (takeWhile_isDigit_separator _)]
  simp [ScoreboardEntry.stored, ScoreboardResult.newEntry, Binary64.reread, Binary64.toFraction,
    ScoreboardResult.text, entryText]

namespace Scoreboard

variable {entry : ScoreboardEntry} {s : Scoreboard} {result : ScoreboardResult}
  {difficulty : Binary64}

/-! ## Inserting an entry -/

/-- A sequence with a new element at place `j`. -/
def insertAt {α : Type} (j : Nat) (new : α) (f : Nat → α) (m : Nat) : α :=
  if m < j then f m else if m = j then new else f (m - 1)

theorem map_insertAt {α : Type} {j n : Nat} (hj : j ≤ n) (new : α) (f : Nat → α) :
    (List.range (n + 1)).map (insertAt j new f) =
      ((List.range n).map f).take j ++ new :: ((List.range n).map f).drop j := by
  refine List.ext_getElem (by simp; omega) fun m hm hm' => ?_
  simp only [List.length_map, List.length_range] at hm
  simp only [List.getElem_map, List.getElem_range, insertAt]
  rcases Nat.lt_trichotomy m j with hlt | rfl | hgt
  · rw [if_pos hlt, List.getElem_append_left (by simp; omega)]
    simp
  · rw [if_neg (Nat.lt_irrefl m), if_pos rfl, List.getElem_append_right (by simp)]
    simp [Nat.min_eq_left hj]
  · have hlength : (((List.range n).map f).take j).length = j := by simp; omega
    rw [if_neg (by omega), if_neg (by omega), List.getElem_append_right (by omega)]
    obtain ⟨k, rfl⟩ : ∃ k, m = j + 1 + k := ⟨m - (j + 1), by omega⟩
    simp only [hlength, show j + 1 + k - j = k + 1 by omega, List.getElem_cons_succ,
      List.getElem_drop, List.getElem_map, List.getElem_range]
    congr 1
    omega

/-- What the turns of the loop leave: the loop stops at place `j`, behind the entries
that are not smaller, and has moved the smaller ones down by one place. -/
structure Shifted (difficulty : Binary64) (i : Nat) (s : Scoreboard) (j : Nat)
    (s' : Scoreboard) : Prop where
  le : j ≤ i
  stops : ∀ m, j = m + 1 → ¬ (s.entries m).difficulty < difficulty
  smaller : ∀ m, j ≤ m → m < i → (s.entries m).difficulty < difficulty
  entries : ∀ m, s'.entries m = if j < m ∧ m ≤ i then s.entries (m - 1) else s.entries m
  slots : ∀ m, s'.slots m =
    if j < m ∧ m ≤ i then (s.entries (m - 1)).nvsEntry else s.slots m

theorem shiftOnce_iterate (difficulty : Binary64) (i : Nat) (s : Scoreboard) :
    Shifted difficulty i s ((shiftOnce difficulty)^[i] (i, s)).1
      ((shiftOnce difficulty)^[i] (i, s)).2 := by
  induction i generalizing s with
  | zero =>
    refine ⟨le_rfl, fun m hm => (nomatch hm), fun m _ hm => (nomatch hm), fun m => ?_, fun m => ?_⟩
    · rw [if_neg (by omega)]
      rfl
    · rw [if_neg (by omega)]
      rfl
  | succ i ih =>
    rw [Function.iterate_succ_apply]
    by_cases hless : (s.entries i).difficulty < difficulty
    · have hturn : shiftOnce difficulty (i + 1, s) = (i, s.put (i + 1) (s.entries i)) :=
        if_pos hless
      rw [hturn]
      have hrest := ih (s.put (i + 1) (s.entries i))
      generalize ((shiftOnce difficulty)^[i] (i, s.put (i + 1) (s.entries i))) = last at hrest ⊢
      -- the turns to come do not look at place `i + 1`
      have hbelow (m : Nat) (hm : m ≠ i + 1) :
          (s.put (i + 1) (s.entries i)).entries m = s.entries m := Function.update_of_ne hm _ _
      have hbelow' (m : Nat) (hm : m ≠ i + 1) :
          (s.put (i + 1) (s.entries i)).slots m = s.slots m := Function.update_of_ne hm _ _
      have hle := hrest.le
      refine ⟨by omega, fun m hm => ?_, fun m hjm hm => ?_, fun m => ?_, fun m => ?_⟩
      · rw [← hbelow m (by omega)]
        exact hrest.stops m hm
      · rcases Nat.lt_or_eq_of_le (Nat.lt_succ_iff.mp hm) with hlt | rfl
        · rw [← hbelow m (by omega)]
          exact hrest.smaller m hjm hlt
        · exact hless
      · rw [hrest.entries m]
        by_cases hm : m = i + 1
        · subst hm
          rw [if_neg (by omega), if_pos ⟨by omega, le_rfl⟩]
          exact Function.update_self ..
        · rw [hbelow m hm]
          by_cases hmoved : last.1 < m ∧ m ≤ i
          · rw [if_pos hmoved, if_pos ⟨hmoved.1, by omega⟩, hbelow _ (by omega)]
          · rw [if_neg hmoved, if_neg (by omega)]
      · rw [hrest.slots m]
        by_cases hm : m = i + 1
        · subst hm
          rw [if_neg (by omega), if_pos ⟨by omega, le_rfl⟩]
          exact Function.update_self ..
        · rw [hbelow' m hm]
          by_cases hmoved : last.1 < m ∧ m ≤ i
          · rw [if_pos hmoved, if_pos ⟨hmoved.1, by omega⟩, hbelow _ (by omega)]
          · rw [if_neg hmoved, if_neg (by omega)]
    · have hturn : shiftOnce difficulty (i + 1, s) = (i + 1, s) := if_neg hless
      rw [hturn, Function.iterate_fixed hturn]
      refine ⟨le_rfl, fun m hm => ?_, fun m hjm hm => absurd hjm (by omega), fun m => ?_,
        fun m => ?_⟩
      · obtain rfl : i = m := Nat.succ.inj hm
        exact hless
      · rw [if_neg (by omega)]
      · rw [if_neg (by omega)]

/-- Every slot holds the text of its entry. -/
def SlotsHeld (s : Scoreboard) : Prop :=
  ∀ m, s.slots m = if m < s.count then (s.entries m).nvsEntry else []

/-- What `scoreboard_add` leaves: the board as it was, full with no smaller entry, or the
new entry between those that are not smaller and the smaller ones. -/
inductive Added (s : Scoreboard) (result : ScoreboardResult) (s' : Scoreboard) : Prop
  | rejects (hfull : s.count = MAX_SCOREBOARD) (hheld : s'.held = s.held)
      (hsmaller : ∀ entry ∈ s.held, result.difficulty ≤ entry.difficulty)
  | accepts (front back : List ScoreboardEntry) (hheld : s.held = front ++ back)
      (hheld' : s'.held = (front ++ result.newEntry :: back).take MAX_SCOREBOARD)
      (hroom : front.length < MAX_SCOREBOARD)
      (hfront : ∀ entry ∈ front, result.difficulty ≤ entry.difficulty)
      (hback : ∀ entry ∈ back, entry.difficulty < result.difficulty)

@[simp] theorem length_held (s : Scoreboard) : s.held.length = s.count := by simp [held]

theorem getElem_held (s : Scoreboard) {m : Nat} (hm : m < s.held.length) :
    s.held[m] = s.entries m := by simp [held]

/-- The greatest entry among sorted ones comes first. -/
theorem le_of_sorted (hsorted : s.held.Pairwise fun a b => b.difficulty ≤ a.difficulty)
    {m n : Nat} (hmn : m ≤ n) (hn : n < s.count) :
    (s.entries n).difficulty ≤ (s.entries m).difficulty := by
  rcases Nat.lt_or_eq_of_le hmn with hlt | rfl
  · have hn' : n < s.held.length := by simpa using hn
    have := List.pairwise_iff_getElem.mp hsorted m n (by omega) hn' hlt
    rwa [getElem_held, getElem_held] at this
  · exact Int.le_refl _

theorem add_spec (hcount : s.count ≤ MAX_SCOREBOARD) (hslots : s.SlotsHeld)
    (hsorted : s.held.Pairwise fun a b => b.difficulty ≤ a.difficulty)
    (result : ScoreboardResult) :
    Added s result (s.add result) ∧ (s.add result).SlotsHeld ∧
      (s.add result).count ≤ MAX_SCOREBOARD := by
  unfold add
  dsimp only
  split
  · next hreject =>
    obtain ⟨hfull, hle⟩ := hreject
    refine ⟨.rejects hfull rfl fun entry hentry => ?_, hslots, hcount⟩
    have hlast : s.lastPlaceOf = MAX_SCOREBOARD - 1 := by simp [lastPlaceOf, hfull]
    rw [hlast] at hle
    obtain ⟨m, hm, rfl⟩ := List.getElem_of_mem hentry
    have hm' : m < s.count := by simpa using hm
    rw [getElem_held]
    refine Binary64.le_trans hle (le_of_sorted hsorted (by omega) ?_)
    rw [hfull]
    decide
  · next haccept =>
    have hshifted := shiftOnce_iterate result.difficulty s.lastPlaceOf s
    generalize (shiftOnce result.difficulty)^[s.lastPlaceOf] (s.lastPlaceOf, s) = last
      at hshifted ⊢
    obtain ⟨j, s'⟩ := last
    -- the loop starts at the place that the board grows to, or at its last place
    obtain ⟨hplace, hgrown⟩ : s.lastPlaceOf + 1 = min MAX_SCOREBOARD (s.count + 1) ∧
        (if s.count < MAX_SCOREBOARD then s.count + 1 else s.count) =
          min MAX_SCOREBOARD (s.count + 1) := by
      unfold lastPlaceOf
      have : 0 < MAX_SCOREBOARD := by decide
      split <;> omega
    have hj := hshifted.le
    have hjcount : j ≤ s.count := by omega
    have hentries (m : Nat) (hm : m ≤ s.lastPlaceOf) :
        (s'.put j result.newEntry).entries m = insertAt j result.newEntry s.entries m := by
      unfold insertAt
      rcases Nat.lt_trichotomy m j with hlt | rfl | hgt
      · rw [if_pos hlt]
        refine (Function.update_of_ne (by omega) _ _).trans ?_
        rw [hshifted.entries m, if_neg (by omega)]
      · rw [if_neg (by omega), if_pos rfl]
        exact Function.update_self ..
      · rw [if_neg (by omega), if_neg (by omega)]
        refine (Function.update_of_ne (by omega) _ _).trans ?_
        rw [hshifted.entries m, if_pos ⟨hgt, hm⟩]
    refine ⟨.accepts (s.held.take j) (s.held.drop j) (List.take_append_drop j _).symm ?_ ?_ ?_ ?_,
      fun m => ?_, ?_⟩
    · have hrange : ((List.range (s.count + 1)).map
          (insertAt j result.newEntry s.entries)).take MAX_SCOREBOARD =
          (List.range (min MAX_SCOREBOARD (s.count + 1))).map
            (insertAt j result.newEntry s.entries) := by
        rw [← List.map_take, List.take_range]
      unfold held at *
      rw [← map_insertAt hjcount, hrange]
      dsimp only
      rw [hgrown]
      exact List.map_congr_left fun m hm => hentries m (by
        have := List.mem_range.mp hm
        omega)
    · simp only [List.length_take, length_held]
      omega
    · intro entry hentry
      obtain ⟨m, hm, rfl⟩ := List.getElem_of_mem hentry
      simp only [List.length_take, length_held] at hm
      rw [List.getElem_take, getElem_held]
      refine Binary64.le_trans (Binary64.not_lt.mp (hshifted.stops (j - 1) (by omega)))
        (le_of_sorted hsorted (by omega) (by omega))
    · intro entry hentry
      obtain ⟨m, hm, rfl⟩ := List.getElem_of_mem hentry
      simp only [List.length_drop, length_held] at hm
      rw [List.getElem_drop, getElem_held]
      rcases Nat.lt_or_ge (j + m) s.lastPlaceOf with hlt | hge
      · exact hshifted.smaller _ (by omega) hlt
      · -- the last entry of a full board
        have hfull : s.count = MAX_SCOREBOARD := by omega
        have hlast : j + m = s.lastPlaceOf := by omega
        rw [hlast]
        by_contra hle
        exact haccept ⟨hfull, Binary64.not_lt.mp hle⟩
    · dsimp only
      rw [hgrown]
      by_cases hm : m < min MAX_SCOREBOARD (s.count + 1)
      · rw [if_pos hm]
        by_cases hmj : m = j
        · subst hmj
          refine (Function.update_self ..).trans ?_
          exact (congrArg ScoreboardEntry.nvsEntry (Function.update_self ..)).symm
        · have hentry : (s'.put j result.newEntry).entries m = s'.entries m :=
            Function.update_of_ne hmj _ _
          rw [hentry]
          refine (Function.update_of_ne hmj _ _).trans ?_
          rw [hshifted.slots m, hshifted.entries m]
          split
          · rfl
          · rw [hslots m, if_pos (by omega)]
      · rw [if_neg hm]
        refine (Function.update_of_ne (by omega) _ _).trans ?_
        rw [hshifted.slots m, if_neg (by omega), hslots m, if_neg (by omega)]
    · dsimp only
      omega

/-! ## Reading the slots -/

theorem held_grow (s : Scoreboard) (entry : ScoreboardEntry) :
    held { s with
      entries := Function.update s.entries s.count entry, count := s.count + 1 } =
      s.held ++ [entry] := by
  unfold held
  dsimp only
  rw [List.range_succ, List.map_append, List.map_singleton, Function.update_self]
  congr 1
  refine List.map_congr_left fun m hm => Function.update_of_ne ?_ _ _
  have := List.mem_range.mp hm
  omega

theorem load_slots (slots : Nat → List U8) (left i : Nat) (s : Scoreboard) :
    (load slots left i s).slots = s.slots := by
  induction left generalizing i s with
  | zero => rfl
  | succ left ih =>
    unfold load
    split
    · rfl
    · split
      · exact ih _ _
      · exact ih _ _

@[simp] theorem init_slots (slots : Nat → List U8) : (init slots).slots = slots := by
  unfold init
  rw [load_slots]

theorem newEntry_text_ne_nil (h : result.newEntry.Readable) : result.newEntry.nvsEntry ≠ [] := by
  intro hempty
  have hread := scanEntry_text h
  rw [hempty] at hread
  cases hread

/-- The loop reads as many entries as there are, if they are readable. -/
theorem load_spec {slots : Nat → List U8} {shown : List ScoreboardResult}
    (hshown : ∀ result ∈ shown, result.newEntry.Readable) {left i : Nat}
    (hleft : shown.length ≤ left)
    (hslots : ∀ m (hm : m < shown.length), slots (i + m) = shown[m].newEntry.nvsEntry)
    (hend : shown.length < left → slots (i + shown.length) = []) (s : Scoreboard) :
    (load slots left i s).held = s.held ++ shown.map fun result => result.newEntry.stored := by
  induction shown generalizing left i s with
  | nil =>
    cases left with
    | zero => simp [load]
    | succ left => simp [load, show slots i = [] from hend (Nat.succ_pos left)]
  | cons first shown ih =>
    obtain ⟨left, rfl⟩ : ∃ n, left = n + 1 := ⟨left - 1, by simp at hleft; omega⟩
    have hfirst : slots i = first.newEntry.nvsEntry := hslots 0 (by simp)
    have hreadable := hshown first List.mem_cons_self
    rw [load, hfirst, if_neg (newEntry_text_ne_nil hreadable), scanEntry_text hreadable]
    have hrest (m : Nat) (hm : m < shown.length) :
        slots (i + 1 + m) = shown[m].newEntry.nvsEntry := by
      have := hslots (m + 1) (by simpa using hm)
      rwa [← Nat.add_assoc, Nat.add_right_comm] at this
    have hstop (hlt : shown.length < left) : slots (i + 1 + shown.length) = [] := by
      have := hend (by simpa using hlt)
      rwa [List.length_cons, ← Nat.add_assoc, Nat.add_right_comm] at this
    refine (ih (fun result hresult => hshown result (List.mem_cons_of_mem _ hresult))
      (by simpa using hleft) hrest hstop _).trans ?_
    rw [held_grow, List.append_assoc, List.map_cons, List.singleton_append]

/-! ## The board and the results -/

/-- The difficulty of a result as the slots keep it. -/
def tenths (difficulty : Binary64) : Int := (difficulty.toFraction 1).scaled

/-- The entry is that of the result, with the difficulty it was added with or the one
that a restart read. -/
def Shows (entry : ScoreboardEntry) (result : ScoreboardResult) : Prop :=
  entry = { result.newEntry with difficulty := entry.difficulty } ∧
    (entry.difficulty = result.difficulty ∨ entry.difficulty = result.difficulty.reread 1)

theorem Shows.new (result : ScoreboardResult) : Shows result.newEntry result := ⟨rfl, .inl rfl⟩

theorem Shows.stored (result : ScoreboardResult) : Shows result.newEntry.stored result :=
  ⟨rfl, .inr rfl⟩

theorem Shows.toFraction_eq (h : Shows entry result) :
    entry.difficulty.toFraction 1 = result.difficulty.toFraction 1 := by
  rcases h.2 with hsame | hread
  · rw [hsame]
  · rw [hread, Binary64.toFraction_reread (by decide)]

theorem Shows.tenths_eq (h : Shows entry result) :
    tenths entry.difficulty = tenths result.difficulty :=
  congrArg DecimalFraction.scaled h.toFraction_eq

theorem Shows.nvsEntry_eq (h : Shows entry result) :
    entry.nvsEntry = result.newEntry.nvsEntry := by rw [h.1]

theorem Shows.readable (h : Shows entry result) (hentry : entry.Readable) :
    result.newEntry.Readable := by
  have htext : entry.text = result.newEntry.text := by
    unfold ScoreboardEntry.text
    rw [h.toFraction_eq, h.1]
    rfl
  obtain ⟨hjob, hextranonce, hjob', hextranonce', hfits⟩ := hentry
  rw [h.1] at hjob hextranonce hjob' hextranonce'
  exact ⟨hjob, hextranonce, hjob', hextranonce', htext ▸ hfits⟩

theorem Shows.stored_eq (h : Shows entry result) : entry.stored = result.newEntry.stored := by
  have hdifficulty : entry.difficulty.reread 1 = result.difficulty.reread 1 :=
    congrArg Binary64.ofFraction h.toFraction_eq
  unfold ScoreboardEntry.stored
  rw [hdifficulty, h.1]
  rfl

/-- What holds after every step.  `stable` says whether results that print the same
difficulty were always added in falling order. -/
structure Ranks (stable : Prop) (all : List ScoreboardResult) (s : Scoreboard) : Prop where
  count_le : s.count ≤ MAX_SCOREBOARD
  slots : s.SlotsHeld
  sorted : s.held.Pairwise fun a b => b.difficulty ≤ a.difficulty
  ranking : ∃ ranking, IsRanking (fun result => tenths result.difficulty) all ranking ∧
    (stable → StableFor (fun result => tenths result.difficulty) all ranking) ∧
    List.Forall₂ Shows s.held (ranking.take MAX_SCOREBOARD)

variable {stable : Prop} {all : List ScoreboardResult}

/-- No entry that prints the same difficulty is smaller. -/
def TieKept (s : Scoreboard) (result : ScoreboardResult) : Prop :=
  ∀ entry ∈ s.held, tenths entry.difficulty = tenths result.difficulty →
    result.difficulty ≤ entry.difficulty

/-- Each shown result has a difficulty that compares like its entry's. -/
theorem tenths_le_of_shown {entries : List ScoreboardEntry} {shown : List ScoreboardResult}
    (hshown : List.Forall₂ Shows entries shown)
    (hentries : ∀ entry ∈ entries, result.difficulty ≤ entry.difficulty) :
    ∀ other ∈ shown, tenths result.difficulty ≤ tenths other.difficulty := by
  induction hshown with
  | nil => simp
  | cons hfirst _ ih =>
    intro other hother
    rcases List.mem_cons.mp hother with rfl | hother
    · rw [← hfirst.tenths_eq]
      exact Binary64.scaled_toFraction_mono (hentries _ List.mem_cons_self)
    · exact ih (fun entry hentry => hentries entry (List.mem_cons_of_mem _ hentry)) other hother

/-- A board that does not take a result up. -/
theorem Ranks.rejects (h : Ranks stable all s) (hfull : s.count = MAX_SCOREBOARD)
    (hsmaller : ∀ entry ∈ s.held, result.difficulty ≤ entry.difficulty) :
    ∃ ranking, IsRanking (fun result => tenths result.difficulty) (all ++ [result]) ranking ∧
      (stable → StableFor (fun result => tenths result.difficulty) (all ++ [result]) ranking) ∧
      List.Forall₂ Shows s.held (ranking.take MAX_SCOREBOARD) := by
  obtain ⟨ranking, hranking, hstable, hshown⟩ := h.ranking
  have hlength : (ranking.take MAX_SCOREBOARD).length = MAX_SCOREBOARD := by
    rw [← hshown.length_eq, length_held, hfull]
  have hsorted : (ranking.drop MAX_SCOREBOARD).Pairwise
      fun a b => tenths b.difficulty ≤ tenths a.difficulty :=
    hranking.sorted.sublist (List.drop_sublist _ _)
  obtain ⟨front, back, hsplit, hfront, hback⟩ := exists_split_of_sorted
    (fun result : ScoreboardResult => tenths result.difficulty) result hsorted
  have hwhole : ranking = (ranking.take MAX_SCOREBOARD ++ front) ++ back := by
    rw [List.append_assoc, ← hsplit, List.take_append_drop]
  rw [hwhole] at hranking hstable
  refine ⟨(ranking.take MAX_SCOREBOARD ++ front) ++ result :: back,
    hranking.insert (fun other hother => ?_) fun other hother => (hback other hother).le,
    fun hties => (hstable hties).insert fun other hother => (hback other hother).ne, ?_⟩
  · rcases List.mem_append.mp hother with hother | hother
    · exact tenths_le_of_shown hshown hsmaller other hother
    · exact hfront other hother
  · rw [List.append_assoc, List.take_append_of_le_length hlength.ge,
      List.take_of_length_le hlength.le]
    exact hshown

/-- A board that takes a result up. -/
theorem Ranks.accepts (h : Ranks stable all s) (hties : stable → s.TieKept result)
    {front back : List ScoreboardEntry} (hheld : s.held = front ++ back)
    (hroom : front.length < MAX_SCOREBOARD)
    (hfront : ∀ entry ∈ front, result.difficulty ≤ entry.difficulty)
    (hback : ∀ entry ∈ back, entry.difficulty < result.difficulty) :
    ∃ ranking, IsRanking (fun result => tenths result.difficulty) (all ++ [result]) ranking ∧
      (stable → StableFor (fun result => tenths result.difficulty) (all ++ [result]) ranking) ∧
      List.Forall₂ Shows ((front ++ result.newEntry :: back).take MAX_SCOREBOARD)
        (ranking.take MAX_SCOREBOARD) := by
  obtain ⟨ranking, hranking, hstable, hshown⟩ := h.ranking
  have hlength : front.length ≤ (ranking.take MAX_SCOREBOARD).length := by
    rw [← hshown.length_eq, hheld, List.length_append]
    exact Nat.le_add_right _ _
  rw [hheld] at hshown
  obtain ⟨better, worse, rfl, hbetter⟩ : ∃ better worse, ranking = better ++ worse ∧
      better.length = front.length := by
    refine ⟨ranking.take front.length, ranking.drop front.length,
      (List.take_append_drop _ _).symm, ?_⟩
    rw [List.length_take] at hlength ⊢
    omega
  have htake (list : List ScoreboardResult) : (better ++ list).take MAX_SCOREBOARD =
      better ++ list.take (MAX_SCOREBOARD - front.length) := by
    rw [List.take_append, List.take_of_length_le (by omega), hbetter]
  rw [htake] at hshown
  have hshownFront : List.Forall₂ Shows front better := by
    have := List.forall₂_take front.length hshown
    rwa [List.take_left, ← hbetter, List.take_left] at this
  have hshownBack :
      List.Forall₂ Shows back (worse.take (MAX_SCOREBOARD - front.length)) := by
    have := List.forall₂_drop front.length hshown
    rwa [List.drop_left, ← hbetter, List.drop_left, hbetter] at this
  have hroom' : MAX_SCOREBOARD - front.length = MAX_SCOREBOARD - front.length - 1 + 1 := by omega
  have hsortedWorse := (List.pairwise_append.mp hranking.sorted).2.1
  -- the first of the results behind is shown by the first of the smaller entries
  have hworse : ∀ other ∈ worse, tenths other.difficulty ≤ tenths result.difficulty ∧
      (stable → tenths other.difficulty ≠ tenths result.difficulty) := by
    intro other hother
    cases worse with
    | nil => cases hother
    | cons next worse =>
      rw [hroom', List.take_succ_cons] at hshownBack
      cases hshownBack with
      | @cons entry _ back _ hnext hrest =>
        have hless := hback entry List.mem_cons_self
        have hle : tenths other.difficulty ≤ tenths entry.difficulty := by
          rw [hnext.tenths_eq]
          rcases List.mem_cons.mp hother with rfl | hother
          · exact le_rfl
          · exact (List.pairwise_cons.mp hsortedWorse).1 other hother
        have hentry : tenths entry.difficulty ≤ tenths result.difficulty :=
          Binary64.scaled_toFraction_mono (Binary64.le_of_lt hless)
        refine ⟨hle.trans hentry, fun hstab heq => ?_⟩
        have hmem : entry ∈ s.held := by
          rw [hheld]
          exact List.mem_append_right _ List.mem_cons_self
        have hkept := hties hstab entry hmem (le_antisymm hentry (heq ▸ hle))
        exact Binary64.not_lt.mpr hkept hless
  refine ⟨better ++ result :: worse,
    hranking.insert (tenths_le_of_shown hshownFront hfront) fun other hother =>
      (hworse other hother).1,
    fun hstab => (hstable hstab).insert fun other hother => (hworse other hother).2 hstab, ?_⟩
  rw [htake, List.take_append, List.take_of_length_le (by omega), hroom', List.take_succ_cons,
    List.take_succ_cons]
  refine List.rel_append hshownFront (.cons (.new result) ?_)
  have hcut := List.forall₂_take (MAX_SCOREBOARD - front.length - 1) hshownBack
  rwa [List.take_take, Nat.min_eq_left (by omega)] at hcut

theorem Ranks.add (h : Ranks stable all s) (hties : stable → s.TieKept result) :
    Ranks stable (all ++ [result]) (s.add result) := by
  obtain ⟨hadded, hslots, hcount⟩ := add_spec h.count_le h.slots h.sorted result
  cases hadded with
  | rejects hfull hheld hsmaller =>
    refine ⟨hcount, hslots, ?_, ?_⟩
    · rw [hheld]
      exact h.sorted
    · rw [hheld]
      exact h.rejects hfull hsmaller
  | accepts front back hheld hheld' hroom hfront hback =>
    refine ⟨hcount, hslots, ?_, ?_⟩
    · rw [hheld']
      refine List.Pairwise.sublist (List.take_sublist _ _) ?_
      have hsorted := h.sorted
      rw [hheld] at hsorted
      obtain ⟨hsortedFront, hsortedBack, hacross⟩ := List.pairwise_append.mp hsorted
      refine List.pairwise_append.mpr ⟨hsortedFront, List.pairwise_cons.mpr
        ⟨fun entry hentry => Binary64.le_of_lt (hback entry hentry), hsortedBack⟩, ?_⟩
      intro entry hentry other hother
      rcases List.mem_cons.mp hother with rfl | hother
      · exact hfront entry hentry
      · exact hacross entry hentry other hother
    · rw [hheld']
      exact h.accepts hties hheld hroom hfront hback

theorem map_stored_eq {entries : List ScoreboardEntry} {shown : List ScoreboardResult}
    (h : List.Forall₂ Shows entries shown) :
    entries.map ScoreboardEntry.stored = shown.map fun result => result.newEntry.stored := by
  induction h with
  | nil => rfl
  | cons hfirst _ ih => rw [List.map_cons, List.map_cons, hfirst.stored_eq, ih]

theorem readable_of_shown {entries : List ScoreboardEntry} {shown : List ScoreboardResult}
    (h : List.Forall₂ Shows entries shown) (hentries : ∀ entry ∈ entries, entry.Readable) :
    ∀ result ∈ shown, result.newEntry.Readable := by
  induction h with
  | nil => simp
  | cons hfirst _ ih =>
    intro result hresult
    rcases List.mem_cons.mp hresult with rfl | hresult
    · exact hfirst.readable (hentries _ List.mem_cons_self)
    · exact ih (fun entry hentry => hentries entry (List.mem_cons_of_mem _ hentry)) result hresult

/-- **A restart restores the board**, with the difficulties as the slots keep them. -/
theorem Ranks.held_init (h : Ranks stable all s) (hreadable : ∀ entry ∈ s.held, entry.Readable) :
    (init s.slots).held = s.held.map ScoreboardEntry.stored := by
  obtain ⟨ranking, hranking, -, hshown⟩ := h.ranking
  have hcount : (ranking.take MAX_SCOREBOARD).length = s.count := by
    rw [← hshown.length_eq, length_held]
  rw [map_stored_eq hshown]
  refine load_spec (readable_of_shown hshown hreadable) (hcount.trans_le h.count_le)
    (fun m hm => ?_) (fun _ => ?_) _
  · have hentry := (List.forall₂_iff_get.mp hshown).2 m (by rw [length_held]; omega) hm
    simp only [List.get_eq_getElem, getElem_held] at hentry
    rw [Nat.zero_add, h.slots m, if_pos (by omega), hentry.nvsEntry_eq]
  · rw [Nat.zero_add, h.slots _, if_neg (by omega)]

theorem Ranks.restart (h : Ranks stable all s) (hreadable : ∀ entry ∈ s.held, entry.Readable) :
    Ranks stable all (init s.slots) := by
  have hheld := h.held_init hreadable
  have hcount : (init s.slots).count = s.count := by
    rw [← length_held, hheld, List.length_map, length_held]
  obtain ⟨ranking, hranking, hstable, hshown⟩ := h.ranking
  refine ⟨hcount.trans_le h.count_le, fun m => ?_, ?_, ranking, hranking, hstable, ?_⟩
  · rw [init_slots, hcount, h.slots m]
    split
    · next hm =>
      have hentry : (init s.slots).entries m = (s.entries m).stored := by
        rw [← getElem_held _ (by rw [length_held]; omega), List.getElem_of_eq hheld,
          List.getElem_map, getElem_held]
      rw [hentry, ScoreboardEntry.stored_nvsEntry]
    · rfl
  · rw [hheld, List.pairwise_map]
    exact h.sorted.imp fun hle => Binary64.reread_mono hle
  · rw [hheld, map_stored_eq hshown, List.forall₂_map_left_iff]
    exact List.forall₂_same.mpr fun other _ => Shows.stored other

/-! ## Runs -/

/-- A restart finds readable entries only, and does not fall within `scoreboard_add`. -/
def RestorableInput (s : Scoreboard) : Input → Prop
  | .add _ => True
  | .restart => ∀ entry ∈ s.held, entry.Readable
  | .cut _ _ => False

/-- The result does not go ahead of an entry that prints the same difficulty. -/
def TieKeptInput (s : Scoreboard) : Input → Prop
  | .add result => s.TieKept result
  | _ => True

theorem Ranks.initial (stable : Prop) : Ranks stable [] Scoreboard.initial := by
  refine ⟨Nat.zero_le _, fun _ => rfl, .nil, [], .nil, fun _ _ => rfl, ?_⟩
  exact .nil

theorem Ranks.run (h : Ranks stable all s) {inputs : List Input}
    (hrestorable : Guarded step RestorableInput s inputs)
    (hties : stable → Guarded step TieKeptInput s inputs) :
    Ranks stable (all ++ results inputs) (Library.run step s inputs) := by
  induction inputs generalizing all s with
  | nil => simpa [results] using h
  | cons input inputs ih =>
    obtain ⟨hinput, hrest⟩ := hrestorable
    cases input with
    | add result =>
      have hnext := ih (h.add fun hstab => (hties hstab).1) hrest fun hstab => (hties hstab).2
      rw [List.append_assoc] at hnext
      exact hnext
    | restart => exact ih (h.restart hinput) hrest fun hstab => (hties hstab).2
    | cut result turns => exact hinput.elim

/-- **The scoreboard survives restarts.** -/
theorem scoreboard_survives {inputs : List Input}
    (hrestorable : Guarded step RestorableInput initial inputs) :
    let s := Library.run step initial inputs
    s.held.Pairwise (fun a b => b.difficulty ≤ a.difficulty) ∧
    (∀ i, s.slots i = if i < s.count then (s.entries i).nvsEntry else []) ∧
    ((∀ entry ∈ s.held, entry.Readable) →
      (init s.slots).held = s.held.map ScoreboardEntry.stored) ∧
    ∃ ranking,
      IsRanking (fun result => tenths result.difficulty) (results inputs) ranking ∧
      List.Forall₂ Shows s.held (ranking.take MAX_SCOREBOARD) ∧
      (Guarded step TieKeptInput initial inputs →
        StableFor (fun result => tenths result.difficulty) (results inputs) ranking) := by
  have h := Ranks.run (Ranks.initial (Guarded step TieKeptInput initial inputs)) hrestorable id
  obtain ⟨ranking, hranking, hstable, hshown⟩ := h.ranking
  exact ⟨h.sorted, h.slots, h.held_init, ranking, hranking, hshown, hstable⟩

/-- A result of the difficulty `1.0`. -/
def unitResult (jobId extranonce2 : List U8) : ScoreboardResult :=
  ⟨Binary64.ofFraction ⟨false, 1, 0⟩, jobId, extranonce2, 0, 0, 0⟩

theorem scoreboard_survives_of_two :
    let s := Library.run step initial
      [.add (unitResult [49] [48, 48]), .restart, .add (unitResult [50] [48, 49])]
    s.held.Pairwise fun a b => b.difficulty ≤ a.difficulty := by
  have hreadable : (unitResult [49] [48, 48]).newEntry.Readable :=
    ⟨by decide, by decide, by decide, by decide, by decide +kernel⟩
  have hrestorable : Guarded step RestorableInput initial
      [.add (unitResult [49] [48, 48]), .restart, .add (unitResult [50] [48, 49])] := by
    refine ⟨trivial, fun entry hentry => ?_, trivial, trivial⟩
    obtain rfl := List.mem_singleton.mp hentry
    exact hreadable
  exact (scoreboard_survives hrestorable).1

/-- A result without an extranonce, as a standard channel gives it, is lost by a restart. -/
theorem standard_result_lost :
    (Library.run step initial [.add (unitResult [49] [])]).held.length = 1 ∧
      (Library.run step initial [.add (unitResult [49] []), .restart]).held = [] := by
  decide +kernel

end Scoreboard

end EspMiner
