import EspMiner.Library.CheckedAccess
import EspMiner.Library.Fields

/-!
# Strings in arrays

The string functions of C over arrays of a fixed length, each checked against the bounds of
the array that it touches.  A string ends at the first zero byte.
-/

namespace EspMiner.Library

/-- A string: bytes without a zero. -/
abbrev Text : Type := { bytes : List (BitVec 8) // 0#8 ∉ bytes }

variable {n : Nat}

/-- One cell is written. -/
def writeCell (cells : Vector (BitVec 8) n) (pos : Nat) (byte : BitVec 8) :
    Except Stop (Vector (BitVec 8) n) :=
  if h : pos < n then .ok (cells.set pos byte h) else .error (.outside pos)

/-- The cells from the first on are written. -/
def writeFront (cells : Vector (BitVec 8) n) (bytes : List (BitVec 8)) :
    Except Stop (Vector (BitVec 8) n) :=
  if h : bytes.length ≤ n then
    .ok ⟨(bytes ++ cells.toList.drop bytes.length).toArray, by
      rw [List.size_toArray, List.length_append, List.length_drop, Vector.length_toList]
      omega⟩
  else .error (.outside n)

/-- The string at a place, read up to its end -/
def readString (cells : Vector (BitVec 8) n) (pos : Nat) : Except Stop (List (BitVec 8)) :=
  let text := (cells.toList.drop pos).takeWhile (· != 0#8)
  if pos + text.length < n then .ok text else .error (.outside n)

/-- What `snprintf` writes of a text: what fits in front of the terminator -/
def printed (n : Nat) (text : List (BitVec 8)) : List (BitVec 8) := text.take (n - 1) ++ [0#8]

/-- The array that `snprintf` filled, and the length that it returns -/
structure Printed (n : Nat) where
  cells : Vector (BitVec 8) n
  len : Nat

/-- `snprintf` over the whole array; the length is that of the text, cut or not. -/
def snprintf (cells : Vector (BitVec 8) n) (text : List (BitVec 8)) : Except Stop (Printed n) := do
  let cells ← writeFront cells (printed n text)
  return ⟨cells, text.length⟩

/-- What `strncpy` writes of a string -/
def padded (text : List (BitVec 8)) (count : Nat) : List (BitVec 8) :=
  text.take count ++ List.replicate (count - text.length) 0#8

/-- `strncpy` -/
def strncpy (cells : Vector (BitVec 8) n) (text : List (BitVec 8)) (count : Nat) :
    Except Stop (Vector (BitVec 8) n) :=
  writeFront cells (padded text count)

/-- `strcpy` -/
def strcpy (cells : Vector (BitVec 8) n) (text : List (BitVec 8)) :
    Except Stop (Vector (BitVec 8) n) :=
  writeFront cells (text ++ [0#8])

/-- What `strtok_r` finds: the field, the array with its end marked, and where the next call
goes on -/
structure Token (n : Nat) where
  field : List (BitVec 8)
  cells : Vector (BitVec 8) n
  next : Nat

/-- `strtok_r` with one delimiter from a place on -/
def strtokAt (delim : BitVec 8) (cells : Vector (BitVec 8) n) (pos : Nat) :
    Except Stop (Option (Token n)) := do
  let text ← readString cells pos
  let skipped := (text.takeWhile (· == delim)).length
  let field := (text.drop skipped).takeWhile (· != delim)
  if field = [] then return none
  else
    let last := pos + skipped + field.length
    if skipped + field.length = text.length then return some ⟨field, cells, last⟩
    else
      let cells ← writeCell cells last 0#8
      return some ⟨field, cells, last + 1⟩

/-! ## Within the bounds -/

/-- The string `text` stands at `pos`. -/
def HoldsText (cells : Vector (BitVec 8) n) (pos : Nat) (text : List (BitVec 8)) : Prop :=
  0#8 ∉ text ∧ FieldAt cells.toList pos (text ++ [0#8])

section Bounds

variable {cells : Vector (BitVec 8) n} {pos count : Nat} {text bytes : List (BitVec 8)}

theorem takeWhile_terminated {rest : List (BitVec 8)} (h : 0#8 ∉ text) :
    (text ++ 0#8 :: rest).takeWhile (· != 0#8) = text := by
  induction text with
  | nil => rfl
  | cons byte text ih =>
    obtain ⟨hbyte, htext⟩ := not_or.mp (mt List.mem_cons.mpr h)
    rw [List.cons_append, List.takeWhile_cons_of_pos (by simpa using Ne.symm hbyte), ih htext]

theorem HoldsText.length_lt (h : HoldsText cells pos text) : pos + text.length < n := by
  obtain ⟨-, rest, hrest⟩ := h
  have hlength := congrArg List.length hrest
  rw [List.length_drop, Vector.length_toList, List.length_append, List.length_append,
    List.length_singleton] at hlength
  omega

theorem HoldsText.readString (h : HoldsText cells pos text) :
    readString cells pos = .ok text := by
  have hlength := h.length_lt
  obtain ⟨htext, rest, hrest⟩ := h
  have hdrop : cells.toList.drop pos = text ++ 0#8 :: rest := by
    rw [hrest, List.append_assoc]
    rfl
  rw [Library.readString, hdrop, takeWhile_terminated htext]
  exact if_pos hlength

/-- A string is read up to the first zero, where there is one. -/
theorem readString_of_eq {rest : List (BitVec 8)} (h : cells.toList = bytes ++ 0#8 :: rest) :
    readString cells 0 = .ok (bytes.takeWhile (· != 0#8)) := by
  have hlength := congrArg List.length h
  rw [Vector.length_toList, List.length_append, List.length_cons] at hlength
  have htake : (bytes ++ 0#8 :: rest).takeWhile (· != 0#8) = bytes.takeWhile (· != 0#8) := by
    clear h hlength
    induction bytes with
    | nil => rfl
    | cons byte bytes ih =>
      rw [List.cons_append, List.takeWhile_cons, List.takeWhile_cons, ih]
  have hle := (List.takeWhile_prefix (· != 0#8) (l := bytes)).length_le
  rw [readString, List.drop_zero, h, htake]
  exact if_pos (by omega)

theorem exists_writeFront (cells : Vector (BitVec 8) n) (h : bytes.length ≤ n) :
    ∃ cells', writeFront cells bytes = .ok cells' ∧ cells'.toList = bytes ++
      cells.toList.drop bytes.length := by
  rw [writeFront, dif_pos h]
  exact ⟨_, rfl, rfl⟩

theorem exists_writeCell (cells : Vector (BitVec 8) n) {byte : BitVec 8} (h : pos < n) :
    ∃ cells', writeCell cells pos byte = .ok cells' ∧
      cells'.toList = cells.toList.set pos byte := by
  rw [writeCell, dif_pos h]
  exact ⟨_, rfl, Vector.toList_set ..⟩

/-- A string that is written with its terminator at the front stands there. -/
theorem holdsText_front {cells' : Vector (BitVec 8) n} {rest : List (BitVec 8)} (h : 0#8 ∉ text)
    (hcells : cells'.toList = text ++ [0#8] ++ rest) : HoldsText cells' 0 text :=
  ⟨h, rest, hcells⟩

theorem not_mem_take (h : 0#8 ∉ text) (count : Nat) : 0#8 ∉ text.take count :=
  fun hmem => h (List.mem_of_mem_take hmem)

theorem length_printed_le (hn : 0 < n) (text : List (BitVec 8)) : (printed n text).length ≤ n := by
  rw [printed, List.length_append, List.length_take, List.length_singleton]
  omega

theorem exists_snprintf (cells : Vector (BitVec 8) n) (hn : 0 < n) (h : 0#8 ∉ text) :
    ∃ cells', snprintf cells text = .ok ⟨cells', text.length⟩ ∧
      cells'.toList = printed n text ++ cells.toList.drop (printed n text).length ∧
      HoldsText cells' 0 (text.take (n - 1)) := by
  obtain ⟨cells', hwrite, hcells⟩ := exists_writeFront cells (length_printed_le hn text)
  exact ⟨cells', by rw [snprintf, hwrite]; rfl, hcells,
    holdsText_front (not_mem_take h _) hcells⟩

theorem length_padded (text : List (BitVec 8)) (count : Nat) :
    (padded text count).length = count := by
  rw [padded, List.length_append, List.length_take, List.length_replicate]
  omega

/-- A string of which at most `count` bytes are copied, and a terminator behind them -/
theorem exists_strncpy (cells : Vector (BitVec 8) n) (hcount : count < n) (h : 0#8 ∉ text) :
    ∃ cells' cells'', strncpy cells text count = .ok cells' ∧
      writeCell cells' count 0#8 = .ok cells'' ∧
      cells''.toList = padded text count ++ 0#8 :: cells.toList.drop (count + 1) ∧
      HoldsText cells'' 0 (text.take count) := by
  have hlength := length_padded text count
  obtain ⟨cells', hcopy, hcells'⟩ := @exists_writeFront n (padded text count) cells
    (by rw [hlength]; exact hcount.le)
  obtain ⟨cells'', hwrite, hcells''⟩ := @exists_writeCell n count cells' 0#8 hcount
  have hset : cells''.toList = padded text count ++ 0#8 :: cells.toList.drop (count + 1) := by
    have hroom : 0 < (cells.toList.drop count).length := by
      rw [List.length_drop, Vector.length_toList]
      omega
    obtain ⟨first, rest, hrest⟩ := List.exists_cons_of_length_pos hroom
    have htail : cells.toList.drop (count + 1) = rest := by
      rw [← List.drop_drop, hrest]
      rfl
    rw [hcells'', hcells', hlength, hrest, htail, List.set_append_right _ _ hlength.le, hlength,
      Nat.sub_self]
    rfl
  refine ⟨cells', cells'', hcopy, hwrite, hset, not_mem_take h _, ?_⟩
  by_cases hshort : text.length < count
  · refine ⟨List.replicate (count - text.length - 1) 0#8 ++
      0#8 :: cells.toList.drop (count + 1), ?_⟩
    have hpad : List.replicate (count - text.length) 0#8 =
        0#8 :: List.replicate (count - text.length - 1) 0#8 := by
      rw [← List.replicate_succ]
      congr 1
      omega
    rw [List.drop_zero, hset, padded, hpad]
    simp
  · refine ⟨cells.toList.drop (count + 1), ?_⟩
    rw [List.drop_zero, hset, padded, Nat.sub_eq_zero_of_le (Nat.not_lt.mp hshort)]
    simp

theorem exists_strcpy (cells : Vector (BitVec 8) n) (hlength : text.length < n) (h : 0#8 ∉ text) :
    ∃ cells', strcpy cells text = .ok cells' ∧ HoldsText cells' 0 text := by
  obtain ⟨cells', hwrite, hcells⟩ := @exists_writeFront n (text ++ [0#8]) cells
    (by rw [List.length_append, List.length_singleton]; omega)
  exact ⟨cells', hwrite, holdsText_front h hcells⟩

/-! ## Tokens -/

theorem drop_length_takeWhile {α : Type} (p : α → Bool) (xs : List α) :
    xs.drop (xs.takeWhile p).length = xs.dropWhile p := by
  have hsplit := congrArg (List.drop (xs.takeWhile p).length)
    (xs.takeWhile_append_dropWhile (p := p))
  rw [List.drop_left] at hsplit
  exact hsplit.symm

theorem takeWhile_dropWhile_eq_nil {delim : BitVec 8} :
    ((text.dropWhile (· == delim)).takeWhile (· != delim) = []) ↔
      text.dropWhile (· == delim) = [] := by
  constructor
  · intro h
    cases hdrop : text.dropWhile (· == delim) with
    | nil => rfl
    | cons first rest =>
      have hfirst := List.head_dropWhile_not (p := (· == delim)) (l := text) (by rw [hdrop]; simp)
      simp only [hdrop, List.head_cons, beq_eq_false_iff_ne] at hfirst
      rw [hdrop, List.takeWhile_cons_of_pos (by simpa using hfirst)] at h
      cases h
  · intro h
    rw [h]
    rfl

/-- `strtok_r` over the array is `strtok_r` over the string, and keeps within it. -/
theorem HoldsText.strtokAt {delim : BitVec 8} (h : HoldsText cells pos text) :
    match strtokR delim text with
    | none => Library.strtokAt delim cells pos = .ok none
    | some (field, left) => ∃ cells' next,
        Library.strtokAt delim cells pos = .ok (some ⟨field, cells', next⟩) ∧
          HoldsText cells' next left := by
  have hread := h.readString
  have hlength := h.length_lt
  obtain ⟨htext, rest, hrest⟩ := h
  have hparts : text = text.takeWhile (· == delim) ++
      ((text.dropWhile (· == delim)).takeWhile (· != delim) ++
        (text.dropWhile (· == delim)).dropWhile (· != delim)) := by
    rw [List.takeWhile_append_dropWhile, List.takeWhile_append_dropWhile]
  cases hdrop : text.dropWhile (· == delim) with
  | nil =>
    have htok : strtokR delim text = none := by
      rw [strtokR, hdrop]
    rw [htok]
    dsimp only
    rw [Library.strtokAt, hread]
    dsimp only [Bind.bind, Except.bind]
    rw [drop_length_takeWhile, if_pos (takeWhile_dropWhile_eq_nil.mpr hdrop)]
    rfl
  | cons first more =>
    have htok : strtokR delim text = some ((text.dropWhile (· == delim)).takeWhile (· != delim),
        ((text.dropWhile (· == delim)).dropWhile (· != delim)).drop 1) := by
      rw [strtokR, hdrop]
    have hfield : (text.dropWhile (· == delim)).takeWhile (· != delim) ≠ [] := by
      rw [Ne, takeWhile_dropWhile_eq_nil, hdrop]
      simp
    rw [htok]
    dsimp only
    rw [Library.strtokAt, hread]
    dsimp only [Bind.bind, Except.bind]
    rw [drop_length_takeWhile, if_neg hfield]
    obtain ⟨skipped, hskipped⟩ : ∃ xs, xs = text.takeWhile (· == delim) := ⟨_, rfl⟩
    obtain ⟨field, hfieldEq⟩ : ∃ xs, xs = (text.dropWhile (· == delim)).takeWhile (· != delim) :=
      ⟨_, rfl⟩
    obtain ⟨tail, htail⟩ : ∃ xs, xs = (text.dropWhile (· == delim)).dropWhile (· != delim) :=
      ⟨_, rfl⟩
    rw [← hskipped, ← hfieldEq, ← htail] at hparts ⊢
    have hsum := congrArg List.length hparts
    rw [List.length_append, List.length_append] at hsum
    have hcells : cells.toList.drop (pos + skipped.length + field.length) =
        tail ++ [0#8] ++ rest := by
      rw [← List.drop_drop, ← List.drop_drop, hrest, hparts]
      simp
    cases tail with
    | nil =>
      rw [List.length_nil] at hsum
      rw [if_pos (by omega)]
      exact ⟨cells, _, rfl, by simp, rest, hcells⟩
    | cons byte left =>
      rw [List.length_cons] at hsum
      rw [if_neg (by omega)]
      obtain ⟨cells', hwrite, hcells'⟩ := @exists_writeCell n
        (pos + skipped.length + field.length) cells 0#8 (by omega)
      rw [hwrite]
      refine ⟨cells', _, rfl, ?_, rest, ?_⟩
      · intro hmem
        refine htext ?_
        rw [hparts]
        simp only [List.drop_succ_cons, List.drop_zero] at hmem
        simp [hmem]
      · rw [hcells', List.drop_set_of_lt (Nat.lt_succ_self _), Nat.succ_eq_add_one,
          ← List.drop_drop, hcells]
        rfl

end Bounds

end EspMiner.Library
