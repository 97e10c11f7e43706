import Mathlib.Data.List.GetD

/-!
# Computations that may fail, and arrays that are accessed within their bounds

`Ends` is the weakest precondition of an `Except` computation: what its value
meets, and which errors it may give.  One such computation reads an array or fills one from its
start, and stops where it would touch a place outside.  `InBounds` says that this never happens.
-/

namespace EspMiner.Library

section Outcome

variable {ε α β : Type}

/-- The computation ends with a value as `Q` says, or with an error that meets `E`. -/
def Ends (x : Except ε α) (Q : α → Prop) (E : ε → Prop) : Prop :=
  match x with
  | .ok a => Q a
  | .error e => E e

variable {Q Q' : α → Prop} {E E' : ε → Prop}

theorem Ends.mono {x : Except ε α} (h : Ends x Q E) (hQ : ∀ a, Q a → Q' a) : Ends x Q' E := by
  cases x with
  | ok a => exact hQ a h
  | error e => exact h

theorem Ends.weaken {x : Except ε α} (h : Ends x Q E) (hE : ∀ e, E e → E' e) : Ends x Q E' := by
  cases x with
  | ok a => exact h
  | error e => exact hE e h

@[simp] theorem ends_ok (a : α) : Ends (.ok a : Except ε α) Q E ↔ Q a := Iff.rfl

@[simp] theorem ends_pure (a : α) : Ends (pure a : Except ε α) Q E ↔ Q a := Iff.rfl

@[simp] theorem ends_error (e : ε) : Ends (.error e : Except ε α) Q E ↔ E e := Iff.rfl

@[simp] theorem ends_throw (e : ε) : Ends (throw e : Except ε α) Q E ↔ E e := Iff.rfl

@[simp] theorem ends_bind {x : Except ε β} {f : β → Except ε α} :
    Ends (x >>= f) Q E ↔ Ends x (fun b => Ends (f b) Q E) E := by
  cases x <;> rfl

/-- A branch is judged where it is taken. -/
theorem ends_ite {c : Prop} [Decidable c] {x y : Except ε α} :
    Ends (if c then x else y) Q E ↔ (c → Ends x Q E) ∧ (¬ c → Ends y Q E) := by
  by_cases hc : c <;> simp [hc]

/-- A computation that gives no error has a value. -/
theorem Ends.exists_ok {x : Except ε α} (h : Ends x Q fun _ => False) : ∃ a, x = .ok a ∧ Q a := by
  cases x with
  | ok a => exact ⟨a, rfl, h⟩
  | error e => exact h.elim

end Outcome

/-- How a call ends without a value: it refuses its input, or it touches a place outside
an array. -/
inductive Stop where
  | refused
  | outside (pos : Nat)
deriving DecidableEq, Repr

variable {α β : Type}

/-! ## Reading -/

def readElem (xs : List α) (pos : Nat) : Except Stop α :=
  match xs[pos]? with
  | some x => .ok x
  | none => .error (.outside pos)

def readSpan (xs : List α) (pos count : Nat) : Except Stop (List α) :=
  if pos + count ≤ xs.length then .ok ((xs.drop pos).take count)
  else .error (.outside xs.length)

theorem readElem_of_lt {xs : List α} {pos : Nat} (h : pos < xs.length) (default : α) :
    readElem xs pos = .ok (xs.getD pos default) := by
  rw [readElem, List.getElem?_eq_getElem h, List.getD_eq_getElem _ _ h]

theorem readSpan_of_le {xs : List α} {pos count : Nat} (h : pos + count ≤ xs.length) :
    readSpan xs pos count = .ok ((xs.drop pos).take count) :=
  if_pos h

/-- The call ends without touching a place outside an array. -/
def InBounds (x : Except Stop α) : Prop := Ends x (fun _ => True) (· = .refused)

/-! ## A field at a place -/

/-- `field` stands at `pos`. -/
def FieldAt (xs : List α) (pos : Nat) (field : List α) : Prop :=
  ∃ rest, xs.drop pos = field ++ rest

section FieldAt

variable {xs : List α} {pos : Nat} {field more : List α}

theorem fieldAt_zero (xs : List α) : FieldAt xs 0 xs := ⟨[], by simp⟩

theorem fieldAt_append :
    FieldAt xs pos (field ++ more) ↔
      FieldAt xs pos field ∧ FieldAt xs (pos + field.length) more := by
  constructor
  · rintro ⟨rest, hrest⟩
    refine ⟨⟨more ++ rest, by rw [hrest, List.append_assoc]⟩, ⟨rest, ?_⟩⟩
    rw [← List.drop_drop, hrest, List.append_assoc, List.drop_left]
  · rintro ⟨⟨rest, hfield⟩, ⟨last, hmore⟩⟩
    refine ⟨last, ?_⟩
    rw [← List.drop_drop, hfield, List.drop_left] at hmore
    rw [hfield, hmore, List.append_assoc]

theorem FieldAt.getElem? {x : α} (h : FieldAt xs pos [x]) : xs[pos]? = some x := by
  obtain ⟨rest, hrest⟩ := h
  rw [← Nat.add_zero pos, ← List.getElem?_drop, hrest]
  rfl

theorem FieldAt.readElem {x : α} (h : FieldAt xs pos [x]) : readElem xs pos = .ok x := by
  rw [Library.readElem, h.getElem?]

theorem FieldAt.getD {x : α} (h : FieldAt xs pos [x]) (default : α) : xs.getD pos default = x := by
  rw [List.getD_eq_getElem?_getD, h.getElem?]
  rfl

theorem FieldAt.take_drop (h : FieldAt xs pos field) : (xs.drop pos).take field.length = field := by
  obtain ⟨rest, hrest⟩ := h
  rw [hrest, List.take_left]

/-- Reads within a field are reads of the field. -/
theorem FieldAt.readElem_getElem (h : FieldAt xs pos field) {i : Nat} (hi : i < field.length) :
    Library.readElem xs (pos + i) = .ok field[i] := by
  obtain ⟨rest, hrest⟩ := h
  rw [Library.readElem, ← List.getElem?_drop, hrest, List.getElem?_append_left hi,
    List.getElem?_eq_getElem hi]

theorem FieldAt.readSpan_part (h : FieldAt xs pos field)
    (hfits : pos + field.length ≤ xs.length) {i count : Nat} (hcount : i + count ≤ field.length) :
    readSpan xs (pos + i) count = .ok ((field.drop i).take count) := by
  obtain ⟨rest, hrest⟩ := h
  have hlength : count ≤ (field.drop i).length := by
    rw [List.length_drop]
    omega
  rw [readSpan_of_le (by omega), ← List.drop_drop, hrest,
    List.drop_append_of_le_length (by omega), List.take_append_of_le_length hlength]

/-- What a part of the array still shows of a field. -/
theorem FieldAt.of_isPrefix {part : List α} (h : FieldAt xs pos field) (hpart : part <+: xs)
    (hlength : pos + field.length ≤ part.length) : FieldAt part pos field := by
  obtain ⟨tail, rfl⟩ := hpart
  obtain ⟨rest, hrest⟩ := h
  rw [List.drop_append_of_le_length (by omega)] at hrest
  have htake := congrArg (List.take (part.drop pos).length) hrest
  rw [List.take_left, List.take_append, List.take_of_length_le (by
    rw [List.length_drop]
    omega)] at htake
  exact ⟨_, htake⟩

end FieldAt

/-! ## Filling -/

/-- An array that is filled from its start: what was written and what still stands as it
was. -/
structure Filling (α : Type) where
  written : List α
  untouched : List α

namespace Filling

def intoArray (xs : List α) : Filling α := ⟨[], xs⟩

def contents (f : Filling α) : List α := f.written ++ f.untouched

def extend (f : Filling α) (xs : List α) : Filling α :=
  ⟨f.written ++ xs, f.untouched.drop xs.length⟩

/-- Write `xs` behind what was written. -/
def put (f : Filling α) (xs : List α) : Except Stop (Filling α) :=
  if xs.length ≤ f.untouched.length then .ok (f.extend xs)
  else .error (.outside (f.written.length + f.untouched.length))

@[simp] theorem intoArray_written (xs : List α) : (intoArray xs).written = [] := rfl

@[simp] theorem intoArray_untouched (xs : List α) : (intoArray xs).untouched = xs := rfl

@[simp] theorem extend_written (f : Filling α) (xs : List α) :
    (f.extend xs).written = f.written ++ xs := rfl

@[simp] theorem length_extend_untouched (f : Filling α) (xs : List α) :
    (f.extend xs).untouched.length = f.untouched.length - xs.length :=
  List.length_drop

theorem extend_extend (f : Filling α) (xs ys : List α) :
    (f.extend xs).extend ys = f.extend (xs ++ ys) := by
  simp [extend, List.drop_drop]

theorem contents_extend_intoArray (xs ys : List α) :
    ((intoArray xs).extend ys).contents = ys ++ xs.drop ys.length := rfl

/-- `x` writes `xs` and goes on with `last` where they fit, and refuses where they do not. -/
def Grows (f : Filling α) (x : Except Stop β) (xs : List α) (last : Filling α → Except Stop β) :
    Prop :=
  x = if xs.length ≤ f.untouched.length then last (f.extend xs) else .error .refused

section Grows

variable {f : Filling α} {xs ys : List α} {last : Filling α → Except Stop β}

theorem grows_last (f : Filling α) (last : Filling α → Except Stop β) :
    f.Grows (last f) [] last := by
  simp [Grows, extend]

theorem grows_put (h : xs.length ≤ f.untouched.length) : f.Grows (f.put xs) xs .ok := by
  rw [Grows, put, if_pos h, if_pos h]

/-- What is written one after another fits together or is refused. -/
theorem Grows.bind {x : Except Stop (Filling α)} {k : Filling α → Except Stop β}
    (hx : f.Grows x xs .ok)
    (hk : xs.length ≤ f.untouched.length → (f.extend xs).Grows (k (f.extend xs)) ys last) :
    f.Grows (x >>= k) (xs ++ ys) last := by
  rw [Grows] at hx ⊢
  rw [hx, List.length_append]
  by_cases hfits : xs.length ≤ f.untouched.length
  · have hrest := hk hfits
    rw [Grows, length_extend_untouched, extend_extend] at hrest
    rw [if_pos hfits]
    exact hrest.trans (if_congr (by omega) rfl rfl)
  · rw [if_neg hfits, if_neg (by omega)]
    rfl

/-- Where everything fits, only the end is left to do. -/
theorem Grows.of_le {x : Except Stop β} (hx : f.Grows x xs last)
    (h : xs.length ≤ f.untouched.length) : x = last (f.extend xs) :=
  hx.trans (if_pos h)

end Grows

end Filling

end EspMiner.Library
