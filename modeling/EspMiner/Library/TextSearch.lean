import EspMiner.Library.Json
import Mathlib.Data.List.TakeWhile

/-!
# Texts in texts

Where one string first stands in another, and comparing strings without regard to case.
-/

namespace EspMiner.Library

/-- `strstr`: the text from the first place on where `mark` stands -/
def strstr (mark : List (BitVec 8)) : List (BitVec 8) → Option (List (BitVec 8))
  | [] => if mark = [] then some [] else none
  | byte :: rest =>
      if mark.isPrefixOf (byte :: rest) = true then some (byte :: rest) else strstr mark rest

/-- `rest` is what follows the first `mark` in the text. -/
def FollowsFirst (mark text rest : List (BitVec 8)) : Prop :=
  ∃ front, text = front ++ (mark ++ rest) ∧
    ∀ count < front.length, ¬ mark <+: text.drop count

/-- `strcasecmp` gives 0. -/
def strcasecmpEqual (text other : List (BitVec 8)) : Bool :=
  text.map lowerByte == other.map lowerByte

variable {mark text found rest : List (BitVec 8)}

theorem FollowsFirst.of_front (rest : List (BitVec 8)) : FollowsFirst mark (mark ++ rest) rest :=
  ⟨[], rfl, fun _ hcount => absurd hcount (Nat.not_lt_zero _)⟩

theorem strstr_eq_some_iff :
    strstr mark text = some found ↔ ∃ rest, found = mark ++ rest ∧ FollowsFirst mark text rest := by
  induction text with
  | nil =>
    rw [strstr]
    constructor
    · intro h
      split at h
      · next hmark =>
        obtain rfl := Option.some.inj h
        subst hmark
        exact ⟨[], rfl, .of_front []⟩
      · cases h
    · rintro ⟨rest, rfl, front, htext, -⟩
      obtain ⟨-, hnil⟩ := List.append_eq_nil_iff.mp htext.symm
      obtain ⟨rfl, rfl⟩ := List.append_eq_nil_iff.mp hnil
      rfl
  | cons byte text ih =>
    rw [strstr]
    by_cases hmark : mark <+: byte :: text
    · rw [if_pos (List.isPrefixOf_iff_prefix.mpr hmark)]
      constructor
      · intro h
        obtain rfl := Option.some.inj h
        obtain ⟨rest, hrest⟩ := hmark
        rw [← hrest]
        exact ⟨rest, rfl, .of_front rest⟩
      · rintro ⟨rest, rfl, front, htext, hfirst⟩
        cases front with
        | nil => rw [htext]; rfl
        | cons first front => exact absurd hmark (hfirst 0 (Nat.zero_lt_succ _))
    · rw [if_neg (mt List.isPrefixOf_iff_prefix.mp hmark), ih]
      constructor
      · rintro ⟨rest, rfl, front, rfl, hfirst⟩
        refine ⟨rest, rfl, byte :: front, rfl, ?_⟩
        intro count hcount
        cases count with
        | zero => exact hmark
        | succ count => exact hfirst count (Nat.lt_of_succ_lt_succ hcount)
      · rintro ⟨rest, rfl, front, htext, hfirst⟩
        cases front with
        | nil => exact absurd ⟨rest, htext.symm⟩ hmark
        | cons first front =>
          obtain ⟨rfl, rfl⟩ := List.cons.inj htext
          refine ⟨rest, rfl, front, rfl, ?_⟩
          intro count hcount
          exact hfirst (count + 1) (Nat.succ_lt_succ hcount)

/-- The first place is one place. -/
theorem FollowsFirst.unique {other : List (BitVec 8)} (h : FollowsFirst mark text rest)
    (hother : FollowsFirst mark text other) : rest = other := by
  have hfound := strstr_eq_some_iff.mpr ⟨rest, rfl, h⟩
  rw [strstr_eq_some_iff.mpr ⟨other, rfl, hother⟩] at hfound
  exact (List.append_cancel_left (Option.some.inj hfound)).symm

theorem FollowsFirst.length_le (h : FollowsFirst mark text rest) :
    mark.length + rest.length ≤ text.length := by
  obtain ⟨front, rfl, -⟩ := h
  rw [List.length_append, List.length_append]
  omega

/-! ## Splitting at a byte -/

section Cut

variable {byte : BitVec 8} {front : List (BitVec 8)}

/-- Up to the first `byte`, or everything -/
def CutAt (byte : BitVec 8) (text front : List (BitVec 8)) : Prop :=
  byte ∉ front ∧ ∃ rest, text = front ++ rest ∧ (rest = [] ∨ ∃ more, rest = byte :: more)

theorem takeWhile_eq_iff : text.takeWhile (· != byte) = front ↔ CutAt byte text front := by
  constructor
  · rintro rfl
    refine ⟨?_, text.dropWhile (· != byte), List.takeWhile_append_dropWhile.symm, ?_⟩
    · intro hmem
      simpa using List.mem_takeWhile_imp hmem
    · cases hrest : text.dropWhile (· != byte) with
      | nil => exact .inl rfl
      | cons first more =>
        have hfirst := List.head_dropWhile_not (p := (· != byte)) (l := text) (by rw [hrest]; simp)
        simp only [hrest, List.head_cons, bne_eq_false_iff_eq] at hfirst
        exact .inr ⟨more, by rw [hfirst]⟩
  · rintro ⟨hfront, rest, rfl, hrest⟩
    rw [List.takeWhile_append_of_pos (by
      intro first hmem
      simpa using fun heq : first = byte => hfront (heq ▸ hmem))]
    rcases hrest with rfl | ⟨more, rfl⟩
    · simp
    · simp

theorem CutAt.length_le (h : CutAt byte text front) : front.length ≤ text.length := by
  obtain ⟨-, rest, rfl, -⟩ := h
  rw [List.length_append]
  omega

end Cut

end EspMiner.Library
