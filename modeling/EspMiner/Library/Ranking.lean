import Mathlib.Data.List.Perm.Basic
import Mathlib.Order.Lattice

/-!
# Rankings

A ranking orders everything that was ever added by a key, the best first.  It is
stable if elements with the same key stand in the order in which they were added.
-/

namespace EspMiner.Library

variable {α κ : Type*} [LinearOrder κ] {key : α → κ} {all ranking front back : List α} {a : α}

/-- `ranking` orders the elements of `all` by their keys, the greatest first. -/
structure IsRanking (key : α → κ) (all ranking : List α) : Prop where
  perm : ranking.Perm all
  sorted : ranking.Pairwise fun a b => key b ≤ key a

/-- Elements with the same key are in the order of `all`. -/
def StableFor (key : α → κ) (all ranking : List α) : Prop :=
  ∀ k, ranking.filter (fun a => key a = k) = all.filter fun a => key a = k

theorem IsRanking.nil : IsRanking key [] [] := ⟨.refl _, .nil⟩

/-- A new element goes anywhere between the greater ones and the smaller ones. -/
theorem IsRanking.insert (h : IsRanking key all (front ++ back))
    (hfront : ∀ b ∈ front, key a ≤ key b) (hback : ∀ b ∈ back, key b ≤ key a) :
    IsRanking key (all ++ [a]) (front ++ a :: back) := by
  constructor
  · calc (front ++ a :: back).Perm (a :: (front ++ back)) := List.perm_middle
      _ |>.Perm (a :: all) := h.perm.cons a
      _ |>.Perm (all ++ [a]) := (List.perm_append_singleton a all).symm
  · obtain ⟨hsorted, hsorted', hacross⟩ := List.pairwise_append.mp h.sorted
    refine List.pairwise_append.mpr ⟨hsorted, List.pairwise_cons.mpr ⟨hback, hsorted'⟩, ?_⟩
    intro b hb c hc
    rcases List.mem_cons.mp hc with rfl | hc
    · exact hfront b hb
    · exact hacross b hb c hc

/-- Behind all elements with its key the new element keeps the ranking stable. -/
theorem StableFor.insert (h : StableFor key all (front ++ back))
    (hback : ∀ b ∈ back, key b ≠ key a) : StableFor key (all ++ [a]) (front ++ a :: back) := by
  intro k
  have hbefore := h k
  rw [List.filter_append] at hbefore
  rw [List.filter_append, List.filter_append, ← hbefore]
  by_cases hk : key a = k
  · subst hk
    have hempty : back.filter (fun b => key b = key a) = [] := by
      simpa [List.filter_eq_nil_iff] using hback
    rw [List.filter_cons_of_pos (by simp), List.filter_cons_of_pos (by simp), hempty]
    simp
  · rw [List.filter_cons_of_neg (by simpa using hk), List.filter_cons_of_neg (by simpa using hk)]
    simp

/-- A sorted list falls into the elements that are not smaller and the smaller ones. -/
theorem exists_split_of_sorted (key : α → κ) (a : α) {list : List α}
    (h : list.Pairwise fun a b => key b ≤ key a) :
    ∃ front back, list = front ++ back ∧ (∀ b ∈ front, key a ≤ key b) ∧
      ∀ b ∈ back, key b < key a := by
  induction list with
  | nil => exact ⟨[], [], rfl, by simp, by simp⟩
  | cons first list ih =>
    obtain ⟨hfirst, hrest⟩ := List.pairwise_cons.mp h
    rcases lt_or_ge (key first) (key a) with hlt | hge
    · refine ⟨[], first :: list, rfl, by simp, fun b hb => ?_⟩
      rcases List.mem_cons.mp hb with rfl | hb
      · exact hlt
      · exact lt_of_le_of_lt (hfirst b hb) hlt
    · obtain ⟨front, back, rfl, hfront, hback⟩ := ih hrest
      refine ⟨first :: front, back, rfl, fun b hb => ?_, hback⟩
      rcases List.mem_cons.mp hb with rfl | hb
      · exact hge
      · exact hfront b hb

end EspMiner.Library
