import Mathlib.Data.List.Basic
import Mathlib.Data.List.Induction
import Mathlib.Order.Lattice
import Mathlib.Tactic.Push

/-!
# Scans over two classes

A scan keeps one of the elements it has seen.  Within a class, and from the first class to
the second, it moves on to an element with a lower key; from the second class to the first
it moves on whatever the keys are, and so it can lose the lowest element of a class.
-/

namespace EspMiner.Library

variable {α κ : Type*} [LinearOrder κ] (first : α → Prop) [DecidablePred first] (key : α → κ)

/-- The scan moves on from `x` to `y`. -/
def MovesOn (x y : α) : Prop := first y ∧ ¬ first x ∨ key y < key x

instance (x y : α) : Decidable (MovesOn first key x y) := inferInstanceAs (Decidable (_ ∨ _))

/-- The element kept after one more -/
def keep (kept : Option α) (y : α) : Option α :=
  match kept with
  | none => some y
  | some x => if MovesOn first key x y then some y else some x

/-- The scan over a list -/
def scan (xs : List α) : Option α := xs.foldl (keep first key) none

/-- No element of its class has a lower key. -/
def IsLowest (xs : List α) (x : α) : Prop := ∀ y ∈ xs, (first y ↔ first x) → key x ≤ key y

/-- The last of the lowest elements of the first class: no element of the second class behind
it has a lower key, or a lowest element of the second class is behind all of the first. -/
def KeepsLowest (xs : List α) : Prop :=
  ∀ before x after, xs = before ++ x :: after → first x → IsLowest first key xs x →
    (∀ y ∈ after, first y → key x < key y) →
    (∀ y ∈ after, ¬ first y → key x ≤ key y) ∨
    ∃ mid z rest, after = mid ++ z :: rest ∧ ¬ first z ∧ IsLowest first key xs z ∧
      ∀ y ∈ rest, ¬ first y

section Scan

variable {first key} {xs ys : List α} {x y : α}

theorem keep_some (x y : α) :
    keep first key (some x) y = if MovesOn first key x y then some y else some x := rfl

/-- The scan stays with `x` where it has no reason to move on. -/
theorem foldl_keep_stays (h : ∀ y ∈ ys, ¬ MovesOn first key x y) :
    ys.foldl (keep first key) (some x) = some x := by
  induction ys with
  | nil => rfl
  | cons y ys ih =>
    rw [List.foldl_cons, keep_some, if_neg (h y List.mem_cons_self)]
    exact ih fun z hz => h z (List.mem_cons_of_mem _ hz)

/-- What holds of the kept element, and of every element the scan moves on to. -/
theorem foldl_keep_invariant (P : α → Prop) (hx : P x)
    (hstep : ∀ x y, P x → y ∈ ys → MovesOn first key x y → P y) :
    ∃ r, ys.foldl (keep first key) (some x) = some r ∧ P r := by
  induction ys generalizing x with
  | nil => exact ⟨x, rfl, hx⟩
  | cons y ys ih =>
    rw [List.foldl_cons, keep_some]
    have htail : ∀ x z, P x → z ∈ ys → MovesOn first key x z → P z :=
      fun x z hpx hz => hstep x z hpx (List.mem_cons_of_mem _ hz)
    split
    case isTrue hmoves => exact ih (hstep x y hx List.mem_cons_self hmoves) htail
    case isFalse => exact ih hx htail

theorem scan_append (xs ys : List α) :
    scan first key (xs ++ ys) = ys.foldl (keep first key) (scan first key xs) :=
  List.foldl_append

/-- The scan keeps an element of the list. -/
theorem scan_mem (hne : xs ≠ []) : ∃ r ∈ xs, scan first key xs = some r := by
  cases xs with
  | nil => exact absurd rfl hne
  | cons x xs =>
    obtain ⟨r, hr, hmem⟩ := @foldl_keep_invariant α κ _ first _ key xs x (· ∈ x :: xs)
      List.mem_cons_self fun _ y _ hy _ => List.mem_cons_of_mem _ hy
    exact ⟨r, hmem, hr⟩

/-- A lowest element of the first class is kept when it is seen. -/
theorem key_scan_lowest {before : List α} (hfirst : first x)
    (hlow : ∀ y ∈ before, first y → key x ≤ key y) :
    ∃ r, scan first key (before ++ [x]) = some r ∧ first r ∧ key r = key x := by
  rw [scan_append]
  rcases Decidable.em (before = []) with rfl | hne
  · exact ⟨x, rfl, hfirst, rfl⟩
  · obtain ⟨r, hmem, hr⟩ := @scan_mem α κ _ first _ key before hne
    rw [hr, List.foldl_cons, List.foldl_nil, keep_some]
    split
    case isTrue => exact ⟨x, rfl, hfirst, rfl⟩
    case isFalse hstays =>
      have hr' : first r := by
        by_contra hnot
        exact hstays (.inl ⟨hfirst, hnot⟩)
      exact ⟨r, rfl, hr', le_antisymm (not_lt.mp fun h => hstays (.inr h)) (hlow r hmem hr')⟩

theorem exists_last_lowest (h : ∃ x ∈ xs, first x) :
    ∃ before x after, xs = before ++ x :: after ∧ first x ∧ IsLowest first key xs x ∧
      ∀ y ∈ after, first y → key x < key y := by
  induction xs with
  | nil =>
    obtain ⟨x, hx, -⟩ := h
    exact absurd hx List.not_mem_nil
  | cons c xs ih =>
    by_cases hrest : ∃ x ∈ xs, first x
    · obtain ⟨before, x, after, heq, hx, hlow, hlast⟩ := ih hrest
      by_cases hc : first c ∧ key c < key x
      · refine ⟨[], c, xs, rfl, hc.1, ?_, ?_⟩
        · intro y hy hclass
          rcases List.mem_cons.mp hy with rfl | hy
          · exact le_rfl
          · have hfirst := hclass.mpr hc.1
            exact hc.2.le.trans (hlow y hy ⟨fun _ => hx, fun _ => hfirst⟩)
        · intro y hy hfirst
          exact hc.2.trans_le (hlow y hy ⟨fun _ => hx, fun _ => hfirst⟩)
      · refine ⟨c :: before, x, after, by rw [heq]; rfl, hx, ?_, hlast⟩
        intro y hy hclass
        rcases List.mem_cons.mp hy with rfl | hy
        · exact not_lt.mp fun hlt => hc ⟨hclass.mpr hx, hlt⟩
        · exact hlow y hy hclass
    · obtain ⟨x, hx, hfirst⟩ := h
      have hnone : ∀ y ∈ xs, ¬ first y := fun y hy hy' => hrest ⟨y, hy, hy'⟩
      rcases List.mem_cons.mp hx with rfl | hx
      · refine ⟨[], x, xs, rfl, hfirst, ?_, fun y hy hy' => absurd hy' (hnone y hy)⟩
        intro y hy hclass
        rcases List.mem_cons.mp hy with rfl | hy
        · exact le_rfl
        · exact absurd (hclass.mpr hfirst) (hnone y hy)
      · exact absurd hfirst (hnone x hx)

/-- The scan ends at a lowest element of its class where the list keeps it. -/
theorem isLowest_of_keepsLowest (hfirst : ∃ x ∈ xs, first x) (h : KeepsLowest first key xs) :
    ∃ r, scan first key xs = some r ∧ IsLowest first key xs r := by
  obtain ⟨before, x, after, heq, hx, hlow, hlast⟩ := @exists_last_lowest α κ _ first _ key xs hfirst
  have hbefore : ∀ y ∈ before, first y → key x ≤ key y := by
    intro y hy hy'
    exact hlow y (by rw [heq]; simp [hy]) ⟨fun _ => hx, fun _ => hy'⟩
  obtain ⟨r, hr, hrfirst, hrkey⟩ := key_scan_lowest hx hbefore
  have hscan : scan first key xs = after.foldl (keep first key) (some r) := by
    rw [heq, ← hr, ← scan_append]
    simp
  by_cases hnone : ∀ y ∈ after, ¬ first y → key x ≤ key y
  · refine ⟨r, ?_, ?_⟩
    · rw [hscan]
      refine foldl_keep_stays ?_
      rintro y hy (⟨-, hnot⟩ | hlt)
      · exact hnot hrfirst
      · by_cases hy' : first y
        · exact lt_asymm (hlast y hy hy') (hrkey ▸ hlt)
        · exact not_lt.mpr (hnone y hy hy') (hrkey ▸ hlt)
    · intro y hy hclass
      rw [hrkey]
      exact hlow y hy ⟨fun _ => hx, fun _ => hclass.mpr hrfirst⟩
  · rcases h before x after heq hx hlow hlast with hall | ⟨mid, z, rest, hafter, hz, hzlow, hrest⟩
    · exact absurd hall hnone
    · push Not at hnone
      obtain ⟨y, hy, hy', hlower⟩ := hnone
      have hmem : ∀ y ∈ after, y ∈ xs := fun y hy => by rw [heq]; simp [hy]
      have hzless : key z < key x := by
        have hle := hzlow y (hmem y hy) ⟨fun h => absurd h hy', fun h => absurd h hz⟩
        exact hle.trans_lt hlower
      obtain ⟨q, hq, hqmem⟩ := @foldl_keep_invariant α κ _ first _ key mid r (· ∈ xs)
        (by
          obtain ⟨r', hr', heq'⟩ := @scan_mem α κ _ first _ key (before ++ [x]) (by simp)
          rw [hr, Option.some.injEq] at heq'
          rw [heq', heq]
          simp only [List.mem_append, List.mem_cons] at hr' ⊢
          tauto)
        (fun _ y _ hy _ => hmem y (by rw [hafter]; simp [hy]))
      have hkept : ∃ q', keep first key (some q) z = some q' ∧ ¬ first q' ∧ key q' = key z := by
        rw [keep_some]
        split
        case isTrue => exact ⟨z, rfl, hz, rfl⟩
        case isFalse hstays =>
          have hq' : ¬ first q := by
            intro hq'
            have hle := hlow q hqmem ⟨fun _ => hx, fun _ => hq'⟩
            exact hstays (.inr (hzless.trans_le hle))
          have hge := hzlow q hqmem ⟨fun h => absurd h hq', fun h => absurd h hz⟩
          exact ⟨q, rfl, hq', le_antisymm (not_lt.mp fun h => hstays (.inr h)) hge⟩
      obtain ⟨q', hq', hqsecond, hqkey⟩ := hkept
      refine ⟨q', ?_, ?_⟩
      · rw [hscan, hafter, List.foldl_append, hq, List.foldl_cons, hq']
        refine foldl_keep_stays ?_
        rintro y hy (⟨hy', -⟩ | hlt)
        · exact hrest y hy hy'
        · have hge := hzlow y (hmem y (by rw [hafter]; simp [hy]))
            ⟨fun h => absurd h (hrest y hy), fun h => absurd h hz⟩
          exact not_lt.mpr hge (hqkey ▸ hlt)
      · intro y hy hclass
        rw [hqkey]
        refine hzlow y hy ?_
        exact ⟨fun h => absurd (hclass.mp h) hqsecond, fun h => absurd h hz⟩

/-- Behind the last element of the first class the scan begins with one of that class. -/
theorem exists_second_tail (hx : first x) (after : List α) :
    ∃ u v r, after = u ++ v ∧ (∀ y ∈ v, ¬ first y) ∧
      u.foldl (keep first key) (some x) = some r ∧ first r := by
  induction after using List.reverseRecOn with
  | nil => exact ⟨[], [], x, rfl, by simp, rfl, hx⟩
  | append_singleton after c ih =>
    obtain ⟨u, v, r, heq, hv, hr, hrfirst⟩ := ih
    by_cases hc : first c
    · obtain ⟨q, hq, -⟩ := @foldl_keep_invariant α κ _ first _ key after x (fun _ => True)
        trivial fun _ _ _ _ _ => trivial
      refine ⟨after ++ [c], [], if MovesOn first key q c then c else q, by simp, by simp, ?_, ?_⟩
      · rw [List.foldl_append, hq, List.foldl_cons, List.foldl_nil, keep_some]
        split <;> rfl
      · split
        case isTrue => exact hc
        case isFalse hstays => exact not_not.mp fun h => hstays (.inl ⟨hc, h⟩)
    · refine ⟨u, v ++ [c], r, by rw [heq]; simp, ?_, hr, hrfirst⟩
      intro y hy
      rcases List.mem_append.mp hy with hy | hy
      · exact hv y hy
      · exact (List.mem_singleton.mp hy) ▸ hc

/-- A list whose scan ends at a lowest element of its class keeps it. -/
theorem keepsLowest_of_isLowest {r : α} (hr : scan first key xs = some r)
    (hlowest : IsLowest first key xs r) : KeepsLowest first key xs := by
  intro before x after heq hx hlow hlast
  by_contra hlost
  push Not at hlost
  obtain ⟨⟨y, hy, hy', hlower⟩, hbehind⟩ := hlost
  have hbefore : ∀ y ∈ before, first y → key x ≤ key y := by
    intro y hy hy'
    exact hlow y (by rw [heq]; simp [hy]) ⟨fun _ => hx, fun _ => hy'⟩
  obtain ⟨r₀, hr₀, hfirst₀, hkey₀⟩ := key_scan_lowest hx hbefore
  have hscan : scan first key xs = after.foldl (keep first key) (some r₀) := by
    rw [heq, ← hr₀, ← scan_append]
    simp
  -- behind the lower element of the second class the first class is kept with a higher key only
  have hsecond : ¬ first r := by
    obtain ⟨mid, rest, hmid⟩ := List.append_of_mem hy
    obtain ⟨q, hq, hqlow⟩ := @foldl_keep_invariant α κ _ first _ key mid r₀
      (fun q => first q → key x ≤ key q) (fun _ => hkey₀.ge)
      (fun _ y _ hy _ hyfirst => (hlast y (by rw [hmid]; simp [hy]) hyfirst).le)
    have hkept : ∃ q', keep first key (some q) y = some q' ∧ ¬ first q' := by
      rw [keep_some]
      split
      case isTrue => exact ⟨y, rfl, hy'⟩
      case isFalse hstays =>
        exact ⟨q, rfl, fun hqfirst => hstays (.inr (hlower.trans_le (hqlow hqfirst)))⟩
    obtain ⟨q', hq', hqsecond⟩ := hkept
    obtain ⟨r', hr', hrhigh⟩ := @foldl_keep_invariant α κ _ first _ key rest q'
      (fun q => first q → key x < key q) (fun h => absurd h hqsecond)
      (fun _ z _ hz _ hzfirst => hlast z (by rw [hmid]; simp [hz]) hzfirst)
    have hsame : r' = r := by
      rw [hscan, hmid, List.foldl_append, hq, List.foldl_cons, hq', hr'] at hr
      exact Option.some.inj hr
    intro hrfirst
    have hle := hlowest x (by rw [heq]; simp) ⟨fun _ => hrfirst, fun _ => hx⟩
    rw [hsame] at hrhigh
    exact not_lt.mpr hle (hrhigh hrfirst)
  obtain ⟨u, v, q, huv, hv, hq, hqfirst⟩ := @exists_second_tail α κ _ first _ key r₀ hfirst₀ after
  obtain ⟨r', hr', hmem⟩ := @foldl_keep_invariant α κ _ first _ key v q
    (fun r => first r ∨ r ∈ v) (.inl hqfirst) (fun _ z _ hz _ => .inr hz)
  have hsame : r' = r := by
    rw [hscan, huv, List.foldl_append, hq, hr'] at hr
    exact Option.some.inj hr
  obtain ⟨a, b, hab⟩ := List.append_of_mem ((hsame ▸ hmem).resolve_left hsecond)
  obtain ⟨c, hc, hcfirst⟩ := hbehind (u ++ a) r b (by rw [huv, hab]; simp) hsecond hlowest
  exact hv c (by rw [hab]; simp [hc]) hcfirst

end Scan

end EspMiner.Library
