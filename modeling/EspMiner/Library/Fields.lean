import Mathlib.Data.List.TakeWhile

/-!
# Fields between delimiters

`strtok_r` with one delimiter returns the non-empty fields of a text, one after the
other.
-/

namespace EspMiner.Library

variable {α : Type*} [DecidableEq α] {delim : α}

/-- A text that has the delimiter, split at the first. -/
theorem eq_takeWhile_append_drop {text : List α}
    (h : (text.takeWhile (· ≠ delim)).length < text.length) :
    text = text.takeWhile (· ≠ delim) ++
      delim :: text.drop ((text.takeWhile (· ≠ delim)).length + 1) := by
  induction text with
  | nil => exact absurd h (Nat.lt_irrefl _)
  | cons first text ih =>
    by_cases hfirst : first = delim
    · simp [hfirst]
    · simp only [List.takeWhile_cons, hfirst, ne_eq, not_false_eq_true, decide_true, if_true,
        List.length_cons, Nat.add_lt_add_iff_right] at h ⊢
      exact congrArg (first :: ·) (ih h)

theorem takeWhile_ne_of_not_mem {field : List α} (hfield : delim ∉ field) (text : List α) :
    (field ++ delim :: text).takeWhile (· ≠ delim) = field := by
  induction field with
  | nil => simp
  | cons first field ih =>
    obtain ⟨hfirst, hrest⟩ := not_or.mp (mt List.mem_cons.mpr hfield)
    rw [List.cons_append, List.takeWhile_cons_of_pos (by simpa using Ne.symm hfirst), ih hrest]

/-- There is one first delimiter. -/
theorem append_delim_inj {field field' text text' : List α} (hfield : delim ∉ field)
    (hfield' : delim ∉ field') (h : field ++ delim :: text = field' ++ delim :: text') :
    field = field' ∧ text = text' := by
  have hsame := takeWhile_ne_of_not_mem hfield text
  rw [h, takeWhile_ne_of_not_mem hfield'] at hsame
  subst hsame
  exact ⟨rfl, (List.cons.inj (List.append_cancel_left h)).2⟩

/-- The non-empty fields of a text. -/
def fields (delim : α) (text : List α) : List (List α) :=
  (text.splitOn delim).filter fun field => !field.isEmpty

/-- `strtok_r`: the next field and the text that is left for the next call. -/
def strtokR (delim : α) (text : List α) : Option (List α × List α) :=
  match text.dropWhile (· == delim) with
  | [] => none
  | first :: rest =>
      some ((first :: rest).takeWhile (· != delim), ((first :: rest).dropWhile (· != delim)).drop 1)

theorem fields_cons_delim (text : List α) : fields delim (delim :: text) = fields delim text := by
  have hsplit : ([] ++ delim :: text).splitOn delim = [] :: text.splitOn delim :=
    List.splitOn_append_cons_self_of_not_mem List.not_mem_nil text
  rw [List.nil_append] at hsplit
  rw [fields, hsplit]
  rfl

theorem fields_dropWhile (text : List α) :
    fields delim (text.dropWhile (· == delim)) = fields delim text := by
  induction text with
  | nil => rfl
  | cons first text ih =>
    by_cases hfirst : first = delim
    · subst hfirst
      rw [List.dropWhile_cons_of_pos (by simp), ih, fields_cons_delim]
    · rw [List.dropWhile_cons_of_neg (by simpa using hfirst)]

theorem fields_of_not_mem {field : List α} (hnil : field ≠ []) (hfield : delim ∉ field) :
    fields delim field = [field] := by
  rw [fields, List.splitOn_eq_singleton hfield]
  simp [hnil]

/-- A field in front of its delimiter. -/
theorem fields_append_delim {field : List α} (hnil : field ≠ []) (hfield : delim ∉ field)
    (text : List α) : fields delim (field ++ delim :: text) = field :: fields delim text := by
  rw [fields, List.splitOn_append_cons_self_of_not_mem hfield]
  simp [hnil, fields]

/-- A field ends at its delimiter or with the text. -/
theorem strtokR_eq_some_iff {text token rest : List α}
    (h : strtokR delim text = some (token, rest)) : token ≠ [] ∧ delim ∉ token ∧
      (text.dropWhile (· == delim) = token ∧ rest = [] ∨
        text.dropWhile (· == delim) = token ++ delim :: rest) := by
  unfold strtokR at h
  cases hstart : text.dropWhile (· == delim) with
  | nil => simp [hstart] at h
  | cons first more =>
    simp only [hstart, Option.some.injEq, Prod.mk.injEq] at h
    obtain ⟨rfl, rfl⟩ := h
    have hfirst : first ≠ delim := by
      have hhead := List.head_dropWhile_not (· == delim) (l := text) (by simp [hstart])
      simpa [hstart] using hhead
    refine ⟨?_, fun hmem => ?_, ?_⟩
    · simp [hfirst]
    · simpa using List.mem_takeWhile_imp hmem
    · have hsplit := List.takeWhile_append_dropWhile (p := (· != delim)) (l := first :: more)
      cases hbehind : (first :: more).dropWhile (· != delim) with
      | nil =>
        rw [hbehind, List.append_nil] at hsplit
        exact .inl ⟨hsplit.symm, rfl⟩
      | cons stop behind =>
        have hstop := List.head_dropWhile_not (· != delim) (l := first :: more) (by simp [hbehind])
        simp only [hbehind, List.head_cons, bne_eq_false_iff_eq] at hstop
        rw [hbehind, hstop] at hsplit
        exact .inr hsplit.symm

theorem fields_of_strtokR_eq_none {text : List α} (h : strtokR delim text = none) :
    fields delim text = [] := by
  rw [← fields_dropWhile]
  unfold strtokR at h
  split at h
  · next hstart =>
    rw [hstart]
    rfl
  · cases h

/-- A call returns the first field and leaves the others. -/
theorem fields_of_strtokR_eq_some {text token rest : List α}
    (h : strtokR delim text = some (token, rest)) :
    fields delim text = token :: fields delim rest := by
  obtain ⟨hnil, hfield, ⟨hlast, rfl⟩ | hmore⟩ := strtokR_eq_some_iff h
  · rw [← fields_dropWhile, hlast, fields_of_not_mem hnil hfield]
    rfl
  · rw [← fields_dropWhile, hmore, fields_append_delim hnil hfield]

theorem strtokR_map_fst (text : List α) :
    (strtokR delim text).map Prod.fst = (fields delim text).head? := by
  cases h : strtokR delim text with
  | none =>
    rw [fields_of_strtokR_eq_none h]
    rfl
  | some token =>
    rw [fields_of_strtokR_eq_some h]
    rfl

theorem strtokR_of_fields {text token : List α} {more : List (List α)}
    (h : fields delim text = token :: more) :
    ∃ rest, strtokR delim text = some (token, rest) ∧ fields delim rest = more := by
  cases hcall : strtokR delim text with
  | none =>
    rw [fields_of_strtokR_eq_none hcall] at h
    cases h
  | some result =>
    obtain ⟨token', rest⟩ := result
    rw [fields_of_strtokR_eq_some hcall] at h
    obtain ⟨rfl, hmore⟩ := List.cons.inj h
    exact ⟨rest, rfl, hmore⟩

end EspMiner.Library
