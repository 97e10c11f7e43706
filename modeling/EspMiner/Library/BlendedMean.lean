import EspMiner.Library.WindowMean

/-!
# Means that are blended from slot to slot

A longer mean is kept as the means of blocks of `period` samples: a ring has one slot for each
block, and the slot of the block that is under way moves from the content that it replaces to
the mean of the new block.  The mean of the slots is then a function of the samples.
-/

namespace EspMiner.Library

/-! ## Rings that fill -/

section Fills

variable {α : Type*} {size : Nat} {ring : Nat → Option α} {ys : List α} {y z : α}

/-- The ring holds the last elements, and nothing where there are fewer than cells. -/
def Fills (size : Nat) (ring : Nat → Option α) (ys : List α) : Prop :=
  Ring.Retains size ring (List.replicate size none ++ ys.map some)

/-- What the next element of a ring replaces. -/
def oldest (size : Nat) (ys : List α) : Option α :=
  if ys.length < size then none else ys[ys.length - size]?

theorem length_stream (size : Nat) (ys : List α) :
    (List.replicate size none ++ ys.map some).length = size + ys.length := by
  rw [List.length_append, List.length_replicate, List.length_map]

theorem fills_nil : Fills size (fun _ => none) ([] : List α) := by
  intro p hp _
  simp

theorem Fills.getElem (h : Fills size ring ys) (hsize : 0 < size) :
    ring (ys.length % size) = oldest size ys := by
  have hread := h ys.length (by rw [length_stream]; omega) (by rw [length_stream]; omega)
  rw [hread, oldest]
  split
  · next hlt => rw [List.getElem_append_left (by simpa using hlt), List.getElem_replicate]
  · next hge =>
    rw [List.getElem_append_right (by simpa using hge)]
    simp

/-- The next element takes its cell. -/
theorem Fills.update (h : Fills size ring ys) :
    Fills size (Function.update ring (ys.length % size) (some y)) (ys ++ [y]) := by
  have hnext := Ring.retains_update (some y) fun p hp hlast => h p hp hlast.le
  rw [length_stream, Nat.add_mod_left] at hnext
  rw [Fills, List.map_append, ← List.append_assoc]
  exact hnext

/-- The newest element is overwritten. -/
theorem Fills.update_newest (h : Fills size ring (ys ++ [z])) :
    Fills size (Function.update ring (ys.length % size) (some y)) (ys ++ [y]) := by
  have hnext := @Ring.retains_update _ size ring (List.replicate size none ++ ys.map some) (some y)
    (by
      intro p hp hlast
      rw [Fills, List.map_append, ← List.append_assoc] at h
      have hread := h p (by rw [List.length_append]; omega) (by
        rw [List.length_append]
        exact hlast)
      rw [hread, List.getElem_append_left hp])
  rw [length_stream, Nat.add_mod_left] at hnext
  rw [Fills, List.map_append, ← List.append_assoc]
  exact hnext

/-- The filled cells hold the last elements in some order. -/
theorem Fills.perm (h : Fills size ring ys) (hsize : 0 < size) :
    (((List.range size).map ring).filterMap id).Perm (lastOf size ys) := by
  have hperm := Ring.Retains.perm h hsize (by rw [length_stream]; omega)
  have hfilter := hperm.filterMap id
  rw [length_stream, Nat.add_sub_cancel_left, List.drop_append, List.filterMap_append,
    List.length_replicate, List.drop_replicate, List.filterMap_replicate_of_none rfl,
    List.nil_append, ← List.map_drop, List.filterMap_map] at hfilter
  rw [lastOf]
  simpa using hfilter

end Fills

/-! ## The ends of the blocks -/

section Ends

variable {K : Type*} {slots period : Nat} {f : List K → K} {ring : Nat → Option K}
variable {replaced : Option K} {xs : List K} {x : K}

/-- What stood in the slots at the ends of the first blocks -/
def slotEnds (period : Nat) (f : List K → K) (xs : List K) (blocks : Nat) : List K :=
  (List.range blocks).map fun j => f (xs.take (period * (j + 1)))

/-- A ring and a replaced content after some samples -/
def Blends (slots period : Nat) (f : List K → K) (ring : Nat → Option K) (replaced : Option K)
    (xs : List K) : Prop :=
  if xs.length % period = 0 then Fills slots ring (slotEnds period f xs (xs.length / period))
  else replaced = oldest slots (slotEnds period f xs (xs.length / period)) ∧
    ∃ y, Fills slots ring (slotEnds period f xs (xs.length / period) ++ [y])

@[simp] theorem length_slotEnds (blocks : Nat) :
    (slotEnds period f xs blocks).length = blocks := by
  rw [slotEnds, List.length_map, List.length_range]

theorem getElem_slotEnds {blocks j : Nat} (h : j < (slotEnds period f xs blocks).length) :
    (slotEnds period f xs blocks)[j] = f (xs.take (period * (j + 1))) := by
  simp [slotEnds]

theorem slotEnds_append {blocks : Nat} (h : period * blocks ≤ xs.length) :
    slotEnds period f (xs ++ [x]) blocks = slotEnds period f xs blocks := by
  refine List.map_congr_left fun j hj => ?_
  rw [List.mem_range] at hj
  have hend : period * (j + 1) ≤ period * blocks := Nat.mul_le_mul_left period hj
  rw [List.take_append_of_le_length (by omega)]

theorem slotEnds_succ (blocks : Nat) : slotEnds period f xs (blocks + 1) =
    slotEnds period f xs blocks ++ [f (xs.take (period * (blocks + 1)))] := by
  rw [slotEnds, List.range_succ, List.map_append]
  rfl

theorem blends_nil : Blends slots period f (fun _ => none) replaced [] := by
  rw [Blends, List.length_nil, Nat.zero_mod, if_pos rfl, Nat.zero_div]
  exact fills_nil

end Ends

/-! ## Slots that are blended -/

section Blends

variable {K : Type*} [Field K] {slots period : Nat} {f : List K → K} {ring : Nat → Option K}
variable {replaced : Option K} {xs : List K} {x : K}

/-- A value on its way from what it replaces -/
def blendInto (f value : K) (replaced : Option K) : K :=
  match replaced with
  | none => value
  | some old => f * value + (1 - f) * old

/-- The slots, the one of the current block last -/
def blendedSlots (slots period : Nat) (f : List K → K) (xs : List K) : List K :=
  let ends := slotEnds period f xs ((xs.length - 1) / period)
  ends ++ [blendInto ((((xs.length - 1) % period + 1 : Nat) : K) / period) (f xs)
    (oldest slots ends)]

/-- The mean of the slots -/
def blendedMean (slots period : Nat) (f : List K → K) (xs : List K) : K :=
  mean (lastOf slots (blendedSlots slots period f xs))

theorem blendedSlots_append : blendedSlots slots period f (xs ++ [x]) =
    slotEnds period f xs (xs.length / period) ++
      [blendInto (((xs.length % period + 1 : Nat) : K) / period) (f (xs ++ [x]))
        (oldest slots (slotEnds period f xs (xs.length / period)))] := by
  have hlength : (xs ++ [x]).length - 1 = xs.length := by simp
  rw [blendedSlots, hlength, slotEnds_append (Nat.mul_div_le _ _)]

/-- At the end of a block nothing of the replaced content is left. -/
theorem blendInto_end [CharZero K] (hperiod : 0 < period) (value : K) :
    blendInto ((period : K) / period) value replaced = value := by
  have hne : (period : K) ≠ 0 := Nat.cast_ne_zero.mpr (Nat.ne_of_gt hperiod)
  rw [div_self hne]
  cases replaced with
  | none => rfl
  | some old => rw [blendInto, sub_self, zero_mul, add_zero, one_mul]

/-- **One more sample.**  The slot of its block is written, and the slots are those that the
samples give. -/
theorem Blends.step [CharZero K] (h : Blends slots period f ring replaced xs) (hslots : 0 < slots)
    (hperiod : 0 < period) {next : Option K} {value : K}
    (hnext : next = if xs.length % period = 0 then ring (xs.length / period % slots) else replaced)
    (hvalue : value =
      blendInto (((xs.length % period + 1 : Nat) : K) / period) (f (xs ++ [x])) next) :
    Fills slots (Function.update ring (xs.length / period % slots) (some value))
        (blendedSlots slots period f (xs ++ [x])) ∧
      Blends slots period f (Function.update ring (xs.length / period % slots) (some value)) next
        (xs ++ [x]) := by
  have hends : (slotEnds period f xs (xs.length / period)).length = xs.length / period :=
    length_slotEnds _
  rw [Blends] at h
  have hfills : next = oldest slots (slotEnds period f xs (xs.length / period)) ∧
      Fills slots (Function.update ring (xs.length / period % slots) (some value))
        (slotEnds period f xs (xs.length / period) ++ [value]) := by
    split at h
    · next hstart =>
      rw [if_pos hstart, ← hends, h.getElem hslots] at hnext
      have hupdate := h.update (y := value)
      rw [hends] at hupdate
      exact ⟨hends ▸ hnext, hupdate⟩
    · next hwithin =>
      obtain ⟨holdest, y, hring⟩ := h
      rw [if_neg hwithin] at hnext
      have hupdate := hring.update_newest (y := value)
      rw [hends] at hupdate
      exact ⟨hnext.trans holdest, hupdate⟩
  obtain ⟨hnext', hring⟩ := hfills
  refine ⟨?_, ?_⟩
  · rw [blendedSlots_append, ← hnext', ← hvalue]
    exact hring
  · have hdiv := Nat.div_add_mod xs.length period
    have hmod := Nat.mod_lt xs.length hperiod
    have hlength : (xs ++ [x]).length =
        period * (xs.length / period) + (xs.length % period + 1) := by
      rw [List.length_append, List.length_singleton]
      omega
    rw [Blends]
    rcases Nat.lt_or_ge (xs.length % period + 1) period with hinside | hend
    · rw [hlength, Nat.mul_add_mod, Nat.mul_add_div hperiod, Nat.mod_eq_of_lt hinside,
        Nat.div_eq_of_lt hinside, Nat.add_zero (xs.length / period),
        if_neg (Nat.succ_ne_zero _),
        slotEnds_append (Nat.mul_div_le _ _)]
      exact ⟨hnext', value, hring⟩
    · have hwhole : (xs ++ [x]).length = period * (xs.length / period + 1) := by
        rw [Nat.mul_succ]
        omega
      have hlast : xs.length % period + 1 = period := by omega
      rw [hwhole, Nat.mul_mod_right, if_pos rfl, Nat.mul_div_cancel_left _ hperiod, slotEnds_succ,
        slotEnds_append (Nat.mul_div_le _ _), ← hwhole, List.take_length]
      rw [hlast, blendInto_end hperiod] at hvalue
      rw [← hvalue]
      exact hring

theorem mem_lastOf_blendedSlots {y : K} (h : y ∈ lastOf slots (blendedSlots slots period f xs)) :
    (∃ j < (xs.length - 1) / period, (xs.length - 1) / period ≤ j + slots ∧
      y = f (xs.take (period * (j + 1)))) ∨
    y = blendInto ((((xs.length - 1) % period + 1 : Nat) : K) / period) (f xs)
      (oldest slots (slotEnds period f xs ((xs.length - 1) / period))) := by
  rw [lastOf, List.mem_drop_iff_getElem] at h
  obtain ⟨i, hi, rfl⟩ := h
  have hlength : (blendedSlots slots period f xs).length = (xs.length - 1) / period + 1 := by
    rw [blendedSlots, List.length_append, length_slotEnds, List.length_singleton]
  rcases Nat.lt_or_ge ((blendedSlots slots period f xs).length - slots + i)
    ((xs.length - 1) / period) with hend | hlast
  · refine Or.inl ⟨_, hend, by omega, ?_⟩
    simp only [blendedSlots]
    rw [List.getElem_append_left (by rwa [length_slotEnds]), getElem_slotEnds]
  · refine Or.inr ?_
    simp only [blendedSlots]
    rw [List.getElem_append_right (by rwa [length_slotEnds])]
    simp

/-! ## What the mean of the slots is -/

theorem blendedSlots_boundary [CharZero K] (hperiod : 0 < period) {blocks : Nat}
    (h : xs.length = period * (blocks + 1)) :
    blendedSlots slots period f xs = slotEnds period f xs (blocks + 1) := by
  have hprevious : xs.length - 1 = period * blocks + (period - 1) := by
    rw [h, Nat.mul_succ]
    omega
  have hinside : period - 1 < period := by omega
  rw [blendedSlots, hprevious, Nat.mul_add_mod, Nat.mul_add_div hperiod, Nat.div_eq_of_lt hinside,
    Nat.add_zero, Nat.mod_eq_of_lt hinside, Nat.sub_add_cancel hperiod, blendInto_end hperiod,
    slotEnds_succ, ← h, List.take_length]

/-- **At the end of a block the mean of the slots is a mean of samples.** -/
theorem blendedMean_boundary [CharZero K] (hperiod : 0 < period)
    (hdvd : period ∣ xs.length) (hxs : xs ≠ [])
    (hf : ∀ j, period * (j + 1) ≤ xs.length →
      f (xs.take (period * (j + 1))) = mean (lastOf period (xs.take (period * (j + 1))))) :
    blendedMean slots period f xs = mean (lastOf (slots * period) xs) := by
  obtain ⟨count, hcount⟩ := hdvd
  obtain ⟨blocks, rfl⟩ : ∃ blocks, count = blocks + 1 := by
    refine Nat.exists_eq_add_one_of_ne_zero ?_
    rintro rfl
    exact hxs (List.length_eq_zero_iff.mp hcount)
  have hmeans : slotEnds period f xs (blocks + 1) = (List.range (blocks + 1)).map fun j =>
      mean (lastOf period (xs.take (period * (j + 1)))) := by
    refine List.map_congr_left fun j hj => hf j ?_
    rw [hcount]
    exact Nat.mul_le_mul_left period (List.mem_range.mp hj)
  rw [blendedMean, blendedSlots_boundary hperiod hcount, hmeans, mean_blockMeans hperiod hcount]

variable [LinearOrder K] [IsStrictOrderedRing K]

/-- An average lies where the last samples lie. -/
def StaysWithin (window : Nat) (f : List K → K) (xs : List K) : Prop :=
  ∀ lo hi, (∀ x ∈ lastOf window xs, lo ≤ x ∧ x ≤ hi) → lo ≤ f xs ∧ f xs ≤ hi

/-- **The mean of the slots lies where the samples of its slots lie.** -/
theorem blendedMean_staysWithin {window blockWindow whole : Nat} (hslots : 0 < slots)
    (hperiod : 0 < period) (hxs : xs ≠ []) (hf : StaysWithin window f xs)
    (hends : ∀ j, period * (j + 1) ≤ xs.length →
      StaysWithin blockWindow f (xs.take (period * (j + 1))))
    (hwindow : window ≤ whole) (hwhole : period * slots + blockWindow ≤ whole) :
    StaysWithin whole (blendedMean slots period f) xs := by
  intro lo hi hsamples
  have hpos := List.length_pos_iff.mpr hxs
  have hdiv := Nat.div_add_mod (xs.length - 1) period
  have hmod := Nat.mod_lt (xs.length - 1) hperiod
  have hcurrent : lo ≤ f xs ∧ f xs ≤ hi :=
    hf lo hi fun x hx => hsamples x (mem_lastOf_mono hwindow hx)
  have hend : ∀ j, j < (xs.length - 1) / period → (xs.length - 1) / period ≤ j + slots →
      lo ≤ f (xs.take (period * (j + 1))) ∧ f (xs.take (period * (j + 1))) ≤ hi := by
    intro j hj hreach
    have hle : period * (j + 1) ≤ period * ((xs.length - 1) / period) :=
      Nat.mul_le_mul_left period hj
    have hge : period * ((xs.length - 1) / period) ≤ period * (j + slots) :=
      Nat.mul_le_mul_left period hreach
    rw [Nat.mul_add] at hge
    rw [Nat.mul_succ] at hle
    refine hends j (by rw [Nat.mul_succ]; omega) lo hi fun x hx => hsamples x ?_
    refine mem_lastOf_of_take (by rw [Nat.mul_succ]; omega) hx ?_
    rw [Nat.mul_succ]
    omega
  refine mean_within (lastOf_ne_nil hslots ?_) ?_
  · rw [blendedSlots]
    simp
  · intro x hx
    rcases mem_lastOf_blendedSlots hx with ⟨j, hj, hreach, rfl⟩ | rfl
    · exact hend j hj hreach
    · rw [oldest, length_slotEnds]
      split
      · exact hcurrent
      · next hfull =>
        rw [List.getElem?_eq_getElem (by rw [length_slotEnds]; omega), getElem_slotEnds]
        have hfraction : ((xs.length - 1) % period + 1 : Nat) ≤ period := hmod
        have hperiod' : (0 : K) < period := Nat.cast_pos.mpr hperiod
        refine blend_within (by positivity) ?_ hcurrent (hend _ (by omega) (by omega))
        rw [div_le_one hperiod']
        exact Nat.cast_le.mpr hfraction

end Blends

end EspMiner.Library
