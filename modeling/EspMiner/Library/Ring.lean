import Mathlib.Data.List.TakeDrop
import Mathlib.Logic.Function.Basic

/-!
# Rings that hold the end of a stream

A stream is written into an array of `size` cells, position `p` of the stream
into cell `p % size`, each block in one or two parts.  The array then holds the
last `size` elements of the stream, and a block of them is read back in one or
two parts as well.  An array is a function of the cell here; only the cells below
`size` are used.
-/

namespace EspMiner.Library

variable {α : Type*}

/-- The `n` elements of a stream from position `p` on. -/
def slice (stream : List α) (p n : Nat) : List α := (stream.drop p).take n

theorem length_slice {stream : List α} {p n : Nat} (h : p + n ≤ stream.length) :
    (slice stream p n).length = n := by
  rw [slice, List.length_take, List.length_drop]
  omega

theorem slice_append {stream : List α} {p n : Nat} (h : p + n ≤ stream.length)
    (data : List α) : slice (stream ++ data) p n = slice stream p n := by
  rw [slice, slice, List.drop_append_of_le_length (by omega), List.take_append_of_le_length]
  rw [List.length_drop]
  omega

theorem slice_add (stream : List α) (p n m : Nat) :
    slice stream p (n + m) = slice stream p n ++ slice stream (p + n) m := by
  rw [slice, slice, slice, List.take_add, List.drop_drop]

theorem getElem_slice {stream : List α} {p n i : Nat} (hi : i < (slice stream p n).length)
    (hp : p + i < stream.length) : (slice stream p n)[i] = stream[p + i] := by
  simp [slice]

/-- An element of a slice is one of the stream. -/
theorem exists_of_mem_slice {stream : List α} {p n : Nat} {x : α}
    (h : x ∈ slice stream p n) (hend : p + n ≤ stream.length) :
    ∃ i, ∃ hi : i < n, stream[p + i] = x := by
  obtain ⟨i, hi, heq⟩ := List.mem_iff_getElem.mp h
  have hlt := hi
  rw [length_slice hend] at hlt
  exact ⟨i, hlt, by rw [← heq, getElem_slice hi (by omega)]⟩

/-- One more element. -/
theorem slice_succ {stream : List α} {p n : Nat} (h : p + n < stream.length) :
    slice stream p (n + 1) = slice stream p n ++ [stream[p + n]] := by
  rw [slice_add]
  congr 1
  rw [slice, List.drop_eq_getElem_cons h]
  rfl

namespace Ring

/-- The `n` cells from `offset` on. -/
def block (buffer : Nat → α) (offset n : Nat) : List α :=
  (List.range n).map fun i => buffer (offset + i)

/-- `data` is copied to the cells from `offset` on. -/
def overwrite (buffer : Nat → α) (offset : Nat) (data : List α) : Nat → α := fun cell =>
  if offset ≤ cell then (data[cell - offset]?).getD (buffer cell) else buffer cell

variable (size : Nat)

/-- Write `data` at a position of the stream. -/
def write (buffer : Nat → α) (position : Nat) (data : List α) : Nat → α :=
  let offset := position % size
  let tillEnd := size - offset
  if data.length ≤ tillEnd then overwrite buffer offset data
  else overwrite (overwrite buffer offset (data.take tillEnd)) 0 (data.drop tillEnd)

/-- Read `n` elements from a position of the stream on. -/
def read (buffer : Nat → α) (position n : Nat) : List α :=
  let offset := position % size
  let tillEnd := size - offset
  if n ≤ tillEnd then block buffer offset n
  else block buffer offset tillEnd ++ block buffer 0 (n - tillEnd)

/-- The array holds the last `size` elements of the stream. -/
def Retains (buffer : Nat → α) (stream : List α) : Prop :=
  ∀ p (h : p < stream.length), stream.length ≤ p + size → buffer (p % size) = stream[p]

variable {size} {buffer : Nat → α} {stream data : List α} {offset position n cell : Nat}

@[simp] theorem length_block : (block buffer offset n).length = n := by
  simp [block]

theorem overwrite_of_mem (hle : offset ≤ cell) (hlt : cell - offset < data.length) :
    overwrite buffer offset data cell = data[cell - offset] := by
  rw [overwrite, if_pos hle, List.getElem?_eq_getElem hlt, Option.getD_some]

theorem overwrite_of_lt (h : cell < offset) : overwrite buffer offset data cell = buffer cell :=
  if_neg (Nat.not_le.mpr h)

theorem overwrite_of_ge (h : offset + data.length ≤ cell) :
    overwrite buffer offset data cell = buffer cell := by
  rw [overwrite, if_pos (by omega), List.getElem?_eq_none (by omega), Option.getD_none]

/-- Positions that are less than a turn apart have the same cell only if they are
the same, or the cell of the later one is behind the wrap. -/
theorem mod_add {position i : Nat} (hsize : 0 < size) (hi : i < size) :
    (position + i) % size =
      if position % size + i < size then position % size + i else position % size + i - size := by
  have hlt := Nat.mod_lt position hsize
  rw [Nat.add_mod, Nat.mod_eq_of_lt hi]
  split
  · exact Nat.mod_eq_of_lt ‹_›
  · rw [Nat.mod_eq_sub_mod (by omega), Nat.mod_eq_of_lt (by omega)]

/-- A written element is in the cell of its position. -/
theorem write_at (hdata : data.length ≤ size) {i : Nat} (hi : i < data.length) :
    write size buffer position data ((position + i) % size) = data[i] := by
  have hsize : 0 < size := by omega
  have hlt := Nat.mod_lt position hsize
  rw [mod_add hsize (by omega), write]
  split
  · next hfits =>
    rw [if_pos (by omega), overwrite_of_mem (by omega) (by omega)]
    congr 1
    omega
  · next hwraps =>
    split
    · next hbefore =>
      rw [overwrite_of_ge (by rw [List.length_drop]; omega),
        overwrite_of_mem (by omega) (by rw [List.length_take]; omega), List.getElem_take]
      congr 1
      omega
    · next hafter =>
      rw [overwrite_of_mem (Nat.zero_le _) (by rw [List.length_drop]; omega), List.getElem_drop]
      congr 1
      omega

/-- A cell that no written position has keeps its element. -/
theorem write_of_ne (hdata : data.length ≤ size) (hcell : cell < size)
    (h : ∀ i < data.length, (position + i) % size ≠ cell) :
    write size buffer position data cell = buffer cell := by
  have hsize : 0 < size := by omega
  have hlt := Nat.mod_lt position hsize
  rw [write]
  split
  · next hfits =>
    rcases Nat.lt_or_ge cell (position % size) with hbefore | hfrom
    · exact overwrite_of_lt hbefore
    · refine overwrite_of_ge (Nat.le_of_not_lt fun hmem => ?_)
      refine h (cell - position % size) (by omega) ?_
      rw [mod_add hsize (by omega), if_pos (by omega)]
      omega
  · next hwraps =>
    have hlow : (data.drop (size - position % size)).length ≤ cell := by
      refine Nat.le_of_not_lt fun hmem => ?_
      rw [List.length_drop] at hmem
      refine h (size - position % size + cell) (by omega) ?_
      rw [mod_add hsize (by omega), if_neg (by omega)]
      omega
    have hhigh : cell < position % size := by
      refine Nat.lt_of_not_le fun hmem => ?_
      refine h (cell - position % size) (by omega) ?_
      rw [mod_add hsize (by omega), if_pos (by omega)]
      omega
    rw [overwrite_of_ge (by omega), overwrite_of_lt hhigh]

/-- Writing at the end of the stream extends the stream. -/
theorem Retains.write (h : Retains size buffer stream) (hdata : data.length ≤ size) :
    Retains size (write size buffer stream.length data) (stream ++ data) := by
  intro p hp hlast
  rw [List.length_append] at hp hlast
  rcases Nat.lt_or_ge p stream.length with hold | hnew
  · have hsize : 0 < size := by omega
    rw [List.getElem_append_left hold, write_of_ne hdata (Nat.mod_lt p hsize), h p hold (by omega)]
    intro i hi hsame
    -- the written position would be less than a turn after `p`
    have hdiv := Nat.div_add_mod (stream.length + i) size
    have hdiv' := Nat.div_add_mod p size
    rw [hsame] at hdiv
    have hquot : (stream.length + i) / size = p / size ∨
        p / size + 1 ≤ (stream.length + i) / size := by
      have := Nat.div_le_div_right (c := size) (show p ≤ stream.length + i by omega)
      omega
    rcases hquot with heq | hlt
    · rw [heq] at hdiv
      omega
    · have hmul := Nat.mul_le_mul_left size hlt
      rw [Nat.mul_add, Nat.mul_one] at hmul
      omega
  · rw [List.getElem_append_right hnew]
    have hlt : p - stream.length < data.length := by omega
    have hat : Ring.write size buffer stream.length data
        ((stream.length + (p - stream.length)) % size) = data[p - stream.length] :=
      write_at hdata hlt
    rwa [show stream.length + (p - stream.length) = p by omega] at hat

/-- One element is written into one cell. -/
theorem write_singleton (hsize : 0 < size) (x : α) :
    write size buffer position [x] = Function.update buffer (position % size) x := by
  have hlt := Nat.mod_lt position hsize
  rw [write, if_pos (by rw [List.length_singleton]; omega)]
  funext cell
  by_cases hcell : cell = position % size
  · subst hcell
    rw [overwrite_of_mem (Nat.le_refl _) (by simp), Function.update_self]
    simp
  · rw [Function.update_of_ne hcell]
    rcases Nat.lt_or_gt_of_ne hcell with hbefore | hafter
    · exact overwrite_of_lt hbefore
    · exact overwrite_of_ge hafter

/-- The written cells hold the last elements of the stream. -/
theorem Retains.mem_recent_iff (h : Retains size buffer stream) {x : α} :
    (∃ cell < size, cell < stream.length ∧ buffer cell = x) ↔
      x ∈ stream.drop (stream.length - size) := by
  rw [List.mem_drop_iff_getElem]
  constructor
  · rintro ⟨cell, hcell, hwritten, rfl⟩
    -- the last position that has the cell
    have hdiv := Nat.div_add_mod (stream.length - 1 - cell) size
    have hmod := Nat.mod_lt (stream.length - 1 - cell) (Nat.zero_lt_of_lt hcell)
    generalize (stream.length - 1 - cell) / size = turns at hdiv
    generalize (stream.length - 1 - cell) % size = behind at hdiv hmod
    have hposition : (cell + size * turns) % size = cell := by
      rw [Nat.add_mul_mod_self_left, Nat.mod_eq_of_lt hcell]
    have hread := h (cell + size * turns) (by omega) (by omega)
    rw [hposition] at hread
    refine ⟨cell + size * turns - (stream.length - size), by omega, ?_⟩
    rw [hread]
    congr 1
    omega
  · rintro ⟨i, hi, rfl⟩
    have hsize : 0 < size := by omega
    refine ⟨(stream.length - size + i) % size, Nat.mod_lt _ hsize, ?_, ?_⟩
    · exact Nat.lt_of_le_of_lt (Nat.mod_le _ _) (by omega)
    · exact h _ (by omega) (by omega)

/-- A block is read cell by cell. -/
theorem read_eq (hsize : 0 < size) (hn : n ≤ size) :
    read size buffer position n = (List.range n).map fun i => buffer ((position + i) % size) := by
  have hlt := Nat.mod_lt position hsize
  rw [read]
  split
  · refine List.map_congr_left fun i hi => ?_
    rw [List.mem_range] at hi
    rw [mod_add hsize (by omega), if_pos (by omega)]
  · have hparts : n = (size - position % size) + (n - (size - position % size)) := by omega
    conv_rhs => rw [hparts, List.range_add, List.map_append, List.map_map]
    congr 1
    · refine List.map_congr_left fun i hi => ?_
      rw [List.mem_range] at hi
      rw [mod_add hsize (by omega), if_pos (by omega)]
    · refine List.map_congr_left fun i hi => ?_
      rw [List.mem_range] at hi
      rw [Function.comp_apply, mod_add hsize (by omega), if_neg (by omega)]
      congr 1
      omega

/-- A block that is retained is read back. -/
theorem Retains.read (h : Retains size buffer stream) (hsize : 0 < size)
    (hend : position + n ≤ stream.length) (hstart : stream.length ≤ position + size) :
    read size buffer position n = slice stream position n := by
  rw [read_eq hsize (by omega)]
  refine List.ext_getElem ?_ fun i hi hi' => ?_
  · rw [List.length_map, List.length_range, length_slice hend]
  · rw [length_slice hend] at hi'
    rw [List.getElem_map, List.getElem_range, getElem_slice _ (by omega),
      h (position + i) (by omega) (by omega)]

/-- Positions that are less than a turn apart have different cells. -/
theorem mod_ne {p q : Nat} (hlt : p < q) (hclose : q < p + size) : p % size ≠ q % size := by
  intro hsame
  have hdvd : size ∣ q - p := Nat.dvd_of_mod_eq_zero (Nat.sub_mod_eq_zero_of_mod_eq hsame.symm)
  have := Nat.le_of_dvd (by omega) hdvd
  omega

/-- A cell takes the newest element, whether it held the oldest one or another newest one. -/
theorem retains_update (x : α) (h : ∀ p (hp : p < stream.length), stream.length < p + size →
    buffer (p % size) = stream[p]) :
    Retains size (Function.update buffer (stream.length % size) x) (stream ++ [x]) := by
  intro p hp hlast
  rw [List.length_append, List.length_singleton] at hp hlast
  rcases Nat.lt_or_ge p stream.length with hold | hnew
  · rw [Function.update_of_ne (mod_ne hold (by omega)), h p hold (by omega),
      List.getElem_append_left hold]
  · obtain rfl : p = stream.length := by omega
    rw [Function.update_self]
    simp

/-- The cells hold the last elements in some order. -/
theorem Retains.perm (h : Retains size buffer stream) (hsize : 0 < size)
    (hlength : size ≤ stream.length) :
    ((List.range size).map buffer).Perm (stream.drop (stream.length - size)) := by
  have hlt := Nat.mod_lt (stream.length - size) hsize
  have hread := h.read hsize (show stream.length - size + size ≤ stream.length by omega) (by omega)
  have hslice : slice stream (stream.length - size) size = stream.drop (stream.length - size) := by
    apply List.take_of_length_le
    rw [List.length_drop]
    omega
  rw [← hslice, ← hread, Ring.read]
  split
  · next hfits =>
    have hzero : (stream.length - size) % size = 0 := by omega
    rw [hzero, block]
    simp
  · next hwraps =>
    have hparts : (List.range size).map buffer =
        block buffer 0 ((stream.length - size) % size) ++
          block buffer ((stream.length - size) % size) (size - (stream.length - size) % size) := by
      have hsum : size = (stream.length - size) % size +
          (size - (stream.length - size) % size) := by omega
      conv_lhs => rw [hsum, List.range_add, List.map_append, List.map_map]
      simp [block, Function.comp_def]
    have hback : size - (size - (stream.length - size) % size) =
        (stream.length - size) % size := by omega
    rw [hparts, hback]
    exact List.perm_append_comm

end Ring

end EspMiner.Library
