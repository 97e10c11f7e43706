import Mathlib.Algebra.Order.Floor.Ring
import Mathlib.Data.Nat.Log
import Mathlib.Tactic.Linarith
import Mathlib.Tactic.NormNum
import Mathlib.Tactic.Ring

/-!
# Rounding to nearest

A fraction rounded to the nearest integer and to the nearest number with a given
count of significant bits, ties to even.  Both choose a closest candidate, and from
that alone rounding keeps the order.
-/

namespace EspMiner.Library

/-- How far `x` is from `y`. -/
def gap (x y : Nat) : Nat := ((x : Int) - y).natAbs

/-- The integer nearest to `num / den`, ties to even. -/
def nearest (num den : Nat) : Nat :=
  let down := num / den
  let rest := num % den
  if 2 * rest < den ∨ (2 * rest = den ∧ down % 2 = 0) then down else down + 1

/-- At most `bits` significant bits. -/
def HasBits (bits units : Nat) : Prop :=
  ∃ mantissa exponent, mantissa < 2 ^ bits ∧ units = mantissa * 2 ^ exponent

/-- The exponent of the last place that `bits + 1` significant bits leave of `num / den`. -/
def lastPlace (bits num den : Nat) : Nat := (num / den).log2 - bits

/-- `num / den` rounded to `bits + 1` significant bits. -/
def roundRatio (bits num den : Nat) : Nat :=
  nearest num (den * 2 ^ lastPlace bits num den) * 2 ^ lastPlace bits num den

/-! ## Closest candidates -/

theorem nearest_cases (num : Nat) {den : Nat} (hden : 0 < den) :
    ∃ down rest, num = down * den + rest ∧ rest < den ∧
      ((2 * rest ≤ den ∧ nearest num den = down) ∨
        (den ≤ 2 * rest ∧ nearest num den = down + 1)) := by
  refine ⟨num / den, num % den, (Nat.div_add_mod' num den).symm, Nat.mod_lt num hden, ?_⟩
  unfold nearest
  dsimp only
  split
  · next hdown =>
    refine .inl ⟨?_, rfl⟩
    omega
  · next hup =>
    refine .inr ⟨?_, rfl⟩
    omega

/-- No integer is closer. -/
theorem gap_nearest_le (num : Nat) {den : Nat} (hden : 0 < den) (n : Nat) :
    gap (nearest num den * den) num ≤ gap (n * den) num := by
  obtain ⟨down, rest, rfl, hrest, hround⟩ := nearest_cases num hden
  -- `n` is at or below the one neighbour or at or above the other
  have hside : n * den ≤ down * den ∨ (down + 1) * den ≤ n * den := by
    rcases Nat.lt_or_ge down n with hlt | hge
    · exact .inr (Nat.mul_le_mul_right den hlt)
    · exact .inl (Nat.mul_le_mul_right den hge)
  have hnext : (down + 1) * den = down * den + den := Nat.succ_mul down den
  unfold gap
  rcases hround with ⟨hhalf, hround⟩ | ⟨hhalf, hround⟩
  · rw [hround]
    omega
  · rw [hround, hnext]
    omega

/-- A choice of a closest candidate keeps the order. -/
theorem le_of_closest {x y rx ry : Nat} (hxy : x < y) (hx : gap rx x ≤ gap ry x)
    (hy : gap ry y ≤ gap rx y) : rx ≤ ry := by
  unfold gap at hx hy
  omega

theorem nearest_mono {x y den : Nat} (hden : 0 < den) (h : x ≤ y) :
    nearest x den ≤ nearest y den := by
  rcases Nat.lt_or_eq_of_le h with hlt | rfl
  · refine Nat.le_of_mul_le_mul_right ?_ hden
    exact le_of_closest hlt (gap_nearest_le _ hden _) (gap_nearest_le _ hden _)
  · exact le_rfl

theorem nearest_eq_of_gap {num den n : Nat} (hden : 0 < den)
    (h : 2 * gap (n * den) num < den) : nearest num den = n := by
  have hclose := gap_nearest_le num hden n
  rcases Nat.lt_trichotomy (nearest num den) n with hlt | heq | hgt
  · have hstep : (nearest num den + 1) * den ≤ n * den := Nat.mul_le_mul_right den hlt
    rw [Nat.succ_mul] at hstep
    unfold gap at h hclose
    omega
  · exact heq
  · have hstep : (n + 1) * den ≤ nearest num den * den := Nat.mul_le_mul_right den hgt
    rw [Nat.succ_mul] at hstep
    unfold gap at h hclose
    omega

theorem two_mul_gap_nearest_le (num : Nat) {den : Nat} (hden : 0 < den) :
    2 * gap (nearest num den * den) num ≤ den := by
  obtain ⟨down, rest, rfl, hrest, hround⟩ := nearest_cases num hden
  have hnext : (down + 1) * den = down * den + den := Nat.succ_mul down den
  unfold gap
  rcases hround with ⟨hhalf, hround⟩ | ⟨hhalf, hround⟩
  · rw [hround]
    omega
  · rw [hround, hnext]
    omega

theorem nearest_zero {den : Nat} (hden : 0 < den) : nearest 0 den = 0 := by
  simp [nearest, hden]

/-! ## Significant bits -/

theorem HasBits.mul_two_pow {bits units : Nat} (h : HasBits bits units) (k : Nat) :
    HasBits bits (units * 2 ^ k) := by
  obtain ⟨mantissa, exponent, hmantissa, rfl⟩ := h
  exact ⟨mantissa, exponent + k, hmantissa, by rw [Nat.mul_assoc, ← Nat.pow_add]⟩

/-- Where the fraction lies. -/
theorem lastPlace_bounds (bits num : Nat) {den : Nat} (hden : 0 < den) :
    num < den * 2 ^ (bits + 1 + lastPlace bits num den) ∧
      (lastPlace bits num den = 0 ∨ den * 2 ^ (bits + lastPlace bits num den) ≤ num) := by
  have hhigh : num / den < 2 ^ ((num / den).log2 + 1) := Nat.lt_log2_self
  constructor
  · have hle : (num / den).log2 + 1 ≤ bits + 1 + lastPlace bits num den := by
      unfold lastPlace
      omega
    rw [Nat.mul_comm, ← Nat.div_lt_iff_lt_mul hden]
    exact hhigh.trans_le (Nat.pow_le_pow_right (by decide) hle)
  · rcases Nat.eq_zero_or_pos (lastPlace bits num den) with hzero | hpos
    · exact .inl hzero
    · have hlog : bits + lastPlace bits num den = (num / den).log2 := by
        unfold lastPlace at hpos ⊢
        omega
      have hne : num / den ≠ 0 := by
        intro hzero
        simp [lastPlace, hzero] at hpos
      refine .inr ?_
      rw [hlog, Nat.mul_comm, ← Nat.le_div_iff_mul_le hden]
      exact Nat.log2_self_le hne

/-- A number with few bits is a multiple of the last place, or below the fraction's
binade, or above it. -/
theorem HasBits.multiple_or {bits units : Nat} (h : HasBits (bits + 1) units) (place : Nat) :
    (∃ n, units = n * 2 ^ place) ∨ units < 2 ^ (bits + place) := by
  obtain ⟨mantissa, exponent, hmantissa, rfl⟩ := h
  rcases Nat.lt_or_ge exponent place with hlt | hge
  · refine .inr ?_
    calc mantissa * 2 ^ exponent < 2 ^ (bits + 1) * 2 ^ exponent :=
          Nat.mul_lt_mul_of_pos_right hmantissa (Nat.two_pow_pos exponent)
      _ = 2 ^ (bits + 1 + exponent) := (Nat.pow_add 2 _ _).symm
      _ ≤ 2 ^ (bits + place) := Nat.pow_le_pow_right (by decide) (by omega)
  · obtain ⟨more, rfl⟩ := Nat.exists_eq_add_of_le hge
    refine .inl ⟨mantissa * 2 ^ more, ?_⟩
    rw [Nat.mul_assoc, ← Nat.pow_add, Nat.add_comm more place]

/-- The rounded fraction has few bits. -/
theorem hasBits_roundRatio (bits num : Nat) {den : Nat} (hden : 0 < den) :
    HasBits (bits + 1) (roundRatio bits num den) := by
  have hbounds := (lastPlace_bounds bits num hden).1
  unfold roundRatio
  generalize lastPlace bits num den = place at hbounds ⊢
  refine HasBits.mul_two_pow ?_ place
  have hscaled : 0 < den * 2 ^ place := Nat.mul_pos hden (Nat.two_pow_pos place)
  have hle : nearest num (den * 2 ^ place) ≤ 2 ^ (bits + 1) := by
    have hpow : den * 2 ^ (bits + 1 + place) = 2 ^ (bits + 1) * (den * 2 ^ place) := by
      rw [Nat.pow_add]
      ring
    rw [hpow] at hbounds
    obtain ⟨down, rest, hnum, -, ⟨-, hround⟩ | ⟨-, hround⟩⟩ := nearest_cases num hscaled
    · rw [hround]
      refine Nat.le_of_lt (Nat.lt_of_mul_lt_mul_right (a := den * 2 ^ place) ?_)
      omega
    · rw [hround]
      refine Nat.lt_of_mul_lt_mul_right (a := den * 2 ^ place) ?_
      omega
  rcases Nat.lt_or_eq_of_le hle with hlt | heq
  · exact ⟨_, 0, hlt, by rw [Nat.pow_zero, Nat.mul_one]⟩
  · -- the carry runs into the next binade
    exact ⟨1, bits + 1, Nat.one_lt_two_pow (by omega), by rw [heq, Nat.one_mul]⟩

/-- No number with so few bits is closer. -/
theorem gap_roundRatio_le {bits den units : Nat} (num : Nat) (hden : 0 < den)
    (hunits : HasBits (bits + 1) units) :
    gap (roundRatio bits num den * den) num ≤ gap (units * den) num := by
  obtain ⟨-, hlow⟩ := lastPlace_bounds bits num hden
  unfold roundRatio
  generalize lastPlace bits num den = place at hlow ⊢
  have hscaled : 0 < den * 2 ^ place := Nat.mul_pos hden (Nat.two_pow_pos place)
  have hcandidate (n : Nat) : n * 2 ^ place * den = n * (den * 2 ^ place) := by ring
  have hclosest := gap_nearest_le num hscaled
  rw [hcandidate]
  rcases hunits.multiple_or place with ⟨n, rfl⟩ | hbelow
  · rw [hcandidate]
    exact hclosest n
  · rcases hlow with rfl | hlow
    · have := hclosest units
      rw [Nat.pow_zero, Nat.mul_one] at this ⊢
      exact this
    · -- the start of the binade is closer than anything below it
      refine (hclosest (2 ^ bits)).trans ?_
      have hstart : 2 ^ bits * (den * 2 ^ place) = den * 2 ^ (bits + place) := by
        rw [Nat.pow_add]
        ring
      have hless : units * den < den * 2 ^ (bits + place) := by
        rw [Nat.mul_comm units den]
        exact Nat.mul_lt_mul_of_pos_left hbelow hden
      rw [hstart]
      unfold gap
      omega

theorem roundRatio_mono {bits x y den : Nat} (hden : 0 < den) (h : x ≤ y) :
    roundRatio bits x den ≤ roundRatio bits y den := by
  rcases Nat.lt_or_eq_of_le h with hlt | rfl
  · refine Nat.le_of_mul_le_mul_right ?_ hden
    exact le_of_closest hlt (gap_roundRatio_le _ hden (hasBits_roundRatio bits y hden))
      (gap_roundRatio_le _ hden (hasBits_roundRatio bits x hden))
  · exact le_rfl

theorem roundRatio_zero (bits : Nat) {den : Nat} (hden : 0 < den) : roundRatio bits 0 den = 0 := by
  unfold roundRatio
  rw [nearest_zero (Nat.mul_pos hden (Nat.two_pow_pos _)), Nat.zero_mul]

/-- Rounding does not cross a number that needs no rounding. -/
theorem roundRatio_le {bits num den bound : Nat} (hden : 0 < den)
    (hbound : HasBits (bits + 1) bound) (h : num ≤ bound * den) :
    roundRatio bits num den ≤ bound := by
  have hclose := gap_roundRatio_le num hden hbound
  rcases Nat.lt_or_ge bound (roundRatio bits num den) with hlt | hge
  · have hstep : bound * den < roundRatio bits num den * den :=
      Nat.mul_lt_mul_of_pos_right hlt hden
    unfold gap at hclose
    omega
  · exact hge

theorem le_roundRatio {bits num den bound : Nat} (hden : 0 < den)
    (hbound : HasBits (bits + 1) bound) (h : bound * den ≤ num) :
    bound ≤ roundRatio bits num den := by
  have hclose := gap_roundRatio_le num hden hbound
  rcases Nat.lt_or_ge (roundRatio bits num den) bound with hlt | hge
  · have hstep : roundRatio bits num den * den < bound * den :=
      Nat.mul_lt_mul_of_pos_right hlt hden
    unfold gap at hclose
    omega
  · exact hge

/-! ## Decimals -/

theorem nearest_mul (n : Nat) {den : Nat} (hden : 0 < den) : nearest (n * den) den = n :=
  nearest_eq_of_gap hden (by simpa [gap] using hden)

/-- Writing a number in multiples of `1 / scale`, reading it back into a number with
few bits and writing that gives the same decimal: `units` counts multiples of
`1 / grain`, and no multiple of `1 / grain` lies halfway between two decimals twice. -/
theorem nearest_roundRatio_nearest {bits units scale grain : Nat} (hscale : 0 < scale)
    (hgrain : 0 < grain) (hodd : ¬ scale ∣ grain) (hunits : HasBits (bits + 1) units) :
    nearest (scale * roundRatio bits (nearest (scale * units) grain * grain) scale) grain =
      nearest (scale * units) grain := by
  have hwritten := two_mul_gap_nearest_le (scale * units) hgrain
  generalize hn : nearest (scale * units) grain = n at hwritten ⊢
  have hread := gap_roundRatio_le (n * grain) hscale hunits
  generalize roundRatio bits (n * grain) scale = read at hread ⊢
  rw [Nat.mul_comm units scale, Nat.mul_comm read scale] at hread
  rcases Nat.lt_or_ge (2 * gap (n * grain) (scale * read)) grain with hlt | hge
  · exact nearest_eq_of_gap hgrain hlt
  · -- both are half a step from the decimal, so they agree or differ by a whole step
    have hsame : scale * read = scale * units ∨ scale * read = scale * units + grain ∨
        scale * units = scale * read + grain := by
      unfold gap at hwritten hread hge
      omega
    rcases hsame with heq | habove | hbelow
    · rw [heq]
      exact hn
    · refine absurd ?_ hodd
      exact (Nat.dvd_add_right (Nat.dvd_mul_right scale units)).mp ⟨read, habove.symm⟩
    · refine absurd ?_ hodd
      exact (Nat.dvd_add_right (Nat.dvd_mul_right scale read)).mp ⟨units, hbelow.symm⟩

/-! ## Rounding with ties down

The nearest integer, a tie going to the lower one. -/

section TiesDown

variable {α : Type*} [Field α] [LinearOrder α] [IsStrictOrderedRing α] [FloorRing α]

/-- The nearest integer, ties down. -/
def halfDown (x : α) : ℤ := if 1 / 2 < x - ⌊x⌋ then ⌊x⌋ + 1 else ⌊x⌋

theorem halfDown_eq_ceil (x : α) : halfDown x = ⌈x - 1 / 2⌉ := by
  have hle := Int.floor_le x
  have hlt := Int.lt_floor_add_one x
  unfold halfDown
  symm
  split
  · next hup =>
    rw [Int.ceil_eq_iff]
    push_cast
    constructor <;> linarith
  · next hdown =>
    rw [Int.ceil_eq_iff]
    constructor <;> linarith

@[simp] theorem halfDown_intCast (n : ℤ) : halfDown (n : α) = n := by
  rw [halfDown, Int.floor_intCast, if_neg (by norm_num)]

theorem halfDown_mono {x y : α} (h : x ≤ y) : halfDown x ≤ halfDown y := by
  rw [halfDown_eq_ceil, halfDown_eq_ceil]
  exact Int.ceil_mono (by linarith)

/-- No further than a half. -/
theorem abs_halfDown_sub_le (x : α) : |(halfDown x : α) - x| ≤ 1 / 2 := by
  have hle := Int.le_ceil (x - 1 / 2)
  have hlt := Int.ceil_lt_add_one (x - 1 / 2)
  rw [halfDown_eq_ceil, abs_le]
  constructor <;> linarith

end TiesDown

end EspMiner.Library
