import EspMiner.Library.Decimal

/-!
# Decimal fractions in C strings

What `%.1f` and `%f` print of a number that is already rounded to the decimals they
write, and how such text is read: an optional sign, digits, and a point with more
digits.  Exponents, which these formats do not write, are not read.
-/

namespace EspMiner.Library

/-- The last `places` digits of a number, with leading zeros. -/
def paddedDigits : Nat → Nat → List (BitVec 8)
  | 0, _ => []
  | places + 1, n => paddedDigits places (n / 10) ++ [BitVec.ofNat 8 (48 + n % 10)]

/-- The text of `n / 10 ^ places` with `places` decimals. -/
def fixedText (negative : Bool) (places n : Nat) : List (BitVec 8) :=
  (if negative then [45#8] else []) ++
    (decimalText (n / 10 ^ places) ++ 46#8 :: paddedDigits places (n % 10 ^ places))

/-- A decimal fraction `± digits / 10 ^ places`. -/
structure DecimalFraction where
  negative : Bool
  digits : Nat
  places : Nat
deriving DecidableEq, Repr

/-- A decimal fraction at the start of the text, and what follows it. -/
def scanFixed (text : List (BitVec 8)) : Option (DecimalFraction × List (BitVec 8)) :=
  let signed := splitSign (text.dropWhile isSpace)
  let whole := signed.2.takeWhile isDigit
  match signed.2.dropWhile isDigit with
  | 46#8 :: rest =>
      let fraction := rest.takeWhile isDigit
      if whole ++ fraction = [] then none
      else
        some (⟨signed.1, digitsValue (whole ++ fraction), fraction.length⟩,
          rest.dropWhile isDigit)
  | rest => if whole = [] then none else some (⟨signed.1, digitsValue whole, 0⟩, rest)

theorem paddedDigits_isDigit (places n : Nat) :
    ∀ byte ∈ paddedDigits places n, isDigit byte = true := by
  induction places generalizing n with
  | zero => simp [paddedDigits]
  | succ places ih =>
    intro byte hbyte
    rcases List.mem_append.mp hbyte with hbyte | hbyte
    · exact ih _ byte hbyte
    · obtain rfl := List.mem_singleton.mp hbyte
      exact isDigit_digit (Nat.mod_lt _ (by decide))

@[simp] theorem length_paddedDigits (places n : Nat) : (paddedDigits places n).length = places := by
  induction places generalizing n with
  | zero => rfl
  | succ places ih => simp [paddedDigits, ih]

/-- Digits with more digits behind them. -/
theorem digitsValue_append_paddedDigits (digits : List (BitVec 8)) (places n : Nat) :
    digitsValue (digits ++ paddedDigits places n) =
      digitsValue digits * 10 ^ places + n % 10 ^ places := by
  induction places generalizing n with
  | zero => simp [paddedDigits, Nat.mod_one]
  | succ places ih =>
    have hfold := ih (n / 10)
    unfold digitsValue at hfold ⊢
    rw [paddedDigits, ← List.append_assoc, List.foldl_append, hfold]
    simp only [List.foldl_cons, List.foldl_nil, toNat_digit (Nat.mod_lt n (by decide : 0 < 10))]
    have hsplit : n % 10 ^ (places + 1) = 10 * (n / 10 % 10 ^ places) + n % 10 := by
      rw [Nat.pow_succ, Nat.mul_comm, Nat.mod_mul]
      omega
    rw [hsplit, Nat.pow_succ]
    ring_nf
    omega

/-- A sign is neither a blank nor a digit. -/
theorem splitSign_signed (negative : Bool) {digits : List (BitVec 8)} (hne : digits ≠ [])
    (hdigits : ∀ byte ∈ digits, isDigit byte = true) (rest : List (BitVec 8)) :
    splitSign (((if negative then [45#8] else []) ++ (digits ++ rest)).dropWhile isSpace) =
      (negative, digits ++ rest) := by
  cases negative with
  | false => exact splitSign_of_digits hne hdigits rest
  | true =>
    rw [if_pos rfl, List.singleton_append, List.dropWhile_cons_of_neg (by decide)]
    rfl

/-- The reader finds the number that was printed. -/
theorem scanFixed_fixedText (negative : Bool) (places n : Nat)
    {rest : List (BitVec 8)} (hrest : rest.takeWhile isDigit = []) :
    scanFixed (fixedText negative places n ++ rest) = some (⟨negative, n, places⟩, rest) := by
  have hwhole : ∀ byte ∈ decimalText (n / 10 ^ places), isDigit byte = true :=
    decimalDigits_isDigit _ _
  have hfraction := paddedDigits_isDigit places (n % 10 ^ places)
  have hdrop : rest.dropWhile isDigit = rest := by
    have hsplit := List.takeWhile_append_dropWhile (p := isDigit) (l := rest)
    rwa [hrest] at hsplit
  have hvalue : digitsValue (decimalText (n / 10 ^ places) ++
      paddedDigits places (n % 10 ^ places)) = n := by
    rw [digitsValue_append_paddedDigits, digitsValue_decimalText, Nat.mod_mod]
    exact Nat.div_add_mod' n (10 ^ places)
  have hne : decimalText (n / 10 ^ places) ++ paddedDigits places (n % 10 ^ places) ≠ [] := by
    simp [decimalText_ne_nil]
  unfold scanFixed fixedText
  rw [List.append_assoc, List.append_assoc, splitSign_signed negative (decimalText_ne_nil _) hwhole]
  dsimp only
  rw [List.takeWhile_append_of_pos hwhole, List.dropWhile_append_of_pos hwhole, List.cons_append,
    List.takeWhile_cons_of_neg (by decide), List.dropWhile_cons_of_neg (by decide)]
  split
  · next tail htail =>
    obtain ⟨-, rfl⟩ := List.cons.inj htail
    rw [List.takeWhile_append_of_pos hfraction, List.dropWhile_append_of_pos hfraction, hrest,
      hdrop, List.append_nil, List.append_nil, if_neg hne, hvalue, length_paddedDigits]
  · next hpoint => exact absurd rfl (hpoint _)

end EspMiner.Library
