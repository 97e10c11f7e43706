import EspMiner.Library.Decimal
import EspMiner.Library.Json

/-!
# Internet addresses

IPv4 addresses as numbers in host order, their dotted quads and their subnets.
-/

namespace EspMiner.Library

/-- `htonl` and `ntohl` of a little-endian machine -/
def htonl (value : BitVec 32) : BitVec 32 :=
  value.extractLsb' 0 8 ++ value.extractLsb' 8 8 ++ value.extractLsb' 16 8 ++
    value.extractLsb' 24 8

theorem getLsbD_htonl (value : BitVec 32) {i : Nat} (hi : i < 32) :
    (htonl value).getLsbD i = value.getLsbD (24 - i / 8 * 8 + i % 8) := by
  simp only [htonl, BitVec.getLsbD_append, BitVec.getLsbD_extractLsb']
  by_cases h8 : i < 8
  · simp only [h8, if_true, decide_true, Bool.true_and]
    congr 1
    omega
  by_cases h16 : i - 8 < 8
  · simp only [h8, h16, if_true, if_false, decide_true, Bool.true_and]
    congr 1
    omega
  by_cases h24 : i - 8 - 8 < 8
  · simp only [h8, h16, h24, if_true, if_false, decide_true, Bool.true_and]
    congr 1
    omega
  · simp only [h8, h16, h24, if_false, show i - 8 - 8 - 8 < 8 by omega, decide_true,
      Bool.true_and]
    congr 1
    omega

theorem htonl_htonl (value : BitVec 32) : htonl (htonl value) = value := by
  apply BitVec.eq_of_getLsbD_eq
  intro i hi
  rw [getLsbD_htonl _ hi, getLsbD_htonl _ (by omega)]
  congr 1
  omega

/-! ## Dotted quads -/

/-- The address with these four bytes, the first of them highest -/
def ofOctets (a b c d : BitVec 8) : BitVec 32 := a ++ b ++ c ++ d

/-- One to three digits that are a byte -/
def IsOctet (digits : List (BitVec 8)) (octet : BitVec 8) : Prop :=
  digits ≠ [] ∧ digits.length ≤ 3 ∧ (∀ byte ∈ digits, isDigit byte = true) ∧
    digitsValue digits = octet.toNat

/-- A text of four bytes in decimal, with dots between them -/
def DottedQuad (text : List (BitVec 8)) (address : BitVec 32) : Prop :=
  ∃ (as bs cs ds : List (BitVec 8)) (a b c d : BitVec 8),
    IsOctet as a ∧ IsOctet bs b ∧ IsOctet cs c ∧ IsOctet ds d ∧
      text = as ++ 46#8 :: (bs ++ 46#8 :: (cs ++ 46#8 :: ds)) ∧ address = ofOctets a b c d

/-- The byte that the digits are -/
def octetOf (digits : List (BitVec 8)) : Option (BitVec 8) :=
  if digits ≠ [] ∧ digits.length ≤ 3 ∧ digits.all isDigit = true ∧ digitsValue digits < 256 then
    some (BitVec.ofNat 8 (digitsValue digits))
  else none

/-- `inet_pton` for `AF_INET`: the address in network order -/
def inetPton (text : List (BitVec 8)) : Option (BitVec 32) :=
  match text.splitOn 46#8 with
  | [as, bs, cs, ds] => do
      let a ← octetOf as
      let b ← octetOf bs
      let c ← octetOf cs
      let d ← octetOf ds
      return htonl (ofOctets a b c d)
  | _ => none

theorem octetOf_eq_some_iff {digits : List (BitVec 8)} {octet : BitVec 8} :
    octetOf digits = some octet ↔ IsOctet digits octet := by
  unfold octetOf IsOctet
  constructor
  · intro h
    split at h
    · next hdigits =>
      obtain ⟨hne, hlength, hall, hvalue⟩ := hdigits
      obtain rfl := Option.some.inj h
      exact ⟨hne, hlength, List.all_eq_true.mp hall, (Nat.mod_eq_of_lt hvalue).symm⟩
    · cases h
  · rintro ⟨hne, hlength, hall, hvalue⟩
    rw [if_pos ⟨hne, hlength, List.all_eq_true.mpr hall, by rw [hvalue]; exact octet.isLt⟩,
      hvalue, BitVec.ofNat_toNat, BitVec.setWidth_eq]

theorem IsOctet.dot_not_mem {digits : List (BitVec 8)} {octet : BitVec 8}
    (h : IsOctet digits octet) : 46#8 ∉ digits :=
  fun hdot => absurd (h.2.2.1 _ hdot) (by decide)

/-- `inet_pton` reads the dotted quads and nothing else. -/
theorem inetPton_eq_some_iff {text : List (BitVec 8)} {address : BitVec 32} :
    inetPton text = some address ↔ DottedQuad text (htonl address) := by
  constructor
  · intro h
    unfold inetPton at h
    split at h
    · next as bs cs ds hparts =>
      have htext : text = as ++ 46#8 :: (bs ++ 46#8 :: (cs ++ 46#8 :: ds)) := by
        have hjoin : [46#8].intercalate (text.splitOn 46#8) = text := List.intercalate_splitOn 46#8
        rw [← hjoin, hparts]
        simp [List.intercalate]
      simp only [Option.bind_eq_bind, Option.bind_eq_some_iff, Option.pure_def,
        Option.some.injEq, octetOf_eq_some_iff] at h
      obtain ⟨a, ha, b, hb, c, hc, d, hd, rfl⟩ := h
      exact ⟨as, bs, cs, ds, a, b, c, d, ha, hb, hc, hd, htext, htonl_htonl _⟩
    · cases h
  · rintro ⟨as, bs, cs, ds, a, b, c, d, ha, hb, hc, hd, htext, haddress⟩
    have hparts : text.splitOn 46#8 = [as, bs, cs, ds] := by
      have hjoin : text = [46#8].intercalate [as, bs, cs, ds] := by
        rw [htext]
        simp [List.intercalate]
      rw [hjoin]
      apply List.splitOn_intercalate
      · intro part hpart
        simp only [List.mem_cons, List.not_mem_nil, or_false] at hpart
        rcases hpart with rfl | rfl | rfl | rfl
        · exact ha.dot_not_mem
        · exact hb.dot_not_mem
        · exact hc.dot_not_mem
        · exact hd.dot_not_mem
      · simp
    unfold inetPton
    rw [hparts]
    simp only [octetOf_eq_some_iff.mpr ha, octetOf_eq_some_iff.mpr hb, octetOf_eq_some_iff.mpr hc,
      octetOf_eq_some_iff.mpr hd, Option.bind_eq_bind, Option.bind_some, Option.pure_def]
    rw [← haddress, htonl_htonl]

/-- A dotted quad is made of digits and dots. -/
theorem DottedQuad.mem {text : List (BitVec 8)} {address : BitVec 32}
    (h : DottedQuad text address) {byte : BitVec 8} (hbyte : byte ∈ text) :
    isDigit byte = true ∨ byte = 46#8 := by
  obtain ⟨as, bs, cs, ds, a, b, c, d, ha, hb, hc, hd, rfl, -⟩ := h
  simp only [List.mem_append, List.mem_cons] at hbyte
  rcases hbyte with hbyte | rfl | hbyte | rfl | hbyte | rfl | hbyte
  · exact .inl (ha.2.2.1 _ hbyte)
  · exact .inr rfl
  · exact .inl (hb.2.2.1 _ hbyte)
  · exact .inr rfl
  · exact .inl (hc.2.2.1 _ hbyte)
  · exact .inr rfl
  · exact .inl (hd.2.2.1 _ hbyte)

/-! ## Subnets -/

/-- The first `length` bits of the address are those of the network. -/
def InSubnet (network : BitVec 32) (length : Nat) (address : BitVec 32) : Prop :=
  address >>> (32 - length) = network >>> (32 - length)

instance (network address : BitVec 32) (length : Nat) :
    Decidable (InSubnet network length address) :=
  inferInstanceAs (Decidable (_ = _))

/-- A subnet is the range from its network on. -/
theorem inSubnet_iff {network address : BitVec 32} {length : Nat}
    (h : 2 ^ (32 - length) ∣ network.toNat) :
    InSubnet network length address ↔
      network.toNat ≤ address.toNat ∧ address.toNat < network.toNat + 2 ^ (32 - length) := by
  unfold InSubnet
  rw [BitVec.toNat_inj.symm, BitVec.toNat_ushiftRight, BitVec.toNat_ushiftRight,
    Nat.shiftRight_eq_div_pow, Nat.shiftRight_eq_div_pow]
  obtain ⟨count, hcount⟩ := h
  have hpos : 0 < 2 ^ (32 - length) := Nat.two_pow_pos _
  rw [hcount, Nat.mul_div_cancel_left _ hpos, Nat.div_eq_iff hpos, Nat.mul_comm count]
  omega

end EspMiner.Library
