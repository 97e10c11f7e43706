import EspMiner.Asic.Job

/-!
# Mining arithmetic

`components/stratum/mining.c`: stepping a block version through the bits of a
negotiated mask, and what a nonce is worth.
-/

namespace EspMiner

/-- `increment_bitmask` -/
def incrementBitmask (value mask : U32) : U32 :=
  (value &&& ~~~mask) ||| (((value ||| ~~~mask) + 1#32) &&& mask)

/-- `mining_test_nonce_value`, with the double hash and `hash_to_pdiff` given. -/
def miningTestNonceValue {α : Type} (doubleSha256Bin : List U8 → List U8)
    (hashToPdiff : List U8 → α) (template : AsicJob) (nonce finalNtime finalVersion : U32) : α :=
  let resolved := { template with ntime := finalNtime }
  hashToPdiff (doubleSha256Bin (asicJobHeader resolved nonce finalVersion))

end EspMiner
