import EspMiner.Library.LittleEndian
import EspMiner.Stratum.Sv2Protocol

/-!
# Extended jobs on the wire

What `sv2_parse_new_extended_mining_job` accepts, byte by byte.  A message is read from its encoding
and from nothing shorter, and a coinbase that does not fit is the one failure that changes the job:
the values are written first and the parts of the coinbase last.
-/

namespace EspMiner

open Library

/-! ## Fields at a position -/

section Fields

variable {payload rest : List U8} {pos : Nat}

/-- The bytes of a field at the start of a region. -/
theorem getD_append_region {field : List U8} (h : payload.drop pos = field ++ rest) {i : Nat}
    (hi : i < field.length) : payload.getD (pos + i) 0 = field[i] := by
  rw [getD_of_drop_eq h, List.getD_append _ _ _ _ hi, List.getD_eq_getElem _ _ hi]

theorem readU16Le_of_region {field : List U8} (h : payload.drop pos = field ++ rest)
    (hfield : field.length = 2) : (readU16Le payload pos).toNat = leValue field := by
  have hfold := toNat_foldl_or_shiftLeft (w := 16) field
    (fun i => payload.getD (pos + i) 0) (fun i hi => getD_append_region h hi)
    (by rw [hfield])
  rw [hfield] at hfold
  rw [← hfold]
  simp [readU16Le, List.range_succ]

theorem readU32Le_of_region {field : List U8} (h : payload.drop pos = field ++ rest)
    (hfield : field.length = 4) : (readU32Le payload pos).toNat = leValue field := by
  have hfold := toNat_foldl_or_shiftLeft (w := 32) field
    (fun i => payload.getD (pos + i) 0) (fun i hi => getD_append_region h hi)
    (by rw [hfield])
  rw [hfield] at hfold
  rw [← hfold]
  simp [readU32Le, List.range_succ]

theorem readHash_of_region {hash : Vector U8 32} (h : payload.drop pos = hash.toList ++ rest) :
    readHash payload pos = hash := by
  ext i hi
  have hlt : i < hash.toList.length := by rwa [Vector.length_toList]
  rw [readHash, Vector.getElem_ofFn, getD_append_region h hlt, Vector.getElem_toList]

theorem readU32Le_leBytes {value : U32} (h : payload.drop pos = leBytes 4 value.toNat ++ rest) :
    readU32Le payload pos = value := by
  apply BitVec.eq_of_toNat_eq
  rw [readU32Le_of_region h (length_leBytes _ _), leValue_leBytes_of_lt value.isLt]

/-- A number that lies inside the payload stands there. -/
theorem region_readU32Le (payload : List U8) (pos : Nat) (h : pos + 4 ≤ payload.length) :
    payload.drop pos = leBytes 4 (readU32Le payload pos).toNat ++ payload.drop (pos + 4) := by
  have hfour : ((payload.drop pos).take 4).length = 4 := by
    rw [List.length_take, List.length_drop]
    omega
  have hregion : payload.drop pos = (payload.drop pos).take 4 ++ payload.drop (pos + 4) := by
    rw [← List.drop_drop, List.take_append_drop]
  rw [readU32Le_of_region hregion hfour]
  have hbytes := leBytes_leValue ((payload.drop pos).take 4)
  rw [hfour] at hbytes
  rw [hbytes, ← hregion]

theorem region_readHash (payload : List U8) (pos : Nat) (h : pos + 32 ≤ payload.length) :
    payload.drop pos = (readHash payload pos).toList ++ payload.drop (pos + 32) := by
  have hlength : ((payload.drop pos).take 32).length = 32 := by
    rw [List.length_take, List.length_drop]
    omega
  have hregion : payload.drop pos = (⟨((payload.drop pos).take 32).toArray, hlength⟩ :
      Vector U8 32).toList ++ payload.drop (pos + 32) := by
    rw [← List.drop_drop]
    exact (List.take_append_drop 32 _).symm
  rw [readHash_of_region hregion]
  exact hregion

theorem region_byte (payload : List U8) (pos : Nat) (h : pos < payload.length) :
    payload.drop pos = payload.getD pos 0 :: payload.drop (pos + 1) := by
  rw [List.drop_eq_getElem_cons h, List.getD_eq_getElem _ _ h]

/-- A counted field is read from its bytes. -/
theorem readB064K_of_region {data : List U8} (hdata : data.length < 2 ^ 16)
    (h : payload.drop pos = leBytes 2 data.length ++ (data ++ rest)) :
    readB064K payload pos = some (data, pos + 2 + data.length) := by
  have hlength := congrArg List.length h
  simp only [List.length_drop, List.length_append, length_leBytes] at hlength
  have hcount : (readU16Le payload pos).toNat = data.length := by
    rw [readU16Le_of_region h (length_leBytes _ _), leValue_leBytes_of_lt hdata]
  have hbody : payload.drop (pos + 2) = data ++ rest := by
    rw [← List.drop_drop, h, List.drop_left' (length_leBytes _ _)]
  unfold readB064K
  dsimp only
  rw [if_neg (by omega), hcount, if_neg (by omega), hbody, List.take_left]

/-- A counted field that was read stands there. -/
theorem region_readB064K {data : List U8} {next : Nat}
    (h : readB064K payload pos = some (data, next)) :
    payload.drop pos = leBytes 2 data.length ++ (data ++ payload.drop next) ∧
      data.length < 2 ^ 16 ∧ next = pos + 2 + data.length := by
  unfold readB064K at h
  dsimp only at h
  split at h
  · cases h
  · next hcount =>
    split at h
    · cases h
    · next hdata =>
      obtain ⟨rfl, rfl⟩ := Prod.mk.inj (Option.some.inj h)
      have htwo : ((payload.drop pos).take 2).length = 2 := by
        rw [List.length_take, List.length_drop]
        omega
      have hregion : payload.drop pos = (payload.drop pos).take 2 ++ payload.drop (pos + 2) := by
        rw [← List.drop_drop, List.take_append_drop]
      have hvalue := readU16Le_of_region hregion htwo
      have hlength : ((payload.drop (pos + 2)).take (readU16Le payload pos).toNat).length =
          (readU16Le payload pos).toNat := by
        rw [List.length_take, List.length_drop]
        omega
      have hbytes := leBytes_leValue ((payload.drop pos).take 2)
      rw [htwo, ← hvalue] at hbytes
      rw [hlength]
      refine ⟨?_, (readU16Le payload pos).isLt, rfl⟩
      conv_lhs => rw [hregion]
      rw [hbytes, ← List.drop_drop (i := (readU16Le payload pos).toNat), List.take_append_drop]

theorem length_flatMap_toList (path : List (Vector U8 32)) :
    (path.flatMap (·.toList)).length = path.length * 32 := by
  induction path with
  | nil => rfl
  | cons hash path ih =>
    rw [List.flatMap_cons, List.length_append, ih, hash.length_toList, List.length_cons]
    omega

/-- Branches are read from their bytes. -/
theorem readHashes_of_region {path : List (Vector U8 32)}
    (h : payload.drop pos = path.flatMap (·.toList) ++ rest) :
    ((List.range path.length).map fun i => readHash payload (pos + i * 32)) = path := by
  induction path generalizing pos with
  | nil => rfl
  | cons hash path ih =>
    rw [List.flatMap_cons, List.append_assoc] at h
    have hnext : payload.drop (pos + 32) = path.flatMap (·.toList) ++ rest := by
      rw [← List.drop_drop, h, List.drop_left' hash.length_toList]
    have hrest := ih hnext
    rw [List.length_cons, List.range_succ_eq_map, List.map_cons, List.map_map, Nat.zero_mul,
      Nat.add_zero, readHash_of_region h]
    refine congrArg (hash :: ·) ((List.map_congr_left fun i _ => ?_).trans hrest)
    rw [Function.comp_apply, Nat.succ_mul, Nat.add_comm (i * 32), ← Nat.add_assoc]

/-- Branches that lie inside the payload stand there. -/
theorem region_readHashes (payload : List U8) (pos count : Nat)
    (h : pos + count * 32 ≤ payload.length) :
    payload.drop pos =
      ((List.range count).map fun i => readHash payload (pos + i * 32)).flatMap (·.toList) ++
        payload.drop (pos + count * 32) := by
  induction count with
  | zero => simp
  | succ count ih =>
    rw [ih (by omega), List.range_succ, List.map_append, List.flatMap_append,
      region_readHash payload (pos + count * 32) (by omega)]
    simp only [List.map_singleton, List.flatMap_singleton, List.append_assoc]
    rw [Nat.succ_mul, ← Nat.add_assoc]

end Fields

/-! ## The message as bytes -/

namespace Sv2NewExtendedMiningJob

/-- The message behind its option, for any byte that stands for the flag. -/
def body (message : Sv2NewExtendedMiningJob) (rolling : U8) : List U8 :=
  leBytes 4 message.version.toNat ++ rolling :: BitVec.ofNat 8 message.merklePath.length ::
    (message.merklePath.flatMap (·.toList) ++
      (leBytes 2 message.coinbasePrefix.length ++ (message.coinbasePrefix ++
        (leBytes 2 message.coinbaseSuffix.length ++ message.coinbaseSuffix))))

/-- The message for any bytes that stand for its option and its flag. -/
def wire (message : Sv2NewExtendedMiningJob) (option rolling : U8) : List U8 :=
  leBytes 4 message.channelId.toNat ++ (leBytes 4 message.jobId.toNat ++ option ::
    ((match message.minNtime with
      | none => []
      | some ntime => leBytes 4 ntime.toNat) ++ message.body rolling))

/-- The encoding of a message. -/
def encode (message : Sv2NewExtendedMiningJob) : List U8 :=
  message.wire (if message.minNtime.isSome then 1 else 0)
    (if message.versionRollingAllowed then 1 else 0)

/-- The fields are as long as their counts can say, and the two bytes stand for the
option and the flag. -/
structure WireFor (message : Sv2NewExtendedMiningJob) (option rolling : U8) : Prop where
  option : option = 1 ↔ message.minNtime.isSome = true
  rolling : message.versionRollingAllowed = decide (rolling ≠ 0)
  branches : message.merklePath.length ≤ MAX_MERKLE_BRANCHES
  prefixSized : message.coinbasePrefix.length < 2 ^ 16
  suffixSized : message.coinbaseSuffix.length < 2 ^ 16

end Sv2NewExtendedMiningJob

/-- The rest of the reading half, behind the option. -/
def sv2ReadBody (payload : List U8) (pos : Nat) (minNtime : Option U32) :
    Option Sv2NewExtendedMiningJob :=
  if payload.length < pos + 4 + 1 then none
  else if payload.length < pos + 5 + 1 then none
  else
    let merkleCount := (payload.getD (pos + 5) 0).toNat
    if MAX_MERKLE_BRANCHES < merkleCount then none
    else if payload.length < pos + 6 + merkleCount * 32 then none
    else
      match readB064K payload (pos + 6 + merkleCount * 32) with
      | none => none
      | some (coinbasePrefix, suffixPos) =>
        match readB064K payload suffixPos with
        | none => none
        | some (coinbaseSuffix, _) => some {
            channelId := readU32Le payload 0
            jobId := readU32Le payload 4
            minNtime := minNtime
            version := readU32Le payload pos
            versionRollingAllowed := decide (payload.getD (pos + 4) 0 ≠ 0)
            merklePath := (List.range merkleCount).map fun i =>
              readHash payload (pos + 6 + i * 32)
            coinbasePrefix := coinbasePrefix
            coinbaseSuffix := coinbaseSuffix }

theorem sv2ReadNewExtendedMiningJob_eq (payload : List U8) :
    sv2ReadNewExtendedMiningJob payload =
      if payload.length < 19 then none
      else if payload.getD 8 0 = 1 then sv2ReadBody payload 13 (some (readU32Le payload 9))
      else sv2ReadBody payload 9 none := by
  unfold sv2ReadNewExtendedMiningJob
  by_cases hoption : payload.getD 8 0 = 1
  · simp only [hoption, if_true]
    rfl
  · simp only [hoption, if_false]
    rfl

section Reading

variable {payload rest : List U8} {pos : Nat} {minNtime : Option U32}
  {message : Sv2NewExtendedMiningJob} {option rolling : U8}

theorem sv2ReadBody_of_region (hwire : message.WireFor option rolling)
    (h : payload.drop pos = message.body rolling ++ rest)
    (hchannel : readU32Le payload 0 = message.channelId)
    (hjob : readU32Le payload 4 = message.jobId) (hntime : minNtime = message.minNtime) :
    sv2ReadBody payload pos minNtime = some message := by
  have hbranches : message.merklePath.length ≤ 32 := hwire.branches
  simp only [Sv2NewExtendedMiningJob.body, List.append_assoc, List.cons_append] at h
  have hversion : readU32Le payload pos = message.version := readU32Le_leBytes h
  have hflags : payload.drop (pos + 4) = rolling :: BitVec.ofNat 8 message.merklePath.length ::
      (message.merklePath.flatMap (·.toList) ++ (leBytes 2 message.coinbasePrefix.length ++
        (message.coinbasePrefix ++ (leBytes 2 message.coinbaseSuffix.length ++
          (message.coinbaseSuffix ++ rest))))) := by
    rw [← List.drop_drop, h, List.drop_left' (length_leBytes _ _)]
  have hrolling : payload.getD (pos + 4) 0 = rolling :=
    @getD_append_region payload _ (pos + 4) [rolling] hflags 0 (by simp)
  have hcount : payload.getD (pos + 5) 0 = BitVec.ofNat 8 message.merklePath.length :=
    @getD_append_region payload _ (pos + 4) [rolling, BitVec.ofNat 8 message.merklePath.length]
      hflags 1 (by simp)
  have hbranchCount : (BitVec.ofNat 8 message.merklePath.length).toNat =
      message.merklePath.length := by
    rw [BitVec.toNat_ofNat, Nat.mod_eq_of_lt (by omega)]
  have hpath : payload.drop (pos + 6) = message.merklePath.flatMap (·.toList) ++
      (leBytes 2 message.coinbasePrefix.length ++ (message.coinbasePrefix ++
        (leBytes 2 message.coinbaseSuffix.length ++ (message.coinbaseSuffix ++ rest)))) := by
    have : pos + 6 = pos + 4 + 2 := rfl
    rw [this, ← List.drop_drop, hflags]
    rfl
  have hpathLength : (message.merklePath.flatMap (·.toList)).length =
      message.merklePath.length * 32 := length_flatMap_toList _
  have hpre : payload.drop (pos + 6 + message.merklePath.length * 32) =
      leBytes 2 message.coinbasePrefix.length ++ (message.coinbasePrefix ++
        (leBytes 2 message.coinbaseSuffix.length ++ (message.coinbaseSuffix ++ rest))) := by
    rw [← List.drop_drop, hpath, List.drop_left' hpathLength]
  have hsuffix : payload.drop (pos + 6 + message.merklePath.length * 32 + 2 +
      message.coinbasePrefix.length) =
      leBytes 2 message.coinbaseSuffix.length ++ (message.coinbaseSuffix ++ rest) := by
    rw [← List.drop_drop, ← List.drop_drop, hpre, List.drop_left' (length_leBytes _ _),
      List.drop_left]
  have hlength := congrArg List.length hpath
  simp only [List.length_drop, List.length_append, length_leBytes, hpathLength] at hlength
  unfold sv2ReadBody
  dsimp only
  rw [if_neg (by omega), if_neg (by omega), hcount, hbranchCount,
    if_neg (Nat.not_lt.mpr hwire.branches), if_neg (by omega),
    readB064K_of_region hwire.prefixSized hpre]
  dsimp only
  rw [readB064K_of_region hwire.suffixSized hsuffix]
  dsimp only
  rw [readHashes_of_region hpath, hrolling, ← hwire.rolling, hversion, hchannel, hjob, hntime]

/-- Whatever follows, a message is read from its bytes. -/
theorem sv2Read_wire (hwire : message.WireFor option rolling) (rest : List U8) :
    sv2ReadNewExtendedMiningJob (message.wire option rolling ++ rest) = some message := by
  generalize hpayload : message.wire option rolling ++ rest = payload
  simp only [Sv2NewExtendedMiningJob.wire, List.append_assoc, List.cons_append] at hpayload
  generalize htail : (match message.minNtime with
      | none => []
      | some ntime => leBytes 4 ntime.toNat) ++ (message.body rolling ++ rest) = tail at hpayload
  have hbody : 10 ≤ (message.body rolling).length := by
    simp only [Sv2NewExtendedMiningJob.body, List.length_append, length_leBytes, List.length_cons]
    omega
  have hstart : payload.drop 0 =
      leBytes 4 message.channelId.toNat ++ (leBytes 4 message.jobId.toNat ++ option :: tail) :=
    hpayload.symm
  have hfour : payload.drop 4 = leBytes 4 message.jobId.toNat ++ option :: tail := by
    rw [← hpayload, List.drop_left' (length_leBytes _ _)]
  have height : payload.drop 8 = [option] ++ tail := by
    rw [← List.drop_drop (i := 4) (j := 4), hfour, List.drop_left' (length_leBytes _ _)]
    rfl
  have hnine : payload.drop 9 = tail := by
    rw [← List.drop_drop (i := 1) (j := 8), height]
    rfl
  have hoption : payload.getD 8 0 = option := getD_append_region (i := 0) height (by simp)
  have hlength := congrArg List.length hnine
  rw [List.length_drop] at hlength
  rw [sv2ReadNewExtendedMiningJob_eq, hoption]
  cases hntime : message.minNtime with
  | none =>
    rw [hntime] at htail
    have hflag : option ≠ 1 := fun hone => by
      have := hwire.option.mp hone
      rw [hntime] at this
      cases this
    have htailLength := congrArg List.length htail
    simp only [List.nil_append, List.length_append] at htailLength
    rw [if_neg (by omega), if_neg hflag]
    exact sv2ReadBody_of_region hwire (hnine.trans htail.symm) (readU32Le_leBytes hstart)
      (readU32Le_leBytes hfour) hntime.symm
  | some ntime =>
    rw [hntime] at htail
    have hflag : option = 1 := hwire.option.mpr (by rw [hntime]; rfl)
    have hregion : payload.drop 9 = leBytes 4 ntime.toNat ++ (message.body rolling ++ rest) :=
      hnine.trans htail.symm
    have hthirteen : payload.drop 13 = message.body rolling ++ rest := by
      rw [← List.drop_drop (i := 4) (j := 9), hregion, List.drop_left' (length_leBytes _ _)]
    have htailLength := congrArg List.length htail
    simp only [List.length_append, length_leBytes] at htailLength
    rw [if_neg (by omega), if_pos hflag, readU32Le_leBytes hregion]
    exact sv2ReadBody_of_region hwire hthirteen (readU32Le_leBytes hstart)
      (readU32Le_leBytes hfour) hntime.symm

/-- What was read behind the option stands there. -/
theorem region_sv2ReadBody (h : sv2ReadBody payload pos minNtime = some message) :
    ∃ rolling rest, payload.drop pos = message.body rolling ++ rest ∧
      message.versionRollingAllowed = decide (rolling ≠ 0) ∧
      message.merklePath.length ≤ MAX_MERKLE_BRANCHES ∧
      message.coinbasePrefix.length < 2 ^ 16 ∧ message.coinbaseSuffix.length < 2 ^ 16 ∧
      message.channelId = readU32Le payload 0 ∧ message.jobId = readU32Le payload 4 ∧
      message.minNtime = minNtime := by
  unfold sv2ReadBody at h
  dsimp only at h
  split at h
  · cases h
  · next hversion =>
    split at h
    · cases h
    · next hcount =>
      split at h
      · cases h
      · next hbranches =>
        split at h
        · cases h
        · next hpath =>
          split at h
          · cases h
          · next coinbasePrefix suffixPos hpre =>
            split at h
            · cases h
            · next coinbaseSuffix next hsuffix =>
              obtain rfl := Option.some.inj h
              obtain ⟨hprefixRegion, hprefixSized, rfl⟩ := region_readB064K hpre
              obtain ⟨hsuffixRegion, hsuffixSized, -⟩ := region_readB064K hsuffix
              have hcountByte : BitVec.ofNat 8 (payload.getD (pos + 5) 0).toNat =
                  payload.getD (pos + 5) 0 := by rw [BitVec.ofNat_toNat, BitVec.setWidth_eq]
              have hbranchesRegion := region_readHashes payload (pos + 6)
                (payload.getD (pos + 5) 0).toNat (by omega)
              have hregion := region_readU32Le payload pos (by omega)
              rw [region_byte payload (pos + 4) (by omega),
                region_byte payload (pos + 4 + 1) (by omega),
                hbranchesRegion, hprefixRegion, hsuffixRegion] at hregion
              refine ⟨payload.getD (pos + 4) 0, payload.drop next, ?_, rfl, ?_, hprefixSized,
                hsuffixSized, rfl, rfl, rfl⟩
              · rw [hregion, Sv2NewExtendedMiningJob.body]
                simp only [List.length_map, List.length_range, hcountByte, List.append_assoc,
                  List.cons_append]
              · rw [List.length_map, List.length_range]
                exact Nat.le_of_not_lt hbranches

/-- What was read stands at the front of the payload. -/
theorem wire_of_sv2Read (h : sv2ReadNewExtendedMiningJob payload = some message) :
    ∃ option rolling rest, payload = message.wire option rolling ++ rest ∧
      message.WireFor option rolling := by
  rw [sv2ReadNewExtendedMiningJob_eq] at h
  split at h
  · cases h
  · next hshort =>
    have hstart := region_readU32Le payload 0 (by omega)
    rw [region_readU32Le payload (0 + 4) (by omega),
      region_byte payload (0 + 4 + 4) (by omega)] at hstart
    split at h
    · next hoption =>
      obtain ⟨rolling, rest, hbody, hrolling, hbranches, hpre, hsuffix, hchannel, hjob,
        hntime⟩ := region_sv2ReadBody h
      have hflag : payload.getD 8 0 = 1 ↔ message.minNtime.isSome = true :=
        ⟨fun _ => by rw [hntime]; rfl, fun _ => hoption⟩
      refine ⟨payload.getD 8 0, rolling, rest, ?_, hflag, hrolling, hbranches, hpre, hsuffix⟩
      have hregion := region_readU32Le payload 9 (by omega)
      calc payload = payload.drop 0 := rfl
        _ = _ := by
          rw [hstart, hregion, hbody, Sv2NewExtendedMiningJob.wire, hchannel, hjob, hntime]
          simp only [List.append_assoc, List.cons_append]
    · next hoption =>
      obtain ⟨rolling, rest, hbody, hrolling, hbranches, hpre, hsuffix, hchannel, hjob,
        hntime⟩ := region_sv2ReadBody h
      have hflag : payload.getD 8 0 = 1 ↔ message.minNtime.isSome = true :=
        ⟨fun hone => absurd hone hoption, fun hsome => by rw [hntime] at hsome; cases hsome⟩
      refine ⟨payload.getD 8 0, rolling, rest, ?_, hflag, hrolling, hbranches, hpre, hsuffix⟩
      calc payload = payload.drop 0 := rfl
        _ = _ := by
          rw [hstart, hbody, Sv2NewExtendedMiningJob.wire, hchannel, hjob, hntime]
          simp only [List.append_assoc, List.cons_append, List.nil_append]

theorem length_wire (option rolling option' rolling' : U8) :
    (message.wire option rolling).length = (message.wire option' rolling').length := by
  simp only [Sv2NewExtendedMiningJob.wire, Sv2NewExtendedMiningJob.body, List.length_append,
    List.length_cons]

/-- **Nothing shorter than the message is read.** -/
theorem sv2Read_truncated (hwire : message.WireFor option rolling)
    (hpre : payload <+: message.wire option rolling)
    (hne : payload ≠ message.wire option rolling) :
    sv2ReadNewExtendedMiningJob payload = none := by
  obtain ⟨rest, hrest⟩ := hpre
  by_contra hsome
  obtain ⟨found, hfound⟩ := Option.ne_none_iff_exists'.mp hsome
  obtain ⟨option', rolling', more, hpayload, hfoundWire⟩ := wire_of_sv2Read hfound
  have hboth : some message = some found := by
    rw [← sv2Read_wire hwire [], List.append_nil, ← hrest, hpayload, List.append_assoc,
      sv2Read_wire hfoundWire]
  obtain rfl := Option.some.inj hboth
  have hlength := congrArg List.length hrest
  rw [List.length_append, hpayload, List.length_append,
    length_wire option' rolling' option rolling] at hlength
  have hnil : rest = [] := List.length_eq_zero_iff.mp (by omega)
  exact hne (by rw [← hrest, hnil, List.append_nil])

theorem wireFor_encode (hbranches : message.merklePath.length ≤ MAX_MERKLE_BRANCHES)
    (hpre : message.coinbasePrefix.length < 2 ^ 16)
    (hsuffix : message.coinbaseSuffix.length < 2 ^ 16) :
    message.WireFor (if message.minNtime.isSome then 1 else 0)
      (if message.versionRollingAllowed then 1 else 0) := by
  refine ⟨?_, ?_, hbranches, hpre, hsuffix⟩
  · cases message.minNtime.isSome <;> decide
  · cases message.versionRollingAllowed <;> decide

end Reading

/-! ## Reads inside the payload -/

/-- A byte of the payload; `none` is a read outside it. -/
def u8Inside (payload : List U8) (pos : Nat) : Option U8 :=
  if pos < payload.length then some (payload.getD pos 0) else none

/-- `read_u16_le`, byte by byte. -/
def u16Inside (payload : List U8) (pos : Nat) : Option U16 := do
  let low ← u8Inside payload pos
  let high ← u8Inside payload (pos + 1)
  return low.setWidth 16 ||| (high.setWidth 16 <<< 8)

/-- `read_u32_le`, byte by byte. -/
def u32Inside (payload : List U8) (pos : Nat) : Option U32 := do
  let first ← u8Inside payload pos
  let second ← u8Inside payload (pos + 1)
  let third ← u8Inside payload (pos + 2)
  let fourth ← u8Inside payload (pos + 3)
  return first.setWidth 32 ||| (second.setWidth 32 <<< 8) ||| (third.setWidth 32 <<< 16) |||
    (fourth.setWidth 32 <<< 24)

/-- The 32 bytes that `memcpy` takes. -/
def hashInside (payload : List U8) (pos : Nat) : Option (Vector U8 32) :=
  if pos + 32 ≤ payload.length then some (readHash payload pos) else none

/-- Bytes that `memcpy` takes. -/
def sliceInside (payload : List U8) (pos count : Nat) : Option (List U8) :=
  if pos + count ≤ payload.length then some ((payload.drop pos).take count) else none

/-- `readB064K` with its reads inside the payload. -/
def b064KInside (payload : List U8) (pos : Nat) : Option (Option (List U8 × Nat)) :=
  if payload.length < pos + 2 then some none
  else do
    let len ← u16Inside payload pos
    if payload.length < pos + 2 + len.toNat then return none
    let data ← sliceInside payload (pos + 2) len.toNat
    return some (data, pos + 2 + len.toNat)

/-- The value behind the option's flag. -/
def minNtimeInside (payload : List U8) (optionFlag : U8) : Option (Option U32) :=
  if optionFlag = 1 then (u32Inside payload 9).map some else some none

/-- The reading half of the parser with every read checked against the length of the
payload: `none` when one lies outside. -/
def sv2ReadNewExtendedMiningJobInside (payload : List U8) :
    Option (Option Sv2NewExtendedMiningJob) :=
  if payload.length < 19 then some none
  else do
    let channelId ← u32Inside payload 0
    let jobId ← u32Inside payload 4
    let optionFlag ← u8Inside payload 8
    let minNtime ← minNtimeInside payload optionFlag
    let pos := if optionFlag = 1 then 13 else 9
    if payload.length < pos + 4 + 1 then return none
    let version ← u32Inside payload pos
    let rolling ← u8Inside payload (pos + 4)
    if payload.length < pos + 5 + 1 then return none
    let merkleCount ← u8Inside payload (pos + 5)
    if MAX_MERKLE_BRANCHES < merkleCount.toNat then return none
    if payload.length < pos + 6 + merkleCount.toNat * 32 then return none
    let merklePath ← (List.range merkleCount.toNat).mapM fun i =>
      hashInside payload (pos + 6 + i * 32)
    match ← b064KInside payload (pos + 6 + merkleCount.toNat * 32) with
    | none => return none
    | some (coinbasePrefix, suffixPos) =>
      match ← b064KInside payload suffixPos with
      | none => return none
      | some (coinbaseSuffix, _) => return some {
          channelId := channelId
          jobId := jobId
          minNtime := minNtime
          version := version
          versionRollingAllowed := decide (rolling ≠ 0)
          merklePath := merklePath
          coinbasePrefix := coinbasePrefix
          coinbaseSuffix := coinbaseSuffix }

section Inside

variable {payload : List U8} {pos : Nat}

theorem u8Inside_of_lt (h : pos < payload.length) :
    u8Inside payload pos = some (payload.getD pos 0) := if_pos h

theorem u32Inside_of_le (h : pos + 4 ≤ payload.length) :
    u32Inside payload pos = some (readU32Le payload pos) := by
  unfold u32Inside
  rw [u8Inside_of_lt (by omega), u8Inside_of_lt (by omega), u8Inside_of_lt (by omega),
    u8Inside_of_lt (by omega)]
  rfl

theorem u16Inside_of_le (h : pos + 2 ≤ payload.length) :
    u16Inside payload pos = some (readU16Le payload pos) := by
  unfold u16Inside
  rw [u8Inside_of_lt (by omega), u8Inside_of_lt (by omega)]
  rfl

theorem b064KInside_eq : b064KInside payload pos = some (readB064K payload pos) := by
  unfold b064KInside readB064K
  split
  · rfl
  · rw [u16Inside_of_le (by omega), Option.bind_eq_bind, Option.bind_some]
    dsimp only
    split
    · rfl
    · rw [sliceInside, if_pos (by omega)]
      rfl

theorem mapM_eq_some {α β : Type} {read : α → Option β} {value : α → β} {items : List α}
    (h : ∀ item ∈ items, read item = some (value item)) :
    items.mapM read = some (items.map value) := by
  induction items with
  | nil => rfl
  | cons item items ih =>
    rw [List.mapM_cons, h item List.mem_cons_self,
      ih fun item hitem => h item (List.mem_cons_of_mem _ hitem)]
    rfl

/-- No payload makes the parser read beside it. -/
theorem sv2ReadNewExtendedMiningJobInside_eq (payload : List U8) :
    sv2ReadNewExtendedMiningJobInside payload = some (sv2ReadNewExtendedMiningJob payload) := by
  unfold sv2ReadNewExtendedMiningJobInside sv2ReadNewExtendedMiningJob
  split
  · rfl
  · next hshort =>
    rw [u32Inside_of_le (by omega), u32Inside_of_le (by omega), u8Inside_of_lt (by omega)]
    have hntime : minNtimeInside payload (payload.getD 8 0) =
        some (if payload.getD 8 0 = 1 then some (readU32Le payload 9) else none) := by
      rw [minNtimeInside, u32Inside_of_le (by omega)]
      split_ifs <;> rfl
    dsimp only [Option.bind_eq_bind, Option.bind_some]
    rw [hntime, Option.bind_some]
    generalize (if payload.getD 8 0 = 1 then 13 else 9) = pos
    by_cases hversion : payload.length < pos + 4 + 1
    · rw [if_pos hversion, if_pos hversion]
      rfl
    rw [if_neg hversion, if_neg hversion, u32Inside_of_le (by omega), u8Inside_of_lt (by omega),
      Option.bind_some, Option.bind_some]
    by_cases hcount : payload.length < pos + 5 + 1
    · rw [if_pos hcount, if_pos hcount]
      rfl
    rw [if_neg hcount, if_neg hcount, u8Inside_of_lt (by omega), Option.bind_some]
    generalize (payload.getD (pos + 5) 0).toNat = merkleCount
    by_cases hbranches : MAX_MERKLE_BRANCHES < merkleCount
    · rw [if_pos hbranches, if_pos hbranches]
      rfl
    rw [if_neg hbranches, if_neg hbranches]
    by_cases hpath : payload.length < pos + 6 + merkleCount * 32
    · rw [if_pos hpath, if_pos hpath]
      rfl
    have hpaths : (List.range merkleCount).mapM (fun i => hashInside payload (pos + 6 + i * 32)) =
        some ((List.range merkleCount).map fun i => readHash payload (pos + 6 + i * 32)) := by
      refine mapM_eq_some fun i hi => if_pos ?_
      have hlt : i < merkleCount := List.mem_range.mp hi
      omega
    rw [if_neg hpath, if_neg hpath, hpaths, Option.bind_some, b064KInside_eq, Option.bind_some]
    cases readB064K payload _ with
    | none => rfl
    | some field =>
      dsimp only
      rw [b064KInside_eq, Option.bind_some]
      cases readB064K payload _ with
      | none => rfl
      | some field => rfl

end Inside

/-! ## The parser -/

/-- Both coinbase parts fit the buffers of the job. -/
structure Sv2NewExtendedMiningJob.Fits (message : Sv2NewExtendedMiningJob)
    (buffers : CoinbaseBuffers) : Prop where
  coinbasePrefix : fitsBuffer message.coinbasePrefix.length MAX_COINBASE_PREFIX_LEN
    buffers.prefixCapacity buffers.prefixAllocated = true
  coinbaseSuffix : fitsBuffer message.coinbaseSuffix.length MAX_COINBASE_SUFFIX_LEN
    buffers.suffixCapacity buffers.suffixAllocated = true

/-- The job with the message's prefix, before the suffix is written. -/
def Sv2NewExtendedMiningJob.withPrefix (message : Sv2NewExtendedMiningJob) : MinerJob :=
  { message.withoutCoinbase with
    coinbasePrefix := message.coinbasePrefix
    coinbasePrefixLen := BitVec.ofNat 16 message.coinbasePrefix.length }

/-- The job holds the values of the message. -/
structure MinerJob.HoldsMessage (job : MinerJob) (message : Sv2NewExtendedMiningJob) : Prop where
  type : job.type = .sv2Extended
  jobId : job.jobId = strcpyZeroed 32 (decimalText message.jobId.toNat)
  version : job.version = message.version
  ntime : job.ntime = message.minNtime.getD 0
  cleanJobs : job.cleanJobs = message.minNtime.isSome
  merklePathCount : job.merklePathCount.toNat = message.merklePath.length
  merklePath : ∀ i (hi : i < message.merklePath.length) (hi' : i < 32),
    job.merklePath[i] = message.merklePath[i]
  coinbasePrefixLen : job.coinbasePrefixLen.toNat = message.coinbasePrefix.length
  coinbasePrefix : job.coinbasePrefix = message.coinbasePrefix
  coinbaseSuffixLen : job.coinbaseSuffixLen.toNat = message.coinbaseSuffix.length
  coinbaseSuffix : job.coinbaseSuffix = message.coinbaseSuffix

/-- The payload does not start with a message whose coinbase is too large, or the job is
what that message leaves: its values without the part that does not fit. -/
def Sv2JobUndisturbed (payload : List U8) (buffers : CoinbaseBuffers) (job : MinerJob) : Prop :=
  ∀ (message : Sv2NewExtendedMiningJob) (option rolling : U8) (rest : List U8),
    message.WireFor option rolling → payload = message.wire option rolling ++ rest →
    (fitsBuffer message.coinbasePrefix.length MAX_COINBASE_PREFIX_LEN buffers.prefixCapacity
      buffers.prefixAllocated = false → job = message.withoutCoinbase) ∧
    (fitsBuffer message.coinbasePrefix.length MAX_COINBASE_PREFIX_LEN buffers.prefixCapacity
        buffers.prefixAllocated = true →
      fitsBuffer message.coinbaseSuffix.length MAX_COINBASE_SUFFIX_LEN buffers.suffixCapacity
        buffers.suffixAllocated = false → job = message.withPrefix)

section Parser

variable {payload : List U8} {buffers : CoinbaseBuffers} {job : MinerJob}
  {message : Sv2NewExtendedMiningJob}

theorem Sv2NewExtendedMiningJob.Fits.sized (h : message.Fits buffers) :
    message.coinbasePrefix.length < 2 ^ 16 ∧ message.coinbaseSuffix.length < 2 ^ 16 := by
  have hpre := h.coinbasePrefix
  have hsuffix := h.coinbaseSuffix
  simp only [fitsBuffer, Bool.and_eq_true, decide_eq_true_eq] at hpre hsuffix
  exact ⟨hpre.1.1.trans_lt (by decide), hsuffix.1.1.trans_lt (by decide)⟩

/-- A message that fits is written into the job. -/
theorem sv2Parse_of_fits (hread : sv2ReadNewExtendedMiningJob payload = some message)
    (hbranches : message.merklePath.length ≤ MAX_MERKLE_BRANCHES) (hfits : message.Fits buffers) :
    ∃ job', sv2ParseNewExtendedMiningJob payload buffers job = (some message, job') ∧
      job'.HoldsMessage message := by
  have hpath : message.merklePath.length ≤ 32 := hbranches
  obtain ⟨hpre, hsuffix⟩ := hfits.sized
  unfold sv2ParseNewExtendedMiningJob
  rw [hread]
  dsimp only
  rw [hfits.coinbasePrefix, hfits.coinbaseSuffix]
  refine ⟨_, rfl, rfl, rfl, rfl, rfl, rfl, ?_, fun i hi hi' => ?_, ?_, rfl, ?_, rfl⟩
  · show (BitVec.ofNat 8 message.merklePath.length).toNat = message.merklePath.length
    rw [BitVec.toNat_ofNat, Nat.mod_eq_of_lt (by omega)]
  · show (Vector.ofFn fun i : Fin 32 => message.merklePath.getD i (Vector.replicate 32 0))[i] = _
    rw [Vector.getElem_ofFn, List.getD_eq_getElem _ _ hi]
  · show (BitVec.ofNat 16 message.coinbasePrefix.length).toNat = message.coinbasePrefix.length
    rw [BitVec.toNat_ofNat, Nat.mod_eq_of_lt hpre]
  · show (BitVec.ofNat 16 message.coinbaseSuffix.length).toNat = message.coinbaseSuffix.length
    rw [BitVec.toNat_ofNat, Nat.mod_eq_of_lt hsuffix]

/-- The job that a failing call leaves. -/
theorem sv2Parse_unchanged_iff :
    ((sv2ParseNewExtendedMiningJob payload buffers job).1 = none →
      (sv2ParseNewExtendedMiningJob payload buffers job).2 = job) ↔
    Sv2JobUndisturbed payload buffers job := by
  unfold sv2ParseNewExtendedMiningJob
  cases hread : sv2ReadNewExtendedMiningJob payload with
  | none =>
    refine ⟨fun _ message option rolling rest hwire hpayload => ?_, fun _ _ => rfl⟩
    rw [hpayload, sv2Read_wire hwire] at hread
    cases hread
  | some message =>
    have honly : Sv2JobUndisturbed payload buffers job ↔
        (fitsBuffer message.coinbasePrefix.length MAX_COINBASE_PREFIX_LEN buffers.prefixCapacity
          buffers.prefixAllocated = false → job = message.withoutCoinbase) ∧
        (fitsBuffer message.coinbasePrefix.length MAX_COINBASE_PREFIX_LEN buffers.prefixCapacity
            buffers.prefixAllocated = true →
          fitsBuffer message.coinbaseSuffix.length MAX_COINBASE_SUFFIX_LEN buffers.suffixCapacity
            buffers.suffixAllocated = false → job = message.withPrefix) := by
      constructor
      · intro h
        obtain ⟨option, rolling, rest, hpayload, hwire⟩ := wire_of_sv2Read hread
        exact h message option rolling rest hwire hpayload
      · rintro h found option rolling rest hwire hpayload
        rw [hpayload, sv2Read_wire hwire] at hread
        obtain rfl := Option.some.inj hread
        exact h
    rw [honly]
    dsimp only
    cases fitsBuffer message.coinbasePrefix.length MAX_COINBASE_PREFIX_LEN buffers.prefixCapacity
        buffers.prefixAllocated with
    | false =>
      simp only [if_true, Bool.false_eq_true, false_implies, and_true, true_implies]
      exact eq_comm
    | true =>
      cases fitsBuffer message.coinbaseSuffix.length MAX_COINBASE_SUFFIX_LEN
          buffers.suffixCapacity buffers.suffixAllocated with
      | false =>
        simp only [Bool.true_eq_false, if_false, if_true, false_implies, true_implies, true_and]
        exact eq_comm
      | true => simp

/-- **Extended jobs are read exactly**, from their encoding and from nothing shorter; a
failing call leaves the job alone just when no coinbase is too large. -/
theorem sv2ExtendedJob_exact (payload : List U8) (buffers : CoinbaseBuffers) (job : MinerJob) :
    sv2ReadNewExtendedMiningJobInside payload = some (sv2ReadNewExtendedMiningJob payload) ∧
    (∀ (message : Sv2NewExtendedMiningJob) (rest : List U8),
      message.merklePath.length ≤ MAX_MERKLE_BRANCHES → message.Fits buffers →
      ∃ job', sv2ParseNewExtendedMiningJob (message.encode ++ rest) buffers job =
        (some message, job') ∧ job'.HoldsMessage message) ∧
    (∀ message : Sv2NewExtendedMiningJob, message.merklePath.length ≤ MAX_MERKLE_BRANCHES →
      message.Fits buffers → payload <+: message.encode → payload ≠ message.encode →
      (sv2ParseNewExtendedMiningJob payload buffers job).1 = none) ∧
    (((sv2ParseNewExtendedMiningJob payload buffers job).1 = none →
        (sv2ParseNewExtendedMiningJob payload buffers job).2 = job) ↔
      Sv2JobUndisturbed payload buffers job) := by
  refine ⟨sv2ReadNewExtendedMiningJobInside_eq payload, ?_, ?_, sv2Parse_unchanged_iff⟩
  · intro message rest hbranches hfits
    have hwire := wireFor_encode hbranches hfits.sized.1 hfits.sized.2
    exact sv2Parse_of_fits (sv2Read_wire hwire rest) hbranches hfits
  · intro message hbranches hfits hpre hne
    have hwire := wireFor_encode hbranches hfits.sized.1 hfits.sized.2
    unfold sv2ParseNewExtendedMiningJob
    rw [sv2Read_truncated hwire hpre hne]

/-- A message with a coinbase prefix and a suffix of these bytes. -/
def plainExtendedJob (coinbasePrefix coinbaseSuffix : List U8) : Sv2NewExtendedMiningJob where
  channelId := 5
  jobId := 12
  minNtime := none
  version := 0x20000000
  versionRollingAllowed := true
  merklePath := []
  coinbasePrefix := coinbasePrefix
  coinbaseSuffix := coinbaseSuffix

theorem sv2ExtendedJob_exact_of_plain :
    (∃ job', sv2ParseNewExtendedMiningJob ((plainExtendedJob [1, 2] [3]).encode ++ [4]) .full
        .zero = (some (plainExtendedJob [1, 2] [3]), job') ∧
      job'.HoldsMessage (plainExtendedJob [1, 2] [3])) ∧
    (sv2ParseNewExtendedMiningJob ((plainExtendedJob [1, 2] [3]).encode.take 20) .full .zero).1 =
      none := by
  obtain ⟨-, hread, hshort, -⟩ :=
    sv2ExtendedJob_exact ((plainExtendedJob [1, 2] [3]).encode.take 20) .full .zero
  have hfits : (plainExtendedJob [1, 2] [3]).Fits .full := ⟨by decide, by decide⟩
  exact ⟨hread _ [4] (by decide) hfits,
    hshort _ (by decide) hfits (List.take_prefix _ _) (by decide)⟩

/-- A message whose prefix has one byte more than a buffer with PSRAM holds. -/
def longPrefixJob : Sv2NewExtendedMiningJob := plainExtendedJob (List.replicate 1025 0) []

/-- The message is not taken, and the job that stood in the slot is gone. -/
theorem sv2ExtendedJob_clears_job :
    (sv2ParseNewExtendedMiningJob longPrefixJob.encode .full
      { MinerJob.zero with ntime := 1 }).1 = none ∧
    (sv2ParseNewExtendedMiningJob longPrefixJob.encode .full
      { MinerJob.zero with ntime := 1 }).2 ≠ { MinerJob.zero with ntime := 1 } := by
  have hlength : longPrefixJob.coinbasePrefix.length = 1025 := List.length_replicate
  have hwire := @wireFor_encode longPrefixJob (by decide) (by omega) (by decide)
  have hread := sv2Read_wire hwire []
  rw [List.append_nil] at hread
  have hfits : fitsBuffer longPrefixJob.coinbasePrefix.length MAX_COINBASE_PREFIX_LEN
      CoinbaseBuffers.full.prefixCapacity CoinbaseBuffers.full.prefixAllocated = false := by
    rw [hlength]
    decide
  unfold sv2ParseNewExtendedMiningJob
  rw [Sv2NewExtendedMiningJob.encode, hread]
  dsimp only
  rw [if_pos hfits]
  refine ⟨rfl, fun hsame => ?_⟩
  have hntime := congrArg MinerJob.ntime hsame
  exact absurd hntime (by decide)

end Parser

end EspMiner
