import EspMiner.Bzm.SafetyStatus

/-!
# A safety status is believed only when coherent

The accepted payloads are those of the legal readings, each with the one evidence mask and the one
pair of verdicts that follow from it.  The fields are read back from their bytes first; then each
check of the decoder is one clause of `Legal`, or an equation for the mask or a verdict.
-/

namespace EspMiner

open Library

/-! ### Fields and bytes -/

theorem enumOfByte_eq_some {α : Type} {allowed : List α} {value : α → U8} {byte : U8} {member : α}
    (hinj : ∀ a ∈ allowed, ∀ b ∈ allowed, value a = value b → a = b) :
    enumOfByte allowed value byte = some member ↔ member ∈ allowed ∧ value member = byte := by
  rw [enumOfByte]
  constructor
  · intro h
    exact ⟨List.mem_of_find?_eq_some h, by simpa using List.find?_some h⟩
  · rintro ⟨hmem, rfl⟩
    cases h : allowed.find? fun other => decide (value other = value member) with
    | none =>
      rw [List.find?_eq_none] at h
      exact absurd (decide_eq_true rfl) (h member hmem)
    | some other =>
      have hvalue := List.find?_some h
      rw [decide_eq_true_eq] at hvalue
      rw [hinj other (List.mem_of_find?_eq_some h) member hmem hvalue]

theorem validSafetyStage_eq_some {byte : U8} {stage : BzmBridgeSafetyStage} :
    validSafetyStage byte = some stage ↔ stage.value = byte := by
  rw [validSafetyStage, enumOfByte_eq_some (by decide), and_iff_right]
  cases stage <;> decide

theorem validSafetyState_eq_some {byte : U8} {state : BzmBridgeSafetyState} :
    validSafetyState byte = some state ↔ state.value = byte := by
  rw [validSafetyState, enumOfByte_eq_some (by decide), and_iff_right]
  cases state <;> decide

theorem validSafetyFault_eq_some {byte : U8} {fault : BzmBridgeSafetyFault} :
    validSafetyFault byte = some fault ↔ fault ≠ .statusInvalid ∧ fault.value = byte := by
  rw [validSafetyFault, enumOfByte_eq_some (by decide)]
  refine and_congr_left fun _ => ?_
  cases fault <;> decide

theorem validRuntimeVerdict_eq_some {byte : U8} {verdict : BzmBridgeSafetyRuntimeVerdict} :
    validRuntimeVerdict byte = some verdict ↔ verdict.value = byte := by
  rw [validRuntimeVerdict, enumOfByte_eq_some (by decide), and_iff_right]
  cases verdict <;> decide

theorem validProductionVerdict_eq_some {byte : U8} {verdict : BzmBridgeSafetyProductionVerdict} :
    validProductionVerdict byte = some verdict ↔ verdict.value = byte := by
  rw [validProductionVerdict, enumOfByte_eq_some (by decide), and_iff_right]
  cases verdict <;> decide

theorem toNat_readLe16 (a b : U8) (rest : List U8) :
    (readLe16 (a :: b :: rest)).toNat = leValue [a, b] := by
  have hloop := toNat_foldl_or_shiftLeft (w := 16) [a, b] (fun i => [a, b].getD i 0)
    (fun i h => List.getD_eq_getElem _ _ h) (Nat.le_refl 16)
  rw [← hloop]
  simp [readLe16, List.range_succ]

theorem toNat_readLe32 (a b c d : U8) (rest : List U8) :
    (readLe32 (a :: b :: c :: d :: rest)).toNat = leValue [a, b, c, d] := by
  have hloop := toNat_foldl_or_shiftLeft (w := 32) [a, b, c, d] (fun i => [a, b, c, d].getD i 0)
    (fun i h => List.getD_eq_getElem _ _ h) (Nat.le_refl 32)
  rw [← hloop]
  simp [readLe32, List.range_succ]

/-- Two bytes are those of the word that is read from them. -/
theorem leBytes_readLe16 (a b : U8) (rest : List U8) :
    leBytes 2 (readLe16 (a :: b :: rest)).toNat = [a, b] := by
  rw [toNat_readLe16]
  exact leBytes_leValue [a, b]

theorem leBytes_readLe32 (a b c d : U8) (rest : List U8) :
    leBytes 4 (readLe32 (a :: b :: c :: d :: rest)).toNat = [a, b, c, d] := by
  rw [toNat_readLe32]
  exact leBytes_leValue [a, b, c, d]

/-- A word is read from its own bytes. -/
theorem readLe16_leBytes (word : U16) (rest : List U8) :
    readLe16 (leBytes 2 word.toNat ++ rest) = word := by
  apply BitVec.eq_of_toNat_eq
  calc (readLe16 (leBytes 2 word.toNat ++ rest)).toNat
      = leValue (leBytes 2 word.toNat) := toNat_readLe16 _ _ rest
    _ = word.toNat := leValue_leBytes_of_lt word.isLt

theorem readLe32_leBytes (word : U32) (rest : List U8) :
    readLe32 (leBytes 4 word.toNat ++ rest) = word := by
  apply BitVec.eq_of_toNat_eq
  calc (readLe32 (leBytes 4 word.toNat ++ rest)).toNat
      = leValue (leBytes 4 word.toNat) := toNat_readLe32 _ _ _ _ rest
    _ = word.toNat := leValue_leBytes_of_lt word.isLt

/-- The flag byte and its flags. -/
theorem outputFlags_of_known :
    ∀ flags : U8, flags &&& ~~~0x07 = 0 →
      outputFlags (decide (flags &&& 0x01 ≠ 0)) (decide (flags &&& 0x02 ≠ 0))
        (decide (flags &&& 0x04 ≠ 0)) = flags := by
  decide

theorem outputFlags_known (fiveVoltEnabled asicResetAsserted fanFull : Bool) :
    outputFlags fiveVoltEnabled asicResetAsserted fanFull &&& ~~~0x07 = 0 ∧
      decide (outputFlags fiveVoltEnabled asicResetAsserted fanFull &&& 0x01 ≠ 0) =
        fiveVoltEnabled ∧
      decide (outputFlags fiveVoltEnabled asicResetAsserted fanFull &&& 0x02 ≠ 0) =
        asicResetAsserted ∧
      decide (outputFlags fiveVoltEnabled asicResetAsserted fanFull &&& 0x04 ≠ 0) = fanFull := by
  cases fiveVoltEnabled <;> cases asicResetAsserted <;> cases fanFull <;> decide

theorem tripByte_of_known : ∀ trip : U8, ¬ 1 < trip →
    (if decide (trip ≠ 0) = true then 1 else 0) = trip := by
  decide

/-! ### Payloads and statuses -/

/-- All fields of a status are in range. -/
structure BzmBridgeSafetyStatus.Known (status : BzmBridgeSafetyStatus) : Prop where
  valid : status.valid = true
  schemaVersion : status.schemaVersion = BZM_BRIDGE_SAFETY_STATUS_SCHEMA_VERSION
  fault : status.fault ≠ .statusInvalid
  capabilities : status.capabilities &&& ~~~knownCapabilities = 0
  evidence : status.evidence &&& ~~~knownEvidence = 0
  fanPercent : status.fanPercent ≤ 100

theorem length_safetyPayload (reading : BzmBridgeSafetyReading) (schemaVersion : U8)
    (evidence : U16) (runtimeVerdict productionVerdict : U8) :
    (safetyPayload reading schemaVersion evidence runtimeVerdict productionVerdict).length =
      BZM_BRIDGE_SAFETY_STATUS_LENGTH := by
  simp [safetyPayload, BZM_BRIDGE_SAFETY_STATUS_LENGTH]

theorem length_encodeSafetyStatus (status : BzmBridgeSafetyStatus) :
    (encodeSafetyStatus status).length = BZM_BRIDGE_SAFETY_STATUS_LENGTH :=
  length_safetyPayload ..

/-- The bytes of a list of 17. -/
theorem exists_bytes_of_length {payload : List U8}
    (hlength : payload.length = BZM_BRIDGE_SAFETY_STATUS_LENGTH) :
    payload = (List.range 17).map fun i => payload.getD i 0 := by
  apply List.ext_getElem
  · rw [List.length_map, List.length_range, hlength]
    rfl
  · intro i hi _
    rw [List.getElem_map, List.getElem_range, List.getD_eq_getElem _ _ hi]

/-- The fields of a payload are those of a status that it encodes. -/
theorem encode_of_safetyStatusFields {payload : List U8} {status : BzmBridgeSafetyStatus}
    (hlength : payload.length = BZM_BRIDGE_SAFETY_STATUS_LENGTH)
    (h : safetyStatusFields payload = some status) :
    payload = encodeSafetyStatus status ∧ status.Known := by
  have hbytes := exists_bytes_of_length hlength
  simp only [List.range_succ, List.range_zero, List.nil_append, List.map_cons, List.map_nil,
    List.cons_append] at hbytes
  generalize payload.getD 0 0 = b0, payload.getD 1 0 = b1, payload.getD 2 0 = b2,
    payload.getD 3 0 = b3, payload.getD 4 0 = b4, payload.getD 5 0 = b5, payload.getD 6 0 = b6,
    payload.getD 7 0 = b7, payload.getD 8 0 = b8, payload.getD 9 0 = b9, payload.getD 10 0 = b10,
    payload.getD 11 0 = b11, payload.getD 12 0 = b12, payload.getD 13 0 = b13,
    payload.getD 14 0 = b14, payload.getD 15 0 = b15, payload.getD 16 0 = b16 at hbytes
  subst hbytes
  simp only [safetyStatusFields, Option.bind_eq_bind, Option.bind_eq_some_iff,
    validSafetyStage_eq_some, validSafetyState_eq_some, validSafetyFault_eq_some,
    validRuntimeVerdict_eq_some, validProductionVerdict_eq_some, List.getD_cons_zero,
    List.getD_cons_succ, List.drop_succ_cons, List.drop_zero] at h
  obtain ⟨stage, hstage, state, hstate, fault, ⟨hfault, hfaultByte⟩, runtime, hruntime, production,
    hproduction, h⟩ := h
  split at h
  · cases h
  · next hknown =>
    simp only [not_or, ne_eq, not_not, BitVec.not_lt] at hknown
    obtain ⟨hschema, hcapabilities, hevidence, hflags, hfan, htrip⟩ := hknown
    rw [Option.some.injEq] at h
    subst h
    constructor
    · rw [encodeSafetyStatus, safetyPayload]
      simp only [leBytes_readLe16, leBytes_readLe32, hstage, hstate, hfaultByte, hruntime,
        hproduction, outputFlags_of_known b14 hflags,
        tripByte_of_known b16 (BitVec.not_lt.mpr htrip), List.cons_append, List.nil_append]
    · exact ⟨rfl, hschema, hfault, hcapabilities, hevidence, hfan⟩

/-- The payload of a status with known fields has these fields. -/
theorem safetyStatusFields_encode {status : BzmBridgeSafetyStatus} (h : status.Known) :
    safetyStatusFields (encodeSafetyStatus status) = some status := by
  have hcapabilities := readLe16_leBytes status.capabilities
  have hevidence := readLe16_leBytes status.evidence
  have hlease := readLe32_leBytes status.leaseRemainingMs
  obtain ⟨hflags, hfiveVolt, hreset, hfull⟩ := outputFlags_known status.fiveVoltEnabled
    status.asicResetAsserted status.fanFull
  have htrip : decide ((if status.tripInputAsserted then 1 else 0 : U8) ≠ 0) =
      status.tripInputAsserted ∧ ¬ 1 < (if status.tripInputAsserted then 1 else 0 : U8) := by
    cases status.tripInputAsserted <;> decide
  simp only [leBytes, List.cons_append, List.nil_append] at hcapabilities hevidence hlease
  simp only [safetyStatusFields, encodeSafetyStatus, safetyPayload, leBytes, List.cons_append,
    List.nil_append, List.getD_cons_zero, List.getD_cons_succ, List.drop_succ_cons,
    List.drop_zero, hcapabilities, hevidence, hlease, hfiveVolt, hreset, hfull, htrip.1,
    validSafetyStage_eq_some.mpr rfl, validSafetyState_eq_some.mpr rfl,
    validSafetyFault_eq_some.mpr ⟨h.fault, rfl⟩, validRuntimeVerdict_eq_some.mpr rfl,
    validProductionVerdict_eq_some.mpr rfl, Option.bind_eq_bind, Option.bind_some]
  rw [if_neg]
  · rw [← h.valid]
  · rintro (hschema | hcap | hevi | hflag | hfan | htripByte)
    · exact hschema h.schemaVersion
    · exact hcap h.capabilities
    · exact hevi h.evidence
    · exact hflag hflags
    · exact BitVec.not_lt.mpr h.fanPercent hfan
    · exact htrip.2 htripByte

/-! ### Evidence -/

/-- A mask, if a flag is set. -/
def flagMask (flag : Bool) (mask : U16) : U16 := if flag then mask else 0

/-- The evidence that follows from a reading. -/
def BzmBridgeSafetyReading.expectedEvidence (reading : BzmBridgeSafetyReading) : U16 :=
  flagMask reading.outputsSafe BZM_BRIDGE_SAFETY_EVIDENCE_OUTPUTS_SAFE |||
    flagMask reading.leaseValid BZM_BRIDGE_SAFETY_EVIDENCE_LEASE_VALID |||
    flagMask (!reading.tripInputAsserted) BZM_BRIDGE_SAFETY_EVIDENCE_TRIP_CLEAR |||
    flagMask reading.faultClear BZM_BRIDGE_SAFETY_EVIDENCE_FAULT_CLEAR |||
    (reading.capabilities &&& productionCapabilities)

/-- A mask of one bit keeps the bit. -/
theorem and_bit_eq_flagMask (evidence : U16) (i : Nat) :
    evidence &&& BitVec.twoPow 16 i =
      flagMask (decide (evidence &&& BitVec.twoPow 16 i ≠ 0)) (BitVec.twoPow 16 i) := by
  rw [flagMask]
  split
  · next hset =>
    rw [decide_eq_true_eq, BitVec.and_twoPow] at hset
    rw [BitVec.and_twoPow]
    split at hset
    · next hbit => rw [if_pos hbit]
    · exact absurd rfl hset
  · next hclear =>
    simpa using hclear

/-- Evidence is made of its four bits and those of the production capabilities. -/
theorem evidence_eq_parts (evidence : U16) (h : evidence &&& ~~~knownEvidence = 0) :
    evidence = flagMask (decide (evidence &&& BZM_BRIDGE_SAFETY_EVIDENCE_OUTPUTS_SAFE ≠ 0))
        BZM_BRIDGE_SAFETY_EVIDENCE_OUTPUTS_SAFE |||
      flagMask (decide (evidence &&& BZM_BRIDGE_SAFETY_EVIDENCE_LEASE_VALID ≠ 0))
        BZM_BRIDGE_SAFETY_EVIDENCE_LEASE_VALID |||
      flagMask (decide (evidence &&& BZM_BRIDGE_SAFETY_EVIDENCE_TRIP_CLEAR ≠ 0))
        BZM_BRIDGE_SAFETY_EVIDENCE_TRIP_CLEAR |||
      flagMask (decide (evidence &&& BZM_BRIDGE_SAFETY_EVIDENCE_FAULT_CLEAR ≠ 0))
        BZM_BRIDGE_SAFETY_EVIDENCE_FAULT_CLEAR |||
      (evidence &&& productionCapabilities) := by
  have hbits := and_bit_eq_flagMask evidence
  have hknown : knownEvidence = BitVec.twoPow 16 0 ||| BitVec.twoPow 16 1 |||
      BitVec.twoPow 16 2 ||| BitVec.twoPow 16 3 ||| productionCapabilities := by decide
  calc evidence = evidence &&& (knownEvidence ||| ~~~knownEvidence) := by
        rw [show knownEvidence ||| ~~~knownEvidence = BitVec.allOnes 16 by decide,
          BitVec.and_allOnes]
    _ = evidence &&& knownEvidence := by
        rw [BitVec.and_or_distrib_left, h]
        exact BitVec.or_zero
    _ = _ := by
        rw [hknown]
        simp only [BitVec.and_or_distrib_left]
        rw [hbits 0, hbits 1, hbits 2, hbits 3]
        rfl

/-- The bits of the expected evidence. -/
theorem expectedEvidence_bits (reading : BzmBridgeSafetyReading) :
    reading.expectedEvidence &&& ~~~knownEvidence = 0 ∧
      decide (reading.expectedEvidence &&& BZM_BRIDGE_SAFETY_EVIDENCE_OUTPUTS_SAFE ≠ 0) =
        reading.outputsSafe ∧
      decide (reading.expectedEvidence &&& BZM_BRIDGE_SAFETY_EVIDENCE_LEASE_VALID ≠ 0) =
        reading.leaseValid ∧
      decide (reading.expectedEvidence &&& BZM_BRIDGE_SAFETY_EVIDENCE_TRIP_CLEAR ≠ 0) =
        !reading.tripInputAsserted ∧
      decide (reading.expectedEvidence &&& BZM_BRIDGE_SAFETY_EVIDENCE_FAULT_CLEAR ≠ 0) =
        reading.faultClear ∧
      reading.expectedEvidence &&& productionCapabilities =
        reading.capabilities &&& productionCapabilities := by
  have hmask : ∀ mask : U16, (reading.capabilities &&& productionCapabilities) &&& mask =
      reading.capabilities &&& (productionCapabilities &&& mask) :=
    fun mask => BitVec.and_assoc ..
  have hnone : productionCapabilities &&& ~~~knownEvidence = 0 ∧
      productionCapabilities &&& BZM_BRIDGE_SAFETY_EVIDENCE_OUTPUTS_SAFE = 0 ∧
      productionCapabilities &&& BZM_BRIDGE_SAFETY_EVIDENCE_LEASE_VALID = 0 ∧
      productionCapabilities &&& BZM_BRIDGE_SAFETY_EVIDENCE_TRIP_CLEAR = 0 ∧
      productionCapabilities &&& BZM_BRIDGE_SAFETY_EVIDENCE_FAULT_CLEAR = 0 := by decide
  obtain ⟨hunknown, houtputs, hlease, htrip, hfault⟩ := hnone
  have hflags : ∀ flag : Bool,
      flagMask flag BZM_BRIDGE_SAFETY_EVIDENCE_OUTPUTS_SAFE &&& productionCapabilities = 0 ∧
      flagMask flag BZM_BRIDGE_SAFETY_EVIDENCE_LEASE_VALID &&& productionCapabilities = 0 ∧
      flagMask flag BZM_BRIDGE_SAFETY_EVIDENCE_TRIP_CLEAR &&& productionCapabilities = 0 ∧
      flagMask flag BZM_BRIDGE_SAFETY_EVIDENCE_FAULT_CLEAR &&& productionCapabilities = 0 := by
    decide
  have hzero : ∀ word : U16, word &&& 0 = 0 ∧ word ||| 0 = word :=
    fun word => ⟨BitVec.and_zero, BitVec.or_zero⟩
  rw [BzmBridgeSafetyReading.expectedEvidence]
  simp only [BitVec.and_or_distrib_right, hmask, hunknown, houtputs, hlease, htrip, hfault, hzero,
    (hflags _).1, (hflags _).2.1, (hflags _).2.2.1, (hflags _).2.2.2, BitVec.and_self]
  generalize reading.outputsSafe = outputsSafe, reading.leaseValid = leaseValid,
    reading.tripInputAsserted = tripInputAsserted, reading.faultClear = faultClear
  refine ⟨?_, ?_, ?_, ?_, ?_, BitVec.zero_or⟩
  all_goals
    revert outputsSafe leaseValid tripInputAsserted faultClear
    decide

/-- **One evidence mask** goes with a reading. -/
theorem evidence_accepted_iff (reading : BzmBridgeSafetyReading) (evidence : U16) :
    evidence &&& ~~~knownEvidence = 0 ∧ reading.evidenceContradicts evidence = false ↔
      evidence = reading.expectedEvidence ∧
        reading.fanFull = decide (reading.fanPercent = 100) := by
  simp only [BzmBridgeSafetyReading.evidenceContradicts, Bool.or_eq_false_iff, bne_eq_false_iff_eq,
    decide_eq_false_iff_not, not_not]
  constructor
  · rintro ⟨hknown, ⟨⟨⟨⟨hfan, houtputs⟩, hlease⟩, htrip⟩, hfault⟩, hproduction⟩
    refine ⟨?_, hfan⟩
    have htrip' : decide (evidence &&& BZM_BRIDGE_SAFETY_EVIDENCE_TRIP_CLEAR ≠ 0) =
        !reading.tripInputAsserted := by
      simpa using htrip
    rw [evidence_eq_parts evidence hknown, houtputs, hlease, htrip', hfault, hproduction]
    rfl
  · rintro ⟨rfl, hfan⟩
    obtain ⟨hknown, houtputs, hlease, htrip, hfault, hproduction⟩ := expectedEvidence_bits reading
    refine ⟨hknown, ⟨⟨⟨⟨hfan, houtputs⟩, hlease⟩, ?_⟩, hfault⟩, by simpa using hproduction⟩
    rw [htrip]
    cases reading.tripInputAsserted <;> rfl

/-! ### Legal readings -/

namespace BzmBridgeSafetyReading

variable {reading : BzmBridgeSafetyReading}

/-- 5 V off, the ASICs in reset and the fan at full speed. -/
def OutputsSafe (reading : BzmBridgeSafetyReading) : Prop :=
  reading.fiveVoltEnabled = false ∧ reading.asicResetAsserted = true ∧ reading.fanPercent = 100

theorem outputsSafe_eq_true : reading.outputsSafe = true ↔ reading.OutputsSafe := by
  simp [outputsSafe, OutputsSafe, and_assoc]

/-- **A legal reading**: its fields are in range and do not contradict one another. -/
structure Legal (reading : BzmBridgeSafetyReading) : Prop where
  capabilities : reading.capabilities &&& ~~~knownCapabilities = 0
  fault : reading.fault ≠ .statusInvalid
  fanPercent : reading.fanPercent ≤ 100
  fanFull : reading.fanFull = decide (reading.fanPercent = 100)
  latched : reading.state = .faultLatched ↔ reading.fault ≠ .none
  safe : reading.state ≠ .controlled → reading.OutputsSafe
  lease : reading.leaseRemainingMs ≠ 0 → reading.state = .controlled ∧ reading.stage ≠ .bootSafe
  bootSafe : reading.stage = .bootSafe → reading.state ≠ .faultLatched
  leaseStage : reading.stage = .lease → reading.fault ≠ .asicTrip
  tripLatch : reading.stage = .tripLatch → reading.tripInputAsserted = true →
    reading.state = .faultLatched

/-- The checks of the state are the last six of these. -/
theorem stateContradicts_eq_false : reading.stateContradicts = false ↔
    (reading.state = .faultLatched ↔ reading.fault ≠ .none) ∧
    (reading.state ≠ .controlled → reading.OutputsSafe) ∧
    (reading.leaseRemainingMs ≠ 0 → reading.state = .controlled ∧ reading.stage ≠ .bootSafe) ∧
    (reading.stage = .bootSafe → reading.state ≠ .faultLatched) ∧
    (reading.stage = .lease → reading.fault ≠ .asicTrip) ∧
    (reading.stage = .tripLatch → reading.tripInputAsserted = true →
      reading.state = .faultLatched) := by
  rw [← outputsSafe_eq_true]
  simp only [stateContradicts, faultLatched, faultClear]
  generalize reading.outputsSafe = outputsSafe
  cases reading.state with
  | safeOff => grind
  | controlled => grind
  | faultLatched => grind

/-- The status of a reading, with what follows from it. -/
def status (reading : BzmBridgeSafetyReading) : BzmBridgeSafetyStatus :=
  { reading with
    valid := true
    schemaVersion := BZM_BRIDGE_SAFETY_STATUS_SCHEMA_VERSION
    evidence := reading.expectedEvidence
    runtimeVerdict := reading.expectedRuntime
    productionVerdict := reading.expectedProduction reading.expectedRuntime }

end BzmBridgeSafetyReading

/-! ### Accepted payloads -/

/-- A refused payload leaves the sentinel. -/
theorem bzmBridgeDecodeSafetyStatus_error {payload : Option (List U8)}
    (h : (bzmBridgeDecodeSafetyStatus payload).1 ≠ .ok ()) :
    (bzmBridgeDecodeSafetyStatus payload).2 = invalidateSafetyStatus := by
  revert h
  unfold bzmBridgeDecodeSafetyStatus
  split
  · intro _
    rfl
  · split
    · intro _
      rfl
    · split
      · intro _
        rfl
      · split
        · intro _
          rfl
        · intro h
          exact absurd rfl h

/-- The checks behind the fields ask for a legal reading and its conclusions. -/
theorem checks_pass_iff {status : BzmBridgeSafetyStatus} :
    status.Known ∧ ¬ (status.evidenceContradicts status.evidence ∨ status.stateContradicts ∨
        status.runtimeVerdict ≠ status.expectedRuntime ∨
        status.productionVerdict ≠ status.expectedProduction status.runtimeVerdict) ↔
      ∃ reading : BzmBridgeSafetyReading, reading.Legal ∧ status = reading.status := by
  constructor
  · rintro ⟨hknown, hchecks⟩
    simp only [not_or, Bool.not_eq_true, ne_eq, not_not] at hchecks
    obtain ⟨hcontradicts, hstate, hruntime, hproduction⟩ := hchecks
    obtain ⟨hevidence, hfull⟩ := (evidence_accepted_iff _ _).mp ⟨hknown.evidence, hcontradicts⟩
    obtain ⟨hlatched, hsafe, hlease, hboot, hstage, htrip⟩ :=
      BzmBridgeSafetyReading.stateContradicts_eq_false.mp hstate
    refine ⟨status.toBzmBridgeSafetyReading, ⟨hknown.capabilities, hknown.fault,
      hknown.fanPercent, hfull, hlatched, hsafe, hlease, hboot, hstage, htrip⟩, ?_⟩
    rw [BzmBridgeSafetyReading.status, ← hevidence, ← hruntime, ← hproduction, ← hknown.valid,
      ← hknown.schemaVersion]
  · rintro ⟨reading, hlegal, rfl⟩
    obtain ⟨hknown, hcontradicts⟩ := (evidence_accepted_iff reading _).mpr ⟨rfl, hlegal.fanFull⟩
    have hstate := BzmBridgeSafetyReading.stateContradicts_eq_false.mpr ⟨hlegal.latched,
      hlegal.safe, hlegal.lease, hlegal.bootSafe, hlegal.leaseStage, hlegal.tripLatch⟩
    refine ⟨⟨rfl, rfl, hlegal.fault, hlegal.capabilities, hknown, hlegal.fanPercent⟩, ?_⟩
    rintro (hevidence | hstate' | hruntime | hproduction)
    · exact Bool.false_ne_true (hcontradicts.symm.trans hevidence)
    · exact Bool.false_ne_true (hstate.symm.trans hstate')
    · exact hruntime rfl
    · exact hproduction rfl

/-- **The accepted payloads** are those of the legal readings. -/
theorem bzmBridgeDecodeSafetyStatus_eq_ok {payload : List U8} {status : BzmBridgeSafetyStatus} :
    bzmBridgeDecodeSafetyStatus (some payload) = (.ok (), status) ↔
      ∃ reading : BzmBridgeSafetyReading, reading.Legal ∧ status = reading.status ∧
        payload = encodeSafetyStatus status := by
  constructor
  · intro h
    rw [bzmBridgeDecodeSafetyStatus] at h
    split at h
    · cases h
    · next hlength =>
      split at h
      · cases h
      · next fields hfields =>
        split at h
        · cases h
        · next hchecks =>
          rw [Prod.mk.injEq] at h
          obtain ⟨-, rfl⟩ := h
          obtain ⟨hpayload, hknown⟩ := encode_of_safetyStatusFields (not_not.mp hlength) hfields
          obtain ⟨reading, hlegal, hstatus⟩ := checks_pass_iff.mp ⟨hknown, hchecks⟩
          exact ⟨reading, hlegal, hstatus, hpayload⟩
  · rintro ⟨reading, hlegal, hstatus, rfl⟩
    obtain ⟨hknown, hchecks⟩ := checks_pass_iff.mpr ⟨reading, hlegal, hstatus⟩
    simp only [bzmBridgeDecodeSafetyStatus, safetyStatusFields_encode hknown,
      length_encodeSafetyStatus, ne_eq, not_true_eq_false, if_false]
    exact if_neg hchecks

example : (bzmBridgeDecodeSafetyStatus (some [0x01, 0x02, 0x00, 0x00, 0x00, 0x00, 0xff, 0x00,
    0x7d, 0x00, 0x00, 0x00, 0x00, 0x00, 0x06, 100, 0x00])).2.productionVerdict = .good := by
  decide

/-- An accepted payload is that of a legal reading. -/
theorem exists_legal_of_ok {payload : Option (List U8)}
    (h : (bzmBridgeDecodeSafetyStatus payload).1 = .ok ()) :
    ∃ reading : BzmBridgeSafetyReading, reading.Legal ∧
      (bzmBridgeDecodeSafetyStatus payload).2 = reading.status ∧
      payload = some (encodeSafetyStatus reading.status) := by
  cases payload with
  | none => cases h
  | some payload =>
    obtain ⟨reading, hlegal, hstatus, hpayload⟩ :=
      bzmBridgeDecodeSafetyStatus_eq_ok.mp (Prod.ext h rfl)
    exact ⟨reading, hlegal, hstatus, by rw [hpayload, hstatus]⟩

/-- The payload has all of its parts. -/
theorem safetyPayload_inj {reading reading' : BzmBridgeSafetyReading} {schema schema' : U8}
    {evidence evidence' : U16} {runtime runtime' production production' : U8}
    (h : safetyPayload reading schema evidence runtime production =
      safetyPayload reading' schema' evidence' runtime' production') :
    reading = reading' ∧ evidence = evidence' ∧ runtime = runtime' ∧ production = production' := by
  obtain ⟨h, houtputs⟩ := List.append_inj h (by simp)
  obtain ⟨h, hlease⟩ := List.append_inj h (by simp)
  obtain ⟨h, hevidence⟩ := List.append_inj h (by simp)
  obtain ⟨h, hcapabilities⟩ := List.append_inj h (by simp)
  simp only [List.cons.injEq, and_true] at h houtputs
  obtain ⟨-, hstage, hstate, hfault, hruntime, hproduction⟩ := h
  obtain ⟨hflags, hfan, htrip⟩ := houtputs
  have hstage' := validSafetyStage_eq_some.mpr hstage
  rw [validSafetyStage_eq_some.mpr rfl] at hstage'
  have hstate' := validSafetyState_eq_some.mpr hstate
  rw [validSafetyState_eq_some.mpr rfl] at hstate'
  have hfault' : reading.fault = reading'.fault := by
    revert hfault
    cases reading.fault <;> cases reading'.fault <;> decide
  obtain ⟨-, hfive, hreset, hfull⟩ := outputFlags_known reading.fiveVoltEnabled
    reading.asicResetAsserted reading.fanFull
  obtain ⟨-, hfive', hreset', hfull'⟩ := outputFlags_known reading'.fiveVoltEnabled
    reading'.asicResetAsserted reading'.fanFull
  rw [hflags] at hfive hreset hfull
  have htrip' : reading.tripInputAsserted = reading'.tripInputAsserted := by
    revert htrip
    cases reading.tripInputAsserted <;> cases reading'.tripInputAsserted <;> decide
  refine ⟨?_, leBytes_toNat_inj rfl hevidence, hruntime, hproduction⟩
  cases reading
  cases reading'
  simp only [Option.some.injEq] at hstage' hstate'
  simp only [BzmBridgeSafetyReading.mk.injEq]
  exact ⟨hstage'.symm, hstate'.symm, hfault', leBytes_toNat_inj rfl hcapabilities,
    leBytes_toNat_inj rfl hlease, hfive.symm.trans hfive', hreset.symm.trans hreset',
    hfull.symm.trans hfull', hfan, htrip'⟩

/-- A payload with any evidence and verdict bytes is accepted only for a legal
reading, and only with those that follow from it. -/
theorem safetyPayload_accepted_iff (reading : BzmBridgeSafetyReading) (evidence : U16)
    (runtime production : U8) :
    (bzmBridgeDecodeSafetyStatus (some (safetyPayload reading
        BZM_BRIDGE_SAFETY_STATUS_SCHEMA_VERSION evidence runtime production))).1 = .ok () ↔
      reading.Legal ∧ evidence = reading.expectedEvidence ∧
        runtime = reading.expectedRuntime.value ∧
        production = (reading.expectedProduction reading.expectedRuntime).value := by
  constructor
  · intro h
    obtain ⟨reading', hlegal, -, hpayload⟩ := exists_legal_of_ok h
    rw [Option.some.injEq] at hpayload
    obtain ⟨rfl, hevidence, hruntime, hproduction⟩ := safetyPayload_inj hpayload
    exact ⟨hlegal, hevidence, hruntime, hproduction⟩
  · rintro ⟨hlegal, rfl, rfl, rfl⟩
    exact congrArg Prod.fst (bzmBridgeDecodeSafetyStatus_eq_ok.mpr ⟨reading, hlegal, rfl, rfl⟩)

/-! ### Verdicts -/

namespace BzmBridgeSafetyReading

variable {reading : BzmBridgeSafetyReading}

theorem expectedRuntime_good (h : reading.expectedRuntime = .goodSafeOff ∨
      reading.expectedRuntime = .goodControlled) :
    reading.fault = .none ∧ reading.tripInputAsserted = false ∧
      (reading.state ≠ .safeOff → reading.stage ≠ .bootSafe → reading.leaseValid = true) := by
  unfold expectedRuntime at h
  split at h
  · simp at h
  · next hclear =>
    split at h
    · simp at h
    · next htrip =>
      refine ⟨by simpa [faultClear] using hclear, by simpa using htrip, fun hstate hstage => ?_⟩
      rw [if_neg hstate] at h
      by_contra hinvalid
      rw [if_pos ⟨hstage, by simpa using hinvalid⟩] at h
      simp at h

/-- A controlled board outside BOOT_SAFE is good only under a lease. -/
theorem leased_of_good (h : reading.expectedRuntime = .goodSafeOff ∨
      reading.expectedRuntime = .goodControlled)
    (hstate : reading.state = .controlled) (hstage : reading.stage ≠ .bootSafe) :
    0 < reading.leaseRemainingMs := by
  have hvalid := (expectedRuntime_good h).2.2 (by rw [hstate]; decide) hstage
  simpa [leaseValid, hstage, hstate] using hvalid

/-- What a good production verdict takes. -/
theorem expectedProduction_good
    (h : reading.expectedProduction reading.expectedRuntime = .good) :
    reading.stage = .tripLatch ∧ reading.capabilities = knownCapabilities ∧
      reading.fault = .none ∧ reading.tripInputAsserted = false := by
  unfold expectedProduction at h
  dsimp only at h
  split at h
  · cases h
  · next hstage =>
    split at h
    · cases h
    · next hgood =>
      split at h
      · cases h
      · next hcapabilities =>
        have hruntime : reading.expectedRuntime = .goodSafeOff ∨
            reading.expectedRuntime = .goodControlled := by
          simpa only [Bool.not_eq_false, Bool.or_eq_true, decide_eq_true_eq] using hgood
        obtain ⟨hfault, htrip, -⟩ := expectedRuntime_good hruntime
        exact ⟨not_not.mp hstage, not_not.mp hcapabilities, hfault, htrip⟩

end BzmBridgeSafetyReading

/-- **A safety status is believed only when coherent.**  A refused payload leaves
the invalid, fault-latched sentinel.  An accepted one is the payload of the status
it leaves, and the status is coherent.  A legal reading is accepted with exactly
one evidence mask and one pair of verdicts, and any other with none. -/
theorem bzmBridgeDecodeSafetyStatus_coherent :
    (∀ payload, (bzmBridgeDecodeSafetyStatus payload).1 ≠ .ok () →
      (bzmBridgeDecodeSafetyStatus payload).2 = invalidateSafetyStatus) ∧
    (∀ payload, (bzmBridgeDecodeSafetyStatus payload).1 = .ok () →
      let status := (bzmBridgeDecodeSafetyStatus payload).2
      payload = some (encodeSafetyStatus status) ∧ status.valid = true ∧
      (status.state = .safeOff ∨ status.state = .faultLatched →
        status.fiveVoltEnabled = false ∧ status.asicResetAsserted = true ∧
          status.fanPercent = 100) ∧
      (status.state = .faultLatched ↔ status.fault ≠ .none) ∧
      (status.state = .faultLatched → status.leaseRemainingMs = 0) ∧
      (status.state = .controlled → status.stage ≠ .bootSafe →
        status.runtimeVerdict = .goodSafeOff ∨ status.runtimeVerdict = .goodControlled →
        0 < status.leaseRemainingMs) ∧
      (status.productionVerdict = .good → status.stage = .tripLatch ∧
        status.capabilities = knownCapabilities ∧ status.fault = .none ∧
        status.tripInputAsserted = false)) ∧
    (∀ reading : BzmBridgeSafetyReading, reading.Legal → ∃! conclusion : U16 × U8 × U8,
      (bzmBridgeDecodeSafetyStatus (some (safetyPayload reading
        BZM_BRIDGE_SAFETY_STATUS_SCHEMA_VERSION conclusion.1 conclusion.2.1
        conclusion.2.2))).1 = .ok ()) ∧
    (∀ reading : BzmBridgeSafetyReading, ¬ reading.Legal →
      ∀ schemaVersion evidence runtime production,
        (bzmBridgeDecodeSafetyStatus (some (safetyPayload reading schemaVersion evidence runtime
          production))).1 ≠ .ok ()) := by
  refine ⟨fun payload => bzmBridgeDecodeSafetyStatus_error, ?_, ?_, ?_⟩
  · intro payload h status
    obtain ⟨reading, hlegal, hstatus, hpayload⟩ := exists_legal_of_ok h
    simp only [status, hstatus]
    refine ⟨hpayload, rfl, ?_, hlegal.latched, ?_, ?_, ?_⟩
    · intro hstate
      apply hlegal.safe
      intro hcontrolled
      rw [BzmBridgeSafetyReading.status] at hstate
      rw [hcontrolled] at hstate
      simp at hstate
    · intro hlatched
      by_contra hlease
      have hcontrolled := (hlegal.lease hlease).1
      exact absurd (hlatched.symm.trans hcontrolled) (by decide)
    · intro hstate hstage hgood
      exact BzmBridgeSafetyReading.leased_of_good hgood hstate hstage
    · intro hgood
      exact BzmBridgeSafetyReading.expectedProduction_good hgood
  · intro reading hlegal
    refine ⟨(reading.expectedEvidence, reading.expectedRuntime.value,
      (reading.expectedProduction reading.expectedRuntime).value), ?_, ?_⟩
    · exact (safetyPayload_accepted_iff ..).mpr ⟨hlegal, rfl, rfl, rfl⟩
    · intro conclusion haccepted
      obtain ⟨-, hevidence, hruntime, hproduction⟩ := (safetyPayload_accepted_iff ..).mp haccepted
      exact Prod.ext hevidence (Prod.ext hruntime hproduction)
  · intro reading hillegal schemaVersion evidence runtime production haccepted
    obtain ⟨reading', hlegal, -, hpayload⟩ := exists_legal_of_ok haccepted
    rw [Option.some.injEq] at hpayload
    obtain ⟨rfl, -⟩ := safetyPayload_inj hpayload
    exact hillegal hlegal

/-- A board in BOOT_SAFE under control that reports a lease. -/
def bootSafeLeased : BzmBridgeSafetyReading where
  stage := .bootSafe
  state := .controlled
  fault := .none
  capabilities := 0
  leaseRemainingMs := 1
  fiveVoltEnabled := false
  asicResetAsserted := true
  fanFull := true
  fanPercent := 100
  tripInputAsserted := false

/-- The same board without a lease but with an unknown capability. -/
def unknownCapability : BzmBridgeSafetyReading :=
  { bootSafeLeased with
    leaseRemainingMs := 0
    capabilities := 0x100 }

/-- No evidence and no verdicts make a reading acceptable. -/
def BzmBridgeSafetyReading.Refused (reading : BzmBridgeSafetyReading) : Prop :=
  ∀ (evidence : U16) (runtime production : U8), (bzmBridgeDecodeSafetyStatus (some (safetyPayload
    reading BZM_BRIDGE_SAFETY_STATUS_SCHEMA_VERSION evidence runtime production))).1 ≠ .ok ()

theorem BzmBridgeSafetyReading.Refused.of_illegal {reading : BzmBridgeSafetyReading}
    (h : ¬ reading.Legal) : reading.Refused := by
  intro evidence runtime production haccepted
  exact h ((safetyPayload_accepted_iff ..).mp haccepted).1

/-- A lease in BOOT_SAFE and an unknown capability are refused with any evidence and
verdicts, though the outputs are safe, no fault is latched and none is reported. -/
theorem bootSafeLeased_refused :
    (bootSafeLeased.OutputsSafe ∧ bootSafeLeased.state = .controlled ∧
      bootSafeLeased.fault = .none ∧ bootSafeLeased.Refused) ∧
    unknownCapability.OutputsSafe ∧ unknownCapability.state = .controlled ∧
      unknownCapability.fault = .none ∧ unknownCapability.Refused := by
  refine ⟨⟨⟨rfl, rfl, rfl⟩, rfl, rfl, ?_⟩, ⟨rfl, rfl, rfl⟩, rfl, rfl, ?_⟩
  · apply BzmBridgeSafetyReading.Refused.of_illegal
    intro hlegal
    exact (hlegal.lease (by decide)).2 rfl
  · apply BzmBridgeSafetyReading.Refused.of_illegal
    intro hlegal
    exact absurd hlegal.capabilities (by decide)

end EspMiner
