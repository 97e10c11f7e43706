import EspMiner.Asic.BitmainDriver

/-!
# Received frames and bounds

Behind a successful `init` no interval is zero, which no response changes, and the slot that a
decoder reads off a job response is tested before it is looked up.  The register address of a
response is not tested: `REGISTER_MAP` is read wherever it points, so the accepted frames that stay
in bounds are exactly those whose address lies inside the map.
-/

namespace EspMiner

open Library

/-! ## Intervals -/

theorem addressInterval_pos {chipCounter : Nat} {intervals : Nat × Nat} (hle : chipCounter ≤ 256)
    (h : addressInterval chipCounter = some intervals) : 0 < intervals.1 ∧ 0 < intervals.2 := by
  unfold addressInterval at h
  split at h
  · cases h
  · next hzero =>
    have hpos : 0 < 256 / chipCounter := Nat.div_pos hle (Nat.pos_of_ne_zero hzero)
    cases h
    exact ⟨hpos, hpos⟩

namespace BitmainChip

/-- No interval that an `init` leaves is zero. -/
theorem init_pos {chip : BitmainChip} {asicCount : U8} {responses : List SerialRx}
    {writesOk : Bool} {intervals : Nat × Nat}
    (h : chip.init asicCount responses writesOk = some intervals) :
    0 < intervals.1 ∧ 0 < intervals.2 := by
  have hcount : ∀ chipId chipIdAlias length,
      countAsicChipsWithIdAlias asicCount chipId chipIdAlias length responses ≤ 256 := by
    intro chipId chipIdAlias length
    have := countAsicChipsWithIdAlias_le asicCount chipId chipIdAlias length responses
    have := asicCount.isLt
    omega
  cases chip with
  | bm1366 => exact addressInterval_pos (hcount _ _ _) h
  | bm1368 => exact addressInterval_pos (hcount _ _ _) h
  | bm1370 => exact addressInterval_pos (hcount _ _ _) h
  | bm1397 => exact addressInterval_pos (hcount _ _ _) h
  | bm1373 =>
    simp only [init, bm1373Init] at h
    split at h
    · cases h
    · split at h
      · cases h
      · next hinterval =>
        split at h
        · cases h
        · cases h
          refine ⟨Nat.succ_pos 15, Nat.pos_of_ne_zero ?_⟩
          intro hzero
          exact hinterval (BitVec.eq_of_toNat_eq hzero)

/-! ## One response -/

/-- `sizeof(asic_result)` -/
def resultSize : BitmainChip → Nat
  | .bm1397 => 9
  | _ => 11

/-- `REGISTER_MAP` -/
def registerMap : BitmainChip → List RegisterType
  | .bm1397 => bm1397RegisterMap
  | _ => bm13xxRegisterMap

/-- The slot that the id of a response names. -/
def jobIdOf (id : U8) : BitmainChip → U8
  | .bm1366 => id &&& 0xf8#8
  | .bm1397 => id &&& 0xfc#8
  | _ => (id &&& 0xf0#8) >>> 1

def smallCoreIdOf (id : U8) : BitmainChip → U8
  | .bm1366 => id &&& 0x07#8
  | _ => id &&& 0x0f#8

/-- The version that a response reports for a job. -/
def rolledVersionOf (frame : List U8) (job : AsicJob) : BitmainChip → U32
  | .bm1397 => rolledVersionAt job (BitmainFrame.id frame &&& 0x03#8).toNat
  | _ => job.version ||| BitmainFrame.hardwareVersionBits frame

/-- What `process_work` keeps of a reported nonce. -/
def afterNonce (frame : List U8) (driver : BitmainDriver) : BitmainChip → BitmainDriver
  | .bm1397 => { driver with prevNonce := BitmainFrame.word frame }
  | _ => driver

variable (chip : BitmainChip) (driver : BitmainDriver) (frame : List U8)

/-- The job that a job response is about, if it is a live one. -/
def liveJob : Option (AsicJob × AsicJobContext) :=
  if 128#8 ≤ chip.jobIdOf (BitmainFrame.id frame) then none
  else driver.store.snapshotWithContext ((chip.jobIdOf (BitmainFrame.id frame)).setWidth 64)

/-- The BM1397 drops a nonce that equals `prev_nonce`. -/
def Repeats : Prop := chip = .bm1397 ∧ BitmainFrame.word frame = driver.prevNonce

section Response

variable {chip driver frame} {rx : SerialRx} {timestampUs : U64}

theorem processWork_register (hframe : receiveWork chip.resultSize rx = some frame)
    (hregister : BitmainFrame.isJobResponse frame = false) :
    chip.processWork driver rx timestampUs =
      (registerReply chip.registerMap driver.responseInterval frame timestampUs, driver) := by
  cases chip <;>
    simp only [resultSize] at hframe <;>
    simp [processWork, bm1366ProcessWork, bm1368ProcessWork, bm1370ProcessWork,
      bm1373ProcessWork, bm13xxProcessWork, bm1397ProcessWork, hframe, hregister, registerMap]

theorem dividedBy_of_pos (address : U8) {interval : Nat} (h : 0 < interval) :
    dividedBy address interval = .ok (BitVec.ofNat 8 (address.toNat / interval)) :=
  if_neg h.ne'

/-- A slot that is tested is looked up within its bound. -/
theorem snapshotJobSlot_of_lt {store : AsicJobStore} {slot : U8} (h : ¬ 128#8 ≤ slot) :
    snapshotJobSlot store slot = .ok (store.snapshotWithContext (slot.setWidth 64)) :=
  if_neg h

theorem bm13xxNonce_eq (hinterval : 0 < driver.nonceInterval) (jobId smallCoreId : U8) :
    bm13xxNonce driver timestampUs jobId smallCoreId frame =
      .ok ((if 128#8 ≤ jobId then none
        else driver.store.snapshotWithContext (jobId.setWidth 64)).map fun entry =>
          nonceResult frame timestampUs entry.1 entry.2 jobId
            (entry.1.version ||| BitmainFrame.hardwareVersionBits frame)
            (BitVec.ofNat 8 ((BitmainFrame.nonceAddress frame).toNat / driver.nonceInterval))
            smallCoreId) := by
  unfold bm13xxNonce
  rw [dividedBy_of_pos _ hinterval]
  by_cases hslot : 128#8 ≤ jobId
  · simp [hslot, bind, Except.bind, pure, Except.pure]
  · simp only [bind, Except.bind, hslot, if_false, snapshotJobSlot_of_lt hslot]
    cases driver.store.snapshotWithContext (jobId.setWidth 64) with
    | none => rfl
    | some entry => rfl

theorem bm1397Nonce_eq (hinterval : 0 < driver.nonceInterval) :
    bm1397Nonce driver timestampUs frame =
      match liveJob .bm1397 driver frame with
      | none => (.ok none, driver.prevNonce)
      | some (job, context) =>
          if BitmainFrame.word frame = driver.prevNonce then (.ok none, driver.prevNonce)
          else
            (.ok (some (nonceResult frame timestampUs job context
              (jobIdOf (BitmainFrame.id frame) .bm1397) (rolledVersionOf frame job .bm1397)
              (BitVec.ofNat 8 ((BitmainFrame.nonceAddress frame).toNat / driver.nonceInterval))
              (smallCoreIdOf (BitmainFrame.id frame) .bm1397))), BitmainFrame.word frame) := by
  by_cases hslot : 128#8 ≤ BitmainFrame.id frame &&& 0xfc#8
  · simp [bm1397Nonce, liveJob, jobIdOf, hslot]
  · simp only [bm1397Nonce, liveJob, jobIdOf, hslot, if_false, snapshotJobSlot_of_lt hslot,
      dividedBy_of_pos _ hinterval]
    cases driver.store.snapshotWithContext ((BitmainFrame.id frame &&& 0xfc#8).setWidth 64) with
    | none => rfl
    | some entry => rfl

/-- A job response in the decoders that share a body. -/
theorem processWork_bm13xx (hchip : chip ≠ .bm1397) (hinterval : 0 < driver.nonceInterval)
    (hframe : receiveWork chip.resultSize rx = some frame)
    (hjob : BitmainFrame.isJobResponse frame = true) :
    chip.processWork driver rx timestampUs =
      (.ok ((chip.liveJob driver frame).map fun entry =>
        nonceResult frame timestampUs entry.1 entry.2 (chip.jobIdOf (BitmainFrame.id frame))
          (chip.rolledVersionOf frame entry.1)
          (BitVec.ofNat 8 ((BitmainFrame.nonceAddress frame).toNat / driver.nonceInterval))
          (chip.smallCoreIdOf (BitmainFrame.id frame))), driver) := by
  cases chip <;>
    first
    | exact absurd rfl hchip
    | simp only [resultSize] at hframe
      simp [processWork, bm1366ProcessWork, bm1368ProcessWork, bm1370ProcessWork,
        bm1373ProcessWork, bm13xxProcessWork, hframe, hjob, bm13xxNonce_eq hinterval, liveJob,
        jobIdOf, smallCoreIdOf, rolledVersionOf]

theorem processWork_bm1397 (hframe : receiveWork 9 rx = some frame)
    (hjob : BitmainFrame.isJobResponse frame = true) :
    BitmainChip.bm1397.processWork driver rx timestampUs =
      ((bm1397Nonce driver timestampUs frame).1,
        { driver with prevNonce := (bm1397Nonce driver timestampUs frame).2 }) := by
  simp [processWork, bm1397ProcessWork, hframe, hjob]

/-- A response for a slot that holds no job. -/
theorem processWork_of_liveJob_eq_none (hinterval : 0 < driver.nonceInterval)
    (hframe : receiveWork chip.resultSize rx = some frame)
    (hjob : BitmainFrame.isJobResponse frame = true) (hlive : chip.liveJob driver frame = none) :
    chip.processWork driver rx timestampUs = (.ok none, driver) := by
  by_cases hchip : chip = .bm1397
  · subst hchip
    rw [processWork_bm1397 hframe hjob, bm1397Nonce_eq hinterval, hlive]
  · rw [processWork_bm13xx hchip hinterval hframe hjob, hlive]
    rfl

/-- A nonce of a live job. -/
theorem processWork_of_liveJob_eq_some (hinterval : 0 < driver.nonceInterval)
    (hframe : receiveWork chip.resultSize rx = some frame)
    (hjob : BitmainFrame.isJobResponse frame = true) {job : AsicJob} {context : AsicJobContext}
    (hlive : chip.liveJob driver frame = some (job, context))
    (hnew : ¬ chip.Repeats driver frame) :
    chip.processWork driver rx timestampUs =
      (.ok (some (nonceResult frame timestampUs job context
        (chip.jobIdOf (BitmainFrame.id frame)) (chip.rolledVersionOf frame job)
        (BitVec.ofNat 8 ((BitmainFrame.nonceAddress frame).toNat / driver.nonceInterval))
        (chip.smallCoreIdOf (BitmainFrame.id frame)))), chip.afterNonce frame driver) := by
  by_cases hchip : chip = .bm1397
  · subst hchip
    have hnonce : BitmainFrame.word frame ≠ driver.prevNonce := fun h => hnew ⟨rfl, h⟩
    rw [processWork_bm1397 hframe hjob, bm1397Nonce_eq hinterval, hlive]
    simp only [if_neg hnonce]
    rfl
  · have hkeep : chip.afterNonce frame driver = driver := by
      cases chip <;> first | rfl | exact absurd rfl hchip
    rw [processWork_bm13xx hchip hinterval hframe hjob, hlive, hkeep]
    rfl

/-- A nonce that is dropped as a repetition. -/
theorem processWork_of_repeats (hinterval : 0 < driver.nonceInterval)
    (hframe : receiveWork chip.resultSize rx = some frame)
    (hjob : BitmainFrame.isJobResponse frame = true) (hrepeats : chip.Repeats driver frame) :
    chip.processWork driver rx timestampUs = (.ok none, driver) := by
  obtain ⟨rfl, hnonce⟩ := hrepeats
  rw [processWork_bm1397 hframe hjob, bm1397Nonce_eq hinterval]
  cases liveJob .bm1397 driver frame with
  | none => rfl
  | some entry => simp only [if_pos hnonce]

end Response

/-! ## Runs -/

/-- `process_work` changes `prev_nonce` only. -/
theorem processWork_snd_eq (rx : SerialRx) (timestampUs : U64) :
    ∃ prevNonce, (chip.processWork driver rx timestampUs).2 =
      { driver with prevNonce := prevNonce } := by
  cases chip with
  | bm1397 =>
    simp only [processWork, bm1397ProcessWork]
    split
    · exact ⟨driver.prevNonce, rfl⟩
    · split
      · exact ⟨driver.prevNonce, rfl⟩
      · exact ⟨_, rfl⟩
  | _ => exact ⟨driver.prevNonce, rfl⟩

/-- The driver carries these intervals. -/
def HasIntervals (intervals : Nat × Nat) (r : BitmainRun) : Prop :=
  r.driver.responseInterval = intervals.1 ∧ r.driver.nonceInterval = intervals.2

theorem step_hasIntervals {intervals : Nat × Nat} (r : BitmainRun) (op : BitmainOp)
    (h : HasIntervals intervals r) : HasIntervals intervals (chip.step r op) := by
  cases op with
  | processWork rx timestampUs =>
    obtain ⟨prevNonce, hdriver⟩ := chip.processWork_snd_eq r.driver rx timestampUs
    simp only [HasIntervals, step, hdriver]
    exact h
  | sendWork template => cases chip <;> exact h
  | _ => exact h

theorem runs_hasIntervals (intervals : Nat × Nat) (store : AsicJobStore) (ops : List BitmainOp) :
    HasIntervals intervals (chip.runs intervals store ops) :=
  run_invariant chip.step chip.step_hasIntervals ⟨rfl, rfl⟩ ops

/-! ## Bounds -/

/-- A reply about a register that the map names. -/
def KnownRegister : Prop :=
  BitmainFrame.isJobResponse frame = false ∧ ∃ registerType,
    chip.registerMap[(BitmainFrame.registerAddress frame).toNat]? = some registerType ∧
      registerType ≠ .invalid

/-- A nonce for a job that the store holds. -/
def LiveNonce : Prop :=
  BitmainFrame.isJobResponse frame = true ∧ (chip.liveJob driver frame).isSome = true

/-- Every register reply names an address inside the map. -/
def RegisterInMap : Prop :=
  BitmainFrame.isJobResponse frame = false →
    (BitmainFrame.registerAddress frame).toNat < chip.registerMap.length

/-- A register reply is a fault exactly where its address lies behind the map. -/
theorem registerReply_eq {interval : Nat} (hinterval : 0 < interval)
    (registerMap : List RegisterType) (timestampUs : U64) :
    registerReply registerMap interval frame timestampUs =
      match registerMap[(BitmainFrame.registerAddress frame).toNat]? with
      | none => .error (.registerMap (BitmainFrame.registerAddress frame))
      | some registerType => .ok (if registerType = .invalid then none else
          some { TaskResult.zero with
            timestampUs := timestampUs
            registerType := registerType
            asicNr := BitVec.ofNat 8 ((BitmainFrame.asicAddress frame).toNat / interval)
            value := bswap32 (BitmainFrame.word frame) }) := by
  unfold registerReply registerAt
  cases registerMap[(BitmainFrame.registerAddress frame).toNat]? with
  | none => rfl
  | some registerType =>
    simp only [bind, Except.bind, dividedBy_of_pos _ hinterval]
    split
    · rfl
    · rfl

end BitmainChip

open BitmainChip in
/-- **Frames and bounds.**  In every run behind a successful `init`, a response that
`receive_work` accepts is decoded with every index and slot inside its bounds and no
division by zero, and returns nothing unless it is about a known register or a live
job, exactly when its register address, if it is a register reply, lies inside the map. -/
theorem bitmain_frames_in_bounds_iff (chip : BitmainChip) (asicCount : U8)
    (responses : List SerialRx) (writesOk : Bool) (intervals : Nat × Nat)
    (hinit : chip.init asicCount responses writesOk = some intervals) (store : AsicJobStore)
    (ops : List BitmainOp) (rx : SerialRx) {frame : List U8}
    (hframe : receiveWork chip.resultSize rx = some frame) (timestampUs : U64) :
    let driver := (chip.runs intervals store ops).driver
    (∃ result, (chip.processWork driver rx timestampUs).1 = .ok result ∧
      (¬ chip.KnownRegister frame → ¬ chip.LiveNonce driver frame → result = none)) ↔
        chip.RegisterInMap frame := by
  intro driver
  obtain ⟨hresponse, hnonce⟩ := init_pos hinit
  obtain ⟨hresponseInterval, hnonceInterval⟩ := chip.runs_hasIntervals intervals store ops
  have hresponsePos : 0 < driver.responseInterval := hresponseInterval.symm ▸ hresponse
  have hnoncePos : 0 < driver.nonceInterval := hnonceInterval.symm ▸ hnonce
  cases hjob : BitmainFrame.isJobResponse frame with
  | false =>
    rw [processWork_register hframe hjob, registerReply_eq frame hresponsePos]
    constructor
    · rintro ⟨result, hresult, -⟩ -
      cases hentry : chip.registerMap[(BitmainFrame.registerAddress frame).toNat]? with
      | none => simp [hentry] at hresult
      | some registerType => exact (List.getElem?_eq_some_iff.mp hentry).1
    · intro hinMap
      have hentry := List.getElem?_eq_getElem (hinMap hjob)
      simp only [hentry]
      refine ⟨_, rfl, ?_⟩
      intro hunknown _
      have hinvalid := not_not.mp fun h => hunknown ⟨hjob, _, hentry, h⟩
      exact if_pos hinvalid
  | true =>
    have hinMap : chip.RegisterInMap frame := by
      intro h
      rw [hjob] at h
      cases h
    refine iff_of_true ?_ hinMap
    cases hlive : chip.liveJob driver frame with
    | none =>
      rw [processWork_of_liveJob_eq_none hnoncePos hframe hjob hlive]
      exact ⟨none, rfl, fun _ _ => rfl⟩
    | some entry =>
      have hnonceLive : chip.LiveNonce driver frame := ⟨hjob, by simp [hlive]⟩
      by_cases hrepeats : chip.Repeats driver frame
      · rw [processWork_of_repeats hnoncePos hframe hjob hrepeats]
        exact ⟨none, rfl, fun _ _ => rfl⟩
      · rw [processWork_of_liveJob_eq_some hnoncePos hframe hjob hlive hrepeats]
        exact ⟨_, rfl, fun _ hdead => absurd hnonceLive hdead⟩

/-- A lone BM1366 that answers the query for its id. -/
def loneBm1366 : List SerialRx := [.bytes [0xaa, 0x55, 0x13, 0x66, 0, 0, 0, 0, 0, 0, 0x05]]

/-- An 11-byte register reply for an address, with the byte that ends it. -/
def registerFrame (address last : U8) : List U8 :=
  [0xaa, 0x55, 0, 0, 0, 0, 0, address, 0, 0, last]

theorem bitmain_frames_in_bounds_iff_total_count :
    ∃ result, (BitmainChip.bm1366.processWork
      (BitmainChip.bm1366.runs (256, 256) AsicJobStore.empty []).driver
      (.bytes (registerFrame 0x8c 0x11)) 0).1 = .ok result := by
  have hframe : receiveWork BitmainChip.bm1366.resultSize (.bytes (registerFrame 0x8c 0x11)) =
      some (registerFrame 0x8c 0x11) := by
    decide +kernel
  obtain ⟨result, hresult, -⟩ := (bitmain_frames_in_bounds_iff .bm1366 1 loneBm1366 true
    (256, 256) (by decide +kernel) AsicJobStore.empty [] (.bytes (registerFrame 0x8c 0x11))
    hframe 0).mpr (fun _ => by decide +kernel)
  exact ⟨result, hresult⟩

/-- A reply with the register address 0xff and a checksum that is right. -/
theorem register_ff_out_of_bounds :
    ¬∀ (chip : BitmainChip) (asicCount : U8) (responses : List SerialRx) (writesOk : Bool)
      (intervals : Nat × Nat), chip.init asicCount responses writesOk = some intervals →
      ∀ (store : AsicJobStore) (ops : List BitmainOp) (rx : SerialRx) (frame : List U8),
        receiveWork chip.resultSize rx = some frame → ∀ timestampUs : U64,
          let driver := (chip.runs intervals store ops).driver
          ∃ result, (chip.processWork driver rx timestampUs).1 = .ok result ∧
            (¬ chip.KnownRegister frame → ¬ chip.LiveNonce driver frame → result = none) := by
  intro hclaim
  have hframe : receiveWork BitmainChip.bm1366.resultSize (.bytes (registerFrame 0xff 0x1b)) =
      some (registerFrame 0xff 0x1b) := by
    decide +kernel
  obtain ⟨result, hresult, -⟩ := hclaim .bm1366 1 loneBm1366 true (256, 256) (by decide +kernel)
    AsicJobStore.empty [] (.bytes (registerFrame 0xff 0x1b)) _ hframe 0
  rw [BitmainChip.processWork_register hframe (by decide +kernel),
    BitmainChip.registerReply_eq _ (by decide +kernel)] at hresult
  have hbehind : BitmainChip.bm1366.registerMap[(BitmainFrame.registerAddress
      (registerFrame 0xff 0x1b)).toNat]? = none := by
    decide +kernel
  simp only [hbehind] at hresult
  cases hresult

end EspMiner
