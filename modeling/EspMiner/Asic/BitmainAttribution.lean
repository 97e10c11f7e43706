import EspMiner.Asic.BitmainBounds
import EspMiner.Asic.JobStoreHandles

/-!
# Results name the job that was sent

The id of a packet comes back in the responses to it.  A slot is overwritten by the next
packet with the same id, and ids go round in steps over 128 slots, so that the last 32
packets of a BM1397 and the last 16 of the other chips are still held.  The version that
is decoded is the one that the packet's midstate or field was built from.
-/

namespace EspMiner

open Library

namespace BitmainChip

/-! ## Ids -/

/-- The step of a driver's ids. -/
def idStep : BitmainChip → Nat
  | .bm1366 => 8
  | .bm1397 => 4
  | _ => 24

/-- The number of packets that have different ids. -/
def heldPackets : BitmainChip → Nat
  | .bm1397 => 32
  | _ => 16

/-- Ids repeat behind `heldPackets` packets only. -/
theorem add_idStep_ne (chip : BitmainChip) {n id : Nat} (hpos : 0 < n)
    (hlt : n < chip.heldPackets) : (id + chip.idStep * n) % 128 ≠ id := by
  cases chip <;> simp only [heldPackets, idStep] at hlt ⊢ <;> omega

/-- The last bits of an id are free for what a chip adds. -/
def IdFree (chip : BitmainChip) (id : U8) : Prop :=
  id.toNat < 128 ∧ (if chip = .bm1397 then id.toNat % 4 = 0 else id.toNat % 8 = 0)

variable (chip : BitmainChip)

theorem toNat_nextId (id step : U8) :
    ((id + step) % 128#8).toNat = (id.toNat + step.toNat) % 128 := by
  have hmodulus : (128#8).toNat = 128 := rfl
  rw [BitVec.toNat_umod, BitVec.toNat_add, hmodulus]
  omega

theorem sendWork_id (driver : BitmainDriver) (template : JobRef) :
    (chip.sendWork driver template).2.id.toNat = (driver.id.toNat + chip.idStep) % 128 := by
  cases chip <;> exact toNat_nextId driver.id _

theorem sendWork_jobId (driver : BitmainDriver) (template : JobRef) :
    (chip.sendWork driver template).1.jobId = (chip.sendWork driver template).2.id := by
  cases chip <;> rfl

theorem sendWork_store (driver : BitmainDriver) (template : JobRef) :
    (chip.sendWork driver template).2.store =
      (driver.store.storeSlot (chip.sendWork driver template).2.id template).2 := by
  cases chip <;> rfl

theorem sendWork_idFree {driver : BitmainDriver} (h : chip.IdFree driver.id) (template : JobRef) :
    chip.IdFree (chip.sendWork driver template).2.id := by
  obtain ⟨hlt, hfree⟩ := h
  rw [IdFree, sendWork_id]
  refine ⟨Nat.mod_lt _ (by decide), ?_⟩
  cases chip <;> simp [idStep] at hfree ⊢ <;> omega

theorem step_idFree (r : BitmainRun) (op : BitmainOp) (h : chip.IdFree r.driver.id) :
    chip.IdFree (chip.step r op).driver.id := by
  cases op with
  | sendWork template => exact chip.sendWork_idFree h template
  | processWork rx timestampUs =>
    obtain ⟨prevNonce, hdriver⟩ := chip.processWork_snd_eq r.driver rx timestampUs
    simp only [step, hdriver]
    exact h
  | _ => exact h

theorem runs_idFree (intervals : Nat × Nat) (store : AsicJobStore) (ops : List BitmainOp) :
    chip.IdFree (chip.runs intervals store ops).driver.id := by
  have hfirst : chip.IdFree 0#8 := by
    cases chip <;> exact ⟨by decide, by decide⟩
  exact run_invariant (P := fun r => chip.IdFree r.driver.id) chip.step chip.step_idFree hfirst ops

/-! ## Slots -/

theorem slotHandle_ne_invalid (slot : U8) : slot.setWidth 64 ≠ ASIC_WORK_HANDLE_INVALID := by
  intro h
  have htoNat := congrArg BitVec.toNat h
  have hlt := slot.isLt
  simp only [BitVec.toNat_setWidth, ASIC_WORK_HANDLE_INVALID, BitVec.toNat_ofNat] at htoNat
  omega

/-- A slot store is found under its slot, and found by no other slot. -/
theorem snapshot_storeSlot (store : AsicJobStore) (stored slot : U8) (template : JobRef) :
    (store.storeSlot stored template).2.snapshotWithContext (slot.setWidth 64) =
      if stored = slot then some (template.job, store.contextFor template)
      else store.snapshotWithContext (slot.setWidth 64) := by
  have h := store.snapshot_storeEntry (stored.setWidth 64) template (slotHandle_ne_invalid slot)
  rw [handleSlot_setWidth, handleSlot_setWidth] at h
  by_cases hsame : stored = slot
  · subst hsame
    simpa [AsicJobStore.storeSlot] using h
  · have hhandle : stored.setWidth 64 ≠ slot.setWidth 64 := by
      intro heq
      apply hsame
      rw [← handleSlot_setWidth stored, heq, handleSlot_setWidth]
    rw [if_neg hhandle, if_neg hsame] at h
    rw [if_neg hsame]
    exact h

/-- The driver holds the job under an id, and its own id is `sent` packets further. -/
def Holds (jobId : U8) (entry : AsicJob × AsicJobContext) (sent : Nat) (driver : BitmainDriver) :
    Prop :=
  driver.store.snapshotWithContext (jobId.setWidth 64) = some entry ∧
    driver.id.toNat = (jobId.toNat + chip.idStep * sent) % 128

/-- The packets among the steps of a run. -/
def packetsIn (ops : List BitmainOp) : Nat :=
  ops.countP fun
    | .sendWork _ => true
    | _ => false

section Held

variable {chip} {jobId : U8} {entry : AsicJob × AsicJobContext} {sent : Nat}

theorem Holds.sendWork {driver : BitmainDriver} (h : chip.Holds jobId entry sent driver)
    (hlt : sent + 1 < chip.heldPackets) (template : JobRef) :
    chip.Holds jobId entry (sent + 1) (chip.sendWork driver template).2 := by
  obtain ⟨hentry, hdriver⟩ := h
  have hnext : (chip.sendWork driver template).2.id.toNat =
      (jobId.toNat + chip.idStep * (sent + 1)) % 128 := by
    rw [sendWork_id, hdriver, Nat.mul_succ]
    omega
  refine ⟨?_, hnext⟩
  have hother : (chip.sendWork driver template).2.id ≠ jobId := by
    intro heq
    apply chip.add_idStep_ne (Nat.succ_pos sent) hlt
    rw [← hnext, heq]
  rw [sendWork_store, snapshot_storeSlot, if_neg hother]
  exact hentry

/-- What is held stays so while fewer packets follow than have different ids. -/
theorem Holds.run {r : BitmainRun} (h : chip.Holds jobId entry sent r.driver)
    {ops : List BitmainOp} (hlive : .invalidateAll ∉ ops)
    (hlt : sent + packetsIn ops < chip.heldPackets) :
    chip.Holds jobId entry (sent + packetsIn ops) (run chip.step r ops).driver := by
  induction ops generalizing r sent with
  | nil => exact h
  | cons op ops ih =>
    rw [List.mem_cons, not_or] at hlive
    rw [run_cons]
    cases op with
    | sendWork template =>
      have hcount : sent + packetsIn (.sendWork template :: ops) = sent + 1 + packetsIn ops := by
        simp only [packetsIn, List.countP_cons_of_pos]
        omega
      rw [hcount] at hlt ⊢
      exact ih (h.sendWork (by omega) template) hlive.2 hlt
    | processWork rx timestampUs =>
      obtain ⟨prevNonce, hdriver⟩ := chip.processWork_snd_eq r.driver rx timestampUs
      have hstep : chip.Holds jobId entry sent
          (chip.step r (.processWork rx timestampUs)).driver := by
        simp only [step, hdriver]
        exact h
      exact ih hstep hlive.2 hlt
    | invalidateAll => exact absurd rfl hlive.1
    | beginSubmission job context => exact ih h hlive.2 hlt
    | endSubmission => exact ih h hlive.2 hlt

/-- A packet that was just sent is held. -/
theorem Holds.first (driver : BitmainDriver) (template : JobRef)
    (hid : (chip.sendWork driver template).1.jobId.toNat < 128) :
    chip.Holds (chip.sendWork driver template).1.jobId
      (template.job, driver.store.contextFor template) 0 (chip.sendWork driver template).2 := by
  rw [sendWork_jobId] at hid ⊢
  refine ⟨?_, by omega⟩
  rw [sendWork_store, snapshot_storeSlot, if_pos rfl]

/-- The job of a packet is in its slot while the packet is one of the last. -/
theorem runs_held (intervals : Nat × Nat) (store : AsicJobStore) (before : List BitmainOp)
    (template : JobRef) {after : List BitmainOp} (hlive : .invalidateAll ∉ after)
    (hlast : packetsIn after < chip.heldPackets) :
    ∃ context, (chip.runs intervals store
        (before ++ .sendWork template :: after)).driver.store.snapshotWithContext
      ((chip.sendWork (chip.runs intervals store before).driver template).1.jobId.setWidth 64) =
        some (template.job, context) := by
  have hid : (chip.sendWork (chip.runs intervals store before).driver template).1.jobId.toNat <
      128 := by
    rw [sendWork_jobId]
    exact (chip.sendWork_idFree (chip.runs_idFree intervals store before) template).1
  have hsent := Holds.first (chip.runs intervals store before).driver template hid
  have hkept := Holds.run (r := chip.step (chip.runs intervals store before) (.sendWork template))
    hsent hlive (by omega)
  rw [runs, run_append, run_cons]
  exact ⟨_, hkept.1⟩

end Held

/-! ## The nonce reported last -/

/-- `prev_nonce` is the nonce reported last, or zero. -/
def KeepsPrevNonce (r : BitmainRun) : Prop :=
  0 < r.driver.responseInterval ∧ 0 < r.driver.nonceInterval ∧
    r.driver.prevNonce = r.reported.head?.getD 0

/-- A response that is not accepted returns nothing. -/
theorem processWork_of_not_accepted {driver : BitmainDriver} {rx : SerialRx}
    (h : receiveWork chip.resultSize rx = none) (timestampUs : U64) :
    chip.processWork driver rx timestampUs = (.ok none, driver) := by
  cases chip <;>
    simp only [resultSize] at h <;>
    simp [processWork, bm1366ProcessWork, bm1368ProcessWork, bm1370ProcessWork,
      bm1373ProcessWork, bm13xxProcessWork, bm1397ProcessWork, h]

/-- A register reply reports no nonce. -/
theorem reportedNonce_registerReply {interval : Nat} (hinterval : 0 < interval)
    (registerMap : List RegisterType) (frame : List U8) (timestampUs : U64) :
    reportedNonce (registerReply registerMap interval frame timestampUs) = none := by
  rw [registerReply_eq frame hinterval]
  cases registerMap[(BitmainFrame.registerAddress frame).toNat]? with
  | none => rfl
  | some registerType =>
    by_cases hinvalid : registerType = .invalid
    · simp [hinvalid, reportedNonce]
    · simp [hinvalid, reportedNonce]

theorem step_keepsPrevNonce (r : BitmainRun) (op : BitmainOp) (h : KeepsPrevNonce r) :
    KeepsPrevNonce (bm1397.step r op) := by
  cases op with
  | processWork rx timestampUs =>
    obtain ⟨hresponse, hnonce, hprev⟩ := h
    have hkept : ∀ result, bm1397.processWork r.driver rx timestampUs = (result, r.driver) →
        reportedNonce result = none →
          KeepsPrevNonce (bm1397.step r (.processWork rx timestampUs)) := by
      intro result hprocess hreported
      simp only [step, hprocess, hreported]
      exact ⟨hresponse, hnonce, hprev⟩
    cases hframe : receiveWork bm1397.resultSize rx with
    | none => exact hkept _ (bm1397.processWork_of_not_accepted hframe timestampUs) rfl
    | some frame =>
      cases hjob : BitmainFrame.isJobResponse frame with
      | false =>
        exact hkept _ (processWork_register hframe hjob)
          (reportedNonce_registerReply hresponse _ frame timestampUs)
      | true =>
        cases hlive : bm1397.liveJob r.driver frame with
        | none => exact hkept _ (processWork_of_liveJob_eq_none hnonce hframe hjob hlive) rfl
        | some entry =>
          by_cases hrepeats : bm1397.Repeats r.driver frame
          · exact hkept _ (processWork_of_repeats hnonce hframe hjob hrepeats) rfl
          · have hprocess : bm1397.processWork r.driver rx timestampUs = _ :=
              processWork_of_liveJob_eq_some hnonce hframe hjob hlive hrepeats
            simp only [step, hprocess]
            exact ⟨hresponse, hnonce, rfl⟩
  | _ => exact h

theorem runs_keepsPrevNonce {intervals : Nat × Nat} (h : 0 < intervals.1 ∧ 0 < intervals.2)
    (store : AsicJobStore) (ops : List BitmainOp) :
    KeepsPrevNonce (bm1397.runs intervals store ops) :=
  run_invariant bm1397.step step_keepsPrevNonce ⟨h.1, h.2, rfl⟩ ops

/-! ## Headers -/

/-- The id of a response carries the id of a packet, with `low` in the bits behind it. -/
def CarriesJobId (jobId id : U8) (low : Nat) : BitmainChip → Prop
  | .bm1397 => low < 4 ∧ id.toNat = jobId.toNat + low
  | .bm1366 => low < 8 ∧ id.toNat = jobId.toNat + low
  | _ => low < 16 ∧ id.toNat = jobId.toNat * 2 + low

theorem toNat_and_fc (id : U8) : (id &&& 0xfc#8).toNat = id.toNat / 4 * 4 := by
  revert id
  decide

theorem toNat_and_f8 (id : U8) : (id &&& 0xf8#8).toNat = id.toNat / 8 * 8 := by
  revert id
  decide

theorem toNat_and_f0_shiftRight (id : U8) :
    ((id &&& 0xf0#8) >>> 1).toNat = id.toNat / 16 * 8 := by
  revert id
  decide

theorem toNat_and_03 (id : U8) : (id &&& 0x03#8).toNat = id.toNat % 4 := by
  revert id
  decide

theorem jobIdOf_of_carries {jobId id : U8} {low : Nat} (hfree : chip.IdFree jobId)
    (h : chip.CarriesJobId jobId id low) : chip.jobIdOf id = jobId := by
  obtain ⟨hlt, hmod⟩ := hfree
  apply BitVec.eq_of_toNat_eq
  cases chip <;>
    simp only [jobIdOf, CarriesJobId, toNat_and_fc, toNat_and_f8, toNat_and_f0_shiftRight]
      at h hmod ⊢ <;>
    simp at hmod <;>
    omega

/-- The header that a result stands for is the one whose parts the packet carried.
`index` is a midstate's. -/
def HeaderSent (index : Nat) (frame : List U8) (job : AsicJob) (result : TaskResult) :
    BitmainPacket → Prop
  | .bm1397 packet =>
      let header := asicJobHeader result.job result.nonce result.rolledVersion
      reverse32bitWords (packet.midstates.getD index []) = (Sha256.compress Sha256.initialState
          (Sha256.blockWords (header.take 64))).digest ∧
        header.drop 64 = packet.merkle4 ++ packet.ntime ++ packet.nbits ++ (frame.drop 2).take 4
  | .bm13xx packet =>
      asicJobHeader result.job result.nonce result.rolledVersion =
          writeLe32 result.rolledVersion ++ reverse32bitWords packet.prevBlockHash ++
            reverse32bitWords packet.merkleRoot ++ packet.ntime ++ packet.nbits ++
              (frame.drop 2).take 4 ∧
        packet.version = writeLe32 job.version ∧
        result.rolledVersion = job.version ||| BitmainFrame.hardwareVersionBits frame

/-- A result that is attributed to the packet of a job. -/
structure Attributed (packet : BitmainPacket) (index : Nat) (frame : List U8) (job : AsicJob)
    (result : TaskResult) : Prop where
  job_eq : result.job = job
  versionBits_eq : result.versionBits = result.rolledVersion ^^^ job.version
  header : HeaderSent index frame job result packet

/-- On the BM1397 a response names one of the midstates that the packet counts. -/
def NamesMidstate (index : Nat) : BitmainPacket → Prop
  | .bm1397 packet => index < packet.numMidstates.toNat
  | .bm13xx _ => True

theorem writeLe32_word {frame : List U8} (h : 6 ≤ frame.length) :
    writeLe32 (BitmainFrame.word frame) = (frame.drop 2).take 4 := by
  rw [take_drop_eq_four (by omega)]
  exact writeLe32_or_shiftLeft _ _ _ _

theorem length_of_receiveWork {size : Nat} {rx : SerialRx} {frame : List U8}
    (h : receiveWork size rx = some frame) : frame.length = size := by
  cases rx with
  | error => cases h
  | bytes received =>
    simp only [receiveWork] at h
    split at h
    · cases h
    · split at h
      · cases h
      · next hlength =>
        split at h
        · cases h
        · split at h
          · cases h
          · rw [← Option.some.inj h]
            exact not_not.mp hlength

/-- Any result that the decoder makes of a job's packet stands for the header sent. -/
theorem nonceResult_attributed {driver : BitmainDriver} {template : JobRef} {frame : List U8}
    {low : Nat} (hlength : 6 ≤ frame.length)
    (hcarries : chip.CarriesJobId (chip.sendWork driver template).1.jobId
      (BitmainFrame.id frame) low)
    (hfree : chip.IdFree (chip.sendWork driver template).1.jobId)
    (hmidstate : NamesMidstate low (chip.sendWork driver template).1) (timestampUs : U64)
    (context : AsicJobContext) (jobId asicNr smallCoreId : U8) :
    Attributed (chip.sendWork driver template).1 low frame template.job
      (nonceResult frame timestampUs template.job context jobId
        (chip.rolledVersionOf frame template.job) asicNr smallCoreId) := by
  refine ⟨rfl, rfl, ?_⟩
  have hnonce := writeLe32_word hlength
  cases chip with
  | bm1397 =>
    have hindex : (BitmainFrame.id frame &&& 0x03#8).toNat = low := by
      have hmod : (bm1397.sendWork driver template).1.jobId.toNat % 4 = 0 := hfree.2
      rw [toNat_and_03, hcarries.2]
      have := hcarries.1
      omega
    refine ⟨?_, ?_⟩
    · show reverse32bitWords ((bm1397BuildJobPacket template.job _ 4#8).midstates.getD low []) = _
      rw [midstates_bm1397BuildJobPacket _ _ _ hmidstate,
        reverse32bitWords_bm1397Midstate _ (BitmainFrame.word frame), ← hindex]
      rfl
    · show (asicJobHeader template.job (BitmainFrame.word frame) _).drop 64 = _
      rw [drop_asicJobHeader, hnonce]
      rfl
  | _ =>
    refine ⟨?_, rfl, rfl⟩
    show asicJobHeader template.job (BitmainFrame.word frame) _ =
      _ ++ reverse32bitWords (reverse32bitWords template.job.prevHash.toList) ++
        reverse32bitWords (reverse32bitWords template.job.merkleRoot.toList) ++ _ ++ _ ++ _
    rw [reverse32bitWords_twice (by simp), reverse32bitWords_twice (by simp), asicJobHeader,
      hnonce]
    rfl

end BitmainChip

open BitmainChip in
/-- **Attribution.**  A job response that carries the id of one of the packets still held,
on the BM1397 with one of its midstates and a nonce that is not the one reported last, is
returned as a result for exactly the job of that packet, unless it is the nonce zero of a
BM1397 that has reported none. -/
theorem bitmain_results_attributed_iff (chip : BitmainChip) (asicCount : U8)
    (responses : List SerialRx) (writesOk : Bool) (intervals : Nat × Nat)
    (hinit : chip.init asicCount responses writesOk = some intervals) (store : AsicJobStore)
    (before after : List BitmainOp) (template : JobRef) (hlive : .invalidateAll ∉ after)
    (hlast : packetsIn after < chip.heldPackets) (rx : SerialRx) (frame : List U8)
    (hframe : receiveWork chip.resultSize rx = some frame)
    (hjob : BitmainFrame.isJobResponse frame = true) (low : Nat) (timestampUs : U64) :
    let packet := (chip.sendWork (chip.runs intervals store before).driver template).1
    let r := chip.runs intervals store (before ++ .sendWork template :: after)
    chip.CarriesJobId packet.jobId (BitmainFrame.id frame) low →
    NamesMidstate low packet →
    (chip = .bm1397 → r.reported.head? ≠ some (BitmainFrame.word frame)) →
    ((∃ result, (chip.processWork r.driver rx timestampUs).1 = .ok (some result) ∧
        Attributed packet low frame template.job result) ↔
      ¬ (chip = .bm1397 ∧ r.reported = [] ∧ BitmainFrame.word frame = 0#32)) := by
  intro packet r hcarries hmidstate hnew
  have hpos := init_pos hinit
  have hnonce : 0 < r.driver.nonceInterval :=
    (chip.runs_hasIntervals intervals store _).2.symm ▸ hpos.2
  have hfree : chip.IdFree packet.jobId := by
    simp only [packet, sendWork_jobId]
    exact chip.sendWork_idFree (chip.runs_idFree intervals store before) template
  have hlength : 6 ≤ frame.length := by
    rw [length_of_receiveWork hframe]
    cases chip <;> decide
  obtain ⟨context, hentry⟩ := runs_held intervals store before template hlive hlast
  have hlive : chip.liveJob r.driver frame = some (template.job, context) := by
    have hslot : ¬ 128#8 ≤ packet.jobId := by
      have := hfree.1
      simp [BitVec.le_def]
      omega
    rw [liveJob, chip.jobIdOf_of_carries hfree hcarries, if_neg hslot]
    exact hentry
  -- a nonce is taken for a repetition exactly when it is zero and the first
  have hrepeats : chip.Repeats r.driver frame ↔
      chip = .bm1397 ∧ r.reported = [] ∧ BitmainFrame.word frame = 0#32 := by
    refine and_congr_right fun hchip => ?_
    subst hchip
    have hprev : r.driver.prevNonce = r.reported.head?.getD 0 :=
      (runs_keepsPrevNonce hpos store _).2.2
    have hlast := hnew rfl
    rw [hprev]
    cases hreported : r.reported with
    | nil => simp
    | cons last older =>
      rw [hreported] at hlast
      have hother : BitmainFrame.word frame ≠ last := fun h => hlast (by rw [h]; rfl)
      simp [hother]
  rw [← hrepeats]
  constructor
  · rintro ⟨result, hresult, -⟩ hdropped
    rw [processWork_of_repeats hnonce hframe hjob hdropped] at hresult
    cases hresult
  · intro hkept
    refine ⟨_, by rw [processWork_of_liveJob_eq_some hnonce hframe hjob hlive hkept], ?_⟩
    exact chip.nonceResult_attributed hlength hcarries hfree hmidstate _ _ _ _ _

/-- A lone BM1397 that answers the query for its id. -/
def loneBm1397 : List SerialRx := [.bytes [0xaa, 0x55, 0x13, 0x97, 0, 0, 0, 0, 0x13]]

/-- A job whose version may be rolled. -/
def rollingJob : JobRef := ⟨0, { AsicJob.zero with versionMask := 0x1fffe000#32 }⟩

/-- A job response of a BM1397 to its first packet, about the midstate 1. -/
def bm1397JobFrame (nonce : List U8) (last : U8) : List U8 :=
  [0xaa, 0x55] ++ nonce ++ [0, 5, last]

theorem bitmain_results_attributed_iff_second_midstate :
    ∃ result, (BitmainChip.bm1397.processWork (BitmainChip.bm1397.runs (256, 256)
        AsicJobStore.empty [.sendWork rollingJob]).driver
        (.bytes (bm1397JobFrame [1, 2, 3, 4] 0x8b)) 0).1 = .ok (some result) ∧
      result.job = rollingJob.job := by
  obtain ⟨result, hresult, hattributed⟩ := (bitmain_results_attributed_iff .bm1397 1 loneBm1397
    true (256, 256) (by decide +kernel) AsicJobStore.empty [] [] rollingJob (by simp)
    (by decide) (.bytes (bm1397JobFrame [1, 2, 3, 4] 0x8b)) (bm1397JobFrame [1, 2, 3, 4] 0x8b)
    (by decide +kernel) (by decide +kernel) 1 0 ⟨by decide, by decide +kernel⟩
    (show 1 < _ by decide +kernel) (fun _ => by simp [BitmainChip.runs, BitmainChip.step])).mpr
      (fun h => absurd h.2.2 (by decide +kernel))
  exact ⟨result, hresult, hattributed.job_eq⟩

/-- The nonce zero, which nobody has reported, is dropped. -/
theorem first_nonce_zero_dropped :
    ¬∀ (chip : BitmainChip) (asicCount : U8) (responses : List SerialRx) (writesOk : Bool)
      (intervals : Nat × Nat), chip.init asicCount responses writesOk = some intervals →
      ∀ (store : AsicJobStore) (before after : List BitmainOp) (template : JobRef),
        .invalidateAll ∉ after → BitmainChip.packetsIn after < chip.heldPackets →
        ∀ (rx : SerialRx) (frame : List U8), receiveWork chip.resultSize rx = some frame →
          BitmainFrame.isJobResponse frame = true → ∀ (low : Nat) (timestampUs : U64),
          let packet := (chip.sendWork (chip.runs intervals store before).driver template).1
          let r := chip.runs intervals store (before ++ .sendWork template :: after)
          chip.CarriesJobId packet.jobId (BitmainFrame.id frame) low →
          BitmainChip.NamesMidstate low packet →
          (chip = .bm1397 → r.reported.head? ≠ some (BitmainFrame.word frame)) →
          ∃ result, (chip.processWork r.driver rx timestampUs).1 = .ok (some result) ∧
            BitmainChip.Attributed packet low frame template.job result := by
  intro hclaim
  have hframe : receiveWork BitmainChip.bm1397.resultSize
      (.bytes (bm1397JobFrame [0, 0, 0, 0] 0x98)) = some (bm1397JobFrame [0, 0, 0, 0] 0x98) := by
    decide +kernel
  obtain ⟨result, hresult, -⟩ := hclaim .bm1397 1 loneBm1397 true (256, 256) (by decide +kernel)
    AsicJobStore.empty [] [] rollingJob (by simp) (by decide) _ _ hframe (by decide +kernel) 1 0
    ⟨by decide, by decide +kernel⟩ (show 1 < _ by decide +kernel)
    (fun _ => by simp [BitmainChip.runs, BitmainChip.step])
  rw [BitmainChip.processWork_of_repeats (by decide +kernel) hframe (by decide +kernel)
    ⟨rfl, by decide +kernel⟩] at hresult
  cases hresult

end EspMiner
