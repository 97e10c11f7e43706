import EspMiner.Asic.BitmainCommon
import EspMiner.Asic.BitmainJobPacket
import EspMiner.Library.Run

/-!
# The Bitmain drivers

`components/asic/bm1366.c`, `bm1368.c`, `bm1370.c`, `bm1373.c` and `bm1397.c`: initialisation
as far as the address intervals, `send_work` and `process_work`.  The sources are near
copies of each other; what sets them apart is a parameter here, and the BM1397's decoder
has a body of its own.

An array that C indexes, a slot that is snapshot and a division go through functions that
give a `BitmainFault` where C has undefined behaviour or where a slot is no Bitmain slot.
-/

namespace EspMiner

open Library

/-- `task_result` -/
structure TaskResult where
  job : AsicJob
  context : AsicJobContext
  jobId : U8
  nonce : U32
  ntime : U32
  rolledVersion : U32
  versionBits : U32
  registerType : RegisterType
  asicNr : U8
  value : U32
  coreId : U8
  smallCoreId : U8
  timestampUs : U64
deriving DecidableEq

/-- What `memset` leaves. -/
def TaskResult.zero : TaskResult where
  job := AsicJob.zero
  context := AsicJobContext.zero
  jobId := 0
  nonce := 0
  ntime := 0
  rolledVersion := 0
  versionBits := 0
  registerType := .invalid
  asicNr := 0
  value := 0
  coreId := 0
  smallCoreId := 0
  timestampUs := 0

/-- The static variables of a driver, and the job store.  `address_interval` divides the
addresses of responses and of nonces alike; only the BM1373 keeps two intervals.
`prev_nonce` is the BM1397's. -/
structure BitmainDriver where
  responseInterval : Nat
  nonceInterval : Nat
  id : U8
  prevNonce : U32
  store : AsicJobStore

/-- The five drivers. -/
inductive BitmainChip where
  | bm1366
  | bm1368
  | bm1370
  | bm1373
  | bm1397
deriving DecidableEq, Repr

/-! ## Initialisation -/

section Init

variable (asicCount : U8) (rx : List SerialRx)

/-- `address_interval = 256 / chip_counter` behind `chip_counter == 0` -/
def addressInterval (chipCounter : Nat) : Option (Nat × Nat) :=
  if chipCounter = 0 then none else some (256 / chipCounter, 256 / chipCounter)

def bm1366Init : Option (Nat × Nat) := addressInterval (countAsicChips asicCount 0x1366 11 rx)

def bm1368Init : Option (Nat × Nat) := addressInterval (countAsicChips asicCount 0x1368 11 rx)

def bm1370Init : Option (Nat × Nat) := addressInterval (countAsicChips asicCount 0x1370 11 rx)

def bm1397Init : Option (Nat × Nat) := addressInterval (countAsicChips asicCount 0x1397 9 rx)

/-- `BM1373_init`: `writesOk` tells that each write to the chain succeeded.  The nonce
interval is a `uint8_t`, so that a single chip is refused. -/
def bm1373Init (writesOk : Bool) : Option (Nat × Nat) :=
  let chipCounter := countAsicChipsWithIdAlias asicCount 0x1372 0x1373 9 rx
  if chipCounter ≠ asicCount.toNat then none
  else
    let chipNonceAddressInterval : U8 := BitVec.ofNat 8 (256 / chipCounter)
    if chipNonceAddressInterval = 0#8 then none
    else if !writesOk then none
    else some (0x10, chipNonceAddressInterval.toNat)

/-- The intervals, for responses and for nonces, that a successful `init` sets. -/
def BitmainChip.init (writesOk : Bool) : BitmainChip → Option (Nat × Nat)
  | .bm1366 => bm1366Init asicCount rx
  | .bm1368 => bm1368Init asicCount rx
  | .bm1370 => bm1370Init asicCount rx
  | .bm1373 => bm1373Init asicCount rx writesOk
  | .bm1397 => bm1397Init asicCount rx

end Init

/-- A driver behind its first successful `init`. -/
def BitmainDriver.initialised (intervals : Nat × Nat) (store : AsicJobStore) : BitmainDriver where
  responseInterval := intervals.1
  nonceInterval := intervals.2
  id := 0
  prevNonce := 0
  store := store

/-! ## Sending -/

/-- The payload that a `send_work` writes. -/
inductive BitmainPacket where
  | bm13xx (packet : Bm13xxJobPacket)
  | bm1397 (packet : Bm1397JobPacket)
deriving DecidableEq

def BitmainPacket.jobId : BitmainPacket → U8
  | .bm13xx packet => packet.jobId
  | .bm1397 packet => packet.jobId

section Send

variable (driver : BitmainDriver) (template : JobRef)

/-- The body that four `send_work` share: the next id, the packet and the store.  A store
that was initialised takes every slot. -/
def bm13xxSendWork (step : U8) : BitmainPacket × BitmainDriver :=
  let id := (driver.id + step) % 128#8
  (.bm13xx (bm13xxBuildJobPacket template.job id),
    { driver with id := id, store := (driver.store.storeSlot id template).2 })

def bm1366SendWork : BitmainPacket × BitmainDriver := bm13xxSendWork driver template 8#8

def bm1368SendWork : BitmainPacket × BitmainDriver := bm13xxSendWork driver template 24#8

def bm1370SendWork : BitmainPacket × BitmainDriver := bm13xxSendWork driver template 24#8

def bm1373SendWork : BitmainPacket × BitmainDriver := bm13xxSendWork driver template 24#8

def bm1397SendWork : BitmainPacket × BitmainDriver :=
  let id := (driver.id + 4#8) % 128#8
  (.bm1397 (bm1397BuildJobPacket template.job id 4#8),
    { driver with id := id, store := (driver.store.storeSlot id template).2 })

def BitmainChip.sendWork : BitmainChip → BitmainPacket × BitmainDriver
  | .bm1366 => bm1366SendWork driver template
  | .bm1368 => bm1368SendWork driver template
  | .bm1370 => bm1370SendWork driver template
  | .bm1373 => bm1373SendWork driver template
  | .bm1397 => bm1397SendWork driver template

end Send

/-! ## Receiving -/

/-- What `process_work` must not do. -/
inductive BitmainFault where
  | registerMap (index : U8)
  | jobSlot (slot : U8)
  | divideByZero
deriving DecidableEq, Repr

/-- `REGISTER_MAP[index]`, with no test of the index. -/
def registerAt (registerMap : List RegisterType) (index : U8) :
    Except BitmainFault RegisterType :=
  match registerMap[index.toNat]? with
  | some registerType => .ok registerType
  | none => .error (.registerMap index)

/-- `address / interval`, kept in a byte. -/
def dividedBy (address : U8) (interval : Nat) : Except BitmainFault U8 :=
  if interval = 0 then .error .divideByZero
  else .ok (BitVec.ofNat 8 (address.toNat / interval))

/-- `asic_job_store_snapshot_with_context` for a slot; Bitmain slots end at 128. -/
def snapshotJobSlot (store : AsicJobStore) (slot : U8) :
    Except BitmainFault (Option (AsicJob × AsicJobContext)) :=
  if 128#8 ≤ slot then .error (.jobSlot slot)
  else .ok (store.snapshotWithContext (slot.setWidth 64))

/-- The branch of `process_work` for a response that is no job response. -/
def registerReply (registerMap : List RegisterType) (interval : Nat) (frame : List U8)
    (timestampUs : U64) : Except BitmainFault (Option TaskResult) := do
  let registerType ← registerAt registerMap (BitmainFrame.registerAddress frame)
  if registerType = .invalid then
    return none
  let asicNr ← dividedBy (BitmainFrame.asicAddress frame) interval
  return some { TaskResult.zero with
    timestampUs := timestampUs
    registerType := registerType
    asicNr := asicNr
    value := bswap32 (BitmainFrame.word frame) }

/-- The result for a nonce, where all decoders end. -/
def nonceResult (frame : List U8) (timestampUs : U64) (job : AsicJob) (context : AsicJobContext)
    (jobId : U8) (rolledVersion : U32) (asicNr smallCoreId : U8) : TaskResult :=
  { TaskResult.zero with
    timestampUs := timestampUs
    job := job
    context := context
    jobId := jobId
    nonce := BitmainFrame.word frame
    ntime := job.ntime
    rolledVersion := rolledVersion
    versionBits := rolledVersion ^^^ job.version
    asicNr := asicNr
    coreId := BitmainFrame.coreId frame
    smallCoreId := smallCoreId }

section Process

variable (driver : BitmainDriver) (rx : SerialRx) (timestampUs : U64)

/-- A job response in four of the decoders. -/
def bm13xxNonce (jobId smallCoreId : U8) (frame : List U8) :
    Except BitmainFault (Option TaskResult) := do
  let asicNr ← dividedBy (BitmainFrame.nonceAddress frame) driver.nonceInterval
  if 128#8 ≤ jobId then
    return none
  match ← snapshotJobSlot driver.store jobId with
  | none => return none
  | some (job, context) =>
      let rolledVersion := job.version ||| BitmainFrame.hardwareVersionBits frame
      return some (nonceResult frame timestampUs job context jobId rolledVersion asicNr
        smallCoreId)

/-- The body that four `process_work` share; `jobId` and `smallCoreId` are read off the
id of the response. -/
def bm13xxProcessWork (jobId smallCoreId : U8 → U8) : Except BitmainFault (Option TaskResult) :=
  match receiveWork 11 rx with
  | none => .ok none
  | some frame =>
      if !BitmainFrame.isJobResponse frame then
        registerReply bm13xxRegisterMap driver.responseInterval frame timestampUs
      else
        bm13xxNonce driver timestampUs (jobId (BitmainFrame.id frame))
          (smallCoreId (BitmainFrame.id frame)) frame

def bm1366ProcessWork : Except BitmainFault (Option TaskResult) :=
  bm13xxProcessWork driver rx timestampUs (fun id => id &&& 0xf8#8) (fun id => id &&& 0x07#8)

def bm1368ProcessWork : Except BitmainFault (Option TaskResult) :=
  bm13xxProcessWork driver rx timestampUs (fun id => (id &&& 0xf0#8) >>> 1)
    (fun id => id &&& 0x0f#8)

def bm1370ProcessWork : Except BitmainFault (Option TaskResult) :=
  bm13xxProcessWork driver rx timestampUs (fun id => (id &&& 0xf0#8) >>> 1)
    (fun id => id &&& 0x0f#8)

def bm1373ProcessWork : Except BitmainFault (Option TaskResult) :=
  bm13xxProcessWork driver rx timestampUs (fun id => (id &&& 0xf0#8) >>> 1)
    (fun id => id &&& 0x0f#8)

/-- A job response of the BM1397, and the `prev_nonce` it leaves.  `nonce_found` is zero
where it is tested, so that its second branch is never taken. -/
def bm1397Nonce (frame : List U8) : Except BitmainFault (Option TaskResult) × U32 :=
  let id := BitmainFrame.id frame
  let rxJobId := id &&& 0xfc#8
  let rxMidstateIndex := id &&& 0x03#8
  if 128#8 ≤ rxJobId then (.ok none, driver.prevNonce)
  else
    match snapshotJobSlot driver.store rxJobId with
    | .error fault => (.error fault, driver.prevNonce)
    | .ok none => (.ok none, driver.prevNonce)
    | .ok (some (job, context)) =>
        let rolledVersion := rolledVersionAt job rxMidstateIndex.toNat
        let nonce := BitmainFrame.word frame
        if nonce = driver.prevNonce then (.ok none, driver.prevNonce)
        else
          ((dividedBy (BitmainFrame.nonceAddress frame) driver.nonceInterval).map fun asicNr =>
            some (nonceResult frame timestampUs job context rxJobId rolledVersion asicNr
              (id &&& 0x0f#8)), nonce)

/-- `BM1397_process_work` -/
def bm1397ProcessWork : Except BitmainFault (Option TaskResult) × BitmainDriver :=
  match receiveWork 9 rx with
  | none => (.ok none, driver)
  | some frame =>
      if !BitmainFrame.isJobResponse frame then
        (registerReply bm1397RegisterMap driver.responseInterval frame timestampUs, driver)
      else
        let (result, prevNonce) := bm1397Nonce driver timestampUs frame
        (result, { driver with prevNonce := prevNonce })

/-- `process_work`: what it returns, and the driver behind it. -/
def BitmainChip.processWork :
    BitmainChip → Except BitmainFault (Option TaskResult) × BitmainDriver
  | .bm1366 => (bm1366ProcessWork driver rx timestampUs, driver)
  | .bm1368 => (bm1368ProcessWork driver rx timestampUs, driver)
  | .bm1370 => (bm1370ProcessWork driver rx timestampUs, driver)
  | .bm1373 => (bm1373ProcessWork driver rx timestampUs, driver)
  | .bm1397 => bm1397ProcessWork driver rx timestampUs

end Process

/-! ## Runs -/

/-- What the tasks do with a driver and its store. -/
inductive BitmainOp where
  | beginSubmission (job : JobRef) (context : AsicJobContext)
  | endSubmission
  | sendWork (template : JobRef)
  | invalidateAll
  | processWork (rx : SerialRx) (timestampUs : U64)

/-- A driver and the nonces that `process_work` has reported, the newest first.  What a
fault returns is not known; it leaves the driver as it is. -/
structure BitmainRun where
  driver : BitmainDriver
  reported : List U32

namespace BitmainChip

variable (chip : BitmainChip)

/-- The nonce of a result that reports one. -/
def reportedNonce : Except BitmainFault (Option TaskResult) → Option U32
  | .ok (some result) => if result.registerType = .invalid then some result.nonce else none
  | _ => none

def step (r : BitmainRun) : BitmainOp → BitmainRun
  | .beginSubmission job context =>
      { r with driver := { r.driver with store := r.driver.store.beginSubmission job context } }
  | .endSubmission => { r with driver := { r.driver with store := r.driver.store.endSubmission } }
  | .sendWork template => { r with driver := (chip.sendWork r.driver template).2 }
  | .invalidateAll => { r with driver := { r.driver with store := r.driver.store.invalidateAll } }
  | .processWork rx timestampUs =>
      ⟨(chip.processWork r.driver rx timestampUs).2,
        (reportedNonce (chip.processWork r.driver rx timestampUs).1).toList ++ r.reported⟩

/-- A run from a successful `init` on. -/
def runs (intervals : Nat × Nat) (store : AsicJobStore) (ops : List BitmainOp) : BitmainRun :=
  run chip.step ⟨BitmainDriver.initialised intervals store, []⟩ ops

end BitmainChip

end EspMiner
