import EspMiner.Asic.Job
import EspMiner.Library.Script
import Mathlib.Algebra.Group.Nat.Defs

/-!
# Uploads of the web interface and of the firmware

`POST_WWW_update` and `POST_OTA_update` of `main/http_server/http_server.c` with
`bzm_ota_guard.c`.  A handler is a script that keeps what it did, newest first; where the
results of `httpd_req_recv` run out it waits for the rest of the body.  The outcomes of the
flash, guard and OTA operations are inputs.
-/

namespace EspMiner

open Library

/-- `bzm_ota_guard_t`, with both operations set. -/
structure BzmOtaGuard where
  active : Bool
  retainedForReboot : Bool

/-- An operation on the flash succeeds, or fails and leaves something there. -/
inductive FlashResult where
  | ok
  | failed (left : List U8)
  deriving DecidableEq

/-- What `httpd_req_recv` gives: a positive count, up to what was asked, a timeout, or
another count that is not positive. -/
inductive RecvResult where
  | received (more : Nat)
  | timeout
  | failed
  deriving DecidableEq

inductive UpdateEvent where
  | acquire (acquired : Bool)
  | release (released : Bool)
  | eraseRange (offset size : Nat) (result : FlashResult)
  | partitionWrite (offset : Nat) (bytes : List U8) (result : FlashResult)
  | otaBegin (size : Nat) (begun : Bool)
  | otaWrite (bytes : List U8) (written : Bool)
  | otaAbort
  | otaEnd (valid : Bool)
  | setBootPartition (selected : Bool)
  | useCustomWww (value : Bool)
  | lastFwFingerprint (text : String)
  | restart
  deriving DecidableEq

/-- The fields of `SYSTEM_MODULE` that describe an update. -/
structure FirmwareUpdate where
  isFirmwareUpdate : Bool
  firmwareUpdateFilename : String
  firmwareUpdateStatus : String

structure UpdateMachine where
  system : FirmwareUpdate
  guard : BzmOtaGuard
  unread : List U8
  events : List UpdateEvent

abbrev UpdateHandler := EStateM Unit UpdateMachine

inductive HttpReply where
  | sent (text : String)
  | error (status : Nat) (message : String)
  deriving DecidableEq

/-- `content_len` is a `size_t`. -/
structure UploadRequest where
  body : List U8
  fits : body.length < 2 ^ 32

def UploadRequest.contentLen (request : UploadRequest) : Nat := request.body.length

/-- A partition lies in the flash, whose size is an `int`. -/
structure FlashPartition where
  contents : List U8
  inFlash : contents.length < 2 ^ 31

def FlashPartition.size (partition : FlashPartition) : Nat := partition.contents.length

structure UploadOutcomes where
  networkAllowed : Bool
  apMode : Bool
  acquired : Bool
  released : Bool
  recvs : List RecvResult

/-- With the results of erasing and writing at an offset. -/
structure WwwOutcomes extends UploadOutcomes where
  erase : Nat → FlashResult
  write : Nat → FlashResult

/-- With the result of writing what follows some number of bytes. -/
structure OtaOutcomes extends UploadOutcomes where
  begun : Bool
  write : Nat → Bool
  valid : Bool
  selected : Bool

namespace UpdateMachine

def start (system : FirmwareUpdate) (request : UploadRequest) : UpdateMachine where
  system := system
  guard := ⟨false, false⟩
  unread := request.body
  events := []

def record (event : UpdateEvent) (m : UpdateMachine) : UpdateMachine :=
  { m with events := event :: m.events }

def setGuard (guard : BzmOtaGuard) (m : UpdateMachine) : UpdateMachine := { m with guard := guard }

def setStatus (status : String) (m : UpdateMachine) : UpdateMachine :=
  { m with system := { m.system with firmwareUpdateStatus := status } }

def setFirmwareUpdate (value : Bool) (m : UpdateMachine) : UpdateMachine :=
  { m with system := { m.system with isFirmwareUpdate := value } }

def setFilename (filename : String) (m : UpdateMachine) : UpdateMachine :=
  { m with system := { m.system with firmwareUpdateFilename := filename } }

end UpdateMachine

open UpdateMachine

/-! ## The guard -/

def bzmOtaGuardInit : UpdateHandler PUnit := modify (setGuard ⟨false, false⟩)

def bzmOtaGuardBegin (acquired : Bool) : UpdateHandler Bool := do
  let m ← get
  if m.guard.active ∨ m.guard.retainedForReboot then pure false
  else do
    modify (record (.acquire acquired))
    if acquired then do
      modify (setGuard { m.guard with active := true })
      pure true
    else pure false

def bzmOtaGuardRelease (released : Bool) : UpdateHandler Bool := do
  let m ← get
  if m.guard.active = false ∨ m.guard.retainedForReboot then pure false
  else do
    modify (setGuard { m.guard with active := false })
    modify (record (.release released))
    pure released

def bzmOtaGuardRetainForReboot : UpdateHandler Bool := do
  let m ← get
  if m.guard.active = false ∨ m.guard.retainedForReboot then pure false
  else do
    modify (setGuard { m.guard with retainedForReboot := true })
    pure true

def bzmOtaBegin (acquired : Bool) : UpdateHandler Bool := do
  bzmOtaGuardInit
  bzmOtaGuardBegin acquired

def bzmOtaErrorAfterRelease (released : Bool) (error : Nat) (message : String) :
    UpdateHandler HttpReply := do
  if ← bzmOtaGuardRelease released then pure (.error error message)
  else do
    modify (setStatus "Safe-off Error")
    pure (.error 500 "Update failed and Bonanza safe-off release could not be verified")

/-- How every failing path of the two handlers ends. -/
def failUpdate (released : Bool) (error : Nat) (message : String) : UpdateHandler HttpReply := do
  modify (setFirmwareUpdate false)
  bzmOtaErrorAfterRelease released error message

/-! ## Receiving the body -/

/-- The bytes that follow in the body. -/
def httpdReqRecv (more asked : Nat) : UpdateHandler (List U8) := do
  let m ← get
  let count := min (more + 1) asked
  modify fun m => { m with unread := m.unread.drop count }
  pure (m.unread.take count)

/-- `100 - ((remaining * 100 / req->content_len))` as a `uint8_t`. -/
def updatePercentage (remaining : Int) (contentLen : Nat) : Nat :=
  (((100 : BitVec 32) - BitVec.ofInt 32 (remaining * 100) / BitVec.ofNat 32 contentLen).setWidth
    8).toNat

/-- The receiving loop of the two handlers: what it writes each part with, and the status of
the path on which it fails. -/
def receiveBody (contentLen : Nat) (write : Int → List U8 → UpdateHandler Bool) :
    List RecvResult → Int → UpdateHandler (Option String)
  | [], remaining => if remaining > 0 then throw () else pure none
  | result :: recvs, remaining =>
      if remaining > 0 then
        match result with
        | .timeout => receiveBody contentLen write recvs remaining
        | .failed => pure (some "Protocol Error")
        | .received more => do
            let bytes ← httpdReqRecv more (min remaining.toNat 1000)
            if ← write remaining bytes then do
              modify (setStatus s!"Working ({updatePercentage remaining contentLen}%)")
              receiveBody contentLen write recvs (remaining - bytes.length)
            else pure (some "Write Error")
      else pure none

/-- `int remaining = req->content_len` -/
def remainingOf (contentLen : Nat) : Int := (BitVec.ofNat 32 contentLen).toInt

/-- What both handlers do before they start, and once they hold the guard. -/
def beginUpload (o : UploadOutcomes) (filename : String) (upload : UpdateHandler HttpReply) :
    UpdateHandler HttpReply :=
  if o.networkAllowed = false then pure (.error 401 "Unauthorized")
  else if o.apMode then pure (.error 500 "Not allowed in AP mode")
  else do
    if ← bzmOtaBegin o.acquired then do
      modify (setFirmwareUpdate true)
      modify (setFilename filename)
      modify (setStatus "Starting...")
      upload
    else pure (.error 409 "Firmware update requires exclusive board shutdown")

/-! ## The web interface -/

/-- The offsets at which the partition is erased. -/
def eraseOffsets (size : Nat) : List Nat := (List.range ((size + 65535) / 65536)).map (65536 * ·)

/-- The erasing loop. -/
def erasePartition (size : Nat) (erase : Nat → FlashResult) : List Nat → UpdateHandler Bool
  | [] => pure true
  | offset :: offsets => do
      modify (record (.eraseRange offset (min 65536 (size - offset)) (erase offset)))
      match erase offset with
      | .ok => erasePartition size erase offsets
      | .failed _ => pure false

/-- `esp_partition_write` of a part of the body. -/
def writePartition (size : Nat) (write : Nat → FlashResult) (remaining : Int) (bytes : List U8) :
    UpdateHandler Bool := do
  let offset := ((size : Int) - remaining).toNat
  modify (record (.partitionWrite offset bytes (write offset)))
  pure (decide (write offset = .ok))

/-- The end of `POST_WWW_update`, after the last part of the body. -/
def finishWww (released : Bool) : UpdateHandler HttpReply := do
  modify (setStatus "Finished...")
  modify (record (.useCustomWww true))
  modify (setStatus "Rebooting...")
  if ← bzmOtaGuardRetainForReboot then do
    modify (record .restart)
    pure (.sent "WWW update complete, rebooting now!\n")
  else failUpdate released 500 "Unable to retain Bonanza WWW update ownership for reboot"

/-- The rest of `POST_WWW_update`, with the guard held and the partition found. -/
def updateWww (partition : FlashPartition) (o : WwwOutcomes) (contentLen : Nat) :
    UpdateHandler HttpReply :=
  if (BitVec.ofInt 32 (remainingOf contentLen)).toNat > partition.size then
    failUpdate o.released 400 "File provided is too large for device"
  else do
    if ← erasePartition partition.size o.erase (eraseOffsets partition.size) then do
      match ← receiveBody contentLen (writePartition partition.size o.write) o.recvs
          (remainingOf contentLen) with
      | some status => do
          modify (setStatus status)
          failUpdate o.released 500 status
      | none => finishWww o.released
    else do
      modify (setStatus "Erase Error")
      failUpdate o.released 500 "Erase Error"

def postWwwUpdate (partition : Option FlashPartition) (o : WwwOutcomes) (contentLen : Nat) :
    UpdateHandler HttpReply :=
  beginUpload o.toUploadOutcomes "www.bin" <|
    match partition with
    | none => failUpdate o.released 500 "WWW partition not found"
    | some partition => updateWww partition o contentLen

/-! ## The firmware -/

/-- `esp_ota_write` of a part of the body. -/
def writeOta (contentLen : Nat) (write : Nat → Bool) (remaining : Int) (bytes : List U8) :
    UpdateHandler Bool := do
  let written := write ((contentLen : Int) - remaining).toNat
  modify (record (.otaWrite bytes written))
  pure written

def systemResetCustomWww : UpdateHandler PUnit := do
  modify (record (.useCustomWww false))
  modify (record (.lastFwFingerprint ""))

/-- `esp_ota_begin`, when the image fits in the partition. -/
def otaBegin (partitionSize : Option Nat) (begun : Bool) (contentLen : Nat) :
    UpdateHandler Bool :=
  match partitionSize with
  | none => pure false
  | some size =>
      if contentLen = 0 ∨ contentLen > size then pure false
      else do
        modify (record (.otaBegin contentLen begun))
        pure begun

/-- `esp_ota_end`, and `esp_ota_set_boot_partition` when it succeeds. -/
def otaEnd (valid selected : Bool) : UpdateHandler Bool := do
  modify (record (.otaEnd valid))
  if valid then do
    modify (record (.setBootPartition selected))
    pure selected
  else pure false

/-- The end of `POST_OTA_update`, after the last part of the image. -/
def finishOta (o : OtaOutcomes) : UpdateHandler HttpReply := do
  if ← otaEnd o.valid o.selected then do
    modify (setStatus "Rebooting...")
    if ← bzmOtaGuardRetainForReboot then do
      systemResetCustomWww
      modify (record .restart)
      pure (.sent "Firmware update complete, rebooting now!\n")
    else failUpdate o.released 500 "Unable to retain Bonanza OTA ownership for reboot"
  else do
    modify (setStatus "Validation Error")
    failUpdate o.released 500 "Validation / Activation Error"

/-- The rest of `POST_OTA_update`, with the guard held. -/
def updateOta (partitionSize : Option Nat) (o : OtaOutcomes) (contentLen : Nat) :
    UpdateHandler HttpReply := do
  if ← otaBegin partitionSize o.begun contentLen then do
    match ← receiveBody contentLen (writeOta contentLen o.write) o.recvs
        (remainingOf contentLen) with
    | some status => do
        modify (record .otaAbort)
        modify (setStatus status)
        failUpdate o.released 500 status
    | none => finishOta o
  else failUpdate o.released 500 "Unable to begin OTA update"

def postOtaUpdate (partition : Option FlashPartition) (o : OtaOutcomes) (contentLen : Nat) :
    UpdateHandler HttpReply :=
  beginUpload o.toUploadOutcomes "esp-miner.bin" <|
    updateOta (partition.map FlashPartition.size) o contentLen

end EspMiner
