import EspMiner.Asic.Job
import EspMiner.Library.Journal

/-!
# Programming the bridge controller

`components/asic/bzm_bridge_swd.c`: the flash of the RP2040 is erased, programmed and read
back over SWD, by a stub in its SRAM that is run once for each operation.  What one word
access or an attachment comes to is the link's answer; it may depend on everything before.
-/

namespace EspMiner

open Library

def BZM_BRIDGE_FLASH_CAPACITY : Nat := 2 * 1024 * 1024
def BZM_BRIDGE_FLASH_PAGE_SIZE : Nat := 256
def BZM_BRIDGE_FLASH_CHUNK_SIZE : Nat := 16 * 1024

def RP2040_TARGETSEL_CORE0 : U32 := 0x01002927
def RP2040_TARGETSEL_CORE1 : U32 := 0x11002927

def SWD_AIRCR_ADDR : U32 := 0xe000ed0c
def SWD_DHCSR_ADDR : U32 := 0xe000edf0
def SWD_DCRSR_ADDR : U32 := 0xe000edf4
def SWD_DCRDR_ADDR : U32 := 0xe000edf8

def SWD_AIRCR_VECTKEY : U32 := 0x05fa0000
def SWD_AIRCR_SYSRESETREQ : U32 := 1#32 <<< 2
def SWD_DHCSR_DBGKEY : U32 := 0xa05f0000
def SWD_DHCSR_C_DEBUGEN : U32 := 1#32 <<< 0
def SWD_DHCSR_C_HALT : U32 := 1#32 <<< 1
def SWD_DHCSR_S_REGRDY : U32 := 1#32 <<< 16
def SWD_DHCSR_S_HALT : U32 := 1#32 <<< 17

def SWD_DCRSR_REGWNR : U32 := 1#32 <<< 16
def SWD_CORE_REG_R0 : U32 := 0
def SWD_CORE_REG_PC : U32 := 15
def SWD_CORE_REG_XPSR : U32 := 16
def SWD_CORE_REG_MSP : U32 := 17

def SWD_RP2040_XIP_BASE : U32 := 0x10000000
def SWD_RP2040_STUB_BASE : U32 := 0x20030000
def SWD_RP2040_STUB_STACK_TOP : U32 := 0x20042000
def SWD_RP2040_STUB_DATA_BASE : U32 := 0x20032000
def SWD_RP2040_STUB_CTX_ADDR : U32 := 0x2003ff00

def SWD_FLASH_SECTOR_SIZE : Nat := 4096
def SWD_STUB_OP_ERASE : U32 := 1
def SWD_STUB_OP_PROGRAM : U32 := 2
def SWD_STUB_STATUS_IDLE : U32 := 0
def SWD_STUB_STATUS_OK : U32 := 2
def SWD_STUB_STAGE_IDLE : U32 := 0
def SWD_STUB_STAGE_DONE : U32 := 3

def SWD_REG_POLL_LIMIT : Nat := 128
def SWD_RUN_POLL_LIMIT : Nat := 2000

/-- `RP2040_FLASH_STUB_BIN` -/
def RP2040_FLASH_STUB_BIN : List U8 :=
  [0xf0, 0xb5, 0x04, 0x00, 0x85, 0xb0, 0x2c, 0x48, 0x00, 0xf0, 0x66, 0xf8, 0x07, 0x00,
    0x2b, 0x48, 0x00, 0xf0, 0x62, 0xf8, 0x01, 0x90, 0x2a, 0x48, 0x00, 0xf0, 0x5e, 0xf8,
    0x02, 0x90, 0x29, 0x48, 0x00, 0xf0, 0x5a, 0xf8, 0x03, 0x90, 0x28, 0x48, 0x00, 0xf0,
    0x56, 0xf8, 0x06, 0x00, 0x27, 0x48, 0x00, 0xf0, 0x52, 0xf8, 0x05, 0x00, 0x72, 0xb6,
    0x01, 0x23, 0x63, 0x60, 0x00, 0x23, 0xa3, 0x60, 0xe3, 0x60, 0x9f, 0x42, 0x0c, 0xd0,
    0x01, 0x9b, 0x00, 0x2b, 0x09, 0xd0, 0x02, 0x9b, 0x00, 0x2b, 0x06, 0xd0, 0x03, 0x9b,
    0x00, 0x2b, 0x03, 0xd0, 0x00, 0x2e, 0x01, 0xd0, 0x00, 0x28, 0x03, 0xd1, 0x1b, 0x4b,
    0x63, 0x60, 0x00, 0xbe, 0xfe, 0xe7, 0xb8, 0x47, 0x01, 0x9b, 0x98, 0x47, 0x23, 0x68,
    0x01, 0x2b, 0x0f, 0xd1, 0x80, 0x22, 0xa3, 0x60, 0x61, 0x69, 0x20, 0x69, 0x02, 0x9f,
    0xd7, 0x33, 0x52, 0x02, 0xb8, 0x47, 0xb0, 0x47, 0xa8, 0x47, 0x02, 0x23, 0x63, 0x60,
    0x01, 0x33, 0xa3, 0x60, 0x00, 0xbe, 0xfe, 0xe7, 0x02, 0x2b, 0x08, 0xd1, 0xa3, 0x60,
    0x62, 0x69, 0x03, 0x9b, 0xa1, 0x69, 0x20, 0x69, 0x98, 0x47, 0x63, 0x69, 0xe3, 0x60,
    0xec, 0xe7, 0x0a, 0x4b, 0x63, 0x60, 0xb0, 0x47, 0xa8, 0x47, 0x00, 0xbe, 0xfe, 0xe7,
    0xc0, 0x46, 0x49, 0x46, 0x00, 0x00, 0x45, 0x58, 0x00, 0x00, 0x52, 0x45, 0x00, 0x00,
    0x52, 0x50, 0x00, 0x00, 0x46, 0x43, 0x00, 0x00, 0x43, 0x58, 0x00, 0x00, 0x02, 0xe0,
    0x00, 0x00, 0x01, 0xe0, 0x00, 0x00, 0x18, 0x23, 0x10, 0xb5, 0x1a, 0x88, 0x04, 0x3b,
    0x01, 0x00, 0x18, 0x88, 0x80, 0xb2, 0x90, 0x47, 0x10, 0xbd]

/-! ## The link -/

/-- One word access, or an attachment, with what came of it. -/
inductive SwdEvent where
  | configurePins (ok : Bool)
  | attach (targetsel : U32) (ok : Bool)
  | write (address value : U32) (ok : Bool)
  | read (address : U32) (answer : Option U32)
deriving DecidableEq

/-- The `esp_err_t` codes; `link` is any that a word access or an attachment gives. -/
inductive SwdError where
  | link
  | invalidArg
  | invalidCrc
  | invalidSize
  | invalidState
  | timeout
  | failed
deriving DecidableEq, Repr

/-- How the other side behaves: what an operation comes to behind those before it. -/
structure SwdLink where
  configurePins : List SwdEvent → Bool
  attach : List SwdEvent → U32 → Bool
  write : List SwdEvent → U32 → U32 → Bool
  read : List SwdEvent → U32 → Option U32

abbrev Swd := Journal SwdError SwdEvent

section Operations

variable (link : SwdLink)

/-- `ESP_OK`, or an error of the link. -/
def swdResult (ok : Bool) : Except SwdError Unit := if ok then .ok () else .error .link

def succeeded : Except SwdError Unit → Bool
  | .ok _ => true
  | .error _ => false

/-- `swd_mem_read_word32` -/
def swdMemReadWord32 (address : U32) : Swd U32 :=
  Journal.perform (fun journal => (link.read journal address).elim (.error .link) .ok)
    fun result => .read address result.toOption

/-- `swd_mem_write_word32` -/
def swdMemWriteWord32 (address value : U32) : Swd Unit :=
  Journal.perform (fun journal => swdResult (link.write journal address value))
    fun result => .write address value (succeeded result)

/-- `swd_attach_target` -/
def swdAttachTarget (targetsel : U32) : Swd Unit :=
  Journal.perform (fun journal => swdResult (link.attach journal targetsel))
    fun result => .attach targetsel (succeeded result)

/-- `swd_configure_pins` -/
def swdConfigurePins : Swd Unit :=
  Journal.perform (fun journal => swdResult (link.configurePins journal))
    fun result => .configurePins (succeeded result)

/-! ## Blocks -/

/-- The offsets `0, 4, 8, ..` below a length. -/
def wordOffsets (length : Nat) : List Nat := (List.range ((length + 3) / 4)).map (4 * ·)

/-- The word that `swd_mem_write_block` puts together at an offset. -/
def blockWord (data : List U8) (offset : Nat) : U32 :=
  (List.range 4).foldl (fun word i =>
    if offset + i < data.length then
      word ||| (data.getD (offset + i) 0).setWidth 32 <<< (8 * i)
    else word) 0#32

/-- `swd_mem_write_block` -/
def swdMemWriteBlock (address : U32) (data : List U8) : Swd Unit :=
  Journal.forEach (wordOffsets data.length) fun offset =>
    swdMemWriteWord32 link (address + BitVec.ofNat 32 offset) (blockWord data offset)

/-- One of the bytes of a word that was read back. -/
def byteOfWord (word : U32) (i : Nat) : U8 := (word >>> (8 * i)).setWidth 8

/-- The inner loop of `swd_mem_verify_block` finds no difference. -/
def wordMatches (expected : List U8) (offset : Nat) (word : U32) : Bool :=
  (List.range 4).all fun i =>
    decide (offset + i < expected.length → byteOfWord word i = expected.getD (offset + i) 0)

/-- `swd_mem_verify_block` -/
def swdMemVerifyBlock (address : U32) (expected : List U8) : Swd Unit :=
  Journal.forEach (wordOffsets expected.length) fun offset => do
    let actualWord ← swdMemReadWord32 link (address + BitVec.ofNat 32 offset)
    if wordMatches expected offset actualWord then pure () else Journal.fail .invalidCrc

/-! ## The core -/

/-- The loop of `swd_halt_attached_core`. -/
def swdPollHalt : Nat → Swd U32
  | 0 => Journal.fail .timeout
  | polls + 1 => do
      let dhcsr ← swdMemReadWord32 link SWD_DHCSR_ADDR
      if dhcsr &&& SWD_DHCSR_S_HALT ≠ 0#32 then pure dhcsr else swdPollHalt polls

/-- `swd_halt_attached_core`; the value is `*dhcsr_out`. -/
def swdHaltAttachedCore : Swd U32 := do
  swdMemWriteWord32 link SWD_DHCSR_ADDR
    (SWD_DHCSR_DBGKEY ||| SWD_DHCSR_C_DEBUGEN ||| SWD_DHCSR_C_HALT)
  swdPollHalt link SWD_REG_POLL_LIMIT

/-- The loop that waits for a register transfer. -/
def swdPollRegister : Nat → Swd Unit
  | 0 => Journal.fail .timeout
  | polls + 1 => do
      let dhcsr ← swdMemReadWord32 link SWD_DHCSR_ADDR
      if dhcsr &&& SWD_DHCSR_S_REGRDY ≠ 0#32 then pure () else swdPollRegister polls

/-- `swd_write_core_reg` -/
def swdWriteCoreReg (regsel value : U32) : Swd Unit := do
  swdMemWriteWord32 link SWD_DCRDR_ADDR value
  swdMemWriteWord32 link SWD_DCRSR_ADDR (SWD_DCRSR_REGWNR ||| regsel)
  swdPollRegister link SWD_REG_POLL_LIMIT

/-- `swd_read_core_reg` -/
def swdReadCoreReg (regsel : U32) : Swd U32 := do
  swdMemWriteWord32 link SWD_DCRSR_ADDR regsel
  swdPollRegister link SWD_REG_POLL_LIMIT
  swdMemReadWord32 link SWD_DCRDR_ADDR

/-- `swd_reset_system_attached` -/
def swdResetSystemAttached : Swd Unit :=
  swdMemWriteWord32 link SWD_AIRCR_ADDR (SWD_AIRCR_VECTKEY ||| SWD_AIRCR_SYSRESETREQ)

/-- `swd_halt_core` -/
def swdHaltCore (targetsel : U32) : Swd Unit := do
  swdAttachTarget link targetsel
  let dhcsr ← swdHaltAttachedCore link
  if dhcsr &&& SWD_DHCSR_S_HALT = 0#32 then Journal.fail .invalidState else pure ()

/-! ## The stub -/

/-- `swd_flash_stub_ctx_t` -/
structure SwdFlashStubCtx where
  op : U32
  status : U32
  stage : U32
  progress : U32
  flashOffset : U32
  count : U32
  dataAddr : U32

/-- The bytes of a context in memory. -/
def SwdFlashStubCtx.bytes (ctx : SwdFlashStubCtx) : List U8 :=
  [ctx.op, ctx.status, ctx.stage, ctx.progress, ctx.flashOffset, ctx.count, ctx.dataAddr].flatMap
    writeLe32

/-- `bzm_bridge_stub_poll_result_t` -/
inductive BzmBridgeStubPollResult where
  | wait
  | complete
  | failed
deriving DecidableEq, Repr

/-- `bzm_bridge_flash_stub_poll_result` -/
def bzmBridgeFlashStubPollResult (observedRunning halted : Bool) (status stage : U32) :
    BzmBridgeStubPollResult :=
  if !halted then .wait
  else if status = SWD_STUB_STATUS_OK ∧ stage = SWD_STUB_STAGE_DONE then .complete
  else if !observedRunning ∧ status = SWD_STUB_STATUS_IDLE then .wait
  else .failed

/-- Reading the context's stage and progress, whose errors are ignored: the stage stays
what it was where it is not read. -/
def swdReadStage (ctxAddr stubStage : U32) : Swd U32 := do
  let stage ← (swdMemReadWord32 link (ctxAddr + 8#32)).attempt
  let _ ← (swdMemReadWord32 link (ctxAddr + 12#32)).attempt
  pure (stage.getD stubStage)

/-- The loop of `swd_run_stub_attached`, with `polls` passes left; the value is the status
of a stub that completed. -/
def swdPollStub (ctxAddr : U32) : Nat → Bool → U32 → Swd U32
  | 0, _, stubStage => do
      let _ ← (swdHaltAttachedCore link).attempt
      let _ ← (swdReadCoreReg link SWD_CORE_REG_PC).attempt
      let _ ← (swdReadCoreReg link SWD_CORE_REG_R0).attempt
      let _ ← (swdMemReadWord32 link (ctxAddr + 4#32)).attempt
      let _ ← swdReadStage link ctxAddr stubStage
      Journal.fail .timeout
  | polls + 1, ran, stubStage => do
      let dhcsr ← swdMemReadWord32 link SWD_DHCSR_ADDR
      if dhcsr &&& SWD_DHCSR_S_HALT = 0#32 then
        -- every sixteenth pass looks at the stage, for a log line
        if (SWD_RUN_POLL_LIMIT - (polls + 1)) % 16 = 15 then
          let stubStage ← swdReadStage link ctxAddr stubStage
          swdPollStub ctxAddr polls true stubStage
        else swdPollStub ctxAddr polls true stubStage
      else
        let stubStatus ← swdMemReadWord32 link (ctxAddr + 4#32)
        let stubStage ← swdReadStage link ctxAddr stubStage
        match bzmBridgeFlashStubPollResult ran true stubStatus stubStage with
        | .wait => swdPollStub ctxAddr polls ran stubStage
        | .complete => pure stubStatus
        | .failed => Journal.fail .failed

/-- The write that lets the core run. -/
def swdResumeValue : U32 := SWD_DHCSR_DBGKEY ||| SWD_DHCSR_C_DEBUGEN

/-- `swd_run_stub_attached` -/
def swdRunStubAttached (ctxAddr : U32) : Swd U32 := do
  let _ ← (swdMemReadWord32 link (ctxAddr + 20#32)).attempt
  swdWriteCoreReg link SWD_CORE_REG_R0 ctxAddr
  swdWriteCoreReg link SWD_CORE_REG_MSP SWD_RP2040_STUB_STACK_TOP
  swdWriteCoreReg link SWD_CORE_REG_PC (SWD_RP2040_STUB_BASE ||| 1#32)
  swdWriteCoreReg link SWD_CORE_REG_XPSR 0x01000000#32
  swdMemWriteWord32 link SWD_DHCSR_ADDR swdResumeValue
  swdPollStub link ctxAddr SWD_RUN_POLL_LIMIT false SWD_STUB_STAGE_IDLE

/-- The context that `swd_run_flash_operation` uploads. -/
def flashOperationCtx (op flashOffset count dataAddress : U32) : SwdFlashStubCtx where
  op := op
  status := SWD_STUB_STATUS_IDLE
  stage := SWD_STUB_STAGE_IDLE
  progress := 0
  flashOffset := flashOffset
  count := count
  dataAddr := dataAddress

/-- `swd_run_flash_operation` -/
def swdRunFlashOperation (op flashOffset count dataAddress : U32) : Swd Unit := do
  swdMemWriteBlock link SWD_RP2040_STUB_CTX_ADDR
    (flashOperationCtx op flashOffset count dataAddress).bytes
  let stubStatus ← swdRunStubAttached link SWD_RP2040_STUB_CTX_ADDR
  if stubStatus = SWD_STUB_STATUS_OK then pure () else Journal.fail .failed

end Operations

/-! ## Chunks -/

/-- `bzm_bridge_flash_chunk_t` -/
structure BzmBridgeFlashChunk where
  sourceLength : Nat
  programLength : Nat
deriving DecidableEq, Repr

/-- `source_length` of the next chunk: no more than a chunk, in whole pages but for a last
part of one. -/
def chunkSourceLength (remaining : Nat) : Nat :=
  let sourceLength :=
    if remaining < BZM_BRIDGE_FLASH_CHUNK_SIZE then remaining else BZM_BRIDGE_FLASH_CHUNK_SIZE
  if BZM_BRIDGE_FLASH_PAGE_SIZE ≤ sourceLength then
    sourceLength - sourceLength % BZM_BRIDGE_FLASH_PAGE_SIZE
  else sourceLength

/-- `bzm_bridge_flash_next_chunk` -/
def bzmBridgeFlashNextChunk (imageSize offset : Nat) : Option BzmBridgeFlashChunk :=
  if imageSize = 0 ∨ imageSize ≤ offset ∨ offset % BZM_BRIDGE_FLASH_PAGE_SIZE ≠ 0 then none
  else
    let sourceLength := chunkSourceLength (imageSize - offset)
    let programLength :=
      if sourceLength < BZM_BRIDGE_FLASH_PAGE_SIZE then BZM_BRIDGE_FLASH_PAGE_SIZE
      else sourceLength
    if sourceLength ≠ 0 then some ⟨sourceLength, programLength⟩ else none

/-- `erase_length` -/
def eraseLength (imageSize : Nat) : Nat :=
  (imageSize + SWD_FLASH_SECTOR_SIZE - 1) / SWD_FLASH_SECTOR_SIZE * SWD_FLASH_SECTOR_SIZE

/-- The buffer that `bzm_bridge_swd_flash` stages for a chunk: `program_length` bytes of the
image, or of `tail`. -/
def stagedBuffer (image : List U8) (offset : Nat) (chunk : BzmBridgeFlashChunk) : List U8 :=
  let source := image.drop offset
  if chunk.programLength ≠ chunk.sourceLength then
    (source.take chunk.sourceLength ++
      List.replicate (BZM_BRIDGE_FLASH_PAGE_SIZE - chunk.sourceLength) 0xff#8).take
        chunk.programLength
  else source.take chunk.programLength

section Flash

variable (link : SwdLink) (image : List U8)

/-- The loop that programs, from an offset on.  Each pass advances the offset, so that as
many passes as the image has bytes are enough. -/
def programFrom : Nat → Nat → Swd Unit
  | 0, _ => pure ()
  | passes + 1, offset =>
      if offset < image.length then
        match bzmBridgeFlashNextChunk image.length offset with
        | none => Journal.fail .invalidSize
        | some chunk => do
            swdMemWriteBlock link SWD_RP2040_STUB_DATA_BASE (stagedBuffer image offset chunk)
            swdRunFlashOperation link SWD_STUB_OP_PROGRAM (BitVec.ofNat 32 offset)
              (BitVec.ofNat 32 chunk.programLength) SWD_RP2040_STUB_DATA_BASE
            programFrom passes (offset + chunk.sourceLength)
      else pure ()

/-- `length` in the loop that verifies. -/
def verifyLength (imageSize offset : Nat) : Nat :=
  if BZM_BRIDGE_FLASH_CHUNK_SIZE < imageSize - offset then BZM_BRIDGE_FLASH_CHUNK_SIZE
  else imageSize - offset

/-- The loop that verifies, from an offset on. -/
def verifyFrom : Nat → Nat → Swd Unit
  | 0, _ => pure ()
  | passes + 1, offset =>
      if offset < image.length then do
        swdMemVerifyBlock link (SWD_RP2040_XIP_BASE + BitVec.ofNat 32 offset)
          ((image.drop offset).take (verifyLength image.length offset))
        verifyFrom passes (offset + verifyLength image.length offset)
      else pure ()

/-- `bzm_bridge_swd_flash` -/
def bzmBridgeSwdFlash : Swd Unit :=
  if image.length = 0 ∨ BZM_BRIDGE_FLASH_CAPACITY < image.length then
    Journal.fail .invalidArg
  else do
    swdConfigurePins link
    swdHaltCore link RP2040_TARGETSEL_CORE1
    swdAttachTarget link RP2040_TARGETSEL_CORE0
    let _ ← swdHaltAttachedCore link
    swdMemWriteBlock link SWD_RP2040_STUB_BASE RP2040_FLASH_STUB_BIN
    swdRunFlashOperation link SWD_STUB_OP_ERASE 0 (BitVec.ofNat 32 (eraseLength image.length)) 0
    programFrom link image image.length 0
    verifyFrom link image image.length 0
    swdResetSystemAttached link

end Flash

end EspMiner
