import EspMiner.Bzm.BridgeSwd
import EspMiner.Bzm.WorkHash

/-!
# A bridge is programmed completely or the failure is reported

The chunks of an image lie one behind the other, and the flash operations for them stand
in the journal of every run that ends without an error: one erase of the rounded length,
one program operation for each chunk, and behind these a read of every word of the image.
-/

namespace EspMiner

variable {chunks : List (Nat × BzmBridgeFlashChunk)}

open Library

/-! ## Chunks -/

section Chunks

variable {imageSize offset : Nat} {chunk : BzmBridgeFlashChunk}

/-- What `bzm_bridge_flash_next_chunk` promises of a chunk. -/
structure ChunkFits (imageSize offset : Nat) (chunk : BzmBridgeFlashChunk) : Prop where
  onPage : offset % BZM_BRIDGE_FLASH_PAGE_SIZE = 0
  inImage : offset + chunk.sourceLength ≤ imageSize
  nonempty : 0 < chunk.sourceLength
  wholePages : chunk.programLength % BZM_BRIDGE_FLASH_PAGE_SIZE = 0
  programmed : chunk.sourceLength ≤ chunk.programLength
  inChunk : chunk.programLength ≤ BZM_BRIDGE_FLASH_CHUNK_SIZE
  tail : chunk.programLength = chunk.sourceLength ∨
    chunk.programLength = BZM_BRIDGE_FLASH_PAGE_SIZE ∧ offset + chunk.sourceLength = imageSize

theorem chunkSourceLength_spec {remaining : Nat} (h : 0 < remaining) :
    0 < chunkSourceLength remaining ∧ chunkSourceLength remaining ≤ remaining ∧
      chunkSourceLength remaining ≤ BZM_BRIDGE_FLASH_CHUNK_SIZE ∧
      (chunkSourceLength remaining % BZM_BRIDGE_FLASH_PAGE_SIZE = 0 ∨
        chunkSourceLength remaining = remaining ∧ remaining < BZM_BRIDGE_FLASH_PAGE_SIZE) := by
  obtain ⟨bounded, hbounded⟩ : ∃ bounded, bounded =
      if remaining < BZM_BRIDGE_FLASH_CHUNK_SIZE then remaining
      else BZM_BRIDGE_FLASH_CHUNK_SIZE := ⟨_, rfl⟩
  have hcases : bounded ≤ BZM_BRIDGE_FLASH_CHUNK_SIZE ∧
      (bounded = remaining ∨ bounded = BZM_BRIDGE_FLASH_CHUNK_SIZE ∧ bounded ≤ remaining) := by
    rw [hbounded]
    split <;> omega
  rw [chunkSourceLength, ← hbounded]
  by_cases hpage : BZM_BRIDGE_FLASH_PAGE_SIZE ≤ bounded
  · simp only [if_pos hpage]
    simp only [BZM_BRIDGE_FLASH_PAGE_SIZE, BZM_BRIDGE_FLASH_CHUNK_SIZE] at *
    omega
  · simp only [if_neg hpage]
    simp only [BZM_BRIDGE_FLASH_PAGE_SIZE, BZM_BRIDGE_FLASH_CHUNK_SIZE] at *
    omega

theorem nextChunk_fits (h : bzmBridgeFlashNextChunk imageSize offset = some chunk) :
    ChunkFits imageSize offset chunk := by
  unfold bzmBridgeFlashNextChunk at h
  split at h
  · cases h
  · next hoffset =>
    obtain ⟨hpos, hle, hchunk, hpages⟩ := chunkSourceLength_spec
      (show 0 < imageSize - offset by omega)
    generalize chunkSourceLength (imageSize - offset) = sourceLength at h hpos hle hchunk hpages
    simp only [if_pos hpos.ne', Option.some.injEq] at h
    have hsource : chunk.sourceLength = sourceLength := by
      rw [← h]
    have hprogram : sourceLength < BZM_BRIDGE_FLASH_PAGE_SIZE ∧
        chunk.programLength = BZM_BRIDGE_FLASH_PAGE_SIZE ∨
        BZM_BRIDGE_FLASH_PAGE_SIZE ≤ sourceLength ∧ chunk.programLength = sourceLength := by
      rw [← h]
      simp only
      split <;> omega
    constructor <;>
      simp only [BZM_BRIDGE_FLASH_PAGE_SIZE, BZM_BRIDGE_FLASH_CHUNK_SIZE] at * <;> omega

theorem exists_nextChunk (hlt : offset < imageSize)
    (hpage : offset % BZM_BRIDGE_FLASH_PAGE_SIZE = 0) :
    ∃ chunk, bzmBridgeFlashNextChunk imageSize offset = some chunk := by
  have hguard : ¬ (imageSize = 0 ∨ imageSize ≤ offset ∨
      offset % BZM_BRIDGE_FLASH_PAGE_SIZE ≠ 0) := by
    omega
  have hpos := (chunkSourceLength_spec (show 0 < imageSize - offset by omega)).1
  simp only [bzmBridgeFlashNextChunk, if_neg hguard, if_pos hpos.ne']
  exact ⟨_, rfl⟩

theorem ChunkFits.next_onPage (h : ChunkFits imageSize offset chunk)
    (hlt : offset + chunk.sourceLength < imageSize) :
    (offset + chunk.sourceLength) % BZM_BRIDGE_FLASH_PAGE_SIZE = 0 := by
  have hpage := h.onPage
  have hwhole := h.wholePages
  have htail := h.tail
  simp only [BZM_BRIDGE_FLASH_PAGE_SIZE] at *
  omega

/-- The chunks that `bzm_bridge_flash_next_chunk` gives from an offset on, each with its
offset: the iteration ends where the image does. -/
inductive FlashChunks (imageSize : Nat) : Nat → List (Nat × BzmBridgeFlashChunk) → Prop where
  | done : FlashChunks imageSize imageSize []
  | next {offset : Nat} {chunk : BzmBridgeFlashChunk} {rest : List (Nat × BzmBridgeFlashChunk)}
      (hnext : bzmBridgeFlashNextChunk imageSize offset = some chunk)
      (hrest : FlashChunks imageSize (offset + chunk.sourceLength) rest) :
      FlashChunks imageSize offset ((offset, chunk) :: rest)

/-- The iteration terminates. -/
theorem exists_flashChunks (hle : offset ≤ imageSize)
    (hpage : offset < imageSize → offset % BZM_BRIDGE_FLASH_PAGE_SIZE = 0) :
    ∃ chunks, FlashChunks imageSize offset chunks := by
  induction hd : imageSize - offset using Nat.strongRecOn generalizing offset with
  | ind d ih =>
    rcases Nat.lt_or_eq_of_le hle with hlt | rfl
    · obtain ⟨chunk, hnext⟩ := exists_nextChunk hlt (hpage hlt)
      have hfits := nextChunk_fits hnext
      have hpos := hfits.nonempty
      obtain ⟨rest, hrest⟩ := ih (imageSize - (offset + chunk.sourceLength)) (by omega)
        hfits.inImage hfits.next_onPage rfl
      exact ⟨(offset, chunk) :: rest, .next hnext hrest⟩
    · exact ⟨[], .done⟩

theorem FlashChunks.fits (h : FlashChunks imageSize offset chunks) :
    ∀ entry ∈ chunks, ChunkFits imageSize entry.1 entry.2 := by
  induction h with
  | done => simp
  | next hnext hrest ih =>
    intro entry hentry
    rcases List.mem_cons.mp hentry with rfl | hmem
    · exact nextChunk_fits hnext
    · exact ih entry hmem

/-- The sources of the chunks, put together, are the image. -/
theorem FlashChunks.sources {image : List U8} (h : FlashChunks image.length offset chunks) :
    chunks.flatMap (fun entry => (image.drop entry.1).take entry.2.sourceLength) =
      image.drop offset := by
  induction h with
  | done => simp
  | @next offset chunk rest hnext hrest ih =>
    rw [List.flatMap_cons, ih, ← List.drop_drop, List.take_append_drop]

/-- The bytes staged for a chunk: its source, and 0xff behind it. -/
theorem stagedBuffer_eq {image : List U8} (h : ChunkFits image.length offset chunk) :
    stagedBuffer image offset chunk = (image.drop offset).take chunk.sourceLength ++
      List.replicate (chunk.programLength - chunk.sourceLength) 0xff#8 := by
  have hle := h.inImage
  simp only [stagedBuffer]
  split
  · next hne =>
    have hpage := (h.tail.resolve_left hne).1
    have hprogrammed := h.programmed
    rw [hpage] at hprogrammed ⊢
    apply List.take_of_length_le
    simp
    omega
  · next heq =>
    rw [not_not.mp heq]
    simp

/-- What is programmed of a chunk lies in what is erased, which lies in the flash. -/
theorem ChunkFits.inErased (h : ChunkFits imageSize offset chunk)
    (hcapacity : imageSize ≤ BZM_BRIDGE_FLASH_CAPACITY) :
    offset + chunk.programLength ≤ eraseLength imageSize ∧
      eraseLength imageSize ≤ BZM_BRIDGE_FLASH_CAPACITY := by
  have hpage := h.onPage
  have hin := h.inImage
  have hpos := h.nonempty
  have htail := h.tail
  simp only [eraseLength, BZM_BRIDGE_FLASH_CAPACITY, BZM_BRIDGE_FLASH_PAGE_SIZE,
    SWD_FLASH_SECTOR_SIZE] at *
  omega

end Chunks

/-! ## Operations and their events -/

/-- The write that lets the core run. -/
def SwdEvent.Resumes (event : SwdEvent) : Prop :=
  ∃ ok, event = .write SWD_DHCSR_ADDR swdResumeValue ok

/-- A computation that does not let the core run. -/
abbrev Quiet {α : Type} (x : Swd α) : Prop := Journal.Confined (fun event => ¬ event.Resumes) x

section Words

variable (link : SwdLink)

theorem quiet_readWord (address : U32) : Quiet (swdMemReadWord32 link address) :=
  Journal.confined_perform fun _ => by rintro ⟨ok, h⟩; cases h

theorem quiet_writeWord {address value : U32}
    (h : address ≠ SWD_DHCSR_ADDR ∨ value ≠ swdResumeValue) :
    Quiet (swdMemWriteWord32 link address value) := by
  apply Journal.confined_perform
  rintro _ ⟨ok, heq⟩
  cases heq
  exact h.elim (· rfl) (· rfl)

theorem yields_readWord (address : U32) :
    (swdMemReadWord32 link address).Yields fun word events =>
      events = [.read address (some word)] :=
  Journal.emits_perform (fun _ => rfl) fun _ => trivial

theorem yields_writeWord (address value : U32) :
    (swdMemWriteWord32 link address value).Yields fun _ events =>
      events = [.write address value true] :=
  Journal.emits_perform (fun _ => rfl) fun _ => trivial

/-- The events of a block that was written. -/
def blockWrites (address : U32) (data : List U8) : List SwdEvent :=
  (wordOffsets data.length).map fun offset =>
    .write (address + BitVec.ofNat 32 offset) (blockWord data offset) true

theorem yields_writeBlock (address : U32) (data : List U8) :
    (swdMemWriteBlock link address data).Yields fun _ events =>
      events = blockWrites address data :=
  Journal.yields_forEach_map fun _ _ => yields_writeWord link _ _

/-- A block below the core's registers lets no core run. -/
theorem quiet_writeBlock {address : U32} {data : List U8}
    (h : address.toNat + data.length < SWD_DHCSR_ADDR.toNat) :
    Quiet (swdMemWriteBlock link address data) := by
  apply Journal.confined_forEach
  intro offset hoffset
  apply quiet_writeWord
  left
  intro heq
  obtain ⟨k, hk, rfl⟩ := List.mem_map.mp hoffset
  have hlt := List.mem_range.mp hk
  have htoNat := congrArg BitVec.toNat heq
  have hbound : SWD_DHCSR_ADDR.toNat < 2 ^ 32 := SWD_DHCSR_ADDR.isLt
  rw [BitVec.toNat_add, BitVec.toNat_ofNat, Nat.add_mod_mod, Nat.mod_eq_of_lt (by omega)] at htoNat
  omega

theorem mem_wordOffsets {length i : Nat} (h : i < length) : 4 * (i / 4) ∈ wordOffsets length :=
  List.mem_map.mpr ⟨i / 4, List.mem_range.mpr (by omega), rfl⟩

/-- Every byte of a verified block was read and found equal. -/
theorem yields_verifyBlock (address : U32) (expected : List U8) :
    (swdMemVerifyBlock link address expected).Yields fun _ events =>
      ∀ i, i < expected.length → ∃ word,
        .read (address + BitVec.ofNat 32 (4 * (i / 4))) (some word) ∈ events ∧
          byteOfWord word (i % 4) = expected.getD i 0 := by
  have hbody : ∀ offset ∈ wordOffsets expected.length,
      (do
        let actualWord ← swdMemReadWord32 link (address + BitVec.ofNat 32 offset)
        if wordMatches expected offset actualWord then pure ()
        else Journal.fail .invalidCrc : Swd Unit).Yields fun _ events =>
          ∃ word, .read (address + BitVec.ofNat 32 offset) (some word) ∈ events ∧
            wordMatches expected offset word = true := by
    intro offset _
    apply (yields_readWord link _).bind
    rintro word _ rfl
    split
    · next hmatches => exact Journal.yields_pure ⟨word, List.mem_singleton_self _, hmatches⟩
    · exact Journal.yields_fail
  apply (Journal.yields_forEach hbody).mono
  rintro _ events ⟨parts, rfl, hparts⟩ i hi
  obtain ⟨part, hpart, word, hread, hmatches⟩ :=
    Journal.exists_mem_of_forall₂ hparts (mem_wordOffsets hi)
  refine ⟨word, List.mem_flatten.mpr ⟨part, hpart, hread⟩, ?_⟩
  have hbyte := List.all_eq_true.mp hmatches (i % 4) (List.mem_range.mpr (Nat.mod_lt _ (by decide)))
  have hsplit : 4 * (i / 4) + i % 4 = i := Nat.div_add_mod i 4
  rw [hsplit] at hbyte
  exact of_decide_eq_true hbyte hi

theorem quiet_verifyBlock (address : U32) (expected : List U8) :
    Quiet (swdMemVerifyBlock link address expected) := by
  apply Journal.confined_forEach
  intro offset _
  apply (quiet_readWord link _).bind
  intro word
  split
  · exact Journal.confined_pure ()
  · exact Journal.confined_fail _

end Words

/-! ## The core and the stub -/

section Stub

variable (link : SwdLink)

theorem quiet_pollHalt (polls : Nat) : Quiet (swdPollHalt link polls) := by
  induction polls with
  | zero => exact Journal.confined_fail _
  | succ polls ih =>
    apply (quiet_readWord link _).bind
    intro dhcsr
    split
    · exact Journal.confined_pure dhcsr
    · exact ih

theorem quiet_haltAttachedCore : Quiet (swdHaltAttachedCore link) :=
  (quiet_writeWord link (.inr (by decide))).bind fun _ => quiet_pollHalt link _

theorem quiet_pollRegister (polls : Nat) : Quiet (swdPollRegister link polls) := by
  induction polls with
  | zero => exact Journal.confined_fail _
  | succ polls ih =>
    apply (quiet_readWord link _).bind
    intro dhcsr
    split
    · exact Journal.confined_pure ()
    · exact ih

theorem quiet_writeCoreReg (regsel value : U32) : Quiet (swdWriteCoreReg link regsel value) := by
  apply (quiet_writeWord link (.inl (by decide))).bind
  intro _
  apply (quiet_writeWord link (.inl (by decide))).bind
  intro _
  exact quiet_pollRegister link _

theorem quiet_readCoreReg (regsel : U32) : Quiet (swdReadCoreReg link regsel) := by
  apply (quiet_writeWord link (.inl (by decide))).bind
  intro _
  apply (quiet_pollRegister link _).bind
  intro _
  exact quiet_readWord link _

theorem quiet_attachTarget (targetsel : U32) : Quiet (swdAttachTarget link targetsel) :=
  Journal.confined_perform fun _ => by rintro ⟨ok, h⟩; cases h

theorem quiet_haltCore (targetsel : U32) : Quiet (swdHaltCore link targetsel) := by
  apply (quiet_attachTarget link _).bind
  intro _
  apply (quiet_haltAttachedCore link).bind
  intro dhcsr
  split
  · exact Journal.confined_fail _
  · exact Journal.confined_pure ()

theorem quiet_readStage (ctxAddr stubStage : U32) :
    Quiet (swdReadStage link ctxAddr stubStage) := by
  apply (quiet_readWord link _).attempt.bind
  intro _
  apply (quiet_readWord link _).attempt.bind
  intro _
  exact Journal.confined_pure _

/-- The stage is the one known before, or one that was read. -/
theorem yields_readStage (ctxAddr stubStage : U32) :
    (swdReadStage link ctxAddr stubStage).Yields fun stage events =>
      stage = stubStage ∨ .read (ctxAddr + 8#32) (some stage) ∈ events := by
  have hattempt : ∀ address, (swdMemReadWord32 link address).attempt.Yields fun answer events =>
      ∀ word, answer = some word → .read address (some word) ∈ events := by
    intro address
    apply Journal.Emits.attempt (yields_readWord link address)
    · rintro word events rfl word' hword
      cases hword
      exact List.mem_singleton_self _
    · intro events _ word hword
      cases hword
  apply (hattempt _).bind
  intro answer events hread
  apply (hattempt _).bind
  intro _ more _
  apply Journal.yields_pure
  cases answer with
  | none => exact .inl rfl
  | some stage =>
    right
    exact List.mem_append_left _ (hread stage rfl)

theorem quiet_pollStub (ctxAddr : U32) (polls : Nat) (ran : Bool) (stubStage : U32) :
    Quiet (swdPollStub link ctxAddr polls ran stubStage) := by
  induction polls generalizing ran stubStage with
  | zero =>
    apply (quiet_haltAttachedCore link).attempt.bind
    intro _
    apply (quiet_readCoreReg link _).attempt.bind
    intro _
    apply (quiet_readCoreReg link _).attempt.bind
    intro _
    apply (quiet_readWord link _).attempt.bind
    intro _
    apply (quiet_readStage link _ _).bind
    intro _
    exact Journal.confined_fail _
  | succ polls ih =>
    apply (quiet_readWord link _).bind
    intro dhcsr
    split
    · split
      · exact (quiet_readStage link _ _).bind fun stage => ih true stage
      · exact ih true stubStage
    · apply (quiet_readWord link _).bind
      intro status
      apply (quiet_readStage link _ _).bind
      intro stage
      split
      · exact ih ran stage
      · exact Journal.confined_pure status
      · exact Journal.confined_fail _

/-- The core was found halted, and behind that the stub's status OK. -/
def SawHaltedOk (ctxAddr : U32) (events : List SwdEvent) : Prop :=
  ∃ before dhcsr after, events = before ++ .read SWD_DHCSR_ADDR (some dhcsr) ::
      .read (ctxAddr + 4#32) (some SWD_STUB_STATUS_OK) :: after ∧
    dhcsr &&& SWD_DHCSR_S_HALT ≠ 0#32

theorem SawHaltedOk.append {ctxAddr : U32} {events : List SwdEvent}
    (h : SawHaltedOk ctxAddr events) (earlier : List SwdEvent) :
    SawHaltedOk ctxAddr (earlier ++ events) := by
  obtain ⟨before, dhcsr, after, rfl, hhalted⟩ := h
  exact ⟨earlier ++ before, dhcsr, after, by rw [List.append_assoc], hhalted⟩

/-- The stub's stage DONE was read. -/
def SawDone (ctxAddr : U32) (events : List SwdEvent) : Prop :=
  .read (ctxAddr + 8#32) (some SWD_STUB_STAGE_DONE) ∈ events

theorem pollResult_complete {ran : Bool} {status stage : U32}
    (h : bzmBridgeFlashStubPollResult ran true status stage = .complete) :
    status = SWD_STUB_STATUS_OK ∧ stage = SWD_STUB_STAGE_DONE := by
  unfold bzmBridgeFlashStubPollResult at h
  simp only [Bool.not_true, Bool.false_eq_true, if_false] at h
  split at h
  · next hdone => exact hdone
  · split at h <;> cases h

/-- A poll that ends well saw the stub halted and OK, and its stage DONE if that was not
known before. -/
theorem yields_pollStub (ctxAddr : U32) (polls : Nat) (ran : Bool) (stubStage : U32) :
    (swdPollStub link ctxAddr polls ran stubStage).Yields fun status events =>
      status = SWD_STUB_STATUS_OK ∧ SawHaltedOk ctxAddr events ∧
        (stubStage = SWD_STUB_STAGE_DONE ∨ SawDone ctxAddr events) := by
  induction polls generalizing ran stubStage with
  | zero =>
    -- what follows the last pass only reads what a log line shows, and fails
    apply (quiet_haltAttachedCore link).attempt.yields.bind
    intro _ _ _
    apply (quiet_readCoreReg link _).attempt.yields.bind
    intro _ _ _
    apply (quiet_readCoreReg link _).attempt.yields.bind
    intro _ _ _
    apply (quiet_readWord link _).attempt.yields.bind
    intro _ _ _
    apply (quiet_readStage link _ _).yields.bind
    intro _ _ _
    exact Journal.yields_fail
  | succ polls ih =>
    -- what a later pass saw, behind the events of this one
    have hlater : ∀ ran' stage (events : List SwdEvent),
        (stage = stubStage ∨ .read (ctxAddr + 8#32) (some stage) ∈ events) →
        (swdPollStub link ctxAddr polls ran' stage).Yields fun status more =>
          status = SWD_STUB_STATUS_OK ∧ SawHaltedOk ctxAddr (events ++ more) ∧
            (stubStage = SWD_STUB_STAGE_DONE ∨ SawDone ctxAddr (events ++ more)) := by
      intro ran' stage events hstage
      apply (ih ran' stage).mono
      rintro status more ⟨hstatus, hhalted, hdone⟩
      refine ⟨hstatus, hhalted.append events, ?_⟩
      rcases hdone with rfl | hdone
      · exact hstage.imp Eq.symm (List.mem_append_left more)
      · exact .inr (List.mem_append_right events hdone)
    apply (yields_readWord link _).bind
    rintro dhcsr _ rfl
    split
    · split
      · apply (yields_readStage link ctxAddr stubStage).bind
        intro stage events hstage
        have h := hlater true stage ([.read SWD_DHCSR_ADDR (some dhcsr)] ++ events)
          (hstage.imp id (List.mem_append_right _))
        simp only [List.append_assoc] at h
        exact h
      · exact hlater true stubStage _ (.inl rfl)
    · next hhalted =>
      apply (yields_readWord link _).bind
      rintro status _ rfl
      apply (yields_readStage link ctxAddr stubStage).bind
      intro stage events hstage
      split
      · have h := hlater ran stage ([.read SWD_DHCSR_ADDR (some dhcsr)] ++
          ([.read (ctxAddr + 4#32) (some status)] ++ events))
          (hstage.imp id fun hread => List.mem_append_right _ (List.mem_append_right _ hread))
        simp only [List.append_assoc] at h
        exact h
      · next hcomplete =>
        obtain ⟨rfl, rfl⟩ := pollResult_complete hcomplete
        apply Journal.yields_pure
        refine ⟨rfl, ⟨[], dhcsr, events, by simp, hhalted⟩, ?_⟩
        refine hstage.imp Eq.symm fun hread => ?_
        exact List.mem_append_right _ (List.mem_append_right _ (List.mem_append_left _ hread))
      · exact Journal.yields_fail

/-! ## Flash operations -/

/-- The events of a context that was uploaded, field by field. -/
def ctxWrites (ctx : SwdFlashStubCtx) : List SwdEvent :=
  [.write SWD_RP2040_STUB_CTX_ADDR ctx.op true,
    .write (SWD_RP2040_STUB_CTX_ADDR + 4#32) ctx.status true,
    .write (SWD_RP2040_STUB_CTX_ADDR + 8#32) ctx.stage true,
    .write (SWD_RP2040_STUB_CTX_ADDR + 12#32) ctx.progress true,
    .write (SWD_RP2040_STUB_CTX_ADDR + 16#32) ctx.flashOffset true,
    .write (SWD_RP2040_STUB_CTX_ADDR + 20#32) ctx.count true,
    .write (SWD_RP2040_STUB_CTX_ADDR + 24#32) ctx.dataAddr true]

theorem word_of_bytes (w : U32) :
    (((((0#32 ||| ((w >>> (8 * 0)).setWidth 8).setWidth 32 <<< (8 * 0)) |||
      ((w >>> (8 * 1)).setWidth 8).setWidth 32 <<< (8 * 1)) |||
      ((w >>> (8 * 2)).setWidth 8).setWidth 32 <<< (8 * 2)) |||
      ((w >>> (8 * 3)).setWidth 8).setWidth 32 <<< (8 * 3))) = w := by
  apply BitVec.eq_of_getLsbD_eq
  intro i hi
  simp only [BitVec.getLsbD_or, BitVec.getLsbD_shiftLeft, BitVec.getLsbD_setWidth,
    BitVec.getLsbD_ushiftRight, BitVec.getLsbD_zero]
  grind

theorem blockWrites_ctx (ctx : SwdFlashStubCtx) :
    blockWrites SWD_RP2040_STUB_CTX_ADDR ctx.bytes = ctxWrites ctx := by
  have h0 : blockWord ctx.bytes 0 = ctx.op := word_of_bytes ctx.op
  have h4 : blockWord ctx.bytes 4 = ctx.status := word_of_bytes ctx.status
  have h8 : blockWord ctx.bytes 8 = ctx.stage := word_of_bytes ctx.stage
  have h12 : blockWord ctx.bytes 12 = ctx.progress := word_of_bytes ctx.progress
  have h16 : blockWord ctx.bytes 16 = ctx.flashOffset := word_of_bytes ctx.flashOffset
  have h20 : blockWord ctx.bytes 20 = ctx.count := word_of_bytes ctx.count
  have h24 : blockWord ctx.bytes 24 = ctx.dataAddr := word_of_bytes ctx.dataAddr
  have hlength : ctx.bytes.length = 28 := rfl
  have hoffsets : wordOffsets 28 = [0, 4, 8, 12, 16, 20, 24] := by decide
  rw [blockWrites, hlength, hoffsets]
  simp only [List.map_cons, List.map_nil, h0, h4, h8, h12, h16, h20, h24]
  rfl

/-- The events of one flash operation that was carried out: its context is uploaded, the
core is let run once, and the stub is then found halted with OK and DONE. -/
def OperationDone (op flashOffset count dataAddress : U32) (events : List SwdEvent) : Prop :=
  ∃ setup poll, events = ctxWrites (flashOperationCtx op flashOffset count dataAddress) ++
      (setup ++ .write SWD_DHCSR_ADDR swdResumeValue true :: poll) ∧
    (∀ e ∈ setup, ¬ e.Resumes) ∧ (∀ e ∈ poll, ¬ e.Resumes) ∧
    SawHaltedOk SWD_RP2040_STUB_CTX_ADDR poll ∧ SawDone SWD_RP2040_STUB_CTX_ADDR poll

theorem yields_runStub (ctxAddr : U32) :
    (swdRunStubAttached link ctxAddr).Yields fun _ events =>
      ∃ setup poll, events = setup ++ .write SWD_DHCSR_ADDR swdResumeValue true :: poll ∧
        (∀ e ∈ setup, ¬ e.Resumes) ∧ (∀ e ∈ poll, ¬ e.Resumes) ∧
        SawHaltedOk ctxAddr poll ∧ SawDone ctxAddr poll := by
  apply (quiet_readWord link _).attempt.yields.bind
  intro _ first hfirst
  apply (quiet_writeCoreReg link _ _).yields.bind
  intro _ r0 hr0
  apply (quiet_writeCoreReg link _ _).yields.bind
  intro _ msp hmsp
  apply (quiet_writeCoreReg link _ _).yields.bind
  intro _ pc hpc
  apply (quiet_writeCoreReg link _ _).yields.bind
  intro _ xpsr hxpsr
  apply (yields_writeWord link _ _).bind
  rintro _ _ rfl
  apply ((quiet_pollStub link ctxAddr _ _ _).and (yields_pollStub link ctxAddr _ _ _)).mono
  rintro status poll ⟨hquiet, -, hhalted, hdone⟩
  refine ⟨first ++ (r0 ++ (msp ++ (pc ++ xpsr))), poll, by simp, ?_, hquiet, hhalted, ?_⟩
  · intro e he
    simp only [List.mem_append] at he
    rcases he with he | he | he | he | he
    · exact hfirst e he
    · exact hr0 e he
    · exact hmsp e he
    · exact hpc e he
    · exact hxpsr e he
  · exact hdone.resolve_left (by decide)

theorem yields_runFlashOperation (op flashOffset count dataAddress : U32) :
    (swdRunFlashOperation link op flashOffset count dataAddress).Yields fun _ events =>
      OperationDone op flashOffset count dataAddress events := by
  apply (yields_writeBlock link _ _).bind
  rintro _ _ rfl
  apply (yields_runStub link _).bind
  rintro status _ ⟨setup, poll, rfl, hsetup, hpoll, hhalted, hdone⟩
  split
  · apply Journal.yields_pure
    refine ⟨setup, poll, ?_, hsetup, hpoll, hhalted, hdone⟩
    rw [blockWrites_ctx, List.append_nil]
  · exact Journal.yields_fail

/-! ## The whole flash -/

/-- The events of one chunk: its staged bytes are uploaded, and programmed. -/
def ChunkProgrammed (image : List U8) (entry : Nat × BzmBridgeFlashChunk)
    (events : List SwdEvent) : Prop :=
  ∃ operation, events = blockWrites SWD_RP2040_STUB_DATA_BASE
      (stagedBuffer image entry.1 entry.2) ++ operation ∧
    OperationDone SWD_STUB_OP_PROGRAM (BitVec.ofNat 32 entry.1)
      (BitVec.ofNat 32 entry.2.programLength) SWD_RP2040_STUB_DATA_BASE operation

/-- The loop that programs carries out one operation for each chunk, in order. -/
theorem yields_programFrom {image : List U8} {passes offset : Nat}
    (hchunks : FlashChunks image.length offset chunks) (hpasses : image.length - offset ≤ passes) :
    (programFrom link image passes offset).Yields fun _ events =>
      ∃ parts, events = parts.flatten ∧ List.Forall₂ (ChunkProgrammed image) chunks parts := by
  induction hchunks generalizing passes with
  | done =>
    have hpure : programFrom link image passes image.length = pure () := by
      cases passes <;> simp [programFrom]
    rw [hpure]
    exact Journal.yields_pure ⟨[], rfl, .nil⟩
  | @next offset chunk rest hnext hrest ih =>
    have hfits := nextChunk_fits hnext
    have hpos := hfits.nonempty
    have hin := hfits.inImage
    cases passes with
    | zero => omega
    | succ passes =>
      have hlt : offset < image.length := by omega
      simp only [programFrom, if_pos hlt, hnext]
      apply (yields_writeBlock link _ _).bind
      rintro _ _ rfl
      apply (yields_runFlashOperation link _ _ _ _).bind
      intro _ operation hoperation
      apply (ih (by omega)).mono
      rintro _ _ ⟨parts, rfl, hparts⟩
      exact ⟨_ :: parts, by simp, .cons ⟨operation, rfl, hoperation⟩ hparts⟩

theorem verifyLength_spec {imageSize offset : Nat} (h : offset < imageSize) :
    0 < verifyLength imageSize offset ∧ offset + verifyLength imageSize offset ≤ imageSize ∧
      (verifyLength imageSize offset % 4 = 0 ∨
        offset + verifyLength imageSize offset = imageSize) := by
  have hchunk : BZM_BRIDGE_FLASH_CHUNK_SIZE = 16384 := rfl
  unfold verifyLength
  split <;> omega

/-- The word that holds a byte of a block, counted from the block and from the image. -/
theorem wordAddress_eq {offset i : Nat} (haligned : offset % 4 = 0) (hle : offset ≤ i)
    (base : U32) : base + BitVec.ofNat 32 offset + BitVec.ofNat 32 (4 * ((i - offset) / 4)) =
      base + BitVec.ofNat 32 (4 * (i / 4)) := by
  have hsum : offset + 4 * ((i - offset) / 4) = 4 * (i / 4) := by omega
  rw [BitVec.add_assoc, ← BitVec.ofNat_add, hsum]

/-- The loop that verifies reads every byte from its offset on and finds it equal. -/
theorem yields_verifyFrom {image : List U8} {passes offset : Nat}
    (haligned : offset % 4 = 0 ∨ image.length ≤ offset)
    (hpasses : image.length - offset ≤ passes) :
    (verifyFrom link image passes offset).Yields fun _ events =>
      ∀ i, offset ≤ i → i < image.length → ∃ word,
        .read (SWD_RP2040_XIP_BASE + BitVec.ofNat 32 (4 * (i / 4))) (some word) ∈ events ∧
          byteOfWord word (i % 4) = image.getD i 0 := by
  induction passes generalizing offset with
  | zero => exact Journal.yields_pure fun i hi hlt => by omega
  | succ passes ih =>
    simp only [verifyFrom]
    split
    · next hlt =>
      obtain ⟨hpos, hle, hwhole⟩ := verifyLength_spec hlt
      generalize verifyLength image.length offset = length at hpos hle hwhole ⊢
      have haligned := haligned.resolve_right (by omega)
      apply (yields_verifyBlock link _ _).bind
      intro _ events hevents
      have hrest := @ih (offset + length) (by omega) (by omega)
      apply hrest.mono
      intro _ more hmore i hi hlast
      by_cases hblock : i < offset + length
      · have hin : i - offset < ((image.drop offset).take length).length := by
          rw [List.length_take, List.length_drop]
          omega
        obtain ⟨word, hread, hbyte⟩ := hevents (i - offset) hin
        rw [wordAddress_eq haligned hi] at hread
        refine ⟨word, List.mem_append_left more hread, ?_⟩
        have hsame : (i - offset) % 4 = i % 4 := by omega
        have hsum : offset + (i - offset) = i := by omega
        rw [hsame, List.getD_eq_getElem _ _ hin, List.getElem_take, List.getElem_drop] at hbyte
        rw [hbyte, List.getD_eq_getElem _ _ hlast]
        congr 1
      · obtain ⟨word, hread, hbyte⟩ := hmore i (by omega) hlast
        exact ⟨word, List.mem_append_right events hread, hbyte⟩
    · next hge => exact Journal.yields_pure fun i hi hlt => absurd (hi.trans_lt hlt) hge

theorem quiet_verifyFrom (image : List U8) (passes offset : Nat) :
    Quiet (verifyFrom link image passes offset) := by
  induction passes generalizing offset with
  | zero => exact Journal.confined_pure ()
  | succ passes ih =>
    simp only [verifyFrom]
    split
    · exact (quiet_verifyBlock link _ _).bind fun _ => ih _
    · exact Journal.confined_pure ()

end Stub

/-- What the journal of a flash that ended without an error holds: one erase of the whole
length, then one program operation for each chunk, then a read of every byte that found it
equal, and no other operation. -/
def FlashDone (image : List U8) (chunks : List (Nat × BzmBridgeFlashChunk))
    (journal : List SwdEvent) : Prop :=
  ∃ setup erase programs verify,
    journal = setup ++ (erase ++ (List.flatten programs ++ verify)) ∧
    (∀ e ∈ setup, ¬ e.Resumes) ∧
    OperationDone SWD_STUB_OP_ERASE 0 (BitVec.ofNat 32 (eraseLength image.length)) 0 erase ∧
    List.Forall₂ (ChunkProgrammed image) chunks programs ∧
    (∀ e ∈ verify, ¬ e.Resumes) ∧
    ∀ i, i < image.length → ∃ word,
      .read (SWD_RP2040_XIP_BASE + BitVec.ofNat 32 (4 * (i / 4))) (some word) ∈ verify ∧
        byteOfWord word (i % 4) = image.getD i 0

/-- What a flash leaves where it ends without an error. -/
theorem yields_flash (link : SwdLink) {image : List U8}
    (hchunks : FlashChunks image.length 0 chunks) :
    (bzmBridgeSwdFlash link image).Yields fun _ events => FlashDone image chunks events := by
  unfold bzmBridgeSwdFlash
  split
  · exact Journal.yields_fail
  · have hpins : Quiet (swdConfigurePins link) :=
      Journal.confined_perform fun _ => by rintro ⟨ok, h⟩; cases h
    have hreset : Quiet (swdResetSystemAttached link) := quiet_writeWord link (.inl (by decide))
    apply hpins.yields.bind
    intro _ pins hpins
    apply (quiet_haltCore link _).yields.bind
    intro _ core1 hcore1
    apply (quiet_attachTarget link _).yields.bind
    intro _ attach hattach
    apply (quiet_haltAttachedCore link).yields.bind
    intro _ core0 hcore0
    apply (quiet_writeBlock link (by decide +kernel)).yields.bind
    intro _ stub hstub
    apply (yields_runFlashOperation link _ _ _ _).bind
    intro _ erase herase
    apply (yields_programFrom link hchunks le_rfl).bind
    rintro _ _ ⟨programs, rfl, hprograms⟩
    have hverify : (verifyFrom link image image.length 0).Yields _ :=
      yields_verifyFrom link (.inl rfl) (Nat.sub_le _ _)
    apply ((quiet_verifyFrom link image _ _).and hverify).bind
    rintro _ verify ⟨hquiet, hverified⟩
    apply hreset.yields.mono
    intro _ reset hreset
    refine ⟨pins ++ (core1 ++ (attach ++ (core0 ++ stub))), erase, programs, verify ++ reset,
      by simp, ?_, herase, hprograms, ?_, ?_⟩
    · intro e he
      simp only [List.mem_append] at he
      rcases he with he | he | he | he | he
      · exact hpins e he
      · exact hcore1 e he
      · exact hattach e he
      · exact hcore0 e he
      · exact hstub e he
    · intro e he
      exact (List.mem_append.mp he).elim (hquiet e) (hreset e)
    · intro i hi
      obtain ⟨word, hread, hbyte⟩ := hverified i (Nat.zero_le i) hi
      exact ⟨word, List.mem_append_left reset hread, hbyte⟩

/-- **Bridge firmware is programmed completely, or the failure is reported.**  The chunks of
an image end where it does, lie one behind the other and fit pages, chunks and what is
erased; each staged buffer is the chunk's bytes with 0xff behind them; and a flash that
ends without an error erased all of it, programmed every chunk and read every byte back. -/
theorem bzmBridgeSwdFlash_complete (image : List U8) (hnonempty : 1 ≤ image.length)
    (hcapacity : image.length ≤ BZM_BRIDGE_FLASH_CAPACITY) :
    ∃ chunks, FlashChunks image.length 0 chunks ∧
      bzmBridgeFlashNextChunk image.length image.length = none ∧
      chunks.flatMap (fun entry => (image.drop entry.1).take entry.2.sourceLength) = image ∧
      (∀ entry ∈ chunks, ChunkFits image.length entry.1 entry.2 ∧
        0 < entry.2.programLength ∧
        entry.1 + entry.2.programLength ≤ eraseLength image.length ∧
        stagedBuffer image entry.1 entry.2 = (image.drop entry.1).take entry.2.sourceLength ++
          List.replicate (entry.2.programLength - entry.2.sourceLength) 0xff#8) ∧
      image.length ≤ eraseLength image.length ∧
      eraseLength image.length ≤ BZM_BRIDGE_FLASH_CAPACITY ∧
      eraseLength image.length % SWD_FLASH_SECTOR_SIZE = 0 ∧
      ∀ (link : SwdLink) (journal : List SwdEvent),
        bzmBridgeSwdFlash link image [] = (.ok (), journal) → FlashDone image chunks journal := by
  obtain ⟨chunks, hchunks⟩ := exists_flashChunks (Nat.zero_le image.length) fun _ => rfl
  have herase : image.length ≤ eraseLength image.length ∧
      eraseLength image.length ≤ BZM_BRIDGE_FLASH_CAPACITY ∧
      eraseLength image.length % SWD_FLASH_SECTOR_SIZE = 0 := by
    simp only [eraseLength, BZM_BRIDGE_FLASH_CAPACITY, SWD_FLASH_SECTOR_SIZE] at *
    omega
  refine ⟨chunks, hchunks, if_pos (.inr (.inl le_rfl)), hchunks.sources, ?_, herase.1,
    herase.2.1, herase.2.2, ?_⟩
  · intro entry hentry
    have hfits := hchunks.fits entry hentry
    exact ⟨hfits, hfits.nonempty.trans_le hfits.programmed, (hfits.inErased hcapacity).1,
      stagedBuffer_eq hfits⟩
  · intro link journal hflash
    obtain ⟨events, hjournal, hdone⟩ := (yields_flash link hchunks).of_ok hflash
    rw [hjournal]
    exact hdone

/-! ## A controller that answers -/

/-- A controller that halts at once, takes every write and holds `0x5a` everywhere in its
flash. -/
def readyLink : SwdLink where
  configurePins _ := true
  attach _ _ := true
  write _ _ _ := true
  read _ address := some (
    if address < SWD_RP2040_STUB_BASE then 0x5a5a5a5a#32
    else if address = SWD_DHCSR_ADDR then 0xffffffff#32
    else if address = SWD_RP2040_STUB_CTX_ADDR + 4#32 then SWD_STUB_STATUS_OK
    else SWD_STUB_STAGE_DONE)

theorem returns_writeBlock (address : U32) (data : List U8) :
    Journal.Returns (swdMemWriteBlock readyLink address data) () :=
  Journal.returns_forEach fun _ _ _ => rfl

theorem returns_runFlashOperation (op flashOffset count dataAddress : U32) :
    Journal.Returns (swdRunFlashOperation readyLink op flashOffset count dataAddress) () :=
  (returns_writeBlock _ _).bind fun _ => rfl

theorem returns_programFrom {image : List U8} {passes offset : Nat}
    (h : FlashChunks image.length offset chunks) :
    Journal.Returns (programFrom readyLink image passes offset) () := by
  induction h generalizing passes with
  | done => cases passes <;> simp [programFrom, Journal.returns_pure]
  | next hnext hrest ih =>
    cases passes with
    | zero => exact Journal.returns_pure ()
    | succ passes =>
      simp only [programFrom, hnext]
      split
      · exact (returns_writeBlock _ _).bind ((returns_runFlashOperation _ _ _ _).bind ih)
      · exact Journal.returns_pure ()

theorem returns_verifyFrom {size passes offset : Nat} (hsize : size ≤ BZM_BRIDGE_FLASH_CAPACITY) :
    Journal.Returns (verifyFrom readyLink (List.replicate size 0x5a#8) passes offset) () := by
  induction passes generalizing offset with
  | zero => exact Journal.returns_pure ()
  | succ passes ih =>
    simp only [verifyFrom, List.length_replicate]
    split
    · next hlt =>
      obtain ⟨-, hle, -⟩ := verifyLength_spec hlt
      generalize verifyLength size offset = length at hle
      refine Journal.Returns.bind (Journal.returns_forEach fun at' hat => ?_) ih
      rw [List.drop_replicate, List.take_replicate] at hat ⊢
      rw [List.length_replicate, wordOffsets, List.mem_map] at hat
      obtain ⟨k, hk, rfl⟩ := hat
      have hflash : SWD_RP2040_XIP_BASE + BitVec.ofNat 32 offset + BitVec.ofNat 32 (4 * k) <
          SWD_RP2040_STUB_BASE := by
        have hk := List.mem_range.mp hk
        have hbase : SWD_RP2040_XIP_BASE.toNat = 0x10000000 := rfl
        have hstub : SWD_RP2040_STUB_BASE.toNat = 0x20030000 := rfl
        simp only [BZM_BRIDGE_FLASH_CAPACITY] at hsize
        rw [BitVec.lt_def, BitVec.toNat_add, BitVec.toNat_add, BitVec.toNat_ofNat,
          BitVec.toNat_ofNat, hbase, hstub]
        omega
      have hmatches : wordMatches (List.replicate (min length (size - offset)) 0x5a#8) (4 * k)
          0x5a5a5a5a#32 = true := by
        rw [wordMatches, List.all_eq_true]
        intro i hi
        rw [decide_eq_true_eq, List.length_replicate]
        intro hlt
        rw [List.getD_replicate _ hlt]
        clear hlt
        revert i
        decide
      have hread : Journal.Returns (swdMemReadWord32 readyLink (SWD_RP2040_XIP_BASE +
          BitVec.ofNat 32 offset + BitVec.ofNat 32 (4 * k))) 0x5a5a5a5a#32 :=
        fun _ => congrArg Except.ok (if_pos hflash)
      refine hread.bind ?_
      rw [if_pos hmatches]
      exact Journal.returns_pure ()
    · exact Journal.returns_pure ()

theorem returns_flash {size : Nat} (hsize : ¬ (size = 0 ∨ BZM_BRIDGE_FLASH_CAPACITY < size))
    (hchunks : FlashChunks (List.replicate size 0x5a#8).length 0 chunks) :
    Journal.Returns (bzmBridgeSwdFlash readyLink (List.replicate size 0x5a#8)) () := by
  have hcapacity : size ≤ BZM_BRIDGE_FLASH_CAPACITY := Nat.not_lt.mp fun h => hsize (.inr h)
  rw [bzmBridgeSwdFlash, List.length_replicate, if_neg hsize]
  refine Journal.Returns.bind (a := ()) (fun _ => rfl) ?_
  refine Journal.Returns.bind (a := ()) (fun _ => rfl) ?_
  refine Journal.Returns.bind (a := ()) (fun _ => rfl) ?_
  refine Journal.Returns.bind (a := 0xffffffff#32) (fun _ => rfl) ?_
  refine (returns_writeBlock _ _).bind ((returns_runFlashOperation _ _ _ _).bind ?_)
  refine (returns_programFrom hchunks).bind ((returns_verifyFrom hcapacity).bind ?_)
  exact fun _ => rfl

/-- One chunk of 16 KiB, two more pages, and a part of a page. -/
def chunkedImage : List U8 := List.replicate (16384 + 2 * 256 + 77) 0x5a#8

theorem bzmBridgeSwdFlash_complete_ready :
    ∃ chunks, FlashDone chunkedImage chunks (bzmBridgeSwdFlash readyLink chunkedImage []).2 := by
  have hlength : chunkedImage.length = 16973 := List.length_replicate
  obtain ⟨chunks, hchunks, -, -, -, -, -, -, hflash⟩ := bzmBridgeSwdFlash_complete chunkedImage
    (by rw [hlength]; decide) (by rw [hlength]; decide)
  have hok : (bzmBridgeSwdFlash readyLink chunkedImage []).1 = .ok () :=
    returns_flash (by decide) hchunks []
  rcases hrun : bzmBridgeSwdFlash readyLink chunkedImage [] with ⟨result, journal⟩
  rw [hrun] at hok
  obtain rfl : result = .ok () := hok
  exact ⟨chunks, hflash readyLink journal hrun⟩

end EspMiner
