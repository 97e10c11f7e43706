import EspMiner.Bap.Buffers

/-!
# Which buffers keep within their bounds

The receiver writes within its arrays for every stream of bytes, and does what it does over
lists.  The senders frame a body of up to 255 bytes in an array of the same size, and pass on
the length of the whole sentence: they keep within the array for bodies of up to 250 bytes.
-/

namespace EspMiner

open Library

/-! ## Sending -/

section Sending

theorem length_bapSentence (body : List U8) : (bapSentence body).length = body.length + 6 := by
  have hdollar : (cText "$").length = 1 := by decide
  have hstar : (cText "*").length = 1 := by decide
  have hend : (cText "\r\n").length = 2 := by decide
  simp only [bapSentence, List.length_append, upperHex, List.length_cons, List.length_nil, hdollar,
    hstar, hend]
  omega

theorem upperDigit_ne_zero (nibble : Nat) (h : nibble < 16) : upperDigit nibble ≠ 0#8 := by
  have hall : ∀ n < 16, upperDigit n ≠ 0#8 := by decide
  exact hall nibble h

theorem zero_not_mem_bapSentence {body : List U8} (h : 0#8 ∉ body) : 0#8 ∉ bapSentence body := by
  have hdollar : 0#8 ∉ cText "$" := by decide
  have hstar : 0#8 ∉ cText "*" := by decide
  have hend : 0#8 ∉ cText "\r\n" := by decide
  have hbyte := (bapCalculateChecksum body).isLt
  have hhigh := upperDigit_ne_zero ((bapCalculateChecksum body).toNat / 16) (by omega)
  have hlow := upperDigit_ne_zero ((bapCalculateChecksum body).toNat % 16) (by omega)
  simp only [bapSentence, upperHex, List.mem_append, List.mem_cons, List.not_mem_nil, or_false]
  rintro ((((hmem | hmem) | hmem) | hmem | hmem) | hmem)
  · exact hdollar hmem
  · exact h hmem
  · exact hstar hmem
  · exact hhigh hmem.symm
  · exact hlow hmem.symm
  · exact hend hmem

theorem zero_not_mem_bapBodyOf (command : BapCommand) (parameter : Text) (value : Option Text) :
    0#8 ∉ bapBodyOf command parameter value := by
  have hbap : 0#8 ∉ cText "BAP," := by decide
  have hcomma : 0#8 ∉ cText "," := by decide
  have hcommand : 0#8 ∉ command.toText := by
    cases command <;> decide
  have hhead : 0#8 ∉ cText "BAP," ++ command.toText ++ cText "," ++ parameter.val := by
    simp only [List.mem_append]
    rintro (((hmem | hmem) | hmem) | hmem)
    · exact hbap hmem
    · exact hcommand hmem
    · exact hcomma hmem
    · exact parameter.property hmem
  cases value with
  | none => exact hhead
  | some value =>
    simp only [bapBodyOf, bapBody, Option.map_some]
    split
    · exact hhead
    · intro hmem
      rcases List.mem_append.mp hmem with hmem | hmem
      · rcases List.mem_append.mp hmem with hmem | hmem
        · exact hhead hmem
        · exact hcomma hmem
      · exact value.property hmem

/-- The sentence that is sent: its body is cut at the end of its array. -/
def bapSentenceOf (command : BapCommand) (parameter : Text) (value : Option Text) : List U8 :=
  bapSentence ((bapBodyOf command parameter value).take (BAP_MAX_MESSAGE_LEN - 1))

variable (buffers : BapSendBuffers) (command : BapCommand) (parameter : Text) (value : Option Text)

theorem zero_not_mem_bapSentenceOf : 0#8 ∉ bapSentenceOf command parameter value :=
  zero_not_mem_bapSentence (not_mem_take (zero_not_mem_bapBodyOf command parameter value) _)

theorem length_bapSentenceOf_le :
    (bapSentenceOf command parameter value).length ≤ BAP_MAX_MESSAGE_LEN ↔
      (bapBodyOf command parameter value).length ≤ 250 := by
  rw [bapSentenceOf, length_bapSentence, List.length_take, BAP_MAX_MESSAGE_LEN]
  omega

/-- Both senders write the sentence as far as it fits, and go on with its whole length. -/
theorem exists_bapFormat :
    ∃ cells, bapFormat buffers command parameter value =
        .ok ⟨cells, (bapSentenceOf command parameter value).length⟩ ∧
      (∃ rest, cells.toList =
        printed BAP_MAX_MESSAGE_LEN (bapSentenceOf command parameter value) ++ rest) ∧
      HoldsText cells 0
        ((bapSentenceOf command parameter value).take (BAP_MAX_MESSAGE_LEN - 1)) := by
  have hpos : 0 < BAP_MAX_MESSAGE_LEN := by decide
  obtain ⟨body, hbody, -, hholds⟩ := exists_snprintf buffers.sentenceBody hpos
    (zero_not_mem_bapBodyOf command parameter value)
  obtain ⟨cells, hcells, hlist, htext⟩ := exists_snprintf buffers.message hpos
    (zero_not_mem_bapSentenceOf command parameter value)
  refine ⟨cells, ?_, ⟨_, hlist⟩, htext⟩
  rw [bapFormat, hbody]
  dsimp only [Bind.bind, Except.bind]
  rw [hholds.readString]
  exact hcells

/-- The call ends within the bounds, and the UART gets no more than what was written. -/
def HandsWritten (written : List U8) (result : Except Stop (List U8)) : Prop :=
  ∃ bytes, result = .ok bytes ∧ bytes <+: written

/-- The bytes that the senders write into `message`, with the terminator -/
def bapWritten (command : BapCommand) (parameter : Text) (value : Option Text) : List U8 :=
  printed BAP_MAX_MESSAGE_LEN (bapSentenceOf command parameter value)

theorem length_bapWritten : (bapWritten command parameter value).length =
    min (BAP_MAX_MESSAGE_LEN - 1) (bapSentenceOf command parameter value).length + 1 := by
  rw [bapWritten, printed, List.length_append, List.length_take, List.length_singleton]

theorem handsWritten_bapSendMessage_iff (taken : Bool) :
    HandsWritten (bapWritten command parameter value)
        (bapSendMessageChecked buffers taken command parameter value) ↔
      taken = false ∨ (bapBodyOf command parameter value).length ≤ 250 := by
  obtain ⟨cells, hformat, ⟨rest, hcells⟩, -⟩ := exists_bapFormat buffers command parameter value
  rw [← length_bapSentenceOf_le, bapSendMessageChecked, hformat]
  dsimp only [Bind.bind, Except.bind]
  cases taken with
  | false => simpa using ⟨[], rfl, List.nil_prefix⟩
  | true =>
    have hsize : cells.toList.length = BAP_MAX_MESSAGE_LEN := Vector.length_toList
    rw [if_pos rfl, readSpan, hsize, Nat.zero_add, List.drop_zero]
    by_cases hfits : (bapSentenceOf command parameter value).length ≤ BAP_MAX_MESSAGE_LEN
    · rw [if_pos hfits]
      refine iff_of_true ⟨_, rfl, ?_⟩ (.inr hfits)
      have hlength := length_bapWritten command parameter value
      rw [bapWritten] at hlength ⊢
      rw [hcells, List.take_append_of_le_length (by rw [hlength]; omega)]
      exact List.take_prefix _ _
    · rw [if_neg hfits]
      refine iff_of_false ?_ (by simp [hfits])
      rintro ⟨bytes, hbytes, -⟩
      cases hbytes

theorem handsWritten_bapSendMessageWithQueue_iff (queued : Bool)
    (heap : (size : Nat) → Vector U8 size) :
    HandsWritten (bapWritten command parameter value)
        (bapSendMessageWithQueueChecked buffers queued heap command parameter value) ↔
      queued = false ∨ (bapBodyOf command parameter value).length ≤ 250 := by
  obtain ⟨cells, hformat, -, htext⟩ := exists_bapFormat buffers command parameter value
  rw [← length_bapSentenceOf_le, bapSendMessageWithQueueChecked, hformat]
  dsimp only [Bind.bind, Except.bind]
  cases queued with
  | false => simpa using ⟨[], rfl, List.nil_prefix⟩
  | true =>
    obtain ⟨len, hlen⟩ : ∃ n, n = (bapSentenceOf command parameter value).length := ⟨_, rfl⟩
    obtain ⟨text, htextEq⟩ : ∃ xs, xs =
        (bapSentenceOf command parameter value).take (BAP_MAX_MESSAGE_LEN - 1) := ⟨_, rfl⟩
    have hshort : text.length = min (BAP_MAX_MESSAGE_LEN - 1) len := by
      rw [htextEq, List.length_take, hlen]
    rw [← htextEq] at htext
    rw [← hlen, if_pos rfl, htext.readString]
    dsimp only
    obtain ⟨copy, copy', hcopy, hend, hlist, -⟩ := @exists_strncpy (len + 1) len text
      (heap (len + 1)) (Nat.lt_succ_self _) htext.1
    have hspan : readSpan copy'.toList 0 len = .ok (padded text len) := by
      rw [readSpan_of_le (by rw [Vector.length_toList]; omega), List.drop_zero, hlist,
        List.take_left' (length_padded text len)]
    rw [hcopy]
    dsimp only
    rw [hend]
    dsimp only
    rw [hspan]
    have hwritten : bapWritten command parameter value = text ++ [0#8] := by
      rw [bapWritten, printed, htextEq]
    have hpadded : padded text len = text ++ List.replicate (len - text.length) 0#8 := by
      rw [padded, List.take_of_length_le (by omega)]
    rw [hwritten, hpadded]
    by_cases hfits : len ≤ BAP_MAX_MESSAGE_LEN
    · refine iff_of_true ⟨_, rfl, ?_⟩ (.inr hfits)
      rw [List.prefix_append_right_inj]
      have hone : len - text.length ≤ 1 := by
        have hsize : BAP_MAX_MESSAGE_LEN = 256 := rfl
        rw [hsize] at hfits hshort
        omega
      rcases Nat.le_one_iff_eq_zero_or_eq_one.mp hone with hcount | hcount
      · rw [hcount]
        exact List.nil_prefix
      · rw [hcount]
        exact List.prefix_rfl
    · refine iff_of_false ?_ (by simp [hfits])
      rintro ⟨bytes, hbytes, hprefix⟩
      have hle := hprefix.length_le
      have hsize : BAP_MAX_MESSAGE_LEN = 256 := rfl
      rw [hsize] at hfits hshort
      rw [← Except.ok.inj hbytes, List.length_append, List.length_append, List.length_replicate,
        List.length_singleton, hshort] at hle
      omega

end Sending

/-! ## Receiving -/

namespace BapMemory

/-- The arrays hold what the receiver over lists has. -/
structure Stores (m : BapMemory) (r : BapReceiver) : Prop where
  inMessage : m.inMessage = r.inMessage
  length : m.messageLen = r.message.length
  short : r.message.length ≤ BAP_MAX_MESSAGE_LEN
  message : ∃ rest, m.message.toList = r.message ++ rest
  last : HoldsText m.lastProcessedMessage 0 r.lastProcessedMessage
  time : m.lastMessageTime = r.lastMessageTime
  calls : m.calls = r.calls

theorem stores_init (message : Vector U8 (BAP_MAX_MESSAGE_LEN + 1)) :
    (init message).Stores BapReceiver.init where
  inMessage := rfl
  length := rfl
  short := Nat.zero_le _
  message := ⟨message.toList, rfl⟩
  last := ⟨List.not_mem_nil, List.replicate (BAP_MAX_MESSAGE_LEN - 1) 0#8, rfl⟩
  time := rfl
  calls := rfl

theorem stringOf_eq (message : List U8) :
    message.takeWhile (· != 0#8) = BapReceiver.stringOf message := by
  rw [BapReceiver.stringOf]
  congr 1
  funext byte
  by_cases h : byte = 0#8 <;> simp [h]

theorem zero_not_mem_stringOf (message : List U8) : 0#8 ∉ BapReceiver.stringOf message := by
  intro h
  simpa using List.mem_takeWhile_imp h

section Parse

variable {message : List U8}

theorem exists_copyBody (buffers : BapParseBuffers) (h : 0#8 ∉ message) {bodyLen : Nat}
    (hlength : bodyLen < BAP_MAX_MESSAGE_LEN) :
    ∃ cells, copyBody buffers message bodyLen = .ok cells ∧
      HoldsText cells 0 ((message.drop 1).take bodyLen) := by
  obtain ⟨cells, cells', hcopy, hend, -, hholds⟩ := exists_strncpy buffers.sentenceBody hlength
    (fun hmem => h (List.mem_of_mem_drop hmem))
  refine ⟨cells', ?_, hholds⟩
  rw [copyBody, hcopy]
  exact hend

/-- A part of the message that is found from its front is the part that is copied. -/
theorem takeWhile_eq_take (p : U8 → Bool) (xs : List U8) :
    xs.takeWhile p = xs.take (xs.takeWhile p).length :=
  List.prefix_iff_eq_take.mp (List.takeWhile_prefix p)

/-- The body is copied within its array. -/
theorem sentenceBody_eq (buffers : BapParseBuffers) (h : 0#8 ∉ message) :
    sentenceBody buffers message = .ok (bapSentenceBody message) := by
  rw [sentenceBody, bapSentenceBody]
  by_cases hshort : message.length < 5
  · rw [if_pos hshort, if_pos hshort]
    rfl
  rw [if_neg hshort, if_neg hshort]
  by_cases hdollar : message.head? ≠ some 0x24#8
  · rw [if_pos hdollar, if_pos hdollar]
    rfl
  rw [if_neg hdollar, if_neg hdollar]
  dsimp only
  by_cases hstar : (message.takeWhile (· ≠ 0x2a#8)).length < message.length
  · rw [if_pos hstar, if_pos hstar]
    have hbody : (message.drop 1).take ((message.takeWhile (· ≠ 0x2a#8)).length - 1) =
        (message.takeWhile (· ≠ 0x2a#8)).drop 1 := by
      rw [← List.drop_take, ← takeWhile_eq_take]
    have hlength : ((message.takeWhile (· ≠ 0x2a#8)).drop 1).length =
        (message.takeWhile (· ≠ 0x2a#8)).length - 1 := List.length_drop
    by_cases hroom : message.length < (message.takeWhile (· ≠ 0x2a#8)).length + 3
    · rw [if_pos hroom, if_pos hroom]
      rfl
    rw [if_neg hroom, if_neg hroom, hlength]
    by_cases hlong : BAP_MAX_MESSAGE_LEN ≤ (message.takeWhile (· ≠ 0x2a#8)).length - 1
    · rw [if_pos hlong, if_pos hlong]
      rfl
    rw [if_neg hlong, if_neg hlong]
    obtain ⟨cells, hcopy, hholds⟩ := exists_copyBody buffers h (Nat.not_le.mp hlong)
    rw [hcopy]
    dsimp only [Bind.bind, Except.bind]
    rw [hholds.readString, hbody]
    dsimp only
    split
    · rfl
    · rfl
  · rw [if_neg hstar, if_neg hstar]
    by_cases hlong : BAP_MAX_MESSAGE_LEN ≤ ((message.drop 1).takeWhile (! isTerminator ·)).length
    · rw [if_pos hlong, if_pos hlong]
      rfl
    rw [if_neg hlong, if_neg hlong]
    obtain ⟨cells, hcopy, hholds⟩ := exists_copyBody buffers h (Nat.not_le.mp hlong)
    rw [hcopy]
    dsimp only [Bind.bind, Except.bind]
    rw [hholds.readString, ← takeWhile_eq_take]
    dsimp only
    split
    · rfl
    · rfl

theorem length_of_bapSentenceBody {body : List U8} (h : bapSentenceBody message = some body) :
    body.length < BAP_MAX_MESSAGE_LEN := by
  rw [bapSentenceBody] at h
  dsimp only at h
  repeat' split at h
  all_goals cases h
  · omega
  · omega

theorem zero_not_mem_bapSentenceBody (h : 0#8 ∉ message) {body : List U8}
    (hbody : bapSentenceBody message = some body) : 0#8 ∉ body := by
  rw [bapSentenceBody] at hbody
  dsimp only at hbody
  repeat' split at hbody
  all_goals cases hbody
  · exact fun hmem => h ((List.takeWhile_prefix _).subset (List.mem_of_mem_drop hmem))
  · exact fun hmem => h (List.mem_of_mem_drop ((List.takeWhile_prefix _).subset hmem))

/-- The tokens are marked within the array of the copy. -/
theorem dispatch_eq (handlers : BapCommand → Bool) (buffers : BapParseBuffers) {body : List U8}
    (h : 0#8 ∉ body) (hlength : body.length < BAP_MAX_MESSAGE_LEN) :
    dispatch handlers buffers body = .ok (bapDispatch handlers body) := by
  obtain ⟨cells, hcopy, hholds⟩ := exists_strcpy buffers.tokenizeBody hlength h
  rw [dispatch, hcopy, bapDispatch]
  dsimp only [Bind.bind, Except.bind]
  have htalker := @HoldsText.strtokAt _ _ _ _ 0x2c#8 hholds
  cases hfirst : strtokR 0x2c#8 body with
  | none =>
    rw [hfirst] at htalker
    dsimp only at htalker
    rw [htalker]
    rfl
  | some talker =>
    rw [hfirst] at htalker
    obtain ⟨cells, next, htoken, hholds⟩ := htalker
    rw [htoken]
    dsimp only [Option.bind]
    by_cases hbap : talker.1 ≠ cText "BAP"
    · rw [if_pos hbap, if_pos hbap]
      rfl
    rw [if_neg hbap, if_neg hbap, dispatchCommand]
    dsimp only [Bind.bind, Except.bind]
    have hcommand := @HoldsText.strtokAt _ _ _ _ 0x2c#8 hholds
    cases hsecond : strtokR 0x2c#8 talker.2 with
    | none =>
      rw [hsecond] at hcommand
      dsimp only at hcommand
      rw [hcommand]
      rfl
    | some command =>
      rw [hsecond] at hcommand
      obtain ⟨cells, next, htoken, hholds⟩ := hcommand
      rw [htoken]
      dsimp only [Option.bind]
      have hparameter := @HoldsText.strtokAt _ _ _ _ 0x2c#8 hholds
      cases hthird : strtokR 0x2c#8 command.2 with
      | none =>
        rw [hthird] at hparameter
        dsimp only at hparameter
        rw [hparameter]
        rfl
      | some parameter =>
        rw [hthird] at hparameter
        obtain ⟨cells, next, htoken, hholds⟩ := hparameter
        rw [htoken]
        dsimp only [Option.bind]
        have hvalue := @HoldsText.strtokAt _ _ _ _ 0x2c#8 hholds
        cases hfourth : strtokR 0x2c#8 parameter.2 with
        | none =>
          rw [hfourth] at hvalue
          dsimp only at hvalue
          rw [hvalue]
          dsimp only
          split
          · rfl
          · split <;> rfl
        | some value =>
          rw [hfourth] at hvalue
          obtain ⟨cells, next, htoken, -⟩ := hvalue
          rw [htoken]
          dsimp only
          split
          · rfl
          · split <;> rfl

end Parse

section Step

variable {handlers : BapCommand → Bool} {m : BapMemory} {r : BapReceiver}

/-- `BAP_parse_message` over the arrays -/
theorem Stores.parseMessage (h : m.Stores r) (buffers : BapParseBuffers) {text : List U8}
    (htext : 0#8 ∉ text) (nowUs : U64) :
    ∃ m', BapMemory.parseMessage handlers m buffers text nowUs = .ok m' ∧
      m'.Stores (r.parseMessage handlers text nowUs) := by
  rw [BapMemory.parseMessage, BapReceiver.parseMessage, h.last.readString]
  dsimp only [Bind.bind, Except.bind]
  rw [h.time, BapReceiver.isDuplicate]
  by_cases hduplicate : (text == r.lastProcessedMessage &&
      decide (BapReceiver.currentTime nowUs - r.lastMessageTime < 1000#32)) = true
  · rw [if_pos hduplicate, if_pos hduplicate]
    exact ⟨m, rfl, h⟩
  · rw [if_neg hduplicate, if_neg hduplicate]
    obtain ⟨last, last', hcopy, hend, -, hholds⟩ := exists_strncpy m.lastProcessedMessage
      (show BAP_MAX_MESSAGE_LEN - 1 < BAP_MAX_MESSAGE_LEN by decide) htext
    rw [hcopy]
    dsimp only
    rw [hend]
    dsimp only
    rw [sentenceBody_eq buffers htext]
    dsimp only
    cases hbody : bapSentenceBody text with
    | none =>
      refine ⟨_, rfl, h.inMessage, h.length, h.short, h.message, hholds, rfl, ?_⟩
      rw [BapReceiver.callOf, hbody]
      simpa using h.calls
    | some body =>
      dsimp only
      rw [dispatch_eq handlers buffers (zero_not_mem_bapSentenceBody htext hbody)
        (length_of_bapSentenceBody hbody)]
      refine ⟨_, rfl, h.inMessage, h.length, h.short, h.message, hholds, rfl, ?_⟩
      rw [BapReceiver.callOf, hbody, h.calls]
      rfl

/-- One byte is put behind the message. -/
theorem exists_push (h : m.Stores r) {c : U8} :
    ∃ cells, writeCell m.message m.messageLen c = .ok cells ∧
      ∃ rest, cells.toList = r.message ++ c :: rest ∧ rest.length + r.message.length =
        BAP_MAX_MESSAGE_LEN := by
  obtain ⟨rest, hrest⟩ := h.message
  have hshort := h.short
  have hsize := congrArg List.length hrest
  rw [Vector.length_toList, List.length_append] at hsize
  obtain ⟨first, tail, htail⟩ := List.exists_cons_of_length_pos (show 0 < rest.length by omega)
  obtain ⟨cells, hwrite, hcells⟩ := @exists_writeCell _ m.messageLen m.message c
    (by rw [h.length]; omega)
  refine ⟨cells, hwrite, tail, ?_, ?_⟩
  · rw [hcells, hrest, htail, h.length, List.set_append_right _ _ le_rfl, Nat.sub_self]
    rfl
  · rw [htail, List.length_cons] at hsize
    omega

/-- One byte of the loop over the arrays -/
theorem Stores.step (h : m.Stores r) (input : BapMemoryInput) :
    ∃ m', BapMemory.step handlers m input = .ok m' ∧
      m'.Stores (r.step handlers input.toBapByte) := by
  rw [BapMemory.step, BapReceiver.step]
  dsimp only
  by_cases hdollar : input.byte = 0x24#8
  · rw [if_pos hdollar, if_pos hdollar]
    obtain ⟨cells, hwrite, hcells⟩ := @exists_writeCell _ 0 m.message input.byte (by decide)
    rw [hwrite]
    have hfront : ∃ rest, cells.toList = [input.byte] ++ rest := by
      have hpos : 0 < m.message.toList.length := by
        rw [Vector.length_toList]
        decide
      obtain ⟨first, rest, hrest⟩ := List.exists_cons_of_length_pos hpos
      exact ⟨rest, by rw [hcells, hrest]; rfl⟩
    have hshort : 1 ≤ BAP_MAX_MESSAGE_LEN := by decide
    exact ⟨_, rfl, rfl, rfl, hshort, hfront, h.last, h.time, h.calls⟩
  rw [if_neg hdollar, if_neg hdollar, h.inMessage, h.length]
  by_cases hend : (isTerminator input.byte && r.inMessage) = true
  · rw [if_pos hend, if_pos hend]
    by_cases hwhole : 1 < r.message.length ∧ r.message.length < BAP_MAX_MESSAGE_LEN
    · rw [if_pos hwhole, if_pos hwhole]
      obtain ⟨cells, hwrite, rest, hcells, hroom⟩ := @exists_push m r h input.byte
      rw [h.length] at hwrite
      obtain ⟨first, tail, htail⟩ := List.exists_cons_of_length_pos
        (show 0 < rest.length by omega)
      obtain ⟨cells', hwrite', hcells'⟩ := @exists_writeCell _ (r.message.length + 1) cells 0#8
        (by omega)
      have hlist : cells'.toList = (r.message ++ [input.byte]) ++ 0#8 :: tail := by
        rw [hcells', hcells, htail]
        simp
      have htext := readString_of_eq hlist
      rw [stringOf_eq] at htext
      have hstores : BapMemory.Stores
          { m with message := cells', messageLen := r.message.length + 1 }
          { r with message := r.message ++ [input.byte] } :=
        ⟨h.inMessage, by simp, by simp; omega, ⟨_, hlist⟩, h.last, h.time, h.calls⟩
      obtain ⟨m', hparse, hafter⟩ := @Stores.parseMessage handlers _ _ hstores input.buffers _
        (zero_not_mem_stringOf (r.message ++ [input.byte])) input.nowUs
      rw [hwrite]
      dsimp only [Bind.bind, Except.bind]
      rw [hwrite']
      dsimp only
      rw [htext]
      dsimp only
      rw [h.inMessage] at hparse
      rw [hparse]
      dsimp only
      by_cases hcr : input.byte = 0x0d#8
      · rw [if_pos hcr, if_pos hcr]
        exact ⟨m', rfl, hafter⟩
      · rw [if_neg hcr, if_neg hcr]
        exact ⟨_, rfl, rfl, hafter.length, hafter.short, hafter.message, hafter.last,
          hafter.time, hafter.calls⟩
    · rw [if_neg hwhole, if_neg hwhole]
      by_cases hlong : BAP_MAX_MESSAGE_LEN ≤ r.message.length
      · rw [if_pos hlong, if_pos hlong]
        exact ⟨_, rfl, rfl, rfl, h.short, h.message, h.last, h.time, h.calls⟩
      · rw [if_neg hlong, if_neg hlong]
        exact ⟨_, rfl, h.inMessage, h.length, h.short, h.message, h.last, h.time, h.calls⟩
  · rw [if_neg hend, if_neg hend]
    by_cases hmore : (r.inMessage && decide (r.message.length < BAP_MAX_MESSAGE_LEN)) = true
    · rw [if_pos hmore, if_pos hmore]
      obtain ⟨cells, hwrite, rest, hcells, -⟩ := @exists_push m r h input.byte
      rw [h.length] at hwrite
      rw [hwrite]
      have hlt : r.message.length < BAP_MAX_MESSAGE_LEN := by
        simpa using (Bool.and_eq_true_iff.mp hmore).2
      refine ⟨_, rfl, rfl, by simp, ?_, ⟨rest, ?_⟩, h.last, h.time, h.calls⟩
      · rw [List.length_append, List.length_singleton]
        exact hlt
      · rw [hcells]
        simp
    · rw [if_neg hmore, if_neg hmore]
      exact ⟨_, rfl, h.inMessage, h.length, h.short, h.message, h.last, h.time, h.calls⟩

/-- **The receiver keeps within its arrays for every stream.** -/
theorem Stores.run (h : m.Stores r) (inputs : List BapMemoryInput) :
    ∃ m', uartReceiveTaskChecked handlers m inputs = .ok m' ∧
      m'.Stores (Library.run (BapReceiver.step handlers) r (inputs.map (·.toBapByte))) := by
  induction inputs generalizing m r with
  | nil => exact ⟨m, rfl, h⟩
  | cons input inputs ih =>
    obtain ⟨m', hstep, hstores⟩ := @Stores.step handlers m r h input
    obtain ⟨m'', hrun, hafter⟩ := ih hstores
    refine ⟨m'', ?_, hafter⟩
    rw [uartReceiveTaskChecked, List.foldlM_cons, hstep]
    exact hrun

end Step

end BapMemory

/-! ## All buffers -/

/-- No buffer is overrun by the stream and the two calls. -/
structure BapBuffersInBounds (handlers : BapCommand → Bool) (m : BapMemory)
    (inputs : List BapMemoryInput) (buffers : BapSendBuffers) (taken queued : Bool)
    (heap : (size : Nat) → Vector U8 size) (command : BapCommand) (parameter : Text)
    (value : Option Text) : Prop where
  received : ∃ m', uartReceiveTaskChecked handlers m inputs = .ok m'
  sent : HandsWritten (bapWritten command parameter value)
    (bapSendMessageChecked buffers taken command parameter value)
  queuedSent : HandsWritten (bapWritten command parameter value)
    (bapSendMessageWithQueueChecked buffers queued heap command parameter value)

/-- **No buffer is overrun exactly when** nothing is handed on or the body is of up to 250
bytes. -/
theorem bapBuffersInBounds_iff (handlers : BapCommand → Bool)
    (message : Vector U8 (BAP_MAX_MESSAGE_LEN + 1)) (inputs : List BapMemoryInput)
    (buffers : BapSendBuffers) (taken queued : Bool) (heap : (size : Nat) → Vector U8 size)
    (command : BapCommand) (parameter : Text) (value : Option Text) :
    BapBuffersInBounds handlers (BapMemory.init message) inputs buffers taken queued heap command
        parameter value ↔
      taken = false ∧ queued = false ∨ (bapBodyOf command parameter value).length ≤ 250 := by
  have hsent := handsWritten_bapSendMessage_iff buffers command parameter value taken
  have hqueued := handsWritten_bapSendMessageWithQueue_iff buffers command parameter value queued
    heap
  constructor
  · rintro ⟨-, h, h'⟩
    rcases hsent.mp h with htaken | hfits
    · rcases hqueued.mp h' with hqueue | hfits
      · exact .inl ⟨htaken, hqueue⟩
      · exact .inr hfits
    · exact .inr hfits
  · intro h
    obtain ⟨m', hrun, -⟩ :=
      @BapMemory.Stores.run handlers _ _ (BapMemory.stores_init message) inputs
    exact ⟨⟨m', hrun⟩, hsent.mpr (h.imp_left (·.1)), hqueued.mpr (h.imp_left (·.2))⟩

/-- A parameter as long as the receiver takes one -/
def longParameter : Text :=
  ⟨List.replicate 246 0x61#8, by
    rw [List.mem_replicate]
    decide⟩

/-- A subscription to it, as it is received -/
def longSubscription : List BapMemoryInput :=
  (cText "$BAP,SUB," ++ longParameter.val ++ cText "\n").map fun byte =>
    ⟨⟨byte, 0⟩, ⟨Vector.replicate _ 0, Vector.replicate _ 0⟩⟩

/-- The refusal of a subscription in AP mode is longer than its array. -/
theorem echoed_parameter_overruns :
    ∃ m, uartReceiveTaskChecked bapHandlers (BapMemory.init (Vector.replicate _ 0))
        longSubscription = .ok m ∧
      m.calls = [⟨.sub, longParameter.val, none⟩] ∧
      ∃ reply, bapHandleSubscription false longParameter = some reply ∧
        ¬ BapBuffersInBounds bapHandlers (BapMemory.init (Vector.replicate _ 0)) longSubscription
          ⟨Vector.replicate _ 0, Vector.replicate _ 0⟩ true false (fun _ => Vector.replicate _ 0)
          reply.1 reply.2.1 reply.2.2 := by
  obtain ⟨m, hrun, hstores⟩ := @BapMemory.Stores.run bapHandlers _ _
    (BapMemory.stores_init (Vector.replicate _ 0)) longSubscription
  refine ⟨m, hrun, ?_, _, rfl, ?_⟩
  · rw [hstores.calls]
    decide +kernel
  · intro h
    rcases (handsWritten_bapSendMessage_iff _ _ _ _ _).mp h.sent with htaken | hfits
    · cases htaken
    · exact absurd hfits (by decide +kernel)

end EspMiner
