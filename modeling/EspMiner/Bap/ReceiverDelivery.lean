import EspMiner.Bap.ReceiverSoundness

/-!
# How often a sentence calls its handler

A sentence ends with CR and LF, and the receiver hands it to the parser at both.  The two texts
differ in the LF, so the second one is no duplicate of the first, and the handler is called twice
unless the first one is taken for a duplicate.  The bytes before the CR change nothing but the
buffer, so a sentence comes down to its two terminators.
-/

namespace EspMiner

open Library

/-- A byte that may be part of a parameter or a value. -/
def isPlainByte (byte : U8) : Bool :=
  !isTerminator byte && byte != 0#8 && byte != 0x24#8 && byte != 0x2a#8 && byte != 0x2c#8

/-- A command with a handler, its arguments and the sentence that `BAP_send_message`
writes for it. -/
structure BapSentence (handlers : BapCommand → Bool) where
  command : BapCommand
  parameter : List U8
  value : Option (List U8)
  bytes : List U8
  known : command ≠ .unknown
  registered : handlers command = true
  parameterPlain : parameter ≠ [] ∧ parameter.all isPlainByte = true
  valuePlain : ∀ text, value = some text → text ≠ [] ∧ text.all isPlainByte = true
  sent : bapSendMessage command parameter value = some bytes

namespace BapSentence

variable {handlers : BapCommand → Bool} (s : BapSentence handlers)

/-- The call that the sentence is for. -/
def call (s : BapSentence handlers) : BapCall := ⟨s.command, s.parameter, s.value⟩

/-- The body of the sentence. -/
def body (s : BapSentence handlers) : List U8 := bapBody s.command s.parameter s.value

/-- The sentence before its terminators. -/
def text (s : BapSentence handlers) : List U8 :=
  0x24#8 :: (s.body ++ 0x2a#8 :: upperHex (bapCalculateChecksum s.body))

/-- What is sent: the body fits into its array, since the sentence does. -/
theorem bytes_eq : s.bytes = s.text ++ [0x0d#8, 0x0a#8] ∧ s.bytes.length < BAP_MAX_MESSAGE_LEN := by
  have hsent := s.sent
  have hfold : bapBody s.command s.parameter s.value = s.body := rfl
  simp only [bapSendMessage, hfold] at hsent
  split at hsent
  · next hshort =>
    have htake : s.body.take (BAP_MAX_MESSAGE_LEN - 1) = s.body := by
      apply List.take_of_length_le
      have hdollar : (cText "$").length = 1 := rfl
      simp only [List.length_append, List.length_take] at hshort
      omega
    have hbytes := Option.some.inj hsent
    rw [hbytes] at hshort
    refine ⟨?_, hshort⟩
    rw [← hbytes, htake, text]
    simp [cText]
  · cases hsent

/-- The body, delimiter by delimiter. -/
theorem body_eq :
    s.body = cText "BAP" ++ 0x2c#8 :: (s.command.toText ++ 0x2c#8 :: (s.parameter ++
      s.value.elim [] (0x2c#8 :: ·))) := by
  unfold body bapBody
  cases hvalue : s.value with
  | none => simp [cText]
  | some value => simp [cText, (s.valuePlain value hvalue).1]

/-- A byte that no layer takes for a delimiter. -/
def Inert (byte : U8) : Prop :=
  isTerminator byte = false ∧ byte ≠ 0#8 ∧ byte ≠ 0x24#8

theorem inert_of_isPlainByte {byte : U8} (h : isPlainByte byte = true) :
    Inert byte ∧ byte ≠ 0x2a#8 ∧ byte ≠ 0x2c#8 := by
  simp only [isPlainByte, Bool.and_eq_true, Bool.not_eq_true', bne_iff_ne, ne_eq] at h
  exact ⟨⟨h.1.1.1.1, h.1.1.1.2, h.1.1.2⟩, h.1.2, h.2⟩

theorem toText_plain (command : BapCommand) :
    command.toText ≠ [] ∧ command.toText.all isPlainByte = true := by
  have htable : ∀ entry ∈ BapCommand.commandStrings,
      entry.2 ≠ [] ∧ entry.2.all isPlainByte = true := by
    decide +kernel
  unfold BapCommand.toText
  split
  · decide
  · next entry hentry => exact htable entry (List.mem_of_find?_eq_some hentry)

theorem inert_body : ∀ byte ∈ s.body, Inert byte ∧ byte ≠ 0x2a#8 := by
  have hcomma : Inert 0x2c#8 ∧ (0x2c#8 : U8) ≠ 0x2a#8 := by unfold Inert; decide
  have hplain : ∀ byte : U8, isPlainByte byte = true → Inert byte ∧ byte ≠ 0x2a#8 :=
    fun byte h => ⟨(inert_of_isPlainByte h).1, (inert_of_isPlainByte h).2.1⟩
  intro byte hbyte
  rw [body_eq] at hbyte
  simp only [List.mem_append, List.mem_cons] at hbyte
  rcases hbyte with hbap | rfl | hname | rfl | hparameter | hvalue
  · exact hplain byte ((by decide : ∀ byte ∈ cText "BAP", isPlainByte byte = true) byte hbap)
  · exact hcomma
  · exact hplain byte (List.all_eq_true.mp (toText_plain s.command).2 byte hname)
  · exact hcomma
  · exact hplain byte (List.all_eq_true.mp s.parameterPlain.2 byte hparameter)
  · cases htext : s.value with
    | none => simp [htext] at hvalue
    | some text =>
      simp only [htext, Option.elim_some, List.mem_cons] at hvalue
      rcases hvalue with rfl | hvalue
      · exact hcomma
      · exact hplain byte (List.all_eq_true.mp (s.valuePlain text htext).2 byte hvalue)

theorem comma_not_mem {text : List U8} (h : text.all isPlainByte = true) : 0x2c#8 ∉ text :=
  fun hmem => (inert_of_isPlainByte (List.all_eq_true.mp h _ hmem)).2.2 rfl

theorem fields_body :
    fields 0x2c#8 s.body = cText "BAP" :: s.command.toText :: s.parameter :: s.value.toList := by
  have hname := toText_plain s.command
  have hparameter := comma_not_mem s.parameterPlain.2
  rw [body_eq, fields_append_delim (by decide) (by decide),
    fields_append_delim hname.1 (comma_not_mem hname.2)]
  cases htext : s.value with
  | none =>
    rw [Option.elim_none, List.append_nil, fields_of_not_mem s.parameterPlain.1 hparameter]
    rfl
  | some text =>
    obtain ⟨hnil, hplain⟩ := s.valuePlain text htext
    rw [Option.elim_some, fields_append_delim s.parameterPlain.1 hparameter,
      fields_of_not_mem hnil (comma_not_mem hplain)]
    rfl

/-! ### The parser -/

/-- The sentence asks for its call at both of its terminators. -/
theorem callOf_text (tail : List U8) :
    BapReceiver.callOf handlers (s.text ++ tail) = some s.call := by
  have hbody : s.body.length < BAP_MAX_MESSAGE_LEN := by
    obtain ⟨hbytes, hlength⟩ := s.bytes_eq
    rw [hbytes, text] at hlength
    simp only [List.length_append, List.length_cons] at hlength
    omega
  have hnil : s.body ≠ [] := by
    rw [body_eq]
    exact List.cons_ne_nil _ _
  have hsplit : s.text ++ tail =
      0x24#8 :: (s.body ++ 0x2a#8 :: (upperHex (bapCalculateChecksum s.body) ++ tail)) := by
    simp [text]
  have hknown : BapCommand.fromString s.command.toText = s.command :=
    BapCommand.fromString_toText s.command
  rw [hsplit, BapReceiver.callOf, bapSentenceBody_of_checksum hnil
    (fun hmem => (s.inert_body _ hmem).2 rfl) hbody (by simp [upperHex])
    (by rw [scanHexByte_upperHex]; rfl)]
  refine (bapDispatch_of_fields s.fields_body (hknown.symm ▸ s.known)
    (hknown.symm ▸ s.registered)).trans ?_
  rw [hknown]
  cases hvalue : s.value <;> simp [call, hvalue]

/-! ### The receiver -/

theorem inert_text : ∃ rest, s.text = 0x24#8 :: rest ∧ ∀ byte ∈ rest, Inert byte := by
  have hdigit : ∀ nibble < 16, Inert (upperDigit nibble) := by
    unfold Inert
    decide
  have hbyte := (bapCalculateChecksum s.body).isLt
  refine ⟨_, rfl, fun byte hmem => ?_⟩
  simp only [List.mem_append, List.mem_cons, upperHex, List.not_mem_nil, or_false] at hmem
  rcases hmem with hmem | rfl | rfl | rfl
  · exact (s.inert_body byte hmem).1
  · unfold Inert
    decide
  · exact hdigit _ (by omega)
  · exact hdigit _ (by omega)

/-- Bytes that are no delimiters are added to the message. -/
theorem run_inert {r : BapReceiver} (hin : r.inMessage = true) {inputs : List BapByte}
    (hinert : ∀ input ∈ inputs, Inert input.byte)
    (hlength : r.message.length + inputs.length ≤ BAP_MAX_MESSAGE_LEN) :
    run (BapReceiver.step handlers) r inputs =
      { r with message := r.message ++ inputs.map BapByte.byte } := by
  induction inputs generalizing r with
  | nil => simp
  | cons input inputs ih =>
    obtain ⟨hterminator, -, hdollar⟩ := hinert input List.mem_cons_self
    rw [List.length_cons] at hlength
    have hstep : r.step handlers input = { r with message := r.message ++ [input.byte] } := by
      have hroom : r.message.length < BAP_MAX_MESSAGE_LEN := by omega
      simp [BapReceiver.step, hdollar, hterminator, hin, hroom]
    have hrest := ih (r := { r with message := r.message ++ [input.byte] }) hin
      (fun other hother => hinert other (List.mem_cons_of_mem _ hother)) (by simp; omega)
    rw [run_cons, hstep, hrest]
    simp

theorem run_text (r : BapReceiver) {inputs : List BapByte}
    (hinputs : inputs.map BapByte.byte = s.text) :
    run (BapReceiver.step handlers) r inputs = { r with inMessage := true, message := s.text } := by
  obtain ⟨rest, htext, hinert⟩ := s.inert_text
  obtain ⟨hbytes, hlength⟩ := s.bytes_eq
  rw [htext] at hinputs
  obtain ⟨first, inputs, rfl, hfirst, hrest⟩ := List.map_eq_cons_iff.mp hinputs
  have hstart : r.step handlers first = { r with inMessage := true, message := [0x24#8] } := by
    simp [BapReceiver.step, hfirst]
  rw [run_cons, hstart, run_inert rfl, hrest, htext]
  · rfl
  · intro input hinput
    exact hinert _ (hrest ▸ List.mem_map_of_mem hinput)
  · rw [hbytes, htext] at hlength
    have := congrArg List.length hrest
    simp only [List.length_map, List.length_append, List.length_cons] at this hlength ⊢
    omega

/-- A terminator hands the message to the parser. -/
theorem step_terminator {r : BapReceiver} {input : BapByte} (hin : r.inMessage = true)
    (hterminator : isTerminator input.byte = true) (hnul : 0#8 ∉ r.message ++ [input.byte])
    (hlength : 1 < r.message.length ∧ r.message.length < BAP_MAX_MESSAGE_LEN) :
    r.step handlers input =
      { BapReceiver.parseMessage handlers { r with message := r.message ++ [input.byte] }
          (r.message ++ [input.byte]) input.nowUs with inMessage := input.byte == 0x0d#8 } := by
  have hdollar : input.byte ≠ 0x24#8 := by
    intro heq
    rw [heq] at hterminator
    cases hterminator
  have hstring : BapReceiver.stringOf (r.message ++ [input.byte]) = r.message ++ [input.byte] := by
    apply List.takeWhile_eq_self_iff.mpr
    intro byte hbyte
    have hne : byte ≠ 0#8 := by
      rintro rfl
      exact hnul hbyte
    simpa using hne
  simp only [BapReceiver.step, hdollar, hterminator, hin, hlength, hstring, if_false, if_true,
    Bool.and_self, and_self]
  split
  · next hcr =>
    simp only [hcr, BEq.rfl, BapReceiver.parseMessage]
    split <;> simp
  · next hcr => simp [hcr]

/-- A message that is no duplicate. -/
theorem parseMessage_of_not_duplicate {r : BapReceiver} {message : List U8} {nowUs : U64}
    (h : r.isDuplicate message nowUs = false) :
    r.parseMessage handlers message nowUs =
      { r with
        lastProcessedMessage := message.take (BAP_MAX_MESSAGE_LEN - 1)
        lastMessageTime := BapReceiver.currentTime nowUs
        calls := r.calls ++ (BapReceiver.callOf handlers message).toList } := by
  rw [BapReceiver.parseMessage, if_neg (by simp [h])]

theorem nul_not_mem : 0#8 ∉ s.text ++ [0x0d#8, 0x0a#8] := by
  obtain ⟨rest, htext, hinert⟩ := s.inert_text
  rw [htext]
  simp only [List.cons_append, List.mem_cons, List.mem_append, List.not_mem_nil, or_false]
  rintro (h | h | h | h)
  · cases h
  · exact (hinert _ h).2.1 rfl
  · cases h
  · cases h

/-- The sentence is long enough to be parsed, and short enough. -/
theorem length_text : 1 < s.text.length ∧ s.text.length + 2 < BAP_MAX_MESSAGE_LEN := by
  obtain ⟨hbytes, hlength⟩ := s.bytes_eq
  rw [hbytes, List.length_append] at hlength
  refine ⟨?_, hlength⟩
  simp only [text, List.length_cons, List.length_append]
  omega

/-- The CR: the handler is called unless the sentence is taken for a duplicate. -/
theorem step_cr {r : BapReceiver} {cr : BapByte} (hcr : cr.byte = 0x0d#8) (hin : r.inMessage = true)
    (hmessage : r.message = s.text) :
    (r.step handlers cr).inMessage = true ∧
      (r.step handlers cr).message = s.text ++ [0x0d#8] ∧
      (r.step handlers cr).lastProcessedMessage = s.text ++ [0x0d#8] ∧
      (r.step handlers cr).calls = r.calls ++
        (if r.isDuplicate (s.text ++ [0x0d#8]) cr.nowUs then [] else [s.call]) := by
  obtain ⟨hlong, hshort⟩ := s.length_text
  have hnul : 0#8 ∉ r.message ++ [cr.byte] := by
    rw [hmessage, hcr]
    intro hmem
    refine s.nul_not_mem (List.mem_append.mpr ((List.mem_append.mp hmem).imp_right fun h => ?_))
    exact List.mem_cons.mpr (.inl (List.mem_singleton.mp h))
  rw [step_terminator hin (by rw [hcr]; decide) hnul (by rw [hmessage]; omega), hmessage, hcr]
  cases hduplicate : r.isDuplicate (s.text ++ [0x0d#8]) cr.nowUs with
  | true =>
    have hlast : s.text ++ [0x0d#8] = r.lastProcessedMessage :=
      beq_iff_eq.mp (Bool.and_eq_true_iff.mp hduplicate).1
    rw [BapReceiver.parseMessage, if_pos (by exact hduplicate)]
    exact ⟨rfl, rfl, hlast.symm, by simp⟩
  | false =>
    rw [parseMessage_of_not_duplicate (by exact hduplicate), s.callOf_text]
    refine ⟨rfl, rfl, ?_, rfl⟩
    apply List.take_of_length_le
    rw [List.length_append, List.length_singleton]
    omega

/-- The LF: the handler is called. -/
theorem step_lf {r : BapReceiver} {lf : BapByte} (hlf : lf.byte = 0x0a#8) (hin : r.inMessage = true)
    (hmessage : r.message = s.text ++ [0x0d#8])
    (hlast : r.lastProcessedMessage = s.text ++ [0x0d#8]) :
    (r.step handlers lf).lastProcessedMessage = s.bytes ∧
      (r.step handlers lf).calls = r.calls ++ [s.call] := by
  obtain ⟨hlong, hshort⟩ := s.length_text
  have hbytes : r.message ++ [lf.byte] = s.bytes := by
    rw [hmessage, hlf, s.bytes_eq.1, List.append_assoc]
    rfl
  have hnul : 0#8 ∉ r.message ++ [lf.byte] := by
    rw [hbytes, s.bytes_eq.1]
    exact s.nul_not_mem
  have hlength : r.message.length = s.text.length + 1 := by
    rw [hmessage, List.length_append, List.length_singleton]
  -- the LF makes it another message
  have hother : BapReceiver.isDuplicate { r with message := s.bytes } s.bytes lf.nowUs = false := by
    have hne : s.bytes ≠ r.lastProcessedMessage := by
      rw [hlast, ← hbytes, hmessage]
      simp
    simp [BapReceiver.isDuplicate, hne]
  rw [step_terminator hin (by rw [hlf]; decide) hnul (by omega), hbytes,
    parseMessage_of_not_duplicate hother, s.bytes_eq.1, s.callOf_text]
  refine ⟨?_, rfl⟩
  apply List.take_of_length_le
  simp only [List.length_append, List.length_cons, List.length_nil]
  omega

/-- The parser has processed the sentence up to its CR less than a second before the CR
arrives. -/
def repeats (r : BapReceiver) (s : BapSentence handlers) (inputs : List BapByte) : Bool :=
  match inputs[s.text.length]? with
  | none => false
  | some cr => r.isDuplicate (s.text ++ [0x0d#8]) cr.nowUs

/-- **The handler of a sentence is called twice**, unless the first call is taken for a
duplicate. -/
theorem run_sentence (r : BapReceiver) {inputs : List BapByte}
    (hinputs : inputs.map BapByte.byte = s.bytes) :
    (run (BapReceiver.step handlers) r inputs).lastProcessedMessage = s.bytes ∧
      (run (BapReceiver.step handlers) r inputs).calls =
        r.calls ++ ((if repeats r s inputs then [] else [s.call]) ++ [s.call]) := by
  rw [s.bytes_eq.1] at hinputs
  obtain ⟨front, back, rfl, hfront, hback⟩ := List.map_eq_append_iff.mp hinputs
  obtain ⟨cr, back, rfl, hcr, hback⟩ := List.map_eq_cons_iff.mp hback
  obtain ⟨lf, back, rfl, hlf, hback⟩ := List.map_eq_cons_iff.mp hback
  obtain rfl := List.map_eq_nil_iff.mp hback
  have hrepeats : repeats r s (front ++ [cr, lf]) =
      r.isDuplicate (s.text ++ [0x0d#8]) cr.nowUs := by
    have hlength : s.text.length = front.length := by rw [← hfront, List.length_map]
    simp [repeats, hlength]
  obtain ⟨hin, hmessage, hlast, hcalls⟩ :=
    s.step_cr (r := { r with inMessage := true, message := s.text }) hcr rfl rfl
  obtain ⟨hlast', hcalls'⟩ := s.step_lf hlf hin hmessage hlast
  rw [run_append, s.run_text r hfront, run_cons, run_cons, run_nil]
  refine ⟨hlast', ?_⟩
  rw [hcalls', hcalls, hrepeats, List.append_assoc]
  rfl

/-- Behind a sentence none is taken for a duplicate. -/
theorem repeats_of_last {r : BapReceiver} {s s' : BapSentence handlers}
    (hlast : r.lastProcessedMessage = s.bytes) (inputs : List BapByte) :
    repeats r s' inputs = false := by
  have hne : s'.text ++ [0x0d#8] ≠ r.lastProcessedMessage := by
    rw [hlast, s.bytes_eq.1,
      show s.text ++ [0x0d#8, 0x0a#8] = s.text ++ [0x0d#8] ++ [0x0a#8] by simp]
    intro heq
    have hlf := (List.append_inj' heq rfl).2
    cases hlf
  unfold repeats
  split
  · rfl
  · simp [BapReceiver.isDuplicate, hne]

/-- The calls of a sequence of sentences. -/
theorem run_sentences (sentences : List (BapSentence handlers)) (r : BapReceiver)
    {inputs : List BapByte} (hinputs : inputs.map BapByte.byte = sentences.flatMap bytes)
    (hlast : ∃ s : BapSentence handlers, r.lastProcessedMessage = s.bytes) :
    (run (BapReceiver.step handlers) r inputs).calls =
      r.calls ++ sentences.flatMap fun s => [s.call, s.call] := by
  induction sentences generalizing r inputs with
  | nil =>
    obtain rfl := List.map_eq_nil_iff.mp hinputs
    simp
  | cons s sentences ih =>
    obtain ⟨front, back, rfl, hfront, hback⟩ := List.map_eq_append_iff.mp hinputs
    obtain ⟨previous, hprevious⟩ := hlast
    obtain ⟨hlast', hcalls⟩ := s.run_sentence r hfront
    rw [run_append, ih _ hback ⟨s, hlast'⟩, hcalls, repeats_of_last hprevious]
    simp

end BapSentence

/-- **No sequence of sentences is carried exactly once**, whatever the reads and the
times, but one sentence that is taken for a duplicate at its CR. -/
theorem bap_sentences_carried_iff (handlers : BapCommand → Bool) (r : BapReceiver)
    (sentences : List (BapSentence handlers)) (reads : List (List BapByte))
    (hreads : readBytes reads = sentences.flatMap BapSentence.bytes) :
    (uartReceiveTask handlers r reads).calls = r.calls ++ sentences.map BapSentence.call ↔
      sentences = [] ∨
        ∃ s, sentences = [s] ∧ BapSentence.repeats r s reads.flatten = true := by
  rw [uartReceiveTask_eq]
  unfold readBytes at hreads
  generalize reads.flatten = inputs at hreads ⊢
  cases sentences with
  | nil =>
    obtain rfl := List.map_eq_nil_iff.mp hreads
    simp
  | cons s sentences =>
    obtain ⟨front, back, rfl, hfront, hback⟩ := List.map_eq_append_iff.mp hreads
    obtain ⟨hlast, hcalls⟩ := s.run_sentence r hfront
    have hrepeats : BapSentence.repeats r s (front ++ back) = BapSentence.repeats r s front := by
      have hlength : s.text.length < front.length := by
        rw [← List.length_map BapByte.byte, hfront, s.bytes_eq.1, List.length_append]
        exact Nat.lt_add_of_pos_right (by simp)
      rw [BapSentence.repeats, List.getElem?_append_left hlength, BapSentence.repeats]
    have hcount : (sentences.flatMap fun s => [s.call, s.call]).length = 2 * sentences.length := by
      simp [List.length_flatMap, Nat.mul_comm]
    rw [run_append, BapSentence.run_sentences sentences _ hback ⟨s, hlast⟩, hcalls,
      List.append_assoc, List.append_cancel_left_eq]
    constructor
    · intro hcarried
      have hlength := congrArg List.length hcarried
      simp only [List.length_append, List.length_map, List.length_cons, List.length_nil,
        hcount] at hlength
      right
      cases hfirst : BapSentence.repeats r s front with
      | true =>
        rw [hfirst] at hlength
        refine ⟨s, ?_, hrepeats.trans hfirst⟩
        obtain rfl : sentences = [] := List.length_eq_zero_iff.mp (by simp at hlength; omega)
        rfl
      | false =>
        rw [hfirst] at hlength
        simp at hlength
        omega
    · rintro (hnil | ⟨s', hsingle, hfirst⟩)
      · cases hnil
      · obtain ⟨rfl, rfl⟩ := List.cons.inj hsingle
        rw [hrepeats] at hfirst
        rw [hfirst]
        rfl

/-- The sentence of a request. -/
def someRequest : BapSentence bapHandlers where
  command := .req
  parameter := cText "systemInfo"
  value := none
  bytes := cText "$BAP,REQ,systemInfo*3E\r\n"
  known := by decide
  registered := by decide
  parameterPlain := by decide
  valuePlain := fun _ h => (by cases h)
  sent := by decide

theorem bap_sentences_carried_iff_request :
    (uartReceiveTask bapHandlers BapReceiver.init [readAt 0 someRequest.bytes]).calls =
        [someRequest.call] ↔
      [someRequest] = [] ∨ ∃ s, [someRequest] = [s] ∧
        BapSentence.repeats BapReceiver.init s [readAt 0 someRequest.bytes].flatten = true :=
  bap_sentences_carried_iff bapHandlers BapReceiver.init [someRequest]
    [readAt 0 someRequest.bytes] (by decide)

/-- A request behind a silence calls its handler twice. -/
theorem request_carried_twice :
    ¬∀ (handlers : BapCommand → Bool) (s : BapSentence handlers) (reads : List (List BapByte)),
      readBytes reads = s.bytes →
        (uartReceiveTask handlers BapReceiver.init reads).calls = [s.call] := by
  intro hclaim
  have hread : [readAt 0 someRequest.bytes].flatten.map BapByte.byte = someRequest.bytes := by
    simp [readAt, Function.comp_def]
  have hcalls := hclaim bapHandlers someRequest [readAt 0 someRequest.bytes] hread
  have hfirst : BapSentence.repeats BapReceiver.init someRequest
      [readAt 0 someRequest.bytes].flatten = false := by
    unfold BapSentence.repeats
    split
    · rfl
    · simp [BapReceiver.isDuplicate, BapReceiver.init]
  rw [uartReceiveTask_eq, (someRequest.run_sentence BapReceiver.init hread).2, hfirst] at hcalls
  cases congrArg List.length hcalls

end EspMiner
