import EspMiner.Bzm.Transport
import Mathlib.Data.Nat.Bitwise

/-!
# Command streams are uniquely decodable

The words of a command begin with the only one that has its ninth bit set, and
the second and the fifth word of a command fix where it ends.  So a command can
be cut off the front of a stream, and a stream has one reading.
-/

namespace EspMiner

/-! ### Words and their bytes -/

/-- The two bytes of a word. -/
def wordBytes (word : U16) : List U8 :=
  [(word &&& 0xff#16).setWidth 8, ((word >>> 8) &&& 0x01#16).setWidth 8]

/-- The words whose bytes these are. -/
def wordsOfBytes : List U8 → List U16
  | low :: high :: bytes => ((high.setWidth 16 <<< 8) ||| low.setWidth 16) :: wordsOfBytes bytes
  | _ => []

/-- The ninth bit, which is sent out of band. -/
def startBit (word : U16) : Bool := word.getLsbD 8

@[simp] theorem length_wordBytes (word : U16) : (wordBytes word).length = 2 := rfl

theorem length_flatMap_wordBytes (words : List U16) :
    (words.flatMap wordBytes).length = 2 * words.length := by
  induction words with
  | nil => rfl
  | cons word words ih =>
    rw [List.flatMap_cons, List.length_append, ih, length_wordBytes, List.length_cons]
    omega

theorem toNat_or_of_lt {high low : U16} {k a : Nat} (hhigh : high.toNat = 2 ^ k * a)
    (hlow : low.toNat < 2 ^ k) : (high ||| low).toNat = high.toNat + low.toNat := by
  rw [BitVec.toNat_or, hhigh, Nat.two_pow_add_eq_or_of_lt hlow]

theorem toNat_lowByte (word : U16) : (word &&& 0xff#16).toNat = word.toNat % 256 := by
  have hmask := Nat.and_two_pow_sub_one_eq_mod word.toNat 8
  rw [BitVec.toNat_and]
  exact hmask

theorem toNat_highNibble (word : U16) :
    ((word >>> 8) &&& 0x0f#16).toNat = word.toNat / 256 % 16 := by
  have hmask := Nat.and_two_pow_sub_one_eq_mod (word.toNat / 256) 4
  rw [BitVec.toNat_and, BitVec.toNat_ushiftRight, Nat.shiftRight_eq_div_pow]
  exact hmask

theorem toNat_ninthBit (word : U16) :
    ((word >>> 8) &&& 0x01#16).toNat = word.toNat / 256 % 2 := by
  have hmask := Nat.and_two_pow_sub_one_eq_mod (word.toNat / 256) 1
  rw [BitVec.toNat_and, BitVec.toNat_ushiftRight, Nat.shiftRight_eq_div_pow]
  exact hmask

/-- A word of nine bits is the word of its bytes. -/
theorem wordsOfBytes_wordBytes {word : U16} (h : word.toNat < 512) (bytes : List U8) :
    wordsOfBytes (wordBytes word ++ bytes) = word :: wordsOfBytes bytes := by
  have hlow := toNat_lowByte word
  have hhigh := toNat_ninthBit word
  simp only [wordBytes, List.cons_append, List.nil_append, wordsOfBytes]
  generalize (word &&& 0xff#16) = low at *
  generalize ((word >>> 8) &&& 0x01#16) = high at *
  have hword : (((high.setWidth 8).setWidth 16 <<< 8) ||| (low.setWidth 8).setWidth 16) = word := by
    have hshifted : (((high.setWidth 8 : U8).setWidth 16 : U16) <<< 8).toNat =
        2 ^ 8 * (word.toNat / 256) := by
      rw [BitVec.toNat_shiftLeft, BitVec.toNat_setWidth, BitVec.toNat_setWidth, hhigh,
        Nat.shiftLeft_eq]
      omega
    have hkept : ((low.setWidth 8 : U8).setWidth 16 : U16).toNat = word.toNat % 256 := by
      rw [BitVec.toNat_setWidth, BitVec.toNat_setWidth, hlow]
      omega
    apply BitVec.eq_of_toNat_eq
    rw [toNat_or_of_lt hshifted (by rw [hkept]; exact Nat.mod_lt _ (by decide)), hshifted, hkept]
    exact Nat.div_add_mod word.toNat 256
  rw [hword]

theorem wordsOfBytes_flatMap {words : List U16} (h : ∀ word ∈ words, word.toNat < 512)
    (bytes : List U8) :
    wordsOfBytes (words.flatMap wordBytes ++ bytes) = words ++ wordsOfBytes bytes := by
  induction words with
  | nil => rfl
  | cons word words ih =>
    rw [List.flatMap_cons, List.append_assoc, wordsOfBytes_wordBytes (h word List.mem_cons_self),
      ih fun later hlater => h later (List.mem_cons_of_mem _ hlater), List.cons_append]

/-- Appending words one by one needs room for all of them. -/
theorem foldlM_appendWord (encodedCapacity : Nat) (words : List U16) (encoded : List U8) :
    words.foldlM (appendWord encodedCapacity) encoded =
      if words = [] ∨ encoded.length + 2 * words.length ≤ encodedCapacity then
        some (encoded ++ words.flatMap wordBytes)
      else none := by
  induction words generalizing encoded with
  | nil => simp
  | cons word words ih =>
    rw [List.foldlM_cons, appendWord]
    by_cases hroom : encodedCapacity < encoded.length + 2
    · rw [if_pos hroom, if_neg]
      · rfl
      · simp only [List.length_cons, reduceCtorEq, false_or]
        omega
    · rw [if_neg hroom]
      change words.foldlM (appendWord encodedCapacity) (encoded ++ wordBytes word) = _
      rw [ih, List.length_append, length_wordBytes, List.flatMap_cons, List.append_assoc]
      refine if_congr ?_ rfl rfl
      cases words with
      | nil => simp; omega
      | cons next words => simp; omega

/-! ### The words of a command -/

namespace BzmCommand

def asicId : BzmCommand → U8
  | .write asicId _ _ _ | .read asicId _ _ _ | .noop asicId => asicId

/-- The first word of a command. -/
def startWord (c : BzmCommand) : U16 := 0x100#16 ||| c.asicId.setWidth 16

/-- The words of a command behind the first. -/
def laterWords : BzmCommand → List U16
  | .write _ engineId offset data =>
      [0x020#16 ||| ((engineId >>> 8) &&& 0x0f#16), engineId &&& 0xff#16, offset.setWidth 16,
        BitVec.ofNat 16 (data.length - 1)] ++ data.map (BitVec.setWidth 16) ++ [0#16]
  | .read _ engineId offset dataLen =>
      [0x030#16 ||| ((engineId >>> 8) &&& 0x0f#16), engineId &&& 0xff#16, offset.setWidth 16,
        BitVec.ofNat 16 (dataLen - 1), 0#16]
  | .noop _ => [0x0f0#16]

def words (c : BzmCommand) : List U16 := c.startWord :: c.laterWords

def wordCount : BzmCommand → Nat
  | .write _ _ _ data => data.length + 6
  | .read _ _ _ _ => 6
  | .noop _ => 2

@[simp] theorem length_words (c : BzmCommand) : c.words.length = c.wordCount := by
  cases c <;> simp [words, laterWords, wordCount]

/-- The arguments are in range. -/
def InRange : BzmCommand → Prop
  | .write _ engineId _ data =>
      0 < data.length ∧ data.length ≤ 256 ∧ engineId.toNat < BZM_MAX_ENGINE_COUNT
  | .read _ engineId _ dataLen =>
      0 < dataLen ∧ dataLen ≤ 256 ∧ engineId.toNat < BZM_MAX_ENGINE_COUNT
  | .noop _ => True

instance : DecidablePred InRange
  | .write _ engineId _ data => inferInstanceAs (Decidable
      (0 < data.length ∧ data.length ≤ 256 ∧ engineId.toNat < BZM_MAX_ENGINE_COUNT))
  | .read _ engineId _ dataLen => inferInstanceAs (Decidable
      (0 < dataLen ∧ dataLen ≤ 256 ∧ engineId.toNat < BZM_MAX_ENGINE_COUNT))
  | .noop _ => .isTrue trivial

/-- What the three encoders do: the bytes of the words, if the arguments are in
range and there is room for all of them. -/
theorem encode_eq (c : BzmCommand) (encodedCapacity : Nat) :
    c.encode encodedCapacity =
      if c.InRange ∧ 2 * c.wordCount ≤ encodedCapacity then some (c.words.flatMap wordBytes)
      else none := by
  have hfold : c.InRange → c.encode encodedCapacity =
      c.words.foldlM (appendWord encodedCapacity) [] := by
    intro hrange
    cases c with
    | write address engineId offset data =>
      obtain ⟨hpos, hle, hengine⟩ := hrange
      rw [encode, bzmTransportEncodeWrite, if_neg (by omega)]
      simp [words, startWord, asicId, laterWords, List.foldlM_append, List.foldlM_map]
    | read address engineId offset dataLen =>
      obtain ⟨hpos, hle, hengine⟩ := hrange
      rw [encode, bzmTransportEncodeRead, if_neg (by omega)]
      simp [words, startWord, asicId, laterWords]
    | noop address => simp [encode, bzmTransportEncodeNoop, words, startWord, asicId, laterWords]
  by_cases hrange : c.InRange
  · rw [hfold hrange, foldlM_appendWord]
    have hne : c.words ≠ [] := by simp [words]
    simp [hrange, hne]
  · rw [if_neg fun h => hrange h.1]
    cases c with
    | write address engineId offset data =>
      rw [encode, bzmTransportEncodeWrite, if_pos]
      simp only [InRange] at hrange
      omega
    | read address engineId offset dataLen =>
      rw [encode, bzmTransportEncodeRead, if_pos]
      simp only [InRange] at hrange
      omega
    | noop address => exact absurd trivial hrange

/-! The words of a command carry its arguments. -/

theorem toNat_widened (byte : U8) : (byte.setWidth 16).toNat = byte.toNat := by
  rw [BitVec.toNat_setWidth]
  omega

theorem toNat_startWord (c : BzmCommand) : c.startWord.toNat = 256 + c.asicId.toNat := by
  have hlow := toNat_widened c.asicId
  rw [startWord, toNat_or_of_lt (k := 8) (a := 1) rfl (by rw [hlow]; exact c.asicId.isLt), hlow]
  rfl

theorem highNibble_lt {engineId : U16} (h : engineId.toNat < BZM_MAX_ENGINE_COUNT) :
    ((engineId >>> 8) &&& 0x0f#16).toNat = engineId.toNat / 256 ∧ engineId.toNat / 256 < 16 := by
  have hnibble := toNat_highNibble engineId
  have hsmall : engineId.toNat / 256 < 16 := by
    simp only [BZM_MAX_ENGINE_COUNT] at h
    omega
  exact ⟨by omega, hsmall⟩

theorem toNat_writeWord {engineId : U16} (h : engineId.toNat < BZM_MAX_ENGINE_COUNT) :
    (0x020#16 ||| ((engineId >>> 8) &&& 0x0f#16)).toNat = 32 + engineId.toNat / 256 := by
  obtain ⟨hnibble, hsmall⟩ := highNibble_lt h
  rw [toNat_or_of_lt (k := 5) (a := 1) rfl (by omega), hnibble]
  rfl

theorem toNat_readWord {engineId : U16} (h : engineId.toNat < BZM_MAX_ENGINE_COUNT) :
    (0x030#16 ||| ((engineId >>> 8) &&& 0x0f#16)).toNat = 48 + engineId.toNat / 256 := by
  obtain ⟨hnibble, hsmall⟩ := highNibble_lt h
  rw [toNat_or_of_lt (k := 4) (a := 3) rfl (by omega), hnibble]
  rfl

theorem toNat_lengthWord {length : Nat} (h : length ≤ 256) :
    (BitVec.ofNat 16 (length - 1)).toNat = length - 1 := by
  rw [BitVec.toNat_ofNat]
  omega

/-- Behind the first word, words are bytes. -/
theorem laterWords_lt {c : BzmCommand} (h : c.InRange) :
    ∀ word ∈ c.laterWords, word.toNat < 256 := by
  have hwidened (byte : U8) : (byte.setWidth 16).toNat < 256 := by
    rw [toNat_widened]
    exact byte.isLt
  have hlow (word : U16) : (word &&& 0xff#16).toNat < 256 := by
    rw [toNat_lowByte]
    exact Nat.mod_lt _ (by decide)
  intro word hword
  cases c with
  | write asicId engineId offset data =>
    obtain ⟨-, hle, hengine⟩ := h
    have hnibble := (highNibble_lt hengine).2
    simp only [laterWords, List.cons_append, List.nil_append, List.mem_cons, List.mem_append,
      List.mem_map, List.not_mem_nil, or_false] at hword
    rcases hword with rfl | rfl | rfl | rfl | ⟨byte, -, rfl⟩ | rfl
    · rw [toNat_writeWord hengine]
      omega
    · exact hlow engineId
    · exact hwidened offset
    · rw [toNat_lengthWord hle]
      omega
    · exact hwidened byte
    · decide
  | read asicId engineId offset dataLen =>
    obtain ⟨-, hle, hengine⟩ := h
    have hnibble := (highNibble_lt hengine).2
    simp only [laterWords, List.mem_cons, List.not_mem_nil, or_false] at hword
    rcases hword with rfl | rfl | rfl | rfl | rfl
    · rw [toNat_readWord hengine]
      omega
    · exact hlow engineId
    · exact hwidened offset
    · rw [toNat_lengthWord hle]
      omega
    · decide
  | noop asicId =>
    simp only [laterWords, List.mem_cons, List.not_mem_nil, or_false] at hword
    subst hword
    decide

theorem words_lt {c : BzmCommand} (h : c.InRange) : ∀ word ∈ c.words, word.toNat < 512 := by
  intro word hword
  rcases List.mem_cons.mp hword with rfl | hlater
  · have := c.asicId.isLt
    rw [toNat_startWord]
    omega
  · have := laterWords_lt h word hlater
    omega

/-- **Start bits.**  The first word of a command has its ninth bit set, and no
other word has. -/
theorem map_startBit_words {c : BzmCommand} (h : c.InRange) :
    c.words.map startBit = true :: List.replicate (c.wordCount - 1) false := by
  have hstart : startBit c.startWord = true := by
    have hword := c.toNat_startWord
    have := c.asicId.isLt
    rw [startBit, BitVec.getLsbD, Nat.testBit_eq_decide_div_mod_eq, hword]
    exact decide_eq_true (by omega)
  have hlater : c.laterWords.map startBit = List.replicate c.laterWords.length false := by
    refine List.map_eq_replicate_iff.mpr fun word hword => ?_
    have hlt := laterWords_lt h word hword
    exact Nat.testBit_lt_two_pow hlt
  rw [← length_words, words, List.map_cons, hstart, hlater, List.length_cons, Nat.add_sub_cancel]

/-! ### A command is cut off a stream -/

theorem engineId_eq {engineId engineId' : U16}
    (hhigh : engineId.toNat / 256 = engineId'.toNat / 256)
    (hlow : engineId &&& 0xff#16 = engineId' &&& 0xff#16) : engineId = engineId' := by
  have hlowNat := congrArg BitVec.toNat hlow
  rw [toNat_lowByte, toNat_lowByte] at hlowNat
  apply BitVec.eq_of_toNat_eq
  omega

theorem widened_inj {a b : U8} (h : a.setWidth 16 = b.setWidth 16) : a = b := by
  have hnat := congrArg BitVec.toNat h
  rw [toNat_widened, toNat_widened] at hnat
  exact BitVec.eq_of_toNat_eq hnat

theorem startWord_inj {c c' : BzmCommand} (h : c.startWord = c'.startWord) :
    c.asicId = c'.asicId := by
  have hnat := congrArg BitVec.toNat h
  rw [toNat_startWord, toNat_startWord] at hnat
  exact BitVec.eq_of_toNat_eq (by omega)

/-- The upper half of the second word. -/
def kind : BzmCommand → Nat
  | .write _ _ _ _ => 2
  | .read _ _ _ _ => 3
  | .noop _ => 15

theorem secondWord_div {c : BzmCommand} (h : c.InRange) :
    (c.laterWords.headD 0).toNat / 16 = c.kind := by
  cases c with
  | write address engineId offset data =>
    have hsmall := (highNibble_lt h.2.2).2
    change (0x020#16 ||| ((engineId >>> 8) &&& 0x0f#16)).toNat / 16 = 2
    rw [toNat_writeWord h.2.2]
    omega
  | read address engineId offset dataLen =>
    have hsmall := (highNibble_lt h.2.2).2
    change (0x030#16 ||| ((engineId >>> 8) &&& 0x0f#16)).toNat / 16 = 3
    rw [toNat_readWord h.2.2]
    omega
  | noop address => simp [laterWords, kind]

/-- Two streams of words that begin with a command and agree begin with the same
command. -/
theorem words_append_inj {c c' : BzmCommand} (h : c.InRange) (h' : c'.InRange)
    {rest rest' : List U16} (heq : c.words ++ rest = c'.words ++ rest') : c = c' := by
  simp only [words, List.cons_append, List.cons.injEq] at heq
  obtain ⟨hstart, hlater⟩ := heq
  have haddress := startWord_inj hstart
  have hkind : c.kind = c'.kind := by
    have hhead := congrArg (fun later => (later.headD 0).toNat / 16) hlater
    rw [← secondWord_div h, ← secondWord_div h']
    cases c <;> cases c' <;> exact hhead
  cases c with
  | write address engineId offset data =>
    cases c' with
    | write address' engineId' offset' data' =>
      simp only [laterWords, List.cons_append, List.nil_append, List.append_assoc,
        List.cons.injEq] at hlater
      obtain ⟨hcommand, hlow, hoffset, hlength, hdata⟩ := hlater
      have hcommandNat := congrArg BitVec.toNat hcommand
      rw [toNat_writeWord h.2.2, toNat_writeWord h'.2.2] at hcommandNat
      have hlengthNat := congrArg BitVec.toNat hlength
      rw [toNat_lengthWord h.2.1, toNat_lengthWord h'.2.1] at hlengthNat
      have hpos := h.1
      have hpos' := h'.1
      have hmaps := (List.append_inj hdata (by simp only [List.length_map]; omega)).1
      have hsame : data = data' := List.map_injective_iff.mpr (fun _ _ => widened_inj) hmaps
      have hengine : engineId = engineId' := engineId_eq (by omega) hlow
      rw [hengine, widened_inj hoffset, hsame]
      exact congrArg (BzmCommand.write · engineId' offset' data') haddress
    | read _ _ _ _ => simp [kind] at hkind
    | noop _ => simp [kind] at hkind
  | read address engineId offset dataLen =>
    cases c' with
    | write _ _ _ _ => simp [kind] at hkind
    | read address' engineId' offset' dataLen' =>
      simp only [laterWords, List.cons_append, List.cons.injEq] at hlater
      obtain ⟨hcommand, hlow, hoffset, hlength, -⟩ := hlater
      have hcommandNat := congrArg BitVec.toNat hcommand
      rw [toNat_readWord h.2.2, toNat_readWord h'.2.2] at hcommandNat
      have hlengthNat := congrArg BitVec.toNat hlength
      rw [toNat_lengthWord h.2.1, toNat_lengthWord h'.2.1] at hlengthNat
      have hpos := h.1
      have hpos' := h'.1
      have hsame : dataLen = dataLen' := by omega
      have hengine : engineId = engineId' := engineId_eq (by omega) hlow
      rw [hengine, widened_inj hoffset, hsame]
      exact congrArg (BzmCommand.read · engineId' offset' dataLen') haddress
    | noop _ => simp [kind] at hkind
  | noop address =>
    cases c' with
    | write _ _ _ _ => simp [kind] at hkind
    | read _ _ _ _ => simp [kind] at hkind
    | noop address' => exact congrArg BzmCommand.noop haddress

end BzmCommand

/-! ### Streams -/

/-- `bytes` are the encodings of `commands` one behind the other, each in a
buffer of its own. -/
inductive BzmEncodes : List BzmCommand → List U8 → Prop where
  | nil : BzmEncodes [] []
  | cons {c : BzmCommand} {encodedCapacity : Nat} {encoded : List U8} {commands : List BzmCommand}
      {bytes : List U8} : c.encode encodedCapacity = some encoded → BzmEncodes commands bytes →
      BzmEncodes (c :: commands) (encoded ++ bytes)

theorem BzmCommand.encode_eq_some {c : BzmCommand} {encodedCapacity : Nat} {encoded : List U8}
    (h : c.encode encodedCapacity = some encoded) :
    c.InRange ∧ 2 * c.wordCount ≤ encodedCapacity ∧
      encoded = c.words.flatMap wordBytes := by
  rw [c.encode_eq] at h
  split at h
  · next hok => exact ⟨hok.1, hok.2, (Option.some.inj h).symm⟩
  · cases h

theorem BzmCommand.wordsOfBytes_encoded {c : BzmCommand} {encodedCapacity : Nat}
    {encoded : List U8} (h : c.encode encodedCapacity = some encoded) (bytes : List U8) :
    wordsOfBytes (encoded ++ bytes) = c.words ++ wordsOfBytes bytes := by
  obtain ⟨hrange, -, rfl⟩ := encode_eq_some h
  exact wordsOfBytes_flatMap (words_lt hrange) bytes

/-- The words of a stream are those of its commands. -/
theorem BzmEncodes.words {commands : List BzmCommand} {bytes : List U8}
    (h : BzmEncodes commands bytes) :
    wordsOfBytes bytes = commands.flatMap BzmCommand.words := by
  induction h with
  | nil => rfl
  | cons hencode _ ih => rw [BzmCommand.wordsOfBytes_encoded hencode, ih, List.flatMap_cons]

/-- **Unique decodability.**  A stream of bytes has one reading as a sequence of
commands. -/
theorem BzmEncodes.unique {commands commands' : List BzmCommand} {bytes : List U8}
    (h : BzmEncodes commands bytes) (h' : BzmEncodes commands' bytes) : commands = commands' := by
  induction h generalizing commands' with
  | nil =>
    have hwords := h'.words
    cases commands' with
    | nil => rfl
    | cons c commands => simp [wordsOfBytes, BzmCommand.words] at hwords
  | @cons c capacity encoded commands bytes hencode _ ih =>
    generalize hall : encoded ++ bytes = all at h'
    cases h' with
    | nil =>
      have hwords := BzmCommand.wordsOfBytes_encoded hencode bytes
      rw [hall] at hwords
      simp [wordsOfBytes, BzmCommand.words] at hwords
    | @cons c' capacity' encoded' commands' bytes' hencode' hrest' =>
      have hwords := congrArg wordsOfBytes hall
      rw [BzmCommand.wordsOfBytes_encoded hencode, BzmCommand.wordsOfBytes_encoded hencode']
        at hwords
      obtain ⟨hrange, -, hbytes⟩ := BzmCommand.encode_eq_some hencode
      obtain ⟨hrange', -, hbytes'⟩ := BzmCommand.encode_eq_some hencode'
      have hsame : c = c' := BzmCommand.words_append_inj hrange hrange' hwords
      subst hsame
      rw [hbytes, hbytes'] at hall
      obtain rfl : bytes = bytes' := List.append_cancel_left hall
      rw [ih hrest']

/-- The start bits of a stream mark the first word of each of its commands. -/
theorem BzmEncodes.startBits {commands : List BzmCommand} {bytes : List U8}
    (h : BzmEncodes commands bytes) :
    (wordsOfBytes bytes).map startBit =
      commands.flatMap fun c => true :: List.replicate (c.wordCount - 1) false := by
  induction h with
  | nil => rfl
  | cons hencode _ ih =>
    have hrange := (BzmCommand.encode_eq_some hencode).1
    rw [BzmCommand.wordsOfBytes_encoded hencode, List.map_append, ih,
      BzmCommand.map_startBit_words hrange, List.flatMap_cons]

/-- **Command streams.**  The encoders are injective on the commands that they
accept, and so is a sequence of them; start bits mark the first words; the fifth
word of a write fixes its end; and an encoder refuses a command if an argument is
out of range or the buffer is too small, and only then. -/
theorem commandStreams_decodable :
    (∀ (c c' : BzmCommand) (encodedCapacity encodedCapacity' : Nat) (encoded : List U8),
      c.encode encodedCapacity = some encoded → c'.encode encodedCapacity' = some encoded →
        c = c') ∧
    (∀ (commands commands' : List BzmCommand) (bytes : List U8),
      BzmEncodes commands bytes → BzmEncodes commands' bytes → commands = commands') ∧
    (∀ commands : List BzmCommand, (∀ c ∈ commands, c.InRange) →
      ∃ bytes, BzmEncodes commands bytes) ∧
    (∀ (commands : List BzmCommand) (bytes : List U8), BzmEncodes commands bytes →
      (wordsOfBytes bytes).map startBit =
        commands.flatMap fun c => true :: List.replicate (c.wordCount - 1) false) ∧
    (∀ (asicId : U8) (engineId : U16) (offset : U8) (data : List U8) (encodedCapacity : Nat)
        (encoded bytes : List U8),
      bzmTransportEncodeWrite asicId engineId offset data encodedCapacity = some encoded →
        ((wordsOfBytes (encoded ++ bytes)).getD 4 0).toNat + 1 = data.length ∧
          encoded.length = 2 * (((wordsOfBytes (encoded ++ bytes)).getD 4 0).toNat + 1 + 6)) ∧
    (∀ (c : BzmCommand) (encodedCapacity : Nat),
      c.encode encodedCapacity = none ↔
        ¬ c.InRange ∨ encodedCapacity < 2 * c.wordCount) := by
  have hunique : ∀ (commands commands' : List BzmCommand) (bytes : List U8),
      BzmEncodes commands bytes → BzmEncodes commands' bytes → commands = commands' :=
    fun _ _ _ h h' => h.unique h'
  refine ⟨?_, hunique, ?_, fun _ _ h => h.startBits, ?_, ?_⟩
  · intro c c' capacity capacity' encoded h h'
    have hsingle : [c] = [c'] := hunique _ _ _ (.cons h .nil) (.cons h' .nil)
    exact (List.cons.inj hsingle).1
  · intro commands hrange
    induction commands with
    | nil => exact ⟨[], .nil⟩
    | cons c commands ih =>
      obtain ⟨bytes, hbytes⟩ := ih fun later hlater => hrange later (List.mem_cons_of_mem _ hlater)
      have hencode : c.encode (2 * c.wordCount) = some (c.words.flatMap wordBytes) := by
        rw [c.encode_eq, if_pos ⟨hrange c List.mem_cons_self, le_rfl⟩]
      exact ⟨_, .cons hencode hbytes⟩
  · intro asicId engineId offset data capacity encoded bytes h
    have hcommand : (BzmCommand.write asicId engineId offset data).encode capacity =
      some encoded := h
    obtain ⟨hrange, -, hbytes⟩ := BzmCommand.encode_eq_some hcommand
    have hpos := hrange.1
    have hword : ((wordsOfBytes (encoded ++ bytes)).getD 4 0).toNat + 1 = data.length := by
      rw [BzmCommand.wordsOfBytes_encoded hcommand]
      change (BitVec.ofNat 16 (data.length - 1)).toNat + 1 = data.length
      rw [BzmCommand.toNat_lengthWord hrange.2.1]
      omega
    refine ⟨hword, ?_⟩
    rw [hword, hbytes, length_flatMap_wordBytes]
    simp [BzmCommand.words, BzmCommand.laterWords]
  · intro c capacity
    rw [c.encode_eq]
    split
    · next hok =>
      refine ⟨fun h => absurd h (Option.some_ne_none _), ?_⟩
      rintro (hrange | hroom)
      · exact absurd hok.1 hrange
      · omega
    · next hbad =>
      refine ⟨fun _ => ?_, fun _ => rfl⟩
      by_cases hrange : c.InRange
      · exact .inr (Nat.lt_of_not_le fun hroom => hbad ⟨hrange, hroom⟩)
      · exact .inl hrange

end EspMiner
