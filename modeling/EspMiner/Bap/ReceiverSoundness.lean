import EspMiner.Bap.Receiver
import Mathlib.Data.List.Induction

/-!
# Which sentences call a handler

A call of a handler goes back to the sentence that is being received: the one that starts at the
last `$`.  Its checksum was verified if two digits stand behind its asterisk and nothing was left
out of its body; the receiver checks neither, and `damaged_sentence_runs` is a setting that is made
for a sentence with one digit damaged.

`bap_calls_asked_for` is about every byte of every stream.  What the byte adds to the calls comes
behind those that were made before, and each of them that is not for a subscription is asked for by
the sentence at the last `$`, if no sentence of the stream is mistakable.  The invariant behind it
(`Assembled`) says what the receiver holds: the bytes since the last `$`, less the terminators right
behind it.  A byte that ends a sentence then hands on a text of the stream, and the parser's test on
it is the right one because the text is not mistakable.
-/

namespace EspMiner

open Library

/-- The text of a sentence with a checksum, up to its terminator. -/
structure BapText where
  body : List U8
  high : U8
  low : U8
  rest : List U8
  terminator : U8

namespace BapText

def bytes (s : BapText) : List U8 :=
  0x24#8 :: (s.body ++ 0x2a#8 :: s.high :: s.low :: (s.rest ++ [s.terminator]))

/-- The sentence is well formed, its checksum is right, and it asks for the call. -/
structure Asks (s : BapText) (call : BapCall) : Prop where
  body : 0x24#8 ∉ s.body ∧ 0x2a#8 ∉ s.body
  rest : ∀ byte ∈ s.rest, byte ≠ 0x24#8 ∧ isTerminator byte = false
  terminator : isTerminator s.terminator = true
  checksum : ∃ high low, hexVal s.high = some high ∧ hexVal s.low = some low ∧
    bapCalculateChecksum s.body = BitVec.ofNat 8 (16 * high + low)
  fields : ∃ name more, fields 0x2c#8 s.body = cText "BAP" :: name :: call.parameter :: more ∧
    BapCommand.fromString name = call.command ∧ call.value = more.head?

end BapText

/-- The sentence that starts at the last `$` asks for the call. -/
def AskedFor (heard : List U8) (call : BapCall) : Prop :=
  ∃ s : BapText, s.Asks call ∧
    ∃ before after, heard = before ++ (s.bytes ++ after) ∧ 0x24#8 ∉ after

/-- The call changes settings: it is not a subscription. -/
def BapCall.Protected (call : BapCall) : Prop := call.command ≠ .sub ∧ call.command ≠ .unsub

/-- Each byte of the stream adds its calls behind the earlier ones, and the protected ones of them
are asked for by what was heard. -/
def CallsAskedFor (handlers : BapCommand → Bool) (stream : List BapByte) : Prop :=
  ∀ earlier input later, stream = earlier ++ input :: later →
    ∃ added, (run (BapReceiver.step handlers) BapReceiver.init (earlier ++ [input])).calls =
        (run (BapReceiver.step handlers) BapReceiver.init earlier).calls ++ added ∧
      ∀ call ∈ added, call.Protected → AskedFor ((earlier ++ [input]).map BapByte.byte) call

/-- Two hexadecimal digits come first. -/
def TwoDigits (tail : List U8) : Prop :=
  ∃ high low rest, tail = high :: low :: rest ∧ (hexVal high).isSome = true ∧
    (hexVal low).isSome = true

/-- What the receiver assembles from a `$` on: `lead` are the terminators right behind
it, which it leaves out. -/
structure BapContent (lead content : List U8) : Prop where
  lead : ∀ byte ∈ lead, isTerminator byte = true
  first : ∀ byte, content.head? = some byte → isTerminator byte = false
  dollar : 0x24#8 ∉ content
  lf : 0x0a#8 ∉ content

/-- Where a sentence has not two digits behind its first asterisk, or a terminator right
behind its `$`, the number that the code scans is not the checksum of a body that calls
a protected handler. -/
def Unmistakable (handlers : BapCommand → Bool) (bytes : List U8) : Prop :=
  ∀ lead content terminator, BapContent lead content → isTerminator terminator = true →
    content.length + 1 < BAP_MAX_MESSAGE_LEN →
    0x24#8 :: (lead ++ (content ++ [terminator])) <:+: bytes →
    ∀ body tail, BapReceiver.stringOf (0x24#8 :: (content ++ [terminator])) =
        0x24#8 :: body ++ 0x2a#8 :: tail → 0x2a#8 ∉ body → 2 ≤ tail.length →
      lead ≠ [] ∨ ¬TwoDigits tail →
      ∀ call, bapDispatch handlers body = some call → call.Protected →
        bapCalculateChecksum body ≠ (scanHexByte tail).getD 0

variable {handlers : BapCommand → Bool} {bytes : List U8}

theorem BapContent.push {lead content : List U8} (h : BapContent lead content) {byte : U8}
    (hdollar : byte ≠ 0x24#8) (hlf : byte ≠ 0x0a#8)
    (hfirst : content = [] → isTerminator byte = false) : BapContent lead (content ++ [byte]) where
  lead := h.lead
  first := by
    intro other hother
    cases content with
    | nil => exact Option.some.inj hother ▸ hfirst rfl
    | cons first content => exact h.first other hother
  dollar := by simp [h.dollar, hdollar.symm]
  lf := by simp [h.lf, hlf.symm]

theorem Unmistakable.of_append {more : List U8} (h : Unmistakable handlers (bytes ++ more)) :
    Unmistakable handlers bytes := by
  intro lead content terminator hcontent hterminator hlength hwithin
  exact h lead content terminator hcontent hterminator hlength
    (hwithin.trans (List.prefix_append bytes more).isInfix)

/-! ### The parser -/

/-- A body that is let pass without a checksum subscribes or unsubscribes. -/
theorem not_protected_of_start {body : List U8} {call : BapCall}
    (hstart : (cText "BAP,SUB,").isPrefixOf body = true ∨
      (cText "BAP,UNSUB,").isPrefixOf body = true)
    (hcall : bapDispatch handlers body = some call) : ¬call.Protected := by
  rintro ⟨hsub, hunsub⟩
  rcases hstart with hstart | hstart
  · obtain ⟨rest, rfl⟩ := List.isPrefixOf_iff_prefix.mp hstart
    exact hsub (bapDispatch_command (cText "SUB") rest (by decide) (by decide) hcall)
  · obtain ⟨rest, rfl⟩ := List.isPrefixOf_iff_prefix.mp hstart
    exact hunsub (bapDispatch_command (cText "UNSUB") rest (by decide) (by decide) hcall)

/-- What stands in front of the first terminator. -/
theorem exists_first_terminator (text : List U8) {terminator : U8}
    (h : isTerminator terminator = true) :
    ∃ rest stop more, text ++ [terminator] = rest ++ stop :: more ∧ isTerminator stop = true ∧
      (∀ byte ∈ rest, isTerminator byte = false) ∧ rest <+: text := by
  induction text with
  | nil => exact ⟨[], terminator, [], rfl, h, by simp, List.nil_prefix⟩
  | cons first text ih =>
    cases hfirst : isTerminator first with
    | true => exact ⟨[], first, text ++ [terminator], rfl, hfirst, by simp, List.nil_prefix⟩
    | false =>
      obtain ⟨rest, stop, more, hsplit, hstop, hrest, hstart⟩ := ih
      refine ⟨first :: rest, stop, more, by rw [List.cons_append, hsplit]; rfl, hstop, ?_, ?_⟩
      · intro byte hbyte
        rcases List.mem_cons.mp hbyte with rfl | hbyte
        · exact hfirst
        · exact hrest byte hbyte
      · exact List.cons_prefix_cons.mpr ⟨rfl, hstart⟩

theorem hexVal_of_isTerminator {byte : U8} (h : isTerminator byte = true) : hexVal byte = none := by
  unfold isTerminator at h
  simp only [Bool.or_eq_true, beq_iff_eq] at h
  rcases h with rfl | rfl <;> rfl

/-- A protected call for an assembled sentence. -/
theorem askedFor_of_callOf {before lead content : List U8} {terminator : U8} {call : BapCall}
    (hcontent : BapContent lead content) (hterminator : isTerminator terminator = true)
    (hlength : content.length + 1 < BAP_MAX_MESSAGE_LEN)
    (hunmistakable : Unmistakable handlers
      (before ++ 0x24#8 :: (lead ++ (content ++ [terminator]))))
    (hcall : BapReceiver.callOf handlers
      (BapReceiver.stringOf (0x24#8 :: (content ++ [terminator]))) = some call)
    (hprotected : call.Protected) :
    AskedFor (before ++ 0x24#8 :: (lead ++ (content ++ [terminator]))) call := by
  obtain ⟨body, hbody, hdispatch⟩ := Option.bind_eq_some_iff.mp hcall
  rcases bapSentenceBody_eq_some hbody with ⟨tail, hstring, hstar, htail, hchecksum⟩ | hstart
  · -- the code's test was the right one
    have htest := hunmistakable lead content terminator hcontent hterminator hlength
      (List.suffix_append before _).isInfix body tail hstring hstar htail
    obtain ⟨rfl, high, low, rest, rfl, hhigh, hlow⟩ : lead = [] ∧ TwoDigits tail := by
      by_contra hnot
      refine htest ?_ call hdispatch hprotected hchecksum
      by_cases hlead : lead = []
      · exact .inr fun hdigits => hnot ⟨hlead, hdigits⟩
      · exact .inl hlead
    obtain ⟨h, hhigh⟩ := Option.isSome_iff_exists.mp hhigh
    obtain ⟨l, hlow⟩ := Option.isSome_iff_exists.mp hlow
    rw [scanHexByte_digits hhigh hlow, Option.getD_some] at hchecksum
    -- the terminator is behind the digits
    obtain ⟨behind, hbehind⟩ := List.takeWhile_prefix (l := 0x24#8 :: (content ++ [terminator]))
      (· ≠ 0#8)
    rw [show List.takeWhile _ _ = _ from hstring] at hbehind
    have hsplit : content ++ [terminator] =
        body ++ 0x2a#8 :: high :: low :: (rest ++ behind) := by
      have := (List.cons.inj hbehind).2
      simpa using this.symm
    obtain ⟨text, hcontent', hlast⟩ : ∃ text, content = body ++ 0x2a#8 :: high :: low :: text ∧
        rest ++ behind = text ++ [terminator] := by
      rcases List.eq_nil_or_concat (rest ++ behind) with hnil | ⟨text, last, hconcat⟩
      · rw [hnil, show body ++ [0x2a#8, high, low] = (body ++ [0x2a#8, high]) ++ [low] by simp]
          at hsplit
        obtain ⟨-, hlow'⟩ := List.append_inj' hsplit rfl
        rw [← (List.cons.inj hlow').1, hexVal_of_isTerminator hterminator] at hlow
        cases hlow
      · rw [List.concat_eq_append] at hconcat
        rw [hconcat, ← List.cons_append, ← List.cons_append, ← List.cons_append,
          ← List.append_assoc] at hsplit
        obtain ⟨hcontent', hlast⟩ := List.append_inj' hsplit rfl
        exact ⟨text, hcontent', hconcat.trans (by rw [hlast])⟩
    obtain ⟨rest', stop, more, hrest, hstop, hplain, hstart⟩ :=
      exists_first_terminator text hterminator
    have hdollar : ∀ byte ∈ content, byte ≠ 0x24#8 := fun byte hbyte heq =>
      hcontent.dollar (heq ▸ hbyte)
    refine ⟨⟨body, high, low, rest', stop⟩, ?_, before, more, ?_, ?_⟩
    · exact {
        body := ⟨fun hmem => hcontent.dollar (by rw [hcontent']; exact List.mem_append_left _ hmem),
          hstar⟩
        rest := fun byte hbyte => ⟨hdollar byte (by
          rw [hcontent']
          simp [hstart.subset hbyte]), hplain byte hbyte⟩
        terminator := hstop
        checksum := ⟨h, l, hhigh, hlow, hchecksum⟩
        fields := bapDispatch_eq_some hdispatch }
    · rw [List.nil_append, hsplit, hlast, hrest]
      simp [BapText.bytes]
    · -- nothing behind the sentence starts another
      intro hmore
      have hwhole : 0x24#8 ∈ text ++ [terminator] := by
        rw [hrest]
        exact List.mem_append_right _ (.tail _ hmore)
      rcases List.mem_append.mp hwhole with htext | hlast'
      · exact hdollar _ (by rw [hcontent']; simp [htext]) rfl
      · rw [← List.mem_singleton.mp hlast'] at hterminator
        cases hterminator
  · exact absurd hprotected (not_protected_of_start hstart hdispatch)

/-! ### The receiver -/

/-- The message is what was assembled from the bytes since the last `$`. -/
def Assembled (bytes : List U8) (r : BapReceiver) : Prop :=
  r.inMessage = true → r.message.length < BAP_MAX_MESSAGE_LEN →
    ∃ before lead content, bytes = before ++ 0x24#8 :: (lead ++ content) ∧
      r.message = 0x24#8 :: content ∧ BapContent lead content

namespace Assembled

variable {r : BapReceiver}

/-- A byte of the sentence. -/
theorem push (h : Assembled bytes r) {byte : U8} (hdollar : byte ≠ 0x24#8)
    (hplain : isTerminator byte = false) :
    Assembled (bytes ++ [byte]) { r with message := r.message ++ [byte] } := by
  intro hin hlength
  simp only [List.length_append, List.length_singleton] at hlength
  obtain ⟨before, lead, content, hbytes, hmessage, hcontent⟩ := h hin (by omega)
  refine ⟨before, lead, content ++ [byte], by simp [hbytes], by simp [hmessage],
    hcontent.push hdollar ?_ fun _ => hplain⟩
  rintro rfl
  cases hplain

/-- A terminator right behind the `$`. -/
theorem skip (h : Assembled bytes r) {byte : U8} (hterminator : isTerminator byte = true)
    (hlength : r.message.length ≤ 1) : Assembled (bytes ++ [byte]) r := by
  intro hin hshort
  obtain ⟨before, lead, content, hbytes, hmessage, hcontent⟩ := h hin hshort
  obtain rfl : content = [] := by
    rw [hmessage, List.length_cons] at hlength
    exact List.length_eq_zero_iff.mp (by omega)
  refine ⟨before, lead ++ [byte], [], by simp [hbytes], hmessage, ?_⟩
  exact { hcontent with
    lead := by
      intro other hother
      rcases List.mem_append.mp hother with hlead | hlast
      · exact hcontent.lead other hlead
      · rw [List.mem_singleton.mp hlast]
        exact hterminator }

/-- Every byte keeps what is assembled. -/
theorem step (h : Assembled bytes r) (input : BapByte) :
    Assembled (bytes ++ [input.byte]) (r.step handlers input) := by
  unfold BapReceiver.step
  by_cases hdollar : input.byte = 0x24#8
  · simp only [if_pos hdollar]
    intro _ _
    exact ⟨bytes, [], [], by simp [hdollar], by simp [hdollar],
      ⟨by simp, by simp, by simp, by simp⟩⟩
  simp only [if_neg hdollar]
  split
  · next hends =>
    obtain ⟨hterminator, hin⟩ := Bool.and_eq_true_iff.mp hends
    split
    · next hlength =>
      split
      · next hcr =>
        intro _ _
        obtain ⟨before, lead, content, hbytes, hmessage, hcontent⟩ := h hin hlength.2
        refine ⟨before, lead, content ++ [input.byte], by simp [hbytes], ?_,
          hcontent.push hdollar (by rw [hcr]; decide) fun hnil => ?_⟩
        · rw [BapReceiver.parseMessage_message, hmessage, List.cons_append]
        · rw [hmessage, hnil] at hlength
          exact absurd hlength.1 (Nat.lt_irrefl 1)
      · exact nofun
    · next hlength =>
      split
      · exact nofun
      · next hshort => exact h.skip hterminator (by omega)
  · next hends =>
    split
    · next hpush =>
      obtain ⟨hin, -⟩ := Bool.and_eq_true_iff.mp hpush
      refine h.push hdollar ?_
      simpa [hin] using hends
    · next hfull =>
      -- a message that is too long is not parsed
      intro hin hshort
      exact absurd (by simpa [hin] using hfull) (Nat.not_le.mpr hshort)

/-- What a byte adds is asked for by the sentence that it ends. -/
theorem added (h : Assembled bytes r) (input : BapByte)
    (hunmistakable : Unmistakable handlers (bytes ++ [input.byte])) :
    ∃ added, (r.step handlers input).calls = r.calls ++ added ∧
      ∀ call ∈ added, call.Protected → AskedFor (bytes ++ [input.byte]) call := by
  have hnone : ∀ r' : BapReceiver, r'.calls = r.calls → ∃ added, r'.calls = r.calls ++ added ∧
      ∀ call ∈ added, call.Protected → AskedFor (bytes ++ [input.byte]) call :=
    fun r' hcalls => ⟨[], by rw [hcalls, List.append_nil], by simp⟩
  unfold BapReceiver.step
  by_cases hdollar : input.byte = 0x24#8
  · simp only [if_pos hdollar]
    exact hnone _ rfl
  simp only [if_neg hdollar]
  split
  · next hends =>
    obtain ⟨hterminator, hin⟩ := Bool.and_eq_true_iff.mp hends
    split
    · next hlength =>
      obtain ⟨added, hcalls, hadded⟩ := @BapReceiver.parseMessage_calls handlers
        { r with message := r.message ++ [input.byte] }
        (BapReceiver.stringOf (r.message ++ [input.byte])) input.nowUs
      have hasked : ∀ call ∈ added, call.Protected → AskedFor (bytes ++ [input.byte]) call := by
        intro call hcall hprotected
        obtain ⟨before, lead, content, hbytes, hmessage, hcontent⟩ := h hin hlength.2
        have hnew := hadded call hcall
        have hheard : bytes ++ [input.byte] =
            before ++ 0x24#8 :: (lead ++ (content ++ [input.byte])) := by simp [hbytes]
        rw [hmessage, List.cons_append] at hnew
        rw [hmessage, List.length_cons] at hlength
        rw [hheard] at hunmistakable ⊢
        exact askedFor_of_callOf hcontent hterminator hlength.2 hunmistakable hnew hprotected
      split <;> exact ⟨added, hcalls, hasked⟩
    · split <;> exact hnone _ rfl
  · split <;> exact hnone _ rfl

/-- The receiver holds what it heard, in whatever pieces it came. -/
theorem run (inputs : List BapByte) :
    Assembled (inputs.map BapByte.byte)
      (Library.run (BapReceiver.step handlers) BapReceiver.init inputs) := by
  induction inputs using List.reverseRecOn with
  | nil => exact nofun
  | append_singleton inputs input ih =>
    rw [List.map_append, run_append]
    exact ih.step input

end Assembled

/-- **A protected handler is called for a verified sentence only**, in whatever pieces and at
whatever times the bytes arrive: if no sentence is mistakable, every call that a byte adds is asked
for by the sentence that starts at the last `$`. -/
theorem bap_calls_asked_for (handlers : BapCommand → Bool) (reads : List (List BapByte))
    (h : Unmistakable handlers (readBytes reads)) :
    uartReceiveTask handlers BapReceiver.init reads =
        run (BapReceiver.step handlers) BapReceiver.init reads.flatten ∧
      CallsAskedFor handlers reads.flatten := by
  refine ⟨uartReceiveTask_eq handlers BapReceiver.init reads, ?_⟩
  intro earlier input later hsplit
  have hheard : readBytes reads =
      (earlier.map BapByte.byte ++ [input.byte]) ++ later.map BapByte.byte := by
    rw [readBytes, hsplit]
    simp
  rw [hheard] at h
  rw [run_append, List.map_append]
  exact (Assembled.run earlier).added input h.of_append

/-! ### Two streams -/

/-- There is one place for a sentence in a stream with one `$`. -/
theorem infix_of_dollar {text tail : List U8} (hdollar : 0x24#8 ∉ tail)
    (h : 0x24#8 :: text <:+: 0x24#8 :: tail) : text <+: tail := by
  obtain ⟨before, after, hsplit⟩ := h
  rw [List.append_assoc, List.cons_append] at hsplit
  cases before with
  | nil => exact ⟨after, (List.cons.inj hsplit).2⟩
  | cons first before =>
    refine absurd ?_ hdollar
    rw [← (List.cons.inj hsplit).2]
    simp

/-- A sentence with its two digits is not mistakable. -/
theorem unmistakable_of_digits (body : List U8) {tail : List U8}
    (hdollar : 0x24#8 ∉ body ++ 0x2a#8 :: tail) (hstar : 0x2a#8 ∉ body)
    (hfirst : ∀ byte, body.head? = some byte → isTerminator byte = false)
    (hdigits : TwoDigits tail) :
    Unmistakable handlers (0x24#8 :: (body ++ 0x2a#8 :: tail)) := by
  intro lead content terminator hcontent _ _ hwithin body' tail' hstring hstar' htail' hdamaged
  obtain ⟨after, hafter⟩ := infix_of_dollar hdollar hwithin
  exfalso
  have hlead : lead = [] := by
    cases lead with
    | nil => rfl
    | cons first lead =>
      have hterminator := hcontent.lead first List.mem_cons_self
      cases body with
      | nil =>
        rw [(List.cons.inj hafter).1] at hterminator
        cases hterminator
      | cons first' body =>
        rw [(List.cons.inj hafter).1, hfirst first' rfl] at hterminator
        cases hterminator
  subst hlead
  obtain ⟨behind, hbehind⟩ := List.takeWhile_prefix (l := 0x24#8 :: (content ++ [terminator]))
    (· ≠ 0#8)
  rw [show List.takeWhile _ _ = _ from hstring] at hbehind
  have hsame : body' ++ 0x2a#8 :: (tail' ++ (behind ++ after)) = body ++ 0x2a#8 :: tail := by
    rw [← hafter, List.nil_append, ← (List.cons.inj hbehind).2]
    simp
  obtain ⟨rfl, htail⟩ := append_delim_inj hstar' hstar hsame
  refine hdamaged.elim (absurd rfl) fun hnot => hnot ?_
  obtain ⟨high, low, rest, rfl, hhigh, hlow⟩ := hdigits
  match tail', htail' with
  | first :: second :: rest', _ =>
    obtain ⟨rfl, hmore⟩ := List.cons.inj htail
    obtain ⟨rfl, -⟩ := List.cons.inj hmore
    exact ⟨first, second, rest', rfl, hhigh, hlow⟩

/-- The bytes of a text, read at one time. -/
def readAt (nowUs : U64) (text : List U8) : List BapByte := text.map fun byte => ⟨byte, nowUs⟩

/-- A request in two reads. -/
theorem bap_calls_asked_for_request :
    CallsAskedFor bapHandlers (readAt 0 (cText "$BAP,SET,ssid,0*00\n")) ∧
      (uartReceiveTask bapHandlers BapReceiver.init
        [readAt 0 (cText "$BAP,SET"), readAt 0 (cText ",ssid,0*00\n")]).calls =
          [⟨.set, cText "ssid", some (cText "0")⟩] :=
  ⟨(bap_calls_asked_for bapHandlers
      [readAt 0 (cText "$BAP,SET"), readAt 0 (cText ",ssid,0*00\n")]
      (unmistakable_of_digits (cText "BAP,SET,ssid,0") (by decide) (by decide) (by decide)
        ⟨0x30#8, 0x30#8, _, rfl, by decide, by decide⟩)).2, by decide +kernel⟩

/-- The checksum of a sentence whose first digit is damaged is taken for `00`, and the
setting is made. -/
theorem damaged_sentence_runs :
    ¬∀ (handlers : BapCommand → Bool) (reads : List (List BapByte)),
      CallsAskedFor handlers reads.flatten := by
  intro hclaim
  obtain ⟨added, hcalls, hasked⟩ := hclaim bapHandlers [readAt 0 (cText "$BAP,SET,ssid,0*Z0\r\n")]
    (readAt 0 (cText "$BAP,SET,ssid,0*Z0")) ⟨0x0d#8, 0⟩ (readAt 0 (cText "\n")) rfl
  have hnew : added = [⟨.set, cText "ssid", some (cText "0")⟩] := by
    have hbefore : (run (BapReceiver.step bapHandlers) BapReceiver.init
        (readAt 0 (cText "$BAP,SET,ssid,0*Z0"))).calls = [] := by decide +kernel
    rw [hbefore, List.nil_append] at hcalls
    rw [← hcalls]
    decide +kernel
  obtain ⟨s, hasks, before, after, hheard, -⟩ :=
    hasked _ (hnew ▸ List.mem_singleton_self _) ⟨by decide, by decide⟩
  have hstart : s.body ++ 0x2a#8 :: s.high :: s.low :: (s.rest ++ [s.terminator]) <+:
      cText "BAP,SET,ssid,0" ++ 0x2a#8 :: cText "Z0\r" :=
    infix_of_dollar (by decide) ⟨before, after, by rw [List.append_assoc]; exact hheard.symm⟩
  obtain ⟨rest, hrest⟩ := hstart
  rw [List.append_assoc, List.cons_append] at hrest
  obtain ⟨-, htail⟩ := append_delim_inj hasks.body.2 (by decide) hrest
  obtain ⟨high, low, hhigh, -⟩ := hasks.checksum
  rw [(List.cons.inj htail).1] at hhigh
  cases hhigh

end EspMiner
