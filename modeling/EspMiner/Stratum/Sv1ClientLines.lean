import EspMiner.Stratum.Sv1Client
import Mathlib.Data.List.TakeWhile

/-!
# Lines do not depend on how they arrive

What the buffer holds and what the transport has left are one stream.  A call takes the stream up to
its first newline, in whatever pieces it comes, or gives up at the first line that is too long; by
induction on the lines the calls return them all, but for those that a starved call waits for.
-/

namespace EspMiner

open Library

/-! ## The buffer's size -/

theorem growBufferSize_le (required newSize : Nat) (h : newSize ≤ JSON_RPC_BUFFER_LIMIT) :
    growBufferSize required newSize ≤ JSON_RPC_BUFFER_LIMIT := by
  induction newSize using growBufferSize.induct required with
  | case1 newSize hgrows ih =>
    rw [growBufferSize, if_pos hgrows]
    exact ih (Nat.min_le_right _ _)
  | case2 newSize hdone =>
    rw [growBufferSize, if_neg hdone]
    exact h

theorem le_growBufferSize (required newSize : Nat) : newSize ≤ growBufferSize required newSize := by
  induction newSize using growBufferSize.induct required with
  | case1 newSize hgrows ih =>
    rw [growBufferSize, if_pos hgrows]
    have hnext : newSize ≤ min (newSize + BUFFER_SIZE) JSON_RPC_BUFFER_LIMIT :=
      Nat.le_min.mpr ⟨Nat.le_add_right _ _, Nat.le_of_lt hgrows.2⟩
    exact Nat.le_trans hnext ih
  | case2 newSize hdone =>
    rw [growBufferSize, if_neg hdone]

theorem required_le_growBufferSize {required : Nat} (newSize : Nat)
    (h : required ≤ JSON_RPC_BUFFER_LIMIT) : required ≤ growBufferSize required newSize := by
  induction newSize using growBufferSize.induct required with
  | case1 newSize hgrows ih =>
    rw [growBufferSize, if_pos hgrows]
    exact ih
  | case2 newSize hdone =>
    rw [growBufferSize, if_neg hdone]
    by_contra hsmall
    exact hdone ⟨by omega, by omega⟩

/-- A size that is granted has the room that was asked for. -/
theorem ensureJsonBufferCapacity_some {size required granted : Nat} {allocates : Bool}
    (h : ensureJsonBufferCapacity size required allocates = some granted)
    (hsize : size ≤ JSON_RPC_BUFFER_LIMIT) :
    required ≤ granted ∧ size ≤ granted ∧ granted ≤ JSON_RPC_BUFFER_LIMIT := by
  unfold ensureJsonBufferCapacity at h
  split at h
  · cases h
  · next hlimit =>
    split at h
    · next hroom =>
      obtain rfl := Option.some.inj h
      exact ⟨hroom, Nat.le_refl _, hsize⟩
    · split at h
      · obtain rfl := Option.some.inj h
        exact ⟨required_le_growBufferSize _ (Nat.le_of_not_lt hlimit), le_growBufferSize _ _,
          growBufferSize_le _ _ hsize⟩
      · cases h

theorem ensureJsonBufferCapacity_isSome {size required : Nat}
    (h : required ≤ JSON_RPC_BUFFER_LIMIT) :
    ∃ granted, ensureJsonBufferCapacity size required true = some granted := by
  unfold ensureJsonBufferCapacity
  rw [if_neg (Nat.not_lt.mpr h)]
  split <;> exact ⟨_, rfl⟩

/-! ## Every read has room -/

/-- A read asks for something, and what is stored has room for its terminator. -/
def Sv1BufferEvent.Ok : Sv1BufferEvent → Prop
  | .read requested length size => 1 ≤ requested ∧ length + 1 ≤ size
  | .stored length size => length + 1 ≤ size

namespace Sv1Receiver

/-- The buffer has room for its terminator, and without a newline it holds no more than
a line. -/
structure Sized (r : Sv1Receiver) : Prop where
  length : r.data.length ≤ STRATUM_V1_MAX_JSON_LINE_SIZE + 1
  unfinished : 10#8 ∉ r.data → r.data.length ≤ STRATUM_V1_MAX_JSON_LINE_SIZE
  room : r.data.length + 1 ≤ r.size
  size : r.size ≤ JSON_RPC_BUFFER_LIMIT

/-- Every recorded read and store had room. -/
def TraceOk (r : Sv1Receiver) : Prop := ∀ event ∈ r.trace, event.Ok

variable {r : Sv1Receiver}

theorem Sized.clear (h : r.Sized) : r.clear.Sized := by
  have hroom := h.room
  exact ⟨Nat.zero_le _, fun _ => Nat.zero_le _, Nat.le_trans (Nat.le_add_left 1 _) hroom, h.size⟩

/-- Taking a line away leaves a buffer that has room. -/
theorem Sized.extractLine (h : r.Sized) {lineLen : Nat} (hline : lineLen < r.data.length)
    (copies : Bool) : (r.extractLine lineLen copies).2.Sized := by
  have hlength := h.length
  have hroom := h.room
  refine ⟨?_, fun _ => ?_, ?_, h.size⟩
  all_goals
    simp only [Sv1Receiver.extractLine, List.length_drop]
    omega

theorem one_le_receiveSize (h : r.Sized) (hnone : 10#8 ∉ r.data) : 1 ≤ r.receiveSize := by
  have hlength := h.unfinished hnone
  have hbuffer : BUFFER_SIZE = 1024 := rfl
  unfold receiveSize
  omega

theorem length_add_receiveSize (h : r.Sized) :
    r.data.length + r.receiveSize ≤ STRATUM_V1_MAX_JSON_LINE_SIZE + 1 := by
  have hlength := h.length
  unfold receiveSize
  omega

/-- What `store` leaves, if the call goes on or not. -/
theorem store_sized (h : r.Sized) {chunk : List U8} (hchunk : chunk.length ≤ r.receiveSize)
    (allocates : Bool) :
    (r.store chunk allocates).2.clear.Sized ∧
      ((r.store chunk allocates).1 = true → (r.store chunk allocates).2.Sized) := by
  have htotal := length_add_receiveSize h
  unfold store
  split
  · exact ⟨h.clear, nofun⟩
  · split
    · exact ⟨h.clear, nofun⟩
    · next granted hgranted =>
      obtain ⟨hroom, hgrown, hlimit⟩ := ensureJsonBufferCapacity_some hgranted h.size
      have hlength : (r.data ++ chunk).length = r.data.length + chunk.length :=
        List.length_append
      refine ⟨⟨Nat.zero_le _, fun _ => Nat.zero_le _, ?_, hlimit⟩, fun hgoes => ⟨?_, ?_, ?_,
        hlimit⟩⟩
      · show 0 + 1 ≤ granted
        omega
      · show (r.data ++ chunk).length ≤ _
        omega
      · intro hnone
        simp only [List.contains_eq_mem, Bool.or_eq_true, decide_eq_true_eq] at hgoes
        exact hgoes.resolve_left hnone
      · show (r.data ++ chunk).length + 1 ≤ granted
        omega

theorem TraceOk.store (hok : r.TraceOk) (h : r.Sized) (chunk : List U8) (allocates : Bool) :
    (r.store chunk allocates).2.TraceOk := by
  unfold Sv1Receiver.store
  split
  · exact hok
  · split
    · exact hok
    · next granted hgranted =>
      intro event hevent
      rcases List.mem_cons.mp hevent with rfl | hevent
      · show (r.data ++ chunk).length + 1 ≤ granted
        rw [List.length_append]
        exact (ensureJsonBufferCapacity_some hgranted h.size).1
      · exact hok event hevent

theorem lt_length_of_findIdx? {lineLen : Nat} (h : r.data.findIdx? (· = 10#8) = some lineLen) :
    lineLen < r.data.length :=
  (List.findIdx?_eq_some_iff_getElem.mp h).choose

theorem not_mem_of_findIdx? (h : r.data.findIdx? (· = 10#8) = none) : 10#8 ∉ r.data := by
  intro hmem
  have hnone := List.findIdx?_eq_none_iff.mp h _ hmem
  simp at hnone

/-- A call leaves the buffer with room, and all its reads and stores had room. -/
theorem receiveLoop_sized (deadline : Int) (copies : Bool) (reads : List Sv1Read)
    (h : r.Sized) (hok : r.TraceOk) :
    (r.receiveLoop deadline copies reads).2.Sized ∧
      (r.receiveLoop deadline copies reads).2.TraceOk := by
  induction reads generalizing r with
  | nil =>
    unfold receiveLoop
    cases hfind : r.data.findIdx? (· = 10#8) with
    | some lineLen => exact ⟨h.extractLine (lt_length_of_findIdx? hfind) copies, hok⟩
    | none => exact ⟨h, hok⟩
  | cons read reads ih =>
    unfold receiveLoop
    cases hfind : r.data.findIdx? (· = 10#8) with
    | some lineLen => exact ⟨h.extractLine (lt_length_of_findIdx? hfind) copies, hok⟩
    | none =>
      have hnone := not_mem_of_findIdx? hfind
      have hasked : (r.record (.read r.receiveSize r.data.length r.size)).TraceOk := by
        intro event hevent
        rcases List.mem_cons.mp hevent with rfl | hevent
        · exact ⟨one_le_receiveSize h hnone, h.room⟩
        · exact hok event hevent
      have hrecorded : (r.record (.read r.receiveSize r.data.length r.size)).Sized :=
        ⟨h.length, h.unfinished, h.room, h.size⟩
      dsimp only
      split
      · exact ⟨h.clear, hok⟩
      · cases hresult : read.result with
        | failed => exact ⟨hrecorded.clear, hasked⟩
        | bytes count =>
          dsimp only
          generalize hnext : ({ r.record (.read r.receiveSize r.data.length r.size) with
            stream := List.drop (min count r.receiveSize)
              (r.record (.read r.receiveSize r.data.length r.size)).stream } : Sv1Receiver)
            = next
          have hsized : next.Sized := by
            subst hnext
            exact ⟨h.length, h.unfinished, h.room, h.size⟩
          have hnextOk : next.TraceOk := by
            subst hnext
            exact hasked
          have hsize : next.receiveSize = r.receiveSize := by
            subst hnext
            rfl
          split
          · exact ⟨hsized.clear, hnextOk⟩
          · split
            · exact ih hsized hnextOk
            · have hchunk : (List.take (min count r.receiveSize)
                  (r.record (.read r.receiveSize r.data.length r.size)).stream).length
                  ≤ next.receiveSize := by
                rw [List.length_take, hsize]
                exact Nat.le_trans (Nat.min_le_left _ _) (Nat.min_le_right _ _)
              have hstoreOk := hnextOk.store hsized
                ((r.record (.read r.receiveSize r.data.length r.size)).stream.take
                  (min count r.receiveSize)) read.allocates
              obtain ⟨hcleared, hgoes⟩ := store_sized hsized hchunk read.allocates
              cases hstore : next.store _ read.allocates with
              | mk goes stored =>
                rw [hstore] at hstoreOk hcleared hgoes
                cases goes with
                | false => exact ⟨hcleared, hstoreOk⟩
                | true => exact ih (hgoes rfl) hstoreOk

/-! ## One stream -/

/-- The next newline of the stream is in the buffer, after the line. -/
theorem data_of_mem {segment rest : List U8}
    (hstream : r.data ++ r.stream = segment ++ 10#8 :: rest) (hseg : 10#8 ∉ segment)
    (hmem : 10#8 ∈ r.data) :
    ∃ left, r.data = segment ++ 10#8 :: left ∧ left ++ r.stream = rest := by
  rcases List.append_eq_append_iff.mp hstream with ⟨tail, hsegment, -⟩ | ⟨tail, hdata, htail⟩
  · exact absurd (hsegment ▸ List.mem_append_left _ hmem) hseg
  · cases tail with
    | nil =>
      rw [List.append_nil] at hdata
      exact absurd (hdata ▸ hmem) hseg
    | cons byte left =>
      rw [List.cons_append, List.cons.injEq] at htail
      obtain ⟨rfl, rfl⟩ := htail
      exact ⟨left, hdata, rfl⟩

/-- The next newline of the stream is still to come. -/
theorem stream_of_not_mem {segment rest : List U8}
    (hstream : r.data ++ r.stream = segment ++ 10#8 :: rest) (hnone : 10#8 ∉ r.data) :
    ∃ tail, segment = r.data ++ tail ∧ r.stream = tail ++ 10#8 :: rest := by
  rcases List.append_eq_append_iff.mp hstream with ⟨tail, hsegment, htail⟩ | ⟨tail, hdata, htail⟩
  · exact ⟨tail, hsegment, htail⟩
  · cases tail with
    | nil =>
      rw [List.append_nil] at hdata
      exact ⟨[], by rw [hdata, List.append_nil], htail.symm⟩
    | cons byte left =>
      rw [List.cons_append, List.cons.injEq] at htail
      refine absurd ?_ hnone
      rw [hdata, htail.1]
      exact List.mem_append_right _ List.mem_cons_self

theorem findIdx?_of_data {segment left : List U8} (hdata : r.data = segment ++ 10#8 :: left)
    (hseg : 10#8 ∉ segment) : r.data.findIdx? (· = 10#8) = some segment.length := by
  rw [hdata, List.findIdx?_eq_some_iff_getElem]
  refine ⟨by simp, by simp, fun j hj => ?_⟩
  rw [List.getElem_append_left hj]
  have hbyte : segment[j] ≠ 10#8 := fun heq => hseg (heq ▸ List.getElem_mem hj)
  simpa using hbyte

theorem findIdx?_of_not_mem (hnone : 10#8 ∉ r.data) : r.data.findIdx? (· = 10#8) = none := by
  rw [List.findIdx?_eq_none_iff]
  intro byte hbyte
  have hne : byte ≠ 10#8 := fun heq => hnone (heq ▸ hbyte)
  simpa using hne

/-- The line in front of the newline is what `strndup` copies. -/
theorem extractLine_segment {segment left : List U8}
    (hdata : r.data = segment ++ 10#8 :: left) (hnul : 0#8 ∉ segment) :
    r.extractLine segment.length true
      = (.line (some segment), { r with data := left }) := by
  have htake : r.data.take segment.length = segment := by
    rw [hdata, List.take_left]
  have hline : segment.takeWhile (· ≠ 0#8) = segment := by
    rw [List.takeWhile_eq_self_iff]
    intro byte hbyte
    have hne : byte ≠ 0#8 := fun heq => hnul (heq ▸ hbyte)
    simpa using hne
  have hdrop : r.data.drop (segment.length + 1) = left := by
    rw [hdata, ← List.drop_drop, List.drop_left]
    rfl
  unfold extractLine
  rw [if_pos rfl, htake, hline, hdrop]

/-! ## Reads that come before the deadline -/

end Sv1Receiver

/-- The read gives bytes. -/
def Sv1Read.positive (read : Sv1Read) : Bool :=
  match read.result with
  | .failed => false
  | .bytes count => decide (0 < count)

/-- The read does not fail, and it and its memory come in time. -/
structure Sv1Read.Prompt (deadline : Int) (read : Sv1Read) : Prop where
  before : read.before < deadline
  after : read.after < deadline
  result : read.result ≠ .failed
  allocates : read.allocates = true

/-- All reads of the call come in time, and it finds memory. -/
structure Sv1Call.Prompt (call : Sv1Call) : Prop where
  initializes : call.initializes = true
  copies : call.copies = true
  reads : ∀ read ∈ call.reads, read.Prompt (call.start + SV1_RECEIVE_TIMEOUT_US)

namespace Sv1Receiver

variable {r : Sv1Receiver}

/-- A read of no bytes changes nothing but the record. -/
theorem receiveLoop_zero {deadline : Int} {read : Sv1Read} (hread : read.Prompt deadline)
    (hzero : read.positive = false) (copies : Bool) (reads : List Sv1Read)
    (hnone : 10#8 ∉ r.data) :
    r.receiveLoop deadline copies (read :: reads)
      = (r.record (.read r.receiveSize r.data.length r.size)).receiveLoop deadline copies
          reads := by
  have hresult : read.result = .bytes 0 := by
    unfold Sv1Read.positive at hzero
    cases hcase : read.result with
    | failed => exact absurd hcase hread.result
    | bytes count =>
      rw [hcase] at hzero
      have hcount : count = 0 := by simpa using hzero
      rw [hcount]
  have hbefore : ¬ deadline - read.before ≤ 0 := by
    have := hread.before
    omega
  have hafter : ¬ deadline ≤ read.after := Int.not_le.mpr hread.after
  rw [receiveLoop, findIdx?_of_not_mem hnone]
  simp only [hbefore, hafter, hresult, if_false, Nat.zero_min, List.take_zero, List.drop_zero,
    if_true]

/-- With memory and room for them, bytes without NUL are appended. -/
theorem store_of_room {chunk : List U8} (hnul : 0#8 ∉ chunk)
    (hroom : r.data.length + chunk.length ≤ STRATUM_V1_MAX_JSON_LINE_SIZE + 1) :
    ∃ stored : Sv1Receiver, stored.data = r.data ++ chunk ∧ stored.stream = r.stream ∧
      r.store chunk true
        = (decide (10#8 ∈ r.data ++ chunk)
            || decide ((r.data ++ chunk).length ≤ STRATUM_V1_MAX_JSON_LINE_SIZE), stored) := by
  have hlimit : JSON_RPC_BUFFER_LIMIT = STRATUM_V1_MAX_JSON_LINE_SIZE + 2 := rfl
  have hrequired : r.data.length + chunk.length + 1 ≤ JSON_RPC_BUFFER_LIMIT := by omega
  obtain ⟨granted, hgranted⟩ := @ensureJsonBufferCapacity_isSome r.size _ hrequired
  refine ⟨{ r.record (.stored (r.data ++ chunk).length granted) with
    size := granted, data := r.data ++ chunk }, rfl, rfl, ?_⟩
  have hclean : ¬ chunk.contains 0#8 = true := fun hmem => hnul (List.contains_iff_mem.mp hmem)
  unfold store
  rw [if_neg hclean, hgranted]
  dsimp only
  rw [List.contains_eq_mem]

/-- What a read of some bytes does: they move from the stream to the buffer, and the
call goes on unless a line has become too long. -/
theorem receiveLoop_positive {deadline : Int} {read : Sv1Read} (hread : read.Prompt deadline)
    (hpositive : read.positive = true) (copies : Bool) (reads : List Sv1Read)
    (h : r.Sized) (hnone : 10#8 ∉ r.data) (hnul : 0#8 ∉ r.stream) (hmore : r.stream ≠ []) :
    ∃ r' : Sv1Receiver, r'.data ++ r'.stream = r.data ++ r.stream ∧
      r.data.length < r'.data.length ∧
      r'.data.length ≤ STRATUM_V1_MAX_JSON_LINE_SIZE + 1 ∧
      ((10#8 ∈ r'.data ∨ r'.data.length ≤ STRATUM_V1_MAX_JSON_LINE_SIZE) →
        r'.Sized ∧ r.receiveLoop deadline copies (read :: reads)
          = r'.receiveLoop deadline copies reads) ∧
      ((10#8 ∉ r'.data ∧ STRATUM_V1_MAX_JSON_LINE_SIZE < r'.data.length) →
        r.receiveLoop deadline copies (read :: reads) = (.line none, r'.clear)) := by
  obtain ⟨count, hresult, hcount⟩ : ∃ count, read.result = .bytes count ∧ 0 < count := by
    unfold Sv1Read.positive at hpositive
    cases hcase : read.result with
    | failed => exact absurd hcase hread.result
    | bytes count => exact ⟨count, rfl, by simpa [hcase] using hpositive⟩
  have hbefore : ¬ deadline - read.before ≤ 0 := by
    have := hread.before
    omega
  have hafter : ¬ deadline ≤ read.after := Int.not_le.mpr hread.after
  have hrequested := one_le_receiveSize h hnone
  have htotal := length_add_receiveSize h
  have hlength : (r.stream.take (min count r.receiveSize)).length
      = min (min count r.receiveSize) r.stream.length := List.length_take
  have hstreamPos : 0 < r.stream.length := List.length_pos_iff.mpr hmore
  have hchunk : r.stream.take (min count r.receiveSize) ≠ [] :=
    List.ne_nil_of_length_pos (by omega)
  -- the receiver that has asked for the bytes and got them
  let asked : Sv1Receiver :=
    { r.record (.read r.receiveSize r.data.length r.size) with
      stream := r.stream.drop (min count r.receiveSize) }
  have hasked : asked.Sized := ⟨h.length, h.unfinished, h.room, h.size⟩
  have hfits : (r.stream.take (min count r.receiveSize)).length ≤ asked.receiveSize := by
    rw [hlength]
    exact Nat.le_trans (Nat.min_le_left _ _) (Nat.min_le_right _ _)
  obtain ⟨stored, hdata, hstream, hstore⟩ := @store_of_room asked
    (r.stream.take (min count r.receiveSize)) (fun hmem => hnul (List.mem_of_mem_take hmem))
    (Nat.le_trans (Nat.add_le_add_left hfits _) (length_add_receiveSize hasked))
  have hloop : r.receiveLoop deadline copies (read :: reads)
      = if (asked.store (r.stream.take (min count r.receiveSize)) true).1 then
          (asked.store (r.stream.take (min count r.receiveSize)) true).2.receiveLoop deadline
            copies reads
        else
          (.line none,
            (asked.store (r.stream.take (min count r.receiveSize)) true).2.clear) := by
    rw [receiveLoop, findIdx?_of_not_mem hnone]
    simp only [hbefore, hafter, hresult, if_false, hread.allocates]
    refine (if_neg hchunk).trans ?_
    split
    · next after hstops =>
      have hstops : asked.store (r.stream.take (min count r.receiveSize)) true = (false, after) :=
        hstops
      rw [hstops]
      rfl
    · next after hgoes =>
      have hgoes : asked.store (r.stream.take (min count r.receiveSize)) true = (true, after) :=
        hgoes
      rw [hgoes]
      rfl
  have hkept := (store_sized hasked hfits true).2
  rw [hstore] at hloop hkept
  have hdataLength : stored.data.length
      = r.data.length + (r.stream.take (min count r.receiveSize)).length := by
    rw [hdata, List.length_append]
    rfl
  have hflag : (asked.data ++ r.stream.take (min count r.receiveSize)) = stored.data := hdata.symm
  rw [hflag] at hloop hkept
  refine ⟨stored, ?_, by omega, by omega, fun hgoes => ?_, fun hstops => ?_⟩
  · rw [hdata, hstream, List.append_assoc]
    exact congrArg (r.data ++ ·) (List.take_append_drop _ _)
  · have htrue : (decide (10#8 ∈ stored.data)
        || decide (stored.data.length ≤ STRATUM_V1_MAX_JSON_LINE_SIZE)) = true := by
      simpa using hgoes
    rw [htrue] at hloop
    exact ⟨hkept htrue, hloop⟩
  · have hfalse : (decide (10#8 ∈ stored.data)
        || decide (stored.data.length ≤ STRATUM_V1_MAX_JSON_LINE_SIZE)) = false := by
      simpa using hstops
    rw [hfalse] at hloop
    exact hloop

/-! ## One call -/

/-- The bytes of the buffer and of the stream are not NUL. -/
def NulFree (r : Sv1Receiver) : Prop := 0#8 ∉ r.data ++ r.stream

/-- What is left when a call has returned a line. -/
def Returns (out : Sv1Return × Sv1Receiver) (text : Option (List U8)) (rest : List U8) : Prop :=
  out.1 = .line text ∧ out.2.data ++ out.2.stream = rest

/-- A newline that is in the buffer ends the call at once. -/
theorem receiveLoop_held {segment rest : List U8}
    (hstream : r.data ++ r.stream = segment ++ 10#8 :: rest) (hseg : 10#8 ∉ segment)
    (hnul : r.NulFree) (hmem : 10#8 ∈ r.data) (deadline : Int) (reads : List Sv1Read) :
    Returns (r.receiveLoop deadline true reads) (some segment) rest := by
  obtain ⟨left, hdata, hleft⟩ := data_of_mem hstream hseg hmem
  have hsegNul : 0#8 ∉ segment := fun hbyte =>
    hnul (hstream ▸ List.mem_append_left _ hbyte)
  have hloop : r.receiveLoop deadline true reads
      = (.line (some segment), { r with data := left }) := by
    rw [← extractLine_segment hdata hsegNul]
    cases reads <;> rw [receiveLoop, findIdx?_of_data hdata hseg]
  rw [hloop]
  exact ⟨rfl, hleft⟩

/-- **The loop takes the next line**, in whatever pieces it comes; while it waits it has
taken a byte at every read that gave some. -/
theorem receiveLoop_segment {deadline : Int} {reads : List Sv1Read}
    (hreads : ∀ read ∈ reads, read.Prompt deadline) (h : r.Sized) (hnul : r.NulFree)
    {segment rest : List U8} (hstream : r.data ++ r.stream = segment ++ 10#8 :: rest)
    (hseg : 10#8 ∉ segment) (hline : segment.length ≤ STRATUM_V1_MAX_JSON_LINE_SIZE) :
    Returns (r.receiveLoop deadline true reads) (some segment) rest ∨
      ((r.receiveLoop deadline true reads).1 = .waits ∧
        r.data.length + reads.countP Sv1Read.positive ≤ segment.length) := by
  induction reads generalizing r with
  | nil =>
    by_cases hmem : 10#8 ∈ r.data
    · exact .inl (receiveLoop_held hstream hseg hnul hmem deadline [])
    · right
      obtain ⟨tail, hsegment, -⟩ := stream_of_not_mem hstream hmem
      rw [receiveLoop, findIdx?_of_not_mem hmem, hsegment, List.length_append]
      exact ⟨rfl, Nat.le_add_right _ _⟩
  | cons read reads ih =>
    by_cases hmem : 10#8 ∈ r.data
    · exact .inl (receiveLoop_held hstream hseg hnul hmem deadline (read :: reads))
    · obtain ⟨hread, hreads⟩ := List.forall_mem_cons.mp hreads
      cases hpositive : read.positive with
      | false =>
        rw [receiveLoop_zero hread hpositive true reads hmem,
          List.countP_cons_of_neg (by rw [hpositive]; exact Bool.false_ne_true)]
        exact ih hreads ⟨h.length, h.unfinished, h.room, h.size⟩ hnul hstream
      | true =>
        obtain ⟨tail, hsegment, htail⟩ := stream_of_not_mem hstream hmem
        have hmore : r.stream ≠ [] := by
          rw [htail]
          exact List.append_ne_nil_of_right_ne_nil _ (List.cons_ne_nil _ _)
        have hstreamNul : 0#8 ∉ r.stream := fun hbyte => hnul (List.mem_append_right _ hbyte)
        obtain ⟨next, hnext, hlonger, -, hgoes, -⟩ :=
          receiveLoop_positive hread hpositive true reads h hmem hstreamNul hmore
        have hsame : next.data ++ next.stream = segment ++ 10#8 :: rest := hnext.trans hstream
        have hshort : 10#8 ∈ next.data ∨ next.data.length ≤ STRATUM_V1_MAX_JSON_LINE_SIZE := by
          by_cases hnewline : 10#8 ∈ next.data
          · exact .inl hnewline
          · obtain ⟨more, hmoreSegment, -⟩ := stream_of_not_mem hsame hnewline
            right
            rw [hmoreSegment, List.length_append] at hline
            omega
        obtain ⟨hsized, hloop⟩ := hgoes hshort
        have hnextNul : next.NulFree := by
          unfold NulFree
          rw [hnext]
          exact hnul
        rw [hloop, List.countP_cons_of_pos hpositive]
        refine (ih hreads hsized hnextNul hsame).imp id fun hwaits => ⟨hwaits.1, ?_⟩
        have := hwaits.2
        omega

/-- What the buffer holds is among the first bytes of the stream. -/
theorem Sized.not_mem_of_take (h : r.Sized)
    (hnone : 10#8 ∉ (r.data ++ r.stream).take (STRATUM_V1_MAX_JSON_LINE_SIZE + 1)) :
    10#8 ∉ r.data := by
  intro hmem
  refine hnone ?_
  rw [List.take_append, List.take_of_length_le h.length]
  exact List.mem_append_left _ hmem

/-- **The loop gives up a line that is too long**, with an empty buffer. -/
theorem receiveLoop_long {deadline : Int} {reads : List Sv1Read}
    (hreads : ∀ read ∈ reads, read.Prompt deadline) (h : r.Sized) (hnul : r.NulFree)
    (hlong : STRATUM_V1_MAX_JSON_LINE_SIZE < (r.data ++ r.stream).length)
    (hnone : 10#8 ∉ (r.data ++ r.stream).take (STRATUM_V1_MAX_JSON_LINE_SIZE + 1)) :
    ((r.receiveLoop deadline true reads).1 = .line none ∧
        (r.receiveLoop deadline true reads).2.data = []) ∨
      ((r.receiveLoop deadline true reads).1 = .waits ∧
        r.data.length + reads.countP Sv1Read.positive ≤ STRATUM_V1_MAX_JSON_LINE_SIZE) := by
  induction reads generalizing r with
  | nil =>
    right
    have hmem := h.not_mem_of_take hnone
    rw [receiveLoop, findIdx?_of_not_mem hmem]
    exact ⟨rfl, h.unfinished hmem⟩
  | cons read reads ih =>
    have hmem := h.not_mem_of_take hnone
    obtain ⟨hread, hreads⟩ := List.forall_mem_cons.mp hreads
    cases hpositive : read.positive with
    | false =>
      rw [receiveLoop_zero hread hpositive true reads hmem,
        List.countP_cons_of_neg (by rw [hpositive]; exact Bool.false_ne_true)]
      exact ih hreads ⟨h.length, h.unfinished, h.room, h.size⟩ hnul hlong hnone
    | true =>
      have hmore : r.stream ≠ [] := by
        intro hempty
        rw [hempty, List.append_nil] at hlong
        exact absurd (h.unfinished hmem) (Nat.not_le_of_lt hlong)
      have hstreamNul : 0#8 ∉ r.stream := fun hbyte => hnul (List.mem_append_right _ hbyte)
      obtain ⟨next, hnext, hlonger, hlimit, hgoes, hstops⟩ :=
        receiveLoop_positive hread hpositive true reads h hmem hstreamNul hmore
      by_cases hshort : next.data.length ≤ STRATUM_V1_MAX_JSON_LINE_SIZE
      · obtain ⟨hsized, hloop⟩ := hgoes (.inr hshort)
        have hnextNul : next.NulFree := by
          unfold NulFree
          rw [hnext]
          exact hnul
        rw [hloop, List.countP_cons_of_pos hpositive]
        refine (ih hreads hsized hnextNul (hnext ▸ hlong) (hnext ▸ hnone)).imp id
          fun hwaits => ⟨hwaits.1, ?_⟩
        have := hwaits.2
        omega
      · have hnextNone : 10#8 ∉ next.data := by
          intro hbyte
          refine hnone ?_
          rw [← hnext, List.take_append, List.take_of_length_le hlimit]
          exact List.mem_append_left _ hbyte
        rw [hstops ⟨hnextNone, Nat.lt_of_not_le hshort⟩]
        exact .inl ⟨rfl, rfl⟩

/-! ## Calls one after another -/

/-- There is no buffer yet, or it has room. -/
def Ready (r : Sv1Receiver) : Prop := (r.size = 0 ∧ r.data = []) ∨ r.Sized

theorem sized_initializeBuffer (r : Sv1Receiver) : (r.initializeBuffer true).Sized := by
  have hlimit : BUFFER_SIZE ≤ JSON_RPC_BUFFER_LIMIT := by decide
  exact ⟨Nat.zero_le _, fun _ => Nat.zero_le _, (by decide : 0 + 1 ≤ BUFFER_SIZE), hlimit⟩

theorem Sized.size_ne_zero (h : r.Sized) : r.size ≠ 0 := by
  have := h.room
  omega

/-- A call starts its loop with a buffer that has room, or does nothing. -/
theorem receiveLine_cases (h : r.Ready) (call : Sv1Call) :
    (∃ start : Sv1Receiver, start.Sized ∧ start.data = r.data ∧ start.stream = r.stream ∧
        start.trace = r.trace ∧
        r.receiveLine call
          = start.receiveLoop (call.start + SV1_RECEIVE_TIMEOUT_US) call.copies call.reads) ∨
      (call.initializes = false ∧ r.receiveLine call = (.line none, r.initializeBuffer false)) := by
  rcases h with ⟨hsize, hdata⟩ | hsized
  · cases hinit : call.initializes with
    | false =>
      right
      refine ⟨rfl, ?_⟩
      simp only [receiveLine, hsize, if_true, hinit]
      rfl
    | true =>
      left
      refine ⟨r.initializeBuffer true, sized_initializeBuffer r, hdata.symm, rfl, rfl, ?_⟩
      simp only [receiveLine, hsize, if_true, hinit]
      exact if_neg (sized_initializeBuffer r).size_ne_zero
  · left
    refine ⟨r, hsized, rfl, rfl, rfl, ?_⟩
    simp only [receiveLine, hsized.size_ne_zero, if_false]

/-- Whatever the clock, the transport and the memory do, a call leaves the receiver
ready, and its reads and stores had room. -/
theorem receiveLine_ready (h : r.Ready) (hok : r.TraceOk) (call : Sv1Call) :
    (r.receiveLine call).2.Ready ∧ (r.receiveLine call).2.TraceOk := by
  rcases receiveLine_cases h call with ⟨start, hsized, -, -, htrace, hline⟩ | ⟨-, hline⟩
  · have hstart : start.TraceOk := by
      unfold TraceOk
      rw [htrace]
      exact hok
    rw [hline]
    obtain ⟨hleft, hleftOk⟩ := receiveLoop_sized _ call.copies call.reads hsized hstart
    exact ⟨.inr hleft, hleftOk⟩
  · rw [hline]
    exact ⟨.inl ⟨rfl, rfl⟩, hok⟩

theorem receiveLines_ready (h : r.Ready) (hok : r.TraceOk) (calls : List Sv1Call) :
    (r.receiveLines calls).2.Ready ∧ (r.receiveLines calls).2.TraceOk := by
  induction calls generalizing r with
  | nil => exact ⟨h, hok⟩
  | cons call calls ih =>
    obtain ⟨hnext, hnextOk⟩ := receiveLine_ready h hok call
    rw [receiveLines]
    cases hline : r.receiveLine call with
    | mk out next =>
      rw [hline] at hnext hnextOk
      cases out with
      | waits => exact ⟨hnext, hnextOk⟩
      | line text => exact ih hnext hnextOk

/-- A prompt call on a receiver that is ready runs its loop. -/
theorem receiveLine_prompt (h : r.Ready) (hnul : r.NulFree) {call : Sv1Call}
    (hcall : call.Prompt) :
    ∃ start : Sv1Receiver, start.Sized ∧ start.NulFree ∧
      start.data ++ start.stream = r.data ++ r.stream ∧
      r.receiveLine call
        = start.receiveLoop (call.start + SV1_RECEIVE_TIMEOUT_US) true call.reads := by
  rcases receiveLine_cases h call with ⟨start, hsized, hdata, hstream, -, hline⟩ | ⟨hinit, -⟩
  · have hsame : start.data ++ start.stream = r.data ++ r.stream := by rw [hdata, hstream]
    refine ⟨start, hsized, ?_, hsame, ?_⟩
    · unfold NulFree
      rw [hsame]
      exact hnul
    · rw [hline, hcall.copies]
  · rw [hcall.initializes] at hinit
    cases hinit

/-- The bytes of the lines, each with its newline. -/
def framed (segments : List (List U8)) : List U8 := segments.flatMap (· ++ [10#8])

theorem framed_cons (segment : List U8) (segments : List (List U8)) (rest : List U8) :
    framed (segment :: segments) ++ rest = segment ++ 10#8 :: (framed segments ++ rest) := by
  simp [framed]

/-- A call had no more reads with bytes than its line has bytes, so it still waits,
and the calls before it returned their lines. -/
def Starved (calls : List Sv1Call) (segments : List (List U8)) (returned : List Sv1Return) :
    Prop :=
  ∃ n call, calls[n]? = some call ∧
    returned = (segments.take n).map (fun segment => .line (some segment)) ++ [.waits] ∧
    call.reads.countP Sv1Read.positive
      ≤ segments[n]?.elim STRATUM_V1_MAX_JSON_LINE_SIZE List.length

/-- A first call that returned its line does not change which call waits. -/
theorem Starved.cons {calls : List Sv1Call} {segments : List (List U8)}
    {returned : List Sv1Return} (h : Starved calls segments returned) (call : Sv1Call)
    (segment : List U8) :
    Starved (call :: calls) (segment :: segments) (.line (some segment) :: returned) := by
  obtain ⟨n, waiting, hwaiting, hreturned, hcount⟩ := h
  refine ⟨n + 1, waiting, hwaiting, ?_, hcount⟩
  rw [hreturned]
  rfl

theorem receiveLines_waits {call : Sv1Call} (h : (r.receiveLine call).1 = .waits)
    (calls : List Sv1Call) : (r.receiveLines (call :: calls)).1 = [.waits] := by
  rw [receiveLines]
  cases hout : r.receiveLine call with
  | mk out next =>
    rw [hout] at h
    obtain rfl := h
    rfl

theorem receiveLines_line {call : Sv1Call} {text : Option (List U8)}
    (h : (r.receiveLine call).1 = .line text) (calls : List Sv1Call) :
    r.receiveLines (call :: calls)
      = (.line text :: ((r.receiveLine call).2.receiveLines calls).1,
          ((r.receiveLine call).2.receiveLines calls).2) := by
  rw [receiveLines]
  cases hout : r.receiveLine call with
  | mk out next =>
    rw [hout] at h
    obtain rfl := h
    rfl

/-- A line at the front of the stream is what the next call returns. -/
theorem receiveLines_cons {segment rest : List U8} (segments : List (List U8))
    (h : r.Ready) (hnul : r.NulFree)
    (hstream : r.data ++ r.stream = segment ++ 10#8 :: rest)
    (hseg : 10#8 ∉ segment ∧ segment.length ≤ STRATUM_V1_MAX_JSON_LINE_SIZE) {call : Sv1Call}
    (hcall : call.Prompt) (calls : List Sv1Call) :
    (Returns (r.receiveLine call) (some segment) rest ∧ (r.receiveLine call).2.NulFree) ∨
      Starved (call :: calls) (segment :: segments) (r.receiveLines (call :: calls)).1 := by
  obtain ⟨start, hsized, hstartNul, hsame, hline⟩ := receiveLine_prompt h hnul hcall
  rcases receiveLoop_segment hcall.reads hsized hstartNul (hsame.trans hstream) hseg.1 hseg.2 with
    hreturns | ⟨hwaits, hcount⟩
  · left
    rw [hline]
    refine ⟨hreturns, fun hbyte => hnul ?_⟩
    rw [hreturns.2] at hbyte
    rw [hstream]
    exact List.mem_append_right _ (List.mem_cons_of_mem _ hbyte)
  · right
    rw [← hline] at hwaits
    rw [receiveLines_waits hwaits]
    exact ⟨0, call, rfl, rfl, Nat.le_trans (Nat.le_add_left _ _) hcount⟩

/-- **Successive calls return the successive lines**; only a call that is given fewer
bytes than its line has still waits. -/
theorem receiveLines_framed {segments : List (List U8)} {rest : List U8} (h : r.Ready)
    (hok : r.TraceOk) (hnul : r.NulFree) (hstream : r.data ++ r.stream = framed segments ++ rest)
    (hsegs : ∀ segment ∈ segments,
      10#8 ∉ segment ∧ segment.length ≤ STRATUM_V1_MAX_JSON_LINE_SIZE)
    {calls : List Sv1Call} (hcalls : ∀ call ∈ calls, call.Prompt)
    (hlength : calls.length = segments.length) (later : List Sv1Call) :
    (∃ next : Sv1Receiver, next.Ready ∧ next.TraceOk ∧ next.NulFree ∧
        next.data ++ next.stream = rest ∧
        r.receiveLines (calls ++ later)
          = (segments.map (fun segment => .line (some segment)) ++ (next.receiveLines later).1,
              (next.receiveLines later).2)) ∨
      Starved (calls ++ later) segments (r.receiveLines (calls ++ later)).1 := by
  induction segments generalizing r calls with
  | nil =>
    obtain rfl := List.length_eq_zero_iff.mp hlength
    exact .inl ⟨r, h, hok, hnul, hstream, rfl⟩
  | cons segment segments ih =>
    obtain ⟨call, calls, rfl⟩ := List.exists_cons_of_length_eq_add_one hlength
    obtain ⟨hcall, hcalls⟩ := List.forall_mem_cons.mp hcalls
    obtain ⟨hseg, hsegs⟩ := List.forall_mem_cons.mp hsegs
    rw [framed_cons] at hstream
    rcases receiveLines_cons segments h hnul hstream hseg hcall (calls ++ later) with
      ⟨⟨hline, hrest⟩, hnextNul⟩ | hstarved
    · obtain ⟨hready, hreadyOk⟩ := receiveLine_ready h hok call
      have hlengths : calls.length = segments.length := Nat.succ.inj hlength
      rw [List.cons_append, receiveLines_line hline]
      rcases ih hready hreadyOk hnextNul hrest hsegs hcalls hlengths with
        ⟨next, hnext, hnextOk, hnul, hleft, hlines⟩ | hstarved
      · left
        refine ⟨next, hnext, hnextOk, hnul, hleft, ?_⟩
        rw [hlines]
        rfl
      · exact .inr (hstarved.cons call segment)
    · exact .inr hstarved

end Sv1Receiver

/-- **Line framing is exact and does not depend on the pieces.**  Whatever the calls, every
read asks for something and the buffer has room for what it holds and a terminator.  When
all reads and memory come in time, the calls return the lines of the stream one after
another, and for the first line that is too long NULL, with nothing left in the buffer;
only a call that was given fewer bytes than its line has still waits. -/
theorem sv1_lines_framed (r : Sv1Receiver) (hready : r.Ready) (hstart : r.trace = []) :
    (∀ calls, ∀ event ∈ (r.receiveLines calls).2.trace, event.Ok) ∧
    ∀ segments rest, r.NulFree → r.data ++ r.stream = Sv1Receiver.framed segments ++ rest →
      (∀ segment ∈ segments,
        10#8 ∉ segment ∧ segment.length ≤ STRATUM_V1_MAX_JSON_LINE_SIZE) →
      ∀ calls, (∀ call ∈ calls, call.Prompt) →
        (calls.length = segments.length →
          ((r.receiveLines calls).1 = segments.map (fun segment => .line (some segment)) ∧
            (r.receiveLines calls).2.data ++ (r.receiveLines calls).2.stream = rest) ∨
          Sv1Receiver.Starved calls segments (r.receiveLines calls).1) ∧
        (calls.length = segments.length + 1 → STRATUM_V1_MAX_JSON_LINE_SIZE < rest.length →
          10#8 ∉ rest.take (STRATUM_V1_MAX_JSON_LINE_SIZE + 1) →
          ((r.receiveLines calls).1
              = segments.map (fun segment => .line (some segment)) ++ [.line none] ∧
            (r.receiveLines calls).2.data = []) ∨
          Sv1Receiver.Starved calls segments (r.receiveLines calls).1) := by
  have hok : r.TraceOk := by
    intro event hevent
    rw [hstart] at hevent
    cases hevent
  refine ⟨fun calls => (Sv1Receiver.receiveLines_ready hready hok calls).2,
    fun segments rest hnul hstream hsegs calls hcalls => ⟨fun hlength => ?_,
      fun hlength hlong hnone => ?_⟩⟩
  · have hrun := Sv1Receiver.receiveLines_framed hready hok hnul hstream hsegs hcalls hlength []
    rw [List.append_nil] at hrun
    refine hrun.imp ?_ id
    rintro ⟨next, -, -, -, hleft, hlines⟩
    rw [hlines]
    exact ⟨List.append_nil _, hleft⟩
  · obtain ⟨before, last, rfl⟩ : ∃ before last, calls = before ++ [last] :=
      ⟨calls.dropLast, calls.getLast (List.ne_nil_of_length_eq_add_one hlength),
        (List.dropLast_append_getLast _).symm⟩
    have hbefore : before.length = segments.length := by
      rw [List.length_append] at hlength
      exact Nat.succ.inj hlength
    have hlast : last.Prompt := hcalls last (List.mem_append_right _ List.mem_cons_self)
    rcases Sv1Receiver.receiveLines_framed hready hok hnul hstream hsegs
      (fun call hcall => hcalls call (List.mem_append_left _ hcall)) hbefore [last] with
      ⟨next, hnext, -, hnextNul, hleft, hlines⟩ | hstarved
    · obtain ⟨start, hsized, hstartNul, hsame, hline⟩ :=
        Sv1Receiver.receiveLine_prompt hnext hnextNul hlast
      have hstream : start.data ++ start.stream = rest := hsame.trans hleft
      rw [← hstream] at hlong hnone
      rw [hlines]
      rcases Sv1Receiver.receiveLoop_long hlast.reads hsized hstartNul hlong hnone with
        ⟨hreturned, hempty⟩ | ⟨hwaits, hcount⟩
      · left
        rw [← hline] at hreturned hempty
        rw [Sv1Receiver.receiveLines_line hreturned]
        exact ⟨rfl, hempty⟩
      · right
        rw [← hline] at hwaits
        rw [Sv1Receiver.receiveLines_waits hwaits]
        refine ⟨segments.length, last, ?_, ?_, ?_⟩
        · rw [List.getElem?_append_right (Nat.le_of_eq hbefore), hbefore, Nat.sub_self]
          rfl
        · rw [List.take_length]
        · rw [List.getElem?_eq_none (Nat.le_refl _)]
          exact Nat.le_trans (Nat.le_add_left _ _) hcount
    · exact .inr hstarved

/-- A read at the start of time that gives so many bytes. -/
def promptRead (count : Nat) : Sv1Read := ⟨0, 0, .bytes count, true⟩

/-- Three lines and the beginning of a fourth, which no call has taken yet. -/
def threeLines : Sv1Receiver :=
  ⟨0, [], [123#8, 125#8, 10#8, 10#8, 91#8, 93#8, 10#8, 123#8], []⟩

/-- The second line is empty and comes with the first. -/
theorem sv1_lines_framed_of_threeLines :
    (threeLines.receiveLines
        [⟨0, true, true, [promptRead 1, promptRead 0, promptRead 4]⟩, ⟨5, true, true, []⟩,
          ⟨9, true, true, [promptRead 3]⟩]).1
      = [.line (some [123#8, 125#8]), .line (some []), .line (some [91#8, 93#8])] := by
  have hrun := ((sv1_lines_framed threeLines (.inl ⟨rfl, rfl⟩) rfl).2
    [[123#8, 125#8], [], [91#8, 93#8]] [123#8] (by unfold Sv1Receiver.NulFree; decide) rfl
    (by decide) [⟨0, true, true, [promptRead 1, promptRead 0, promptRead 4]⟩,
      ⟨5, true, true, []⟩, ⟨9, true, true, [promptRead 3]⟩] ?_).1 rfl
  · rcases hrun with hlines | ⟨n, call, -, hreturned, -⟩
    · exact hlines.1
    · have hwaits : Sv1Return.waits ∈ (threeLines.receiveLines
          [⟨0, true, true, [promptRead 1, promptRead 0, promptRead 4]⟩, ⟨5, true, true, []⟩,
            ⟨9, true, true, [promptRead 3]⟩]).1 :=
        hreturned ▸ List.mem_append_right _ List.mem_cons_self
      exact absurd hwaits (by decide)
  · have hread : ∀ start : Int, 0 ≤ start → ∀ count,
        (promptRead count).Prompt (start + SV1_RECEIVE_TIMEOUT_US) := by
      intro start hstart count
      have htimeout : SV1_RECEIVE_TIMEOUT_US = 180 * 1000000 := rfl
      refine ⟨?_, ?_, nofun, rfl⟩
      all_goals
        show (0 : Int) < _
        omega
    intro call hcall
    simp only [List.mem_cons, List.not_mem_nil, or_false] at hcall
    rcases hcall with rfl | rfl | rfl
    · refine ⟨rfl, rfl, fun read hmem => ?_⟩
      simp only [List.mem_cons, List.not_mem_nil, or_false] at hmem
      rcases hmem with rfl | rfl | rfl <;> exact hread 0 (by decide) _
    · exact ⟨rfl, rfl, nofun⟩
    · refine ⟨rfl, rfl, fun read hmem => ?_⟩
      obtain rfl := List.mem_singleton.mp hmem
      exact hread 9 (by decide) 3

end EspMiner
