import EspMiner.Main.LogBuffer

/-!
# The log ring is faithful to every reader

The writer, the flush task and any number of readers take the ring in turn, in any order.
`log_faithful` says what each of them gets, over every run:

* the log is what was written, byte for byte;
* a read gives the bytes of the log up to the first newline, all that there are and fit.  It starts
  where the reader asked if those bytes are retained, and else skips overwritten bytes and the rest
  of a line;
* a reader that keeps up has received the log from where it began, the whole of it when it is at
  the end, and reading on takes every reader to the end;
* a flush prints the next block, and the flushed, the dropped and the pending bytes are those
  written since the start;
* a restart finds a valid header, and with it the whole log.

One invariant carries all of it (`Holds`): the ring holds the end of the log, so that a read finds
the newlines and the bytes of the log wherever they are retained.  For stdout it is joined by the
position where the flushed and the dropped bytes end, and for each reader by the bytes received
since it last went to a position (`LogOk`).
-/

namespace EspMiner

open Library

theorem LOG_BUFFER_SIZE_pos : 0 < LOG_BUFFER_SIZE := by decide

namespace LogBuffer

variable {s : LogBuffer} {stream : List U8} {position n : Nat}

/-- The ring holds the end of the log. -/
structure Holds (s : LogBuffer) (stream : List U8) : Prop where
  total : s.header.totalWritten = stream.length
  retains : Ring.Retains LOG_BUFFER_SIZE s.buffer stream

/-! ## Newlines -/

/-- The newline that was found is the first one from the position on. -/
theorem Holds.newlineIndex_some (h : s.Holds stream) (hend : position + n ≤ stream.length)
    (hstart : stream.length ≤ position + LOG_BUFFER_SIZE) {i : Nat}
    (hindex : s.newlineIndex position n = some i) :
    i < n ∧ IsLine (slice stream position (i + 1)) ∧ newline ∉ slice stream position i := by
  obtain ⟨hfound, hmem, hbefore⟩ := List.find?_range_eq_some.mp hindex
  rw [List.mem_range] at hmem
  have hat {j : Nat} (hj : j < n) :
      s.buffer ((position + j) % LOG_BUFFER_SIZE) = stream[position + j] :=
    h.retains (position + j) (by omega) (by omega)
  have hnone : newline ∉ slice stream position i := by
    intro hnewline
    obtain ⟨j, hj, heq⟩ := exists_of_mem_slice hnewline (by omega)
    have hother := hbefore j hj
    rw [hat (by omega), heq] at hother
    simp at hother
  refine ⟨hmem, ⟨slice stream position i, ?_, hnone⟩, hnone⟩
  rw [slice_succ (by omega), ← hat hmem]
  rw [of_decide_eq_true hfound]

/-- Without a newline, there is none. -/
theorem Holds.newlineIndex_none (h : s.Holds stream) (hend : position + n ≤ stream.length)
    (hstart : stream.length ≤ position + LOG_BUFFER_SIZE)
    (hindex : s.newlineIndex position n = none) : newline ∉ slice stream position n := by
  intro hnewline
  obtain ⟨i, hi, heq⟩ := exists_of_mem_slice hnewline hend
  have hother := List.find?_eq_none.mp hindex i (List.mem_range.mpr hi)
  rw [h.retains (position + i) (by omega) (by omega), heq] at hother
  simp at hother

theorem throughNewline_of_line {text rest : List U8} (h : newline ∉ text) :
    throughNewline (text ++ newline :: rest) = text ++ [newline] := by
  rw [throughNewline, List.idxOf_append, if_neg h, List.idxOf_cons_self, Nat.zero_add,
    List.take_length_add_append, List.take_succ_cons, List.take_zero]

theorem throughNewline_of_notMem {bytes : List U8} (h : newline ∉ bytes) :
    throughNewline bytes = bytes := by
  rw [throughNewline, List.idxOf_eq_length h]
  exact List.take_of_length_le (Nat.le_succ _)

/-! ## Reads -/

/-- Where a read starts. -/
theorem Holds.readStart_cases (h : s.Holds stream) (reqPos : Nat) :
    (stream.length < reqPos ∧ s.readStart reqPos = stream.length) ∨
      (reqPos ≤ stream.length ∧ stream.length ≤ reqPos + LOG_BUFFER_SIZE ∧
        s.readStart reqPos = reqPos) ∨
      (reqPos + LOG_BUFFER_SIZE < stream.length ∧
        (s.readStart reqPos = stream.length - LOG_BUFFER_SIZE ∨
          (∃ i, s.readStart reqPos = stream.length - LOG_BUFFER_SIZE + (i + 1) ∧
            i < LOG_BUFFER_SIZE ∧
            IsLine (slice stream (stream.length - LOG_BUFFER_SIZE) (i + 1))))) := by
  unfold readStart
  rw [h.total]
  dsimp only
  split
  · next hfuture => exact .inl ⟨hfuture, rfl⟩
  · next hpast =>
    split
    · next hoverwritten =>
      refine .inr (.inr ⟨by omega, ?_⟩)
      split
      · next i hindex =>
        obtain ⟨hlt, hline, -⟩ := h.newlineIndex_some (by omega) (by omega) hindex
        exact .inr ⟨i, rfl, by omega, hline⟩
      · exact .inl rfl
    · exact .inr (.inl ⟨by omega, by omega, rfl⟩)

/-- How much is read, from a start that is retained. -/
theorem Holds.readLength_spec (h : s.Holds stream) {reqPos maxLen : Nat}
    (hle : reqPos ≤ stream.length) (hstart : stream.length ≤ reqPos + LOG_BUFFER_SIZE) :
    s.readLength reqPos maxLen ≤ maxLen ∧ reqPos + s.readLength reqPos maxLen ≤ stream.length ∧
      newline ∉ (slice stream reqPos (s.readLength reqPos maxLen)).dropLast ∧
      slice stream reqPos (s.readLength reqPos maxLen) =
        throughNewline (slice stream reqPos (min (stream.length - reqPos) maxLen)) := by
  unfold readLength
  rw [h.total]
  dsimp only
  split
  · next i hindex =>
    obtain ⟨hlt, ⟨text, htext, hline⟩, hnone⟩ := h.newlineIndex_some (by omega) hstart hindex
    refine ⟨by omega, by omega, ?_, ?_⟩
    · rw [slice_succ (by omega), List.dropLast_concat]
      exact hnone
    · have hsplit : slice stream reqPos (min (stream.length - reqPos) maxLen) =
          text ++ newline :: slice stream (reqPos + (i + 1))
            (min (stream.length - reqPos) maxLen - (i + 1)) := by
        rw [List.append_cons, ← htext, ← slice_add, Nat.add_sub_cancel' (by omega)]
      rw [hsplit, throughNewline_of_line hline, htext]
  · next hindex =>
    have hnone := h.newlineIndex_none (by omega) hstart hindex
    exact ⟨Nat.min_le_right _ _, by omega, fun hmem => hnone ((List.dropLast_subset _) hmem),
      (throughNewline_of_notMem hnone).symm⟩

/-- A read of something gives something. -/
theorem Holds.readLength_pos (h : s.Holds stream) {reqPos maxLen : Nat}
    (hlt : reqPos < stream.length) (hmax : 0 < maxLen) : 0 < s.readLength reqPos maxLen := by
  unfold readLength
  rw [h.total]
  dsimp only
  split <;> omega

/-- A read starts at bytes that are retained, or at the end. -/
theorem Holds.readStart_retained (h : s.Holds stream) (reqPos : Nat) :
    s.readStart reqPos ≤ stream.length ∧
      stream.length ≤ s.readStart reqPos + LOG_BUFFER_SIZE := by
  rcases h.readStart_cases reqPos with ⟨-, heq⟩ | ⟨hle, hge, heq⟩ | ⟨hlt, heq | ⟨i, heq, hi, -⟩⟩
  all_goals omega

/-- Every read tells the truth about the log. -/
theorem Holds.readOk (h : s.Holds stream) {reqPos maxLen : Nat} :
    ReadOk stream reqPos maxLen
      (s.readStart reqPos + s.readLength (s.readStart reqPos) maxLen)
      (Ring.read LOG_BUFFER_SIZE s.buffer (s.readStart reqPos)
        (s.readLength (s.readStart reqPos) maxLen)) := by
  have hstart := h.readStart_retained reqPos
  obtain ⟨hmax, hend, hline, hwhole⟩ : _ ≤ maxLen ∧ _ := h.readLength_spec hstart.1 hstart.2
  have hread := h.retains.read LOG_BUFFER_SIZE_pos hend hstart.2
  have hlength := length_slice hend
  generalize s.readLength (s.readStart reqPos) maxLen = n at hmax hend hline hwhole hread hlength ⊢
  rw [hread]
  have hposition : s.readStart reqPos + n - (slice stream (s.readStart reqPos) n).length =
      s.readStart reqPos := by
    rw [hlength, Nat.add_sub_cancel]
  have hcases := h.readStart_cases reqPos
  refine ⟨by omega, by omega, ?_, hline, ?_, fun hle hge => ?_, fun hle => ?_,
    fun hfuture => ?_, fun hskips hoverwritten => ?_⟩
  · rw [hposition, hlength]
  · rw [hposition]
    exact hwhole
  · rw [hposition]
    rcases hcases with ⟨hlt, heq⟩ | ⟨-, -, heq⟩ | ⟨hlt, -⟩
    all_goals omega
  · rw [hposition]
    rcases hcases with ⟨hlt, heq⟩ | ⟨-, -, heq⟩ | ⟨hlt, heq | ⟨i, heq, -, -⟩⟩
    all_goals omega
  · have hnil : n = 0 := by
      rcases hcases with ⟨hlt, heq⟩ | ⟨-, -, heq⟩ | ⟨hlt, -⟩
      all_goals omega
    rw [hnil]
    refine ⟨rfl, ?_⟩
    rcases hcases with ⟨hlt, heq⟩ | ⟨-, -, heq⟩ | ⟨hlt, -⟩
    all_goals omega
  · rw [hposition] at hskips ⊢
    rcases hcases with ⟨hlt, -⟩ | ⟨-, hge, -⟩ | ⟨hlt, heq | ⟨i, heq, -, hskip⟩⟩
    · omega
    · omega
    · omega
    · rw [heq, Nat.add_sub_cancel_left]
      exact hskip

theorem readOk_of_maxLen_zero (stream : List U8) (reqPos : Nat) :
    ReadOk stream reqPos 0 reqPos [] where
  length_le := Nat.le_refl _
  length_le_position := Nat.zero_le _
  eq_slice := rfl
  line := nofun
  whole := by rw [Nat.min_zero]; rfl
  retained := fun _ _ => rfl
  forward := fun _ => Nat.le_refl _
  future := fun hfuture => ⟨rfl, Nat.le_of_lt hfuture, Nat.le_refl _⟩
  skipped := fun hlt hgt => absurd hlt (Nat.lt_asymm hgt)

/-! ## Steps -/

/-- What holds between any two steps.  `first` are the positions that the readers
start from. -/
structure LogOk (start : List U8) (first : Nat → Nat) (s : LogBuffer) : Prop where
  holds : s.Holds (logStream start s.trace)
  stdoutPos : s.stdoutPos = start.length + stdoutBytes s.trace
  stdoutPos_le : s.stdoutPos ≤ s.header.totalWritten
  dropped : s.stdoutDroppedBytes = droppedBytes s.trace
  events : Throughout (LogEventOk start) s.trace
  readers : ∀ reader, KeepsUp start reader s.trace →
    received reader s.trace = slice (logStream start s.trace)
      (origin reader (first reader) s.trace) (received reader s.trace).length ∧
    s.positions reader =
      origin reader (first reader) s.trace + (received reader s.trace).length ∧
    (received reader s.trace = [] ∨ s.positions reader ≤ s.header.totalWritten)

variable {start : List U8} {first : Nat → Nat}

theorem Holds.ringWrite (h : s.Holds stream) {data : List U8}
    (hdata : data.length ≤ LOG_BUFFER_SIZE) : (s.ringWrite data).Holds (stream ++ data) := by
  unfold LogBuffer.ringWrite
  split
  · next hempty =>
    rw [hempty, List.append_nil]
    exact h
  · refine ⟨?_, ?_⟩
    · show s.header.totalWritten + data.length = _
      rw [h.total, List.length_append]
    · show Ring.Retains LOG_BUFFER_SIZE (Ring.write _ _ s.header.totalWritten data) _
      rw [h.total]
      exact h.retains.write hdata

/-- A written header is valid. -/
theorem valid_ringWrite (h : s.header.Valid) (data : List U8) :
    (s.ringWrite data).header.Valid := by
  unfold LogBuffer.ringWrite
  split
  · exact h
  · exact ⟨h.1, rfl⟩

theorem LogOk.ringWrite (h : LogOk start first s) {data : List U8}
    (hdata : data.length ≤ LOG_BUFFER_SIZE) : LogOk start first (s.ringWrite data) := by
  have hholds := h.holds.ringWrite hdata
  unfold LogBuffer.ringWrite at hholds ⊢
  split at hholds
  · next hempty =>
    rw [if_pos hempty]
    exact h
  · next hempty =>
    rw [if_neg hempty]
    have hstream : logStream start (.written data :: s.trace) = logStream start s.trace ++ data :=
      (List.append_assoc _ _ _).symm
    have hgrows : s.header.totalWritten ≤ s.header.totalWritten + data.length :=
      Nat.le_add_right _ _
    refine ⟨?_, h.stdoutPos, Nat.le_trans h.stdoutPos_le hgrows, h.dropped, ⟨trivial, h.events⟩,
      fun reader hkeeps => ?_⟩
    · show Holds _ (logStream start (.written data :: s.trace))
      rw [hstream]
      exact hholds
    · obtain ⟨hslice, hposition, hend⟩ := h.readers reader hkeeps
      refine ⟨?_, hposition, hend.imp_right fun hle => Nat.le_trans hle hgrows⟩
      show received reader s.trace = slice (logStream start (.written data :: s.trace))
        (origin reader (first reader) s.trace) (received reader s.trace).length
      rw [hstream]
      rcases hend with hnil | hle
      · rw [hnil]
        rfl
      · rw [slice_append]
        · exact hslice
        · rw [← h.holds.total, ← hposition]
          exact hle

/-- A read moves its reader behind what it read. -/
theorem readAbsolute_eq (h : s.Holds stream) (reader maxLen : Nat) :
    ∃ position bytes, ReadOk stream (s.positions reader) maxLen position bytes ∧
      s.readAbsolute reader maxLen =
        { s.record (.read reader (s.positions reader) maxLen position bytes) with
          positions := Function.update s.positions reader position } := by
  unfold readAbsolute
  dsimp only
  split
  · next hzero =>
    subst hzero
    refine ⟨_, _, readOk_of_maxLen_zero stream (s.positions reader), ?_⟩
    rw [Function.update_eq_self]
    rfl
  · exact ⟨_, _, h.readOk, rfl⟩

theorem slice_length_cases {bytes : List U8} {p : Nat} (h : bytes = slice stream p bytes.length) :
    bytes = [] ∨ p + bytes.length ≤ stream.length := by
  have hlength := congrArg List.length h
  rw [slice, List.length_take, List.length_drop] at hlength
  rcases Nat.eq_zero_or_pos bytes.length with hzero | hpos
  · exact .inl (List.eq_nil_of_length_eq_zero hzero)
  · exact .inr (by omega)

theorem LogOk.readAbsolute (h : LogOk start first s) (reader maxLen : Nat) :
    LogOk start first (s.readAbsolute reader maxLen) := by
  obtain ⟨position, bytes, hread, heq⟩ := readAbsolute_eq h.holds reader maxLen
  rw [heq]
  refine ⟨⟨h.holds.total, h.holds.retains⟩, h.stdoutPos, h.stdoutPos_le, h.dropped,
    ⟨hread, h.events⟩, fun other hkeeps => ?_⟩
  obtain ⟨hretained, hkeeps⟩ := hkeeps
  obtain ⟨hslice, hposition, hend⟩ := h.readers other hkeeps
  by_cases hother : reader = other
  · subst hother
    obtain ⟨hle, hge⟩ := hretained rfl
    have hstart := hread.retained hle hge
    have hbytes := hread.eq_slice
    have hnext : position = s.positions reader + bytes.length := by
      have := hread.length_le_position
      omega
    have hreceived : received reader (.read reader (s.positions reader) maxLen position bytes ::
        s.trace) = received reader s.trace ++ bytes := if_pos rfl
    show received reader (.read _ _ _ _ _ :: s.trace) = slice (logStream start s.trace)
        (origin reader (first reader) s.trace)
          (received reader (.read _ _ _ _ _ :: s.trace)).length ∧
      Function.update s.positions reader position reader =
        origin reader (first reader) s.trace +
          (received reader (.read _ _ _ _ _ :: s.trace)).length ∧
      (received reader (.read _ _ _ _ _ :: s.trace) = [] ∨
        Function.update s.positions reader position reader ≤ s.header.totalWritten)
    rw [hreceived, Function.update_self, List.length_append]
    rw [hstart] at hbytes
    refine ⟨?_, by omega, ?_⟩
    · rw [slice_add, ← hslice, ← hposition, ← hbytes]
    · rcases slice_length_cases hbytes with hnil | hlast
      · rw [hnil, List.append_nil]
        rw [hnil, List.length_nil] at hnext
        rw [hnext]
        exact hend
      · right
        rw [hnext, h.holds.total]
        exact hlast
  · have hreceived : received other (.read reader (s.positions reader) maxLen position bytes ::
        s.trace) = received other s.trace := if_neg hother
    show received other (.read _ _ _ _ _ :: s.trace) = slice (logStream start s.trace)
        (origin other (first other) s.trace) (received other (.read _ _ _ _ _ :: s.trace)).length ∧
      Function.update s.positions reader position other =
        origin other (first other) s.trace + (received other (.read _ _ _ _ _ :: s.trace)).length ∧
      (received other (.read _ _ _ _ _ :: s.trace) = [] ∨
        Function.update s.positions reader position other ≤ s.header.totalWritten)
    rw [hreceived, Function.update_of_ne (Ne.symm hother)]
    exact ⟨hslice, hposition, hend⟩

theorem LogOk.seek (h : LogOk start first s) (reader position : Nat) :
    LogOk start first (s.step (.seek reader position)) := by
  refine ⟨⟨h.holds.total, h.holds.retains⟩, h.stdoutPos, h.stdoutPos_le, h.dropped,
    ⟨trivial, h.events⟩, fun other hkeeps => ?_⟩
  show received other (.sought reader position :: s.trace) = slice (logStream start s.trace)
      (origin other (first other) (.sought reader position :: s.trace))
      (received other (.sought reader position :: s.trace)).length ∧
    Function.update s.positions reader position other =
      origin other (first other) (.sought reader position :: s.trace) +
        (received other (.sought reader position :: s.trace)).length ∧
    (received other (.sought reader position :: s.trace) = [] ∨
      Function.update s.positions reader position other ≤ s.header.totalWritten)
  by_cases hother : reader = other
  · subst hother
    rw [received, origin, if_pos rfl, if_pos rfl, Function.update_self]
    exact ⟨rfl, rfl, .inl rfl⟩
  · rw [received, origin, if_neg hother, if_neg hother, Function.update_of_ne (Ne.symm hother)]
    exact h.readers other (hkeeps.resolve_left hother)

theorem LogOk.dropOverwritten (h : LogOk start first s) :
    LogOk start first s.dropOverwritten ∧
      s.header.totalWritten ≤ s.dropOverwritten.stdoutPos + LOG_BUFFER_SIZE ∧
      s.dropOverwritten.header = s.header := by
  have hmin : min s.stdoutPos s.header.totalWritten = s.stdoutPos :=
    Nat.min_eq_left h.stdoutPos_le
  have htotal := h.holds.total
  have hpos := h.stdoutPos
  unfold LogBuffer.dropOverwritten
  dsimp only
  rw [hmin]
  split
  · next hoverwritten =>
    refine ⟨⟨⟨htotal, h.holds.retains⟩, ?_, Nat.sub_le _ _, ?_, ⟨?_, h.events⟩, h.readers⟩, ?_, rfl⟩
    · show s.header.totalWritten - LOG_BUFFER_SIZE = start.length + (stdoutBytes s.trace +
        (s.header.totalWritten - LOG_BUFFER_SIZE - s.stdoutPos))
      omega
    · exact congrArg (· + _) h.dropped
    · show start.length + stdoutBytes s.trace + _ + LOG_BUFFER_SIZE ≤ _
      omega
    · show s.header.totalWritten ≤ s.header.totalWritten - LOG_BUFFER_SIZE + LOG_BUFFER_SIZE
      omega
  · refine ⟨h, ?_, rfl⟩
    show s.header.totalWritten ≤ s.stdoutPos + LOG_BUFFER_SIZE
    omega

theorem LogOk.flushBlock (h : LogOk start first s)
    (hretained : s.header.totalWritten ≤ s.stdoutPos + LOG_BUFFER_SIZE) :
    LogOk start first s.flushBlock := by
  have htotal := h.holds.total
  have hpos := h.stdoutPos
  have hle := h.stdoutPos_le
  unfold LogBuffer.flushBlock
  dsimp only
  have hn : (if s.header.totalWritten - s.stdoutPos < FLUSH_BUF_SIZE
      then s.header.totalWritten - s.stdoutPos else FLUSH_BUF_SIZE) ≤
        s.header.totalWritten - s.stdoutPos := by
    split <;> omega
  generalize (if s.header.totalWritten - s.stdoutPos < FLUSH_BUF_SIZE
    then s.header.totalWritten - s.stdoutPos else FLUSH_BUF_SIZE) = n at hn
  split
  · have hend : s.stdoutPos + n ≤ (logStream start s.trace).length := by omega
    have hread := h.holds.retains.read LOG_BUFFER_SIZE_pos hend (by omega)
    have hlength : (Ring.read LOG_BUFFER_SIZE s.buffer s.stdoutPos n).length = n := by
      rw [hread, length_slice hend]
    refine ⟨⟨htotal, h.holds.retains⟩, ?_, ?_, h.dropped, ⟨?_, h.events⟩, h.readers⟩
    · show s.stdoutPos + n = start.length + (stdoutBytes s.trace +
        (Ring.read LOG_BUFFER_SIZE s.buffer s.stdoutPos n).length)
      omega
    · show s.stdoutPos + n ≤ s.header.totalWritten
      omega
    · show start.length + stdoutBytes s.trace +
          (Ring.read LOG_BUFFER_SIZE s.buffer s.stdoutPos n).length ≤ _ ∧
        Ring.read LOG_BUFFER_SIZE s.buffer s.stdoutPos n = _
      rw [hlength, ← hpos]
      exact ⟨hend, hread⟩
  · exact h

theorem LogOk.step (h : LogOk start first s) {input : Input}
    (hfits : input.Fits) : LogOk start first (s.step input) := by
  cases input with
  | write data => exact h.ringWrite hfits
  | read reader maxLen => exact h.readAbsolute reader maxLen
  | seek reader position => exact h.seek reader position
  | flush =>
    obtain ⟨hdropped, hretained, hheader⟩ := h.dropOverwritten
    exact hdropped.flushBlock (hheader ▸ hretained)

/-! ## Runs -/

/-- The memory at the start: a log that survived a restart, if the header says so. -/
def Preserved (header : LogBufferHeader) (buffer : Nat → U8) (stream : List U8) : Prop :=
  header.Valid → header.totalWritten = stream.length ∧
    Ring.Retains LOG_BUFFER_SIZE buffer stream

/-- The log when the flush task starts. -/
def bootStream (header : LogBufferHeader) (stream : List U8) : List U8 :=
  if header.Valid then stream ++ rebootMsg else []

theorem length_rebootMsg_le : rebootMsg.length ≤ LOG_BUFFER_SIZE := by decide

theorem logBufferInit_ok {header : LogBufferHeader} {buffer : Nat → U8} {stream : List U8}
    (h : Preserved header buffer stream) (positions : Nat → Nat) :
    LogOk (bootStream header stream) positions (logBufferInit header buffer positions) := by
  unfold logBufferInit bootStream
  dsimp only
  split
  · next hvalid =>
    obtain ⟨htotal, hretains⟩ := h hvalid
    have hstart : Holds
        { header := header
          buffer := buffer
          stdoutPos := 0
          stdoutDroppedBytes := 0
          positions := positions
          trace := [] } stream := ⟨htotal, hretains⟩
    have hholds := hstart.ringWrite length_rebootMsg_le
    refine ⟨⟨?_, ?_⟩, ?_, Nat.le_refl _, rfl, trivial, fun reader _ => ⟨rfl, rfl, .inl rfl⟩⟩
    · exact hholds.total.trans (congrArg List.length (List.append_nil _).symm)
    · rw [logStream, writtenBytes, List.append_nil]
      exact hholds.retains
    · exact hholds.total
  · exact ⟨⟨rfl, nofun⟩, rfl, Nat.le_refl _, rfl, trivial, fun _ _ => ⟨rfl, rfl, .inl rfl⟩⟩

theorem run_ok {header : LogBufferHeader} {buffer : Nat → U8} {stream : List U8}
    (hpreserved : Preserved header buffer stream) (positions : Nat → Nat) {inputs : List Input}
    (hfits : ∀ input ∈ inputs, input.Fits) :
    LogOk (bootStream header stream) positions
      (run step (logBufferInit header buffer positions) inputs) := by
  have hguarded : Guarded step (fun _ input => input.Fits) (logBufferInit header buffer positions)
      inputs := Guarded.of_forall _ (fun input hmem _ => hfits input hmem) _
  exact hguarded.invariant _ (fun _ _ hs hinput => hs.step hinput)
    (logBufferInit_ok hpreserved positions)

theorem valid_logBufferInit (header : LogBufferHeader) (buffer : Nat → U8)
    (positions : Nat → Nat) : (logBufferInit header buffer positions).header.Valid := by
  unfold logBufferInit
  dsimp only
  split
  · next hvalid => exact valid_ringWrite (by exact hvalid) rebootMsg
  · exact ⟨rfl, rfl⟩

theorem valid_step (h : s.header.Valid) (input : Input) : (s.step input).header.Valid := by
  cases input with
  | write data => exact valid_ringWrite h data
  | read reader maxLen =>
    show (s.readAbsolute reader maxLen).header.Valid
    unfold readAbsolute
    dsimp only
    split <;> exact h
  | seek reader position => exact h
  | flush =>
    show s.dropOverwritten.flushBlock.header.Valid
    have hdropped : s.dropOverwritten.header.Valid := by
      unfold dropOverwritten
      dsimp only
      split <;> exact h
    unfold flushBlock
    dsimp only
    split <;> split <;> exact hdropped

/-! ## The log over every run -/

/-- What a run leaves behind.  `start` is the log when the flush task starts, and
`first` are the positions that the readers start from. -/
structure Faithful (start : List U8) (first : Nat → Nat) (inputs : List Input)
    (s : LogBuffer) : Prop where
  /-- The log is what was written. -/
  written : writtenBytes s.trace = inputs.flatMap Input.data
  total : s.header.totalWritten = (logStream start s.trace).length
  /-- Every read, flush and report of dropped bytes told the truth. -/
  events : Throughout (LogEventOk start) s.trace
  stdout : stdoutBytes s.trace + (s.header.totalWritten - s.stdoutPos) =
    (writtenBytes s.trace).length
  dropped : s.stdoutDroppedBytes = droppedBytes s.trace
  /-- The next flush takes a whole block, and drops what is overwritten only. -/
  flush : (s.step .flush).stdoutPos = min s.header.totalWritten
    (max s.stdoutPos (s.header.totalWritten - LOG_BUFFER_SIZE) + FLUSH_BUF_SIZE)
  /-- A reader that keeps up has the log from where it began to where it is. -/
  reader : ∀ reader, KeepsUp start reader s.trace →
    received reader s.trace = slice (logStream start s.trace)
      (origin reader (first reader) s.trace) (received reader s.trace).length ∧
    s.positions reader = origin reader (first reader) s.trace + (received reader s.trace).length
  /-- At the end it has the whole of it. -/
  drained : ∀ reader, KeepsUp start reader s.trace → s.positions reader = s.header.totalWritten →
    received reader s.trace =
      (logStream start s.trace).drop (origin reader (first reader) s.trace)
  /-- Reads of any size but zero come to the end. -/
  drains : ∀ reader maxLen, 0 < maxLen → s.positions reader ≤ s.header.totalWritten →
    (run step s (List.replicate (s.header.totalWritten - s.positions reader)
      (.read reader maxLen))).positions reader = s.header.totalWritten
  /-- A restart finds a valid header and the whole log. -/
  survives : s.header.Valid ∧ Preserved s.header s.buffer (logStream start s.trace)

theorem flushBlock_stdoutPos (s : LogBuffer) (hle : s.stdoutPos ≤ s.header.totalWritten) :
    s.flushBlock.stdoutPos = min s.header.totalWritten (s.stdoutPos + FLUSH_BUF_SIZE) := by
  have hn : s.stdoutPos + (if s.header.totalWritten - s.stdoutPos < FLUSH_BUF_SIZE
      then s.header.totalWritten - s.stdoutPos else FLUSH_BUF_SIZE) =
        min s.header.totalWritten (s.stdoutPos + FLUSH_BUF_SIZE) := by
    split <;> omega
  unfold LogBuffer.flushBlock
  dsimp only
  rw [← hn]
  generalize (if s.header.totalWritten - s.stdoutPos < FLUSH_BUF_SIZE
    then s.header.totalWritten - s.stdoutPos else FLUSH_BUF_SIZE) = n
  rcases Nat.eq_zero_or_pos n with hzero | hpos
  · rw [hzero]
    rfl
  · rw [if_pos hpos]

theorem LogOk.flush_stdoutPos (h : LogOk start first s) :
    (s.step .flush).stdoutPos = min s.header.totalWritten
      (max s.stdoutPos (s.header.totalWritten - LOG_BUFFER_SIZE) + FLUSH_BUF_SIZE) := by
  obtain ⟨hdropped, -, hheader⟩ := h.dropOverwritten
  have hpos : s.dropOverwritten.stdoutPos =
      max s.stdoutPos (s.header.totalWritten - LOG_BUFFER_SIZE) := by
    unfold LogBuffer.dropOverwritten
    dsimp only
    rw [Nat.min_eq_left h.stdoutPos_le]
    split
    · next hoverwritten => exact (Nat.max_eq_right (Nat.le_of_lt hoverwritten.2)).symm
    · exact (Nat.max_eq_left (by omega : _ ≤ s.stdoutPos)).symm
  rw [← hpos, ← hheader]
  exact flushBlock_stdoutPos _ hdropped.stdoutPos_le

/-- A read moves its reader on, up to the end. -/
theorem LogOk.read_positions (h : LogOk start first s) {reader maxLen : Nat} (hmax : 0 < maxLen)
    (hle : s.positions reader ≤ s.header.totalWritten) :
    (s.readAbsolute reader maxLen).header = s.header ∧
      min s.header.totalWritten (s.positions reader + 1) ≤
        (s.readAbsolute reader maxLen).positions reader ∧
      (s.readAbsolute reader maxLen).positions reader ≤ s.header.totalWritten := by
  have hstart := h.holds.readStart_retained (s.positions reader)
  have hcases := h.holds.readStart_cases (s.positions reader)
  obtain ⟨-, hend, -⟩ : _ ≤ maxLen ∧ _ := h.holds.readLength_spec hstart.1 hstart.2
  have hlength := @Holds.readLength_pos _ _ h.holds (s.readStart (s.positions reader)) maxLen
  have htotal := h.holds.total
  have hmoves : (s.readAbsolute reader maxLen).positions reader = s.readStart (s.positions reader) +
      s.readLength (s.readStart (s.positions reader)) maxLen := by
    unfold LogBuffer.readAbsolute
    rw [if_neg (Nat.ne_of_gt hmax)]
    exact Function.update_self reader _ _
  have hheader : (s.readAbsolute reader maxLen).header = s.header := by
    unfold LogBuffer.readAbsolute
    rw [if_neg (Nat.ne_of_gt hmax)]
    rfl
  refine ⟨hheader, ?_, by omega⟩
  have hforward : s.positions reader ≤ s.readStart (s.positions reader) := by
    rcases hcases with ⟨hlt, -⟩ | ⟨-, -, heq⟩ | ⟨hlt, heq | ⟨i, heq, -, -⟩⟩
    all_goals omega
  rcases Nat.lt_or_ge (s.readStart (s.positions reader))
    (logStream start s.trace).length with hlt | hge
  · have hsome := hlength hlt hmax
    omega
  · omega

/-- Reads drain the log, at least one byte each. -/
theorem LogOk.drains {reader maxLen : Nat} (hmax : 0 < maxLen) (n : Nat) {s : LogBuffer}
    (h : LogOk start first s) (hle : s.positions reader ≤ s.header.totalWritten)
    (hn : s.header.totalWritten - s.positions reader ≤ n) :
    (run LogBuffer.step s (List.replicate n (.read reader maxLen))).positions reader =
      s.header.totalWritten := by
  induction n generalizing s with
  | zero =>
    show s.positions reader = s.header.totalWritten
    omega
  | succ n ih =>
    obtain ⟨hheader, hmoves, hend⟩ := h.read_positions hmax hle
    have hless : s.header.totalWritten - (s.readAbsolute reader maxLen).positions reader ≤ n := by
      omega
    rw [← hheader] at hend hless ⊢
    exact ih (h.readAbsolute reader maxLen) hend hless

/-- A step logs what its input writes. -/
theorem writtenBytes_step (s : LogBuffer) (input : Input) :
    writtenBytes (s.step input).trace = writtenBytes s.trace ++ input.data := by
  cases input with
  | write data =>
    show writtenBytes (s.ringWrite data).trace = writtenBytes s.trace ++ data
    unfold LogBuffer.ringWrite
    split
    · next hempty => rw [hempty, List.append_nil]
    · rfl
  | read reader maxLen =>
    show writtenBytes (s.readAbsolute reader maxLen).trace = writtenBytes s.trace ++ []
    unfold readAbsolute
    dsimp only
    split <;> exact (List.append_nil _).symm
  | seek reader position => exact (List.append_nil _).symm
  | flush =>
    show writtenBytes s.dropOverwritten.flushBlock.trace = writtenBytes s.trace ++ []
    have hdropped : writtenBytes s.dropOverwritten.trace = writtenBytes s.trace := by
      unfold dropOverwritten
      dsimp only
      split <;> rfl
    rw [List.append_nil, ← hdropped]
    unfold LogBuffer.flushBlock
    dsimp only
    split <;> split <;> rfl

theorem writtenBytes_run (s : LogBuffer) (inputs : List Input) :
    writtenBytes (run step s inputs).trace = writtenBytes s.trace ++ inputs.flatMap Input.data := by
  induction inputs generalizing s with
  | nil => exact (List.append_nil _).symm
  | cons input inputs ih =>
    show writtenBytes (run step (s.step input) inputs).trace = _
    rw [ih, writtenBytes_step, List.append_assoc, List.flatMap_cons]

theorem writtenBytes_logBufferInit (header : LogBufferHeader) (buffer : Nat → U8)
    (positions : Nat → Nat) : writtenBytes (logBufferInit header buffer positions).trace = [] := by
  unfold logBufferInit
  dsimp only
  split <;> rfl

/-- **The log ring is faithful to every reader**, and to stdout. -/
theorem log_faithful {header : LogBufferHeader} {buffer : Nat → U8} {stream : List U8}
    (hpreserved : Preserved header buffer stream) (positions : Nat → Nat) (inputs : List Input)
    (hfits : ∀ input ∈ inputs, input.Fits) :
    Faithful (bootStream header stream) positions inputs
      (run step (logBufferInit header buffer positions) inputs) := by
  have hs := run_ok hpreserved positions hfits
  have htotal := hs.holds.total
  have hvalid : (run step (logBufferInit header buffer positions) inputs).header.Valid :=
    run_invariant step (P := fun s => s.header.Valid)
      (fun _ input hvalid => valid_step hvalid input)
      (valid_logBufferInit header buffer positions) inputs
  refine ⟨?_, htotal, hs.events, ?_, hs.dropped, hs.flush_stdoutPos, fun reader hkeeps => ?_,
    fun reader hkeeps hdrained => ?_, fun reader maxLen hmax hle => ?_,
    hvalid, fun _ => ⟨htotal, hs.holds.retains⟩⟩
  · rw [writtenBytes_run, writtenBytes_logBufferInit, List.nil_append]
  · have hpos := hs.stdoutPos
    have hle := hs.stdoutPos_le
    rw [logStream, List.length_append] at htotal
    omega
  · obtain ⟨hslice, hposition, -⟩ := hs.readers reader hkeeps
    exact ⟨hslice, hposition⟩
  · obtain ⟨hslice, hposition, -⟩ := hs.readers reader hkeeps
    refine hslice.trans (List.take_of_length_le ?_)
    rw [List.length_drop]
    omega
  · exact hs.drains hmax _ hle (Nat.le_refl _)

/-- A line and the beginning of the next are logged, and read in two reads. -/
theorem log_faithful_of_line :
    let s := run step (logBufferInit ⟨0, 0, 0⟩ (fun _ => 0) fun _ => 0)
      [.write [72, newline, 73], .read 0 64, .flush, .read 0 64]
    received 0 s.trace = [72, newline, 73] ∧ s.positions 0 = 3 ∧
      writtenBytes s.trace = [72, newline, 73] ∧
      stdoutBytes s.trace + (s.header.totalWritten - s.stdoutPos) = 3 := by
  intro s
  have hfaithful := @log_faithful ⟨0, 0, 0⟩ (fun _ => 0) []
    (fun hvalid => absurd hvalid (by decide)) (fun _ => 0)
    [.write [72, newline, 73], .read 0 64, .flush, .read 0 64] (by decide)
  have hposition : s.positions 0 = 3 := by decide +kernel
  have hkeeps : KeepsUp (bootStream ⟨0, 0, 0⟩ []) 0 s.trace :=
    ⟨fun _ => by decide +kernel, fun _ => by decide +kernel, trivial⟩
  have hreceived := hfaithful.drained 0 hkeeps (by decide +kernel)
  exact ⟨hreceived.trans (by decide +kernel), hposition, hfaithful.written, hfaithful.stdout⟩

end LogBuffer

end EspMiner
