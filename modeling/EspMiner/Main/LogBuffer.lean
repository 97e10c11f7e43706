import EspMiner.Library.Ring
import EspMiner.Library.Run
import EspMiner.Stratum.Work
import Mathlib.Logic.Function.Basic

/-!
# The log buffer

`main/log_buffer.c`: a ring in memory that survives a restart, its writer, the
task that flushes it to stdout, and readers that come with positions of their own.
A section under the mutex is one step.  Positions count the bytes of the log, fewer
than 2^64, and are natural numbers here.
-/

namespace EspMiner

open Library

def LOG_BUFFER_SIZE : Nat := 512 * 1024

def LOG_BUFFER_MAGIC : U32 := 0xB17A5E10

/-- `sizeof(flush_buf)` -/
def FLUSH_BUF_SIZE : Nat := 512

def newline : U8 := 10

/-- `"\\n--- SYSTEM RESTART ---\\n"` -/
def rebootMsg : List U8 :=
  newline :: ("--- SYSTEM RESTART ---".toList.map fun c => BitVec.ofNat 8 c.toNat) ++ [newline]

/-- `log_buffer_header_t` -/
structure LogBufferHeader where
  magic : U32
  checksum : U32
  totalWritten : Nat
deriving DecidableEq, Repr

/-- What happened.  A reader asks at one position and is left at another. -/
inductive LogEvent where
  | written (data : List U8)
  | read (reader requested maxLen position : Nat) (bytes : List U8)
  | sought (reader position : Nat)
  | dropped (bytes : Nat)
  | flushed (bytes : List U8)
deriving DecidableEq, Repr

structure LogBuffer where
  header : LogBufferHeader
  buffer : Nat → U8
  stdoutPos : Nat
  stdoutDroppedBytes : Nat
  positions : Nat → Nat
  trace : List LogEvent

/-- `calculate_header_checksum` -/
def LogBufferHeader.calculateChecksum (h : LogBufferHeader) : U32 :=
  h.magic ^^^ BitVec.ofNat 32 h.totalWritten ^^^ BitVec.ofNat 32 (h.totalWritten / 2 ^ 32)

/-- The test of `log_buffer_init` for a log that survived. -/
def LogBufferHeader.Valid (h : LogBufferHeader) : Prop :=
  h.magic = LOG_BUFFER_MAGIC ∧ h.checksum = h.calculateChecksum

instance (h : LogBufferHeader) : Decidable h.Valid := inferInstanceAs (Decidable (_ ∧ _))

namespace LogBuffer

def record (s : LogBuffer) (event : LogEvent) : LogBuffer :=
  { s with trace := event :: s.trace }

/-- `ring_write` -/
def ringWrite (s : LogBuffer) (data : List U8) : LogBuffer :=
  if data = [] then s
  else
    let header := { s.header with totalWritten := s.header.totalWritten + data.length }
    { s.record (.written data) with
      buffer := Ring.write LOG_BUFFER_SIZE s.buffer s.header.totalWritten data
      header := { header with checksum := header.calculateChecksum } }

/-- The index of the first newline among the `n` bytes from a position on. -/
def newlineIndex (s : LogBuffer) (position n : Nat) : Option Nat :=
  (List.range n).find? fun i => s.buffer ((position + i) % LOG_BUFFER_SIZE) = newline

/-- The position where `log_buffer_read_absolute` starts: behind the end it is
the end, and for overwritten bytes the next line, which is looked for in 4 KB. -/
def readStart (s : LogBuffer) (reqPos : Nat) : Nat :=
  let total := s.header.totalWritten
  if total < reqPos then total
  else if LOG_BUFFER_SIZE ≤ total ∧ reqPos < total - LOG_BUFFER_SIZE then
    let reqPos := total - LOG_BUFFER_SIZE
    match s.newlineIndex reqPos (min (total - reqPos) 4096) with
    | some i => reqPos + (i + 1)
    | none => reqPos
  else reqPos

/-- The number of bytes that `log_buffer_read_absolute` reads. -/
def readLength (s : LogBuffer) (reqPos maxLen : Nat) : Nat :=
  let toRead := min (s.header.totalWritten - reqPos) maxLen
  match s.newlineIndex reqPos toRead with
  | some i => i + 1
  | none => toRead

/-- `log_buffer_read_absolute` of a reader -/
def readAbsolute (s : LogBuffer) (reader maxLen : Nat) : LogBuffer :=
  let absPos := s.positions reader
  if maxLen = 0 then s.record (.read reader absPos maxLen absPos [])
  else
    let reqPos := s.readStart absPos
    let toRead := s.readLength reqPos maxLen
    let bytes := Ring.read LOG_BUFFER_SIZE s.buffer reqPos toRead
    { s.record (.read reader absPos maxLen (reqPos + toRead) bytes) with
      positions := Function.update s.positions reader (reqPos + toRead) }

/-- The bytes that were overwritten before `stdout_flush_task` got to them are
reported as dropped. -/
def dropOverwritten (s : LogBuffer) : LogBuffer :=
  let total := s.header.totalWritten
  let stdoutPos := min s.stdoutPos total
  if LOG_BUFFER_SIZE ≤ total ∧ stdoutPos < total - LOG_BUFFER_SIZE then
    let droppedNow := (total - LOG_BUFFER_SIZE) - stdoutPos
    { s.record (.dropped droppedNow) with
      stdoutDroppedBytes := s.stdoutDroppedBytes + droppedNow
      stdoutPos := total - LOG_BUFFER_SIZE }
  else { s with stdoutPos := stdoutPos }

/-- The next bytes for stdout, as many as `flush_buf` takes. -/
def flushBlock (s : LogBuffer) : LogBuffer :=
  let available := s.header.totalWritten - s.stdoutPos
  let readBytes := if available < FLUSH_BUF_SIZE then available else FLUSH_BUF_SIZE
  if 0 < readBytes then
    { s.record (.flushed (Ring.read LOG_BUFFER_SIZE s.buffer s.stdoutPos readBytes)) with
      stdoutPos := s.stdoutPos + readBytes }
  else s

/-- The section of `stdout_flush_task`, with what the task prints after it. -/
def stdoutFlush (s : LogBuffer) : LogBuffer := s.dropOverwritten.flushBlock

/-- `log_buffer_init`: a valid header keeps the log, and a restart is logged. -/
def logBufferInit (header : LogBufferHeader) (buffer : Nat → U8) (positions : Nat → Nat) :
    LogBuffer :=
  let s : LogBuffer :=
    { header := header
      buffer := buffer
      stdoutPos := 0
      stdoutDroppedBytes := 0
      positions := positions
      trace := [] }
  if header.Valid then
    let s := s.ringWrite rebootMsg
    { s with stdoutPos := s.header.totalWritten, trace := [] }
  else
    let header : LogBufferHeader := { magic := LOG_BUFFER_MAGIC, checksum := 0, totalWritten := 0 }
    { s with
      buffer := fun _ => 0
      header := { header with checksum := header.calculateChecksum } }

/-- A write, a read, a reader that goes to another position, or a flush. -/
inductive Input where
  | write (data : List U8)
  | read (reader maxLen : Nat)
  | seek (reader position : Nat)
  | flush

/-- A write is no longer than the ring. -/
def Input.Fits : Input → Prop
  | .write data => data.length ≤ LOG_BUFFER_SIZE
  | .read _ _ | .seek _ _ | .flush => True

instance (input : Input) : Decidable input.Fits :=
  match input with
  | .write data => inferInstanceAs (Decidable (data.length ≤ LOG_BUFFER_SIZE))
  | .read _ _ | .seek _ _ | .flush => .isTrue trivial

/-- What an input adds to the log. -/
def Input.data : Input → List U8
  | .write data => data
  | .read _ _ | .seek _ _ | .flush => []

def step (s : LogBuffer) : Input → LogBuffer
  | .write data => s.ringWrite data
  | .read reader maxLen => s.readAbsolute reader maxLen
  | .seek reader position =>
      { s.record (.sought reader position) with
        positions := Function.update s.positions reader position }
  | .flush => s.stdoutFlush

end LogBuffer

/-! ## The log and what is made of it -/

/-- The bytes written. -/
def writtenBytes : List LogEvent → List U8
  | [] => []
  | .written data :: older => writtenBytes older ++ data
  | .read _ _ _ _ _ :: older | .sought _ _ :: older | .dropped _ :: older | .flushed _ :: older =>
      writtenBytes older

/-- The bytes that were flushed or reported as dropped. -/
def stdoutBytes : List LogEvent → Nat
  | [] => 0
  | .flushed bytes :: older => stdoutBytes older + bytes.length
  | .dropped n :: older => stdoutBytes older + n
  | .written _ :: older | .read _ _ _ _ _ :: older | .sought _ _ :: older => stdoutBytes older

def droppedBytes : List LogEvent → Nat
  | [] => 0
  | .dropped n :: older => droppedBytes older + n
  | .flushed _ :: older | .written _ :: older | .read _ _ _ _ _ :: older | .sought _ _ :: older =>
      droppedBytes older

/-- The log after a history: what was there at the start, and what was written. -/
def logStream (start : List U8) (trace : List LogEvent) : List U8 := start ++ writtenBytes trace

/-- A line, with its newline at the end only. -/
def IsLine (bytes : List U8) : Prop := ∃ text, bytes = text ++ [newline] ∧ newline ∉ text

/-- The bytes up to the first newline, or all of them. -/
def throughNewline (bytes : List U8) : List U8 := bytes.take (bytes.idxOf newline + 1)

/-- What a read promises: its bytes are those of the log before the position that it
leaves, and end with the first newline if they have one.  It gives all that there is
and fits, up to that newline.  The bytes start where the reader asked if they are
retained, and behind the end there are none.  Else only overwritten bytes are
skipped, and the rest of a line. -/
structure ReadOk (stream : List U8) (requested maxLen position : Nat) (bytes : List U8) : Prop where
  length_le : bytes.length ≤ maxLen
  length_le_position : bytes.length ≤ position
  eq_slice : bytes = slice stream (position - bytes.length) bytes.length
  line : newline ∉ bytes.dropLast
  whole : bytes = throughNewline (slice stream (position - bytes.length)
    (min (stream.length - (position - bytes.length)) maxLen))
  retained : requested ≤ stream.length → stream.length ≤ requested + LOG_BUFFER_SIZE →
    position - bytes.length = requested
  forward : requested ≤ stream.length → requested ≤ position - bytes.length
  future : stream.length < requested →
    bytes = [] ∧ stream.length ≤ position ∧ position ≤ requested
  skipped : stream.length - LOG_BUFFER_SIZE < position - bytes.length →
    requested < stream.length - LOG_BUFFER_SIZE →
    IsLine (slice stream (stream.length - LOG_BUFFER_SIZE)
      (position - bytes.length - (stream.length - LOG_BUFFER_SIZE)))

/-- Every event tells the truth about the log.  stdout started at the end of
`start`; what it drops is overwritten. -/
def LogEventOk (start : List U8) (event : LogEvent) (older : List LogEvent) : Prop :=
  match event with
  | .written _ | .sought _ _ => True
  | .read _ requested maxLen position bytes =>
      ReadOk (logStream start older) requested maxLen position bytes
  | .flushed bytes =>
      start.length + stdoutBytes older + bytes.length ≤ (logStream start older).length ∧
        bytes = slice (logStream start older) (start.length + stdoutBytes older) bytes.length
  | .dropped n =>
      start.length + stdoutBytes older + n + LOG_BUFFER_SIZE ≤ (logStream start older).length

/-- The bytes that a reader has read since it last went to a position. -/
def received (reader : Nat) : List LogEvent → List U8
  | [] => []
  | .sought other _ :: older => if other = reader then [] else received reader older
  | .read other _ _ _ bytes :: older =>
      if other = reader then received reader older ++ bytes else received reader older
  | .written _ :: older | .dropped _ :: older | .flushed _ :: older => received reader older

/-- The position that a reader last went to. -/
def origin (reader first : Nat) : List LogEvent → Nat
  | [] => first
  | .sought other position :: older =>
      if other = reader then position else origin reader first older
  | .read _ _ _ _ _ :: older | .written _ :: older | .dropped _ :: older | .flushed _ :: older =>
      origin reader first older

/-- Since the reader last went to a position, the bytes that it asked for were
always retained. -/
def KeepsUp (start : List U8) (reader : Nat) : List LogEvent → Prop
  | [] => True
  | .sought other _ :: older => other = reader ∨ KeepsUp start reader older
  | .read other requested _ _ _ :: older =>
      (other = reader → requested ≤ (logStream start older).length ∧
        (logStream start older).length ≤ requested + LOG_BUFFER_SIZE) ∧
      KeepsUp start reader older
  | .written _ :: older | .dropped _ :: older | .flushed _ :: older => KeepsUp start reader older

end EspMiner
