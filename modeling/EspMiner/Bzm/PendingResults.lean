import EspMiner.Bzm.RegisterRepliesRuns
import EspMiner.Library.DropOldest

/-!
# Pending results

The transport keeps the decoded results in a ring until they are dequeued.  The ring is a queue
that drops its oldest result when it is full; discarding and resetting begin a new period.  So in
each period the results come out in the order of their frames, and the dropped ones are counted,
modulo the width of the counter.
-/

namespace EspMiner

open Library BzmFrameParser

/-- The result that a frame carries, if the transport takes it. -/
def BzmFrame.decodedResult (frame : BzmFrame) : Option BzmRawResult :=
  if frame.type = .result ∧ addressedAsic frame.asicId = true then
    (bzmResultDecode frame.payload frame.timestampUs).map fun result =>
      { result with asicId := frame.asicId }
  else none

/-- The results in the ring, the oldest first. -/
def BzmSerialIo.queuedResults (io : BzmSerialIo) : List BzmRawResult :=
  RingQueue.contents BZM_PENDING_RESULT_COUNT io.pendingResults io.pendingResultHead
    io.pendingResultLength

/-- What becomes of the results of a period, and how many were dropped in the periods
before it since the counters were reset. -/
structure ResultFifo where
  queue : DropOldest BZM_PENDING_RESULT_COUNT BzmRawResult
  earlierDrops : Nat

namespace ResultFifo

def init : ResultFifo := ⟨.empty, 0⟩

/-- The results dropped since the counters were reset. -/
def drops (fifo : ResultFifo) : Nat := fifo.earlierDrops + fifo.queue.drops

/-- A frame arrives. -/
def receive (fifo : ResultFifo) (frame : BzmFrame) : ResultFifo :=
  match frame.decodedResult with
  | none => fifo
  | some result => { fifo with queue := fifo.queue.push result }

/-- What an operation does to the results, with the frames that the parser emits
during it. -/
def step (fifo : ResultFifo) (frames : List BzmFrame) : BzmSerialOp → ResultFifo
  | .ingestBytes _ _ => frames.foldl receive fifo
  | .dequeueResult => { fifo with queue := fifo.queue.pop }
  | .discardPendingResults => ⟨.empty, fifo.drops⟩
  | .resetIoState _ resetCounters => ⟨.empty, if resetCounters then 0 else fifo.drops⟩
  | _ => fifo

end ResultFifo

/-- The transport with the frames ingested and the results dequeued in the current
period, and the queue that it is meant to be. -/
structure SerialResults where
  io : BzmSerialIo
  ingested : List BzmFrame
  dequeued : List BzmRawResult
  fifo : ResultFifo

namespace SerialResults

def init : SerialResults := ⟨BzmSerialIo.init, [], [], ResultFifo.init⟩

/-- The frames ingested in the period, once an operation has emitted `frames`. -/
def ingestedAfter (s : SerialResults) (frames : List BzmFrame) : BzmSerialOp → List BzmFrame
  | .ingestBytes _ _ => s.ingested ++ frames
  | .discardPendingResults => []
  | .resetIoState _ _ => []
  | _ => s.ingested

/-- The results dequeued in the period. -/
def dequeuedAfter (s : SerialResults) : BzmSerialOp → List BzmRawResult
  | .dequeueResult => s.dequeued ++ s.io.dequeueResult.1.toList
  | .discardPendingResults => []
  | .resetIoState _ _ => []
  | _ => s.dequeued

/-- One operation.  A discard or a reset begins a period. -/
def step (readings : BzmTelemetryReadings) (s : SerialResults) (op : BzmSerialOp) :
    SerialResults where
  io := s.io.step readings op
  ingested := s.ingestedAfter (emittedSince s.io.parser (s.io.step readings op).parser) op
  dequeued := s.dequeuedAfter op
  fifo := s.fifo.step (emittedSince s.io.parser (s.io.step readings op).parser) op

/-- The ring is the queue: it has the results of the frames, less those that were
dequeued and, in a full ring, the oldest. -/
structure Queued (s : SerialResults) : Prop where
  head : s.io.pendingResultHead < BZM_PENDING_RESULT_COUNT
  arrived : s.fifo.queue.arrived = s.ingested.filterMap BzmFrame.decodedResult
  taken : s.fifo.queue.taken = s.dequeued
  queued : s.io.queuedResults = s.fifo.queue.queued
  dropped : s.io.droppedResults = BitVec.ofNat 32 s.fifo.drops

end SerialResults

/-- The fields of the ring. -/
structure BzmSerialIo.SameRing (io io' : BzmSerialIo) : Prop where
  cells : io'.pendingResults = io.pendingResults
  head : io'.pendingResultHead = io.pendingResultHead
  length : io'.pendingResultLength = io.pendingResultLength
  dropped : io'.droppedResults = io.droppedResults

namespace SerialResults.Queued

variable {readings : BzmTelemetryReadings} {io io' : BzmSerialIo} {ingested : List BzmFrame}
  {dequeued : List BzmRawResult} {fifo : ResultFifo}

theorem length_eq (h : Queued ⟨io, ingested, dequeued, fifo⟩) :
    io.pendingResultLength = fifo.queue.queued.length := by
  have hlength := congrArg List.length h.queued
  rwa [BzmSerialIo.queuedResults, RingQueue.length_contents] at hlength

theorem length_le (h : Queued ⟨io, ingested, dequeued, fifo⟩) :
    io.pendingResultLength ≤ BZM_PENDING_RESULT_COUNT := by
  rw [h.length_eq]
  exact fifo.queue.bounded

/-- Only the ring counts. -/
theorem congr (h : Queued ⟨io, ingested, dequeued, fifo⟩) (hring : io.SameRing io') :
    Queued ⟨io', ingested, dequeued, fifo⟩ where
  head := by
    simp only [hring.head]
    exact h.head
  arrived := h.arrived
  taken := h.taken
  queued := by
    simp only [BzmSerialIo.queuedResults, hring.cells, hring.head, hring.length]
    exact h.queued
  dropped := hring.dropped.trans h.dropped

/-! ### Frames -/

/-- A result frame of an addressed ASIC is queued. -/
theorem handle_some {frame : BzmFrame} {result : BzmRawResult}
    (h : frame.decodedResult = some result) :
    io.transportFrameHandler readings frame = io.queueResult result := by
  unfold BzmFrame.decodedResult at h
  split at h
  · next haddressed =>
    obtain ⟨decoded, hdecoded, rfl⟩ := Option.map_eq_some_iff.mp h
    simp [BzmSerialIo.transportFrameHandler, BzmSerialIo.handleResult, haddressed, hdecoded]
  · cases h

/-- Every other frame leaves the ring alone. -/
theorem handle_none {frame : BzmFrame} (h : frame.decodedResult = none) :
    io.SameRing (io.transportFrameHandler readings frame) := by
  unfold BzmSerialIo.transportFrameHandler
  cases htype : frame.type with
  | result =>
    simp only [BzmSerialIo.handleResult]
    split
    · exact ⟨rfl, rfl, rfl, rfl⟩
    · next haddressed =>
      simp only [BzmFrame.decodedResult, htype, Bool.not_eq_false] at h haddressed
      rw [if_pos ⟨trivial, haddressed⟩, Option.map_eq_none_iff] at h
      rw [h]
      exact ⟨rfl, rfl, rfl, rfl⟩
  | register =>
    simp only [BzmSerialIo.handleRegister]
    split <;> exact ⟨rfl, rfl, rfl, rfl⟩
  | telemetry =>
    simp only [BzmSerialIo.handleTelemetry]
    split <;> exact ⟨rfl, rfl, rfl, rfl⟩
  | noop =>
    simp only [BzmSerialIo.handleNoop]
    split
    · exact ⟨rfl, rfl, rfl, rfl⟩
    · split <;> exact ⟨rfl, rfl, rfl, rfl⟩

theorem queueResult (h : Queued ⟨io, ingested, dequeued, fifo⟩) {frame : BzmFrame}
    {result : BzmRawResult} (hcarried : frame.decodedResult = some result) :
    Queued ⟨io.queueResult result, ingested ++ [frame], dequeued,
      { fifo with queue := fifo.queue.push result }⟩ := by
  have hlength := h.length_eq
  have hqueued : RingQueue.contents BZM_PENDING_RESULT_COUNT io.pendingResults
      io.pendingResultHead io.pendingResultLength = fifo.queue.queued := h.queued
  have harrived : (fifo.queue.push result).arrived =
      (ingested ++ [frame]).filterMap BzmFrame.decodedResult := by
    rw [DropOldest.arrived_push, List.filterMap_append, h.arrived]
    simp [hcarried]
  have htaken : (fifo.queue.push result).taken = dequeued :=
    (DropOldest.taken_push _ _).trans h.taken
  by_cases hfull : io.pendingResultLength = BZM_PENDING_RESULT_COUNT
  · have hfull' : fifo.queue.queued.length = BZM_PENDING_RESULT_COUNT := hlength.symm.trans hfull
    have hpos : 0 < io.pendingResultLength := by rw [hfull]; decide
    -- the oldest result makes room
    have hcontents : RingQueue.contents BZM_PENDING_RESULT_COUNT
        (Function.update io.pendingResults
          (((io.pendingResultHead + 1) % BZM_PENDING_RESULT_COUNT + (io.pendingResultLength - 1)) %
            BZM_PENDING_RESULT_COUNT) result)
        ((io.pendingResultHead + 1) % BZM_PENDING_RESULT_COUNT) (io.pendingResultLength - 1 + 1) =
        fifo.queue.queued.drop 1 ++ [result] := by
      rw [RingQueue.contents_append (by omega), RingQueue.contents_advance hpos, hqueued]
    simp only [BzmSerialIo.queueResult, if_pos hfull]
    refine ⟨Nat.mod_lt _ (by decide), harrived, htaken, ?_, ?_⟩
    · simp only [BzmSerialIo.queuedResults]
      rw [hcontents, DropOldest.queued_push_of_full hfull',
        List.drop_append_of_le_length (by rw [hfull']; decide)]
    · simp only [ResultFifo.drops, DropOldest.drops_push_of_full hfull', ← Nat.add_assoc,
        BitVec.ofNat_add (fifo.earlierDrops + fifo.queue.drops)]
      rw [show io.droppedResults = _ from h.dropped]
      rfl
  · have hroom : io.pendingResultLength < BZM_PENDING_RESULT_COUNT :=
      Nat.lt_of_le_of_ne h.length_le hfull
    have hroom' : fifo.queue.queued.length < BZM_PENDING_RESULT_COUNT := hlength ▸ hroom
    simp only [BzmSerialIo.queueResult, if_neg hfull]
    refine ⟨h.head, harrived, htaken, ?_, ?_⟩
    · simp only [BzmSerialIo.queuedResults]
      rw [RingQueue.contents_append hroom, hqueued, DropOldest.queued_push_of_lt hroom']
    · simp only [ResultFifo.drops, DropOldest.drops_push_of_lt hroom']
      exact h.dropped

theorem handle (h : Queued ⟨io, ingested, dequeued, fifo⟩) (frame : BzmFrame) :
    Queued ⟨io.transportFrameHandler readings frame, ingested ++ [frame], dequeued,
      fifo.receive frame⟩ := by
  cases hcarried : frame.decodedResult with
  | some result =>
    rw [handle_some hcarried, ResultFifo.receive, hcarried]
    exact h.queueResult hcarried
  | none =>
    rw [ResultFifo.receive, hcarried]
    have hring : io.SameRing (io.transportFrameHandler readings frame) := handle_none hcarried
    have hsame := h.congr hring
    refine ⟨hsame.head, hsame.arrived.trans ?_, hsame.taken, hsame.queued, hsame.dropped⟩
    rw [List.filterMap_append]
    simp [hcarried]

theorem handleAll (h : Queued ⟨io, ingested, dequeued, fifo⟩) (frames : List BzmFrame) :
    Queued ⟨frames.foldl (BzmSerialIo.transportFrameHandler readings) io, ingested ++ frames,
      dequeued, frames.foldl ResultFifo.receive fifo⟩ := by
  induction frames generalizing io ingested fifo with
  | nil => rwa [List.append_nil]
  | cons frame frames ih =>
    rw [List.append_cons]
    exact ih (h.handle frame)

/-! ### The other operations -/

theorem dequeueResult (h : Queued ⟨io, ingested, dequeued, fifo⟩) :
    io.dequeueResult.1 = io.queuedResults.head? ∧
      Queued ⟨io.dequeueResult.2, ingested, dequeued ++ io.dequeueResult.1.toList,
        { fifo with queue := fifo.queue.pop }⟩ := by
  have hqueued : io.queuedResults = fifo.queue.queued := h.queued
  have htaken := fifo.queue.taken_pop
  rw [← hqueued, show fifo.queue.taken = dequeued from h.taken] at htaken
  by_cases hempty : io.pendingResultLength = 0
  · have hnil : io.queuedResults = [] := by
      rw [BzmSerialIo.queuedResults, hempty]
      rfl
    rw [hnil] at htaken
    simp only [BzmSerialIo.dequeueResult, hempty, ne_eq, not_true_eq_false, if_false, hnil]
    refine ⟨rfl, h.head, h.arrived, htaken, ?_, ?_⟩
    · change io.queuedResults = fifo.queue.queued.drop 1
      rw [← hqueued, hnil]
      rfl
    · simp only [ResultFifo.drops, DropOldest.drops_pop]
      exact h.dropped
  · have hfirst : io.queuedResults.head? = some (io.pendingResults io.pendingResultHead) :=
      RingQueue.head?_contents h.head (Nat.pos_of_ne_zero hempty)
    rw [hfirst] at htaken
    simp only [BzmSerialIo.dequeueResult, ne_eq, hempty, not_false_eq_true, if_true, hfirst]
    refine ⟨trivial, Nat.mod_lt _ (by decide), h.arrived, htaken, ?_, ?_⟩
    · change RingQueue.contents BZM_PENDING_RESULT_COUNT io.pendingResults
        ((io.pendingResultHead + 1) % BZM_PENDING_RESULT_COUNT) (io.pendingResultLength - 1) =
          fifo.queue.queued.drop 1
      rw [RingQueue.contents_advance (Nat.pos_of_ne_zero hempty), ← hqueued]
      rfl
    · simp only [ResultFifo.drops, DropOldest.drops_pop]
      exact h.dropped

/-- The parser is not part of the ring. -/
theorem ingestBytes (h : Queued ⟨io, ingested, dequeued, fifo⟩) (data : List U8)
    (timestampUs : U64) :
    Queued (step readings ⟨io, ingested, dequeued, fifo⟩ (.ingestBytes data timestampUs)) := by
  have hparser : Queued ⟨{ io with parser := io.parser.feed data timestampUs }, ingested,
      dequeued, fifo⟩ := h.congr ⟨rfl, rfl, rfl, rfl⟩
  have hframes : emittedSince io.parser (io.ingestBytes readings data timestampUs).2.parser =
      emittedSince io.parser (io.parser.feed data timestampUs) := by
    rw [BzmSerialIo.ingestBytes, (BzmSerialIo.foldl_transportFrameHandler readings _ _).2]
  simp only [step, BzmSerialIo.step, ResultFifo.step, ingestedAfter, dequeuedAfter, hframes]
  exact hparser.handleAll _

theorem discard (h : Queued ⟨io, ingested, dequeued, fifo⟩) :
    Queued ⟨io.discardPendingResults, [], [], ⟨.empty, fifo.drops⟩⟩ :=
  ⟨Nat.zero_lt_succ _, rfl, rfl, rfl, h.dropped⟩

theorem resetIoState (h : Queued ⟨io, ingested, dequeued, fifo⟩)
    (resetTelemetry resetCounters : Bool) :
    Queued ⟨io.resetIoState resetTelemetry resetCounters, [], [],
      ⟨.empty, if resetCounters then 0 else fifo.drops⟩⟩ := by
  have hdropped : io.droppedResults = BitVec.ofNat 32 fifo.drops := h.dropped
  cases resetTelemetry <;> cases resetCounters
  · exact ⟨Nat.zero_lt_succ _, rfl, rfl, rfl, hdropped⟩
  · exact ⟨Nat.zero_lt_succ _, rfl, rfl, rfl, rfl⟩
  · exact ⟨Nat.zero_lt_succ _, rfl, rfl, rfl, hdropped⟩
  · exact ⟨Nat.zero_lt_succ _, rfl, rfl, rfl, rfl⟩

theorem step {s : SerialResults} (h : Queued s) (readings : BzmTelemetryReadings)
    (op : BzmSerialOp) : Queued (s.step readings op) := by
  obtain ⟨io, ingested, dequeued, fifo⟩ := s
  cases op with
  | ingestBytes data timestampUs => exact h.ingestBytes data timestampUs
  | dequeueResult => exact h.dequeueResult.2
  | discardPendingResults => exact h.discard
  | resetIoState resetTelemetry resetCounters => exact h.resetIoState resetTelemetry resetCounters
  | expectRegisterReply asicId payloadLength =>
    apply h.congr
    simp only [BzmSerialIo.step]
    rcases expectRegisterReply_cases io asicId payloadLength with
      hrefused | ⟨-, -, -, index, -, haccepted⟩
    · rw [hrefused]
      exact ⟨rfl, rfl, rfl, rfl⟩
    · rw [haccepted]
      exact ⟨rfl, rfl, rfl, rfl⟩
  | takeRegisterReply asicId dataLength =>
    apply h.congr
    simp only [BzmSerialIo.step, BzmSerialIo.takeRegisterReply]
    split <;> exact ⟨rfl, rfl, rfl, rfl⟩
  | cancelRegisterReply asicId =>
    apply h.congr
    simp only [BzmSerialIo.step, BzmSerialIo.cancelRegisterReply]
    split <;> exact ⟨rfl, rfl, rfl, rfl⟩
  | clearPartialFrame => exact h.congr ⟨rfl, rfl, rfl, rfl⟩
  | startNoop asicId =>
    apply h.congr
    simp only [BzmSerialIo.step, BzmSerialIo.startNoop]
    split <;> exact ⟨rfl, rfl, rfl, rfl⟩
  | takeNoop =>
    apply h.congr
    simp only [BzmSerialIo.step, BzmSerialIo.takeNoop]
    split <;> exact ⟨rfl, rfl, rfl, rfl⟩
  | endNoop => exact h.congr ⟨rfl, rfl, rfl, rfl⟩

end SerialResults.Queued

/-! ### Whole runs -/

section

variable (readings : BzmTelemetryReadings)

/-- The transport and its queue behind a run. -/
def resultsRun (ops : List BzmSerialOp) : SerialResults :=
  run (SerialResults.step readings) SerialResults.init ops

/-- The pending results are a queue that drops its oldest element: of the results that
arrived in the period those that left come first, in their order, and the ring has the
others; what left was dequeued or dropped. -/
structure ResultsInOrder (ops : List BzmSerialOp) : Prop where
  transport : (resultsRun readings ops).io = serialRun readings ops
  bounded : (serialRun readings ops).pendingResultLength ≤ BZM_PENDING_RESULT_COUNT
  arrived : (resultsRun readings ops).fifo.queue.arrived =
    (resultsRun readings ops).ingested.filterMap BzmFrame.decodedResult
  inOrder : (resultsRun readings ops).fifo.queue.arrived =
    (resultsRun readings ops).fifo.queue.departed.map Prod.fst ++
      (serialRun readings ops).queuedResults
  dequeued : (resultsRun readings ops).dequeued = (resultsRun readings ops).fifo.queue.taken
  oldest : (serialRun readings ops).dequeueResult.1 =
    (serialRun readings ops).queuedResults.head?
  dropped : (serialRun readings ops).droppedResults =
    BitVec.ofNat 32 (resultsRun readings ops).fifo.drops

theorem init_queued : SerialResults.init.Queued := ⟨Nat.zero_lt_succ _, rfl, rfl, rfl, rfl⟩

theorem resultsRun_queued (ops : List BzmSerialOp) : (resultsRun readings ops).Queued :=
  run_invariant (P := SerialResults.Queued) _ (fun _ op h => h.step readings op) init_queued ops

theorem resultsRun_io (ops : List BzmSerialOp) :
    (resultsRun readings ops).io = serialRun readings ops := by
  have hrun : ∀ s : SerialResults, (run (SerialResults.step readings) s ops).io =
      run (BzmSerialIo.step readings) s.io ops := by
    induction ops with
    | nil => exact fun _ => rfl
    | cons op ops ih => exact fun s => ih (s.step readings op)
  exact hrun SerialResults.init

end

/-- **Pending results leave in the order of their frames**, whatever the operations; a
full ring loses its oldest result, and `dropped_results` counts the losses modulo
`2 ^ 32`. -/
theorem bzmSerial_results_fifo (readings : BzmTelemetryReadings) (ops : List BzmSerialOp) :
    ResultsInOrder readings ops := by
  have h := resultsRun_queued readings ops
  have hio := resultsRun_io readings ops
  constructor
  · exact hio
  · rw [← hio]
    exact h.length_le
  · exact h.arrived
  · rw [← hio, h.queued]
    exact (resultsRun readings ops).fifo.queue.conserved
  · exact h.taken.symm
  · rw [← hio]
    exact h.dequeueResult.1
  · rw [← hio]
    exact h.dropped

/-! ### More drops than the counter counts -/

/-- Frames from a sender come out of the parser, one after the other. -/
theorem framesOf_feed_wireBytes {frames : List BzmFrame}
    (hsendable : ∀ frame ∈ frames, frame.Sendable)
    (hregister : ∀ frame ∈ frames, frame.type ≠ .register) (timestampUs : U64) :
    (framesOf (BzmFrameParser.init.feed (wireBytes frames) timestampUs).trace).map
      BzmFrame.untimed = frames.map BzmFrame.untimed := by
  have hnone : ∀ asicId (part : List BzmFrame), part ⊆ frames →
      registerLengths asicId part = [] := by
    intro asicId part hpart
    apply List.filterMap_eq_nil_iff.mpr
    intro frame hframe
    rw [if_neg fun hboth => hregister frame (hpart hframe) hboth.1]
  have hwhole : [] ++ (wireBytes frames ++ []) = wireBytes frames := by simp
  obtain ⟨between, sent, rest, hrest, hstarted, hbytes, hinside⟩ :=
    init_inside.feed (started_nil frames) hwhole hsendable
      (fun between frame more hsplit _ => by
        rw [hnone frame.asicId ([] ++ between ++ [frame]) (by simp [hsplit])])
      (fun _ _ _ _ => Nat.zero_le _) timestampUs
  -- the bytes are used up, so no frame is left
  obtain rfl : rest = [] := by
    rcases hstarted with ⟨hnil, -⟩ | ⟨frame, more, byte, tail, rfl, hwire⟩
    · exact hnil
    · rw [hrest, List.nil_append, wireBytes_append] at hbytes
      have hlength := congrArg List.length (List.append_cancel_left hbytes)
      rw [show wireBytes (frame :: more) = frame.wire ++ wireBytes more from List.flatMap_cons,
        hwire] at hlength
      simp at hlength
  rw [hinside.emitted, hrest, List.nil_append, List.append_nil]

/-- A result of the first ASIC. -/
def someResult : BzmFrame := ⟨.result, 0x0a#8, List.replicate 8 0, 0⟩

theorem someResult_sendable : someResult.Sendable := ⟨by decide, rfl⟩

theorem bzmResultDecode_isSome (payload : List U8) (timestampUs other : U64) :
    (bzmResultDecode payload timestampUs).isSome = (bzmResultDecode payload other).isSome := by
  simp only [bzmResultDecode]
  split <;> rfl

theorem decodedResult_untimed (frame : BzmFrame) :
    frame.untimed.decodedResult.isSome = frame.decodedResult.isSome := by
  by_cases hcarries : frame.type = .result ∧ addressedAsic frame.asicId = true
  · have huntimed : frame.untimed.type = .result ∧ addressedAsic frame.untimed.asicId = true :=
      hcarries
    rw [BzmFrame.decodedResult, if_pos huntimed, BzmFrame.decodedResult, if_pos hcarries,
      Option.isSome_map, Option.isSome_map]
    exact bzmResultDecode_isSome _ _ _
  · have huntimed : ¬(frame.untimed.type = .result ∧
        addressedAsic frame.untimed.asicId = true) := hcarries
    rw [BzmFrame.decodedResult, if_neg huntimed, BzmFrame.decodedResult, if_neg hcarries]

/-- The number of results in frames does not depend on the time. -/
theorem length_decodedResults (frames : List BzmFrame) :
    (frames.filterMap BzmFrame.decodedResult).length =
      (frames.map BzmFrame.untimed).countP fun frame => frame.decodedResult.isSome := by
  rw [List.length_filterMap_eq_countP, List.countP_map]
  exact List.countP_congr fun frame _ => by
    rw [Function.comp_apply, decodedResult_untimed]

/-- A parser that expects no register reply goes on expecting none. -/
theorem feedRule_unexpecting :
    FeedRule fun p _ _ => ∀ index, p.expectedRegisterLength index = 0 where
  expectedLe h index := by
    rw [h]
    exact Nat.zero_le _
  discard h hdiscards index := by rw [hdiscards.expected, h]
  emit {p q frame frames bytes} h hemits index := by
    by_cases hregister : frame.type = .register
    · obtain ⟨asic, -, hexpected, -⟩ := hemits.answered hregister
      exact absurd (h asic) hexpected
    · rw [hemits.kept hregister, h]
  push _ h := h

/-- The operations of a burst: every frame arrives in a call of its own. -/
def burstOps (burst : List BzmFrame) : List BzmSerialOp :=
  burst.map fun frame => .ingestBytes frame.wire 0

/-- A burst is ingested like the frames of one feed, and stays in the ring. -/
theorem burst_ingested (readings : BzmTelemetryReadings) (burst : List BzmFrame) :
    (resultsRun readings (burstOps burst)).io.parser =
        BzmFrameParser.init.feed (wireBytes burst) 0 ∧
      (resultsRun readings (burstOps burst)).ingested =
        framesOf (BzmFrameParser.init.feed (wireBytes burst) 0).trace ∧
      (resultsRun readings (burstOps burst)).dequeued = [] := by
  induction burst using List.reverseRecOn with
  | nil => exact ⟨rfl, rfl, rfl⟩
  | append_singleton before frame ih =>
    obtain ⟨hparser, hingested, hdequeued⟩ := ih
    obtain ⟨-, -, hexpecting, hroom, -⟩ := @FeedRule.feed BzmFrameParser.init _ [] []
      feedRule_unexpecting (fun _ => rfl) (by decide) (wireBytes before) 0
    obtain ⟨events, htrace, -⟩ := @FeedRule.feed _ _ [] [] feedRule_unexpecting hexpecting hroom
      frame.wire 0
    have hfeed : BzmFrameParser.init.feed (wireBytes (before ++ [frame])) 0 =
        (BzmFrameParser.init.feed (wireBytes before) 0).feed frame.wire 0 := by
      rw [wireBytes_append, wireBytes_singleton]
      exact List.foldl_append
    have hrun : resultsRun readings (burstOps (before ++ [frame])) =
        (resultsRun readings (burstOps before)).step readings (.ingestBytes frame.wire 0) := by
      rw [burstOps, List.map_append]
      exact run_append _ _ _ _
    have hparser' : ((resultsRun readings (burstOps before)).io.step readings
        (.ingestBytes frame.wire 0)).parser =
        (BzmFrameParser.init.feed (wireBytes before) 0).feed frame.wire 0 := by
      rw [← hparser]
      exact (BzmSerialIo.foldl_transportFrameHandler readings _ _).2
    rw [hrun, hfeed]
    refine ⟨hparser', ?_, hdequeued⟩
    show _ ++ emittedSince _ _ = _
    rw [hparser', hparser, hingested, emittedSince_of_trace htrace, htrace, framesOf_append]

/-- Of a burst of results the ring keeps one filling. -/
theorem drops_of_burst (readings : BzmTelemetryReadings) {burst : List BzmFrame}
    (hsame : ∀ frame ∈ burst, frame = someResult) :
    burst.length ≤ (resultsRun readings (burstOps burst)).fifo.drops +
      BZM_PENDING_RESULT_COUNT := by
  have h := resultsRun_queued readings (burstOps burst)
  obtain ⟨-, hingested, hdequeued⟩ := burst_ingested readings burst
  have hframes := framesOf_feed_wireBytes
    (fun frame hframe => (hsame frame hframe).symm ▸ someResult_sendable)
    (fun frame hframe => by rw [hsame frame hframe]; decide) 0
  -- all of them arrived, and none was taken
  have harrived : (resultsRun readings (burstOps burst)).fifo.queue.arrived.length =
      burst.length := by
    rw [h.arrived, hingested, length_decodedResults, hframes,
      ← List.length_map BzmFrame.untimed]
    apply List.countP_eq_length.mpr
    intro frame hframe
    obtain ⟨sent, hsent, rfl⟩ := List.mem_map.mp hframe
    rw [hsame sent hsent]
    decide
  have htaken : (resultsRun readings (burstOps burst)).fifo.queue.taken = [] :=
    h.taken.trans hdequeued
  have hlength := DropOldest.length_arrived (resultsRun readings (burstOps burst)).fifo.queue
  have hbounded := (resultsRun readings (burstOps burst)).fifo.queue.bounded
  rw [harrived, htaken, List.length_nil] at hlength
  rw [ResultFifo.drops]
  omega

/-- `dropped_results` is short of `2 ^ 32` and a filling of results, each ingested alone. -/
theorem droppedResults_wrap :
    ¬∀ (readings : BzmTelemetryReadings) (ops : List BzmSerialOp),
      (serialRun readings ops).droppedResults.toNat = (resultsRun readings ops).fifo.drops := by
  intro hclaim
  have hdrops := drops_of_burst ⟨fun _ => .ofNat 0, fun _ => .ofNat 0⟩
    fun frame (hframe : frame ∈ List.replicate (2 ^ 32 + BZM_PENDING_RESULT_COUNT) someResult) =>
      List.eq_of_mem_replicate hframe
  rw [← hclaim, List.length_replicate] at hdrops
  exact absurd (BitVec.isLt _) (Nat.not_lt.mpr (Nat.le_of_add_le_add_right hdrops))

end EspMiner
