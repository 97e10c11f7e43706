import EspMiner.Main.StratumV1Client

/-!
# The accounting of Stratum V1 shares

One session of `main/tasks/stratum_v1_client.c` with the request timings of
`components/stratum/sv1_client.c`, from the start of the receive loop: the three
setup requests are written.  The submission task writes a share, reads the clock,
stamps the timing slot of the request and counts the share as pending, each in a
step of its own, while the receive loop handles a response in steps of its own.

The submission task holds the transport lock from the write on, so that the
receive loop waits when it wants a request id.
-/

namespace EspMiner

open Library

def MAX_REQUEST_IDS : Nat := 1024

/-- `request_timing_t` -/
structure RequestTiming where
  timestampUs : Int
  tracking : Bool
deriving DecidableEq, Repr

/-- The requests that the receive loop sends once the authorization succeeds. -/
inductive SetupRequest where
  | suggestDifficulty
  | extranonceSubscribe
deriving DecidableEq, Repr

/-- What happened.  A request is written, a response to a request is received, and
a share is counted for a response. -/
inductive AccountingEvent where
  | share (uid : Int)
  | setup (uid : Int)
  | response (messageId : Int) (success : Bool)
  | acceptedShare (messageId : Int)
  | rejectedShare (messageId : Int) (errorStr : Option (List U8))
deriving DecidableEq, Repr

/-- Where the receive loop is. -/
inductive ResponsePlace where
  | idle
  | received (message : StratumApiV1Message) (receiveTimeUs : Int)
  | timed (message : StratumApiV1Message)
  | counted (message : StratumApiV1Message)
  | draw (requests : List SetupRequest)
  | send (uid : Int) (requests : List SetupRequest)

/-- Where the submission task is, once it has written a share. -/
inductive StampPlace where
  | idle
  | written (uid : Int)
  | clocked (uid now : Int)
  | stamped (uid : Int)
deriving DecidableEq, Repr

abbrev RequestTimings := Fin MAX_REQUEST_IDS → RequestTiming

/-- `request_id % MAX_REQUEST_IDS` in `get_request_timing` -/
def timingIndex (requestId : Int) : Fin MAX_REQUEST_IDS :=
  ⟨(requestId % MAX_REQUEST_IDS).toNat, by unfold MAX_REQUEST_IDS; omega⟩

/-- `STRATUM_V1_get_response_time_ms` in microseconds; `none` is -1. -/
def stratumV1GetResponseTime (timings : RequestTimings) (requestId receiveTimeUs : Int) :
    Option Int × RequestTimings :=
  let timing := timings (timingIndex requestId)
  if requestId < 0 ∨ timing.tracking = false then (none, timings)
  else
    (some (receiveTimeUs - timing.timestampUs),
      Function.update timings (timingIndex requestId) { timing with tracking := false })

/-- `stamp_tx` -/
def stampTx (timings : RequestTimings) (requestId timestampUs : Int) : RequestTimings :=
  if 1 ≤ requestId then
    Function.update timings (timingIndex requestId)
      { timestampUs := timestampUs, tracking := true }
  else timings

/-- The counters that the two tasks share, and where they are.  `setupRequests`
are the requests that the pool's settings ask for. -/
structure ShareAccounting where
  sendUid : Int
  requestTimings : RequestTimings
  sharesPending : U16
  now : Int
  authorizeMessageId : Int
  setupRequests : List SetupRequest
  receiver : ResponsePlace
  submitter : StampPlace
  trace : List AccountingEvent

/-- The id of a request that was written. -/
def AccountingEvent.requestId : AccountingEvent → Option Int
  | .share uid | .setup uid => some uid
  | .response _ _ | .acceptedShare _ | .rejectedShare _ _ => none

def AccountingEvent.shareId : AccountingEvent → Option Int
  | .share uid => some uid
  | .setup _ | .response _ _ | .acceptedShare _ | .rejectedShare _ _ => none

def AccountingEvent.answeredId : AccountingEvent → Option Int
  | .response messageId _ => some messageId
  | .share _ | .setup _ | .acceptedShare _ | .rejectedShare _ _ => none

/-- The id and the result that a share is counted for. -/
def AccountingEvent.notification : AccountingEvent → Option (Int × Bool)
  | .acceptedShare messageId => some (messageId, true)
  | .rejectedShare messageId _ => some (messageId, false)
  | .share _ | .setup _ | .response _ _ => none

/-- The ids of the requests that were written, the newest first. -/
def writtenIds (trace : List AccountingEvent) : List Int :=
  trace.filterMap AccountingEvent.requestId

def shareIds (trace : List AccountingEvent) : List Int :=
  trace.filterMap AccountingEvent.shareId

/-- The ids that the pool has answered. -/
def answeredIds (trace : List AccountingEvent) : List Int :=
  trace.filterMap AccountingEvent.answeredId

/-- What the shares were counted for. -/
def notifications (trace : List AccountingEvent) : List (Int × Bool) :=
  trace.filterMap AccountingEvent.notification

/-- The responses to shares, with their results. -/
def shareResponses : List AccountingEvent → List (Int × Bool)
  | [] => []
  | .response messageId success :: older =>
      if messageId ∈ shareIds older then (messageId, success) :: shareResponses older
      else shareResponses older
  | .share _ :: older | .setup _ :: older | .acceptedShare _ :: older
  | .rejectedShare _ _ :: older => shareResponses older

namespace ShareAccounting

def record (s : ShareAccounting) (event : AccountingEvent) : ShareAccounting :=
  { s with trace := event :: s.trace }

def goTo (s : ShareAccounting) (place : ResponsePlace) : ShareAccounting :=
  { s with receiver := place }

/-! ## The submission task -/

/-- `STRATUM_V1_submit_share` up to the write, in `stratum_v1_submit_share`.  A
write that fails leaves no share on the stream. -/
def submit (s : ShareAccounting) (ok : Bool) : ShareAccounting :=
  match s.submitter with
  | .idle =>
      let uid := s.sendUid
      let s := { s with sendUid := uid + 1 }
      if ok then { s.record (.share uid) with submitter := .written uid } else s
  | .written _ | .clocked _ _ | .stamped _ => s

/-- The next step after the write. -/
def submitterStep (s : ShareAccounting) : ShareAccounting :=
  match s.submitter with
  | .idle => s
  | .written uid => { s with submitter := .clocked uid s.now }
  | .clocked uid now =>
      { s with requestTimings := stampTx s.requestTimings uid now, submitter := .stamped uid }
  | .stamped _ =>
      { s with
        sharesPending := s.sharesPending + if s.sharesPending < 0xffff then 1 else 0
        submitter := .idle }

/-! ## The receive loop -/

/-- A parsed message: the loop reads the clock before it parses.  Only a result
touches the accounts. -/
def receive (s : ShareAccounting) (message : StratumApiV1Message) : ShareAccounting :=
  match s.receiver with
  | .idle =>
      let received := s.record (.response message.messageId message.responseSuccess)
      match message.method with
      | .stratumResult => received.goTo (.received message s.now)
      | .stratumResultSubscribe | .stratumResultConfigure => received
      | _ => s
  | .received _ _ | .timed _ | .counted _ | .draw _ | .send _ _ => s

/-- The next step of the case `STRATUM_RESULT`.  `ok` is the write of a setup
request. -/
def receiverStep (s : ShareAccounting) (ok : Bool) : ShareAccounting :=
  match s.receiver with
  | .idle => s
  | .received message receiveTimeUs =>
      let response := stratumV1GetResponseTime s.requestTimings message.messageId receiveTimeUs
      let s := { s with requestTimings := response.2 }
      -- `response_time_ms >= 0`
      if response.1.any fun time => 0 ≤ time then s.goTo (.timed message)
      else if message.responseSuccess = true ∧ message.messageId = s.authorizeMessageId then
        s.goTo (.draw s.setupRequests)
      else s.goTo .idle
  | .timed message =>
      { s with sharesPending := s.sharesPending - if 0 < s.sharesPending then 1 else 0 }.goTo
        (.counted message)
  | .counted message =>
      (s.record (if message.responseSuccess then .acceptedShare message.messageId
        else .rejectedShare message.messageId message.errorStr)).goTo .idle
  | .draw [] => s.goTo .idle
  | .draw (_ :: requests) =>
      -- `stratum_get_next_uid` waits for the transport lock
      if s.submitter = .idle then
        { s with sendUid := s.sendUid + 1 }.goTo (.send s.sendUid requests)
      else s
  | .send uid requests =>
      (if ok then s.record (.setup uid) else s).goTo (.draw requests)

/-! ## Runs -/

/-- Time passes, a task takes its next step, or a message arrives. -/
inductive Input where
  | tick (elapsedUs : Nat)
  | submit (ok : Bool)
  | submitter
  | message (message : StratumApiV1Message)
  | receiver (ok : Bool)

def step (s : ShareAccounting) : Input → ShareAccounting
  | .tick elapsedUs => { s with now := s.now + elapsedUs }
  | .submit ok => s.submit ok
  | .submitter => s.submitterStep
  | .message message => s.receive message
  | .receiver ok => s.receiverStep ok

/-- The loop starts: configure, subscribe and authorize are written, and
`STRATUM_V1_initialize_buffer` has cleared the timings. -/
def initial (difficulty : U16) (extranonceSubscribe : Bool) : ShareAccounting where
  sendUid := 4
  requestTimings := fun _ => { timestampUs := 0, tracking := false }
  sharesPending := 0
  now := 0
  authorizeMessageId := 3
  setupRequests := (if 0 < difficulty then [.suggestDifficulty] else []) ++
    if extranonceSubscribe then [.extranonceSubscribe] else []
  receiver := .idle
  submitter := .idle
  trace := [.setup 3, .setup 2, .setup 1]

end ShareAccounting

end EspMiner
