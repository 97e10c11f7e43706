import EspMiner.Main.StratumV1Client
import EspMiner.Main.StratumV2Client

/-!
# Sessions and the submission of shares

`main/tasks/stratum_submission.c` with the sessions of `main/tasks/stratum_v1_client.c`
and `main/tasks/stratum_v2_client.c`: the receive task opens and closes one
session after the other, the result task queues shares, and the submission task
writes them to the transport that is open then.  A section under the transport
lock is one step, and so is every other access to a shared pointer.

An object is the transport or connection that one allocation made; its number is
never used again, so the trace tells which object was used and which destroyed.
A session is known by its transport.
-/

namespace EspMiner

open Library

def STRATUM_SHARE_QUEUE_LENGTH : Nat := 32

/-- `stratum_protocol_t` -/
inductive StratumProtocol where
  | v1
  | v2
deriving DecidableEq, Repr

/-- What the receive task allocates and destroys. -/
inductive StratumObject where
  | transport (id : Nat)
  | sv1Conn (id : Nat)
  | sv2Conn (id : Nat)
deriving DecidableEq, Repr

/-- A Stratum V1 request id, or a Stratum V2 sequence number. -/
inductive ShareNumber where
  | uid (value : Int)
  | sequence (value : U32)
deriving DecidableEq, Repr

/-- `asic_share_snapshot_t` in the queue, with the number that it got there and
the number of the published job it was built from. -/
structure QueuedShare where
  ticket : Nat
  job : Nat
  submission : AsicShareSubmission
  jobVersion : U32
deriving DecidableEq

/-- What happened.  `request` is a request of a Stratum V1 session other than a
share. -/
inductive SubmissionEvent where
  | used (object : StratumObject)
  | destroyed (object : StratumObject)
  | invalidated
  | published (transport job : Nat) (clean : Bool)
  | request (transport : Nat) (uid : Int)
  | written (transport : Nat) (number : ShareNumber) (share : QueuedShare)
deriving DecidableEq

/-- Where the receive task is.  A place in a session names its transport from the
moment that there is one. -/
inductive SessionPlace where
  | idle
  | v1FreeConn (poolIdx : U16)
  | v1AllocConn (poolIdx : U16)
  | v1InitConn (poolIdx : U16)
  | v1InitTransport
  | v1Connect (transport : Nat)
  | v1SetTransport (transport : Nat)
  | v1ResetUid (transport : Nat)
  | v1CleanJobs (transport : Nat)
  | v1NextUid (transport sent : Nat)
  | v1Setup (transport sent : Nat) (uid : Int)
  | v1AllocMessage (transport : Nat)
  | v1Loop (transport : Nat)
  | v1Request (transport : Nat) (uid : Int)
  | v1CloseConnection (transport : Nat)
  | v1Invalidate
  | v2FreeConn (starts : Option U16)
  | v2ClearConn (starts : Option U16)
  | v2AllocConn (poolIdx : U16)
  | v2AllocBuffers
  | v2InitTransport
  | v2Connect (transport : Nat)
  | v2SetTransport (transport : Nat)
  | v2UpdatePending (transport : Nat)
  | v2CreateNoise (transport : Nat)
  | v2Setup (transport stage : Nat)
  | v2Loop (transport : Nat)
  | v2CloseConnection (transport : Nat)
  | v2Invalidate
deriving DecidableEq, Repr

/-- Where the submission task is. -/
inductive SubmitterPlace where
  | receive
  | checkCurrent (share : QueuedShare)
  | checkPool (share : QueuedShare)
  | submit (share : QueuedShare)
deriving DecidableEq

/-- A received line or frame that matters here: the pool opens the channel, or the
loop sends a request of its own, applies a version mask, or publishes a job. -/
inductive ReceivedMessage where
  | channelOpened (channelId : U32) (channelType : Sv2ChannelType)
  | request
  | versionMask (message : StratumApiV1Message) (supportedMask : U32)
  | publish (job : MinerJob)

/-- The shared variables, the objects, and the tasks.  `allocated` objects were
made, `published` jobs are in `jobs`, and `tickets` shares were queued.
`messageAllocated` says that there is a message record. -/
structure StratumSubmission where
  transport : Option Nat
  sv1Conn : Option Nat
  sv2Conn : Option Nat
  allocated : Nat
  sv1Conns : Nat → Sv1Conn
  sv2Conns : Nat → Sv2Conn
  noiseCtx : Nat → Bool
  messageAllocated : Bool
  stratumWorkGeneration : U64
  published : Nat
  jobs : Nat → MinerJob
  tickets : Nat
  queue : List QueuedShare
  receiver : SessionPlace
  submitter : SubmitterPlace
  trace : List SubmissionEvent

/-- The connection that `calloc` makes. -/
def Sv1Conn.zero : Sv1Conn where
  sendUid := 0
  configureUid := 0
  versionRollingEnabled := false
  subscribed := false
  poolDifficulty := 0
  versionMask := 0
  extranonce1 := Vector.replicate 32 0
  extranonce1Len := 0
  extranonce2Len := 0
  poolIdx := 0
  activeJobIds := []

/-- The connection that `calloc` makes. -/
def Sv2Conn.zero : Sv2Conn where
  channelId := 0
  groupChannelId := 0
  versionMask := 0
  sequenceNumber := 0
  resolvedShares := 0
  target := Vector.replicate 32 0
  poolIdx := 0
  pendingJobsValid := fun _ => false
  prevHash := Vector.replicate 32 0
  prevHashNtime := 0
  prevHashNbits := 0
  hasPrevHash := false
  channelType := .unknown
  extranoncePrefix := Vector.replicate 32 0
  extranoncePrefixLen := 0
  extranonceSize := 0
  activeJobIds := []

namespace StratumSubmission

def record (s : StratumSubmission) (event : SubmissionEvent) : StratumSubmission :=
  { s with trace := event :: s.trace }

def use (s : StratumSubmission) (object : StratumObject) : StratumSubmission :=
  s.record (.used object)

/-- Use an object for the last time and free it. -/
def destroy (s : StratumSubmission) (object : StratumObject) : StratumSubmission :=
  (s.use object).record (.destroyed object)

def goTo (s : StratumSubmission) (place : SessionPlace) : StratumSubmission :=
  { s with receiver := place }

def setSv1Conn (s : StratumSubmission) (id : Nat) (conn : Sv1Conn) : StratumSubmission :=
  { s with sv1Conns := Function.update s.sv1Conns id conn }

def setSv2Conn (s : StratumSubmission) (id : Nat) (conn : Sv2Conn) : StratumSubmission :=
  { s with sv2Conns := Function.update s.sv2Conns id conn }

/-! ## `main/tasks/stratum_work.c` -/

/-- `stratum_invalidate_work` -/
def invalidateWork (s : StratumSubmission) : StratumSubmission :=
  { s.record .invalidated with
    stratumWorkGeneration := nextWorkGeneration s.stratumWorkGeneration }

/-- `stratum_publish_job`, in the session of a transport. -/
def publishJob (s : StratumSubmission) (transport : Nat) (job : MinerJob) : StratumSubmission :=
  let generation :=
    if job.cleanJobs then nextWorkGeneration s.stratumWorkGeneration else s.stratumWorkGeneration
  { s.record (.published transport s.published job.cleanJobs) with
    stratumWorkGeneration := generation
    published := s.published + 1
    jobs := Function.update s.jobs s.published { job with workGeneration := generation } }

/-! ## The receive task in `stratum_v1_run` -/

/-- `stratum_get_next_uid`, and where the task goes with the id. -/
def nextUid (s : StratumSubmission) (place : Int → SessionPlace) : StratumSubmission :=
  match s.sv1Conn with
  | none => s.goTo (place 1)
  | some id =>
      let conn := s.sv1Conns id
      ((s.use (.sv1Conn id)).setSv1Conn id { conn with sendUid := conn.sendUid + 1 }).goTo
        (place conn.sendUid)

/-- `stratum_v1_close_connection`, under the lock. -/
def v1CloseConnection (s : StratumSubmission) : StratumSubmission :=
  let closed := { s with transport := none, sv1Conn := none }
  let closed := match s.transport with
    | some id => closed.destroy (.transport id)
    | none => closed
  match s.sv1Conn with
  | some id => closed.destroy (.sv1Conn id)
  | none => closed

/-- The next step in `stratum_v1_run`, and in the loop one line that changes
nothing here.  `ok` says whether an allocation or a connection succeeds, and
whether the loop goes on. -/
def v1Step (s : StratumSubmission) (ok : Bool) : StratumSubmission :=
  match s.receiver with
  | .v1FreeConn poolIdx =>
      -- the pointer still holds the address of the freed connection
      let s := match s.sv1Conn with
        | some id => s.destroy (.sv1Conn id)
        | none => s
      s.goTo (.v1AllocConn poolIdx)
  | .v1AllocConn poolIdx =>
      if ok then
        { s.setSv1Conn s.allocated .zero with
          sv1Conn := some s.allocated
          allocated := s.allocated + 1 }.goTo (.v1InitConn poolIdx)
      else { s with sv1Conn := none }.goTo .idle
  | .v1InitConn poolIdx =>
      match s.sv1Conn with
      | some id =>
          ((s.use (.sv1Conn id)).setSv1Conn id
            { s.sv1Conns id with
              sendUid := 1
              configureUid := 1
              poolIdx := poolIdx.setWidth 8
              versionMask := 0 }).goTo .v1InitTransport
      | none => s.goTo .idle
  | .v1InitTransport =>
      if ok then { s with allocated := s.allocated + 1 }.goTo (.v1Connect s.allocated)
      else s.goTo .idle
  | .v1Connect transport =>
      if ok then (s.use (.transport transport)).goTo (.v1SetTransport transport)
      else (s.destroy (.transport transport)).goTo .idle
  | .v1SetTransport transport => { s with transport := some transport }.goTo (.v1ResetUid transport)
  | .v1ResetUid transport =>
      let s := match s.sv1Conn with
        | some id =>
            (s.use (.sv1Conn id)).setSv1Conn id { s.sv1Conns id with sendUid := 1 }
        | none => s
      s.goTo (.v1CleanJobs transport)
  | .v1CleanJobs transport => s.invalidateWork.goTo (.v1NextUid transport 0)
  | .v1NextUid transport sent => s.nextUid fun uid => .v1Setup transport sent uid
  | .v1Setup transport sent uid =>
      -- configure, subscribe, authorize
      ((s.use (.transport transport)).record (.request transport uid)).goTo
        (if sent < 2 then .v1NextUid transport (sent + 1) else .v1AllocMessage transport)
  | .v1AllocMessage transport =>
      if s.messageAllocated then s.goTo (.v1Loop transport)
      else if ok then { s with messageAllocated := true }.goTo (.v1Loop transport)
      else (s.destroy (.transport transport)).goTo .idle
  | .v1Loop transport =>
      if ok then s.use (.transport transport)
      else s.goTo (.v1CloseConnection transport)
  | .v1Request transport uid =>
      ((s.use (.transport transport)).record (.request transport uid)).goTo (.v1Loop transport)
  | .v1CloseConnection _ => s.v1CloseConnection.goTo .v1Invalidate
  | .v1Invalidate => s.invalidateWork.goTo .idle
  | _ => s

/-- A line that matters here. -/
def v1Receive (s : StratumSubmission) (transport : Nat) (message : ReceivedMessage) :
    StratumSubmission :=
  match message with
  | .channelOpened _ _ => s
  | .request => s.nextUid fun uid => .v1Request transport uid
  | .versionMask message supportedMask =>
      match s.sv1Conn with
      | some id =>
          (s.use (.sv1Conn id)).setSv1Conn id
            (stratumV1ApplyVersionMask (s.sv1Conns id) message supportedMask)
      | none => s
  | .publish job =>
      match s.sv1Conn with
      | some id =>
          (s.use (.sv1Conn id)).publishJob transport
            { (s.sv1Conns id).configureJob job with type := .v1 }
      | none => s

/-! ## The receive task in `stratum_v2_run` -/

/-- `stratum_v2_close_connection`, under the lock. -/
def v2CloseConnection (s : StratumSubmission) : StratumSubmission :=
  let closed := { s with transport := none, sv2Conn := none }
  let closed := match s.sv2Conn with
    | some id => closed.use (.sv2Conn id)
    | none => closed
  let closed := match s.transport with
    | some id => closed.destroy (.transport id)
    | none => closed
  match s.sv2Conn with
  | some id => closed.destroy (.sv2Conn id)
  | none => closed

/-- The next step in `stratum_v2_run`, and in the loop one frame that changes
nothing here.  `v2FreeConn` and `v2ClearConn` are `sv2_conn_free`, at the start of
a session on a pool or after an early failure. -/
def v2Step (s : StratumSubmission) (ok : Bool) : StratumSubmission :=
  match s.receiver with
  | .v2FreeConn starts =>
      -- the pointer still holds the address of the freed connection
      let s := match s.sv2Conn with
        | some id => s.destroy (.sv2Conn id)
        | none => s
      s.goTo (.v2ClearConn starts)
  | .v2ClearConn starts =>
      { s with sv2Conn := none }.goTo (match starts with
        | some poolIdx => .v2AllocConn poolIdx
        | none => .idle)
  | .v2AllocConn poolIdx =>
      if ok then
        { s.setSv2Conn s.allocated
            { Sv2Conn.zero with
              poolIdx := poolIdx.setWidth 8
              versionMask := BIP320_VERSION_ROLLING_MASK } with
          sv2Conn := some s.allocated
          noiseCtx := Function.update s.noiseCtx s.allocated false
          allocated := s.allocated + 1 }.goTo .v2AllocBuffers
      else s.goTo .idle
  | .v2AllocBuffers => s.goTo (if ok then .v2InitTransport else .v2FreeConn none)
  | .v2InitTransport =>
      if ok then { s with allocated := s.allocated + 1 }.goTo (.v2Connect s.allocated)
      else s.goTo (.v2FreeConn none)
  | .v2Connect transport =>
      if ok then (s.use (.transport transport)).goTo (.v2SetTransport transport)
      else (s.destroy (.transport transport)).goTo (.v2FreeConn none)
  | .v2SetTransport transport =>
      { s with transport := some transport }.goTo (.v2UpdatePending transport)
  | .v2UpdatePending transport =>
      let s := match s.sv2Conn with
        | some id => s.use (.sv2Conn id)
        | none => s
      s.goTo (.v2CreateNoise transport)
  | .v2CreateNoise transport =>
      match s.sv2Conn, ok with
      | some id, true =>
          { s.use (.sv2Conn id) with
            noiseCtx := Function.update s.noiseCtx id true }.goTo (.v2Setup transport 0)
      | _, _ => s.goTo (.v2CloseConnection transport)
  | .v2Setup transport stage =>
      -- the handshake, the setup, its answer, and the request for a channel
      if ok then
        if stage < 4 then (s.use (.transport transport)).goTo (.v2Setup transport (stage + 1))
        else s
      else s.goTo (.v2CloseConnection transport)
  | .v2Loop transport =>
      if ok then s.use (.transport transport)
      else s.goTo (.v2CloseConnection transport)
  | .v2CloseConnection _ => s.v2CloseConnection.goTo .v2Invalidate
  | .v2Invalidate => s.invalidateWork.goTo .idle
  | _ => s

/-- The answer that opens the channel. -/
def v2OpenChannel (s : StratumSubmission) (transport : Nat) (message : ReceivedMessage) :
    StratumSubmission :=
  match message, s.sv2Conn with
  | .channelOpened channelId channelType, some id =>
      let s := (s.use (.transport transport)).use (.sv2Conn id)
      (s.setSv2Conn id
        { s.sv2Conns id with channelId := channelId, channelType := channelType }).goTo
          (.v2Loop transport)
  | _, _ => s

/-- A frame that publishes a job of the channel's type. -/
def v2Receive (s : StratumSubmission) (transport : Nat) (message : ReceivedMessage) :
    StratumSubmission :=
  match message, s.sv2Conn with
  | .publish job, some id =>
      let conn := s.sv2Conns id
      let publish (type : MiningJobSource) : StratumSubmission :=
        (s.use (.sv2Conn id)).publishJob transport
          { job with type := type, poolId := conn.poolIdx }
      match conn.channelType with
      | .standard => publish .sv2Standard
      | .extended => publish .sv2Extended
      | .unknown => s
  | _, _ => s

/-! ## Shares -/

/-- `stratum_queue_share` of a share built from a published job; the job decides
where the share belongs.  `captured` is `asic_share_snapshot_capture`. -/
def queueShare (s : StratumSubmission) (job : Nat) (submission : AsicShareSubmission)
    (captured : Bool) : StratumSubmission :=
  if job < s.published ∧ captured = true ∧ s.queue.length < STRATUM_SHARE_QUEUE_LENGTH then
    let share : QueuedShare :=
      { ticket := s.tickets
        job := job
        submission := { submission with
          jobId := cString (s.jobs job).jobId.toList
          protocol := (s.jobs job).type
          poolId := (s.jobs job).poolId
          workGeneration := (s.jobs job).workGeneration }
        jobVersion := (s.jobs job).version }
    { s with tickets := s.tickets + 1, queue := s.queue ++ [share] }
  else s

/-- Write a share to the transport; a failed write shuts the socket down. -/
def writeShare (s : StratumSubmission) (transport : Nat) (number : ShareNumber)
    (share : QueuedShare) (sent : Bool) : StratumSubmission :=
  let written := (s.use (.transport transport)).record (.written transport number share)
  if sent then written else written.use (.transport transport)

/-- `stratum_v1_submit_share` -/
def v1SubmitShare (s : StratumSubmission) (share : QueuedShare) (sent : Bool) :
    StratumSubmission :=
  match s.transport, s.sv1Conn with
  | some transport, some id =>
      if share.submission.workGeneration ≠ s.stratumWorkGeneration then s
      else
        let conn := s.sv1Conns id
        let s := s.use (.sv1Conn id)
        if conn.poolIdx ≠ share.submission.poolId then s
        else if (share.submission.finalVersion ^^^ share.jobVersion) &&& ~~~conn.versionMask ≠ 0
        then s
        else
          (s.setSv1Conn id { conn with sendUid := conn.sendUid + 1 }).writeShare transport
            (.uid conn.sendUid) share sent
  | _, _ => s

/-- `stratum_v2_submit_share`.  `stack` is what the array `extranonce_2` holds
before. -/
def v2SubmitShare (s : StratumSubmission) (share : QueuedShare) (stack : Vector U8 32)
    (sent : Bool) : StratumSubmission :=
  let submission := share.submission
  let en2Len :=
    if submission.protocol = .sv2Extended then min (submission.extranonce2.length / 2) 32 else 0
  let extranonce2 := (hex2bin en2Len submission.extranonce2 stack.toList).take en2Len
  match s.transport, s.sv2Conn with
  | some transport, some id =>
      let conn := s.sv2Conns id
      let s := s.use (.sv2Conn id)
      if s.noiseCtx id = false ∨ submission.workGeneration ≠ s.stratumWorkGeneration ∨
          conn.poolIdx ≠ submission.poolId then s
      else
        let s := s.setSv2Conn id { conn with sequenceNumber := conn.sequenceNumber + 1 }
        match sv2BuildSubmitShares SV2_SUBMIT_SHARES_MAX_FRAME_SIZE conn.channelId
            conn.sequenceNumber (strtoul submission.jobId) submission.nonce submission.ntime
            submission.finalVersion extranonce2 with
        | none => s
        | some _ => s.writeShare transport (.sequence conn.sequenceNumber) share sent
  | _, _ => s

/-- The next step of `stratum_submission_task`.  `poolIdx` is the pool that
`stratum_submit_share` finds selected. -/
def submitterStep (s : StratumSubmission) (poolIdx : U16) (stack : Vector U8 32) (sent : Bool) :
    StratumSubmission :=
  match s.submitter with
  | .receive =>
      match s.queue with
      | [] => s
      | share :: queue => { s with queue := queue, submitter := .checkCurrent share }
  | .checkCurrent share =>
      { s with
        submitter := if share.submission.workGeneration = s.stratumWorkGeneration
          then .checkPool share else .receive }
  | .checkPool share =>
      { s with
        submitter := if share.submission.poolId = poolIdx.setWidth 8
          then .submit share else .receive }
  | .submit share =>
      let submitted :=
        if share.submission.protocol = .v1 then s.v1SubmitShare share sent
        else s.v2SubmitShare share stack sent
      { submitted with submitter := .receive }

/-! ## Runs -/

/-- One step of somebody.  `reconnect` is `stratum_request_reconnect` of any other
task, which shuts down the socket of the transport. -/
inductive Input where
  | start (protocol : StratumProtocol) (poolIdx : U16)
  | receiver (ok : Bool)
  | message (message : ReceivedMessage)
  | reconnect
  | queueShare (job : Nat) (submission : AsicShareSubmission) (captured : Bool)
  | submitter (poolIdx : U16) (stack : Vector U8 32) (sent : Bool)

/-- The receive task enters `stratum_v1_run` or `stratum_v2_run`. -/
def start (s : StratumSubmission) (protocol : StratumProtocol) (poolIdx : U16) :
    StratumSubmission :=
  match s.receiver, protocol with
  | .idle, .v1 => s.goTo (.v1FreeConn poolIdx)
  | .idle, .v2 => s.goTo (.v2FreeConn (some poolIdx))
  | _, _ => s

/-- The receive loop gets a line or a frame that matters here. -/
def receive (s : StratumSubmission) (message : ReceivedMessage) : StratumSubmission :=
  match s.receiver with
  | .v1Loop transport => s.v1Receive transport message
  | .v2Setup transport 4 => s.v2OpenChannel transport message
  | .v2Loop transport => s.v2Receive transport message
  | _ => s

/-- The next step of the receive task, in whichever session it is. -/
def receiverStep (s : StratumSubmission) (ok : Bool) : StratumSubmission :=
  match s.receiver with
  | .idle => s
  | .v2FreeConn _ | .v2ClearConn _ | .v2AllocConn _ | .v2AllocBuffers | .v2InitTransport
  | .v2Connect _ | .v2SetTransport _ | .v2UpdatePending _ | .v2CreateNoise _ | .v2Setup _ _
  | .v2Loop _ | .v2CloseConnection _ | .v2Invalidate => s.v2Step ok
  | _ => s.v1Step ok

def requestReconnect (s : StratumSubmission) : StratumSubmission :=
  match s.transport with
  | some transport => s.use (.transport transport)
  | none => s

def step (s : StratumSubmission) : Input → StratumSubmission
  | .start protocol poolIdx => s.start protocol poolIdx
  | .receiver ok => s.receiverStep ok
  | .message message => s.receive message
  | .reconnect => s.requestReconnect
  | .queueShare job submission captured => s.queueShare job submission captured
  | .submitter poolIdx stack sent => s.submitterStep poolIdx stack sent

/-- The tasks when they have just been created. -/
def initial : StratumSubmission where
  transport := none
  sv1Conn := none
  sv2Conn := none
  allocated := 0
  sv1Conns := fun _ => .zero
  sv2Conns := fun _ => .zero
  noiseCtx := fun _ => false
  messageAllocated := false
  stratumWorkGeneration := 0
  published := 0
  jobs := fun _ => .zero
  tickets := 0
  queue := []
  receiver := .idle
  submitter := .receive
  trace := []

end StratumSubmission

end EspMiner
