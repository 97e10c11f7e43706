import EspMiner.Asic.Job
import EspMiner.Library.Run
import EspMiner.Stratum.Sv2Protocol
import EspMiner.Stratum.Work
import Mathlib.Logic.Function.Basic

/-!
# The Stratum V2 client

`main/tasks/stratum_v2_client.c` from the moment the mining channel is open: the
frames of the receive loop, the shares that the submission task sends, and the
job task taking the latest notified slot.  Each of them, and an invalidation of
the work by another task, is one step of a machine.

`hash_to_pdiff` computes in floating point and is a parameter; a difficulty is
the bit pattern of a C `double`.  The trace records what the client calls, which
messages it takes for a template or for an answer to shares, and where a share
gets its sequence number.
-/

namespace EspMiner

open Library

def SV2_MAX_ACTIVE_JOB_IDS : Nat := 16

/-- `sv2_conn_t` of an open channel, as far as the loop reads it.  The bit mask
of the pending slots is a function. -/
structure Sv2Conn where
  channelId : U32
  groupChannelId : U32
  versionMask : U32
  sequenceNumber : U32
  resolvedShares : U32
  target : Vector U8 32
  poolIdx : U8
  pendingJobsValid : Fin MINER_JOB_POOL_SIZE → Bool
  prevHash : Vector U8 32
  prevHashNtime : U32
  prevHashNbits : U32
  hasPrevHash : Bool
  channelType : Sv2ChannelType
  extranoncePrefix : Vector U8 32
  extranoncePrefixLen : U8
  extranonceSize : U8
  activeJobIds : List U32

/-- What the client did, and what it made of a message. -/
inductive Sv2Event where
  | template (jobId : U32) (job : MinerJob)
  | published (job : MinerJob) (slot : Fin MINER_JOB_POOL_SIZE)
  | invalidated
  | submitted (sequenceNumber : U32)
  | sent (sequenceNumber : U32) (frame : List U8)
  | successAnswer (lastSequenceNumber : U32)
  | acceptedShare
  | errorAnswer (sequenceNumber : U32)
  | rejectedShare (errorCode : List U8)

/-- The state that the receive loop, the submission task and the job task share,
with the slot that is notified, the slot that the job task works on, and the
trace. -/
structure StratumV2Client where
  conn : Sv2Conn
  jobPool : MinerJobPool
  stratumWorkGeneration : U64
  slotNotify : Option (Fin MINER_JOB_POOL_SIZE)
  currentWork : Option (Fin MINER_JOB_POOL_SIZE)
  poolDifficulty : U64
  sharesPending : U16
  trace : List Sv2Event

/-- `add_active_job_id`; the oldest id makes room for a new one. -/
def addActiveJobId (activeJobIds : List U32) (jobId : U32) : Option (List U32) :=
  if jobId ∈ activeJobIds then none
  else if activeJobIds.length < SV2_MAX_ACTIVE_JOB_IDS then some (activeJobIds ++ [jobId])
  else some (activeJobIds.drop 1 ++ [jobId])

namespace StratumV2Client

def record (c : StratumV2Client) (event : Sv2Event) : StratumV2Client :=
  { c with trace := event :: c.trace }

/-- Write a slot of the job pool. -/
def setSlot (c : StratumV2Client) (slot : Fin MINER_JOB_POOL_SIZE) (job : MinerJob) :
    StratumV2Client :=
  { c with jobPool := Function.update c.jobPool slot job }

def setConn (c : StratumV2Client) (conn : Sv2Conn) : StratumV2Client := { c with conn := conn }

/-- Set or clear the bit of a slot in `pending_jobs_valid`. -/
def setPending (c : StratumV2Client) (slot : Fin MINER_JOB_POOL_SIZE) (valid : Bool) :
    StratumV2Client :=
  c.setConn { c.conn with
    pendingJobsValid := Function.update c.conn.pendingJobsValid slot valid }

/-- `stratum_publish_job` for the job in a slot -/
def stratumPublishJob (c : StratumV2Client) (slot : Fin MINER_JOB_POOL_SIZE) : StratumV2Client :=
  let job := c.jobPool slot
  let generation :=
    if job.cleanJobs then nextWorkGeneration c.stratumWorkGeneration
    else c.stratumWorkGeneration
  let job := { job with workGeneration := generation }
  { (c.setSlot slot job).record (.published job slot) with
    stratumWorkGeneration := generation
    slotNotify := some slot }

/-- `stratum_invalidate_work` -/
def stratumInvalidateWork (c : StratumV2Client) : StratumV2Client :=
  { c.record .invalidated with
    stratumWorkGeneration := nextWorkGeneration c.stratumWorkGeneration }

/-- `create_jobs_task` takes the notification. -/
def takeNotification (c : StratumV2Client) : StratumV2Client :=
  match c.slotNotify with
  | none => c
  | some slot => { c with slotNotify := none, currentWork := some slot }

/-! ## Job messages -/

/-- The extranonce fields that an extended job takes from the connection. -/
def withExtranonce (job : MinerJob) (conn : Sv2Conn) : MinerJob :=
  let len := if 32 < conn.extranoncePrefixLen.toNat then 32#8 else conn.extranoncePrefixLen
  { job with
    extranonce1Len := len
    extranonce1 := copyBytes len.toNat conn.extranoncePrefix job.extranonce1
    extranonce2Len := conn.extranonceSize }

/-- A job for the chain tip that the connection has stored. -/
def withStoredTip (job : MinerJob) (conn : Sv2Conn) : MinerJob :=
  { job with
    prevHash := conn.prevHash
    nbits := conn.prevHashNbits
    cleanJobs := false }

section Client

variable (hashToPdiff : Vector U8 32 → U64)

/-- The end of both job handlers.  Job `job` is in its slot with its bit set; a
job with a minimal time for a known tip is published at once unless its id is
active already. -/
def finishJob (c : StratumV2Client) (jobId : U32) (slot : Fin MINER_JOB_POOL_SIZE)
    (minNtime : Option U32) : StratumV2Client :=
  match minNtime with
  | none => c.record (.template jobId (c.jobPool slot))
  | some minNtime =>
      if c.conn.hasPrevHash = false then c.record (.template jobId (c.jobPool slot))
      else
        match addActiveJobId c.conn.activeJobIds jobId with
        | none => c  -- duplicate
        | some activeJobIds =>
            let c := c.record (.template jobId (c.jobPool slot))
            let c := c.setConn { c.conn with activeJobIds := activeJobIds }
            let job := { withStoredTip (c.jobPool slot) c.conn with ntime := minNtime }
            (c.setSlot slot job).stratumPublishJob slot

/-- The job that a NewExtendedMiningJob leaves in its slot. -/
def extendedJob (c : StratumV2Client) (message : Sv2NewExtendedMiningJob) (job : MinerJob) :
    MinerJob :=
  withExtranonce { job with
    poolId := c.conn.poolIdx
    poolDiff := hashToPdiff c.conn.target
    versionMask := if message.versionRollingAllowed then c.conn.versionMask else 0 } c.conn

/-- `stratum_v2_handle_new_extended_mining_job` -/
def handleNewExtendedMiningJob (c : StratumV2Client) (payload : List U8)
    (buffers : CoinbaseBuffers) : StratumV2Client :=
  if payload.length < 8 then c
  else
    let jobId := readU32Le payload 4
    let slot := minerJobSlot jobId
    match sv2ParseNewExtendedMiningJob payload buffers (c.jobPool slot) with
    | (none, job) => (c.setSlot slot job).setPending slot false
    | (some message, job) =>
        let c := c.setSlot slot job
        if sv2ChannelOrGroupMatches message.channelId c.conn.channelId c.conn.groupChannelId = false
        then c.setPending slot false
        else
          ((c.setSlot slot (c.extendedJob hashToPdiff message job)).setPending slot true).finishJob
            jobId slot message.minNtime

/-- The job that a NewMiningJob leaves in its slot. -/
def standardJob (c : StratumV2Client) (message : Sv2NewMiningJob) : MinerJob :=
  { MinerJob.zero with
    type := .sv2Standard
    jobId := strcpyZeroed 32 (decimalText message.jobId.toNat)
    version := message.version
    merkleRoot := message.merkleRoot
    poolId := c.conn.poolIdx
    poolDiff := hashToPdiff c.conn.target
    versionMask := c.conn.versionMask }

/-- `stratum_v2_handle_new_mining_job` -/
def handleNewMiningJob (c : StratumV2Client) (payload : List U8) : StratumV2Client :=
  match sv2ParseNewMiningJob payload with
  | none => c
  | some message =>
      if sv2ChannelOrGroupMatches message.channelId c.conn.channelId c.conn.groupChannelId = false
      then c
      else
        let slot := minerJobSlot message.jobId
        ((c.setSlot slot (c.standardJob hashToPdiff message)).setPending slot true).finishJob
          message.jobId slot message.minNtime

/-- The connection with the tip of a SetNewPrevHash stored. -/
def tipConn (conn : Sv2Conn) (message : Sv2SetNewPrevHash) : Sv2Conn :=
  { conn with
    prevHash := message.prevHash
    prevHashNtime := message.minNtime
    prevHashNbits := message.nbits
    hasPrevHash := true }

/-- The job that SetNewPrevHash publishes. -/
def activatedJob (conn : Sv2Conn) (message : Sv2SetNewPrevHash) (job : MinerJob) : MinerJob :=
  let job := { job with
    prevHash := message.prevHash
    ntime := message.minNtime
    nbits := message.nbits
    cleanJobs := true
    poolId := conn.poolIdx
    poolDiff := hashToPdiff conn.target }
  if job.type = .sv2Standard then { job with versionMask := conn.versionMask }
  else if job.type = .sv2Extended then withExtranonce job conn
  else job

/-- `stratum_v2_handle_set_new_prev_hash` -/
def handleSetNewPrevHash (c : StratumV2Client) (payload : List U8) : StratumV2Client :=
  match sv2ParseSetNewPrevHash payload with
  | none => c
  | some message =>
      if sv2ChannelOrGroupMatches message.channelId c.conn.channelId c.conn.groupChannelId = false
      then c
      else
        let c := c.setConn (tipConn c.conn message)
        let slot := minerJobSlot message.jobId
        if c.conn.pendingJobsValid slot = true ∧
            strtoul (c.jobPool slot).jobId.toList = message.jobId then
          let c := c.setConn { c.conn with activeJobIds := [message.jobId] }
          (c.setSlot slot
            (activatedJob hashToPdiff c.conn message (c.jobPool slot))).stratumPublishJob slot
        else c

/-- `isnan || isinf || < 0.0001 || > 4294967295.0`, on the bits of a double: the
negative values, the infinities and the NaNs have larger bits than the bound. -/
def pdiffOutOfRange (pdiff : U64) : Bool :=
  decide (pdiff < 0x3f1a36e2eb1c432d#64) || decide (0x41efffffffe00000#64 < pdiff)

/-- `stratum_v2_handle_set_target` -/
def handleSetTarget (c : StratumV2Client) (payload : List U8) : StratumV2Client :=
  match sv2ParseSetTarget payload with
  | none => c
  | some message =>
      if sv2ChannelOrGroupMatches message.channelId c.conn.channelId c.conn.groupChannelId = false
      then c
      else
        let pdiff := hashToPdiff message.maxTarget
        if pdiffOutOfRange pdiff then c
        else { c.setConn { c.conn with target := message.maxTarget } with poolDifficulty := pdiff }

/-! ## Shares -/

/-- `stratum_v2_update_pending_shares` -/
def updatePendingShares (c : StratumV2Client) : StratumV2Client :=
  let pending :=
    if c.conn.resolvedShares < c.conn.sequenceNumber then
      c.conn.sequenceNumber - c.conn.resolvedShares
    else 0
  { c with sharesPending := if 0xffff#32 < pending then 0xffff else pending.setWidth 16 }

/-- `if (resolved > conn->resolved_shares) conn->resolved_shares = resolved` -/
def resolveShares (c : StratumV2Client) (resolved : U32) : StratumV2Client :=
  if c.conn.resolvedShares < resolved then
    c.setConn { c.conn with resolvedShares := resolved }
  else c

/-- `accepted_count`, clamped to the pending shares -/
def clampedAcceptedCount (conn : Sv2Conn) (acceptedCount : U32) : U32 :=
  let pending :=
    if conn.resolvedShares < conn.sequenceNumber then conn.sequenceNumber - conn.resolvedShares
    else 0
  if pending < acceptedCount then pending else acceptedCount

/-- The case `SV2_MSG_SUBMIT_SHARES_SUCCESS` of the loop, without its timing -/
def handleSubmitSharesSuccess (c : StratumV2Client) (payload : List U8) : StratumV2Client :=
  match sv2ParseSubmitSharesSuccess payload with
  | none => c
  | some message =>
      if message.channelId ≠ c.conn.channelId then c
      else
        let accepted := clampedAcceptedCount c.conn message.acceptedCount
        let c := c.record (.successAnswer message.lastSequenceNumber)
        let c := { c with
          trace := List.replicate accepted.toNat Sv2Event.acceptedShare ++ c.trace }
        (c.resolveShares (message.lastSequenceNumber + 1)).updatePendingShares

/-- The case `SV2_MSG_SUBMIT_SHARES_ERROR` of the loop -/
def handleSubmitSharesError (c : StratumV2Client) (payload : List U8) : StratumV2Client :=
  match sv2ParseSubmitSharesError payload with
  | none => c
  | some message =>
      if message.channelId ≠ c.conn.channelId then c
      else
        let c := (c.record (.errorAnswer message.seqNum)).record (.rejectedShare message.errorCode)
        (c.resolveShares (message.seqNum + 1)).updatePendingShares

/-- `stratum_v2_submit_share` on an open connection.  `stack` is what the array
`extranonce_2` holds before, `sendResult` what `sv2_noise_send` returns. -/
def stratumV2SubmitShare (c : StratumV2Client) (share : AsicShareSubmission)
    (stack : Vector U8 32) (sendResult : Int) : StratumV2Client :=
  let en2Len := if share.protocol = .sv2Extended then min (share.extranonce2.length / 2) 32 else 0
  let extranonce2 := (hex2bin en2Len share.extranonce2 stack.toList).take en2Len
  if share.workGeneration ≠ c.stratumWorkGeneration ∨ c.conn.poolIdx ≠ share.poolId then c
  else
    let sequenceNumber := c.conn.sequenceNumber
    let c := c.setConn { c.conn with sequenceNumber := sequenceNumber + 1 }
    let c := c.record (.submitted sequenceNumber)
    match sv2BuildSubmitShares SV2_SUBMIT_SHARES_MAX_FRAME_SIZE c.conn.channelId sequenceNumber
        (strtoul share.jobId) share.nonce share.ntime share.finalVersion extranonce2 with
    | none => c
    | some frame =>
        if sendResult < 0 then c
        else (c.record (.sent sequenceNumber frame)).updatePendingShares

/-! ## Runs -/

/-- One iteration of the receive loop, for one received frame. -/
def handleFrame (c : StratumV2Client) (msgType : U8) (payload : List U8)
    (buffers : CoinbaseBuffers) : StratumV2Client :=
  if msgType = SV2_MSG_NEW_MINING_JOB then
    if c.conn.channelType = .standard then c.handleNewMiningJob hashToPdiff payload else c
  else if msgType = SV2_MSG_NEW_EXTENDED_MINING_JOB then
    if c.conn.channelType = .extended then
      c.handleNewExtendedMiningJob hashToPdiff payload buffers
    else c
  else if msgType = SV2_MSG_SET_NEW_PREV_HASH then c.handleSetNewPrevHash hashToPdiff payload
  else if msgType = SV2_MSG_SET_TARGET then c.handleSetTarget hashToPdiff payload
  else if msgType = SV2_MSG_SUBMIT_SHARES_SUCCESS then c.handleSubmitSharesSuccess payload
  else if msgType = SV2_MSG_SUBMIT_SHARES_ERROR then c.handleSubmitSharesError payload
  else c

/-- What can happen while the channel is open. -/
inductive Input where
  | frame (msgType : U8) (payload : List U8) (buffers : CoinbaseBuffers)
  | submit (share : AsicShareSubmission) (stack : Vector U8 32) (sendResult : Int)
  | invalidate
  | take

def step (c : StratumV2Client) : Input → StratumV2Client
  | .frame msgType payload buffers => c.handleFrame hashToPdiff msgType payload buffers
  | .submit share stack sendResult => c.stratumV2SubmitShare share stack sendResult
  | .invalidate => c.stratumInvalidateWork
  | .take => c.takeNotification

end Client

/-- The client when its channel has just been opened: the connection was
zeroed, except for what the pool said on opening it. -/
structure Opened (c : StratumV2Client) : Prop where
  sequenceNumber : c.conn.sequenceNumber = 0
  resolvedShares : c.conn.resolvedShares = 0
  pendingJobsValid : ∀ slot, c.conn.pendingJobsValid slot = false
  hasPrevHash : c.conn.hasPrevHash = false
  activeJobIds : c.conn.activeJobIds = []
  sharesPending : c.sharesPending = 0
  trace : c.trace = []

/-! ## An open channel -/

/-- Channel 1 of the given type, just opened, on a board that has seen no work. -/
def openChannel (channelType : Sv2ChannelType) : StratumV2Client where
  conn :=
    { channelId := 1
      groupChannelId := 0
      versionMask := 0x1fffe000
      sequenceNumber := 0
      resolvedShares := 0
      target := Vector.replicate 32 0xff
      poolIdx := 0
      pendingJobsValid := fun _ => false
      prevHash := Vector.replicate 32 0
      prevHashNtime := 0
      prevHashNbits := 0
      hasPrevHash := false
      channelType := channelType
      extranoncePrefix := Vector.replicate 32 0
      extranoncePrefixLen := 4
      extranonceSize := 4
      activeJobIds := [] }
  jobPool := fun _ => .zero
  stratumWorkGeneration := 0
  slotNotify := none
  currentWork := none
  poolDifficulty := 0
  sharesPending := 0
  trace := []

theorem openChannel_opened (channelType : Sv2ChannelType) : (openChannel channelType).Opened :=
  ⟨rfl, rfl, fun _ => rfl, rfl, rfl, rfl, rfl⟩

/-- A NewMiningJob on channel 1. -/
def newMiningJobFrame (jobId : U32) (minNtime : Option U32) : Input :=
  .frame SV2_MSG_NEW_MINING_JOB (writeLe32 1 ++ writeLe32 jobId ++
    (match minNtime with
      | none => [0]
      | some minNtime => 1 :: writeLe32 minNtime) ++
    writeLe32 0x20000000 ++ List.replicate 32 0xab) .full

/-- A NewExtendedMiningJob without a minimal time. -/
def newExtendedMiningJobFrame (channelId jobId : U32) : Input :=
  .frame SV2_MSG_NEW_EXTENDED_MINING_JOB (writeLe32 channelId ++ writeLe32 jobId ++ [0] ++
    writeLe32 0x20000000 ++ [1, 0] ++ [2, 0, 0xaa, 0xbb] ++ [2, 0, 0xcc, 0xdd]) .full

/-- A SetNewPrevHash on channel 1. -/
def setNewPrevHashFrame (jobId : U32) (prevHashByte : U8) : Input :=
  .frame SV2_MSG_SET_NEW_PREV_HASH (writeLe32 1 ++ writeLe32 jobId ++
    List.replicate 32 prevHashByte ++ writeLe32 1700000000 ++ writeLe32 0x1d00ffff) .full

end StratumV2Client

end EspMiner
