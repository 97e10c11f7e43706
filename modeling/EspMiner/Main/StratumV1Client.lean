import EspMiner.Library.Run
import EspMiner.Stratum.CoinbaseDecoder
import EspMiner.Stratum.Sv1Protocol
import EspMiner.Stratum.Work
import Mathlib.Logic.Function.Basic

/-!
# The Stratum V1 client

`main/tasks/stratum_v1_client.c`: the receive loop of a session, one step for
each line, and the job task taking the latest notified slot.  The two tasks
share two slots of the job pool: a line is parsed into the slot that the job
task does not work on, before the client knows whether it will publish it.

A session starts in one step, with its three setup requests sent.  Difficulties
are the bit patterns of C `double`s.
-/

namespace EspMiner

open Library

def SV1_MAX_ACTIVE_JOB_IDS : Nat := 16

/-- `sv1_conn_t`, as far as the receive loop uses it.  An active job id is the
string in its array. -/
structure Sv1Conn where
  sendUid : Int
  configureUid : Int
  versionRollingEnabled : Bool
  subscribed : Bool
  poolDifficulty : U64
  versionMask : U32
  extranonce1 : Vector U8 32
  extranonce1Len : U8
  extranonce2Len : U8
  poolIdx : U8
  activeJobIds : List (List U8)

/-- What the client did. -/
inductive Sv1Event where
  | published (job : MinerJob) (slot : Fin MINER_JOB_POOL_SIZE)
  | taken (job : MinerJob) (slot : Fin MINER_JOB_POOL_SIZE)
  | invalidated
  | pong (messageId : Int)
  | sendVersion (messageId : Int)
  | suggestDifficulty (uid : Int) (difficulty : U16)
  | extranonceSubscribe (uid : Int)
  | acceptedShare
  | rejectedShare (errorStr : Option (List U8))

/-- The locals of `stratum_v1_run` that outlive a line, with the connection. -/
structure Sv1Session where
  conn : Sv1Conn
  authorizeMessageId : Int
  difficulty : U16
  extranonceSubscribe : Bool

/-- The state that the receive loop and the job task share, with the notified
slot, the slot that the job task works on, and the trace. -/
structure StratumV1Client where
  session : Option Sv1Session
  jobPool : MinerJobPool
  stratumWorkGeneration : U64
  slotNotify : Option (Fin MINER_JOB_POOL_SIZE)
  activeJobSlotIdx : Fin MINER_JOB_POOL_SIZE
  currentWork : Option (Fin MINER_JOB_POOL_SIZE)
  poolDifficulty : U64
  sharesPending : U16
  trace : List Sv1Event

/-- The string in an array. -/
def cString (bytes : List U8) : List U8 := bytes.takeWhile (· ≠ 0#8)

/-- `STRATUM_V1_apply_version_mask` -/
def stratumV1ApplyVersionMask (conn : Sv1Conn) (message : StratumApiV1Message)
    (supportedMask : U32) : Sv1Conn :=
  let apply (conn : Sv1Conn) : Sv1Conn :=
    { conn with
      versionMask := if conn.versionRollingEnabled then message.versionMask &&& supportedMask
        else 0 }
  if message.method = .stratumResultConfigure then
    if message.messageId ≠ conn.configureUid then conn
    else apply { conn with versionRollingEnabled := message.responseSuccess }
  else if message.method ≠ .miningSetVersionMask ∨ conn.versionRollingEnabled = false then conn
  else apply conn

namespace Sv1Conn

/-- `add_active_job_id`; the oldest id makes room for a new one. -/
def addActiveJobId (activeJobIds : List (List U8)) (jobId : List U8) : Option (List (List U8)) :=
  if jobId ∈ activeJobIds then none
  else if activeJobIds.length < SV1_MAX_ACTIVE_JOB_IDS then some (activeJobIds ++ [jobId])
  else some (activeJobIds.drop 1 ++ [jobId])

/-- What a parsed job takes from the connection. -/
def configureJob (conn : Sv1Conn) (job : MinerJob) : MinerJob :=
  { job with
    poolId := conn.poolIdx
    poolDiff := conn.poolDifficulty
    versionMask := conn.versionMask
    extranonce1Len := conn.extranonce1Len
    extranonce1 := copyBytes conn.extranonce1Len.toNat conn.extranonce1 job.extranonce1
    extranonce2Len := conn.extranonce2Len }

/-- The active ids after a job, or `none` if the client ignores the job: it is
not subscribed, the coinbase is invalid, or the id is a duplicate. -/
def acceptJob (conn : Sv1Conn) (buffers : CoinbaseBuffers) (job : MinerJob) :
    Option (List (List U8)) :=
  if conn.subscribed = false ∨ coinbaseValidateMinerJob buffers job = false then none
  else
    let jobId := cString job.jobId.toList
    if jobId = [] then some conn.activeJobIds
    else addActiveJobId (if job.cleanJobs then [] else conn.activeJobIds) jobId

/-- The cases `MINING_SET_EXTRANONCE` and `STRATUM_RESULT_SUBSCRIBE` of the loop -/
def setExtranonce (conn : Sv1Conn) (message : StratumApiV1Message) : Sv1Conn :=
  if message.extranonce2Len < 0 ∨ MAX_EXTRANONCE_2_LEN < message.extranonce2Len then conn
  else if message.method = .stratumResultSubscribe ∧ message.messageId ≠ 2 then conn
  else
    let text := message.extranonceStr.getD []
    let len := min (text.length / 2) 32
    { conn with
      subscribed := conn.subscribed || decide (message.method = .stratumResultSubscribe)
      extranonce2Len := BitVec.ofInt 8 message.extranonce2Len
      extranonce1 := bytes32 (hex2bin len text conn.extranonce1.toList)
      extranonce1Len := BitVec.ofNat 8 len }

end Sv1Conn

namespace StratumV1Client

def record (c : StratumV1Client) (event : Sv1Event) : StratumV1Client :=
  { c with trace := event :: c.trace }

/-- Write a slot of the job pool. -/
def setSlot (c : StratumV1Client) (slot : Fin MINER_JOB_POOL_SIZE) (job : MinerJob) :
    StratumV1Client :=
  { c with jobPool := Function.update c.jobPool slot job }

def setSession (c : StratumV1Client) (session : Option Sv1Session) : StratumV1Client :=
  { c with session := session }

/-- `(active_job_slot_idx + 1) % 2` -/
def targetSlot (c : StratumV1Client) : Fin MINER_JOB_POOL_SIZE :=
  ⟨(c.activeJobSlotIdx.val + 1) % 2, by unfold MINER_JOB_POOL_SIZE; omega⟩

/-- `stratum_publish_job` for the job in a slot -/
def stratumPublishJob (c : StratumV1Client) (slot : Fin MINER_JOB_POOL_SIZE) : StratumV1Client :=
  let job := c.jobPool slot
  let generation :=
    if job.cleanJobs then nextWorkGeneration c.stratumWorkGeneration
    else c.stratumWorkGeneration
  let job := { job with workGeneration := generation }
  { (c.setSlot slot job).record (.published job slot) with
    stratumWorkGeneration := generation
    slotNotify := some slot }

/-- `stratum_invalidate_work` -/
def stratumInvalidateWork (c : StratumV1Client) : StratumV1Client :=
  { c.record .invalidated with
    stratumWorkGeneration := nextWorkGeneration c.stratumWorkGeneration }

/-- `create_jobs_task` takes the notification. -/
def takeNotification (c : StratumV1Client) : StratumV1Client :=
  match c.slotNotify with
  | none => c
  | some slot =>
      { c.record (.taken (c.jobPool slot) slot) with
        slotNotify := none
        activeJobSlotIdx := slot
        currentWork := some slot }

/-- The case `MINING_NOTIFY` of the loop; the job has been parsed into the slot. -/
def handleMiningNotify (c : StratumV1Client) (session : Sv1Session) (buffers : CoinbaseBuffers)
    (slot : Fin MINER_JOB_POOL_SIZE) : StratumV1Client :=
  let c := c.setSlot slot (session.conn.configureJob (c.jobPool slot))
  match session.conn.acceptJob buffers (c.jobPool slot) with
  | none => c
  | some activeJobIds =>
      (c.setSession (some { session with
        conn := { session.conn with activeJobIds := activeJobIds } })).stratumPublishJob slot

/-- `stratum_v1_close_connection` -/
def closeConnection (c : StratumV1Client) : StratumV1Client :=
  { c.setSession none with sharesPending := 0 }.stratumInvalidateWork

/-- The case `STRATUM_RESULT` of the loop -/
def handleResult (c : StratumV1Client) (session : Sv1Session) (timed : Bool)
    (message : StratumApiV1Message) : StratumV1Client :=
  if timed then
    let c := { c with sharesPending := c.sharesPending - if 0 < c.sharesPending then 1 else 0 }
    if message.responseSuccess then c.record .acceptedShare
    else c.record (.rejectedShare message.errorStr)
  else if message.responseSuccess = true ∧ message.messageId = session.authorizeMessageId then
    let conn := session.conn
    let (c, conn) :=
      if 0 < session.difficulty then
        (c.record (.suggestDifficulty conn.sendUid session.difficulty),
          { conn with sendUid := conn.sendUid + 1 })
      else (c, conn)
    let (c, conn) :=
      if session.extranonceSubscribe then
        (c.record (.extranonceSubscribe conn.sendUid), { conn with sendUid := conn.sendUid + 1 })
      else (c, conn)
    c.setSession (some { session with conn := conn })
  else c

section Client

variable (asicDifficulty : U64) (supportedMask : U32)

/-- The connection that `stratum_v1_run` has made when its loop starts: the
requests with the ids 1, 2 and 3 are sent. -/
def newConn (poolIdx : U8) : Sv1Conn where
  sendUid := 4
  configureUid := 1
  versionRollingEnabled := false
  subscribed := false
  poolDifficulty := asicDifficulty
  versionMask := 0
  extranonce1 := Vector.replicate 32 0
  extranonce1Len := 0
  extranonce2Len := 0
  poolIdx := poolIdx
  activeJobIds := []

/-- `stratum_v1_run` up to its loop. -/
def connect (c : StratumV1Client) (poolIdx : U8) (difficulty : U16) (extranonceSubscribe : Bool) :
    StratumV1Client :=
  let session : Sv1Session :=
    { conn := newConn asicDifficulty poolIdx
      authorizeMessageId := 3
      difficulty := difficulty
      extranonceSubscribe := extranonceSubscribe }
  { c.setSession (some session) with sharesPending := 0 }.stratumInvalidateWork

/-- What the loop does with a message, once the line is parsed. -/
def handleMessage (c : StratumV1Client) (session : Sv1Session) (line : StratumV1Line)
    (slot : Fin MINER_JOB_POOL_SIZE) (message : StratumApiV1Message) : StratumV1Client :=
  match message.method with
  | .methodUnknown | .clientShowMessage => c
  | .miningNotify => c.handleMiningNotify session line.buffers slot
  | .miningSetDifficulty =>
      -- `requested_diff < asic_diff`, on the bits of positive doubles
      let difficulty := if message.newDifficulty < asicDifficulty then asicDifficulty
        else message.newDifficulty
      { c.setSession (some { session with
          conn := { session.conn with poolDifficulty := difficulty } }) with
        poolDifficulty := difficulty }
  | .miningSetVersionMask | .stratumResultConfigure =>
      c.setSession (some { session with
        conn := stratumV1ApplyVersionMask session.conn message supportedMask })
  | .miningSetExtranonce | .stratumResultSubscribe =>
      c.setSession (some { session with conn := session.conn.setExtranonce message })
  | .miningPing => c.record (.pong message.messageId)
  | .clientReconnect => c.closeConnection
  | .clientGetVersion => c.record (.sendVersion message.messageId)
  | .stratumResult => c.handleResult session line.timed message

/-- One iteration of the receive loop, for one received line. -/
def handleLine (c : StratumV1Client) (session : Sv1Session) (line : StratumV1Line) :
    StratumV1Client :=
  let parsed := stratumV1Parse line (c.jobPool c.targetSlot)
  let written := c.setSlot c.targetSlot parsed.2
  match parsed.1 with
  | none => written
  | some message =>
      written.handleMessage asicDifficulty supportedMask session line c.targetSlot message

/-- What can happen to the client and the job task.  `disconnect` stands for a
failed read, a reconnect request and a pause. -/
inductive Input where
  | connect (poolIdx : U8) (difficulty : U16) (extranonceSubscribe : Bool)
  | line (line : StratumV1Line)
  | disconnect
  | take

def step (c : StratumV1Client) : Input → StratumV1Client
  | .connect poolIdx difficulty extranonceSubscribe =>
      match c.session with
      | none => c.connect asicDifficulty poolIdx difficulty extranonceSubscribe
      | some _ => c
  | .line line =>
      match c.session with
      | none => c
      | some session => c.handleLine asicDifficulty supportedMask session line
  | .disconnect =>
      match c.session with
      | none => c
      | some _ => c.closeConnection
  | .take => c.takeNotification

end Client

/-- The board when the Stratum V1 client takes over: no notification waits, and
the job task works on the active slot, if it works at all. -/
structure Started (c : StratumV1Client) : Prop where
  slotNotify : c.slotNotify = none
  currentWork : ∀ slot, c.currentWork = some slot → c.activeJobSlotIdx = slot
  trace : c.trace = []

end StratumV1Client

end EspMiner
