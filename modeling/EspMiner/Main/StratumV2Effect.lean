import EspMiner.Main.StratumV2Client

/-!
# What a step of the Stratum V2 client does

The messages that get past the parsers and the channel check, and one lemma that
lists the ways a step can go.
-/

namespace EspMiner

open Library

namespace StratumV2Client

/-! ## Fields after an elementary change -/

section Fields

variable (c : StratumV2Client) (slot : Fin MINER_JOB_POOL_SIZE) (job : MinerJob) (valid : Bool)
  (event : Sv2Event) (conn : Sv2Conn)

@[simp] theorem record_conn : (c.record event).conn = c.conn := rfl
@[simp] theorem record_jobPool : (c.record event).jobPool = c.jobPool := rfl
@[simp] theorem record_trace : (c.record event).trace = event :: c.trace := rfl
@[simp] theorem record_generation :
    (c.record event).stratumWorkGeneration = c.stratumWorkGeneration := rfl
@[simp] theorem setSlot_conn : (c.setSlot slot job).conn = c.conn := rfl
@[simp] theorem setSlot_jobPool :
    (c.setSlot slot job).jobPool = Function.update c.jobPool slot job := rfl
@[simp] theorem setSlot_trace : (c.setSlot slot job).trace = c.trace := rfl
@[simp] theorem setSlot_generation :
    (c.setSlot slot job).stratumWorkGeneration = c.stratumWorkGeneration := rfl
@[simp] theorem setConn_conn : (c.setConn conn).conn = conn := rfl
@[simp] theorem setConn_jobPool : (c.setConn conn).jobPool = c.jobPool := rfl
@[simp] theorem setConn_trace : (c.setConn conn).trace = c.trace := rfl
@[simp] theorem setConn_generation :
    (c.setConn conn).stratumWorkGeneration = c.stratumWorkGeneration := rfl
@[simp] theorem setPending_conn : (c.setPending slot valid).conn = { c.conn with
    pendingJobsValid := Function.update c.conn.pendingJobsValid slot valid } := rfl
@[simp] theorem setPending_jobPool : (c.setPending slot valid).jobPool = c.jobPool := rfl
@[simp] theorem setPending_trace : (c.setPending slot valid).trace = c.trace := rfl
@[simp] theorem setPending_generation :
    (c.setPending slot valid).stratumWorkGeneration = c.stratumWorkGeneration := rfl

end Fields

/-- The generation that a publication leaves. -/
def publishedGeneration (generation : U64) (job : MinerJob) : U64 :=
  if job.cleanJobs then nextWorkGeneration generation else generation

theorem stratumPublishJob_eq (c : StratumV2Client) (slot : Fin MINER_JOB_POOL_SIZE)
    (job : MinerJob) : (c.setSlot slot job).stratumPublishJob slot =
      { c with
        jobPool := Function.update c.jobPool slot { job with
          workGeneration := publishedGeneration c.stratumWorkGeneration job }
        stratumWorkGeneration := publishedGeneration c.stratumWorkGeneration job
        slotNotify := some slot
        trace := .published
          { job with workGeneration := publishedGeneration c.stratumWorkGeneration job } slot ::
            c.trace } := by
  simp [stratumPublishJob, publishedGeneration, setSlot, record]

/-- A resolved counter only grows. -/
theorem resolveShares_eq (c : StratumV2Client) (resolved : U32) :
    c.resolveShares resolved = c.setConn { c.conn with
      resolvedShares :=
        if c.conn.resolvedShares < resolved then resolved else c.conn.resolvedShares } := by
  unfold resolveShares
  split <;> rfl

@[simp] theorem updatePendingShares_conn (c : StratumV2Client) :
    c.updatePendingShares.conn = c.conn := rfl
@[simp] theorem updatePendingShares_jobPool (c : StratumV2Client) :
    c.updatePendingShares.jobPool = c.jobPool := rfl
@[simp] theorem updatePendingShares_trace (c : StratumV2Client) :
    c.updatePendingShares.trace = c.trace := rfl
@[simp] theorem updatePendingShares_generation (c : StratumV2Client) :
    c.updatePendingShares.stratumWorkGeneration = c.stratumWorkGeneration := rfl

/-! ## The messages that count -/

section Client

variable (hashToPdiff : Vector U8 32 → U64)

/-- A job message that was parsed and is for this channel, and the job that it
leaves in its slot. -/
structure JobMessage where
  jobId : U32
  minNtime : Option U32
  job : MinerJob

/-- The slot of a job message. -/
def JobMessage.slot (m : JobMessage) : Fin MINER_JOB_POOL_SIZE := minerJobSlot m.jobId

/-- The message is for this channel or its group. -/
def OnChannel (c : StratumV2Client) (channelId : U32) : Prop :=
  sv2ChannelOrGroupMatches channelId c.conn.channelId c.conn.groupChannelId = true

instance (c : StratumV2Client) (channelId : U32) : Decidable (c.OnChannel channelId) :=
  inferInstanceAs (Decidable (_ = _))

/-- The job message in a frame, if the client takes it for one. -/
def jobMessage (c : StratumV2Client) : Input → Option JobMessage
  | .frame msgType payload buffers =>
      if msgType = SV2_MSG_NEW_MINING_JOB ∧ c.conn.channelType = .standard then
        match sv2ParseNewMiningJob payload with
        | none => none
        | some message =>
            if c.OnChannel message.channelId then
              some ⟨message.jobId, message.minNtime, c.standardJob hashToPdiff message⟩
            else none
      else if msgType = SV2_MSG_NEW_EXTENDED_MINING_JOB ∧ c.conn.channelType = .extended ∧
          8 ≤ payload.length then
        match sv2ParseNewExtendedMiningJob payload buffers
            (c.jobPool (minerJobSlot (readU32Le payload 4))) with
        | (none, _) => none
        | (some message, job) =>
            if c.OnChannel message.channelId then
              some ⟨readU32Le payload 4, message.minNtime,
                c.extendedJob hashToPdiff message job⟩
            else none
      else none
  | _ => none

/-- A NewExtendedMiningJob that is rejected after its job id was read: the id, and
what the parser left in the slot. -/
def rejectedExtended (c : StratumV2Client) : Input → Option (U32 × MinerJob)
  | .frame msgType payload buffers =>
      if msgType = SV2_MSG_NEW_EXTENDED_MINING_JOB ∧ c.conn.channelType = .extended ∧
          8 ≤ payload.length then
        match sv2ParseNewExtendedMiningJob payload buffers
            (c.jobPool (minerJobSlot (readU32Le payload 4))) with
        | (none, job) => some (readU32Le payload 4, job)
        | (some message, job) =>
            if c.OnChannel message.channelId then none else some (readU32Le payload 4, job)
      else none
  | _ => none

/-- The SetNewPrevHash in a frame, if it was parsed and is for this channel. -/
def tipMessage (c : StratumV2Client) : Input → Option Sv2SetNewPrevHash
  | .frame msgType payload _ =>
      if msgType = SV2_MSG_SET_NEW_PREV_HASH then
        match sv2ParseSetNewPrevHash payload with
        | none => none
        | some message => if c.OnChannel message.channelId then some message else none
      else none
  | _ => none

/-- A job message that is published at once, unless its id is active. -/
def Immediate (c : StratumV2Client) (m : JobMessage) : Prop :=
  m.minNtime.isSome = true ∧ c.conn.hasPrevHash = true

instance (c : StratumV2Client) (m : JobMessage) : Decidable (c.Immediate m) :=
  inferInstanceAs (Decidable (_ ∧ _))

/-- A condition on a value that may be missing. -/
abbrev OnSome {α : Type} (value : Option α) (p : α → Prop) : Prop :=
  match value with
  | some a => p a
  | none => True

instance {α : Type} (value : Option α) (p : α → Prop) [DecidablePred p] :
    Decidable (OnSome value p) :=
  match value with
  | some a => inferInstanceAs (Decidable (p a))
  | none => .isTrue trivial

/-- The slot of a SetNewPrevHash holds the template it names. -/
def TemplateReady (c : StratumV2Client) (message : Sv2SetNewPrevHash) : Prop :=
  c.conn.pendingJobsValid (minerJobSlot message.jobId) = true ∧
    strtoul (c.jobPool (minerJobSlot message.jobId)).jobId.toList = message.jobId

instance (c : StratumV2Client) (message : Sv2SetNewPrevHash) :
    Decidable (c.TemplateReady message) :=
  inferInstanceAs (Decidable (_ ∧ _))

/-- The client after a job message was written to its slot. -/
def withJob (c : StratumV2Client) (m : JobMessage) : StratumV2Client :=
  (c.setSlot m.slot m.job).setPending m.slot true

/-- The client after a rejected message was written to its slot. -/
def withRejected (c : StratumV2Client) (jobId : U32) (job : MinerJob) : StratumV2Client :=
  (c.setSlot (minerJobSlot jobId) job).setPending (minerJobSlot jobId) false

/-- The client after an immediate job was published. -/
def withImmediate (c : StratumV2Client) (m : JobMessage) (minNtime : U32)
    (activeJobIds : List U32) : StratumV2Client :=
  let c := ((c.withJob m).record (.template m.jobId m.job))
  ((c.setConn { c.conn with activeJobIds := activeJobIds }).setSlot m.slot
    { withStoredTip m.job c.conn with ntime := minNtime }).stratumPublishJob m.slot

/-- The client after a SetNewPrevHash published the template it names. -/
def withActivated (c : StratumV2Client) (message : Sv2SetNewPrevHash) : StratumV2Client :=
  let conn := { tipConn c.conn message with activeJobIds := [message.jobId] }
  ((c.setConn conn).setSlot (minerJobSlot message.jobId) (activatedJob hashToPdiff conn message
    (c.jobPool (minerJobSlot message.jobId)))).stratumPublishJob (minerJobSlot message.jobId)

/-- The ways a step can go. -/
inductive StepCases (c : StratumV2Client) (input : Input) : StratumV2Client → Prop
  | unchanged (hmessage : c.jobMessage hashToPdiff input = none)
      (htip : c.tipMessage input = none) : StepCases c input c
  | rejected {jobId : U32} {job : MinerJob}
      (hrejected : c.rejectedExtended input = some (jobId, job)) :
      StepCases c input (c.withRejected jobId job)
  | stored {m : JobMessage} (hmessage : c.jobMessage hashToPdiff input = some m)
      (hlater : ¬ c.Immediate m) :
      StepCases c input ((c.withJob m).record (.template m.jobId m.job))
  | duplicate {m : JobMessage} (hmessage : c.jobMessage hashToPdiff input = some m)
      (himmediate : c.Immediate m) (hactive : m.jobId ∈ c.conn.activeJobIds) :
      StepCases c input (c.withJob m)
  | immediate {m : JobMessage} {minNtime : U32} {activeJobIds : List U32}
      (hmessage : c.jobMessage hashToPdiff input = some m) (himmediate : c.Immediate m)
      (hntime : m.minNtime = some minNtime)
      (hactive : addActiveJobId c.conn.activeJobIds m.jobId = some activeJobIds) :
      StepCases c input (c.withImmediate m minNtime activeJobIds)
  | unknownTip {message : Sv2SetNewPrevHash} (htip : c.tipMessage input = some message)
      (hunknown : ¬ c.TemplateReady message) :
      StepCases c input (c.setConn (tipConn c.conn message))
  | activated {message : Sv2SetNewPrevHash} (htip : c.tipMessage input = some message)
      (hready : c.TemplateReady message) :
      StepCases c input (c.withActivated hashToPdiff message)
  | target (maxTarget : Vector U8 32) (pdiff : U64) {payload : List U8}
      {buffers : CoinbaseBuffers} (hinput : input = .frame SV2_MSG_SET_TARGET payload buffers) :
      StepCases c input { c.setConn { c.conn with target := maxTarget } with
        poolDifficulty := pdiff }
  | success {msgType : U8} {payload : List U8} {buffers : CoinbaseBuffers}
      {message : Sv2SubmitSharesSuccess} (hinput : input = .frame msgType payload buffers)
      (htype : msgType = SV2_MSG_SUBMIT_SHARES_SUCCESS)
      (hparsed : sv2ParseSubmitSharesSuccess payload = some message)
      (hchannel : message.channelId = c.conn.channelId) :
      StepCases c input (({ c with
        trace := List.replicate (clampedAcceptedCount c.conn message.acceptedCount).toNat
          Sv2Event.acceptedShare ++
            Sv2Event.successAnswer message.lastSequenceNumber :: c.trace }.resolveShares
            (message.lastSequenceNumber + 1)).updatePendingShares)
  | error {msgType : U8} {payload : List U8} {buffers : CoinbaseBuffers}
      {message : Sv2SubmitSharesError} (hinput : input = .frame msgType payload buffers)
      (htype : msgType = SV2_MSG_SUBMIT_SHARES_ERROR)
      (hparsed : sv2ParseSubmitSharesError payload = some message)
      (hchannel : message.channelId = c.conn.channelId) :
      StepCases c input ((((c.record (.errorAnswer message.seqNum)).record
        (.rejectedShare message.errorCode)).resolveShares
          (message.seqNum + 1)).updatePendingShares)
  | submitted {share : AsicShareSubmission} {stack : Vector U8 32} {sendResult : Int}
      (hinput : input = .submit share stack sendResult)
      (hcurrent : share.workGeneration = c.stratumWorkGeneration)
      (hpool : c.conn.poolIdx = share.poolId) :
      StepCases c input ((c.setConn { c.conn with
        sequenceNumber := c.conn.sequenceNumber + 1 }).record (.submitted c.conn.sequenceNumber))
  | sent {share : AsicShareSubmission} {stack : Vector U8 32} {sendResult : Int}
      {frame : List U8} (hinput : input = .submit share stack sendResult)
      (hcurrent : share.workGeneration = c.stratumWorkGeneration)
      (hpool : c.conn.poolIdx = share.poolId) :
      StepCases c input ((((c.setConn { c.conn with
        sequenceNumber := c.conn.sequenceNumber + 1 }).record
          (.submitted c.conn.sequenceNumber)).record
            (.sent c.conn.sequenceNumber frame)).updatePendingShares)
  | invalidated (hinput : input = .invalidate) : StepCases c input c.stratumInvalidateWork
  | took {slot : Fin MINER_JOB_POOL_SIZE} (hinput : input = .take)
      (hnotified : c.slotNotify = some slot) :
      StepCases c input { c with slotNotify := none, currentWork := some slot }

/-- The end of a job handler. -/
theorem finishJob_cases {c : StratumV2Client} {input : Input} {m : JobMessage}
    (hmessage : c.jobMessage hashToPdiff input = some m) :
    StepCases hashToPdiff c input ((c.withJob m).finishJob m.jobId m.slot m.minNtime) := by
  have hjob : (c.withJob m).jobPool m.slot = m.job := by simp [withJob]
  have hconn : (c.withJob m).conn.hasPrevHash = c.conn.hasPrevHash := rfl
  have hactive : (c.withJob m).conn.activeJobIds = c.conn.activeJobIds := rfl
  unfold finishJob
  cases hntime : m.minNtime with
  | none =>
    dsimp only
    rw [hjob]
    exact .stored hmessage fun himmediate => by simp [Immediate, hntime] at himmediate
  | some minNtime =>
    dsimp only
    rw [hjob, hconn, hactive]
    split
    · next hnone =>
      exact .stored hmessage fun himmediate => by simp [Immediate, hnone] at himmediate
    · next htip =>
      have himmediate : c.Immediate m := ⟨by simp [hntime], by simpa using htip⟩
      cases hadd : addActiveJobId c.conn.activeJobIds m.jobId with
      | none =>
        refine .duplicate hmessage himmediate ?_
        unfold addActiveJobId at hadd
        by_contra hnew
        rw [if_neg hnew] at hadd
        split at hadd <;> cases hadd
      | some activeJobIds =>
        have hcase : StepCases hashToPdiff c input _ :=
          .immediate hmessage himmediate hntime hadd
        unfold withImmediate at hcase
        dsimp only [record_jobPool, setConn_jobPool, setConn_conn, record_conn]
        rw [hjob]
        exact hcase

theorem newMiningJob_cases (c : StratumV2Client) (payload : List U8) (buffers : CoinbaseBuffers) :
    StepCases hashToPdiff c (.frame SV2_MSG_NEW_MINING_JOB payload buffers)
      (if c.conn.channelType = .standard then c.handleNewMiningJob hashToPdiff payload else c) := by
  have htip : c.tipMessage (.frame SV2_MSG_NEW_MINING_JOB payload buffers) = none := rfl
  by_cases hstandard : c.conn.channelType = .standard
  · rw [if_pos hstandard]
    unfold handleNewMiningJob
    have hmessage : c.jobMessage hashToPdiff (.frame SV2_MSG_NEW_MINING_JOB payload buffers) =
        match sv2ParseNewMiningJob payload with
        | none => none
        | some message =>
            if c.OnChannel message.channelId then
              some ⟨message.jobId, message.minNtime, c.standardJob hashToPdiff message⟩
            else none := by simp [jobMessage, hstandard]
    cases hparsed : sv2ParseNewMiningJob payload with
    | none => exact .unchanged (by rw [hmessage, hparsed]) htip
    | some message =>
      rw [hparsed] at hmessage
      dsimp only at hmessage ⊢
      by_cases hchannel : c.OnChannel message.channelId
      · rw [if_pos hchannel] at hmessage
        rw [if_neg (by rw [hchannel]; decide)]
        exact finishJob_cases hashToPdiff hmessage
      · rw [if_neg hchannel] at hmessage
        rw [if_pos (by simpa [OnChannel] using hchannel)]
        exact .unchanged hmessage htip
  · rw [if_neg hstandard]
    refine .unchanged ?_ htip
    have hne : SV2_MSG_NEW_MINING_JOB ≠ SV2_MSG_NEW_EXTENDED_MINING_JOB := by decide
    simp [jobMessage, hstandard, hne]

theorem newExtendedMiningJob_cases (c : StratumV2Client) (payload : List U8)
    (buffers : CoinbaseBuffers) :
    StepCases hashToPdiff c (.frame SV2_MSG_NEW_EXTENDED_MINING_JOB payload buffers)
      (if c.conn.channelType = .extended then
        c.handleNewExtendedMiningJob hashToPdiff payload buffers
      else c) := by
  have hne : SV2_MSG_NEW_EXTENDED_MINING_JOB ≠ SV2_MSG_NEW_MINING_JOB := by decide
  have htip : c.tipMessage (.frame SV2_MSG_NEW_EXTENDED_MINING_JOB payload buffers) = none := rfl
  by_cases hread : c.conn.channelType = .extended ∧ 8 ≤ payload.length
  · obtain ⟨hextended, hlength⟩ := hread
    rw [if_pos hextended]
    unfold handleNewExtendedMiningJob
    rw [if_neg (Nat.not_lt.mpr hlength)]
    have hmessage : c.jobMessage hashToPdiff
          (.frame SV2_MSG_NEW_EXTENDED_MINING_JOB payload buffers) =
        match sv2ParseNewExtendedMiningJob payload buffers
            (c.jobPool (minerJobSlot (readU32Le payload 4))) with
        | (none, _) => none
        | (some message, job) =>
            if c.OnChannel message.channelId then
              some ⟨readU32Le payload 4, message.minNtime,
                c.extendedJob hashToPdiff message job⟩
            else none := by simp [jobMessage, hextended, hlength, hne]
    have hrejected : c.rejectedExtended
          (.frame SV2_MSG_NEW_EXTENDED_MINING_JOB payload buffers) =
        match sv2ParseNewExtendedMiningJob payload buffers
            (c.jobPool (minerJobSlot (readU32Le payload 4))) with
        | (none, job) => some (readU32Le payload 4, job)
        | (some message, job) =>
            if c.OnChannel message.channelId then none else some (readU32Le payload 4, job) := by
      simp [rejectedExtended, hextended, hlength]
    dsimp only
    generalize sv2ParseNewExtendedMiningJob payload buffers
      (c.jobPool (minerJobSlot (readU32Le payload 4))) = parsed at *
    rcases parsed with ⟨message | message, job⟩
    · exact .rejected hrejected
    · dsimp only at hmessage hrejected ⊢
      by_cases hchannel : c.OnChannel message.channelId
      · rw [if_pos hchannel] at hmessage
        rw [if_neg (by rw [setSlot_conn, hchannel]; decide)]
        have hcase := finishJob_cases hashToPdiff hmessage
        have hwritten : (c.setSlot (minerJobSlot (readU32Le payload 4)) job).setSlot
            (minerJobSlot (readU32Le payload 4)) (c.extendedJob hashToPdiff message job) =
              c.setSlot (minerJobSlot (readU32Le payload 4))
                (c.extendedJob hashToPdiff message job) := by
          simp [setSlot, Function.update_idem]
        rw [show (c.setSlot (minerJobSlot (readU32Le payload 4)) job).extendedJob hashToPdiff
          message job = c.extendedJob hashToPdiff message job from rfl, hwritten]
        exact hcase
      · rw [if_neg hchannel] at hrejected
        rw [if_pos (by simpa [OnChannel] using hchannel)]
        exact .rejected hrejected
  · have hmessage : c.jobMessage hashToPdiff
        (.frame SV2_MSG_NEW_EXTENDED_MINING_JOB payload buffers) = none := by
      simp only [jobMessage, hne, false_and, if_false, true_and]
      rw [if_neg hread]
    split
    · next hextended =>
      unfold handleNewExtendedMiningJob
      rw [if_pos (by simpa [hextended] using hread)]
      exact .unchanged hmessage htip
    · exact .unchanged hmessage htip

theorem tipMessage_setNewPrevHash (c : StratumV2Client) (payload : List U8)
    (buffers : CoinbaseBuffers) :
    c.tipMessage (.frame SV2_MSG_SET_NEW_PREV_HASH payload buffers) =
      match sv2ParseSetNewPrevHash payload with
      | none => none
      | some message => if c.OnChannel message.channelId then some message else none :=
  rfl

/-- A SetNewPrevHash on the channel stores its tip, and publishes the template it
names if that is in its slot. -/
theorem handleSetNewPrevHash_eq {c : StratumV2Client} {payload : List U8}
    {buffers : CoinbaseBuffers} {message : Sv2SetNewPrevHash}
    (htip : c.tipMessage (.frame SV2_MSG_SET_NEW_PREV_HASH payload buffers) = some message) :
    c.handleSetNewPrevHash hashToPdiff payload =
      if c.TemplateReady message then c.withActivated hashToPdiff message
      else c.setConn (tipConn c.conn message) := by
  rw [tipMessage_setNewPrevHash] at htip
  unfold handleSetNewPrevHash
  cases hparsed : sv2ParseSetNewPrevHash payload with
  | none =>
    rw [hparsed] at htip
    cases htip
  | some parsed =>
    rw [hparsed] at htip
    dsimp only at htip ⊢
    by_cases hchannel : c.OnChannel parsed.channelId
    · rw [if_pos hchannel] at htip
      obtain rfl := Option.some.inj htip
      rw [if_neg (by rw [hchannel]; decide)]
      rfl
    · rw [if_neg hchannel] at htip
      cases htip

theorem setNewPrevHash_cases (c : StratumV2Client) (payload : List U8)
    (buffers : CoinbaseBuffers) :
    StepCases hashToPdiff c (.frame SV2_MSG_SET_NEW_PREV_HASH payload buffers)
      (c.handleSetNewPrevHash hashToPdiff payload) := by
  cases htip : c.tipMessage (.frame SV2_MSG_SET_NEW_PREV_HASH payload buffers) with
  | some message =>
    rw [handleSetNewPrevHash_eq hashToPdiff htip]
    split
    · next hready => exact .activated htip hready
    · next hunknown => exact .unknownTip htip hunknown
  | none =>
    have hdropped : c.handleSetNewPrevHash hashToPdiff payload = c := by
      rw [tipMessage_setNewPrevHash] at htip
      unfold handleSetNewPrevHash
      cases hparsed : sv2ParseSetNewPrevHash payload with
      | none => rfl
      | some parsed =>
        rw [hparsed] at htip
        dsimp only at htip ⊢
        by_cases hchannel : c.OnChannel parsed.channelId
        · rw [if_pos hchannel] at htip
          cases htip
        · exact if_pos (by simpa [OnChannel] using hchannel)
    rw [hdropped]
    exact .unchanged rfl htip

/-- The frames of the mining channel, by type. -/
theorem handleFrame_cases (c : StratumV2Client) (msgType : U8) (payload : List U8)
    (buffers : CoinbaseBuffers) : StepCases hashToPdiff c (.frame msgType payload buffers)
      (c.handleFrame hashToPdiff msgType payload buffers) := by
  have htypes : SV2_MSG_NEW_MINING_JOB ≠ SV2_MSG_NEW_EXTENDED_MINING_JOB ∧
      SV2_MSG_NEW_MINING_JOB ≠ SV2_MSG_SET_NEW_PREV_HASH ∧
      SV2_MSG_NEW_EXTENDED_MINING_JOB ≠ SV2_MSG_NEW_MINING_JOB ∧
      SV2_MSG_NEW_EXTENDED_MINING_JOB ≠ SV2_MSG_SET_NEW_PREV_HASH ∧
      SV2_MSG_SET_NEW_PREV_HASH ≠ SV2_MSG_NEW_MINING_JOB ∧
      SV2_MSG_SET_NEW_PREV_HASH ≠ SV2_MSG_NEW_EXTENDED_MINING_JOB := by decide
  obtain ⟨hne₁, hne₂, hne₃, hne₄, hne₅, hne₆⟩ := htypes
  unfold handleFrame
  by_cases hnew : msgType = SV2_MSG_NEW_MINING_JOB
  · subst hnew
    rw [if_pos rfl]
    exact newMiningJob_cases hashToPdiff c payload buffers
  by_cases hextended : msgType = SV2_MSG_NEW_EXTENDED_MINING_JOB
  · subst hextended
    rw [if_neg hne₃, if_pos rfl]
    exact newExtendedMiningJob_cases hashToPdiff c payload buffers
  by_cases htip : msgType = SV2_MSG_SET_NEW_PREV_HASH
  · subst htip
    rw [if_neg hne₅, if_neg hne₆, if_pos rfl]
    exact setNewPrevHash_cases hashToPdiff c payload buffers
  rw [if_neg hnew, if_neg hextended, if_neg htip]
  have hquiet : StepCases hashToPdiff c (.frame msgType payload buffers) c :=
    .unchanged (by simp [jobMessage, hnew, hextended]) (by simp [tipMessage, htip])
  split
  · next htype =>
    unfold handleSetTarget
    split
    · exact hquiet
    · split
      · exact hquiet
      · dsimp only
        split
        · exact hquiet
        · exact .target _ _ (by rw [htype])
  split
  · next htype =>
    unfold handleSubmitSharesSuccess
    split
    · exact hquiet
    · next message hparsed =>
      split
      · exact hquiet
      · next hchannel =>
        exact .success rfl htype hparsed (by simpa using hchannel)
  split
  · next htype =>
    unfold handleSubmitSharesError
    split
    · exact hquiet
    · next message hparsed =>
      split
      · exact hquiet
      · next hchannel =>
        exact .error rfl htype hparsed (by simpa using hchannel)
  · exact hquiet

theorem step_cases (c : StratumV2Client) (input : Input) :
    StepCases hashToPdiff c input (c.step hashToPdiff input) := by
  cases input with
  | frame msgType payload buffers => exact handleFrame_cases hashToPdiff c msgType payload buffers
  | submit share stack sendResult =>
    unfold step stratumV2SubmitShare
    dsimp only
    split
    · exact .unchanged rfl rfl
    · next hcurrent =>
      simp only [not_or, not_not] at hcurrent
      split
      · exact .submitted rfl hcurrent.1 hcurrent.2
      · split
        · exact .submitted rfl hcurrent.1 hcurrent.2
        · exact .sent rfl hcurrent.1 hcurrent.2
  | invalidate => exact .invalidated rfl
  | take =>
    change StepCases hashToPdiff c .take c.takeNotification
    unfold takeNotification
    split
    · exact .unchanged rfl rfl
    · next slot hnotified => exact .took rfl hnotified

end Client

end StratumV2Client

end EspMiner
