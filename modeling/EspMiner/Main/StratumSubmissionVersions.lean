import EspMiner.Main.StratumSubmissionOrder

/-!
# The versions that a pool rebuilds

A pool rebuilds the mined version from the job's version, the mask that it granted
and the version bits of the share.  A mask is granted, changed and withdrawn while
results wait in the queue; what reaches the socket fits the mask of that moment.
-/

namespace EspMiner

open Library

/-- The mask is the driver's in part, and nothing while version rolling is off. -/
structure Sv1Conn.MaskOk (supportedMask : U32) (conn : Sv1Conn) : Prop where
  supported : conn.versionMask &&& ~~~supportedMask = 0
  disabled : conn.versionRollingEnabled = false → conn.versionMask = 0

/-- What `stratum_v1_submit_share` passes on to `STRATUM_V1_submit_share`, with the mask
of the connection. -/
structure Sv1ShareRequest where
  transport : Nat
  uid : Int
  share : QueuedShare
  versionMask : U32
  versionBits : Option U32

/-- The event of a request. -/
def Sv1ShareRequest.event (request : Sv1ShareRequest) : SubmissionEvent :=
  .written request.transport (.uid request.uid) request.share

/-- The pool rebuilds the version that was mined. -/
def Sv1ShareRequest.Rebuilds (request : Sv1ShareRequest) : Prop :=
  match request.versionBits with
  | some bits => bits &&& ~~~request.versionMask = 0 ∧
      request.share.jobVersion &&& ~~~request.versionMask ||| bits =
        request.share.submission.finalVersion
  | none => request.share.submission.finalVersion = request.share.jobVersion

/-- An event that writes a Stratum V1 share. -/
def SubmissionEvent.isSv1Write : SubmissionEvent → Bool
  | .written _ (.uid _) _ => true
  | .written _ (.sequence _) _ | .used _ | .destroyed _ | .invalidated | .published _ _ _
  | .request _ _ => false

/-- The Stratum V1 shares that were written, the newest first. -/
def sv1Writes (trace : List SubmissionEvent) : List SubmissionEvent :=
  trace.filter SubmissionEvent.isSv1Write

namespace StratumSubmission

variable (s : StratumSubmission)

/-- The arguments with which `stratum_v1_submit_share` writes a share, if it does. -/
def v1ShareRequest (s : StratumSubmission) (share : QueuedShare) : Option Sv1ShareRequest :=
  match s.transport, s.sv1Conn with
  | some transport, some id =>
      let conn := s.sv1Conns id
      if share.submission.workGeneration ≠ s.stratumWorkGeneration ∨
          conn.poolIdx ≠ share.submission.poolId then none
      else if (share.submission.finalVersion ^^^ share.jobVersion) &&& ~~~conn.versionMask ≠ 0
      then none
      else some {
        transport := transport
        uid := conn.sendUid
        share := share
        versionMask := conn.versionMask
        versionBits := if conn.versionRollingEnabled then
            some (share.submission.finalVersion &&& conn.versionMask)
          else none }
  | _, _ => none

/-- The request that a step makes. -/
def requestOf (s : StratumSubmission) (input : Input) : Option Sv1ShareRequest :=
  match input, s.submitter with
  | .submitter _ _ _, .submit share =>
      if share.submission.protocol = .v1 then s.v1ShareRequest share else none
  | _, _ => none

/-- The requests that a run makes, in their order. -/
def sv1Requests (s : StratumSubmission) : List Input → List Sv1ShareRequest
  | [] => []
  | input :: inputs => (s.requestOf input).toList ++ (s.step input).sv1Requests inputs

/-- Masks are applied with the mask that the driver supports. -/
def Input.FromDriver (supportedMask : U32) : Input → Prop
  | .message (.versionMask _ mask) => mask = supportedMask
  | _ => True

/-- Every connection has a proper mask. -/
def MasksOk (supportedMask : U32) (s : StratumSubmission) : Prop :=
  ∀ id, (s.sv1Conns id).MaskOk supportedMask

/-- The masks stay proper, and no Stratum V1 share is written. -/
structure KeepsVersions (supportedMask : U32) (s s' : StratumSubmission) : Prop where
  masks : MasksOk supportedMask s → MasksOk supportedMask s'
  writes : sv1Writes s'.trace = sv1Writes s.trace

variable {supportedMask : U32}

/-- The connections are left alone. -/
theorem KeepsVersions.quiet {s s' : StratumSubmission} (hconns : s'.sv1Conns = s.sv1Conns)
    (hwrites : sv1Writes s'.trace = sv1Writes s.trace) : KeepsVersions supportedMask s s' :=
  ⟨fun h id => hconns ▸ h id, hwrites⟩

/-- One connection is changed, and keeps a proper mask. -/
theorem KeepsVersions.update {s s' : StratumSubmission} {id : Nat} {conn : Sv1Conn}
    (hconns : s'.sv1Conns = Function.update s.sv1Conns id conn)
    (hconn : (s.sv1Conns id).MaskOk supportedMask → conn.MaskOk supportedMask)
    (hwrites : sv1Writes s'.trace = sv1Writes s.trace) : KeepsVersions supportedMask s s' := by
  refine ⟨fun h other => ?_, hwrites⟩
  rw [hconns]
  by_cases hother : other = id
  · subst hother
    rw [Function.update_self]
    exact hconn (h other)
  · rw [Function.update_of_ne hother]
    exact h other

theorem maskOk_cleared {conn : Sv1Conn} (h : conn.versionMask = 0) :
    conn.MaskOk supportedMask := ⟨by rw [h]; simp, fun _ => h⟩

/-- A configure result or a new mask leaves a proper mask. -/
theorem maskOk_stratumV1ApplyVersionMask {conn : Sv1Conn} (h : conn.MaskOk supportedMask)
    (message : StratumApiV1Message) :
    (stratumV1ApplyVersionMask conn message supportedMask).MaskOk supportedMask := by
  have happly : ∀ conn : Sv1Conn, ({ conn with
      versionMask := if conn.versionRollingEnabled then message.versionMask &&& supportedMask
        else 0 } : Sv1Conn).MaskOk supportedMask := by
    intro conn
    cases henabled : conn.versionRollingEnabled with
    | false => exact maskOk_cleared rfl
    | true =>
      refine ⟨?_, fun hoff => ?_⟩
      · show message.versionMask &&& supportedMask &&& ~~~supportedMask = 0
        rw [BitVec.and_assoc, BitVec.and_not_self]
        exact BitVec.and_zero
      · cases hoff
  unfold stratumV1ApplyVersionMask
  dsimp only
  split
  · split
    · exact h
    · exact happly { conn with versionRollingEnabled := message.responseSuccess }
  · split
    · exact h
    · exact happly conn

/-! ## Steps of the receive task -/

theorem keepsVersions_nextUid (place : Int → SessionPlace) :
    KeepsVersions supportedMask s (s.nextUid place) := by
  unfold StratumSubmission.nextUid
  split
  · exact .quiet rfl rfl
  · exact .update rfl (fun h => ⟨h.supported, h.disabled⟩) rfl

theorem keepsVersions_v1CloseConnection (place : SessionPlace) :
    KeepsVersions supportedMask s (s.v1CloseConnection.goTo place) := by
  unfold StratumSubmission.v1CloseConnection
  dsimp only
  split <;> split <;> exact .quiet rfl rfl

theorem keepsVersions_v2CloseConnection (place : SessionPlace) :
    KeepsVersions supportedMask s (s.v2CloseConnection.goTo place) := by
  unfold StratumSubmission.v2CloseConnection
  dsimp only
  split <;> split <;> exact .quiet rfl rfl

theorem keepsVersions_v1Step (ok : Bool) : KeepsVersions supportedMask s (s.v1Step ok) := by
  unfold StratumSubmission.v1Step
  cases s.receiver with
  | v1NextUid transport sent => exact keepsVersions_nextUid s _
  | v1CloseConnection transport => exact keepsVersions_v1CloseConnection s _
  | v1FreeConn _ =>
    dsimp only
    split <;> exact .quiet rfl rfl
  | v1AllocConn poolIdx =>
    cases ok with
    | true =>
      have hzero : Sv1Conn.zero.MaskOk supportedMask := maskOk_cleared rfl
      exact .update rfl (fun _ => hzero) rfl
    | false => exact .quiet rfl rfl
  | v1InitConn poolIdx =>
    dsimp only
    split
    · exact .update rfl (fun _ => maskOk_cleared rfl) rfl
    · exact .quiet rfl rfl
  | v1ResetUid transport =>
    dsimp only
    split
    · exact .update rfl (fun h => ⟨h.supported, h.disabled⟩) rfl
    · exact .quiet rfl rfl
  | v1AllocMessage transport =>
    dsimp only
    split
    · exact .quiet rfl rfl
    · split <;> exact .quiet rfl rfl
  | v1InitTransport | v1Connect _ | v1Loop _ => cases ok <;> exact .quiet rfl rfl
  | _ => exact .quiet rfl rfl

theorem keepsVersions_v2Step (ok : Bool) : KeepsVersions supportedMask s (s.v2Step ok) := by
  unfold StratumSubmission.v2Step
  cases s.receiver with
  | v2CloseConnection transport => exact keepsVersions_v2CloseConnection s _
  | v2FreeConn _ | v2UpdatePending _ | v2CreateNoise _ =>
    dsimp only
    split <;> exact .quiet rfl rfl
  | v2Setup transport stage =>
    dsimp only
    split
    · split <;> exact .quiet rfl rfl
    · exact .quiet rfl rfl
  | v2AllocConn _ | v2InitTransport | v2Connect _ | v2Loop _ =>
    cases ok <;> exact .quiet rfl rfl
  | _ => exact .quiet rfl rfl

theorem keepsVersions_receiverStep (ok : Bool) :
    KeepsVersions supportedMask s (s.receiverStep ok) := by
  unfold StratumSubmission.receiverStep
  cases s.receiver
  all_goals first
    | exact keepsVersions_v1Step s ok
    | exact keepsVersions_v2Step s ok
    | exact .quiet rfl rfl

theorem keepsVersions_receive {message : ReceivedMessage}
    (hdriver : (Input.message message).FromDriver supportedMask) :
    KeepsVersions supportedMask s (s.receive message) := by
  unfold StratumSubmission.receive
  split
  · unfold v1Receive
    split
    · exact .quiet rfl rfl
    · exact keepsVersions_nextUid s _
    · obtain rfl := hdriver
      split
      · exact .update rfl (fun h => maskOk_stratumV1ApplyVersionMask h _) rfl
      · exact .quiet rfl rfl
    · split <;> exact .quiet rfl rfl
  · unfold v2OpenChannel
    split <;> exact .quiet rfl rfl
  · unfold v2Receive
    split
    · dsimp only
      split <;> exact .quiet rfl rfl
    · exact .quiet rfl rfl
  · exact .quiet rfl rfl

/-! ## Steps of the other tasks -/

/-- A share that passes the filter is rebuilt from the bits under the mask. -/
theorem rebuilt_version {final job mask : U32} (h : (final ^^^ job) &&& ~~~mask = 0) :
    job &&& ~~~mask ||| final &&& mask = final := by
  apply BitVec.eq_of_getLsbD_eq
  intro i hi
  have hbit := congrArg (fun bits => bits.getLsbD i) h
  simp only [BitVec.getLsbD_and, BitVec.getLsbD_xor, BitVec.getLsbD_not, hi, decide_true,
    Bool.true_and, BitVec.getLsbD_or] at hbit ⊢
  cases hfinal : final.getLsbD i <;> cases hjob : job.getLsbD i <;>
    cases hmask : mask.getLsbD i <;> simp_all

/-- Every request lets the pool rebuild the mined version. -/
theorem v1ShareRequest_rebuilds {s : StratumSubmission} (hmasks : MasksOk supportedMask s)
    {share : QueuedShare} {request : Sv1ShareRequest}
    (h : s.v1ShareRequest share = some request) : request.Rebuilds := by
  unfold v1ShareRequest at h
  split at h
  · next transport id htransport hconn =>
    dsimp only at h
    split at h
    · cases h
    · split at h
      · cases h
      · next hfilter =>
        rw [not_not] at hfilter
        obtain rfl := Option.some.inj h
        unfold Sv1ShareRequest.Rebuilds
        cases henabled : (s.sv1Conns id).versionRollingEnabled with
        | true =>
          refine ⟨?_, rebuilt_version hfilter⟩
          show share.submission.finalVersion &&& (s.sv1Conns id).versionMask &&&
            ~~~(s.sv1Conns id).versionMask = 0
          rw [BitVec.and_assoc, BitVec.and_not_self]
          exact BitVec.and_zero
        | false =>
          have hzero := (hmasks id).disabled henabled
          have hsame : share.submission.finalVersion ^^^ share.jobVersion = 0 := by
            rw [hzero] at hfilter
            rwa [← BitVec.and_allOnes (x := _ ^^^ _), ← BitVec.not_zero]
          exact BitVec.xor_eq_zero_iff.mp hsame
  · cases h

/-- A share is written with the request, or neither is there. -/
theorem v1SubmitShare_request (share : QueuedShare) (sent : Bool) :
    (MasksOk supportedMask s → MasksOk supportedMask (s.v1SubmitShare share sent)) ∧
    sv1Writes (s.v1SubmitShare share sent).trace =
      (s.v1ShareRequest share).toList.map Sv1ShareRequest.event ++ sv1Writes s.trace := by
  have hsent : ∀ (s : StratumSubmission) (transport : Nat) (number : ShareNumber),
      (s.writeShare transport number share sent).sv1Conns = s.sv1Conns ∧
      sv1Writes (s.writeShare transport number share sent).trace =
        sv1Writes (.written transport number share :: s.trace) := by
    intro s transport number
    cases sent <;> exact ⟨rfl, rfl⟩
  unfold v1SubmitShare v1ShareRequest
  cases s.transport with
  | none => exact ⟨fun h => h, rfl⟩
  | some transport =>
    cases s.sv1Conn with
    | none => exact ⟨fun h => h, rfl⟩
    | some id =>
      dsimp only
      by_cases hgeneration : share.submission.workGeneration ≠ s.stratumWorkGeneration
      · rw [if_pos hgeneration, if_pos (Or.inl hgeneration)]
        exact ⟨fun h => h, rfl⟩
      by_cases hpool : (s.sv1Conns id).poolIdx ≠ share.submission.poolId
      · rw [if_neg hgeneration, if_pos hpool, if_pos (Or.inr hpool)]
        exact ⟨fun h => h, rfl⟩
      rw [if_neg hgeneration, if_neg hpool, if_neg (not_or.mpr ⟨hgeneration, hpool⟩)]
      by_cases hfilter : (share.submission.finalVersion ^^^ share.jobVersion) &&&
          ~~~(s.sv1Conns id).versionMask ≠ 0
      · rw [if_pos hfilter, if_pos hfilter]
        exact ⟨fun h => h, rfl⟩
      rw [if_neg hfilter, if_neg hfilter]
      obtain ⟨hconns, hwrites⟩ := hsent
        ((s.use (.sv1Conn id)).setSv1Conn id
          { s.sv1Conns id with sendUid := (s.sv1Conns id).sendUid + 1 })
        transport (.uid (s.sv1Conns id).sendUid)
      have hkeeps : KeepsVersions supportedMask s ((s.use (.sv1Conn id)).setSv1Conn id
          { s.sv1Conns id with sendUid := (s.sv1Conns id).sendUid + 1 }) :=
        .update rfl (fun h => ⟨h.supported, h.disabled⟩) rfl
      refine ⟨fun h other => ?_, ?_⟩
      · rw [hconns]
        exact hkeeps.masks h other
      · rw [hwrites]
        rfl

theorem keepsVersions_v2SubmitShare (share : QueuedShare) (stack : Vector U8 32) (sent : Bool) :
    KeepsVersions supportedMask s (s.v2SubmitShare share stack sent) := by
  unfold StratumSubmission.v2SubmitShare
  dsimp only
  split
  · split
    · exact .quiet rfl rfl
    · split
      · exact .quiet rfl rfl
      · cases sent <;> exact .quiet rfl rfl
  · exact .quiet rfl rfl

/-- A step of the submission task writes what its request says. -/
theorem submitterStep_request (poolIdx : U16) (stack : Vector U8 32) (sent : Bool) :
    (MasksOk supportedMask s → MasksOk supportedMask (s.submitterStep poolIdx stack sent)) ∧
    sv1Writes (s.submitterStep poolIdx stack sent).trace =
      (s.requestOf (.submitter poolIdx stack sent)).toList.map Sv1ShareRequest.event ++
        sv1Writes s.trace := by
  unfold submitterStep requestOf
  cases s.submitter with
  | receive =>
    dsimp only
    split <;> exact ⟨fun h => h, rfl⟩
  | checkCurrent share => exact ⟨fun h => h, rfl⟩
  | checkPool share => exact ⟨fun h => h, rfl⟩
  | submit share =>
    dsimp only
    by_cases hprotocol : share.submission.protocol = .v1
    · rw [if_pos hprotocol, if_pos hprotocol]
      exact v1SubmitShare_request s share sent
    · rw [if_neg hprotocol, if_neg hprotocol]
      have hkeeps : KeepsVersions supportedMask s (s.v2SubmitShare share stack sent) :=
        keepsVersions_v2SubmitShare s share stack sent
      exact ⟨hkeeps.masks, hkeeps.writes⟩

/-! ## Runs -/

/-- One step keeps the masks proper and writes what its request says. -/
theorem step_request {input : Input} (hdriver : input.FromDriver supportedMask) :
    (MasksOk supportedMask s → MasksOk supportedMask (s.step input)) ∧
    sv1Writes (s.step input).trace =
      (s.requestOf input).toList.map Sv1ShareRequest.event ++ sv1Writes s.trace := by
  have hquiet : ∀ {s'}, KeepsVersions supportedMask s s' → s.requestOf input = none →
      (MasksOk supportedMask s → MasksOk supportedMask s') ∧
      sv1Writes s'.trace =
        (s.requestOf input).toList.map Sv1ShareRequest.event ++ sv1Writes s.trace := by
    intro s' hkeeps hnone
    rw [hnone]
    exact ⟨hkeeps.masks, hkeeps.writes⟩
  cases input with
  | start protocol poolIdx =>
    refine hquiet ?_ rfl
    show KeepsVersions supportedMask s (s.start protocol poolIdx)
    unfold StratumSubmission.start
    split <;> exact .quiet rfl rfl
  | receiver ok => exact hquiet (keepsVersions_receiverStep s ok) rfl
  | message message => exact hquiet (keepsVersions_receive s hdriver) rfl
  | reconnect =>
    refine hquiet ?_ rfl
    show KeepsVersions supportedMask s s.requestReconnect
    unfold requestReconnect
    split <;> exact .quiet rfl rfl
  | queueShare job submission captured =>
    refine hquiet ?_ rfl
    show KeepsVersions supportedMask s (s.queueShare job submission captured)
    unfold StratumSubmission.queueShare
    split <;> exact .quiet rfl rfl
  | submitter poolIdx stack sent => exact submitterStep_request s poolIdx stack sent

/-- The masks stay proper, and every request of a run can be rebuilt. -/
theorem run_requests {s : StratumSubmission} (hmasks : MasksOk supportedMask s)
    {inputs : List Input} (hdriver : ∀ input ∈ inputs, input.FromDriver supportedMask) :
    MasksOk supportedMask (run step s inputs) ∧
    sv1Writes (run step s inputs).trace =
      ((s.sv1Requests inputs).map Sv1ShareRequest.event).reverse ++ sv1Writes s.trace ∧
    ∀ request ∈ s.sv1Requests inputs, request.Rebuilds := by
  induction inputs generalizing s with
  | nil => exact ⟨hmasks, rfl, nofun⟩
  | cons input inputs ih =>
    obtain ⟨hkeep, hwrites⟩ := step_request s (hdriver input List.mem_cons_self)
    obtain ⟨hend, htrace, hrebuild⟩ := ih (hkeep hmasks)
      fun input hinput => hdriver input (List.mem_cons_of_mem _ hinput)
    refine ⟨hend, ?_, fun request hrequest => ?_⟩
    · rw [run_cons, htrace, hwrites, sv1Requests, List.map_append, List.reverse_append,
        List.append_assoc]
      cases s.requestOf input <;> rfl
    · rw [sv1Requests, List.mem_append] at hrequest
      rcases hrequest with hrequest | hrequest
      · rw [Option.mem_toList] at hrequest
        unfold requestOf at hrequest
        split at hrequest
        · split at hrequest
          · exact v1ShareRequest_rebuilds hmasks hrequest
          · cases hrequest
        · cases hrequest
      · exact hrebuild request hrequest

/-- **The pool rebuilds every mined version**, whatever masks it grants and takes back. -/
theorem pool_rebuilds_versions (supportedMask : U32) (inputs : List Input)
    (hdriver : ∀ input ∈ inputs, input.FromDriver supportedMask) :
    (∀ id, ((run step initial inputs).sv1Conns id).MaskOk supportedMask) ∧
    sv1Writes (run step initial inputs).trace =
      ((initial.sv1Requests inputs).map Sv1ShareRequest.event).reverse ∧
    ∀ request ∈ initial.sv1Requests inputs, request.Rebuilds := by
  have hinitial : MasksOk supportedMask initial := fun _ => maskOk_cleared rfl
  obtain ⟨hmasks, hwrites, hrebuild⟩ := run_requests hinitial hdriver
  refine ⟨hmasks, ?_, hrebuild⟩
  rw [hwrites]
  exact List.append_nil _

/-- A session in which the pool grants a mask, and a share that rolled one bit. -/
def rolledShare : List Input :=
  .start .v1 0 :: List.replicate 15 (.receiver true) ++
    [.message (.versionMask { StratumApiV1Message.reset with
        method := .stratumResultConfigure
        messageId := 1
        responseSuccess := true
        versionMask := 0xffffffff } 0x1fffe000),
      .message (.publish .zero),
      .queueShare 0 { someSubmission with finalVersion := 0x2000 } true,
      submitterInput, submitterInput, submitterInput, submitterInput]

theorem pool_rebuilds_versions_of_rolledShare :
    (sv1Writes (run step initial rolledShare).trace).length = 1 ∧
      (∀ request ∈ initial.sv1Requests rolledShare, request.Rebuilds) ∧
      (initial.sv1Requests rolledShare).map Sv1ShareRequest.versionBits = [some 0x2000] := by
  have hdriver : ∀ input ∈ rolledShare, input.FromDriver 0x1fffe000 := by
    intro input hinput
    simp only [rolledShare, List.mem_cons, List.mem_append, List.mem_replicate,
      List.not_mem_nil, or_false] at hinput
    rcases hinput with (rfl | ⟨-, rfl⟩) | rfl | rfl | rfl | rfl | rfl | rfl | rfl
    all_goals trivial
  obtain ⟨-, hwrites, hrebuild⟩ := pool_rebuilds_versions 0x1fffe000 rolledShare hdriver
  have hbits : (initial.sv1Requests rolledShare).map Sv1ShareRequest.versionBits =
      [some 0x2000] := by decide +kernel
  refine ⟨?_, hrebuild, hbits⟩
  have hlength := congrArg List.length hbits
  rw [hwrites, List.length_reverse, List.length_map]
  rwa [List.length_map] at hlength

end StratumSubmission

end EspMiner
