import EspMiner.Main.StratumV1Client

/-!
# The two slots of the Stratum V1 client

A published job waits in the slot that the job task does not work on until the
job task takes it.  The next line is parsed into the same slot, so a
`mining.notify` that the client ignores after parsing it takes the place of the
waiting job.  As long as no such line arrives while a job waits, the job task
always finds the latest published job.
-/

namespace EspMiner

open Library

/-- A line is parsed into the job only if it is a `mining.notify` that is valid. -/
theorem stratumV1Parse_job (line : StratumV1Line) (job : MinerJob) :
    (stratumV1Parse line job).2 = job ∨
      ∃ message, (stratumV1Parse line job).1 = some message ∧ message.method = .miningNotify := by
  unfold stratumV1Parse
  cases parseEnvelope line with
  | none => exact .inl rfl
  | some parsed =>
    obtain ⟨json, message⟩ := parsed
    dsimp only
    cases hmethod : message.method with
    | miningNotify =>
      dsimp only
      unfold parseMiningNotify
      cases readMiningNotify json line.now line.buffers with
      | none => exact .inl rfl
      | some notify => exact .inr ⟨message, rfl, hmethod⟩
    | _ => exact .inl rfl

namespace StratumV1Client

/-- The job that was published last, with its slot. -/
def latestPublished : List Sv1Event → Option (MinerJob × Fin MINER_JOB_POOL_SIZE)
  | [] => none
  | .published job slot :: _ => some (job, slot)
  | _ :: older => latestPublished older

/-- A job that is taken is the latest published one. -/
def TakenLatest (event : Sv1Event) (older : List Sv1Event) : Prop :=
  match event with
  | .taken job slot => latestPublished older = some (job, slot)
  | _ => True

/-- **What the job task finds.**  It takes the latest published job every time. -/
def TakesLatest (trace : List Sv1Event) : Prop := Throughout TakenLatest trace

/-- The events that neither publish nor take a job. -/
def Quiet : Sv1Event → Prop
  | .published _ _ | .taken _ _ => False
  | _ => True

theorem quiet_append {events : List Sv1Event} (h : ∀ event ∈ events, Quiet event)
    (older : List Sv1Event) :
    latestPublished (events ++ older) = latestPublished older ∧
      (TakesLatest (events ++ older) ↔ TakesLatest older) := by
  induction events with
  | nil => exact ⟨rfl, Iff.rfl⟩
  | cons event events ih =>
    obtain ⟨hlatest, htakes⟩ := ih fun e he => h e (.tail _ he)
    have hevent : Quiet event := h event (.head _)
    cases event with
    | published job slot => exact hevent.elim
    | taken job slot => exact hevent.elim
    | _ => exact ⟨hlatest, (and_iff_right trivial).trans htakes⟩

/-! ## What a step does to the slots -/

/-- The slots and what is known of them are the same. -/
structure SameSlots (c c' : StratumV1Client) : Prop where
  jobPool : c'.jobPool = c.jobPool
  slotNotify : c'.slotNotify = c.slotNotify
  activeJobSlotIdx : c'.activeJobSlotIdx = c.activeJobSlotIdx
  currentWork : c'.currentWork = c.currentWork
  trace : ∃ events, (∀ event ∈ events, Quiet event) ∧ c'.trace = events ++ c.trace

theorem SameSlots.refl (c : StratumV1Client) : SameSlots c c :=
  ⟨rfl, rfl, rfl, rfl, [], by simp, rfl⟩

theorem SameSlots.record {c c' : StratumV1Client} (h : SameSlots c c') {event : Sv1Event}
    (hevent : Quiet event) : SameSlots c (c'.record event) := by
  obtain ⟨events, hquiet, htrace⟩ := h.trace
  exact ⟨h.jobPool, h.slotNotify, h.activeJobSlotIdx, h.currentWork, event :: events,
    List.forall_mem_cons.mpr ⟨hevent, hquiet⟩, congrArg (event :: ·) htrace⟩

theorem SameSlots.setSession {c c' : StratumV1Client} (h : SameSlots c c')
    (session : Option Sv1Session) : SameSlots c (c'.setSession session) :=
  ⟨h.jobPool, h.slotNotify, h.activeJobSlotIdx, h.currentWork, h.trace⟩

theorem closeConnection_sameSlots (c : StratumV1Client) : SameSlots c c.closeConnection :=
  ⟨rfl, rfl, rfl, rfl, [.invalidated], by simp [Quiet], rfl⟩

theorem handleResult_sameSlots (c : StratumV1Client) (session : Sv1Session) (timed : Bool)
    (message : StratumApiV1Message) : SameSlots c (c.handleResult session timed message) := by
  have hpending (pending : U16) : SameSlots c { c with sharesPending := pending } :=
    ⟨rfl, rfl, rfl, rfl, [], by simp, rfl⟩
  unfold handleResult
  split
  · dsimp only
    split
    · exact (hpending _).record trivial
    · exact (hpending _).record trivial
  · split
    · -- the two setup requests that an accepted authorization may bring
      dsimp only
      split <;> split
      · exact (((SameSlots.refl c).record (by trivial)).record (by trivial)).setSession _
      · exact ((SameSlots.refl c).record (by trivial)).setSession _
      · exact ((SameSlots.refl c).record (by trivial)).setSession _
      · exact (SameSlots.refl c).setSession _
    · exact .refl c

/-- The job that a line leaves in the slot it is parsed into. -/
def parsedJob (c : StratumV1Client) (line : StratumV1Line) : MinerJob :=
  (stratumV1Parse line (c.jobPool c.targetSlot)).2

/-- The line is a `mining.notify` that is parsed and then ignored: the session is
not subscribed, the coinbase is invalid, or the id is a duplicate. -/
def IgnoredNotify (c : StratumV1Client) (line : StratumV1Line) : Prop :=
  ∃ session message, c.session = some session ∧
    (stratumV1Parse line (c.jobPool c.targetSlot)).1 = some message ∧
    message.method = .miningNotify ∧
    session.conn.acceptJob line.buffers (session.conn.configureJob (c.parsedJob line)) = none

/-- The line is ignored: it is not parsed, or it is a notify that is ignored. -/
def Ignored (c : StratumV1Client) (line : StratumV1Line) : Prop :=
  (stratumV1Parse line (c.jobPool c.targetSlot)).1 = none ∨ c.IgnoredNotify line

section Client

variable (asicDifficulty : U64) (supportedMask : U32) {c : StratumV1Client}

/-- What a line can do: leave the slots alone, overwrite the target slot for
nothing, or publish the job parsed into it. -/
inductive LineCases (c : StratumV1Client) (line : StratumV1Line) : StratumV1Client → Prop where
  | kept {c' : StratumV1Client} (hsame : SameSlots c c') (hnotify : ¬ c.IgnoredNotify line) :
      LineCases c line c'
  | ignored (job : MinerJob) (hnotify : c.IgnoredNotify line) :
      LineCases c line (c.setSlot c.targetSlot job)
  | published (job : MinerJob) (session : Sv1Session) (hnotify : ¬ c.Ignored line) :
      LineCases c line
        (((c.setSlot c.targetSlot job).setSession (some session)).stratumPublishJob c.targetSlot)

theorem setSlot_self (c : StratumV1Client) (slot : Fin MINER_JOB_POOL_SIZE) :
    c.setSlot slot (c.jobPool slot) = c := by
  unfold setSlot
  rw [Function.update_eq_self]

theorem setSlot_setSlot (c : StratumV1Client) (slot : Fin MINER_JOB_POOL_SIZE)
    (job job' : MinerJob) : (c.setSlot slot job).setSlot slot job' = c.setSlot slot job' := by
  unfold setSlot
  rw [Function.update_idem]

/-- A message that is no notify leaves the slots alone. -/
theorem handleMessage_sameSlots (c : StratumV1Client) (session : Sv1Session)
    (line : StratumV1Line) (slot : Fin MINER_JOB_POOL_SIZE) {message : StratumApiV1Message}
    (h : message.method ≠ .miningNotify) :
    SameSlots c (c.handleMessage asicDifficulty supportedMask session line slot message) := by
  unfold handleMessage
  cases hmethod : message.method with
  | miningNotify => exact absurd hmethod h
  | methodUnknown => exact .refl c
  | clientShowMessage => exact .refl c
  | miningSetDifficulty => exact ⟨rfl, rfl, rfl, rfl, [], by simp, rfl⟩
  | miningSetVersionMask => exact (SameSlots.refl c).setSession _
  | stratumResultConfigure => exact (SameSlots.refl c).setSession _
  | miningSetExtranonce => exact (SameSlots.refl c).setSession _
  | stratumResultSubscribe => exact (SameSlots.refl c).setSession _
  | miningPing => exact (SameSlots.refl c).record trivial
  | clientReconnect => exact closeConnection_sameSlots c
  | clientGetVersion => exact (SameSlots.refl c).record trivial
  | stratumResult => exact handleResult_sameSlots c session line.timed message

theorem handleLine_cases {session : Sv1Session} (hsession : c.session = some session)
    (line : StratumV1Line) :
    LineCases c line (c.handleLine asicDifficulty supportedMask session line) := by
  have hjob := stratumV1Parse_job line (c.jobPool c.targetSlot)
  unfold handleLine
  dsimp only
  cases hparsed : (stratumV1Parse line (c.jobPool c.targetSlot)).1 with
  | none =>
    -- nothing was parsed, so nothing was written
    have hkept := hjob.resolve_right fun ⟨_, hmessage, _⟩ => by
      rw [hparsed] at hmessage
      cases hmessage
    dsimp only
    rw [hkept, setSlot_self]
    refine .kept (.refl c) ?_
    rintro ⟨_, _, -, hmessage, -⟩
    rw [hparsed] at hmessage
    cases hmessage
  | some message =>
    dsimp only
    by_cases hnotify : message.method = .miningNotify
    · simp only [handleMessage, hnotify, handleMiningNotify]
      have hread (job : MinerJob) : (c.setSlot c.targetSlot job).jobPool c.targetSlot = job :=
        Function.update_self ..
      rw [hread, setSlot_setSlot, hread]
      cases haccept : session.conn.acceptJob line.buffers
          (session.conn.configureJob (c.parsedJob line)) with
      | none =>
        rw [parsedJob] at haccept
        rw [haccept]
        exact .ignored _ ⟨session, message, hsession, hparsed, hnotify, haccept⟩
      | some activeJobIds =>
        refine (congrArg (LineCases c line) ?_).mpr (.published
          (session.conn.configureJob (c.parsedJob line))
          { session with conn := { session.conn with activeJobIds := activeJobIds } } ?_)
        · rw [parsedJob] at haccept
          rw [haccept]
          rfl
        · rintro (hnone | ⟨session', _, hsession', -, -, hrefused⟩)
          · rw [hparsed] at hnone
            cases hnone
          · obtain rfl := Option.some.inj (hsession.symm.trans hsession')
            rw [haccept] at hrefused
            cases hrefused
    · have hkept := hjob.resolve_right fun ⟨message', hmessage', hmethod⟩ => by
        obtain rfl := Option.some.inj (hparsed.symm.trans hmessage')
        exact hnotify hmethod
      rw [hkept, setSlot_self]
      refine .kept
        (handleMessage_sameSlots asicDifficulty supportedMask c session line _ hnotify) ?_
      rintro ⟨_, message', -, hmessage', hmethod, -⟩
      obtain rfl := Option.some.inj (hparsed.symm.trans hmessage')
      exact hnotify hmethod

/-! ## The invariant -/

/-- The waiting job is the latest published one, in the slot that the next line
is parsed into; the job task works on the active slot. -/
structure SlotsTracked (c : StratumV1Client) : Prop where
  pending : ∀ slot, c.slotNotify = some slot →
    slot = c.targetSlot ∧ latestPublished c.trace = some (c.jobPool slot, slot)
  working : ∀ slot, c.currentWork = some slot → c.activeJobSlotIdx = slot
  takes : TakesLatest c.trace

theorem Started.slotsTracked (h : c.Started) : SlotsTracked c where
  pending := by
    intro slot hslot
    rw [h.slotNotify] at hslot
    cases hslot
  working := h.currentWork
  takes := by
    rw [h.trace]
    trivial

theorem SlotsTracked.of_sameSlots {c c' : StratumV1Client} (h : SlotsTracked c)
    (hsame : SameSlots c c') : SlotsTracked c' := by
  obtain ⟨events, hquiet, htrace⟩ := hsame.trace
  obtain ⟨hlatest, htakes⟩ := quiet_append hquiet c.trace
  have htarget : c'.targetSlot = c.targetSlot := by
    simp only [targetSlot, hsame.activeJobSlotIdx]
  refine ⟨fun slot hslot => ?_, fun slot hslot => ?_, ?_⟩
  · rw [hsame.slotNotify] at hslot
    rw [htarget, htrace, hlatest, hsame.jobPool]
    exact h.pending slot hslot
  · rw [hsame.currentWork] at hslot
    rw [hsame.activeJobSlotIdx]
    exact h.working slot hslot
  · rw [htrace, htakes]
    exact h.takes

theorem takeNotification_slotsTracked (h : SlotsTracked c) : SlotsTracked c.takeNotification := by
  unfold takeNotification
  cases hslot : c.slotNotify with
  | none => exact h
  | some slot =>
    refine ⟨fun _ hnone => (nomatch hnone), ?_, (h.pending slot hslot).2, h.takes⟩
    rintro _ ⟨⟩
    rfl

/-- A line that is ignored after parsing does not meet a waiting job. -/
def SparesPending (c : StratumV1Client) : Input → Prop
  | .line line => c.IgnoredNotify line → c.slotNotify = none
  | _ => True

theorem handleLine_slotsTracked {session : Sv1Session} (hsession : c.session = some session)
    (h : SlotsTracked c) {line : StratumV1Line} (hspares : SparesPending c (.line line)) :
    SlotsTracked (c.handleLine asicDifficulty supportedMask session line) := by
  have hcases := handleLine_cases asicDifficulty supportedMask hsession line
  generalize c.handleLine asicDifficulty supportedMask session line = c' at hcases ⊢
  cases hcases with
  | kept hsame _ => exact h.of_sameSlots hsame
  | ignored job hnotify =>
    refine ⟨fun slot hslot => ?_, h.working, h.takes⟩
    exact nomatch (hspares hnotify).symm.trans hslot
  | published job session' _ =>
    refine ⟨?_, h.working, trivial, h.takes⟩
    rintro _ ⟨⟩
    refine ⟨rfl, ?_⟩
    simp only [latestPublished, stratumPublishJob, setSlot, record, setSession,
      Function.update_self]

theorem step_slotsTracked {input : Input} (h : SlotsTracked c) (hspares : SparesPending c input) :
    SlotsTracked (c.step asicDifficulty supportedMask input) := by
  unfold step
  cases input with
  | connect poolIdx difficulty extranonceSubscribe =>
    cases c.session with
    | some _ => exact h
    | none => exact h.of_sameSlots ⟨rfl, rfl, rfl, rfl, [.invalidated], by simp [Quiet], rfl⟩
  | line line =>
    cases hsession : c.session with
    | none => exact h
    | some session => exact handleLine_slotsTracked _ _ hsession h hspares
  | disconnect =>
    cases c.session with
    | none => exact h
    | some _ => exact h.of_sameSlots (closeConnection_sameSlots c)
  | take => exact takeNotification_slotsTracked h

/-! ## Runs -/

/-- The waiting job and the job being mined are the same. -/
structure WorkKept (c c' : StratumV1Client) : Prop where
  slotNotify : c'.slotNotify = c.slotNotify
  currentWork : c'.currentWork = c.currentWork
  pending : ∀ slot, c.slotNotify = some slot → c'.jobPool slot = c.jobPool slot
  working : ∀ slot, c.currentWork = some slot → c'.jobPool slot = c.jobPool slot

/-- No line is parsed into the slot that the job task works on. -/
theorem activeJobSlotIdx_ne_targetSlot (c : StratumV1Client) :
    c.activeJobSlotIdx ≠ c.targetSlot := by
  intro heq
  have hval := congrArg Fin.val heq
  unfold targetSlot at hval
  dsimp only at hval
  omega

theorem ignored_workKept (h : SlotsTracked c) {line : StratumV1Line}
    (hspares : SparesPending c (.line line)) (hignored : c.Ignored line) :
    WorkKept c (c.step asicDifficulty supportedMask (.line line)) := by
  unfold step
  cases hsession : c.session with
  | none => exact ⟨rfl, rfl, fun _ _ => rfl, fun _ _ => rfl⟩
  | some session =>
    have hcases := handleLine_cases asicDifficulty supportedMask hsession line
    dsimp only
    generalize c.handleLine asicDifficulty supportedMask session line = c' at hcases ⊢
    cases hcases with
    | kept hsame _ =>
      exact ⟨hsame.slotNotify, hsame.currentWork, fun _ _ => congrFun hsame.jobPool _,
        fun _ _ => congrFun hsame.jobPool _⟩
    | ignored job hnotify =>
      refine ⟨rfl, rfl, fun slot hslot => ?_, fun slot hslot => ?_⟩
      · exact nomatch (hspares hnotify).symm.trans hslot
      · refine Function.update_of_ne ?_ ..
        rw [← h.working slot hslot]
        exact activeJobSlotIdx_ne_targetSlot c
    | published job session' hpublished => exact absurd hignored hpublished

/-- **A published job waits untouched.**  In a run in which no ignored notify
meets a waiting job, the job task takes the latest published job every time, and
an ignored line keeps the waiting job and the job being mined. -/
theorem published_job_waits {c : StratumV1Client} (hstarted : c.Started) (inputs : List Input)
    (hspares : Guarded (step asicDifficulty supportedMask) SparesPending c inputs) :
    TakesLatest (run (step asicDifficulty supportedMask) c inputs).trace ∧
    ∀ line, SparesPending (run (step asicDifficulty supportedMask) c inputs) (.line line) →
      (run (step asicDifficulty supportedMask) c inputs).Ignored line →
      WorkKept (run (step asicDifficulty supportedMask) c inputs)
        ((run (step asicDifficulty supportedMask) c inputs).step asicDifficulty supportedMask
          (.line line)) := by
  have htracked : SlotsTracked (run (step asicDifficulty supportedMask) c inputs) :=
    Guarded.invariant (P := SlotsTracked) _
      (fun _ _ h hok => step_slotsTracked asicDifficulty supportedMask h hok) hspares
      hstarted.slotsTracked
  exact ⟨htracked.takes, fun _ => ignored_workKept asicDifficulty supportedMask htracked⟩

end Client

/-! ## A job that is lost -/

/-- A board that has seen no work. -/
def boot : StratumV1Client where
  session := none
  jobPool := fun _ => .zero
  stratumWorkGeneration := 0
  slotNotify := none
  activeJobSlotIdx := minerJobSlot 0
  currentWork := none
  poolDifficulty := 0
  sharesPending := 0
  trace := []

theorem boot_started : boot.Started := ⟨rfl, fun _ hnone => (nomatch hnone), rfl⟩

/-- A line on a board with PSRAM whose clock is not set. -/
def lineOf (members : List (List U8 × Json)) : StratumV1Line where
  length := 512
  json := some (.object members)
  now := 0
  buffers := .full
  allocates := true
  timed := false

/-- The answer to `mining.subscribe`: four bytes of each extranonce. -/
def subscribeLine : StratumV1Line := lineOf
  [(cText "id", .number 0x4000000000000000),
    (cText "result", .array [.null, .string (cText "aabbccdd"), .number 0x4010000000000000])]

/-- A `mining.notify` that is not clean, with a coinbase of one output. -/
def notifyLine : StratumV1Line := lineOf
  [(cText "id", .null), (cText "method", .string (cText "mining.notify")),
    (cText "params", .array
      [.string (cText "1"), .string (List.replicate 64 48#8),
        .string (cText "0100000001" ++ List.replicate 64 48#8 ++ cText "ffffffff08"),
        .string (cText "ffffffff01" ++ List.replicate 18 48#8 ++ cText "00000000"), .array [],
        .string (cText "20000000"), .string (cText "1d00ffff"), .string (cText "6553f100"),
        .bool false])]

def subscribed : List Input := [.connect 0 0 false, .line subscribeLine]

theorem published_job_waits_of_one :
    TakesLatest (run (step 0 0) boot (subscribed ++ [.line notifyLine, .take])).trace :=
  (published_job_waits 0 0 boot_started (subscribed ++ [.line notifyLine, .take])
    (by exact ⟨trivial, fun _ => rfl, fun _ => rfl, trivial, trivial⟩)).1

/-- The work generation of the job that is taken. -/
def takenGeneration : Sv1Event → Option U64
  | .taken job _ => some job.workGeneration
  | _ => none

/-- The same notify twice: the second is a duplicate, and the job that waits has
lost its work generation. -/
theorem published_job_lost :
    boot.Started ∧
      ¬ TakesLatest (run (step 0 0) boot
        (subscribed ++ [.line notifyLine, .line notifyLine, .take])).trace := by
  refine ⟨boot_started, fun htakes => ?_⟩
  let trace := (run (step 0 0) boot
    (subscribed ++ [.line notifyLine, .line notifyLine, .take])).trace
  have hgenerations : trace.head?.bind takenGeneration = some 0 ∧
      (latestPublished trace.tail).map (fun published => published.1.workGeneration) = some 1 := by
    decide +kernel
  cases htrace : trace with
  | nil =>
    rw [htrace] at hgenerations
    exact nomatch hgenerations.1
  | cons event older =>
    rw [htrace] at hgenerations
    have hevent : TakenLatest event older := (htrace ▸ htakes : TakesLatest (event :: older)).1
    cases event with
    | taken job slot =>
      have hlatest : latestPublished older = some (job, slot) := hevent
      have hwas : job.workGeneration = 0 := Option.some.inj hgenerations.1
      have hpublished := hgenerations.2
      rw [List.tail_cons, hlatest, Option.map_some, hwas] at hpublished
      exact absurd (Option.some.inj hpublished) (by decide)
    | _ => exact nomatch hgenerations.1

end StratumV1Client

end EspMiner
