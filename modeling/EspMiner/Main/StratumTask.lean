import EspMiner.Asic.Job
import EspMiner.Library.Run
import Mathlib.Logic.Function.Basic

/-!
# Pool selection

`main/tasks/stratum_task.c`: the task that runs the selected pool, the heartbeat
that returns to the primary pool, and the notification that a configuration
update sends.  They share the selection, the running index and the reconnect
flag without a lock, so each read and each write of one of them is a step.

A task is a place in its code with its locals.  What a step asks of the world
(is WiFi up, does a pool answer, how did a session end) is the input `answer`.
Any number of updates may be on their way.

`stratum_task` samples the pool indices and clears the reconnect flag after that,
so a change and its request that both fall between the two are lost:
`selection_lost`.  `selection_not_lost` says that nothing else loses a change.  An
observer beside the tasks notes which changes came late (`LateChanges`): to an
index that the task had sampled, or to the choice between the two after it had
been made.  As long as the notification of a late change begins after the flag is
cleared, two invariants hold in every state:

* on its way into a session the task has what is selected, or a late change still
  waits for its notification (`Taken`);
* in a session the flag is set, or the pool is the selected one, or somebody will
  request a reconnect (`SessionCovered`).
-/

namespace EspMiner

open Library

def MAX_RETRY_ATTEMPTS : Nat := 3

/-- A variable that a configuration update writes. -/
inductive ConfigWrite where
  | primaryPoolIndex (value : U16)
  | secondaryPoolIndex (value : U16)
  | useFallbackStratum (value : Bool)
  | isUsingFallback (value : Bool)

/-- Where a configuration update is: it writes, and then it is in
`stratum_notify_pool_selection_changed`, with what it has read there. -/
inductive ConfigUpdate where
  | idle
  | writing
  | readPrimary (primIdx : U16)
  | readSecondary (primIdx secIdx : U16)
  | readTarget (targetIdx : U16)
  | requesting
deriving DecidableEq, Repr

/-- Where `stratum_heartbeat_task` is. -/
inductive HeartbeatTask where
  | waiting
  | usesFallback
  | prefersPrimary
  | probing (primIdx : U16)
  | switched
deriving DecidableEq, Repr

/-- Where `stratum_task` is in its loop. -/
inductive StratumTaskPlace where
  | top
  | samplePrimary
  | sampleSecondary
  | sampleFallback
  | testReconnect
  | clearReconnect
  | preferFallback
  | applyPreference
  | select
  | recover
  | recoverPreference
  | probeFirst (preferFallback : Bool)
  | probeSecond (preferFallback : Bool)
  | recovered (poolIdx : U16)
  | publish
  | enter
  | running
  | ended
  | finish
  | readFallback
  | flipFallback (value : Bool)
deriving DecidableEq, Repr

/-- The locals of `stratum_task`. -/
structure StratumTask where
  place : StratumTaskPlace
  consecutivePoolFailures : Nat
  retryAttempts : Nat
  primIdx : U16
  secIdx : U16
  hasFallback : Bool
  activeIdx : U16

/-- The shared variables and the tasks. -/
structure PoolSelection where
  primaryPoolIndex : U16
  secondaryPoolIndex : U16
  useFallbackStratum : Bool
  isUsingFallback : Bool
  shouldReconnect : Bool
  runningPoolIdx : U16
  task : StratumTask
  heartbeat : HeartbeatTask
  updates : Nat → ConfigUpdate

namespace PoolSelection

/-- The pool that is selected now. -/
def selected (s : PoolSelection) : U16 :=
  if s.isUsingFallback then s.secondaryPoolIndex else s.primaryPoolIndex

def setUpdate (s : PoolSelection) (update : Nat) (place : ConfigUpdate) : PoolSelection :=
  { s with updates := Function.update s.updates update place }

/-! ## Configuration updates -/

def writeConfig (s : PoolSelection) : ConfigWrite → PoolSelection
  | .primaryPoolIndex value => { s with primaryPoolIndex := value }
  | .secondaryPoolIndex value => { s with secondaryPoolIndex := value }
  | .useFallbackStratum value => { s with useFallbackStratum := value }
  | .isUsingFallback value => { s with isUsingFallback := value }

/-- An update writes a variable, before its notification. -/
def updateWrite (s : PoolSelection) (update : Nat) (write : ConfigWrite) : PoolSelection :=
  match s.updates update with
  | .idle | .writing => (s.writeConfig write).setUpdate update .writing
  | _ => s

/-- The next step of `stratum_notify_pool_selection_changed`.  Without a request,
the call can only wake the heartbeat, which may step at any time here. -/
def updateNotify (s : PoolSelection) (update : Nat) : PoolSelection :=
  match s.updates update with
  | .idle => s
  | .writing => s.setUpdate update (.readPrimary s.primaryPoolIndex)
  | .readPrimary primIdx => s.setUpdate update (.readSecondary primIdx s.secondaryPoolIndex)
  | .readSecondary primIdx secIdx =>
      s.setUpdate update (.readTarget (if s.isUsingFallback then secIdx else primIdx))
  | .readTarget targetIdx =>
      s.setUpdate update (if targetIdx ≠ s.runningPoolIdx then .requesting else .idle)
  | .requesting => { s.setUpdate update .idle with shouldReconnect := true }

/-! ## The heartbeat -/

/-- The next step of `stratum_heartbeat_task`. -/
def heartbeatStep (s : PoolSelection) (answer : Bool) : PoolSelection :=
  match s.heartbeat with
  | .waiting => if s.isUsingFallback then { s with heartbeat := .usesFallback } else s
  | .usesFallback =>
      { s with heartbeat := if s.useFallbackStratum then .waiting else .prefersPrimary }
  | .prefersPrimary =>
      -- `answer`: WiFi is connected
      { s with heartbeat := if answer then .probing s.primaryPoolIndex else .waiting }
  | .probing _ =>
      -- `answer`: the primary pool is reachable
      if answer then { s with isUsingFallback := false, heartbeat := .switched }
      else { s with heartbeat := .waiting }
  | .switched => { s with shouldReconnect := true, heartbeat := .waiting }

/-! ## The task -/

def goTo (s : PoolSelection) (place : StratumTaskPlace) : PoolSelection :=
  { s with task := { s.task with place := place } }

/-- Both counters start over. -/
def resetCounters (s : PoolSelection) : PoolSelection :=
  { s with task := { s.task with consecutivePoolFailures := 0, retryAttempts := 0 } }

/-- The pool that recovery probes, first or second. -/
def recoveryIdx (s : PoolSelection) (secondary : Bool) : U16 :=
  if secondary then s.task.secIdx else s.task.primIdx

/-- A connection failed; the third failure in a row tries the other pool. -/
def connectionFailed (s : PoolSelection) : PoolSelection :=
  if MAX_RETRY_ATTEMPTS ≤ s.task.retryAttempts + 1 then
    let s := { s with task := { s.task with
      consecutivePoolFailures := s.task.consecutivePoolFailures + 1
      retryAttempts := 0 } }
    if s.task.hasFallback then s.goTo .readFallback else s.goTo .top
  else { s with task := { s.task with retryAttempts := s.task.retryAttempts + 1 } }.goTo .top

/-- The next step of `stratum_task`. -/
def taskStep (s : PoolSelection) (answer : Bool) : PoolSelection :=
  match s.task.place with
  | .top => if answer then s.goTo .samplePrimary else s  -- not paused, and WiFi is connected
  | .samplePrimary =>
      { s with task := { s.task with primIdx := s.primaryPoolIndex } }.goTo .sampleSecondary
  | .sampleSecondary =>
      { s with task := { s.task with secIdx := s.secondaryPoolIndex } }.goTo .sampleFallback
  | .sampleFallback =>
      -- `answer`: the secondary pool has a URL
      { s with task := { s.task with hasFallback := answer } }.goTo .testReconnect
  | .testReconnect =>
      if s.shouldReconnect then s.resetCounters.goTo .clearReconnect else s.goTo .preferFallback
  | .clearReconnect => { s with shouldReconnect := false }.goTo .preferFallback
  | .preferFallback =>
      if s.task.consecutivePoolFailures = 0 ∧ s.useFallbackStratum = true then
        s.goTo .applyPreference
      else s.goTo .select
  | .applyPreference => { s with isUsingFallback := s.task.hasFallback }.goTo .select
  | .select =>
      if (if s.task.hasFallback then 2 else 1) ≤ s.task.consecutivePoolFailures then
        s.goTo .recover
      else
        { s with task := { s.task with
          activeIdx := if s.isUsingFallback then s.task.secIdx else s.task.primIdx } }.goTo .publish
  | .recover => if answer then s.goTo .recoverPreference else s.goTo .top  -- WiFi, after the pause
  | .recoverPreference => s.goTo (.probeFirst (s.useFallbackStratum && s.task.hasFallback))
  | .probeFirst preferFallback =>
      if answer then s.goTo (.recovered (s.recoveryIdx preferFallback))
      else if s.task.hasFallback then s.goTo (.probeSecond preferFallback)
      else s.goTo .top
  | .probeSecond preferFallback =>
      if answer then s.goTo (.recovered (s.recoveryIdx (!preferFallback))) else s.goTo .top
  | .recovered poolIdx =>
      { s with isUsingFallback := decide (poolIdx = s.task.secIdx) }.resetCounters.goTo .top
  | .publish => { s with runningPoolIdx := s.task.activeIdx }.goTo .enter
  | .enter => { s with shouldReconnect := false }.goTo .running
  | .running => if answer then s.goTo .finish else s.goTo .ended  -- `err == ESP_OK`
  | .ended =>
      -- `answer`: some work was received
      if s.shouldReconnect || answer then s.goTo .finish else s.connectionFailed
  | .finish => { s with shouldReconnect := false }.resetCounters.goTo .top
  | .readFallback => s.goTo (.flipFallback (!s.isUsingFallback))
  | .flipFallback value => { s with isUsingFallback := value }.goTo .top

/-! ## Runs -/

/-- One step of somebody.  `request` is a reconnect request from elsewhere, such
as `stratum_notify_pool_modified`. -/
inductive Input where
  | write (update : Nat) (write : ConfigWrite)
  | notify (update : Nat)
  | heartbeat (answer : Bool)
  | request
  | task (answer : Bool)

def step (s : PoolSelection) : Input → PoolSelection
  | .write update write => s.updateWrite update write
  | .notify update => s.updateNotify update
  | .heartbeat answer => s.heartbeatStep answer
  | .request => { s with shouldReconnect := true }
  | .task answer => s.taskStep answer

/-- The locals of `stratum_task` before its loop. -/
def StratumTask.start : StratumTask where
  place := .top
  consecutivePoolFailures := 0
  retryAttempts := 0
  primIdx := 0
  secIdx := 0
  hasFallback := false
  activeIdx := 0

/-- The board when `stratum_task` starts, with its stored configuration. -/
def boot (primaryPoolIndex secondaryPoolIndex : U16) (useFallbackStratum isUsingFallback : Bool) :
    PoolSelection where
  primaryPoolIndex := primaryPoolIndex
  secondaryPoolIndex := secondaryPoolIndex
  useFallbackStratum := useFallbackStratum
  isUsingFallback := isUsingFallback
  shouldReconnect := false
  runningPoolIdx := 0
  task := StratumTask.start
  heartbeat := .waiting
  updates := fun _ => .idle

/-- Every update and every switch of the heartbeat has been notified: no update
is between its first write and the end of its notification. -/
structure Settled (s : PoolSelection) : Prop where
  updates : ∀ update, s.updates update = .idle
  heartbeat : s.heartbeat ≠ .switched

/-- **The running pool is the selected one**, unless a reconnect is requested or
a change is on its way. -/
def RunsSelected (s : PoolSelection) : Prop :=
  s.task.place = .running → s.Settled → s.shouldReconnect = false →
    s.task.activeIdx = s.selected

/-! ## Changes that will request a reconnect -/

/-- The pool index that an update compares with the running one, if nothing
changes before it does. -/
def targetOf (s : PoolSelection) : ConfigUpdate → U16
  | .readPrimary primIdx => if s.isUsingFallback then s.secondaryPoolIndex else primIdx
  | .readSecondary primIdx secIdx => if s.isUsingFallback then secIdx else primIdx
  | .readTarget targetIdx => targetIdx
  | _ => s.selected

/-- An update that will request a reconnect from pool `running`, if nothing
changes before it does. -/
def WillRequest (s : PoolSelection) (running : U16) (update : ConfigUpdate) : Prop :=
  update = .requesting ∨ (update ≠ .idle ∧ s.targetOf update ≠ running)

/-- Pool `running` is the selected one, or somebody will request a reconnect. -/
def Current (s : PoolSelection) (running : U16) : Prop :=
  running = s.selected ∨ s.heartbeat = .switched ∨
    ∃ update, s.WillRequest running (s.updates update)

/-! ## Late changes -/

end PoolSelection

namespace StratumTaskPlace

/-- The task has sampled the primary index and is on its way into a session. -/
def hasPrimary : StratumTaskPlace → Bool
  | sampleSecondary | sampleFallback | testReconnect | clearReconnect | preferFallback
  | applyPreference | select | publish | enter => true
  | _ => false

/-- It has sampled the secondary index, too. -/
def hasSecondary (place : StratumTaskPlace) : Bool :=
  place.hasPrimary && decide (place ≠ sampleSecondary)

/-- It has chosen between the two. -/
def hasActive (place : StratumTaskPlace) : Bool := decide (place = publish ∨ place = enter)

/-- A write that comes after the task has taken what is written. -/
def isLate (place : StratumTaskPlace) : ConfigWrite → Bool
  | .primaryPoolIndex _ => place.hasPrimary
  | .secondaryPoolIndex _ => place.hasSecondary
  | .useFallbackStratum _ => false
  | .isUsingFallback _ => place.hasActive

theorem hasPrimary_of_hasSecondary {place : StratumTaskPlace} (h : place.hasSecondary = true) :
    place.hasPrimary = true := (Bool.and_eq_true_iff.mp h).1

theorem hasSecondary_of_hasActive {place : StratumTaskPlace} (h : place.hasActive = true) :
    place.hasSecondary = true := by
  rcases of_decide_eq_true h with rfl | rfl <;> rfl

end StratumTaskPlace

namespace PoolSelection

variable {s : PoolSelection}

/-- The late changes since the task last began to sample: which updates made one that they have
not begun to notify, and whether the heartbeat did. -/
structure LateChanges where
  updates : Nat → Bool
  heartbeat : Bool

namespace LateChanges

def empty : LateChanges := ⟨fun _ => false, false⟩

def note (s : PoolSelection) (late : LateChanges) : Input → LateChanges
  | .write update write =>
      if s.updates update = .idle ∨ s.updates update = .writing then
        { late with
          updates := Function.update late.updates update
            (late.updates update || s.task.place.isLate write) }
      else late
  | .notify update => { late with updates := Function.update late.updates update false }
  | .heartbeat answer =>
      match s.heartbeat with
      | .probing _ => { late with heartbeat := answer && s.task.place.hasActive }
      | .switched => { late with heartbeat := false }
      | _ => late
  | .request => late
  | .task _ => if s.task.place = .samplePrimary then empty else late

end LateChanges

/-- A late change is notified after the task has cleared the flag and entered its session. -/
def NotifiedAfterEntry (state : PoolSelection × LateChanges) : Input → Prop
  | .notify update => state.1.updates update = .writing → state.2.updates update = true →
      state.1.task.place.hasPrimary = false
  | .heartbeat _ => state.1.heartbeat = .switched → state.2.heartbeat = true →
      state.1.task.place.hasActive = false
  | _ => True

instance (state : PoolSelection × LateChanges) (input : Input) :
    Decidable (NotifiedAfterEntry state input) := by
  unfold NotifiedAfterEntry
  split <;> infer_instance

/-! ## The invariant -/

/-- In a session, the published index is the one of the task, and the flag
covers a pool that is not current. -/
structure SessionCovered (s : PoolSelection) : Prop where
  published : s.task.place = .enter ∨ s.task.place = .running → s.runningPoolIdx = s.task.activeIdx
  covered : s.task.place = .running → s.shouldReconnect = true ∨ s.Current s.runningPoolIdx

/-- What the updates and the heartbeat leave alone. -/
structure TaskSame (s s' : PoolSelection) : Prop where
  task : s'.task = s.task
  runningPoolIdx : s'.runningPoolIdx = s.runningPoolIdx

theorem SessionCovered.of_taskSame {s s' : PoolSelection} (h : SessionCovered s)
    (hsame : TaskSame s s')
    (hcovered : (s.shouldReconnect = true ∨ s.Current s.runningPoolIdx) →
      s'.shouldReconnect = true ∨ s'.Current s.runningPoolIdx) : SessionCovered s' := by
  refine ⟨fun hplace => ?_, fun hplace => ?_⟩
  · rw [hsame.task] at hplace ⊢
    rw [hsame.runningPoolIdx]
    exact h.published hplace
  · rw [hsame.task] at hplace
    rw [hsame.runningPoolIdx]
    exact hcovered (h.covered hplace)

/-- An update before its notification will compare what is selected. -/
theorem current_of_writing {update : Nat} (h : s.updates update = .writing) (running : U16) :
    s.Current running := by
  by_cases hselected : running = s.selected
  · exact .inl hselected
  · refine .inr (.inr ⟨update, .inr ?_⟩)
    rw [h]
    exact ⟨by decide, fun htarget => hselected htarget.symm⟩

theorem updateWrite_eq {update : Nat} {write : ConfigWrite}
    (hplace : s.updates update = .idle ∨ s.updates update = .writing) :
    s.updateWrite update write = (s.writeConfig write).setUpdate update .writing := by
  unfold updateWrite
  rcases hplace with hplace | hplace <;> rw [hplace]

theorem updateWrite_writing {update : Nat} {write : ConfigWrite}
    (hplace : s.updates update = .idle ∨ s.updates update = .writing) :
    (s.updateWrite update write).updates update = .writing := by
  rw [updateWrite_eq hplace]
  exact Function.update_self ..

theorem updateWrite_of_notifying {update : Nat} {write : ConfigWrite}
    (hplace : ¬ (s.updates update = .idle ∨ s.updates update = .writing)) :
    s.updateWrite update write = s := by
  unfold updateWrite
  cases hupdate : s.updates update with
  | idle => exact absurd (.inl hupdate) hplace
  | writing => exact absurd (.inr hupdate) hplace
  | _ => rfl

/-- An update moves on without forgetting that it will request. -/
theorem Current.setUpdate {running : U16} (h : s.Current running) {update : Nat}
    {place : ConfigUpdate}
    (hplace : s.WillRequest running (s.updates update) → s.WillRequest running place) :
    (s.setUpdate update place).Current running := by
  rcases h with hselected | hswitched | ⟨other, hother⟩
  · exact .inl hselected
  · exact .inr (.inl hswitched)
  · by_cases heq : other = update
    · subst heq
      refine .inr (.inr ⟨other, ?_⟩)
      have hself : (s.setUpdate other place).updates other = place := Function.update_self ..
      rw [hself]
      exact hplace hother
    · refine .inr (.inr ⟨other, ?_⟩)
      have hsame : (s.setUpdate update place).updates other = s.updates other :=
        Function.update_of_ne heq ..
      rw [hsame]
      exact hother

/-- A read that agrees with what is stored now. -/
theorem Current.advance {running : U16} (h : s.Current running) {update : Nat}
    {place place' : ConfigUpdate} (hplace : s.updates update = place)
    (hbefore : place ≠ .requesting) (hafter : place' ≠ .idle)
    (htarget : s.targetOf place' = s.targetOf place) :
    (s.setUpdate update place').Current running := by
  refine h.setUpdate fun hrequest => ?_
  rw [hplace] at hrequest
  obtain ⟨-, hdiffers⟩ := hrequest.resolve_left hbefore
  exact .inr ⟨hafter, htarget ▸ hdiffers⟩

theorem updateNotify_covered (s : PoolSelection) (update : Nat)
    (h : s.shouldReconnect = true ∨ s.Current s.runningPoolIdx) :
    (s.updateNotify update).shouldReconnect = true ∨
      (s.updateNotify update).Current s.runningPoolIdx := by
  unfold updateNotify
  cases hplace : s.updates update with
  | idle => exact h
  | requesting => exact .inl rfl
  | writing => exact h.imp_right fun hcurrent => hcurrent.advance hplace nofun nofun rfl
  | readPrimary primIdx =>
    exact h.imp_right fun hcurrent => hcurrent.advance hplace nofun nofun rfl
  | readSecondary primIdx secIdx =>
    exact h.imp_right fun hcurrent => hcurrent.advance hplace nofun nofun rfl
  | readTarget targetIdx =>
    refine h.imp_right fun hcurrent => hcurrent.setUpdate fun hrequest => ?_
    rw [hplace] at hrequest
    obtain ⟨-, hdiffers⟩ := hrequest.resolve_left nofun
    have htarget : targetIdx ≠ s.runningPoolIdx := hdiffers
    rw [if_pos htarget]
    exact .inl rfl

theorem heartbeatStep_covered (s : PoolSelection) (answer : Bool)
    (h : s.shouldReconnect = true ∨ s.Current s.runningPoolIdx) :
    (s.heartbeatStep answer).shouldReconnect = true ∨
      (s.heartbeatStep answer).Current s.runningPoolIdx := by
  have hmoves (place : HeartbeatTask) (hplace : s.heartbeat ≠ .switched) :
      { s with heartbeat := place }.shouldReconnect = true ∨
        { s with heartbeat := place }.Current s.runningPoolIdx :=
    h.imp_right fun hcurrent => hcurrent.imp_right fun hrest =>
      .inr (hrest.resolve_left hplace)
  unfold heartbeatStep
  cases hplace : s.heartbeat with
  | waiting =>
    dsimp only
    split
    · exact hmoves _ (by simp [hplace])
    · exact h
  | usesFallback => exact hmoves _ (by simp [hplace])
  | prefersPrimary => exact hmoves _ (by simp [hplace])
  | probing primIdx =>
    dsimp only
    split
    · exact .inr (.inr (.inl rfl))
    · exact hmoves _ (by simp [hplace])
  | switched => exact .inl rfl

theorem writeConfig_taskSame (s : PoolSelection) (write : ConfigWrite) :
    TaskSame s (s.writeConfig write) := by
  cases write <;> exact ⟨rfl, rfl⟩

theorem updateWrite_taskSame (s : PoolSelection) (update : Nat) (write : ConfigWrite) :
    TaskSame s (s.updateWrite update write) := by
  have hwrite := writeConfig_taskSame s write
  unfold updateWrite
  split
  · exact ⟨hwrite.task, hwrite.runningPoolIdx⟩
  · exact ⟨hwrite.task, hwrite.runningPoolIdx⟩
  · exact ⟨rfl, rfl⟩

theorem updateNotify_taskSame (s : PoolSelection) (update : Nat) :
    TaskSame s (s.updateNotify update) := by
  unfold updateNotify
  split <;> exact ⟨rfl, rfl⟩

theorem heartbeatStep_taskSame (s : PoolSelection) (answer : Bool) :
    TaskSame s (s.heartbeatStep answer) := by
  unfold heartbeatStep
  split
  · split <;> exact ⟨rfl, rfl⟩
  · exact ⟨rfl, rfl⟩
  · exact ⟨rfl, rfl⟩
  · split <;> exact ⟨rfl, rfl⟩
  · exact ⟨rfl, rfl⟩

/-- The task reaches a session only through the publication of its index and the
clearing of the flag. -/
theorem taskStep_enters (s : PoolSelection) (answer : Bool) :
    ((s.taskStep answer).task.place = .enter → s.task.place = .publish) ∧
      ((s.taskStep answer).task.place = .running → s.task.place = .enter) := by
  unfold taskStep
  cases hplace : s.task.place with
  | publish => exact ⟨fun _ => rfl, nofun⟩
  | enter => exact ⟨nofun, fun _ => rfl⟩
  | top =>
    dsimp only
    split
    · exact ⟨nofun, nofun⟩
    · rw [hplace]
      exact ⟨nofun, nofun⟩
  | ended =>
    dsimp only
    split
    · exact ⟨nofun, nofun⟩
    · unfold connectionFailed
      dsimp only
      repeat' split
      all_goals exact ⟨nofun, nofun⟩
  | _ =>
    dsimp only
    repeat' split
    all_goals exact ⟨nofun, nofun⟩

/-- Entering with a current pool covers the session. -/
theorem taskStep_sessionCovered {answer : Bool} (h : SessionCovered s)
    (henters : s.task.place = .enter → s.Current s.task.activeIdx) :
    SessionCovered (s.taskStep answer) := by
  obtain ⟨henter, hrunning⟩ := taskStep_enters s answer
  refine ⟨fun hplace => ?_, fun hplace => ?_⟩
  · rcases hplace with hplace | hplace
    · have hpublish := henter hplace
      simp only [taskStep, hpublish, goTo]
    · have hbefore := hrunning hplace
      have hpublished := h.published (.inl hbefore)
      simpa only [taskStep, hbefore, goTo] using hpublished
  · have hbefore := hrunning hplace
    have hpublished := h.published (.inl hbefore)
    have hcurrent : s.Current s.runningPoolIdx := hpublished ▸ henters hbefore
    simp only [taskStep, hbefore, goTo]
    exact .inr hcurrent

theorem step_sessionCovered {input : Input} (h : SessionCovered s)
    (henters : s.task.place = .enter → s.Current s.task.activeIdx) :
    SessionCovered (s.step input) := by
  cases input with
  | write update write =>
    refine h.of_taskSame (updateWrite_taskSame s update write) fun hcovered => ?_
    by_cases hplace : s.updates update = .idle ∨ s.updates update = .writing
    · exact .inr (current_of_writing (updateWrite_writing hplace) _)
    · rw [step, updateWrite_of_notifying hplace]
      exact hcovered
  | notify update =>
    exact h.of_taskSame (updateNotify_taskSame s update) (updateNotify_covered s update)
  | heartbeat answer =>
    exact h.of_taskSame (heartbeatStep_taskSame s answer) (heartbeatStep_covered s answer)
  | request => exact h.of_taskSame ⟨rfl, rfl⟩ fun _ => .inl rfl
  | task answer => exact taskStep_sessionCovered h henters

/-! ## The way into a session -/

/-- A late change of an update waits for its notification. -/
def AwaitsNotify (s : PoolSelection) (late : LateChanges) : Prop :=
  ∃ update, late.updates update = true ∧ s.updates update = .writing

/-- What the task has taken on its way into a session is selected, unless a late change waits for
its notification. -/
structure Taken (s : PoolSelection) (late : LateChanges) : Prop where
  primary : s.task.place.hasPrimary = true →
    s.task.primIdx = s.primaryPoolIndex ∨ AwaitsNotify s late
  secondary : s.task.place.hasSecondary = true →
    s.task.secIdx = s.secondaryPoolIndex ∨ AwaitsNotify s late
  active : s.task.place.hasActive = true →
    s.task.activeIdx = s.selected ∨ AwaitsNotify s late ∨
      (late.heartbeat = true ∧ s.heartbeat = .switched)

namespace Taken

variable {late : LateChanges}

/-- The task enters with a current pool. -/
theorem current (h : Taken s late) (hplace : s.task.place = .enter) :
    s.Current s.task.activeIdx := by
  rcases h.active (by rw [hplace]; rfl) with hselected | ⟨update, -, hwriting⟩ | ⟨-, hswitched⟩
  · exact .inl hselected
  · exact current_of_writing hwriting _
  · exact .inr (.inl hswitched)

/-- A write waits for its notification if it is late. -/
theorem write (h : Taken s late) (update : Nat) (write : ConfigWrite) :
    Taken (s.updateWrite update write) (LateChanges.note s late (.write update write)) := by
  by_cases hplace : s.updates update = .idle ∨ s.updates update = .writing
  · have hwriting := @updateWrite_writing s update write hplace
    obtain ⟨htask, -⟩ := updateWrite_taskSame s update write
    rw [LateChanges.note, if_pos hplace]
    -- a late change that waits goes on waiting, and this one waits if it is late
    have hawaits (hold : AwaitsNotify s late) : AwaitsNotify (s.updateWrite update write)
        { late with
          updates := Function.update late.updates update
            (late.updates update || s.task.place.isLate write) } := by
      obtain ⟨other, hother, hwaits⟩ := hold
      by_cases heq : other = update
      · subst heq
        refine ⟨other, ?_, hwriting⟩
        dsimp only
        rw [Function.update_self, hother]
        rfl
      · refine ⟨other, (Function.update_of_ne heq ..).trans hother, ?_⟩
        rw [updateWrite_eq hplace]
        refine (Function.update_of_ne heq ..).trans ?_
        cases write <;> exact hwaits
    have hnew (hlate : s.task.place.isLate write = true) : AwaitsNotify
        (s.updateWrite update write) { late with
          updates := Function.update late.updates update
            (late.updates update || s.task.place.isLate write) } := by
      refine ⟨update, ?_, hwriting⟩
      dsimp only
      rw [Function.update_self, hlate, Bool.or_true]
    refine ⟨fun hin => ?_, fun hin => ?_, fun hin => ?_⟩
    all_goals rw [htask] at hin
    · refine (h.primary hin).elim (fun hsame => ?_) fun hwaits => .inr (hawaits hwaits)
      cases write with
      | primaryPoolIndex value => exact .inr (hnew hin)
      | _ =>
        rw [htask, updateWrite_eq hplace]
        exact .inl hsame
    · refine (h.secondary hin).elim (fun hsame => ?_) fun hwaits => .inr (hawaits hwaits)
      cases write with
      | secondaryPoolIndex value => exact .inr (hnew hin)
      | _ =>
        rw [htask, updateWrite_eq hplace]
        exact .inl hsame
    · have hsecondary := StratumTaskPlace.hasSecondary_of_hasActive hin
      cases write with
      | primaryPoolIndex value =>
        exact .inr (.inl (hnew (StratumTaskPlace.hasPrimary_of_hasSecondary hsecondary)))
      | secondaryPoolIndex value => exact .inr (.inl (hnew hsecondary))
      | isUsingFallback value => exact .inr (.inl (hnew hin))
      | useFallbackStratum value =>
        rw [htask]
        rcases h.active hin with hsame | hwaits | hswitched
        · rw [updateWrite_eq hplace]
          exact .inl hsame
        · exact .inr (.inl (hawaits hwaits))
        · rw [updateWrite_eq hplace]
          exact .inr (.inr hswitched)
  · rw [updateWrite_of_notifying hplace, LateChanges.note, if_neg hplace]
    exact h

/-- The notification that begins is not for a late change that the task has yet to enter with. -/
theorem notify (h : Taken s late) {update : Nat}
    (hkept : NotifiedAfterEntry (s, late) (.notify update)) :
    Taken (s.updateNotify update) (LateChanges.note s late (.notify update)) := by
  have hsame : s.updateNotify update = { s with
      updates := (s.updateNotify update).updates
      shouldReconnect := (s.updateNotify update).shouldReconnect } := by
    unfold updateNotify
    split <;> rfl
  have hothers : ∀ other, other ≠ update →
      (s.updateNotify update).updates other = s.updates other := by
    intro other hne
    unfold updateNotify
    split
    · rfl
    all_goals exact Function.update_of_ne hne ..
  have hawaits (hin : s.task.place.hasPrimary = true) (hold : AwaitsNotify s late) :
      AwaitsNotify (s.updateNotify update) (LateChanges.note s late (.notify update)) := by
    obtain ⟨other, hother, hwaits⟩ := hold
    have hne : other ≠ update := by
      rintro rfl
      have hout : s.task.place.hasPrimary = false := hkept hwaits hother
      rw [hin] at hout
      cases hout
    exact ⟨other, (Function.update_of_ne hne ..).trans hother, (hothers other hne).trans hwaits⟩
  refine ⟨fun hin => ?_, fun hin => ?_, fun hin => ?_⟩
  all_goals rw [hsame] at hin
  · refine (h.primary hin).imp (fun hprimary => ?_) (hawaits hin)
    rw [hsame]
    exact hprimary
  · refine (h.secondary hin).imp (fun hsecondary => ?_)
      (hawaits (StratumTaskPlace.hasPrimary_of_hasSecondary hin))
    rw [hsame]
    exact hsecondary
  · have hsecondary := StratumTaskPlace.hasSecondary_of_hasActive hin
    rcases h.active hin with hactive | hwaits | hswitched
    · rw [hsame]
      exact .inl hactive
    · exact .inr (.inl (hawaits (StratumTaskPlace.hasPrimary_of_hasSecondary hsecondary) hwaits))
    · rw [hsame]
      exact .inr (.inr hswitched)

/-- What the heartbeat does to the selection after the task has chosen waits for its request. -/
theorem heartbeat (h : Taken s late) {answer : Bool}
    (hkept : NotifiedAfterEntry (s, late) (.heartbeat answer)) :
    Taken (s.heartbeatStep answer) (LateChanges.note s late (.heartbeat answer)) := by
  have hmoves (place : HeartbeatTask) (hplace : s.heartbeat ≠ .switched) :
      Taken { s with heartbeat := place } late :=
    ⟨h.primary, h.secondary, fun hin => (h.active hin).imp_right fun hrest =>
      .inl (hrest.resolve_right fun hswitched => hplace hswitched.2)⟩
  rw [heartbeatStep, LateChanges.note]
  cases hplace : s.heartbeat with
  | waiting =>
    dsimp only
    split
    · exact hmoves _ (by simp [hplace])
    · exact h
  | usesFallback => exact hmoves _ (by simp [hplace])
  | prefersPrimary => exact hmoves _ (by simp [hplace])
  | probing primIdx =>
    dsimp only
    cases answer with
    | false =>
      have hmoved := hmoves .waiting (by simp [hplace])
      exact ⟨hmoved.primary, hmoved.secondary, fun hin => (hmoved.active hin).imp_right
        fun hrest => .inl (hrest.resolve_right fun hswitched => by cases hswitched.2)⟩
    | true => exact ⟨h.primary, h.secondary, fun hin => .inr (.inr ⟨hin, rfl⟩)⟩
  | switched =>
    refine ⟨h.primary, h.secondary, fun hin => ?_⟩
    rcases h.active hin with hactive | hwaits | ⟨hlate, -⟩
    · exact .inl hactive
    · exact .inr (.inl hwaits)
    · have hout : s.task.place.hasActive = false := hkept hplace hlate
      have hin' : s.task.place.hasActive = true := hin
      rw [hin'] at hout
      cases hout

/-- The task keeps what it has taken. -/
theorem task (h : Taken s late) (answer : Bool) :
    Taken (s.taskStep answer) (LateChanges.note s late (.task answer)) := by
  unfold taskStep LateChanges.note
  cases hplace : s.task.place with
  | samplePrimary => exact ⟨fun _ => .inl rfl, nofun, nofun⟩
  | sampleSecondary =>
    exact ⟨fun _ => h.primary (by rw [hplace]; rfl), fun _ => .inl rfl, nofun⟩
  | select =>
    have hprimary := h.primary (by rw [hplace]; rfl)
    have hsecondary := h.secondary (by rw [hplace]; rfl)
    dsimp only
    by_cases hthreshold :
        (if s.task.hasFallback = true then 2 else 1) ≤ s.task.consecutivePoolFailures
    · rw [if_pos hthreshold]
      exact ⟨nofun, nofun, nofun⟩
    · rw [if_neg hthreshold]
      refine ⟨fun _ => hprimary, fun _ => hsecondary, fun _ => ?_⟩
      -- both indices are as they are stored, or a late change waits
      rcases hprimary with hprimary | hwaits
      · rcases hsecondary with hsecondary | hwaits
        · left
          dsimp only [goTo, selected]
          rw [hprimary, hsecondary]
        · exact .inr (.inl hwaits)
      · exact .inr (.inl hwaits)
  | publish =>
    exact ⟨fun _ => h.primary (by rw [hplace]; rfl), fun _ => h.secondary (by rw [hplace]; rfl),
      fun _ => h.active (by rw [hplace]; rfl)⟩
  | ended =>
    dsimp only
    split
    · exact ⟨nofun, nofun, nofun⟩
    · unfold connectionFailed
      dsimp only
      repeat' split
      all_goals exact ⟨nofun, nofun, nofun⟩
  | sampleFallback | clearReconnect | applyPreference =>
    exact ⟨fun _ => h.primary (by rw [hplace]; rfl), fun _ => h.secondary (by rw [hplace]; rfl),
      nofun⟩
  | testReconnect | preferFallback =>
    dsimp only
    split <;> exact ⟨fun _ => h.primary (by rw [hplace]; rfl),
      fun _ => h.secondary (by rw [hplace]; rfl), nofun⟩
  | top =>
    dsimp only
    split
    · exact ⟨nofun, nofun, nofun⟩
    · refine ⟨fun hin => ?_, fun hin => ?_, fun hin => ?_⟩ <;> rw [hplace] at hin <;> cases hin
  | _ =>
    dsimp only
    repeat' split
    all_goals exact ⟨nofun, nofun, nofun⟩

theorem watched {state : PoolSelection × LateChanges} {input : Input}
    (h : Taken state.1 state.2) (hkept : NotifiedAfterEntry state input) :
    Taken (state.1.step input) (LateChanges.note state.1 state.2 input) := by
  cases input with
  | write update write => exact h.write update write
  | notify update => exact h.notify hkept
  | heartbeat answer => exact h.heartbeat hkept
  | request => exact ⟨h.primary, h.secondary, h.active⟩
  | task answer => exact h.task answer

end Taken

/-! ## Runs -/

theorem SessionCovered.runsSelected (h : SessionCovered s) : s.RunsSelected := by
  intro hplace hsettled hflag
  rw [← h.published (.inr hplace)]
  rcases h.covered hplace with hrequested | hselected | hswitched | ⟨update, hrequest⟩
  · rw [hflag] at hrequested
    cases hrequested
  · exact hselected
  · exact absurd hswitched hsettled.heartbeat
  · rw [hsettled.updates update] at hrequest
    rcases hrequest with hrequest | hrequest
    · cases hrequest
    · exact absurd rfl hrequest.1

/-- **A change of the selection is not lost.**  In a run in which every change that comes after the
task has taken what it changes is notified after the task has cleared the flag, the task runs the
selected pool whenever all changes are notified and no reconnect is requested. -/
theorem selection_not_lost (primaryPoolIndex secondaryPoolIndex : U16)
    (useFallbackStratum isUsingFallback : Bool) (inputs : List Input)
    (hkept : Guarded (watched step LateChanges.note) NotifiedAfterEntry
      (boot primaryPoolIndex secondaryPoolIndex useFallbackStratum isUsingFallback, .empty) inputs) :
    (run step (boot primaryPoolIndex secondaryPoolIndex useFallbackStratum isUsingFallback)
      inputs).RunsSelected := by
  rw [← run_watched_fst step LateChanges.note (_, .empty)]
  refine (Guarded.invariant (P := fun state => SessionCovered state.1 ∧ Taken state.1 state.2) _
    (fun _ _ h hok => ⟨step_sessionCovered h.1 h.2.current, h.2.watched hok⟩)
    hkept ⟨⟨?_, nofun⟩, ⟨nofun, nofun, nofun⟩⟩).1.runsSelected
  rintro (hplace | hplace) <;> cases hplace

/-- The user makes pool 2 the primary one after the task has sampled pool 0, and the notification
comes when the task is in its session on pool 0; it leaves it and enters one on pool 2. -/
def notifiedInSession : List Input :=
  [.task true, .task true, .write 0 (.primaryPoolIndex 2)] ++ List.replicate 7 (.task true) ++
    List.replicate 5 (.notify 0) ++ List.replicate 11 (.task true)

theorem selection_not_lost_of_one :
    (run step (boot 0 1 false false) notifiedInSession).RunsSelected ∧
      (run step (boot 0 1 false false) notifiedInSession).task.place = .running ∧
      (run step (boot 0 1 false false) notifiedInSession).task.activeIdx = 2 :=
  ⟨selection_not_lost 0 1 false false notifiedInSession (by decide), by decide, by decide⟩

/-- The user makes pool 2 the primary one after the task has sampled pool 0.  The
request is set, and cleared before the session on pool 0 starts. -/
def changedAfterSample : List Input :=
  [.task true, .task true, .write 0 (.primaryPoolIndex 2)] ++ List.replicate 5 (.notify 0) ++
    List.replicate 8 (.task true)

theorem selection_lost : ¬ (run step (boot 0 1 false false) changedAfterSample).RunsSelected := by
  intro hselected
  have hidle : ∀ update,
      (run step (boot 0 1 false false) changedAfterSample).updates update = .idle := by
    intro update
    cases update with
    | zero => rfl
    | succ n => rfl
  have heq := hselected (by decide) ⟨hidle, by decide⟩ (by decide)
  revert heq
  decide

end PoolSelection

end EspMiner
