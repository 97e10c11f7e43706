import EspMiner.Power.PowerPolicyEffect

/-!
# The power policy never drives a board it must not drive

The flags of the policy agree with the calls it made: the board is started only
when nothing forbids it, `running` and `stopped` are what the last answer of the
board said, and a recorded fault stays.
-/

namespace EspMiner

open Library

/-- The newest answer of the start, stop and maintenance callbacks. -/
def lastBoardCall : List PowerCall → Option PowerEvent
  | [] => none
  | call :: older =>
    match call.event with
    | .start result => some (.start result)
    | .stop result => some (.stop result)
    | .maintenance owner acquire result => some (.maintenance owner acquire result)
    | _ => lastBoardCall older

/-- Nothing forbids a start. -/
structure StartAllowed (p : PowerPolicy) : Prop where
  noOwner : p.owner = .none
  noFault : p.fault = false
  notPaused : p.paused = false
  ready : p.ready = true
  poolsAvailable : p.poolUnavailable = false

/-- A start meets its conditions, and no call drives a faulted board. -/
def CallAllowed (call : PowerCall) : Prop :=
  match call.event with
  | .start _ => StartAllowed call.policy
  | .apply _ _ => call.policy.fault = false
  | .saveTarget _ _ => call.policy.fault = false
  | _ => True

/-- A fault recorded at an earlier call is recorded at this one. -/
def FaultSticks (call : PowerCall) (older : List PowerCall) : Prop :=
  ∀ earlier ∈ older, earlier.policy.fault = true → call.policy.fault = true

/-- The answer that leaves the board stopped. -/
def ShutDown (event : Option PowerEvent) : Prop :=
  event = some (.stop true) ∨ ∃ owner acquire, event = some (.maintenance owner acquire true)

/-- What holds of the trace, also in the middle of an operation. -/
structure TraceSafe (m : PowerMachine) : Prop where
  allowed : ∀ call ∈ m.trace, CallAllowed call
  sticks : Throughout FaultSticks m.trace
  recorded : ∀ call ∈ m.trace, call.policy.fault = true → m.policy.fault = true

/-- What holds between two operations. -/
structure PolicySafe (m : PowerMachine) : Prop extends TraceSafe m where
  running : m.policy.running = true → lastBoardCall m.trace = some (.start .ok) ∧
    m.policy.stopped = false ∧ m.policy.fault = false ∧ m.policy.owner = .none ∧
    m.policy.cooling = false
  stopped : m.policy.stopped = true → ShutDown (lastBoardCall m.trace)

/-! ## Growing the trace -/

theorem TraceSafe.change {m : PowerMachine} {p : PowerPolicy} (h : TraceSafe m)
    (hfault : m.policy.fault = true → p.fault = true) : TraceSafe { m with policy := p } :=
  ⟨h.allowed, h.sticks, fun call hcall hrecorded => hfault (h.recorded call hcall hrecorded)⟩

theorem TraceSafe.push {m : PowerMachine} {p p' : PowerPolicy} {event : PowerEvent}
    (h : TraceSafe m) (hfault : m.policy.fault = true → p.fault = true)
    (hallowed : CallAllowed ⟨p, event⟩) (hfault' : p.fault = true → p'.fault = true) :
    TraceSafe ⟨p', ⟨p, event⟩ :: m.trace⟩ where
  allowed call hcall := by
    rcases List.mem_cons.mp hcall with rfl | hcall
    · exact hallowed
    · exact h.allowed call hcall
  sticks := ⟨fun earlier hearlier hrecorded => hfault (h.recorded earlier hearlier hrecorded),
    h.sticks⟩
  recorded call hcall hrecorded := by
    rcases List.mem_cons.mp hcall with rfl | hcall
    · exact hfault' hrecorded
    · exact hfault' (hfault (h.recorded call hcall hrecorded))

theorem TraceSafe.answers {p : PowerPolicy} {trace calls : List PowerCall}
    (h : TraceSafe ⟨p, trace⟩) (hcalls : CancelAnswers p calls) :
    TraceSafe ⟨p, calls ++ trace⟩ := by
  induction calls with
  | nil => exact h
  | cons call calls ih =>
    obtain ⟨answer, rfl⟩ := hcalls call List.mem_cons_self
    exact (ih fun c hc => hcalls c (.tail _ hc)).push id trivial id

theorem lastBoardCall_answers {p : PowerPolicy} {calls : List PowerCall}
    (hcalls : CancelAnswers p calls) (trace : List PowerCall) :
    lastBoardCall (calls ++ trace) = lastBoardCall trace := by
  induction calls with
  | nil => rfl
  | cons call calls ih =>
    obtain ⟨answer, rfl⟩ := hcalls call List.mem_cons_self
    exact ih fun c hc => hcalls c (.tail _ hc)

section Operations

variable (operations : PowerOperations) {m : PowerMachine}

/-! ## The parts of the operations -/

theorem powerStop_safe (h : TraceSafe m) : PolicySafe (powerStop operations m) := by
  obtain ⟨answer, heq⟩ := powerStop_eq operations m
  rw [heq]
  refine ⟨h.push id trivial ?_, ?_, ?_⟩
  · intro hfault
    simp_all [PowerPolicy.afterStop]
  · intro hrunning
    cases hrunning
  · intro hstopped
    cases hstopped
    exact .inl rfl

theorem beginCooling_safe (h : TraceSafe m) (nowMs : U64) (target : PowerTarget) :
    PolicySafe (beginCooling operations m nowMs target) :=
  powerStop_safe operations
    ((h.change (p := m.policy.atCooling nowMs target) id).push id trivial id)

/-- What each way a start can end leaves behind. -/
theorem powerStart_safe (h : TraceSafe m) (hallowed : StartAllowed m.policy) :
    match (powerStart operations m).1 with
    | .overheated => TraceSafe (powerStart operations m).2
    | .failed => PolicySafe (powerStart operations m).2
    | .running => TraceSafe (powerStart operations m).2 ∧
        (powerStart operations m).2.policy =
          { m.policy with running := true, stopped := false } ∧
        lastBoardCall (powerStart operations m).2.trace = some (.start .ok) := by
  have hstart : ∀ result, TraceSafe ⟨m.policy, ⟨m.policy, .start result⟩ :: m.trace⟩ :=
    fun result => h.push id hallowed id
  have hclear : ∀ fault : Bool, m.policy.fault = true → fault = true := by
    intro fault hfault
    rw [hallowed.noFault] at hfault
    cases hfault
  have hcases := powerStart_cases operations m
  generalize powerStart operations m = outcome at hcases ⊢
  cases hcases with
  | overheated => exact (hstart _).answers (cancelCalls_answers operations _ _)
  | failed answer fault =>
    exact powerStop_safe operations
      (((hstart _).answers (cancelCalls_answers operations _ _)).change (hclear fault))
  | cancelled result answer fault hchecks =>
    have hcancelled : TraceSafe ⟨m.policy, ⟨m.policy, .cancelled true⟩ ::
        ⟨m.policy, .start result⟩ :: m.trace⟩ := (hstart result).push id trivial id
    exact powerStop_safe operations
      ((hcancelled.answers (cancelCalls_answers operations _ _)).change (hclear fault))
  | running =>
    refine ⟨((hstart _).answers (cancelCalls_answers operations _ _)).change id, rfl, ?_⟩
    exact lastBoardCall_answers (cancelCalls_answers operations _ _) _

/-- The first steps of an operation: flags that the invariant does not mention,
and the marker of a step or a resume. -/
theorem PolicySafe.change {p : PowerPolicy} (h : PolicySafe m)
    (hrunning : p.running = m.policy.running) (hstopped : p.stopped = m.policy.stopped)
    (hfault : p.fault = m.policy.fault) (howner : p.owner = m.policy.owner)
    (hcooling : p.cooling = m.policy.cooling) : PolicySafe { m with policy := p } := by
  refine ⟨h.toTraceSafe.change (by rw [hfault]; exact id), ?_, ?_⟩
  · rw [hrunning, hstopped, hfault, howner, hcooling]
    exact h.running
  · rw [hstopped]
    exact h.stopped

theorem PolicySafe.marker {event : PowerEvent} (h : PolicySafe m)
    (hallowed : CallAllowed ⟨m.policy, event⟩)
    (hlast : lastBoardCall (⟨m.policy, event⟩ :: m.trace) = lastBoardCall m.trace) :
    PolicySafe (m.record event) := by
  refine ⟨h.toTraceSafe.push id hallowed id, ?_, ?_⟩
  · rw [PowerMachine.record_trace, hlast]
    exact h.running
  · rw [PowerMachine.record_trace, hlast]
    exact h.stopped

/-! ## The operations -/

theorem powerPolicyPause_safe (h : PolicySafe m) :
    PolicySafe (powerPolicyPause operations m).2 := by
  unfold powerPolicyPause
  dsimp only
  split
  · exact h.change rfl rfl rfl rfl rfl
  · exact powerStop_safe operations (h.toTraceSafe.change id)

theorem powerPolicyResume_safe (h : PolicySafe m) :
    PolicySafe (powerPolicyResume operations m).2 := by
  have hbegins : PolicySafe (m.record .resumeBegins) := h.marker trivial rfl
  unfold powerPolicyResume
  generalize m.record .resumeBegins = m at *
  have hresumed : PolicySafe (m.update fun p => { p with paused := false }) :=
    hbegins.change rfl rfl rfl rfl rfl
  dsimp only
  split
  · exact hbegins
  · next hfree =>
    simp only [not_or, Bool.not_eq_false, Bool.not_eq_true, not_not] at hfree
    split
    · exact hresumed
    · next hwarm =>
      simp only [PowerMachine.update_policy, not_or, Bool.not_eq_true] at hwarm
      split
      · exact hresumed
      · have hstart := powerStart_safe operations hresumed.toTraceSafe
          ⟨hfree.2.2, hfree.2.1, rfl, hfree.1, hwarm.2⟩
        cases houtcome : (powerStart operations
            (m.update fun p => { p with paused := false })).1 with
        | overheated =>
          rw [houtcome] at hstart
          exact beginCooling_safe operations hstart _ _
        | failed =>
          rw [houtcome] at hstart
          exact hstart
        | running =>
          rw [houtcome] at hstart
          obtain ⟨htrace, hpolicy, hlast⟩ := hstart
          refine ⟨htrace, fun _ => ⟨hlast, ?_⟩, fun hstopped => ?_⟩
          · simp only [hpolicy, PowerMachine.update_policy]
            exact ⟨trivial, hfree.2.1, hfree.2.2, hwarm.1⟩
          · rw [hpolicy] at hstopped
            cases hstopped

theorem powerPolicyMaintenance_safe (h : PolicySafe m) (owner : PowerOwner) (acquire : Bool) :
    PolicySafe (powerPolicyMaintenance operations m owner acquire).2 := by
  unfold powerPolicyMaintenance
  split
  · exact h
  · split
    · split
      · exact h
      · dsimp only
        generalize operations.maintenance _ owner true = acquired
        have hcall : TraceSafe (((m.update fun p =>
            { p with paused := true, running := false }).record
              (.maintenance owner true acquired))) :=
          TraceSafe.push (h.toTraceSafe.change id) id trivial id
        split
        · refine ⟨hcall.change fun _ => rfl, ?_, ?_⟩
          · intro hrunning
            cases hrunning
          · intro hstopped
            cases hstopped
        · next hacquired =>
          rw [Bool.not_eq_false] at hacquired
          refine ⟨hcall.change id, ?_, ?_⟩
          · intro hrunning
            cases hrunning
          · intro _
            exact .inr ⟨owner, true, by rw [hacquired]; rfl⟩
    · split
      · exact h
      · next hname _ howner =>
        rw [not_not] at howner
        dsimp only
        generalize operations.maintenance _ owner false = released
        have hcall : TraceSafe ((m.record (.maintenance owner false released)).update fun p =>
            { p with owner := .none }) :=
          TraceSafe.change (h.toTraceSafe.push id trivial id) id
        -- the owner was recorded, so the board was not running
        have hidle : m.policy.running = false := by
          cases hrunning : m.policy.running with
          | false => rfl
          | true => exact absurd (howner.symm.trans (h.running hrunning).2.2.2.1) hname
        split
        · refine ⟨hcall.change fun _ => rfl, ?_, ?_⟩
          · intro hrunning
            rw [PowerMachine.update_policy, PowerMachine.update_policy,
              PowerMachine.record_policy] at hrunning
            rw [hidle] at hrunning
            cases hrunning
          · intro hstopped
            cases hstopped
        · next hreleased =>
          rw [Bool.not_eq_false] at hreleased
          refine ⟨hcall, ?_, ?_⟩
          · intro hrunning
            rw [PowerMachine.update_policy, PowerMachine.record_policy, hidle] at hrunning
            cases hrunning
          · intro _
            exact .inr ⟨owner, false, by rw [hreleased]; rfl⟩

/-- A resume that succeeds has no fault. -/
theorem powerPolicyResume_true (h : (powerPolicyResume operations m).1 = true) :
    (powerPolicyResume operations m).2.policy.fault = false := by
  unfold powerPolicyResume at h ⊢
  dsimp only at h ⊢
  split at h
  · cases h
  · next hfree =>
    rw [if_neg hfree]
    simp only [PowerMachine.record_policy, not_or, Bool.not_eq_false, Bool.not_eq_true,
      not_not] at hfree
    split
    · exact hfree.2.1
    · split
      · exact hfree.2.1
      · next hwarm hidle =>
        rw [if_neg hwarm, if_neg hidle] at h
        have hcases := powerStart_cases operations ((m.record .resumeBegins).update fun p =>
          { p with paused := false })
        generalize powerStart operations _ = outcome at hcases h ⊢
        cases hcases with
        | overheated => cases h
        | failed answer fault => cases h
        | cancelled result answer fault hchecks => cases h
        | running => exact hfree.2.1

/-- Saving the reduced target leaves the other flags alone, or records a fault. -/
theorem saveReducedTarget_safe (h : PolicySafe m) (hfault : m.policy.fault = false)
    (hidle : m.policy.running = false) :
    PolicySafe (saveReducedTarget operations m).2 ∧
      ((saveReducedTarget operations m).1 = true → ∃ saved,
        (saveReducedTarget operations m).2.policy =
          { m.policy with reducedTargetSaved := saved }) := by
  rcases saveReducedTarget_cases operations m with
    ⟨-, heq⟩ | ⟨-, -, -, heq⟩ | ⟨calls, hcalls, heq⟩
  · rw [heq]
    exact ⟨h, fun _ => ⟨m.policy.reducedTargetSaved, rfl⟩⟩
  · rw [heq]
    have hcall : PolicySafe (m.record (.saveTarget
        (reducedTarget operations m.policy.coolingTarget) true)) := h.marker hfault rfl
    exact ⟨hcall.change rfl rfl rfl rfl rfl, fun _ => ⟨true, rfl⟩⟩
  · rw [heq]
    refine ⟨?_, fun htrue => by cases htrue⟩
    have hcall : PolicySafe { m with trace := calls ++ m.trace } := by
      rcases hcalls with rfl | rfl
      · exact h
      · exact h.marker hfault rfl
    refine ⟨hcall.toTraceSafe.change fun _ => rfl, ?_, hcall.stopped⟩
    intro hrunning
    rw [hidle] at hrunning
    cases hrunning

/-- The recovery runs with no owner and no fault, on a board that is off. -/
theorem recoverStep_safe (h : PolicySafe m) (howner : m.policy.owner = .none)
    (hfault : m.policy.fault = false) (hcooling : m.policy.cooling = true) {input : PowerStepInput}
    (hpools : m.policy.poolUnavailable = input.poolsUnavailable) :
    PolicySafe (recoverStep operations m input) := by
  have hidle : m.policy.running = false := by
    cases hrunning : m.policy.running with
    | false => rfl
    | true => exact absurd (h.running hrunning).2.2.2.2 (by simp [hcooling])
  obtain ⟨hgate, -⟩ := coolingGate_cases m input
  have hclock : PolicySafe (coolingGate m input).2 := by
    rw [hgate]
    exact h.change rfl rfl rfl rfl rfl
  obtain ⟨hsaved, hflags⟩ := saveReducedTarget_safe operations hclock
    (by rw [hgate]; exact hfault) (by rw [hgate]; exact hidle)
  unfold recoverStep
  dsimp only
  split
  · exact hclock
  · split
    · exact hsaved
    · next htrue =>
      obtain ⟨saved, hflags⟩ := hflags (by simpa using htrue)
      split
      · exact hsaved
      · next hwanted =>
        simp only [not_or, Bool.not_eq_false, Bool.not_eq_true] at hwanted
        have hallowed :
            StartAllowed (saveReducedTarget operations (coolingGate m input).2).2.policy := by
          refine ⟨?_, ?_, hwanted.2.1, hwanted.1, ?_⟩ <;> rw [hflags, hgate]
          · exact howner
          · exact hfault
          · exact hpools.trans hwanted.2.2
        generalize (saveReducedTarget operations (coolingGate m input).2).2 = m at *
        have hstart := powerStart_safe operations hsaved.toTraceSafe hallowed
        cases houtcome : (powerStart operations m).1 with
        | overheated =>
          rw [houtcome] at hstart
          exact beginCooling_safe operations hstart _ _
        | failed =>
          rw [houtcome] at hstart
          exact hstart
        | running =>
          rw [houtcome] at hstart
          obtain ⟨htrace, hpolicy, hlast⟩ := hstart
          refine PolicySafe.marker ⟨htrace.change id, fun _ => ⟨hlast, ?_⟩, fun hstopped => ?_⟩
            trivial rfl
          · simp only [hpolicy, PowerMachine.update_policy]
            exact ⟨trivial, hallowed.noFault, hallowed.noOwner, trivial⟩
          · rw [PowerMachine.update_policy, hpolicy] at hstopped
            cases hstopped

theorem powerCancelled_safe (h : PolicySafe m) :
    PolicySafe (powerCancelled operations m).2 ∧
      (powerCancelled operations m).2.policy = m.policy := by
  have hanswers := cancelCalls_answers operations m.policy (powerCancelled operations m).1
  rw [powerCancelled_eq]
  refine ⟨⟨h.toTraceSafe.answers hanswers, ?_, ?_⟩, rfl⟩
  · rw [lastBoardCall_answers hanswers]
    exact h.running
  · rw [lastBoardCall_answers hanswers]
    exact h.stopped

theorem operateStep_safe (h : PolicySafe m) (hfault : m.policy.fault = false)
    (input : PowerStepInput) : PolicySafe (operateStep operations m input) := by
  let Clear (m : PowerMachine) : Prop := PolicySafe m ∧ m.policy.fault = false
  refine operateStep_rule operations (T := Clear) (Q := Clear)
    (powerStop_safe operations h.toTraceSafe) h ⟨h, hfault⟩ (powerPolicyResume_safe operations h)
    (fun htrue => ⟨powerPolicyResume_safe operations h, powerPolicyResume_true operations htrue⟩)
    (fun m applied hclear => ⟨hclear.1.marker hclear.2 rfl, hclear.2⟩) (fun m hclear => ?_)
    (fun m hclear => hclear.1) fun m fault hclear => ?_
  · obtain ⟨hsafe, hpolicy⟩ := powerCancelled_safe operations hclear.1
    exact ⟨hsafe, by rw [hpolicy]; exact hclear.2⟩
  · refine powerStop_safe operations (hclear.1.toTraceSafe.change fun hrecorded => ?_)
    rw [hclear.2] at hrecorded
    cases hrecorded

theorem powerPolicyStep_safe (h : PolicySafe m) (input : PowerStepInput) :
    PolicySafe (powerPolicyStep operations m input) := by
  have hmarked : PolicySafe (m.record (.stepBegins input)) := h.marker trivial rfl
  have hbegun : PolicySafe (m.beginStep input) := hmarked.change rfl rfl rfl rfl rfl
  have hcases := powerPolicyStep_cases operations m input
  generalize powerPolicyStep operations m input = m' at hcases ⊢
  cases hcases with
  | maintenance howner => exact hbegun
  | faulted howner hfault =>
    have htrace : TraceSafe ((m.beginStep input).update fun p => { p with fault := true }) :=
      hbegun.toTraceSafe.change fun _ => rfl
    split
    · exact powerStop_safe operations htrace
    · next hstopped =>
      refine ⟨htrace, fun hrunning => ?_, hbegun.stopped⟩
      exact absurd (hbegun.running hrunning).2.1 hstopped
  | begins howner hreports hfault hbegins =>
    have hepisode := beginCooling_safe operations hbegun.toTraceSafe input.nowMs input.target
    split
    · exact hepisode
    · next hstopped =>
      obtain ⟨answer, heq⟩ := beginCooling_eq operations (m.beginStep input) input.nowMs
        input.target
      have hanswer : answer = true := by
        rw [heq] at hstopped
        simpa [PowerPolicy.afterStop] using hstopped
      have hclear : (beginCooling operations (m.beginStep input) input.nowMs
          input.target).policy.fault = false := by
        rw [heq]
        simp only [PowerPolicy.afterStop, PowerPolicy.atCooling, hanswer, Bool.not_true,
          Bool.or_false]
        exact hfault
      exact recoverStep_safe operations hepisode (by rw [heq]; exact howner) hclear
        (by rw [heq]; rfl) (by rw [heq]; rfl)
  | recovers howner hreports hfault hcooling =>
    exact recoverStep_safe operations hbegun howner hfault hcooling rfl
  | operates howner hreports hfault hcooling hbegins =>
    exact operateStep_safe operations hbegun hfault input

/-! ## Runs -/

theorem step_safe (h : PolicySafe m) (input : PowerInput) :
    PolicySafe (m.step operations input) := by
  cases input with
  | setReady ready => exact h.change rfl rfl rfl rfl rfl
  | pause => exact powerPolicyPause_safe operations h
  | resume => exact powerPolicyResume_safe operations h
  | maintenance owner acquire => exact powerPolicyMaintenance_safe operations h owner acquire
  | step input => exact powerPolicyStep_safe operations h input

theorem initial_safe : PolicySafe ⟨.initial, []⟩ where
  allowed call hcall := by cases hcall
  sticks := trivial
  recorded call hcall := by cases hcall
  running h := by cases h
  stopped h := by cases h

theorem run_safe (inputs : List PowerInput) :
    PolicySafe (run (PowerMachine.step operations) ⟨.initial, []⟩ inputs) :=
  run_invariant (P := PolicySafe) _ (fun _ input h => step_safe operations h input) initial_safe
    inputs

/-- With a fault recorded, an operation only ever stops the board or hands it
over, and the fault stays recorded. -/
theorem step_of_fault (h : m.policy.fault = true) (input : PowerInput) :
    (m.step operations input).policy.fault = true ∧
      ∃ newer, (m.step operations input).trace = newer ++ m.trace ∧
        ∀ call ∈ newer, call.policy.fault = true := by
  have hstop : ∀ m' : PowerMachine, m'.policy.fault = true →
      (powerStop operations m').policy.fault = true ∧
        ∃ call, (powerStop operations m').trace = call :: m'.trace ∧
          call.policy.fault = true := by
    intro m' hm'
    obtain ⟨answer, heq⟩ := powerStop_eq operations m'
    rw [heq]
    exact ⟨by simp [PowerPolicy.afterStop, hm'], _, rfl, hm'⟩
  cases input with
  | setReady ready => exact ⟨h, [], rfl, by simp⟩
  | pause =>
    simp only [PowerMachine.step, powerPolicyPause]
    split
    · exact ⟨h, [], rfl, by simp⟩
    · obtain ⟨hfault, call, htrace, hcall⟩ := hstop (m.update fun p => { p with paused := true }) h
      exact ⟨hfault, [call], htrace, by simpa using hcall⟩
  | resume =>
    have hrefused : powerPolicyResume operations m = (false, m.record .resumeBegins) := by
      simp [powerPolicyResume, h]
    rw [PowerMachine.step, hrefused]
    exact ⟨h, [⟨m.policy, .resumeBegins⟩], rfl, by simpa using h⟩
  | maintenance owner acquire =>
    simp only [PowerMachine.step, powerPolicyMaintenance]
    split_ifs
    all_goals first
      | exact ⟨h, [], rfl, by simp⟩
      | exact ⟨h, [_], rfl, by simpa using h⟩
      | exact ⟨rfl, [_], rfl, by simpa using h⟩
  | step input =>
    have hcases := powerPolicyStep_cases operations m input
    rw [PowerMachine.step]
    generalize powerPolicyStep operations m input = m' at hcases ⊢
    have hmarker : ∀ call ∈ [PowerCall.mk m.policy (.stepBegins input)],
        call.policy.fault = true := by simpa using h
    cases hcases with
    | maintenance howner => exact ⟨h, _, rfl, hmarker⟩
    | faulted howner hfault =>
      split
      · obtain ⟨hfault, call, htrace, hcall⟩ :=
          hstop ((m.beginStep input).update fun p => { p with fault := true }) rfl
        exact ⟨hfault, [call, ⟨m.policy, .stepBegins input⟩], htrace, by simp [hcall, h]⟩
      · exact ⟨rfl, _, rfl, hmarker⟩
    | begins howner hreports hfault hbegins =>
      rw [h] at hfault
      cases hfault
    | recovers howner hreports hfault hcooling =>
      rw [h] at hfault
      cases hfault
    | operates howner hreports hfault hcooling hbegins =>
      rw [h] at hfault
      cases hfault

theorem run_of_fault (h : m.policy.fault = true) (inputs : List PowerInput) :
    (run (PowerMachine.step operations) m inputs).policy.fault = true ∧
      ∃ newer, (run (PowerMachine.step operations) m inputs).trace = newer ++ m.trace ∧
        ∀ call ∈ newer, call.policy.fault = true := by
  induction inputs generalizing m with
  | nil => exact ⟨h, [], rfl, by simp⟩
  | cons input inputs ih =>
    obtain ⟨hstep, first, hfirst, hfirstFault⟩ := step_of_fault operations h input
    obtain ⟨hrun, rest, hrest, hrestFault⟩ := ih hstep
    refine ⟨hrun, rest ++ first, ?_, ?_⟩
    · rw [run_cons, hrest, hfirst, List.append_assoc]
    · intro call hcall
      rcases List.mem_append.mp hcall with hcall | hcall
      · exact hrestFault call hcall
      · exact hfirstFault call hcall

/-- The calls that drive the board. -/
def Drives : PowerEvent → Prop
  | .start _ | .apply _ _ | .saveTarget _ _ => True
  | _ => False

theorem CallAllowed.not_drives {call : PowerCall} (h : CallAllowed call)
    (hfault : call.policy.fault = true) : ¬ Drives call.event := by
  unfold CallAllowed at h
  intro hdrives
  cases hevent : call.event with
  | start result =>
    rw [hevent] at h
    exact absurd (hfault.symm.trans (StartAllowed.noFault h)) (by decide)
  | apply target result =>
    rw [hevent] at h
    exact absurd (hfault.symm.trans h) (by decide)
  | saveTarget target result =>
    rw [hevent] at h
    exact absurd (hfault.symm.trans h) (by decide)
  | _ =>
    rw [hevent] at hdrives
    exact hdrives

/-- **Power policy safety.**  In every run from a successful initialisation:
a start meets all of its conditions; a running policy was started last, with no
fault, owner or cooling recorded; a stopped policy was shut down last; and once
a fault is recorded it stays recorded, at every later call and in every later
state, and nothing drives the board again. -/
theorem power_policy_safety {policy : PowerPolicy}
    (hinit : powerPolicyInit operations = some policy) (inputs more : List PowerInput) :
    let m := run (PowerMachine.step operations) ⟨policy, []⟩ inputs
    let m' := run (PowerMachine.step operations) m more
    (∀ call ∈ m.trace, ∀ result, call.event = .start result → StartAllowed call.policy) ∧
      (m.policy.running = true → lastBoardCall m.trace = some (.start .ok) ∧
        m.policy.fault = false ∧ m.policy.owner = .none ∧ m.policy.cooling = false) ∧
      (m.policy.stopped = true → ShutDown (lastBoardCall m.trace)) ∧
      (∀ newer call older, m.trace = newer ++ call :: older → call.policy.fault = true →
        m.policy.fault = true ∧
          ∀ later ∈ newer, later.policy.fault = true ∧ ¬ Drives later.event) ∧
      (m.policy.fault = true → m'.policy.fault = true ∧
        ∃ newer, m'.trace = newer ++ m.trace ∧ ∀ call ∈ newer, ¬ Drives call.event) := by
  have hpolicy : policy = .initial := by
    unfold powerPolicyInit at hinit
    split at hinit
    · cases hinit
    · exact (Option.some.inj hinit).symm
  subst hpolicy
  intro m m'
  have hsafe : PolicySafe m := run_safe operations inputs
  have hsafe' : PolicySafe m' := by
    have h := run_safe operations (inputs ++ more)
    rwa [run_append] at h
  refine ⟨?_, ?_, hsafe.stopped, ?_, ?_⟩
  · intro call hcall result hevent
    have hallowed := hsafe.allowed call hcall
    rw [CallAllowed, hevent] at hallowed
    exact hallowed
  · intro hrunning
    obtain ⟨hlast, -, hrest⟩ := hsafe.running hrunning
    exact ⟨hlast, hrest⟩
  · intro newer call older hsplit hfault
    have hmem : call ∈ m.trace := by
      rw [hsplit]
      exact List.mem_append_right _ List.mem_cons_self
    refine ⟨hsafe.recorded call hmem hfault, fun later hlater => ?_⟩
    obtain ⟨between, before, rfl⟩ := List.append_of_mem hlater
    have hsticks := throughout_iff.mp hsafe.sticks between later (before ++ call :: older)
      (by rw [hsplit, List.append_assoc, List.cons_append])
    have hrecorded := hsticks call (List.mem_append_right _ List.mem_cons_self) hfault
    have hlaterMem : later ∈ m.trace := by
      rw [hsplit]
      exact List.mem_append_left _ hlater
    exact ⟨hrecorded, (hsafe.allowed later hlaterMem).not_drives hrecorded⟩
  · intro hfault
    obtain ⟨hstays, newer, htrace, hnewer⟩ := run_of_fault operations hfault more
    refine ⟨hstays, newer, htrace, fun call hcall => ?_⟩
    have hmem : call ∈ m'.trace := by
      rw [htrace]
      exact List.mem_append_left _ hcall
    exact (hsafe'.allowed call hmem).not_drives (hnewer call hcall)

end Operations

/-! ## A board that starts -/

/-- A board on which every operation succeeds. -/
def soundBoard : PowerOperations where
  start _ := .ok
  stop _ := true
  apply _ _ := true
  maintenance _ _ _ := true
  saveTarget _ _ := true
  cancelled := none
  minimumVoltageMv := 1000
  minimumFrequencyMhz := .ofNat 50

/-- A step at time `nowMs` with good samples. -/
def goodStep (nowMs : U64) : PowerStepInput where
  nowMs := nowMs
  target := ⟨1200, .ofNat 500⟩
  sample := ⟨.ok, true, .ofNat 40, true, true, .ofNat 40⟩
  poolsUnavailable := false
  hardwareFault := false
  persistedOverheat := false

theorem soundBoard_init : powerPolicyInit soundBoard = some .initial :=
  if_neg (by decide +kernel)

theorem power_policy_safety_of_start :
    lastBoardCall (run (PowerMachine.step soundBoard) ⟨.initial, []⟩
      [.setReady true, .step (goodStep 0)]).trace = some (.start .ok) :=
  ((power_policy_safety soundBoard soundBoard_init
    [.setReady true, .step (goodStep 0)] []).2.1 (by decide +kernel)).1

end EspMiner
