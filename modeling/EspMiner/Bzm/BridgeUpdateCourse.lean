import EspMiner.Bzm.BridgeUpdate
import EspMiner.Library.Run

/-!
# The course of an update

Only one update runs at a time, the hooks stay while it runs, it reports completion only after the
flash and the restoring hook succeeded, and it ends in a bounded number of its own steps.  What an
update has done is determined by its place, and `UpdatesOk` says so for all of them at once; the
parts of the result are read off there, for any interleaving.
-/

namespace EspMiner

open Library

namespace BridgeUpdates

/-- What one update did, newest first. -/
def history (i : Nat) (trace : List (Nat × BridgeUpdateEvent)) : List BridgeUpdateEvent :=
  (trace.filter fun entry => entry.1 = i).map Prod.snd

/-- The update has set `running` and not cleared it. -/
def active : BridgeUpdatePlace → Bool
  | .unborn | .claiming | .returned | .freeing | .gone => false
  | _ => true

/-- The history of an update whose task was just created. -/
def created : List BridgeUpdateEvent := [.returned none, .claimed]

/-- The history of an update up to the flash. -/
def prepared (hooks : BridgeHooks) : List BridgeUpdateEvent :=
  .began none :: .acquired hooks true :: created

/-- The history of an update up to the release of the board. -/
def restored (hooks : BridgeHooks) (flashErr endErr : Option EspErr) (result : Bool) :
    List BridgeUpdateEvent :=
  .released hooks result :: .ended endErr :: .flashed flashErr :: prepared hooks

/-- The histories of an update when it is about to clear `running`. -/
inductive Served (manifest : Option BzmBridgeImageManifest) :
    Option EspErr → List BridgeUpdateEvent → Prop
  | unprepared (err : EspErr) : Served manifest (some err) created
  | refused (hooks : BridgeHooks) (err : EspErr) :
      Served manifest (some err) (.acquired hooks false :: created)
  | backedOut (hooks : BridgeHooks) (err : EspErr) (result : Bool) :
      Served manifest (some err)
        (.released hooks result :: .began (some err) :: .acquired hooks true :: created)
  | failed (hooks : BridgeHooks) (err : EspErr) (flashErr endErr : Option EspErr)
      (result : Bool) : Served manifest (some err) (restored hooks flashErr endErr result)
  | queried (hooks : BridgeHooks) (queryErr : Option EspErr) (info : BzmBridgeInfo) :
      Served manifest (queriedErr manifest queryErr info)
        (.queried queryErr info :: restored hooks none none true)

/-- The history of an update that is this far. -/
def Course (manifest : Option BzmBridgeImageManifest) (history : List BridgeUpdateEvent) :
    BridgeUpdatePlace → Prop
  | .unborn | .claiming => history = []
  | .creating | .uncreated => history = [.claimed]
  | .returned => (∃ err, history = [.returned (some err)]) ∨
      history = [.returned (some .noMem), .finished false, .claimed]
  | .validating | .reporting | .readingHooks | .acquiring _ => history = created
  | .beginning hooks => history = .acquired hooks true :: created
  | .backingOut hooks err =>
      history = .began (some err) :: .acquired hooks true :: created
  | .flashing => ∃ hooks, history = prepared hooks
  | .ending flashErr => ∃ hooks, history = .flashed flashErr :: prepared hooks
  | .rereadingHooks flashErr endErr =>
      ∃ hooks, history = .ended endErr :: .flashed flashErr :: prepared hooks
  | .releasing hooks flashErr endErr =>
      history = .ended endErr :: .flashed flashErr :: prepared hooks
  | .reportingQuery | .querying => ∃ hooks, history = restored hooks none none true
  | .finishing err _ => Served manifest err history
  | .freeing => ∃ err older, Served manifest err older ∧
      history = .finished (decide (err = none)) :: older
  | .gone => ∃ err older, Served manifest err older ∧
      history = .freed :: .finished (decide (err = none)) :: older

/-- What holds between any two steps. -/
structure UpdatesOk (s : BridgeUpdates) : Prop where
  courses : ∀ i, Course (s.manifest i) (history i s.trace) (s.place i)
  running : s.status.running = true ↔ ∃ i, active (s.place i) = true
  single : ∀ i j, active (s.place i) = true → active (s.place j) = true → i = j
  acquiring : ∀ i hooks, s.place i = .acquiring hooks → s.hooks = some hooks
  hooks : ∀ i hooks, active (s.place i) = true → .acquired hooks true ∈ history i s.trace →
    s.hooks = some hooks

variable {s : BridgeUpdates}

@[simp] theorem history_cons_self (i : Nat) (event : BridgeUpdateEvent)
    (trace : List (Nat × BridgeUpdateEvent)) :
    history i ((i, event) :: trace) = event :: history i trace := by
  simp [history]

theorem history_append_self (i : Nat) (events : List BridgeUpdateEvent)
    (trace : List (Nat × BridgeUpdateEvent)) :
    history i (events.map (Prod.mk i) ++ trace) = events ++ history i trace := by
  induction events with
  | nil => rfl
  | cons event events ih =>
    rw [List.map_cons, List.cons_append, history_cons_self, ih]
    rfl

theorem history_append_of_ne {i j : Nat} (h : i ≠ j) (events : List BridgeUpdateEvent)
    (trace : List (Nat × BridgeUpdateEvent)) :
    history j (events.map (Prod.mk i) ++ trace) = history j trace := by
  induction events with
  | nil => rfl
  | cons event events ih =>
    rw [List.map_cons, List.cons_append, history, List.filter_cons_of_neg (by simpa using h)]
    exact ih

/-- How a step changes `running`. -/
def RunningMoves (before after : Bool) (running running' : Bool) : Prop :=
  (after = before ∧ running' = running) ∨
    (before = false ∧ after = true ∧ running = false ∧ running' = true) ∨
    (before = true ∧ after = false ∧ running' = false)

/-- One update makes a step. -/
theorem UpdatesOk.move (h : UpdatesOk s) {s' : BridgeUpdates} {i : Nat}
    {place : BridgeUpdatePlace} (events : List BridgeUpdateEvent)
    (hplaces : s'.place = fun other => if other = i then place else s.place other)
    (htrace : s'.trace = events.map (Prod.mk i) ++ s.trace) (hhooks : s'.hooks = s.hooks)
    (hmanifests : s'.manifest = s.manifest)
    (hcourse : Course (s.manifest i) (events ++ history i s.trace) place)
    (hrunning : RunningMoves (active (s.place i)) (active place) s.status.running
      s'.status.running)
    (hacquiring : ∀ hooks, place = .acquiring hooks → s.hooks = some hooks)
    (hacquired : ∀ hooks, active place = true →
      .acquired hooks true ∈ events ++ history i s.trace → s.hooks = some hooks) :
    UpdatesOk s' := by
  have hplace : s'.place i = place := by rw [hplaces]; exact if_pos rfl
  have hother (j : Nat) (hj : j ≠ i) : s'.place j = s.place j := by rw [hplaces]; exact if_neg hj
  have hhistory : history i s'.trace = events ++ history i s.trace := by
    rw [htrace, history_append_self]
  have hhistories (j : Nat) (hj : j ≠ i) : history j s'.trace = history j s.trace := by
    rw [htrace, history_append_of_ne hj.symm]
  -- no other update is active where this one is, becomes or was active
  have halone (hactive : active place = true ∨ active (s.place i) = true) (j : Nat)
      (hj : j ≠ i) : active (s.place j) ≠ true := by
    intro hjactive
    rcases hrunning with ⟨hsame, -⟩ | ⟨-, -, hidle, -⟩ | ⟨hbefore, -, -⟩
    · exact hj (h.single j i hjactive (by rcases hactive with h | h; exacts [hsame ▸ h, h]))
    · exact Bool.false_ne_true (hidle.symm.trans (h.running.mpr ⟨j, hjactive⟩))
    · exact hj (h.single j i hjactive hbefore)
  refine ⟨fun j => ?_, ⟨fun hon => ?_, ?_⟩, fun j k hj hk => ?_, fun j hooks hj => ?_,
    fun j hooks hactive hmem => ?_⟩
  · rw [hmanifests]
    by_cases hj : j = i
    · subst hj
      rw [hplace, hhistory]
      exact hcourse
    · rw [hother j hj, hhistories j hj]
      exact h.courses j
  · rcases hrunning with ⟨hsame, hkept⟩ | ⟨-, hafter, -, -⟩ | ⟨-, -, hoff⟩
    · obtain ⟨j, hj⟩ := h.running.mp (hkept ▸ hon)
      by_cases hij : j = i
      · subst hij
        exact ⟨j, by rw [hplace, hsame]; exact hj⟩
      · exact ⟨j, by rw [hother j hij]; exact hj⟩
    · exact ⟨i, by rw [hplace]; exact hafter⟩
    · exact absurd (hoff.symm.trans hon) Bool.false_ne_true
  · rintro ⟨j, hj⟩
    rcases hrunning with ⟨hsame, hkept⟩ | ⟨-, -, -, hon⟩ | ⟨hbefore, hafter, -⟩
    · rw [hkept]
      refine h.running.mpr ?_
      by_cases hij : j = i
      · subst hij
        rw [hplace, hsame] at hj
        exact ⟨j, hj⟩
      · exact ⟨j, hother j hij ▸ hj⟩
    · exact hon
    · by_cases hij : j = i
      · subst hij
        rw [hplace, hafter] at hj
        cases hj
      · exact absurd (hother j hij ▸ hj) (halone (.inr hbefore) j hij)
  · by_cases hji : j = i
    · subst hji
      by_cases hki : k = j
      · exact hki.symm
      · exact absurd (hother k hki ▸ hk) (halone (.inl (hplace ▸ hj)) k hki)
    · by_cases hki : k = i
      · subst hki
        exact absurd (hother j hji ▸ hj) (halone (.inl (hplace ▸ hk)) j hji)
      · exact h.single j k (hother j hji ▸ hj) (hother k hki ▸ hk)
  · rw [hhooks]
    by_cases hji : j = i
    · subst hji
      exact hacquiring hooks (hplace.symm.trans hj)
    · exact h.acquiring j hooks (hother j hji ▸ hj)
  · rw [hhooks]
    by_cases hji : j = i
    · subst hji
      exact hacquired hooks (hplace ▸ hactive) (hhistory ▸ hmem)
    · exact h.hooks j hooks (hother j hji ▸ hactive) (hhistories j hji ▸ hmem)

/-- A running update makes a step that leaves it running. -/
theorem UpdatesOk.proceed (h : UpdatesOk s) {i : Nat} {place place' : BridgeUpdatePlace}
    {status : BridgeUpdateStatus} (events : List BridgeUpdateEvent)
    (hplace : s.place i = place) (hfrom : active place = true) (hto : active place' = true)
    (hstatus : status.running = s.status.running)
    (hcourse : Course (s.manifest i) (events ++ history i s.trace) place')
    (hacquiring : ∀ hooks, place' = .acquiring hooks → s.hooks = some hooks)
    (hacquired : ∀ hooks, .acquired hooks true ∈ events → s.hooks = some hooks) :
    UpdatesOk ({ s with
      status := status, trace := events.map (Prod.mk i) ++ s.trace }.goTo i place') := by
  subst hplace
  refine h.move events rfl rfl rfl rfl hcourse (.inl ⟨hto.trans hfrom.symm, hstatus⟩) hacquiring
    fun hooks _ hmem => ?_
  rcases List.mem_append.mp hmem with hnew | hold
  · exact hacquired hooks hnew
  · exact h.hooks i hooks hfrom hold

/-- It neither is about to take a lease nor gets one. -/
theorem UpdatesOk.work (h : UpdatesOk s) {i : Nat} {place place' : BridgeUpdatePlace}
    {status : BridgeUpdateStatus} (events : List BridgeUpdateEvent)
    (hplace : s.place i = place) (hfrom : active place = true) (hto : active place' = true)
    (hstatus : status.running = s.status.running)
    (hquiet : ∀ hooks, place' ≠ .acquiring hooks ∧ .acquired hooks true ∉ events)
    (hcourse : Course (s.manifest i) (events ++ history i s.trace) place') :
    UpdatesOk ({ s with
      status := status, trace := events.map (Prod.mk i) ++ s.trace }.goTo i place') :=
  h.proceed events hplace hfrom hto hstatus hcourse
    (fun hooks hacquiring => absurd hacquiring (hquiet hooks).1)
    fun hooks hacquired => absurd hacquired (hquiet hooks).2

/-- A running update clears `running`. -/
theorem UpdatesOk.finish (h : UpdatesOk s) {i : Nat} {place place' : BridgeUpdatePlace}
    {status : BridgeUpdateStatus} (events : List BridgeUpdateEvent)
    (hplace : s.place i = place) (hfrom : active place = true) (hto : active place' = false)
    (hstatus : status.running = false)
    (hcourse : Course (s.manifest i) (events ++ history i s.trace) place') :
    UpdatesOk ({ s with
      status := status, trace := events.map (Prod.mk i) ++ s.trace }.goTo i place') := by
  subst hplace
  refine h.move events rfl rfl rfl rfl hcourse (.inr (.inr ⟨hfrom, hto, hstatus⟩)) ?_ ?_
  · rintro hooks rfl
    cases hto
  · intro hooks hactive
    rw [hto] at hactive
    cases hactive

/-- An update that is not running makes a step that leaves it so. -/
theorem UpdatesOk.rest (h : UpdatesOk s) {i : Nat} {place place' : BridgeUpdatePlace}
    (events : List BridgeUpdateEvent) (hplace : s.place i = place) (hfrom : active place = false)
    (hto : active place' = false)
    (hcourse : Course (s.manifest i) (events ++ history i s.trace) place') :
    UpdatesOk ({ s with trace := events.map (Prod.mk i) ++ s.trace }.goTo i place') := by
  subst hplace
  refine h.move events rfl rfl rfl rfl hcourse (.inl ⟨hto.trans hfrom.symm, rfl⟩) ?_ ?_
  · rintro hooks rfl
    cases hto
  · intro hooks hactive
    rw [hto] at hactive
    cases hactive

/-- The restore fails unless the flash, the end of maintenance and the release succeed. -/
theorem restoredErr_eq_none {flashErr endErr : Option EspErr} {released : Bool} :
    restoredErr flashErr endErr released = none ↔
      flashErr = none ∧ endErr = none ∧ released = true := by
  cases flashErr <;> cases endErr <;> cases released <;> simp [restoredErr]

/-- A task that has taken a lease finds the hooks it took the lease with. -/
theorem UpdatesOk.hooks_of_prepared (h : UpdatesOk s) {i : Nat} {place : BridgeUpdatePlace}
    (hplace : s.place i = place) (hactive : active place = true) {hooks : BridgeHooks}
    (newer : List BridgeUpdateEvent) (hhistory : history i s.trace = newer ++ prepared hooks) :
    s.hooks = some hooks := by
  refine h.hooks i hooks (hplace ▸ hactive) ?_
  rw [hhistory]
  simp [prepared]

theorem UpdatesOk.advance (h : UpdatesOk s) (i : Nat) (answer : Option EspErr)
    (info : BzmBridgeInfo) : UpdatesOk (s.advance i answer info) := by
  have hcourse := h.courses i
  unfold BridgeUpdates.advance
  generalize hplace : s.place i = place at hcourse ⊢
  cases place with
  | unborn => exact h
  | returned => exact h
  | gone => exact h
  | claiming =>
    have hhistory : history i s.trace = [] := hcourse
    dsimp only
    split
    · refine h.rest [.returned (some .invalidState)] hplace rfl rfl (.inl ?_)
      exact ⟨.invalidState, by rw [hhistory]; rfl⟩
    · next hidle =>
      refine h.move [.claimed] rfl rfl rfl rfl (by rw [hhistory]; rfl)
        (.inr (.inl ⟨by rw [hplace]; rfl, rfl, Bool.eq_false_iff.mpr hidle, rfl⟩))
        (fun _ hplace => (nomatch hplace)) fun hooks _ hmem => ?_
      rw [hhistory] at hmem
      simp at hmem
  | creating =>
    have hhistory : history i s.trace = [.claimed] := hcourse
    cases answer with
    | none => exact h.work [.returned none] hplace rfl rfl rfl (by simp) (by rw [hhistory]; rfl)
    | some err => exact h.work [] hplace rfl rfl rfl (by simp) hhistory
  | uncreated =>
    have hhistory : history i s.trace = [.claimed] := hcourse
    exact h.finish [.returned (some .noMem), .finished false] hplace rfl rfl rfl
      (.inr (by rw [hhistory]; rfl))
  | validating =>
    have hhistory : history i s.trace = created := hcourse
    cases answer with
    | none => exact h.work [] hplace rfl rfl rfl (by simp) hhistory
    | some err =>
      refine h.work [] hplace rfl rfl rfl (by simp) ?_
      exact hhistory ▸ Served.unprepared err
  | reporting =>
    exact h.work [] hplace rfl rfl rfl (by simp) hcourse
  | readingHooks =>
    have hhistory : history i s.trace = created := hcourse
    cases hhooks : s.hooks with
    | none =>
      refine h.work [] hplace rfl rfl rfl (by simp) ?_
      exact hhistory ▸ Served.unprepared .invalidState
    | some hooks =>
      refine h.proceed [] hplace rfl rfl rfl hhistory (fun other hplace => ?_) (by simp)
      cases hplace
      exact hhooks
  | acquiring hooks =>
    have hhistory : history i s.trace = created := hcourse
    cases answer with
    | none =>
      refine h.proceed [.acquired hooks true] hplace rfl rfl rfl (by rw [hhistory]; rfl)
        nofun fun other hmem => ?_
      cases List.mem_singleton.mp hmem
      exact h.acquiring i hooks hplace
    | some err =>
      refine h.work [.acquired hooks false] hplace rfl rfl rfl (by simp) ?_
      exact hhistory ▸ Served.refused hooks .invalidState
  | beginning hooks =>
    have hhistory : history i s.trace = .acquired hooks true :: created := hcourse
    cases answer with
    | none =>
      exact h.work [.began none] hplace rfl rfl rfl (by simp) ⟨hooks, by rw [hhistory]; rfl⟩
    | some err =>
      exact h.work [.began (some err)] hplace rfl rfl rfl (by simp) (by rw [hhistory]; rfl)
  | backingOut hooks err =>
    have hhistory : history i s.trace = .began (some err) :: .acquired hooks true :: created :=
      hcourse
    refine h.work [.released hooks answer.isNone] hplace rfl rfl rfl (by simp) ?_
    exact hhistory ▸ Served.backedOut hooks err answer.isNone
  | flashing =>
    obtain ⟨hooks, hhistory⟩ := hcourse
    exact h.work [.flashed answer] hplace rfl rfl rfl (by simp) ⟨hooks, by rw [hhistory]; rfl⟩
  | ending flashErr =>
    obtain ⟨hooks, hhistory⟩ := hcourse
    exact h.work [.ended answer] hplace rfl rfl rfl (by simp) ⟨hooks, by rw [hhistory]; rfl⟩
  | rereadingHooks flashErr endErr =>
    obtain ⟨hooks, hhistory⟩ := hcourse
    have hhooks : s.hooks = some hooks :=
      h.hooks_of_prepared hplace rfl [.ended endErr, .flashed flashErr] hhistory
    rw [hhooks]
    exact h.work [] hplace rfl rfl rfl (by simp) hhistory
  | releasing hooks flashErr endErr =>
    have hhistory : history i s.trace = .ended endErr :: .flashed flashErr :: prepared hooks :=
      hcourse
    dsimp only
    cases herr : restoredErr flashErr endErr answer.isNone with
    | none =>
      obtain ⟨rfl, rfl, hreleased⟩ := restoredErr_eq_none.mp herr
      exact h.work [.released hooks answer.isNone] hplace rfl rfl rfl (by simp)
        ⟨hooks, by rw [hhistory, hreleased]; rfl⟩
    | some err =>
      refine h.work [.released hooks answer.isNone] hplace rfl rfl rfl (by simp) ?_
      exact hhistory ▸ Served.failed hooks err flashErr endErr answer.isNone
  | reportingQuery =>
    exact h.work [] hplace rfl rfl rfl (by simp) hcourse
  | querying =>
    obtain ⟨hooks, hhistory⟩ := hcourse
    refine h.work [.queried answer info] hplace rfl rfl rfl (by simp) ?_
    exact hhistory ▸ Served.queried hooks answer info
  | finishing err installed =>
    exact h.finish [.finished (decide (err = none))] hplace rfl rfl rfl
      ⟨err, _, hcourse, rfl⟩
  | freeing =>
    obtain ⟨err, older, hserved, hhistory⟩ := hcourse
    exact h.rest [.freed] hplace rfl rfl ⟨err, older, hserved, by rw [hhistory]; rfl⟩

theorem UpdatesOk.start (h : UpdatesOk s) (i : Nat)
    (validation : Except EspErr (Option BzmBridgeImageManifest)) (allocated : Bool) :
    UpdatesOk (s.start i validation allocated) := by
  have hcourse := h.courses i
  unfold BridgeUpdates.start
  generalize hplace : s.place i = place at hcourse ⊢
  cases place with
  | unborn =>
    have hhistory : history i s.trace = [] := hcourse
    cases validation with
    | error err =>
      exact h.rest [.returned (some err)] hplace rfl rfl (.inl ⟨err, by rw [hhistory]; rfl⟩)
    | ok manifest =>
      dsimp only
      split
      · exact h.rest [.returned (some .noMem)] hplace rfl rfl (.inl ⟨.noMem, by rw [hhistory]; rfl⟩)
      · have hnamed : UpdatesOk { s with
            manifest := fun other => if other = i then manifest else s.manifest other } := by
          refine ⟨fun j => ?_, h.running, h.single, h.acquiring, h.hooks⟩
          by_cases hj : j = i
          · subst hj
            rw [hplace]
            exact hhistory
          · simp only [if_neg hj]
            exact h.courses j
        exact hnamed.rest [] hplace rfl rfl hhistory
  | _ => exact h

theorem UpdatesOk.setMaintenanceHooks (h : UpdatesOk s) (hooks : BridgeHooks) :
    UpdatesOk (s.setMaintenanceHooks hooks) := by
  unfold BridgeUpdates.setMaintenanceHooks
  split
  · exact h
  · next hidle =>
    have hrest (i : Nat) : active (s.place i) ≠ true := fun hactive =>
      hidle (h.running.mpr ⟨i, hactive⟩)
    refine ⟨h.courses, h.running, h.single, fun i other hplace => ?_, fun i other hactive => ?_⟩
    · exact absurd (by rw [hplace]; rfl) (hrest i)
    · exact absurd hactive (hrest i)

theorem UpdatesOk.progress (h : UpdatesOk s) (i : Nat) (phase : BridgeFlashPhase) :
    UpdatesOk (s.progress i phase) := by
  unfold BridgeUpdates.progress
  split
  · exact ⟨h.courses, h.running, h.single, h.acquiring, h.hooks⟩
  · exact h

theorem UpdatesOk.step (h : UpdatesOk s) (input : Input) : UpdatesOk (s.step input) := by
  cases input with
  | setMaintenanceHooks hooks => exact h.setMaintenanceHooks hooks
  | start i validation allocated => exact h.start i validation allocated
  | advance i answer info => exact h.advance i answer info
  | progress i phase => exact h.progress i phase

theorem UpdatesOk.initial : UpdatesOk initial := by
  refine ⟨fun _ => rfl, ?_, fun i _ hi => ?_, fun _ _ hplace => ?_, fun _ _ hactive => ?_⟩
  · simp [BridgeUpdates.initial, active]
  · cases hi
  · cases hplace
  · cases hactive

theorem UpdatesOk.run (inputs : List Input) : UpdatesOk (run BridgeUpdates.step .initial inputs) :=
  run_invariant BridgeUpdates.step (fun _ input h => h.step input) UpdatesOk.initial inputs

/-! ### What the histories say -/

/-- The acquire hook returned true. -/
def isLease : BridgeUpdateEvent → Bool
  | .acquired _ result => result
  | _ => false

def isRelease : BridgeUpdateEvent → Bool
  | .released _ _ => true
  | _ => false

/-- `BZM_bridge_begin_maintenance` returned `ESP_OK`. -/
def isBegin : BridgeUpdateEvent → Bool
  | .began err => err.isNone
  | _ => false

def isEnd : BridgeUpdateEvent → Bool
  | .ended _ => true
  | _ => false

def isReturn : BridgeUpdateEvent → Bool
  | .returned _ => true
  | _ => false

def isFinish : BridgeUpdateEvent → Bool
  | .finished _ => true
  | _ => false

/-- The hooks that were called. -/
def calledHooks : BridgeUpdateEvent → Option BridgeHooks
  | .acquired hooks _ | .released hooks _ => some hooks
  | _ => none

/-- When the event may happen after the older ones.  The counts say that every lease
has its release, and every begin its end, when the update clears `running`. -/
def Orderly (manifest : Option BzmBridgeImageManifest) (event : BridgeUpdateEvent)
    (older : List BridgeUpdateEvent) : Prop :=
  match event with
  | .claimed => older = []
  | .returned _ => older.countP isReturn = 0
  | .acquired _ _ => older.filterMap calledHooks = [] ∧ older.countP isFinish = 0
  | .began _ => (∃ hooks, .acquired hooks true ∈ older) ∧ older.countP isBegin = 0 ∧
      older.countP isRelease = 0 ∧ older.countP isFinish = 0
  | .flashed _ => .began none ∈ older ∧ older.countP isEnd = 0 ∧ older.countP isFinish = 0
  | .ended _ => .began none ∈ older ∧ older.countP isEnd = 0 ∧ older.countP isRelease = 0 ∧
      older.countP isFinish = 0
  | .released hooks _ => .acquired hooks true ∈ older ∧ older.filterMap calledHooks = [hooks] ∧
      older.countP isEnd = older.countP isBegin ∧ older.countP isFinish = 0
  | .queried _ _ => older.countP isRelease = older.countP isLease ∧ older.countP isFinish = 0
  | .finished complete => older.countP isRelease = older.countP isLease ∧
      older.countP isEnd = older.countP isBegin ∧ older.countP isFinish = 0 ∧
      (complete = true → .flashed none ∈ older ∧ .ended none ∈ older ∧
        (∃ hooks, .released hooks true ∈ older) ∧
        ∀ wanted, manifest = some wanted → ∃ info, .queried none info ∈ older ∧
          bzmBridgeUpdateManifestMatchesInfo wanted info = true)
  | .freed => .returned none ∈ older ∧ older.countP isFinish = 1 ∧ .freed ∉ older

/-- Without an error the query of a validated manifest found the identity. -/
theorem queriedErr_eq_none {manifest : BzmBridgeImageManifest} {queryErr : Option EspErr}
    {info : BzmBridgeInfo} (h : queriedErr (some manifest) queryErr info = none) :
    queryErr = none ∧ bzmBridgeUpdateManifestMatchesInfo manifest info = true := by
  unfold queriedErr at h
  split at h
  · next hfailed => exact absurd h hfailed.1
  · dsimp only at h
    split at h
    · cases h
    · next hmatches =>
      obtain ⟨herr, hmatch⟩ := not_or.mp hmatches
      exact ⟨not_not.mp herr, by simpa using hmatch⟩

variable {manifest : Option BzmBridgeImageManifest} {older : List BridgeUpdateEvent}

theorem created_orderly : Throughout (Orderly manifest) created := by
  simp [Throughout, Orderly, created, isReturn]

theorem prepared_orderly (hooks : BridgeHooks) :
    Throughout (Orderly manifest) (prepared hooks) := by
  simp [prepared, Throughout, Orderly, created, isReturn, isFinish, isBegin, isRelease,
    calledHooks]

theorem restored_orderly (hooks : BridgeHooks) (flashErr endErr : Option EspErr)
    (result : Bool) : Throughout (Orderly manifest) (restored hooks flashErr endErr result) := by
  refine ⟨?_, ?_, ?_, prepared_orderly hooks⟩ <;>
    simp [Orderly, prepared, created, isFinish, isBegin, isRelease, isEnd, calledHooks,
      List.countP_cons, List.filterMap_cons]

theorem Served.orderly {err : Option EspErr} (h : Served manifest err older) :
    Throughout (Orderly manifest) older := by
  cases h with
  | unprepared err => exact created_orderly
  | refused hooks err =>
    exact ⟨by simp [Orderly, created, isFinish, calledHooks], created_orderly⟩
  | backedOut hooks err result =>
    simp [Throughout, Orderly, created, isReturn, isFinish, isBegin, isRelease, isEnd,
      calledHooks, List.filterMap_cons]
  | failed hooks err flashErr endErr result => exact restored_orderly hooks flashErr endErr result
  | queried hooks queryErr info =>
    refine ⟨?_, restored_orderly hooks none none true⟩
    simp [Orderly, restored, prepared, created, isLease, isFinish, isRelease, List.countP_cons]

/-- Clearing `running` is in order. -/
theorem Served.finished_orderly {err : Option EspErr} (h : Served manifest err older) :
    Orderly manifest (.finished (decide (err = none))) older := by
  cases h with
  | unprepared err => simp [Orderly, created, isLease, isFinish, isBegin, isRelease, isEnd]
  | refused hooks err => simp [Orderly, created, isLease, isFinish, isBegin, isRelease, isEnd]
  | backedOut hooks err result =>
    simp [Orderly, created, isLease, isFinish, isBegin, isRelease, isEnd, List.countP_cons]
  | failed hooks err flashErr endErr result =>
    simp [Orderly, restored, prepared, created, isLease, isFinish, isBegin, isRelease, isEnd,
      List.countP_cons]
  | queried hooks queryErr info =>
    refine ⟨?_, ?_, ?_, fun hcomplete => ⟨?_, ?_, ⟨hooks, ?_⟩, fun wanted hwanted => ?_⟩⟩
    · simp [restored, prepared, created, isLease, isRelease, List.countP_cons]
    · simp [restored, prepared, created, isBegin, isEnd, List.countP_cons]
    · simp [restored, prepared, created, isFinish]
    · simp [restored]
    · simp [restored]
    · simp [restored]
    · subst hwanted
      obtain ⟨rfl, hmatch⟩ := queriedErr_eq_none (of_decide_eq_true hcomplete)
      exact ⟨info, List.mem_cons_self, hmatch⟩

/-- Freeing the image is in order once `running` is clear. -/
theorem Served.freed_orderly {err : Option EspErr} (h : Served manifest err older)
    (complete : Bool) : Orderly manifest .freed (.finished complete :: older) := by
  cases h <;> simp [Orderly, restored, prepared, created, isFinish, List.countP_cons]

theorem Course.orderly {place : BridgeUpdatePlace} (h : Course manifest older place) :
    Throughout (Orderly manifest) older := by
  cases place with
  | unborn | claiming =>
    obtain rfl : older = [] := h
    trivial
  | creating | uncreated =>
    obtain rfl : older = [.claimed] := h
    exact ⟨rfl, trivial⟩
  | returned =>
    rcases h with ⟨err, rfl⟩ | rfl
    · exact ⟨rfl, trivial⟩
    · simp [Throughout, Orderly, isReturn, isLease, isFinish, isBegin, isRelease, isEnd]
  | validating | reporting | readingHooks | acquiring =>
    obtain rfl : older = created := h
    exact created_orderly
  | beginning hooks =>
    obtain rfl : older = .acquired hooks true :: created := h
    exact (prepared_orderly hooks).2
  | backingOut hooks err =>
    obtain rfl : older = .began (some err) :: .acquired hooks true :: created := h
    exact (Served.backedOut hooks err true).orderly.2
  | flashing =>
    obtain ⟨hooks, rfl⟩ := h
    exact prepared_orderly hooks
  | ending flashErr =>
    obtain ⟨hooks, rfl⟩ := h
    exact (restored_orderly hooks flashErr none true).2.2
  | rereadingHooks flashErr endErr =>
    obtain ⟨hooks, rfl⟩ := h
    exact (restored_orderly hooks flashErr endErr true).2
  | releasing hooks flashErr endErr =>
    obtain rfl : older = .ended endErr :: .flashed flashErr :: prepared hooks := h
    exact (restored_orderly hooks flashErr endErr true).2
  | reportingQuery | querying =>
    obtain ⟨hooks, rfl⟩ := h
    exact restored_orderly hooks none none true
  | finishing => exact Served.orderly h
  | freeing =>
    obtain ⟨err, served, hserved, rfl⟩ := h
    exact ⟨hserved.finished_orderly, hserved.orderly⟩
  | gone =>
    obtain ⟨err, served, hserved, rfl⟩ := h
    exact ⟨hserved.freed_orderly _, hserved.finished_orderly, hserved.orderly⟩

/-- An update is running when it has claimed the board and not cleared `running`. -/
def Running (i : Nat) (trace : List (Nat × BridgeUpdateEvent)) : Prop :=
  .claimed ∈ history i trace ∧ (history i trace).countP isFinish = 0

theorem Served.running {err : Option EspErr} (h : Served manifest err older) :
    .claimed ∈ older ∧ older.countP isFinish = 0 := by
  cases h <;> simp [restored, prepared, created, isFinish]

theorem Course.active_iff {place : BridgeUpdatePlace} (h : Course manifest older place) :
    active place = true ↔ .claimed ∈ older ∧ older.countP isFinish = 0 := by
  cases place with
  | unborn | claiming =>
    obtain rfl : older = [] := h
    simp [active]
  | creating | uncreated =>
    obtain rfl : older = [.claimed] := h
    simp [active, isFinish]
  | returned => rcases h with ⟨err, rfl⟩ | rfl <;> simp [active, isFinish]
  | validating | reporting | readingHooks | acquiring =>
    obtain rfl : older = created := h
    simp [active, created, isFinish]
  | beginning | backingOut | releasing =>
    obtain rfl := h
    simp [active, prepared, created, isFinish]
  | flashing | ending | rereadingHooks | reportingQuery | querying =>
    obtain ⟨hooks, rfl⟩ := h
    simp [active, restored, prepared, created, isFinish]
  | finishing => exact iff_of_true rfl (Served.running h)
  | freeing | gone =>
    obtain ⟨err, served, hserved, rfl⟩ := h
    simp [active, isFinish, List.countP_cons]

theorem UpdatesOk.running_iff (h : UpdatesOk s) (i : Nat) :
    Running i s.trace ↔ active (s.place i) = true := (h.courses i).active_iff.symm

theorem UpdatesOk.orderly (h : UpdatesOk s) (i : Nat) :
    Throughout (Orderly (s.manifest i)) (history i s.trace) := (h.courses i).orderly

/-! ### Single steps -/

/-- What one step does to the status and the hooks. -/
inductive StatusStep (s s' : BridgeUpdates) : Prop
  | keeps (hrunning : s'.status.running = s.status.running)
      (hstate : s'.status.state = .complete → s.status.state = .complete)
      (hhooks : s'.hooks = s.hooks)
  | claims (hidle : s.status.running = false) (hstate : s'.status.state = .preparing)
  | registers (hidle : s.status.running = false) (hstatus : s'.status = s.status)
  | finishes (i : Nat) (complete : Bool) (newer : List (Nat × BridgeUpdateEvent))
      (hactive : active (s.place i) = true)
      (htrace : s'.trace = newer ++ (i, .finished complete) :: s.trace)
      (hstate : s'.status.state = .complete → complete = true) (hhooks : s'.hooks = s.hooks)

theorem setMaintenanceHooks_status (s : BridgeUpdates) (hooks : BridgeHooks) :
    StatusStep s (s.setMaintenanceHooks hooks) := by
  unfold BridgeUpdates.setMaintenanceHooks
  split
  · exact .keeps rfl id rfl
  · next hidle => exact .registers (Bool.eq_false_iff.mpr hidle) rfl

theorem start_status (s : BridgeUpdates) (i : Nat)
    (validation : Except EspErr (Option BzmBridgeImageManifest)) (allocated : Bool) :
    StatusStep s (s.start i validation allocated) := by
  unfold BridgeUpdates.start
  split
  · exact .keeps rfl id rfl
  · split <;> exact .keeps rfl id rfl
  · exact .keeps rfl id rfl

theorem progress_status (s : BridgeUpdates) (i : Nat) (phase : BridgeFlashPhase) :
    StatusStep s (s.progress i phase) := by
  unfold BridgeUpdates.progress
  split
  · refine .keeps rfl (fun hcomplete => ?_) rfl
    cases phase <;> cases hcomplete
  · exact .keeps rfl id rfl

theorem advance_status (s : BridgeUpdates) (i : Nat) (answer : Option EspErr)
    (info : BzmBridgeInfo) : StatusStep s (s.advance i answer info) := by
  unfold BridgeUpdates.advance
  cases hplace : s.place i with
  | claiming =>
    dsimp only
    split
    · exact .keeps rfl id rfl
    · next hidle => exact .claims (Bool.eq_false_iff.mpr hidle) rfl
  | uncreated =>
    refine .finishes i false [(i, .returned (some .noMem))] (by rw [hplace]; rfl) rfl ?_ rfl
    exact fun hcomplete => (nomatch hcomplete)
  | finishing err installed =>
    refine .finishes i (decide (err = none)) [] (by rw [hplace]; rfl) rfl (fun hcomplete => ?_) rfl
    cases err with
    | none => rfl
    | some err => cases hcomplete
  | reporting => exact .keeps rfl (fun hcomplete => (nomatch hcomplete)) rfl
  | reportingQuery => exact .keeps rfl (fun hcomplete => (nomatch hcomplete)) rfl
  | readingHooks =>
    dsimp only
    split <;> exact .keeps rfl id rfl
  | rereadingHooks flashErr endErr =>
    dsimp only
    split <;> exact .keeps rfl id rfl
  | releasing hooks flashErr endErr =>
    dsimp only
    split <;> exact .keeps rfl id rfl
  | creating | validating | acquiring | beginning => cases answer <;> exact .keeps rfl id rfl
  | _ => exact .keeps rfl id rfl

theorem step_status (s : BridgeUpdates) (input : Input) : StatusStep s (s.step input) := by
  cases input with
  | setMaintenanceHooks hooks => exact setMaintenanceHooks_status s hooks
  | start i validation allocated => exact start_status s i validation allocated
  | advance i answer info => exact advance_status s i answer info
  | progress i phase => exact progress_status s i phase

/-- `running` becomes false only when an update that runs finishes. -/
theorem UpdatesOk.running_cleared (h : UpdatesOk s) {input : Input}
    (hon : s.status.running = true) (hoff : (s.step input).status.running = false) :
    ∃ i complete newer, Running i s.trace ∧
      (s.step input).trace = newer ++ (i, .finished complete) :: s.trace := by
  cases step_status s input with
  | keeps hrunning =>
    exact absurd (hoff.symm.trans (hrunning.trans hon)) Bool.false_ne_true
  | claims hidle => exact absurd (hidle.symm.trans hon) Bool.false_ne_true
  | registers hidle => exact absurd (hidle.symm.trans hon) Bool.false_ne_true
  | finishes i complete newer hactive htrace =>
    exact ⟨i, complete, newer, (h.running_iff i).mpr hactive, htrace⟩

/-- The state becomes complete only when an update finishes without an error. -/
theorem complete_set {input : Input} (hset : (s.step input).status.state = .complete)
    (hbefore : s.status.state ≠ .complete) :
    ∃ i newer, (s.step input).trace = newer ++ (i, .finished true) :: s.trace := by
  cases step_status s input with
  | keeps _ hstate => exact absurd (hstate hset) hbefore
  | claims _ hstate => exact (nomatch hstate.symm.trans hset)
  | registers _ hstatus => exact absurd (hstatus ▸ hset) hbefore
  | finishes i complete newer _ htrace hstate =>
    obtain rfl := hstate hset
    exact ⟨i, newer, htrace⟩

/-- The hooks stay while an update runs. -/
theorem hooks_kept (input : Input) (hon : s.status.running = true) :
    (s.step input).hooks = s.hooks := by
  cases step_status s input with
  | keeps _ _ hhooks => exact hhooks
  | claims hidle => exact absurd (hidle.symm.trans hon) Bool.false_ne_true
  | registers hidle => exact absurd (hidle.symm.trans hon) Bool.false_ne_true
  | finishes _ _ _ _ _ _ hhooks => exact hhooks

/-! ### Every update comes to an end -/

/-- A bound on the steps that the update still has to make before it clears `running`. -/
def remaining : BridgeUpdatePlace → Nat
  | .unborn => 17
  | .claiming => 16
  | .creating => 15
  | .validating => 14
  | .reporting => 13
  | .readingHooks => 12
  | .acquiring _ => 11
  | .beginning _ => 10
  | .flashing => 9
  | .ending _ => 8
  | .rereadingHooks _ _ => 7
  | .releasing _ _ _ => 6
  | .reportingQuery => 5
  | .querying => 4
  | .backingOut _ _ => 3
  | .finishing _ _ => 2
  | .uncreated => 1
  | .returned | .freeing | .gone => 0

/-- The input is a step of update `i`. -/
def advances (i : Nat) : Input → Bool
  | .advance j _ _ => j = i
  | _ => false

@[simp] theorem goTo_place_self (s : BridgeUpdates) (i : Nat) (place : BridgeUpdatePlace) :
    (s.goTo i place).place i = place := if_pos rfl

theorem goTo_place_of_ne (s : BridgeUpdates) {i j : Nat} (h : j ≠ i)
    (place : BridgeUpdatePlace) : (s.goTo i place).place j = s.place j := if_neg h

@[simp] theorem record_place (s : BridgeUpdates) (i : Nat) (event : BridgeUpdateEvent) :
    (s.record i event).place = s.place := rfl

/-- The step of another update. -/
theorem advance_place_of_ne (s : BridgeUpdates) {i j : Nat} (h : j ≠ i)
    (answer : Option EspErr) (info : BzmBridgeInfo) :
    (s.advance i answer info).place j = s.place j := by
  unfold BridgeUpdates.advance
  cases hplace : s.place i with
  | claiming =>
    dsimp only
    split <;> exact goTo_place_of_ne _ h _
  | readingHooks | rereadingHooks | releasing =>
    dsimp only
    split <;> exact goTo_place_of_ne _ h _
  | creating | validating | acquiring | beginning =>
    cases answer <;> exact goTo_place_of_ne _ h _
  | unborn | returned | gone => rfl
  | _ => exact goTo_place_of_ne _ h _

theorem advance_remaining (s : BridgeUpdates) {i : Nat} (hborn : s.place i ≠ .unborn)
    (answer : Option EspErr) (info : BzmBridgeInfo) :
    remaining ((s.advance i answer info).place i) ≤ remaining (s.place i) - 1 ∧
      (s.advance i answer info).place i ≠ .unborn := by
  unfold BridgeUpdates.advance
  cases hplace : s.place i with
  | unborn => exact absurd hplace hborn
  | claiming =>
    dsimp only
    split <;> simp [remaining]
  | readingHooks | rereadingHooks | releasing =>
    dsimp only
    split <;> simp [remaining]
  | creating | validating | acquiring | beginning => cases answer <;> simp [remaining]
  | returned | gone => simp [remaining, hplace]
  | _ => simp [remaining, setState]

theorem step_remaining (s : BridgeUpdates) {i : Nat} (hborn : s.place i ≠ .unborn)
    (input : Input) :
    remaining ((s.step input).place i) ≤
        remaining (s.place i) - (if advances i input then 1 else 0) ∧
      (s.step input).place i ≠ .unborn := by
  cases input with
  | setMaintenanceHooks hooks =>
    have hplace : (s.setMaintenanceHooks hooks).place = s.place := by
      unfold BridgeUpdates.setMaintenanceHooks
      split <;> rfl
    simpa [step, advances, hplace] using hborn
  | start j validation allocated =>
    have hplace : (s.start j validation allocated).place i = s.place i := by
      unfold BridgeUpdates.start
      split
      · next hunborn =>
        have hne : i ≠ j := by
          rintro rfl
          exact hborn hunborn
        exact goTo_place_of_ne _ hne _
      · next hunborn =>
        have hne : i ≠ j := by
          rintro rfl
          exact hborn hunborn
        split <;> exact goTo_place_of_ne _ hne _
      · rfl
    simpa [step, advances, hplace] using hborn
  | progress j phase =>
    have hplace : (s.progress j phase).place = s.place := by
      unfold BridgeUpdates.progress
      split <;> rfl
    simpa [step, advances, hplace] using hborn
  | advance j answer info =>
    by_cases hji : j = i
    · subst hji
      simpa [step, advances] using advance_remaining s hborn answer info
    · have hplace := advance_place_of_ne s (Ne.symm hji) answer info
      simpa [step, advances, hji, hplace] using hborn

theorem run_remaining {i : Nat} (inputs : List Input) :
    ∀ {s : BridgeUpdates}, s.place i ≠ .unborn →
      remaining ((Library.run BridgeUpdates.step s inputs).place i) ≤
        remaining (s.place i) - inputs.countP (advances i) := by
  induction inputs with
  | nil => exact fun _ => le_rfl
  | cons input inputs ih =>
    intro s hborn
    obtain ⟨hstep, hstays⟩ := step_remaining s hborn input
    have hrest := ih hstays
    rw [run_cons, List.countP_cons]
    omega

/-- An update that runs has cleared `running` after at most fifteen steps of its own. -/
theorem UpdatesOk.terminates (h : UpdatesOk s) {i : Nat} (hrunning : Running i s.trace)
    {inputs : List Input} (hsteps : 15 ≤ inputs.countP (advances i)) :
    ¬ Running i (Library.run BridgeUpdates.step s inputs).trace := by
  have hafter : UpdatesOk (Library.run BridgeUpdates.step s inputs) :=
    run_invariant BridgeUpdates.step (fun _ input h => h.step input) h inputs
  rw [hafter.running_iff i]
  have hactive := (h.running_iff i).mp hrunning
  have hborn : s.place i ≠ .unborn := by
    intro hplace
    rw [hplace] at hactive
    cases hactive
  have hbound : remaining (s.place i) ≤ 15 := by
    cases hplace : s.place i <;> simp [remaining] <;> simp [hplace, active] at hactive
  have hdone := run_remaining (i := i) inputs hborn
  intro hstill
  have hzero : remaining ((Library.run BridgeUpdates.step s inputs).place i) = 0 := by omega
  cases hplace : (Library.run BridgeUpdates.step s inputs).place i <;>
    simp [hplace, remaining, active] at hzero hstill

/-! ### The guarantee -/

/-- **An update is exclusive and always gives the board back.** -/
theorem update_exclusive_and_restoring (inputs : List Input) :
    let s := Library.run BridgeUpdates.step .initial inputs
    (∀ i j, Running i s.trace → Running j s.trace → i = j) ∧
    (s.status.running = true ↔ ∃ i, Running i s.trace) ∧
    (∀ i, Throughout (Orderly (s.manifest i)) (history i s.trace)) ∧
    (∀ input, s.status.running = true → (s.step input).hooks = s.hooks) ∧
    (∀ input, s.status.running = true → (s.step input).status.running = false →
      ∃ i complete newer, Running i s.trace ∧
        (s.step input).trace = newer ++ (i, .finished complete) :: s.trace) ∧
    (∀ input, (s.step input).status.state = .complete → s.status.state ≠ .complete →
      ∃ i newer, (s.step input).trace = newer ++ (i, .finished true) :: s.trace) ∧
    ∀ i more, Running i s.trace → 15 ≤ more.countP (advances i) →
      ¬ Running i (Library.run BridgeUpdates.step s more).trace := by
  intro s
  have h : UpdatesOk s := UpdatesOk.run inputs
  refine ⟨fun i j hi hj => ?_, ?_, h.orderly, fun input => hooks_kept input,
    fun input => h.running_cleared, fun input => complete_set,
    fun i more hrunning => h.terminates hrunning⟩
  · exact h.single i j ((h.running_iff i).mp hi) ((h.running_iff j).mp hj)
  · rw [h.running]
    exact exists_congr fun i => (h.running_iff i).symm

end BridgeUpdates

end EspMiner
