import EspMiner.Bzm.Bridge

/-!
# Updates of the bridge firmware

`components/asic/bzm_bridge_update.c`: any number of callers of
`BZM_bridge_update_start` and of `BZM_bridge_update_set_maintenance_hooks` with the
tasks they create, interleaved step by step.  Each section under `UPDATE_LOCK` is
one step, and so is each call of a callback.

An update is known by its number; `place` says how far it is.  An error is `none`
for `ESP_OK`.
-/

namespace EspMiner

open Library

/-- `bzm_bridge_info_t` as far as it identifies a firmware. -/
structure BzmBridgeInfo where
  protocolMajor : U8
  protocolMinor : U8
  version : List U8
deriving DecidableEq, Repr

/-- `bzm_bridge_image_manifest_t`, as far as it identifies a firmware. -/
structure BzmBridgeImageManifest where
  protocolMajor : U8
  protocolMinor : U8
  version : List U8
deriving DecidableEq, Repr

/-- `bzm_bridge_update_manifest_matches_info` -/
def bzmBridgeUpdateManifestMatchesInfo (manifest : BzmBridgeImageManifest)
    (info : BzmBridgeInfo) : Bool :=
  info.protocolMajor = manifest.protocolMajor ∧ info.protocolMinor = manifest.protocolMinor ∧
    info.version = manifest.version

/-- `bzm_bridge_update_state_t` -/
inductive BridgeUpdateState where
  | idle
  | preparing
  | erasing
  | programming
  | verifying
  | resetting
  | querying
  | complete
  | failed
deriving DecidableEq, Repr

/-- `bzm_bridge_flash_phase_t` -/
inductive BridgeFlashPhase where
  | preparing
  | erasing
  | programming
  | verifying
  | resetting
deriving DecidableEq, Repr

/-- `bridge_flash_progress` -/
def BridgeFlashPhase.state : BridgeFlashPhase → BridgeUpdateState
  | .preparing => .preparing
  | .erasing => .erasing
  | .programming => .programming
  | .verifying => .verifying
  | .resetting => .resetting

/-- `UPDATE_STATUS`, as far as a decision depends on it or a reader sees the result. -/
structure BridgeUpdateStatus where
  state : BridgeUpdateState
  running : Bool
  manifestValidated : Bool
  versionQuerySupported : Bool
  currentVersion : List U8
deriving DecidableEq, Repr

/-- The acquire hook, the release hook and their context, as one name. -/
abbrev BridgeHooks := Nat

/-- How far an update is: before the `creating` step in its caller, from
`validating` on in its task.  `flashErr` and `endErr` are what the flash and
`BZM_bridge_end_maintenance` returned. -/
inductive BridgeUpdatePlace where
  | unborn
  | claiming
  | creating
  | uncreated
  | returned
  | validating
  | reporting
  | readingHooks
  | acquiring (hooks : BridgeHooks)
  | beginning (hooks : BridgeHooks)
  | backingOut (hooks : BridgeHooks) (err : EspErr)
  | flashing
  | ending (flashErr : Option EspErr)
  | rereadingHooks (flashErr endErr : Option EspErr)
  | releasing (hooks : BridgeHooks) (flashErr endErr : Option EspErr)
  | reportingQuery
  | querying
  | finishing (err : Option EspErr) (info : Option BzmBridgeInfo)
  | freeing
  | gone
deriving DecidableEq, Repr

/-- What an update did: it set `running`, called a callback, cleared `running`
with the state complete or failed, freed its image, or its caller returned.  The
caller's return of `ESP_OK` is recorded with the creation of the task. -/
inductive BridgeUpdateEvent where
  | claimed
  | returned (err : Option EspErr)
  | acquired (hooks : BridgeHooks) (result : Bool)
  | began (err : Option EspErr)
  | flashed (err : Option EspErr)
  | ended (err : Option EspErr)
  | released (hooks : BridgeHooks) (result : Bool)
  | queried (err : Option EspErr) (info : BzmBridgeInfo)
  | finished (complete : Bool)
  | freed
deriving DecidableEq, Repr

/-- `manifest` is the validated manifest of each update, and `trace` is newest
first. -/
structure BridgeUpdates where
  status : BridgeUpdateStatus
  hooks : Option BridgeHooks
  place : Nat → BridgeUpdatePlace
  manifest : Nat → Option BzmBridgeImageManifest
  trace : List (Nat × BridgeUpdateEvent)

namespace BridgeUpdates

def goTo (s : BridgeUpdates) (i : Nat) (place : BridgeUpdatePlace) : BridgeUpdates :=
  { s with place := fun other => if other = i then place else s.place other }

def record (s : BridgeUpdates) (i : Nat) (event : BridgeUpdateEvent) : BridgeUpdates :=
  { s with trace := (i, event) :: s.trace }

def setState (s : BridgeUpdates) (state : BridgeUpdateState) : BridgeUpdates :=
  { s with status := { s.status with state := state } }

/-- `BZM_bridge_update_set_maintenance_hooks` -/
def setMaintenanceHooks (s : BridgeUpdates) (hooks : BridgeHooks) : BridgeUpdates :=
  if s.status.running then s else { s with hooks := some hooks }

/-- `BZM_bridge_update_start` up to its first lock, with the result of
`bzm_bridge_update_validate_upload` and of `calloc`. -/
def start (s : BridgeUpdates) (i : Nat)
    (validation : Except EspErr (Option BzmBridgeImageManifest)) (allocated : Bool) :
    BridgeUpdates :=
  match s.place i, validation with
  | .unborn, .error err => (s.record i (.returned (some err))).goTo i .returned
  | .unborn, .ok manifest =>
      if allocated = false then (s.record i (.returned (some .noMem))).goTo i .returned
      else
        { s with
          manifest := fun other => if other = i then manifest else s.manifest other }.goTo i
            .claiming
  | _, _ => s

/-- The error that `bzm_bridge_update_run` has after the restore. -/
def restoredErr (flashErr endErr : Option EspErr) (released : Bool) : Option EspErr :=
  let restoreErr := if released = false ∧ endErr = none then some .fail else endErr
  if flashErr = none then restoreErr else flashErr

/-- The error after the query: the identity must match a validated manifest. -/
def queriedErr (manifest : Option BzmBridgeImageManifest) (queryErr : Option EspErr)
    (info : BzmBridgeInfo) : Option EspErr :=
  if queryErr ≠ none ∧ queryErr ≠ some .notSupported then queryErr
  else
    match manifest with
    | none => none
    | some manifest =>
        if queryErr ≠ none ∨ bzmBridgeUpdateManifestMatchesInfo manifest info = false then
          some .invalidResponse
        else none

/-- One step of an update.  `answer` is the error of the call that the step makes,
with `none` for a callback that returns true, and `info` is what the query stores. -/
def advance (s : BridgeUpdates) (i : Nat) (answer : Option EspErr) (info : BzmBridgeInfo) :
    BridgeUpdates :=
  match s.place i with
  | .unborn | .returned | .gone => s
  | .claiming =>
      if s.status.running then (s.record i (.returned (some .invalidState))).goTo i .returned
      else
        { s.record i .claimed with
          status :=
            { state := .preparing
              running := true
              manifestValidated := (s.manifest i).isSome
              versionQuerySupported := false
              currentVersion := [] } }.goTo i .creating
  | .creating =>
      match answer with
      | none => (s.record i (.returned none)).goTo i .validating
      | some _ => s.goTo i .uncreated
  | .uncreated =>
      { (s.record i (.finished false)).record i (.returned (some .noMem)) with
        status := { s.status with running := false, state := .failed } }.goTo i .returned
  | .validating =>
      match answer with
      | none => s.goTo i .reporting
      | some err => s.goTo i (.finishing (some err) none)
  | .reporting => (s.setState .preparing).goTo i .readingHooks
  | .readingHooks =>
      match s.hooks with
      | none => s.goTo i (.finishing (some .invalidState) none)
      | some hooks => s.goTo i (.acquiring hooks)
  | .acquiring hooks =>
      match answer with
      | none => (s.record i (.acquired hooks true)).goTo i (.beginning hooks)
      | some _ =>
          (s.record i (.acquired hooks false)).goTo i (.finishing (some .invalidState) none)
  | .beginning hooks =>
      match answer with
      | none => (s.record i (.began none)).goTo i .flashing
      | some err => (s.record i (.began (some err))).goTo i (.backingOut hooks err)
  | .backingOut hooks err =>
      (s.record i (.released hooks answer.isNone)).goTo i (.finishing (some err) none)
  | .flashing => (s.record i (.flashed answer)).goTo i (.ending answer)
  | .ending flashErr =>
      (s.record i (.ended answer)).goTo i (.rereadingHooks flashErr answer)
  | .rereadingHooks flashErr endErr =>
      match s.hooks with
      | none => s.goTo i (.finishing (restoredErr flashErr endErr false) none)
      | some hooks => s.goTo i (.releasing hooks flashErr endErr)
  | .releasing hooks flashErr endErr =>
      let s := s.record i (.released hooks answer.isNone)
      match restoredErr flashErr endErr answer.isNone with
      | some err => s.goTo i (.finishing (some err) none)
      | none => s.goTo i .reportingQuery
  | .reportingQuery => (s.setState .querying).goTo i .querying
  | .querying =>
      (s.record i (.queried answer info)).goTo i
        (.finishing (queriedErr (s.manifest i) answer info)
          (if answer = none then some info else none))
  | .finishing err installed =>
      { s.record i (.finished (decide (err = none))) with
        status := { s.status with
          running := false
          state := if err = none then .complete else .failed
          versionQuerySupported := installed.isSome
          currentVersion := (installed.map BzmBridgeInfo.version).getD s.status.currentVersion }
          }.goTo i .freeing
  | .freeing => (s.record i .freed).goTo i .gone

/-- The flash reports a phase. -/
def progress (s : BridgeUpdates) (i : Nat) (phase : BridgeFlashPhase) : BridgeUpdates :=
  match s.place i with
  | .flashing => s.setState phase.state
  | _ => s

inductive Input where
  | setMaintenanceHooks (hooks : BridgeHooks)
  | start (i : Nat) (validation : Except EspErr (Option BzmBridgeImageManifest))
      (allocated : Bool)
  | advance (i : Nat) (answer : Option EspErr) (info : BzmBridgeInfo)
  | progress (i : Nat) (phase : BridgeFlashPhase)

def step (s : BridgeUpdates) : Input → BridgeUpdates
  | .setMaintenanceHooks hooks => s.setMaintenanceHooks hooks
  | .start i validation allocated => s.start i validation allocated
  | .advance i answer info => s.advance i answer info
  | .progress i phase => s.progress i phase

def initial : BridgeUpdates where
  status := ⟨.idle, false, false, false, []⟩
  hooks := none
  place := fun _ => .unborn
  manifest := fun _ => none
  trace := []

end BridgeUpdates

end EspMiner
