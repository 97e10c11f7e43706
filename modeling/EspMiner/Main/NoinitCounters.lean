import EspMiner.Asic.Job
import EspMiner.Library.DoubleWord
import EspMiner.Library.Run
import Mathlib.Data.NNRat.Floor

/-!
# Lifetime counters

`SYSTEM_noinit_update` of `main/system.c`, and what `SYSTEM_init_system` restores from the
memory a restart keeps and from NVS: the uptime and the hashes of all boots.
-/

namespace EspMiner

open Library

def NVS_COUNTER_UPDATE_INTERVAL_MS : U64 := 3600000#64
def NOINIT_SENTINEL_VALUE : U32 := 0x4C4F4732#32

/-- `NoinitState` with `cumulative_hashes_high` and `cumulative_hashes_low` -/
structure NoinitState where
  totalUptime : U64
  cumulativeHashes : DoubleWord 64
  sentinel : U32
deriving DecidableEq, Repr

/-- The keys of NVS that keep the counters -/
structure NvsCounters where
  totalUptime : U64
  cumulativeHashes : DoubleWord 64
deriving DecidableEq, Repr

/-- What `SYSTEM_noinit_update` reads and writes: the memory, NVS, and the variables that
begin with zero at every boot.  The memory of a running system is vouched for. -/
structure LifetimeCounters where
  noinitState : NoinitState
  nvs : NvsCounters
  lastUpdateTimeMs : U64
  lastNvsWriteTimeMs : U64
  totalUptimeAtSystemStart : U64
  startTimeUs : Nat
  uptimeSeconds : U64
  hsentinel : noinitState.sentinel = NOINIT_SENTINEL_VALUE

/-- One call of `SYSTEM_noinit_update`: the two readings of `esp_timer_get_time`, which is
never negative, and `current_hashrate` in GH/s. -/
structure NoinitUpdate where
  timeUs : Nat
  uptimeTimeUs : Nat
  hashrate : ℚ≥0

/-- What a restart finds in the no-init memory: what the system left there, or after a loss
of power something else. -/
inductive NoinitMemory where
  | kept
  | lost (found : NoinitState) (hsentinel : found.sentinel ≠ NOINIT_SENTINEL_VALUE)

/-- A boot: what it finds, when `SYSTEM_init_system` runs, and the calls until the next one.
The values of a write to NVS are queued for flash, so that a boot may find other ones. -/
structure Boot where
  memory : NoinitMemory
  nvs : NvsCounters
  startTimeUs : Nat
  calls : List NoinitUpdate

namespace NoinitMemory

def Lost (memory : NoinitMemory) : Prop := memory ≠ .kept

def found (memory : NoinitMemory) (left : NoinitState) : NoinitState :=
  match memory with
  | kept => left
  | lost found _ => found

end NoinitMemory

namespace LifetimeCounters

/-- The memory without a valid sentinel is cleared. -/
def initNoinitState (memory : NoinitState) : NoinitState :=
  if memory.sentinel ≠ NOINIT_SENTINEL_VALUE then ⟨0, ⟨0, 0⟩, NOINIT_SENTINEL_VALUE⟩ else memory

theorem sentinel_initNoinitState (memory : NoinitState) :
    (initNoinitState memory).sentinel = NOINIT_SENTINEL_VALUE := by
  rw [initNoinitState]
  split
  case isTrue => rfl
  case isFalse h => exact Decidable.not_not.mp h

/-- The counters of `SYSTEM_init_system` -/
def initSystem (memory : NoinitState) (nvs : NvsCounters) (startTimeUs : Nat) :
    LifetimeCounters :=
  let state := initNoinitState memory
  let totalUptime :=
    if state.totalUptime < nvs.totalUptime then nvs.totalUptime else state.totalUptime
  { noinitState := ⟨totalUptime, state.cumulativeHashes.max nvs.cumulativeHashes, state.sentinel⟩
    nvs
    lastUpdateTimeMs := 0
    lastNvsWriteTimeMs := 0
    totalUptimeAtSystemStart := totalUptime
    startTimeUs
    uptimeSeconds := 0
    hsentinel := sentinel_initNoinitState memory }

/-- The rate in GH/s over the milliseconds as raw hashes -/
def hashesDone (elapsedMs : Nat) (hashrate : ℚ≥0) : Nat := ⌊(elapsedMs : ℚ≥0) * 10 ^ 6 * hashrate⌋₊

/-- `uptime_seconds` -/
def uptimeAt (timeUs startTimeUs : Nat) : U64 :=
  BitVec.ofInt 64 (((timeUs : Int) - startTimeUs).tdiv 1000000)

/-- The update of an interval of at least a second -/
def accumulate (s : LifetimeCounters) (elapsedMs : U64) (call : NoinitUpdate) :
    LifetimeCounters :=
  let uptimeSeconds := uptimeAt call.uptimeTimeUs s.startTimeUs
  let hashes := BitVec.ofNat 64 (hashesDone elapsedMs.toNat call.hashrate)
  { s with
    uptimeSeconds
    noinitState :=
      { s.noinitState with
        totalUptime := s.totalUptimeAtSystemStart + uptimeSeconds
        cumulativeHashes := s.noinitState.cumulativeHashes.add hashes } }

/-- The counters are written to NVS once in an hour. -/
def persist (s : LifetimeCounters) (currentTimeMs : U64) : LifetimeCounters :=
  if NVS_COUNTER_UPDATE_INTERVAL_MS ≤ currentTimeMs - s.lastNvsWriteTimeMs then
    { s with
      nvs := ⟨s.noinitState.totalUptime, s.noinitState.cumulativeHashes⟩
      lastNvsWriteTimeMs := currentTimeMs }
  else s

/-- `SYSTEM_noinit_update` -/
def update (s : LifetimeCounters) (call : NoinitUpdate) : LifetimeCounters :=
  let currentTimeMs := BitVec.ofNat 64 (call.timeUs / 1000)
  if s.lastUpdateTimeMs = 0 then
    { s with lastUpdateTimeMs := currentTimeMs, lastNvsWriteTimeMs := currentTimeMs }
  else
    let elapsedMs := currentTimeMs - s.lastUpdateTimeMs
    let s := { s with lastUpdateTimeMs := currentTimeMs }
    if elapsedMs < 1000 then s
    else (s.accumulate elapsedMs call).persist currentTimeMs

/-- What the memory holds for NVS -/
def counters (s : LifetimeCounters) : NvsCounters :=
  ⟨s.noinitState.totalUptime, s.noinitState.cumulativeHashes⟩

/-- The system from the start of a boot that follows on `s` -/
def start (s : LifetimeCounters) (boot : Boot) : LifetimeCounters :=
  initSystem (boot.memory.found s.noinitState) boot.nvs boot.startTimeUs

/-- A whole boot -/
def boot (s : LifetimeCounters) (boot : Boot) : LifetimeCounters :=
  run update (s.start boot) boot.calls

end LifetimeCounters

end EspMiner
