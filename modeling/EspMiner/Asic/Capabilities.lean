import EspMiner.Asic.Job

/-!
# ASIC capabilities

`components/asic/asic_capabilities.c`: what the driver asks of the ASIC family; the table by
chip id is not modelled, only its Bonanza row.
-/

namespace EspMiner

/-- `asic_version_rolling_mode_t` -/
inductive AsicVersionRollingMode where
  | none
  | midstate
  | hardware
deriving DecidableEq, Repr

/-- `asic_work_refresh_policy_t` -/
inductive AsicWorkRefreshPolicy where
  | periodic
  | onNewJob
  | driverManaged
deriving DecidableEq, Repr

/-- `asic_capabilities_t` -/
structure AsicCapabilities where
  versionRolling : AsicVersionRollingMode
  supportedVersionMask : U32
  maxVersionVariants : U32
  supportsNtimeRolling : Bool
  maxNtimeRoll : U32
  workRefreshPolicy : AsicWorkRefreshPolicy
  driverOwnsScheduling : Bool
deriving DecidableEq, Repr

def BM_SUPPORTED_VERSION_MASK : U32 := 0x1fffe000#32

def BZM_CAPABILITIES : AsicCapabilities where
  versionRolling := .midstate
  supportedVersionMask := BM_SUPPORTED_VERSION_MASK
  maxVersionVariants := 4
  supportsNtimeRolling := true
  maxNtimeRoll := 127
  workRefreshPolicy := .driverManaged
  driverOwnsScheduling := true

/-- `ASIC_capabilities_support_static_work` -/
def AsicCapabilities.supportStaticWork (capabilities : AsicCapabilities) : Bool :=
  decide (capabilities.workRefreshPolicy = .onNewJob)

end EspMiner
