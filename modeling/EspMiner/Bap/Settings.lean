import EspMiner.Bap.Protocol
import EspMiner.Library.NumberText

/-!
# Settings of the accessory protocol

`BAP_handle_settings` of `main/bap/bap_handlers.c`, with the checks of `main/device_config.h` and
the setters of `main/nvs_config.c` that it calls.
-/

namespace EspMiner

open Library

/-! ## The device -/

/-- `Asic` -/
inductive AsicId where
  | bm1397
  | bm1366
  | bm1368
  | bm1370
  | bzm
  | bm1373
deriving DecidableEq, Repr

/-- What the checks read of `DeviceConfig` -/
structure TuningConfig where
  bonanzaBridge : Bool
  asicId : AsicId
  frequencyTunable : Bool
  defaultFrequencyMhz : U16
  voltageTunable : Bool
  defaultVoltageMv : U16
deriving DecidableEq, Repr

/-- `0.001f` -/
def float0001 : Binary32 := floatLiteral 1 1000 (by decide)

/-- `device_config_accepts_frequency`; a negative `delta` is turned over. -/
def deviceConfigAcceptsFrequency (config : TuningConfig) (frequencyMhz : Binary32) : Bool :=
  if Binary32.le frequencyMhz (Binary32.ofNat 0) = true then false
  else if config.asicId = .bzm then
    Binary32.le (Binary32.ofNat 800) frequencyMhz && Binary32.le frequencyMhz (Binary32.ofNat 2000)
  else if config.frequencyTunable = true then true
  else
    let delta := Binary32.sub frequencyMhz (Binary32.ofNat config.defaultFrequencyMhz.toNat)
    let delta := if Binary32.lt delta (Binary32.ofNat 0) = true then Binary32.abs delta else delta
    Binary32.le delta float0001

/-- `device_config_accepts_voltage` -/
def deviceConfigAcceptsVoltage (config : TuningConfig) (voltageMv : U16) : Bool :=
  if voltageMv = 0 then false
  else if config.asicId = .bzm then decide (2100 ≤ voltageMv.toNat ∧ voltageMv.toNat ≤ 3200)
  else config.voltageTunable || voltageMv == config.defaultVoltageMv

/-- `bonanza` in the handlers -/
def TuningConfig.bonanza (config : TuningConfig) : Bool :=
  config.bonanzaBridge && config.asicId == .bzm

/-! ## The stored settings -/

/-- A setting with its `is_set` -/
structure NvsSetting (α : Type) where
  value : α
  isSet : Bool
deriving DecidableEq

/-- The settings that the handler stores -/
structure TunedSettings where
  asicFrequency : NvsSetting Binary32
  asicVoltage : NvsSetting U16
  autoFanSpeed : NvsSetting Bool
  manualFanSpeed : NvsSetting U16
  wifiSsid : NvsSetting (List U8)
  wifiPass : NvsSetting (List U8)
deriving DecidableEq

/-- A `ConfigUpdate` for one of them -/
inductive TunedUpdate where
  | asicFrequency (value : Binary32)
  | asicVoltage (value : U16)
  | autoFanSpeed (value : Bool)
  | manualFanSpeed (value : U16)
  | wifiSsid (value : List U8)
  | wifiPass (value : List U8)
deriving DecidableEq

/-- The settings and `nvs_save_queue` -/
structure TunedNvs where
  settings : TunedSettings
  saveQueue : List TunedUpdate
deriving DecidableEq

namespace TunedNvs

/-- A setting is written and its update is queued. -/
def save (nvs : TunedNvs) (settings : TunedSettings) (update : TunedUpdate) : TunedNvs :=
  ⟨settings, nvs.saveQueue ++ [update]⟩

/-- The stored value is kept: the test of `nvs_config_set_float` -/
def keepsFloat (stored : NvsSetting Binary32) (value : Binary32) : Bool :=
  Binary32.lt (Binary32.abs (Binary32.sub stored.value value)) float0001 && stored.isSet

/-- The stored value is kept: the test of the other setters -/
def keeps {α : Type} [DecidableEq α] (stored : NvsSetting α) (value : α) : Bool :=
  decide (stored.value = value) && stored.isSet

/-- `nvs_config_set_float` for `NVS_CONFIG_ASIC_FREQUENCY` -/
def setAsicFrequency (nvs : TunedNvs) (value : Binary32) : TunedNvs :=
  if keepsFloat nvs.settings.asicFrequency value = true then nvs
  else nvs.save { nvs.settings with asicFrequency := ⟨value, true⟩ } (.asicFrequency value)

/-- `nvs_config_set_u16` for `NVS_CONFIG_ASIC_VOLTAGE` -/
def setAsicVoltage (nvs : TunedNvs) (value : U16) : TunedNvs :=
  if keeps nvs.settings.asicVoltage value = true then nvs
  else nvs.save { nvs.settings with asicVoltage := ⟨value, true⟩ } (.asicVoltage value)

/-- `nvs_config_set_bool` for `NVS_CONFIG_AUTO_FAN_SPEED` -/
def setAutoFanSpeed (nvs : TunedNvs) (value : Bool) : TunedNvs :=
  if keeps nvs.settings.autoFanSpeed value = true then nvs
  else nvs.save { nvs.settings with autoFanSpeed := ⟨value, true⟩ } (.autoFanSpeed value)

/-- `nvs_config_set_u16` for `NVS_CONFIG_MANUAL_FAN_SPEED` -/
def setManualFanSpeed (nvs : TunedNvs) (value : U16) : TunedNvs :=
  if keeps nvs.settings.manualFanSpeed value = true then nvs
  else nvs.save { nvs.settings with manualFanSpeed := ⟨value, true⟩ } (.manualFanSpeed value)

/-- `nvs_config_set_string` for `NVS_CONFIG_WIFI_SSID` -/
def setWifiSsid (nvs : TunedNvs) (value : List U8) : TunedNvs :=
  if keeps nvs.settings.wifiSsid value = true then nvs
  else nvs.save { nvs.settings with wifiSsid := ⟨value, true⟩ } (.wifiSsid value)

/-- `nvs_config_set_string` for `NVS_CONFIG_WIFI_PASS` -/
def setWifiPass (nvs : TunedNvs) (value : List U8) : TunedNvs :=
  if keeps nvs.settings.wifiPass value = true then nvs
  else nvs.save { nvs.settings with wifiPass := ⟨value, true⟩ } (.wifiPass value)

end TunedNvs

/-! ## The handler -/

/-- `bap_parameter_t` -/
inductive BapParameter where
  | systemInfo
  | hashrate
  | temperature
  | power
  | voltage
  | current
  | shares
  | frequency
  | asicVoltage
  | ssid
  | password
  | fanSpeed
  | autoFanSpeed
  | bestDifficulty
  | blockHeight
  | wifi
  | foundBlock
  | showNewBlock
  | unknown
deriving DecidableEq, Repr

namespace BapParameter

/-- `parameter_strings` -/
def parameterStrings : List (BapParameter × List U8) :=
  [(systemInfo, cText "systemInfo"), (hashrate, cText "hashrate"),
    (temperature, cText "temperature"), (power, cText "power"), (voltage, cText "voltage"),
    (current, cText "current"), (shares, cText "shares"), (frequency, cText "frequency"),
    (asicVoltage, cText "asic_voltage"), (ssid, cText "ssid"), (password, cText "password"),
    (fanSpeed, cText "fan_speed"), (autoFanSpeed, cText "auto_fan"),
    (bestDifficulty, cText "best_difficulty"), (blockHeight, cText "block_height"),
    (wifi, cText "wifi"), (foundBlock, cText "found_block"),
    (showNewBlock, cText "show_new_block")]

/-- `BAP_parameter_from_string` -/
def fromString (text : List U8) : BapParameter :=
  match parameterStrings.find? fun entry => entry.2 == text with
  | none => unknown
  | some entry => entry.1

/-- `BAP_parameter_to_string` -/
def toText (parameter : BapParameter) : List U8 :=
  match parameterStrings.find? fun entry => entry.1 == parameter with
  | none => cText "unknown"
  | some entry => entry.2

end BapParameter

/-- What the handler does besides writing settings: `BAP_send_message`,
`POWER_MANAGEMENT_settings_changed`, and the restart of the device -/
inductive BapEffect where
  | sendMessage (command : BapCommand) (parameter value : List U8)
  | settingsChanged
  | prepareRestart
deriving DecidableEq, Repr

/-- What the handler reads and writes of `bap_global_state`, and the settings -/
structure BapSystem where
  isConnected : Bool
  deviceConfig : TuningConfig
  blockFound : U32
  showNewBlock : Bool
  nvs : TunedNvs
deriving DecidableEq

/-- The system after a call, and its effects in their order -/
structure BapHandled where
  system : BapSystem
  effects : List BapEffect
deriving DecidableEq

/-- `%.2f` -/
def twoDecimals : Binary32 → List U8
  | .nan => cText "nan"
  | .inf negative => if negative = true then cText "-inf" else cText "inf"
  | .finite units _ =>
      fixedText (decide (units < 0)) 2 (nearest (10 ^ 2 * units.natAbs) (2 ^ 149))

/-- `(uint16_t)atoi(value)` -/
def atoiU16 (value : List U8) : U16 := (atoi value).setWidth 16

namespace BapSystem

/-- A setting is refused. -/
def refuse (sys : BapSystem) (parameter reason : List U8) : BapHandled :=
  ⟨sys, [.sendMessage .err parameter reason]⟩

/-- The range check of the frequency -/
def frequencyValid (sys : BapSystem) (targetFrequency : Binary32) : Bool :=
  if sys.deviceConfig.bonanza = true then
    deviceConfigAcceptsFrequency sys.deviceConfig targetFrequency
  else
    Binary32.le (Binary32.ofNat 100) targetFrequency &&
      Binary32.le targetFrequency (Binary32.ofNat 800)

/-- `BAP_PARAM_FREQUENCY` -/
def setFrequency (sys : BapSystem) (parameter value : List U8) : BapHandled :=
  let targetFrequency := floatOfNumber (strtodNumber value)
  if sys.frequencyValid targetFrequency = false then sys.refuse parameter (cText "invalid_range")
  else
    ⟨{ sys with nvs := sys.nvs.setAsicFrequency targetFrequency },
      [.settingsChanged, .sendMessage .ack parameter ((twoDecimals targetFrequency).take 31)]⟩

/-- The range check of the voltage -/
def voltageValid (sys : BapSystem) (targetVoltageMv : U16) : Bool :=
  if sys.deviceConfig.bonanza = true then
    deviceConfigAcceptsVoltage sys.deviceConfig targetVoltageMv
  else decide (700 ≤ targetVoltageMv.toNat ∧ targetVoltageMv.toNat ≤ 1400)

/-- `BAP_PARAM_ASIC_VOLTAGE` -/
def setAsicVoltage (sys : BapSystem) (parameter value : List U8) : BapHandled :=
  let targetVoltageMv := atoiU16 value
  if sys.voltageValid targetVoltageMv = false then sys.refuse parameter (cText "invalid_range")
  else
    ⟨{ sys with nvs := sys.nvs.setAsicVoltage targetVoltageMv },
      [.settingsChanged, .sendMessage .ack parameter (integerText targetVoltageMv.toNat)]⟩

/-- The messages and the restart that new WiFi settings bring -/
def restarting : List BapEffect :=
  [.sendMessage .sta (cText "status") (cText "restarting"), .prepareRestart]

/-- `BAP_PARAM_SSID` -/
def setSsid (sys : BapSystem) (parameter value : List U8) : BapHandled :=
  if sys.nvs.settings.wifiSsid.value = value then ⟨sys, [.sendMessage .ack parameter value]⟩
  else
    let nvs := sys.nvs.setWifiSsid value
    ⟨{ sys with nvs := nvs }, .sendMessage .ack parameter value ::
      (if nvs.settings.wifiPass.value = [] then [] else restarting)⟩

/-- `BAP_PARAM_PASSWORD` -/
def setPassword (sys : BapSystem) (parameter value : List U8) : BapHandled :=
  if sys.nvs.settings.wifiPass.value = value then
    ⟨sys, [.sendMessage .ack parameter (cText "password_already_set")]⟩
  else
    ⟨{ sys with nvs := sys.nvs.setWifiPass value },
      .sendMessage .ack parameter (cText "password_set") :: restarting⟩

/-- `BAP_PARAM_FAN_SPEED` -/
def setFanSpeed (sys : BapSystem) (parameter value : List U8) : BapHandled :=
  let fanSpeed := atoiU16 value
  if 100 < fanSpeed.toNat then sys.refuse parameter (cText "invalid_range")
  else ⟨{ sys with nvs := (sys.nvs.setAutoFanSpeed false).setManualFanSpeed fanSpeed }, []⟩

/-- `BAP_PARAM_AUTO_FAN_SPEED` -/
def setAutoFanSpeed (sys : BapSystem) (parameter value : List U8) : BapHandled :=
  let autoFanSpeed := atoiU16 value
  if 1 < autoFanSpeed.toNat then sys.refuse parameter (cText "invalid_range")
  else
    ⟨{ sys with nvs := sys.nvs.setAutoFanSpeed (autoFanSpeed != 0) },
      [.sendMessage .ack parameter (cText "auto_fan_speed_set")]⟩

/-- `BAP_PARAM_FOUND_BLOCK` -/
def setFoundBlock (sys : BapSystem) (parameter value : List U8) : BapHandled :=
  ⟨{ sys with blockFound := atoi value }, [.sendMessage .ack parameter value]⟩

/-- `BAP_PARAM_SHOW_NEW_BLOCK` -/
def setShowNewBlock (sys : BapSystem) (parameter value : List U8) : BapHandled :=
  ⟨{ sys with showNewBlock := atoi value != 0 }, [.sendMessage .ack parameter value]⟩

/-- `BAP_handle_settings` once its pointers are checked -/
def handleSettings (sys : BapSystem) (parameter value : List U8) : BapHandled :=
  let param := BapParameter.fromString parameter
  if sys.isConnected = false ∧ param ≠ .ssid ∧ param ≠ .password then
    sys.refuse parameter (cText "ap_mode_limited_settings")
  else
    match param with
    | .frequency => sys.setFrequency parameter value
    | .asicVoltage => sys.setAsicVoltage parameter value
    | .ssid => sys.setSsid parameter value
    | .password => sys.setPassword parameter value
    | .fanSpeed => sys.setFanSpeed parameter value
    | .autoFanSpeed => sys.setAutoFanSpeed parameter value
    | .foundBlock => sys.setFoundBlock parameter value
    | .showNewBlock => sys.setShowNewBlock parameter value
    | _ => sys.refuse parameter (cText "unsupported_parameter")

end BapSystem

/-- What `BAP_handle_settings` leaves of a `bap_global_state` that may be missing -/
structure BapAnswered where
  state : Option BapSystem
  effects : List BapEffect
deriving DecidableEq

/-- `BAP_handle_settings` -/
def bapHandleSettings (state : Option BapSystem) (parameter value : Option (List U8)) :
    BapAnswered :=
  match parameter, value with
  | some parameter, some value =>
      match state with
      | none => ⟨none, [.sendMessage .err parameter (cText "system_not_ready")]⟩
      | some sys =>
          let handled := sys.handleSettings parameter value
          ⟨some handled.system, handled.effects⟩
  | some parameter, none =>
      ⟨state, [.sendMessage .err parameter (cText "missing_parameter")]⟩
  | none, _ => ⟨state, [.sendMessage .err (cText "unknown") (cText "missing_parameter")]⟩

end EspMiner
