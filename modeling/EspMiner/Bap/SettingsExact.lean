import EspMiner.Bap.Settings

/-!
# When a setting takes effect as written

The exact number of a value and the range of the device say what a setting should do; the
handlers do it where no conversion moves the number into the range, and where they answer.  For a
handler that checks a range, that is when its check accepts the numbers in range and no others.
-/

namespace EspMiner

open Library

/-! ## What a setting should do -/

/-- The settings that tune the device -/
inductive TunableParameter where
  | frequency
  | asicVoltage
  | fanSpeed
  | autoFanSpeed
deriving DecidableEq, Repr

namespace TunableParameter

def parameter : TunableParameter → BapParameter
  | frequency => .frequency
  | asicVoltage => .asicVoltage
  | fanSpeed => .fanSpeed
  | autoFanSpeed => .autoFanSpeed

/-- The number that `atof` or `atoi` reads, before it is rounded or narrowed -/
def number (value : List U8) : TunableParameter → ExactNumber
  | frequency => strtodNumber value
  | asicVoltage | fanSpeed | autoFanSpeed => .finite (leadingInteger value)

/-- The least number that is accepted -/
def least (config : TuningConfig) : TunableParameter → Nat
  | frequency => if config.bonanza = true then 800 else 100
  | asicVoltage => if config.bonanza = true then 2100 else 700
  | fanSpeed | autoFanSpeed => 0

/-- The greatest number that is accepted -/
def greatest (config : TuningConfig) : TunableParameter → Nat
  | frequency => if config.bonanza = true then 2000 else 800
  | asicVoltage => if config.bonanza = true then 3200 else 1400
  | fanSpeed => 100
  | autoFanSpeed => 1

/-- The exact number is in the range of the device. -/
def InRange (config : TuningConfig) (value : List U8) (p : TunableParameter) : Prop :=
  ∃ q : ℚ, p.number value = .finite q ∧ p.least config ≤ q ∧ q ≤ p.greatest config

/-- The settings with the number stored -/
def stored (settings : TunedSettings) (value : List U8) : TunableParameter → TunedSettings
  | frequency => { settings with asicFrequency := ⟨floatOfNumber (strtodNumber value), true⟩ }
  | asicVoltage => { settings with asicVoltage := ⟨BitVec.ofInt 16 (leadingInteger value), true⟩ }
  | fanSpeed =>
      { settings with
        autoFanSpeed := ⟨false, true⟩
        manualFanSpeed := ⟨BitVec.ofInt 16 (leadingInteger value), true⟩ }
  | autoFanSpeed =>
      { settings with autoFanSpeed := ⟨decide (leadingInteger value ≠ 0), true⟩ }

/-- The update of a setting that a number changes -/
def changeOf {α : Type} [DecidableEq α] (setting : NvsSetting α) (x : α)
    (update : α → TunedUpdate) : List TunedUpdate :=
  if setting = ⟨x, true⟩ then [] else [update x]

/-- The updates of the settings that the number changes, in the order in which they are stored -/
def changes (settings : TunedSettings) (value : List U8) : TunableParameter → List TunedUpdate
  | frequency =>
      changeOf settings.asicFrequency (floatOfNumber (strtodNumber value)) .asicFrequency
  | asicVoltage =>
      changeOf settings.asicVoltage (BitVec.ofInt 16 (leadingInteger value)) .asicVoltage
  | fanSpeed =>
      changeOf settings.autoFanSpeed false .autoFanSpeed ++
        changeOf settings.manualFanSpeed (BitVec.ofInt 16 (leadingInteger value)) .manualFanSpeed
  | autoFanSpeed =>
      changeOf settings.autoFanSpeed (decide (leadingInteger value ≠ 0)) .autoFanSpeed

/-- The settings with the number stored, and what goes to flash behind what was queued before -/
def storedNvs (nvs : TunedNvs) (value : List U8) (p : TunableParameter) : TunedNvs :=
  ⟨p.stored nvs.settings value, nvs.saveQueue ++ p.changes nvs.settings value⟩

end TunableParameter

/-- The commands that are answered -/
def answersOf (effects : List BapEffect) : List BapCommand :=
  effects.filterMap fun effect =>
    match effect with
    | .sendMessage command _ _ => some command
    | .settingsChanged | .prepareRestart => none

/-- A setting stores its number, queues exactly the updates of the settings that it changes and is
acknowledged when the number is in the range; otherwise it changes nothing and is answered with an
error. -/
def TakesEffectAsWritten (sys : BapSystem) (p : TunableParameter) (value : List U8) : Prop :=
  ∃ after effects,
    bapHandleSettings (some sys) (some p.parameter.toText) (some value) = ⟨some after, effects⟩ ∧
      (p.InRange sys.deviceConfig value →
        after.nvs = p.storedNvs sys.nvs value ∧ answersOf effects = [.ack]) ∧
      (¬ p.InRange sys.deviceConfig value →
        after.nvs = sys.nvs ∧ answersOf effects = [.err])

/-- The number is kept by the conversions of its setting, or refused after them; and a frequency
is stored, which one next to the stored frequency is not. -/
def KeptByConversions (sys : BapSystem) (value : List U8) : TunableParameter → Prop
  | .frequency =>
      (TunableParameter.frequency.InRange sys.deviceConfig value →
        TunedNvs.keepsFloat sys.nvs.settings.asicFrequency (floatOfNumber (strtodNumber value)) =
            false ∨
          sys.nvs.settings.asicFrequency = ⟨floatOfNumber (strtodNumber value), true⟩) ∧
      (¬ TunableParameter.frequency.InRange sys.deviceConfig value →
        sys.frequencyValid (floatOfNumber (strtodNumber value)) = false)
  | .asicVoltage =>
      (0 ≤ leadingInteger value ∧ leadingInteger value < 2 ^ 16) ∨
        sys.voltageValid (BitVec.ofInt 16 (leadingInteger value)) = false
  | .fanSpeed => 100 < leadingInteger value % 2 ^ 16
  | .autoFanSpeed =>
      (0 ≤ leadingInteger value ∧ leadingInteger value < 2 ^ 16) ∨ 1 < leadingInteger value % 2 ^ 16

/-! ## The conversions -/

/-- The narrowed integer -/
theorem atoiU16_eq {value : List U8}
    (hfits : -2 ^ 31 ≤ leadingInteger value ∧ leadingInteger value < 2 ^ 31) :
    atoiU16 value = BitVec.ofInt 16 (leadingInteger value) := by
  obtain ⟨hlow, hhigh⟩ := hfits
  have hclamp : max (-2 ^ 31) (min (2 ^ 31 - 1) (leadingInteger value)) = leadingInteger value := by
    rw [min_eq_right (by omega), max_eq_right hlow]
  rw [atoiU16, atoi, hclamp]
  apply BitVec.eq_of_toNat_eq
  rw [BitVec.toNat_setWidth, BitVec.toNat_ofInt, BitVec.toNat_ofInt]
  omega

theorem toNat_narrowed (n : Int) : ((BitVec.ofInt 16 n).toNat : Int) = n % 2 ^ 16 := by
  rw [BitVec.toNat_ofInt]
  omega

theorem asicId_of_bonanza {config : TuningConfig} (h : config.bonanza = true) :
    config.asicId = .bzm := by
  rw [TuningConfig.bonanza, Bool.and_eq_true] at h
  exact eq_of_beq h.2

/-- A frequency in the range is accepted. -/
theorem frequencyValid_of_inRange {sys : BapSystem} {value : List U8}
    (h : TunableParameter.frequency.InRange sys.deviceConfig value) :
    sys.frequencyValid (floatOfNumber (strtodNumber value)) = true := by
  obtain ⟨q, hnumber, hlow, hhigh⟩ := h
  have hnumber' : strtodNumber value = .finite q := hnumber
  rw [hnumber', BapSystem.frequencyValid]
  rw [TunableParameter.least] at hlow
  rw [TunableParameter.greatest] at hhigh
  split
  · next hbonanza =>
    rw [if_pos hbonanza] at hlow hhigh
    obtain ⟨hleast, hgreatest⟩ := floatOfNumber_between (by decide) hlow hhigh
    rw [deviceConfigAcceptsFrequency, asicId_of_bonanza hbonanza,
      Binary32.le_zero_eq_false (by decide) (by decide) hleast, hleast, hgreatest]
    rfl
  · next hother =>
    rw [if_neg hother] at hlow hhigh
    obtain ⟨hleast, hgreatest⟩ := floatOfNumber_between (by decide) hlow hhigh
    rw [hleast, hgreatest]
    rfl

/-- The checks of a narrowed integer -/
theorem voltageValid_iff {sys : BapSystem} {voltage : U16} :
    sys.voltageValid voltage = true ↔
      TunableParameter.asicVoltage.least sys.deviceConfig ≤ voltage.toNat ∧
        voltage.toNat ≤ TunableParameter.asicVoltage.greatest sys.deviceConfig := by
  rw [BapSystem.voltageValid, TunableParameter.least, TunableParameter.greatest]
  split
  · next hbonanza =>
    rw [deviceConfigAcceptsVoltage, if_pos (asicId_of_bonanza hbonanza)]
    split
    · next hzero =>
      subst hzero
      decide
    · exact decide_eq_true_iff
  · exact decide_eq_true_iff

/-- An integer in the range is read as it is written. -/
theorem inRange_integer_iff {config : TuningConfig} {value : List U8} {p : TunableParameter}
    (hp : p ≠ .frequency) : p.InRange config value ↔
      (p.least config : Int) ≤ leadingInteger value ∧ leadingInteger value ≤ p.greatest config := by
  have hnumber : p.number value = .finite (leadingInteger value) := by
    cases p with
    | frequency => exact absurd rfl hp
    | asicVoltage => rfl
    | fanSpeed => rfl
    | autoFanSpeed => rfl
  rw [TunableParameter.InRange, hnumber]
  constructor
  · rintro ⟨q, hq, hlow, hhigh⟩
    cases hq
    exact ⟨by exact_mod_cast hlow, by exact_mod_cast hhigh⟩
  · rintro ⟨hlow, hhigh⟩
    exact ⟨_, rfl, by exact_mod_cast hlow, by exact_mod_cast hhigh⟩

/-! ## The handlers -/

section Handlers

variable {sys : BapSystem} {value : List U8}

theorem takesEffectAsWritten_iff {p : TunableParameter} :
    TakesEffectAsWritten sys p value ↔
      (p.InRange sys.deviceConfig value →
        (sys.handleSettings p.parameter.toText value).system.nvs = p.storedNvs sys.nvs value ∧
          answersOf (sys.handleSettings p.parameter.toText value).effects = [.ack]) ∧
      (¬ p.InRange sys.deviceConfig value →
        (sys.handleSettings p.parameter.toText value).system.nvs = sys.nvs ∧
          answersOf (sys.handleSettings p.parameter.toText value).effects = [.err]) := by
  constructor
  · rintro ⟨after, effects, hhandled, hwritten⟩
    cases hhandled
    exact hwritten
  · intro hwritten
    exact ⟨_, _, rfl, hwritten⟩

/-- A refused setting changes nothing and is answered with an error. -/
theorem refuse_written {parameter reason : List U8} :
    (sys.refuse parameter reason).system.nvs = sys.nvs ∧
      answersOf (sys.refuse parameter reason).effects = [.err] :=
  ⟨rfl, rfl⟩

theorem handleSettings_of_connected (hconnected : sys.isConnected = true)
    (param : BapParameter) :
    ¬ (sys.isConnected = false ∧ BapParameter.fromString param.toText ≠ .ssid ∧
      BapParameter.fromString param.toText ≠ .password) := by
  rw [hconnected]
  rintro ⟨h, -⟩
  cases h

theorem keeps_iff {α : Type} [DecidableEq α] {setting : NvsSetting α} {x : α} :
    TunedNvs.keeps setting x = true ↔ setting = ⟨x, true⟩ := by
  obtain ⟨stored, isSet⟩ := setting
  rw [TunedNvs.keeps, Bool.and_eq_true, decide_eq_true_iff, NvsSetting.mk.injEq]

/-- A finite number that is stored and set is kept. -/
theorem keepsFloat_self {x : Binary32} (hx : x.isFinite = true) :
    TunedNvs.keepsFloat ⟨x, true⟩ x = true := by
  rw [TunedNvs.keepsFloat, Binary32.sub_self_of_finite hx]
  exact congrArg (· && true) (by decide +kernel :
    Binary32.lt (Binary32.abs (Binary32.ofUnits 0)) float0001 = true)

/-- A setter that leaves a stored value alone queues exactly the change. -/
theorem save_eq {α : Type} [DecidableEq α] {nvs : TunedNvs} {setting : NvsSetting α} {x : α}
    {settings : TunedSettings} {update : α → TunedUpdate}
    (hsame : setting = ⟨x, true⟩ → settings = nvs.settings) :
    (if TunedNvs.keeps setting x = true then nvs else nvs.save settings (update x)) =
      ⟨settings, nvs.saveQueue ++ TunableParameter.changeOf setting x update⟩ := by
  rw [TunableParameter.changeOf]
  split
  · next hkeeps =>
    have hstored := keeps_iff.mp hkeeps
    rw [if_pos hstored, List.append_nil, hsame hstored]
  · next hkeeps =>
    rw [if_neg fun hstored => hkeeps (keeps_iff.mpr hstored)]
    rfl

/-- A frequency is stored unless one next to it is. -/
theorem setAsicFrequency_eq_iff {nvs : TunedNvs} {x : Binary32} (hx : x.isFinite = true) :
    nvs.setAsicFrequency x = ⟨{ nvs.settings with asicFrequency := ⟨x, true⟩ },
        nvs.saveQueue ++ TunableParameter.changeOf nvs.settings.asicFrequency x .asicFrequency⟩ ↔
      TunedNvs.keepsFloat nvs.settings.asicFrequency x = false ∨
        nvs.settings.asicFrequency = ⟨x, true⟩ := by
  rw [TunedNvs.setAsicFrequency, TunableParameter.changeOf]
  split
  · next hkeeps =>
    rw [hkeeps]
    constructor
    · intro h
      exact Or.inr (congrArg (fun nvs => nvs.settings.asicFrequency) h)
    · rintro (h | h)
      · cases h
      · rw [if_pos h, List.append_nil, ← h]
  · next hkeeps =>
    refine iff_of_true ?_ (Or.inl (Bool.not_eq_true _ ▸ hkeeps))
    have hchanged : nvs.settings.asicFrequency ≠ ⟨x, true⟩ := by
      intro hstored
      rw [hstored] at hkeeps
      exact hkeeps (keepsFloat_self hx)
    rw [if_neg hchanged]
    rfl

theorem setAsicVoltage_eq {nvs : TunedNvs} {voltage : U16} :
    nvs.setAsicVoltage voltage = ⟨{ nvs.settings with asicVoltage := ⟨voltage, true⟩ },
      nvs.saveQueue ++
        TunableParameter.changeOf nvs.settings.asicVoltage voltage .asicVoltage⟩ :=
  save_eq fun hstored => by rw [← hstored]

theorem setAutoFanSpeed_eq {nvs : TunedNvs} {auto : Bool} :
    nvs.setAutoFanSpeed auto = ⟨{ nvs.settings with autoFanSpeed := ⟨auto, true⟩ },
      nvs.saveQueue ++
        TunableParameter.changeOf nvs.settings.autoFanSpeed auto .autoFanSpeed⟩ :=
  save_eq fun hstored => by rw [← hstored]

/-- A handler that checks a range before it stores and acknowledges: it must accept no other
numbers, and store those. -/
theorem takesEffectAsWritten_checked {p : TunableParameter} {refused : Prop} [Decidable refused]
    {parameter reason : List U8} {accepted : BapHandled}
    (hhandle : sys.handleSettings p.parameter.toText value =
      if refused then sys.refuse parameter reason else accepted)
    (hanswer : answersOf accepted.effects = [.ack])
    (hrange : p.InRange sys.deviceConfig value → ¬ refused) :
    TakesEffectAsWritten sys p value ↔
      (p.InRange sys.deviceConfig value →
        accepted.system.nvs = p.storedNvs sys.nvs value) ∧
      (¬ p.InRange sys.deviceConfig value → refused) := by
  rw [takesEffectAsWritten_iff, hhandle]
  refine and_congr (forall_congr' fun hin => ?_) (forall_congr' fun hout => ?_)
  · rw [if_neg (hrange hin)]
    exact and_iff_left hanswer
  · split
    · next hrefused => exact iff_of_true refuse_written hrefused
    · next haccepted =>
      refine iff_of_false ?_ haccepted
      rintro ⟨-, h⟩
      rw [hanswer] at h
      cases h

theorem frequency_iff (hconnected : sys.isConnected = true) :
    TakesEffectAsWritten sys .frequency value ↔ KeptByConversions sys value .frequency := by
  have hhandle : sys.handleSettings TunableParameter.frequency.parameter.toText value =
      sys.setFrequency TunableParameter.frequency.parameter.toText value := by
    rw [BapSystem.handleSettings, if_neg (handleSettings_of_connected hconnected _)]
    rfl
  rw [BapSystem.setFrequency] at hhandle
  rw [takesEffectAsWritten_checked hhandle rfl fun hin => by
    rw [frequencyValid_of_inRange hin]
    decide]
  refine and_congr_left fun _ => forall_congr' fun hin => setAsicFrequency_eq_iff ?_
  obtain ⟨q, hnumber, hlow, hhigh⟩ := hin
  have hnumber' : strtodNumber value = .finite q := hnumber
  have hgreatest : TunableParameter.frequency.greatest sys.deviceConfig < 2 ^ 24 := by
    rw [TunableParameter.greatest]
    split <;> decide
  have hleast : TunableParameter.frequency.least sys.deviceConfig < 2 ^ 24 := by
    rw [TunableParameter.least]
    split <;> decide
  obtain ⟨habove, hbelow⟩ := floatOfNumber_between hgreatest hlow hhigh
  rw [hnumber']
  exact Binary32.isFinite_of_between hleast hgreatest habove hbelow

/-- What narrowing leaves of an integer -/
theorem narrowed_iff {least greatest : Nat} (hgreatest : greatest < 2 ^ 16) {n : Int} :
    (¬ ((least : Int) ≤ n ∧ n ≤ greatest) →
        ¬ (least ≤ (BitVec.ofInt 16 n).toNat ∧ (BitVec.ofInt 16 n).toNat ≤ greatest)) ↔
      (0 ≤ n ∧ n < 2 ^ 16) ∨ ¬ (least ≤ (BitVec.ofInt 16 n).toNat ∧
        (BitVec.ofInt 16 n).toNat ≤ greatest) := by
  have htoNat := toNat_narrowed n
  omega

theorem narrowed_of_range {least greatest : Nat} (hgreatest : greatest < 2 ^ 16) {n : Int}
    (h : (least : Int) ≤ n ∧ n ≤ greatest) :
    least ≤ (BitVec.ofInt 16 n).toNat ∧ (BitVec.ofInt 16 n).toNat ≤ greatest := by
  have htoNat := toNat_narrowed n
  omega

theorem asicVoltage_iff (hconnected : sys.isConnected = true)
    (hfits : -2 ^ 31 ≤ leadingInteger value ∧ leadingInteger value < 2 ^ 31) :
    TakesEffectAsWritten sys .asicVoltage value ↔ KeptByConversions sys value .asicVoltage := by
  have hhandle : sys.handleSettings TunableParameter.asicVoltage.parameter.toText value =
      sys.setAsicVoltage TunableParameter.asicVoltage.parameter.toText value := by
    rw [BapSystem.handleSettings, if_neg (handleSettings_of_connected hconnected _)]
    rfl
  have hgreatest : TunableParameter.asicVoltage.greatest sys.deviceConfig < 2 ^ 16 := by
    rw [TunableParameter.greatest]
    split <;> decide
  have hrefused : sys.voltageValid (BitVec.ofInt 16 (leadingInteger value)) = false ↔ _ :=
    Bool.not_eq_true _ ▸ not_congr voltageValid_iff
  rw [BapSystem.setAsicVoltage, atoiU16_eq hfits] at hhandle
  rw [takesEffectAsWritten_checked hhandle rfl, KeptByConversions,
    inRange_integer_iff (by decide), hrefused, narrowed_iff hgreatest]
  · exact and_iff_right fun _ => setAsicVoltage_eq
  · intro hin
    rw [hrefused, not_not]
    exact narrowed_of_range hgreatest ((inRange_integer_iff (by decide)).mp hin)

theorem autoFanSpeed_iff (hconnected : sys.isConnected = true)
    (hfits : -2 ^ 31 ≤ leadingInteger value ∧ leadingInteger value < 2 ^ 31) :
    TakesEffectAsWritten sys .autoFanSpeed value ↔ KeptByConversions sys value .autoFanSpeed := by
  have hhandle : sys.handleSettings TunableParameter.autoFanSpeed.parameter.toText value =
      sys.setAutoFanSpeed TunableParameter.autoFanSpeed.parameter.toText value := by
    rw [BapSystem.handleSettings, if_neg (handleSettings_of_connected hconnected _)]
    rfl
  have htoNat := toNat_narrowed (leadingInteger value)
  have hleast : TunableParameter.autoFanSpeed.least sys.deviceConfig = 0 := rfl
  have hgreatest : TunableParameter.autoFanSpeed.greatest sys.deviceConfig = 1 := rfl
  rw [BapSystem.setAutoFanSpeed, atoiU16_eq hfits] at hhandle
  rw [takesEffectAsWritten_checked hhandle rfl, KeptByConversions,
    inRange_integer_iff (by decide), hleast, hgreatest]
  · have hstored : (0 : Nat) ≤ leadingInteger value ∧ leadingInteger value ≤ (1 : Nat) →
        (BitVec.ofInt 16 (leadingInteger value) != 0) = decide (leadingInteger value ≠ 0) := by
      rintro ⟨hlow, hhigh⟩
      obtain hn | hn : leadingInteger value = 0 ∨ leadingInteger value = 1 := by omega
      · rw [hn]
        rfl
      · rw [hn]
        rfl
    rw [and_iff_right fun hin => by rw [setAutoFanSpeed_eq, hstored hin]; rfl]
    omega
  · intro hin
    have := (inRange_integer_iff (by decide)).mp hin
    rw [hleast, hgreatest] at this
    omega

/-- The fan speed is never acknowledged. -/
theorem fanSpeed_iff (hconnected : sys.isConnected = true)
    (hfits : -2 ^ 31 ≤ leadingInteger value ∧ leadingInteger value < 2 ^ 31) :
    TakesEffectAsWritten sys .fanSpeed value ↔ KeptByConversions sys value .fanSpeed := by
  have hhandle : sys.handleSettings TunableParameter.fanSpeed.parameter.toText value =
      sys.setFanSpeed TunableParameter.fanSpeed.parameter.toText value := by
    rw [BapSystem.handleSettings, if_neg (handleSettings_of_connected hconnected _)]
    rfl
  have htoNat := toNat_narrowed (leadingInteger value)
  have hleast : TunableParameter.fanSpeed.least sys.deviceConfig = 0 := rfl
  have hgreatest : TunableParameter.fanSpeed.greatest sys.deviceConfig = 100 := rfl
  rw [BapSystem.setFanSpeed, atoiU16_eq hfits] at hhandle
  rw [takesEffectAsWritten_iff, hhandle, KeptByConversions, inRange_integer_iff (by decide),
    hleast, hgreatest]
  split
  · next hrefused =>
    refine iff_of_true ⟨fun hin => ?_, fun _ => refuse_written⟩ (by omega)
    omega
  · next haccepted =>
    refine iff_of_false ?_ (by omega)
    rintro ⟨hin, hout⟩
    by_cases hrange : ((0 : Nat) : Int) ≤ leadingInteger value ∧ leadingInteger value ≤ (100 : Nat)
    · cases (hin hrange).2
    · cases (hout hrange).2

end Handlers

/-- **When a setting takes effect as written.**  While the device is connected this is so for the
numbers that the conversions keep, and for the others where they are refused; the fan speed is
never acknowledged. -/
theorem setting_takesEffectAsWritten_iff (sys : BapSystem) (hconnected : sys.isConnected = true)
    (p : TunableParameter) (value : List U8)
    (hfits : -2 ^ 31 ≤ leadingInteger value ∧ leadingInteger value < 2 ^ 31) :
    TakesEffectAsWritten sys p value ↔ KeptByConversions sys value p := by
  cases p with
  | frequency => exact frequency_iff hconnected
  | asicVoltage => exact asicVoltage_iff hconnected hfits
  | fanSpeed => exact fanSpeed_iff hconnected hfits
  | autoFanSpeed => exact autoFanSpeed_iff hconnected hfits

/-- A connected device with a Bitmain chip and no setting stored -/
def untunedSystem : BapSystem where
  isConnected := true
  deviceConfig := ⟨false, .bm1370, true, 525, true, 1150⟩
  blockFound := 0
  showNewBlock := false
  nvs :=
    { settings := ⟨⟨Binary32.ofNat 525, false⟩, ⟨1150, false⟩, ⟨true, false⟩, ⟨100, false⟩,
        ⟨[], false⟩, ⟨[], false⟩⟩
      saveQueue := [] }

theorem setting_takesEffectAsWritten_iff_auto :
    TakesEffectAsWritten untunedSystem .autoFanSpeed (cText "1") := by
  refine (setting_takesEffectAsWritten_iff untunedSystem rfl .autoFanSpeed (cText "1")
    (by decide)).mpr (Or.inl ?_)
  decide

/-- 66536 mV is stored as 1000 mV. -/
theorem voltage_wraps :
    (untunedSystem.handleSettings (cText "asic_voltage")
        (cText "66536")).system.nvs.settings.asicVoltage = ⟨1000, true⟩ ∧
      ¬ TakesEffectAsWritten untunedSystem .asicVoltage (cText "66536") := by
  have hvalue : leadingInteger (cText "66536") = 66536 := by decide
  have hout : ¬ TunableParameter.asicVoltage.InRange untunedSystem.deviceConfig
      (cText "66536") := by
    rw [inRange_integer_iff (by decide), hvalue]
    decide
  refine ⟨by decide, ?_⟩
  rw [takesEffectAsWritten_iff]
  rintro ⟨-, h⟩
  have hanswer := (h hout).2
  revert hanswer
  decide

end EspMiner
