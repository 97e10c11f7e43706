import EspMiner.Asic.Job
import EspMiner.Library.Json
import EspMiner.Stratum.Midstate
import EspMiner.Stratum.MiningJob

/-!
# Stratum V1 messages

`components/stratum/sv1_protocol.c`: what `STRATUM_V1_parse` makes of a received
line.  The text of a line is read by cJSON; a line is its length and the tree
that cJSON gives, if it gives one.  A parser that returns false is `none`, and
the job that a `mining.notify` writes is returned beside the message.
-/

namespace EspMiner

open Library

def MAX_EXTRANONCE_2_LEN : Int := 32
def MAX_POOL_MESSAGE_LEN : Nat := 256
def MAX_ERROR_MSG_LEN : Nat := 256
def MAX_JOB_ID_LEN : Nat := 32
def STRATUM_V1_MAX_JSON_LINE_SIZE : Nat := 16384
def BITCOIN_GENESIS_NTIME : Nat := 1231006505
def BIP320_VERSION_ROLLING_MASK : U32 := 0x1fffe000#32
def INT_MAX : Int := 2147483647

/-- `stratum_method` -/
inductive StratumMethod where
  | methodUnknown
  | miningNotify
  | miningSetDifficulty
  | miningSetVersionMask
  | miningSetExtranonce
  | miningPing
  | stratumResult
  | stratumResultSubscribe
  | stratumResultConfigure
  | clientReconnect
  | clientShowMessage
  | clientGetVersion
deriving DecidableEq, Repr

/-- `StratumApiV1Message`, without the pointer to the job.  The difficulty is
the bit pattern of a `double`. -/
structure StratumApiV1Message where
  extranonceStr : Option (List U8)
  extranonce2Len : Int
  messageId : Int
  method : StratumMethod
  newDifficulty : U64
  versionMask : U32
  responseSuccess : Bool
  errorStr : Option (List U8)
  showMessage : Option (List U8)
  versionString : Option (List U8)

/-- What `STRATUM_V1_reset_message` leaves. -/
def StratumApiV1Message.reset : StratumApiV1Message where
  extranonceStr := none
  extranonce2Len := 0
  messageId := -1
  method := .methodUnknown
  newDifficulty := 0
  versionMask := 0
  responseSuccess := false
  errorStr := none
  showMessage := none
  versionString := none

/-- A received line and what the client meets as it handles it: the clock, the
coinbase buffers of the slot it parses into, whether `strndup` finds memory, and
whether the response times know the request that the line answers. -/
structure StratumV1Line where
  length : Nat
  json : Option Json
  now : Int
  buffers : CoinbaseBuffers
  allocates : Bool
  timed : Bool

/-! ## Fields -/

/-- `is_hex_string` -/
def isHexString (value : List U8) (minimumLength maximumLength : Nat) (requireEvenLength : Bool) :
    Bool :=
  decide (minimumLength ≤ value.length) && decide (value.length ≤ maximumLength) &&
    (!requireEvenLength || decide (value.length % 2 = 0)) &&
    value.all fun digit => (hexVal digit).isSome

theorem hexVal_hexTable (nibble : Nat) (h : nibble < 16) :
    hexVal (hexTable nibble) = some nibble := by
  have hall : ∀ n < 16, hexVal (hexTable n) = some n := by decide
  exact hall nibble h

/-- A digit ends neither a line nor a string. -/
theorem hexTable_ne (nibble : Nat) (h : nibble < 16) :
    hexTable nibble ≠ 10#8 ∧ hexTable nibble ≠ 0#8 := by
  have hall : ∀ n < 16, hexTable n ≠ 10#8 ∧ hexTable n ≠ 0#8 := by decide
  exact hall nibble h

/-- `strtoul` in base 16, of hex digits. -/
def hexValue (text : List U8) : U32 :=
  BitVec.ofNat 32 (text.foldl (fun value digit => 16 * value + (hexVal digit).getD 0) 0)

/-- The bytes of a text of hex digits, as `hex2bin` writes them over an array. -/
def hexBytes (count : Nat) (text : List U8) : List U8 := hex2bin count text (List.replicate count 0)

/-- An array of 32 bytes from a list. -/
def bytes32 (bytes : List U8) : Vector U8 32 := Vector.ofFn fun i => bytes.getD i 0

/-- `json_number_to_int` -/
def jsonNumberToInt (number : Option Json) : Option Int := do
  let value ← (← number.bind Json.valuedouble) |> doubleToInt
  guard (-INT_MAX - 1 ≤ value ∧ value ≤ INT_MAX)
  some value

/-- `replace_bounded_string`: `strndup` of the source. -/
def replaceBoundedString (allocates : Bool) (source : List U8) (maximumLength : Nat) :
    Option (List U8) :=
  if allocates then some (source.take maximumLength) else none

/-- The items of `params`, if it is an array. -/
def arrayParams (json : Json) : Option (List Json) :=
  (json.getObjectItem "params").bind Json.arrayItems

/-- The text at a position of the parameters. -/
def stringParam (params : List Json) (index : Nat) : Option (List U8) :=
  (params[index]?).bind Json.valuestring

/-- `parse_method` -/
def parseMethod (methodJson : Option Json) : StratumMethod :=
  match methodJson.bind Json.valuestring with
  | none => .stratumResult
  | some method =>
      if method = cText "mining.notify" then .miningNotify
      else if method = cText "mining.set_difficulty" then .miningSetDifficulty
      else if method = cText "mining.set_extranonce" then .miningSetExtranonce
      else if method = cText "mining.set_version_mask" then .miningSetVersionMask
      else if method = cText "client.reconnect" then .clientReconnect
      else if method = cText "mining.ping" then .miningPing
      else if method = cText "client.show_message" then .clientShowMessage
      else if method = cText "client.get_version" then .clientGetVersion
      else .methodUnknown

/-! ## Requests of the pool -/

/-- The parameters of a `mining.notify` that passed every check. -/
structure MiningNotify where
  jobId : List U8
  prevHash : List U8
  coinbase1 : List U8
  coinbase2 : List U8
  merkleBranch : List (List U8)
  version : U32
  nbits : U32
  ntime : U32
  cleanJobs : Bool

/-- The clean flag: of ten parameters, the last is taken when the ninth is no
boolean. -/
def cleanJobsItem (params : List Json) : Option Bool :=
  let item := (params[8]?).bind Json.boolValue
  if params.length = 10 ∧ item = none then (params[9]?).bind Json.boolValue else item

/-- `Check future bound if NTP synced` -/
def ntimeTooFar (ntime : U32) (now : Int) : Bool :=
  decide (1704067200 < now) && decide (now + 7200 < ntime.toNat)

/-- The checks of `parse_mining_notify`, all of which come before the job is
touched. -/
def readMiningNotify (json : Json) (now : Int) (buffers : CoinbaseBuffers) :
    Option MiningNotify := do
  let params ← arrayParams json
  guard (params.length = 9 ∨ params.length = 10)
  let jobId ← stringParam params 0
  let prevHash ← stringParam params 1
  let coinbase1 ← stringParam params 2
  let coinbase2 ← stringParam params 3
  let version ← stringParam params 5
  let nbits ← stringParam params 6
  let ntime ← stringParam params 7
  let cleanJobs ← cleanJobsItem params
  guard (0 < jobId.length ∧ jobId.length < MAX_JOB_ID_LEN)
  guard (isHexString prevHash 64 64 true)
  guard (isHexString coinbase1 2 (MAX_COINBASE_PREFIX_LEN * 2) true)
  guard (isHexString coinbase2 2 (MAX_COINBASE_SUFFIX_LEN * 2) true)
  guard (isHexString version 8 8 true)
  guard (isHexString nbits 8 8 true)
  guard (isHexString ntime 8 8 true)
  let branches ← (params[4]?).bind Json.arrayItems
  guard (branches.length ≤ MAX_MERKLE_BRANCHES)
  let merkleBranch ← branches.mapM Json.valuestring
  guard (merkleBranch.all fun branch => isHexString branch 64 64 true)
  guard (BITCOIN_GENESIS_NTIME ≤ (hexValue ntime).toNat)
  guard (ntimeTooFar (hexValue ntime) now = false)
  guard (buffers.prefixAllocated = true ∧ buffers.suffixAllocated = true ∧
    coinbase1.length / 2 ≤ buffers.prefixCapacity ∧ coinbase2.length / 2 ≤ buffers.suffixCapacity)
  some ⟨jobId, prevHash, coinbase1, coinbase2, merkleBranch, hexValue version, hexValue nbits,
    hexValue ntime, cleanJobs⟩

/-- The job that `parse_mining_notify` leaves: everything else was reset, and
the digits were checked, so that `hex2bin` overwrites every byte it is given. -/
def MiningNotify.job (notify : MiningNotify) : MinerJob :=
  { MinerJob.zero with
    type := .v1
    jobId := strcpyZeroed 32 notify.jobId
    prevHash := bytes32 (reverseEndiannessPerWord (hexBytes 32 notify.prevHash))
    coinbasePrefix := hexBytes (notify.coinbase1.length / 2) notify.coinbase1
    coinbasePrefixLen := BitVec.ofNat 16 (notify.coinbase1.length / 2)
    coinbaseSuffix := hexBytes (notify.coinbase2.length / 2) notify.coinbase2
    coinbaseSuffixLen := BitVec.ofNat 16 (notify.coinbase2.length / 2)
    merklePathCount := BitVec.ofNat 8 notify.merkleBranch.length
    merklePath := Vector.ofFn fun i => bytes32 (hexBytes 32 (notify.merkleBranch.getD i []))
    version := notify.version
    nbits := notify.nbits
    ntime := notify.ntime
    cleanJobs := notify.cleanJobs }

/-- `parse_mining_notify`: its answer and the job. -/
def parseMiningNotify (json : Json) (now : Int) (buffers : CoinbaseBuffers) (job : MinerJob) :
    Bool × MinerJob :=
  match readMiningNotify json now buffers with
  | none => (false, job)
  | some notify => (true, notify.job)

/-- `isnan || isinf || < 0.0001 || > 4294967295.0`, on the bits of a double: the
negative values, the infinities and the NaNs have larger bits than the bound. -/
def poolDifficultyOutOfRange (difficulty : U64) : Bool :=
  decide (difficulty < 0x3f1a36e2eb1c432d#64) || decide (0x41efffffffe00000#64 < difficulty)

/-- `parse_set_difficulty` -/
def parseSetDifficulty (json : Json) (message : StratumApiV1Message) :
    Option StratumApiV1Message := do
  let params ← arrayParams json
  let difficulty ← (params[0]?).bind Json.valuedouble
  guard (poolDifficultyOutOfRange difficulty = false)
  some { message with newDifficulty := difficulty }

/-- A mask that the pool sends as eight hex digits, within the allowed range. -/
def versionMaskText (mask : Option (List U8)) : Option U32 := do
  let mask ← mask
  guard (isHexString mask 8 8 true)
  some (hexValue mask &&& BIP320_VERSION_ROLLING_MASK)

/-- `parse_set_version_mask` -/
def parseSetVersionMask (json : Json) (message : StratumApiV1Message) :
    Option StratumApiV1Message := do
  let params ← arrayParams json
  let mask ← versionMaskText (stringParam params 0)
  some { message with versionMask := mask }

/-- The extranonce1 text and the extranonce2 length, as `mining.set_extranonce`
and the subscription send them. -/
def withExtranonceData (message : StratumApiV1Message) (allocates : Bool)
    (extranonce1 extranonce2Size : Option Json) : Option StratumApiV1Message := do
  let extranonce1 ← extranonce1.bind Json.valuestring
  let extranonce2Len ← jsonNumberToInt extranonce2Size
  guard (isHexString extranonce1 0 64 true)
  guard (0 ≤ extranonce2Len ∧ extranonce2Len ≤ MAX_EXTRANONCE_2_LEN)
  let extranonceStr ← replaceBoundedString allocates extranonce1 64
  some { message with
    extranonceStr := some extranonceStr
    extranonce2Len := extranonce2Len }

/-- `parse_set_extranonce` -/
def parseSetExtranonce (json : Json) (allocates : Bool) (message : StratumApiV1Message) :
    Option StratumApiV1Message := do
  let params ← arrayParams json
  guard (2 ≤ params.length)
  withExtranonceData message allocates params[0]? params[1]?

/-- `parse_show_message` -/
def parseShowMessage (json : Json) (allocates : Bool) (message : StratumApiV1Message) :
    Option StratumApiV1Message := do
  let params ← arrayParams json
  let text ← stringParam params 0
  let showMessage ← replaceBoundedString allocates text MAX_POOL_MESSAGE_LEN
  some { message with showMessage := some showMessage }

/-- `parse_get_version` -/
def parseGetVersion (json : Json) (allocates : Bool) (message : StratumApiV1Message) :
    Option StratumApiV1Message := do
  let _ ← arrayParams json
  let versionString ← replaceBoundedString allocates (cText "unknown") 7
  some { message with versionString := some versionString }

/-! ## Responses of the pool -/

/-- `parse_subscribe_result` -/
def parseSubscribeResult (items : List Json) (allocates : Bool) (message : StratumApiV1Message) :
    Option StratumApiV1Message := do
  let message ← withExtranonceData message allocates items[1]? items[2]?
  some { message with responseSuccess := true }

/-- `parse_configure_result`, with the value of `version-rolling`. -/
def parseConfigureResult (result versionRolling : Json) (message : StratumApiV1Message) :
    Option StratumApiV1Message :=
  match versionRolling with
  | .bool false | .string _ => some { message with responseSuccess := false }
  | .bool true => do
      let mask ← versionMaskText
        ((result.getObjectItem "version-rolling.mask").bind Json.valuestring)
      some { message with versionMask := mask, responseSuccess := true }
  | _ => none

/-- The text of an error: the second item of an array, a string, or the
`message` of an object. -/
def errorText : Option Json → Option (List U8)
  | some (.array items) => stringParam items 1
  | some (.string text) => some text
  | some (.object members) =>
      ((Json.object members).getObjectItem "message").bind Json.valuestring
  | _ => none

/-- A response that failed. -/
def failedResult (allocates : Bool) (text : List U8) (message : StratumApiV1Message) :
    Option StratumApiV1Message := do
  let errorStr ← replaceBoundedString allocates text MAX_ERROR_MSG_LEN
  some { message with responseSuccess := false, errorStr := some errorStr }

/-- `parse_result` -/
def parseResult (json : Json) (allocates : Bool) (message : StratumApiV1Message) :
    Option StratumApiV1Message :=
  let result := json.getObjectItem "result"
  let error := json.getObjectItem "error"
  let reason := ((json.getObjectItem "reject-reason").bind Json.valuestring).getD (cText "unknown")
  let message := { message with method := .stratumResult }
  match errorText error, result, error with
  | some text, _, _ => failedResult allocates text message
  | none, none, some .null | none, some .null, some .null => none
  | none, none, some _ | none, some .null, some _ => failedResult allocates reason message
  | none, some (.bool true), _ => some { message with responseSuccess := true }
  | none, some (.bool false), _ => failedResult allocates reason message
  | none, some (.array items), _ =>
      if 3 ≤ items.length then
        parseSubscribeResult items allocates { message with method := .stratumResultSubscribe }
      else none
  | none, some (.object members), _ =>
      match (Json.object members).getObjectItem "version-rolling" with
      | some versionRolling => parseConfigureResult (.object members) versionRolling
          { message with method := .stratumResultConfigure }
      | none => none
  | none, _, _ => none

/-! ## Lines -/

/-- `parse_message_id` -/
def parseMessageId (json : Json) (message : StratumApiV1Message) : Option StratumApiV1Message :=
  match json.getObjectItem "id" with
  | none | some .null => some message
  | some (.number value) => do
      let id ← doubleToInt value
      guard (0 ≤ id ∧ id ≤ INT_MAX)
      some { message with messageId := id }
  | some _ => none

/-- The envelope of a line: an object with a valid id, and a method that is a
text if there is one. -/
def parseEnvelope (line : StratumV1Line) : Option (Json × StratumApiV1Message) := do
  guard (line.length ≤ STRATUM_V1_MAX_JSON_LINE_SIZE)
  let json ← line.json
  guard (json.isObject = true)
  let message ← parseMessageId json .reset
  let methodJson := json.getObjectItem "method"
  guard (methodJson = none ∨ (methodJson.bind Json.valuestring).isSome)
  some (json, { message with method := parseMethod methodJson })

/-- `STRATUM_V1_parse`: the message, if the line was parsed, and the job. -/
def stratumV1Parse (line : StratumV1Line) (job : MinerJob) :
    Option StratumApiV1Message × MinerJob :=
  match parseEnvelope line with
  | none => (none, job)
  | some (json, message) =>
      match message.method with
      | .stratumResult => (parseResult json line.allocates message, job)
      | .miningNotify =>
          match parseMiningNotify json line.now line.buffers job with
          | (true, job) => (some message, job)
          | (false, job) => (none, job)
      | .miningSetDifficulty => (parseSetDifficulty json message, job)
      | .miningSetVersionMask => (parseSetVersionMask json message, job)
      | .miningSetExtranonce => (parseSetExtranonce json line.allocates message, job)
      | .clientReconnect | .miningPing => ((arrayParams json).map fun _ => message, job)
      | .clientShowMessage => (parseShowMessage json line.allocates message, job)
      | .clientGetVersion => (parseGetVersion json line.allocates message, job)
      | .stratumResultSubscribe | .stratumResultConfigure | .methodUnknown => (none, job)

end EspMiner
