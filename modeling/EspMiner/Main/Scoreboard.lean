import EspMiner.Asic.Job
import EspMiner.Library.Binary64
import EspMiner.Library.Run
import Mathlib.Logic.Function.Basic

/-!
# The scoreboard

`main/tasks/scoreboard.c` with the NVS slots that keep its entries as text.
-/

namespace EspMiner

open Library

def MAX_SCOREBOARD : Nat := 20

/-- The arguments of `scoreboard_add`; the difficulty is finite. -/
structure ScoreboardResult where
  difficulty : Binary64
  jobId : List U8
  extranonce2 : List U8
  ntime : U32
  nonce : U32
  versionBits : U32
deriving DecidableEq

/-- `ScoreboardEntry`, its texts without their terminators. -/
structure ScoreboardEntry where
  difficulty : Binary64
  jobId : List U8
  extranonce2 : List U8
  ntime : U32
  nonce : U32
  versionBits : U32
  nvsEntry : List U8
deriving DecidableEq

/-! ## The text of an entry -/

/-- `"%.1f;%s;%s;%lu;%lu;%lu"` -/
def entryText (difficulty : DecimalFraction) (jobId extranonce2 : List U8)
    (ntime nonce versionBits : U32) : List U8 :=
  fixedText difficulty.negative difficulty.places difficulty.digits ++
    (59#8 :: (jobId ++ 59#8 :: (extranonce2 ++ 59#8 :: (decimalText ntime.toNat ++
      59#8 :: (decimalText nonce.toNat ++ 59#8 :: decimalText versionBits.toNat)))))

/-- The text of a result, before it is cut to the size of `nvs_entry`. -/
def ScoreboardResult.text (result : ScoreboardResult) : List U8 :=
  entryText (result.difficulty.toFraction 1) (result.jobId.take 31) (result.extranonce2.take 31)
    result.ntime result.nonce result.versionBits

/-- `new_entry` -/
def ScoreboardResult.newEntry (result : ScoreboardResult) : ScoreboardEntry where
  difficulty := result.difficulty
  jobId := result.jobId.take 31
  extranonce2 := result.extranonce2.take 31
  ntime := result.ntime
  nonce := result.nonce
  versionBits := result.versionBits
  nvsEntry := result.text.take 127

/-- A literal character of a `sscanf` format. -/
def scanByte (byte : U8) : List U8 → Option (List U8)
  | [] => none
  | first :: rest => if first = byte then some rest else none

/-- `%31[^;]` -/
def scanField (text : List U8) : Option (List U8 × List U8) :=
  let field := (text.takeWhile fun byte => byte ≠ 59#8).take 31
  if field = [] then none else some (field, text.drop field.length)

/-- `%lu` -/
def scanLu (text : List U8) : Option (U32 × List U8) :=
  let signed := splitSign (text.dropWhile isSpace)
  if signed.2.takeWhile isDigit = [] then none
  else some (strtoul text, signed.2.dropWhile isDigit)

/-- `sscanf` of an entry, with all six conversions done. -/
def scanEntry (text : List U8) : Option ScoreboardEntry := do
  let (difficulty, rest) ← scanFixed text
  let rest ← scanByte 59#8 rest
  let (jobId, rest) ← scanField rest
  let rest ← scanByte 59#8 rest
  let (extranonce2, rest) ← scanField rest
  let rest ← scanByte 59#8 rest
  let (ntime, rest) ← scanLu rest
  let rest ← scanByte 59#8 rest
  let (nonce, rest) ← scanLu rest
  let rest ← scanByte 59#8 rest
  let (versionBits, _) ← scanLu rest
  return {
    difficulty := Binary64.ofFraction difficulty
    jobId := jobId
    extranonce2 := extranonce2
    ntime := ntime
    nonce := nonce
    versionBits := versionBits
    nvsEntry := text.take 127 }

/-! ## The board -/

/-- `Scoreboard`, and the `NVS_CONFIG_SCOREBOARD` slots; an absent slot is empty. -/
structure Scoreboard where
  count : Nat
  entries : Nat → ScoreboardEntry
  slots : Nat → List U8

namespace Scoreboard

/-- Store an entry in the board and, by `scoreboard_save`, in its slot. -/
def put (s : Scoreboard) (i : Nat) (entry : ScoreboardEntry) : Scoreboard :=
  { s with
    entries := Function.update s.entries i entry
    slots := Function.update s.slots i entry.nvsEntry }

/-- One turn of the loop of `scoreboard_add`, which does nothing once it has ended. -/
def shiftOnce (difficulty : Binary64) : Nat × Scoreboard → Nat × Scoreboard
  | (0, s) => (0, s)
  | (i + 1, s) =>
      if (s.entries i).difficulty < difficulty then (i, s.put (i + 1) (s.entries i))
      else (i + 1, s)

/-- Where the loop starts. -/
def lastPlaceOf (s : Scoreboard) : Nat :=
  if s.count < MAX_SCOREBOARD then s.count else MAX_SCOREBOARD - 1

/-- `scoreboard_add` -/
def add (s : Scoreboard) (result : ScoreboardResult) : Scoreboard :=
  let i := s.lastPlaceOf
  if s.count = MAX_SCOREBOARD ∧ result.difficulty ≤ (s.entries i).difficulty then s
  else
    let shifted := (shiftOnce result.difficulty)^[i] (i, s)
    { shifted.2.put shifted.1 result.newEntry with
      count := if s.count < MAX_SCOREBOARD then s.count + 1 else s.count }

/-- The loop of `scoreboard_init`, with this many slots to read. -/
def load (slots : Nat → List U8) : Nat → Nat → Scoreboard → Scoreboard
  | 0, _, s => s
  | left + 1, i, s =>
      if slots i = [] then s
      else
        match scanEntry (slots i) with
        | some entry =>
            load slots left (i + 1)
              { s with
                entries := Function.update s.entries s.count entry
                count := s.count + 1 }
        | none => load slots left (i + 1) s

def blankEntry : ScoreboardEntry :=
  ⟨Binary64.ofFraction ⟨false, 0, 0⟩, [], [], 0, 0, 0, []⟩

/-- `scoreboard_init` -/
def init (slots : Nat → List U8) : Scoreboard :=
  load slots MAX_SCOREBOARD 0 ⟨0, fun _ => blankEntry, slots⟩

inductive Input where
  | add (result : ScoreboardResult)
  | restart
  /-- A restart within `scoreboard_add`, or after it while slot writes of it are still
  queued: those of this many turns of its loop have reached flash. -/
  | cut (result : ScoreboardResult) (turns : Nat)

def step (s : Scoreboard) : Input → Scoreboard
  | .add result => s.add result
  | .restart => init s.slots
  | .cut result turns =>
      init ((shiftOnce result.difficulty)^[turns] (s.lastPlaceOf, s)).2.slots

def initial : Scoreboard := ⟨0, fun _ => blankEntry, fun _ => []⟩

/-- The entries that the board holds. -/
def held (s : Scoreboard) : List ScoreboardEntry := (List.range s.count).map s.entries

/-- The results that were added, in their order. -/
def results (inputs : List Input) : List ScoreboardResult :=
  inputs.filterMap fun
    | .add result => some result
    | _ => none

end Scoreboard

end EspMiner
