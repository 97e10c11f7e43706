import EspMiner.Library.Sha256
import EspMiner.Stratum.Midstate

/-!
# The midstate is SHA-256's

`midstate_sha256_bin` computes the hash value behind one block, in the bytes that
a digest has.
-/

namespace EspMiner

open Library

/-! ### Words -/

theorem rotateRight_eq (value : U32) {shift : Nat} (h : shift < 32) :
    value.rotateRight shift = sha256Rotr value shift := by
  rw [sha256Rotr, BitVec.rotateRight_def, Nat.mod_eq_of_lt h]

theorem smallSigma0_eq (x : U32) :
    Sha256.smallSigma0 x = sha256Rotr x 7 ^^^ sha256Rotr x 18 ^^^ x >>> 3 := by
  rw [Sha256.smallSigma0, rotateRight_eq x (by decide), rotateRight_eq x (by decide)]

theorem smallSigma1_eq (x : U32) :
    Sha256.smallSigma1 x = sha256Rotr x 17 ^^^ sha256Rotr x 19 ^^^ x >>> 10 := by
  rw [Sha256.smallSigma1, rotateRight_eq x (by decide), rotateRight_eq x (by decide)]

theorem bigSigma0_eq (x : U32) :
    Sha256.bigSigma0 x = sha256Rotr x 2 ^^^ sha256Rotr x 13 ^^^ sha256Rotr x 22 := by
  rw [Sha256.bigSigma0, rotateRight_eq x (by decide), rotateRight_eq x (by decide),
    rotateRight_eq x (by decide)]

theorem bigSigma1_eq (x : U32) :
    Sha256.bigSigma1 x = sha256Rotr x 6 ^^^ sha256Rotr x 11 ^^^ sha256Rotr x 25 := by
  rw [Sha256.bigSigma1, rotateRight_eq x (by decide), rotateRight_eq x (by decide),
    rotateRight_eq x (by decide)]

/-- Four bytes put together with shifts are their big-endian word. -/
theorem shifts_eq_append (a b c d : U8) :
    (a.setWidth 32 <<< 24 ||| b.setWidth 32 <<< 16 ||| c.setWidth 32 <<< 8 |||
      d.setWidth 32 : U32) = a ++ b ++ c ++ d := by
  apply BitVec.eq_of_getLsbD_eq
  intro i hi
  grind

theorem sha256LoadBe32_eq (data : List U8) (offset : Nat) :
    sha256LoadBe32 data offset = Sha256.beWord (data.drop offset) := by
  have hbyte : ∀ i, data.getD (offset + i) 0 = (data.drop offset).getD i 0 := by
    intro i
    simp [List.getD_eq_getElem?_getD]
  simp only [sha256LoadBe32, hbyte, Sha256.beWord]
  exact shifts_eq_append _ _ _ _

theorem sha256StoreBe32_eq (value : U32) : sha256StoreBe32 value = Sha256.wordBytes value := by
  simp only [sha256StoreBe32, Sha256.wordBytes, List.cons.injEq, and_true]
  refine ⟨?_, ?_, ?_, ?_⟩
  · apply BitVec.eq_of_getLsbD_eq
    grind
  · apply BitVec.eq_of_getLsbD_eq
    grind
  · apply BitVec.eq_of_getLsbD_eq
    grind
  · apply BitVec.eq_of_getLsbD_eq
    grind

/-! ### The schedule -/

theorem loaded_eq_blockWords (data : List U8) :
    (List.range 16).map (fun i => sha256LoadBe32 data (i * 4)) = Sha256.blockWords data := by
  rw [Sha256.blockWords, Sha256.beWords]
  apply List.map_congr_left
  intro i _
  rw [sha256LoadBe32_eq, Nat.mul_comm]

/-- The word that one round of the loop puts into the schedule. -/
def nextScheduled (schedule : Array U32) (i : Nat) : U32 :=
  let word (back : Nat) : U32 := schedule.getD (i - back) 0
  let s0 := sha256Rotr (word 15) 7 ^^^ sha256Rotr (word 15) 18 ^^^ (word 15 >>> 3)
  let s1 := sha256Rotr (word 2) 17 ^^^ sha256Rotr (word 2) 19 ^^^ (word 2 >>> 10)
  word 16 + s0 + word 7 + s1

theorem push_eq_extend (schedule : Array U32) :
    (schedule.push (nextScheduled schedule schedule.size)).toList =
      Sha256.extend schedule.toList := by
  have hword : ∀ i, schedule.getD i 0 = schedule.toList.getD i 0 := by
    intro i
    simp [Array.getD_eq_getD_getElem?, List.getD_eq_getElem?_getD]
  simp only [nextScheduled, hword, Array.toList_push, Sha256.extend, Array.length_toList,
    smallSigma0_eq, smallSigma1_eq]
  congr 2
  ac_rfl

/-- The loop fills the message schedule. -/
theorem sha256Schedule_toList (data : List U8) :
    (sha256Schedule data).toList = Sha256.messageSchedule (Sha256.blockWords data) := by
  have hloop : ∀ count, ((List.range' 16 count).foldl
      (fun schedule i => schedule.push (nextScheduled schedule i))
      ((List.range 16).map fun i => sha256LoadBe32 data (i * 4)).toArray).toList =
        Sha256.extend^[count] (Sha256.blockWords data) := by
    intro count
    induction count with
    | zero => exact loaded_eq_blockWords data
    | succ count ih =>
      rw [List.range'_1_concat, List.foldl_append, List.foldl_cons, List.foldl_nil,
        Function.iterate_succ_apply', ← ih]
      generalize (List.range' 16 count).foldl
        (fun schedule i => schedule.push (nextScheduled schedule i))
        ((List.range 16).map fun i => sha256LoadBe32 data (i * 4)).toArray = schedule at ih ⊢
      have hsize : schedule.size = 16 + count := by
        rw [← Array.length_toList, ih, Sha256.length_iterate_extend]
        rfl
      rw [← hsize]
      exact push_eq_extend schedule
  exact hloop 48

/-! ### The compression -/

/-- The working variables as a state. -/
def Sha256Working.toState (w : Sha256Working) : Sha256.State :=
  ⟨w.a, w.b, w.c, w.d, w.e, w.f, w.g, w.h⟩

theorem Sha256Working.toState_round (w : Sha256Working) (constant scheduled : U32) :
    (w.round constant scheduled).toState = w.toState.round constant scheduled := by
  simp only [Sha256Working.round, Sha256Working.toState, Sha256.State.round, bigSigma0_eq,
    bigSigma1_eq]
  rfl

theorem zip_eq_map_range (first second : List U32) (h : first.length = second.length) :
    first.zip second =
      (List.range first.length).map fun i => (first.getD i 0, second.getD i 0) := by
  apply List.ext_getElem
  · simp [h]
  · intro i hi hi'
    have hfirst : i < first.length := by simpa using hi'
    have hsecond : i < second.length := h ▸ hfirst
    simp [List.getElem?_eq_getElem hfirst, List.getElem?_eq_getElem hsecond]

/-- The loop over the rounds. -/
theorem rounds_toState (data : List U8) (start : Sha256Working) :
    ((List.range 64).foldl (fun w i => w.round (sha256RoundConstants.getD i 0)
        ((sha256Schedule data).getD i 0)) start).toState =
      (Sha256.constants.zip (Sha256.messageSchedule (Sha256.blockWords data))).foldl
        (fun v step => v.round step.1 step.2) start.toState := by
  have hword : ∀ i, (sha256Schedule data).getD i 0 =
      (Sha256.messageSchedule (Sha256.blockWords data)).getD i 0 := by
    intro i
    rw [← sha256Schedule_toList]
    simp [Array.getD_eq_getD_getElem?, List.getD_eq_getElem?_getD]
  have hlength : Sha256.constants.length =
      (Sha256.messageSchedule (Sha256.blockWords data)).length := by
    rw [Sha256.messageSchedule, Sha256.length_iterate_extend]
    rfl
  rw [zip_eq_map_range _ _ hlength, List.foldl_map]
  simp only [hword]
  generalize Sha256.messageSchedule (Sha256.blockWords data) = schedule
  change ((List.range 64).foldl _ start).toState = (List.range 64).foldl _ start.toState
  induction List.range 64 generalizing start with
  | nil => rfl
  | cons i later ih =>
    rw [List.foldl_cons, List.foldl_cons, ih, Sha256Working.toState_round]
    rfl

/-- **The midstate** of a block is the hash value behind it. -/
theorem midstateSha256Bin_eq {data : List U8} (h : data.length = 64) :
    midstateSha256Bin data =
      (Sha256.compress Sha256.initialState (Sha256.blockWords data)).digest := by
  rw [midstateSha256Bin, if_neg (not_not.mpr h)]
  have hrounds := rounds_toState data ⟨sha256InitialState.getD 0 0, sha256InitialState.getD 1 0,
    sha256InitialState.getD 2 0, sha256InitialState.getD 3 0, sha256InitialState.getD 4 0,
    sha256InitialState.getD 5 0, sha256InitialState.getD 6 0, sha256InitialState.getD 7 0⟩
  dsimp only
  generalize (List.range 64).foldl (fun (w : Sha256Working) i =>
    w.round (sha256RoundConstants.getD i 0) ((sha256Schedule data).getD i 0)) _ = w at hrounds ⊢
  have hstart : (⟨sha256InitialState.getD 0 0, sha256InitialState.getD 1 0,
    sha256InitialState.getD 2 0, sha256InitialState.getD 3 0, sha256InitialState.getD 4 0,
    sha256InitialState.getD 5 0, sha256InitialState.getD 6 0, sha256InitialState.getD 7 0⟩ :
      Sha256Working).toState = Sha256.initialState := rfl
  rw [Sha256.compress, ← hstart, ← hrounds]
  simp only [sha256StoreBe32_eq]
  rfl

end EspMiner
