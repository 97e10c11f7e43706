import EspMiner.Asic.Job
import Mathlib.Data.Fintype.EquivFin
import Mathlib.Data.List.Nodup
import Mathlib.Data.Nat.Bitwise

/-!
# Bonanza topology

`components/asic/bzm_topology.c`: the wire ids of the four ASICs, the grid of
usable engines and the balanced activation order.
-/

namespace EspMiner

variable {engine : BzmEngineLocation}

/-! ### ASIC ids -/

def BZM_MAX_ASIC_COUNT : Nat := 4

/-- `bzm_asic_wire_ids` -/
def bzmAsicWireIds : List U8 := [0x0a#8, 0x14#8, 0x1e#8, 0x28#8]

/-- `bzm_topology_asic_index` -/
def bzmTopologyAsicIndex (asicId : U8) : Option Nat :=
  if asicId ∈ bzmAsicWireIds then some (bzmAsicWireIds.idxOf asicId) else none

theorem bzmTopologyAsicIndex_inj {a b : U8} {index : Nat} (ha : bzmTopologyAsicIndex a = some index)
    (hb : bzmTopologyAsicIndex b = some index) : a = b := by
  unfold bzmTopologyAsicIndex at ha hb
  split at ha
  · split at hb
    · next hmemA hmemB =>
      have hidx : bzmAsicWireIds.idxOf a = bzmAsicWireIds.idxOf b :=
        (Option.some.inj ha).trans (Option.some.inj hb).symm
      exact (List.idxOf_inj hmemA).mp hidx
    · cases hb
  · cases ha

/-! ### The engine grid -/

def BZM_TOPOLOGY_ROWS : Nat := 20
def BZM_TOPOLOGY_COLUMNS : Nat := 12
def BZM_TOPOLOGY_ENGINE_COUNT : Nat := 236
def BZM_TOPOLOGY_STACK_ENGINE_COUNT : Nat := 118
def BZM_ENGINE_STACK_COUNT : Nat := 2

/-- `bzm_engine_stack_t` -/
inductive BzmEngineStack where
  | bottom
  | top
deriving DecidableEq, Repr

/-- `bzm_engine_location_t` -/
structure BzmEngineLocation where
  row : Nat
  column : Nat
  stack : BzmEngineStack
  physicalId : Nat
  gridId : Nat
  topologyIndex : Nat
  stackIndex : Nat
deriving DecidableEq, Repr

/-- `stack_for_row` -/
def stackForRow (row : Nat) : BzmEngineStack :=
  if row < BZM_TOPOLOGY_ROWS / 2 then .bottom else .top

/-- `bzm_topology_coordinate_is_valid` -/
def bzmTopologyCoordinateIsValid (row column : Nat) : Bool :=
  decide (row < BZM_TOPOLOGY_ROWS) && decide (column < BZM_TOPOLOGY_COLUMNS) &&
    !(decide (row = 0) && (decide (column = 4) || decide (column = 5)) ||
      decide (row = 19) && (decide (column = 5) || decide (column = 11)))

/-- The (row, column) pairs in the order of the two nested loops, without those
the loops skip. -/
def usableCoordinates : List (Nat × Nat) :=
  ((List.range BZM_TOPOLOGY_COLUMNS).flatMap fun column =>
    (List.range BZM_TOPOLOGY_ROWS).map fun row => (row, column)).filter
      fun coordinate => bzmTopologyCoordinateIsValid coordinate.1 coordinate.2

/-- The search loop of `locate_coordinate`, with its three counters. -/
def locateLoop (requested : Nat × Nat) :
    List (Nat × Nat) → (topologyIndex bottomIndex topIndex : Nat) → Option BzmEngineLocation
  | [], _, _, _ => none
  | (row, column) :: later, topologyIndex, bottomIndex, topIndex =>
      let stack := stackForRow row
      if (row, column) = requested then
        some {
          row := row
          column := column
          stack := stack
          physicalId := (column <<< 6) ||| row
          gridId := column * BZM_TOPOLOGY_ROWS + row
          topologyIndex := topologyIndex
          stackIndex := if stack = .bottom then bottomIndex else topIndex }
      else if stack = .bottom then
        locateLoop requested later (topologyIndex + 1) (bottomIndex + 1) topIndex
      else locateLoop requested later (topologyIndex + 1) bottomIndex (topIndex + 1)

/-- `locate_coordinate` -/
def locateCoordinate (row column : Nat) : Option BzmEngineLocation :=
  if bzmTopologyCoordinateIsValid row column then
    locateLoop (row, column) usableCoordinates 0 0 0
  else none

/-- `bzm_topology_from_physical_id` -/
def bzmTopologyFromPhysicalId (physicalId : Nat) : Option BzmEngineLocation :=
  let row := physicalId &&& 0x3f
  let column := physicalId >>> 6
  if BZM_TOPOLOGY_COLUMNS ≤ column then none else locateCoordinate row column

/-- `bzm_topology_engine_at` -/
def bzmTopologyEngineAt (topologyIndex : Nat) : Option BzmEngineLocation :=
  if BZM_TOPOLOGY_ENGINE_COUNT ≤ topologyIndex then none
  else (usableCoordinates[topologyIndex]?).bind fun coordinate =>
    locateCoordinate coordinate.1 coordinate.2

/-- `bzm_topology_stack_engine_at` -/
def bzmTopologyStackEngineAt (stack : BzmEngineStack) (stackIndex : Nat) :
    Option BzmEngineLocation :=
  if BZM_TOPOLOGY_STACK_ENGINE_COUNT ≤ stackIndex then none
  else
    let coordinates := usableCoordinates.filter fun coordinate =>
      decide (stackForRow coordinate.1 = stack)
    (coordinates[stackIndex]?).bind fun coordinate => locateCoordinate coordinate.1 coordinate.2

/-- `bzm_topology_activation_at` -/
def bzmTopologyActivationAt (activationIndex : Nat) (firstStack : BzmEngineStack) :
    Option BzmEngineLocation :=
  if BZM_TOPOLOGY_ENGINE_COUNT ≤ activationIndex then none
  else
    let pairIndex := activationIndex / BZM_ENGINE_STACK_COUNT
    let secondMember := decide (activationIndex % BZM_ENGINE_STACK_COUNT ≠ 0)
    let stack := if secondMember then
        (if firstStack = .bottom then .top else .bottom)
      else firstStack
    bzmTopologyStackEngineAt stack pairIndex

/-! ### Locations and the balanced order

An engine has one location: its physical id, its topology index and its place
in the activation order each determine it. -/

theorem locateLoop_eq_some {requested : Nat × Nat} {coordinates : List (Nat × Nat)}
    {topologyIndex bottomIndex topIndex : Nat}
    (h : locateLoop requested coordinates topologyIndex bottomIndex topIndex = some engine) :
    (engine.row, engine.column) = requested ∧
      engine.stack = stackForRow engine.row ∧
      engine.physicalId = (engine.column <<< 6) ||| engine.row ∧
      topologyIndex ≤ engine.topologyIndex ∧
      coordinates[engine.topologyIndex - topologyIndex]? = some requested := by
  induction coordinates generalizing topologyIndex bottomIndex topIndex with
  | nil => cases h
  | cons coordinate later ih =>
    obtain ⟨row, column⟩ := coordinate
    have hlater : ∀ {bottom top},
        locateLoop requested later (topologyIndex + 1) bottom top = some engine →
        (engine.row, engine.column) = requested ∧
          engine.stack = stackForRow engine.row ∧
          engine.physicalId = (engine.column <<< 6) ||| engine.row ∧
          topologyIndex ≤ engine.topologyIndex ∧
          ((row, column) :: later)[engine.topologyIndex - topologyIndex]? = some requested := by
      intro bottom top hfound
      obtain ⟨hcoordinate, hstack, hphysical, hle, hget⟩ := ih hfound
      refine ⟨hcoordinate, hstack, hphysical, by omega, ?_⟩
      have hshift : engine.topologyIndex - topologyIndex =
          engine.topologyIndex - (topologyIndex + 1) + 1 := by omega
      rw [hshift, List.getElem?_cons_succ]
      exact hget
    simp only [locateLoop] at h
    split at h
    · next hrequested =>
      obtain rfl := Option.some.inj h
      refine ⟨hrequested, rfl, rfl, le_rfl, ?_⟩
      simp [hrequested]
    · split at h
      · exact hlater h
      · exact hlater h

theorem locateLoop_isSome {requested : Nat × Nat} {coordinates : List (Nat × Nat)}
    (h : requested ∈ coordinates) (topologyIndex bottomIndex topIndex : Nat) :
    (locateLoop requested coordinates topologyIndex bottomIndex topIndex).isSome := by
  induction coordinates generalizing topologyIndex bottomIndex topIndex with
  | nil => cases h
  | cons coordinate later ih =>
    obtain ⟨row, column⟩ := coordinate
    simp only [locateLoop]
    split
    · rfl
    · next hne =>
      have hmem : requested ∈ later :=
        (List.mem_cons.mp h).resolve_left fun heq => hne heq.symm
      split
      · exact ih hmem _ _ _
      · exact ih hmem _ _ _

theorem length_usableCoordinates : usableCoordinates.length = BZM_TOPOLOGY_ENGINE_COUNT := by
  decide +kernel

theorem nodup_usableCoordinates : usableCoordinates.Nodup := by
  refine List.Nodup.filter _ (List.nodup_flatMap.mpr ⟨?_, ?_⟩)
  · intro column _
    exact List.nodup_range.map fun row row' h => (Prod.mk.inj h).1
  · refine List.nodup_range.imp fun {column column'} hne => ?_
    intro coordinate hleft hright
    obtain ⟨row, -, rfl⟩ := List.mem_map.mp hleft
    obtain ⟨row', -, h⟩ := List.mem_map.mp hright
    exact hne (Prod.mk.inj h).2.symm

theorem mem_usableCoordinates {row column : Nat} :
    (row, column) ∈ usableCoordinates ↔ bzmTopologyCoordinateIsValid row column = true := by
  simp only [usableCoordinates, List.mem_filter, List.mem_flatMap, List.mem_map, List.mem_range,
    Prod.mk.injEq]
  constructor
  · exact fun h => h.2
  · intro h
    have hbound : row < BZM_TOPOLOGY_ROWS ∧ column < BZM_TOPOLOGY_COLUMNS := by
      simp only [bzmTopologyCoordinateIsValid, Bool.and_eq_true, decide_eq_true_eq] at h
      exact h.1
    exact ⟨⟨column, hbound.2, row, hbound.1, rfl, rfl⟩, h⟩

/-- A location that some lookup returned: all lookups return it again. -/
structure BzmEngineLocation.Located (engine : BzmEngineLocation) : Prop where
  locate : locateCoordinate engine.row engine.column = some engine
  stack_eq : engine.stack = stackForRow engine.row
  fromPhysicalId : bzmTopologyFromPhysicalId engine.physicalId = some engine
  engineAt : bzmTopologyEngineAt engine.topologyIndex = some engine
  physicalId_lt : engine.physicalId < 4096

theorem locateCoordinate_located {row column : Nat}
    (h : locateCoordinate row column = some engine) :
    engine.Located ∧ engine.row = row ∧ engine.column = column := by
  have hlocate := h
  unfold locateCoordinate at h
  split at h
  · next hvalid =>
    obtain ⟨hcoordinate, hstack, hphysical, -, hget⟩ := locateLoop_eq_some h
    obtain ⟨rfl, rfl⟩ := Prod.mk.inj hcoordinate
    have hbound : engine.row < BZM_TOPOLOGY_ROWS ∧ engine.column < BZM_TOPOLOGY_COLUMNS := by
      simp only [bzmTopologyCoordinateIsValid, Bool.and_eq_true, decide_eq_true_eq] at hvalid
      exact hvalid.1
    have hrow : engine.row < 2 ^ 6 := Nat.lt_trans hbound.1 (by decide)
    have hcolumn : engine.column < 12 := hbound.2
    -- the physical id keeps the row in its low six bits
    have hsum : engine.physicalId = engine.column * 2 ^ 6 + engine.row := by
      rw [hphysical, Nat.shiftLeft_eq, Nat.mul_comm, Nat.two_pow_add_eq_or_of_lt hrow]
    rw [Nat.sub_zero] at hget
    refine ⟨⟨hlocate, hstack, ?_, ?_, by omega⟩, rfl, rfl⟩
    · have hlow : engine.physicalId &&& 0x3f = engine.row := by
        have := Nat.and_two_pow_sub_one_eq_mod engine.physicalId 6
        simp only [Nat.reducePow, Nat.reduceSub] at this
        omega
      have hhigh : engine.physicalId >>> 6 = engine.column := by
        rw [Nat.shiftRight_eq_div_pow]
        omega
      rw [bzmTopologyFromPhysicalId, hlow, hhigh, if_neg (Nat.not_le.mpr hbound.2),
        hlocate]
    · have hlt : engine.topologyIndex < BZM_TOPOLOGY_ENGINE_COUNT := by
        rw [← length_usableCoordinates]
        exact (List.getElem?_eq_some_iff.mp hget).1
      rw [bzmTopologyEngineAt, if_neg (Nat.not_le.mpr hlt), hget]
      exact hlocate
  · cases h

theorem fromPhysicalId_located {physicalId : Nat}
    (h : bzmTopologyFromPhysicalId physicalId = some engine) :
    engine.Located ∧ engine.physicalId = physicalId := by
  simp only [bzmTopologyFromPhysicalId] at h
  split at h
  · cases h
  · obtain ⟨hlocated, hrow, hcolumn⟩ := locateCoordinate_located h
    refine ⟨hlocated, ?_⟩
    have hphysical : engine.physicalId = (engine.column <<< 6) ||| engine.row := by
      have hlocate := hlocated.locate
      unfold locateCoordinate at hlocate
      split at hlocate
      · exact (locateLoop_eq_some hlocate).2.2.1
      · cases hlocate
    rw [hphysical, hrow, hcolumn]
    apply Nat.eq_of_testBit_eq
    intro i
    have hmask : Nat.testBit 0x3f i = decide (i < 6) := Nat.testBit_two_pow_sub_one 6 i
    simp only [Nat.testBit_or, Nat.testBit_shiftLeft, Nat.testBit_shiftRight, Nat.testBit_and,
      hmask]
    by_cases hi : i < 6
    · simp [hi, Nat.not_le.mpr hi]
    · simp [hi, Nat.not_lt.mp hi]

theorem BzmEngineLocation.Located.eq_of_physicalId {engine other : BzmEngineLocation}
    (hengine : engine.Located) (hother : other.Located)
    (h : engine.physicalId = other.physicalId) : engine = other := by
  have := hengine.fromPhysicalId
  rw [h, hother.fromPhysicalId] at this
  exact (Option.some.inj this).symm

theorem BzmEngineLocation.Located.eq_of_topologyIndex {engine other : BzmEngineLocation}
    (hengine : engine.Located) (hother : other.Located)
    (h : engine.topologyIndex = other.topologyIndex) : engine = other := by
  have := hengine.engineAt
  rw [h, hother.engineAt] at this
  exact (Option.some.inj this).symm

/-- The usable coordinates of one stack. -/
def stackCoordinates (stack : BzmEngineStack) : List (Nat × Nat) :=
  usableCoordinates.filter fun coordinate => decide (stackForRow coordinate.1 = stack)

theorem length_stackCoordinates (stack : BzmEngineStack) :
    (stackCoordinates stack).length = BZM_TOPOLOGY_STACK_ENGINE_COUNT := by
  cases stack <;> decide +kernel

/-- The stack of one position of the activation order that starts at the bottom. -/
def activationStack (activationIndex : Nat) : BzmEngineStack :=
  if activationIndex % BZM_ENGINE_STACK_COUNT = 0 then .bottom else .top

theorem activationAt_eq {activationIndex : Nat}
    (h : activationIndex < BZM_TOPOLOGY_ENGINE_COUNT) :
    bzmTopologyActivationAt activationIndex .bottom =
      ((stackCoordinates (activationStack activationIndex))[activationIndex / 2]?).bind
        fun coordinate => locateCoordinate coordinate.1 coordinate.2 := by
  have hlt : activationIndex < 236 := h
  have hpair : ¬ BZM_TOPOLOGY_STACK_ENGINE_COUNT ≤ activationIndex / 2 := by
    simp only [BZM_TOPOLOGY_STACK_ENGINE_COUNT]
    omega
  simp only [bzmTopologyActivationAt, if_neg (Nat.not_le.mpr h), bzmTopologyStackEngineAt,
    BZM_ENGINE_STACK_COUNT, if_neg hpair, stackCoordinates, activationStack]
  by_cases heven : activationIndex % 2 = 0 <;> simp [heven]

/-- Every activation index below the engine count has an engine. -/
theorem activationAt_isSome {activationIndex : Nat}
    (h : activationIndex < BZM_TOPOLOGY_ENGINE_COUNT) :
    ∃ engine, bzmTopologyActivationAt activationIndex .bottom = some engine := by
  have hlt : activationIndex < 236 := h
  have hget : activationIndex / 2 <
      (stackCoordinates (activationStack activationIndex)).length := by
    rw [length_stackCoordinates]
    simp only [BZM_TOPOLOGY_STACK_ENGINE_COUNT]
    omega
  obtain ⟨⟨row, column⟩, hfound⟩ : ∃ coordinate,
      (stackCoordinates (activationStack activationIndex))[activationIndex / 2]? =
        some coordinate := ⟨_, List.getElem?_eq_getElem hget⟩
  have hmem : (row, column) ∈ usableCoordinates :=
    (List.mem_filter.mp (List.mem_of_getElem? hfound)).1
  rw [activationAt_eq h, hfound, Option.bind_some, locateCoordinate,
    if_pos (mem_usableCoordinates.mp hmem)]
  exact Option.isSome_iff_exists.mp (locateLoop_isSome hmem 0 0 0)

theorem activationAt_located {activationIndex : Nat}
    (h : bzmTopologyActivationAt activationIndex .bottom = some engine) :
    activationIndex < BZM_TOPOLOGY_ENGINE_COUNT ∧ engine.Located ∧
      (stackCoordinates (activationStack activationIndex))[activationIndex / 2]? =
        some (engine.row, engine.column) ∧
      engine.stack = activationStack activationIndex := by
  have hlt : activationIndex < BZM_TOPOLOGY_ENGINE_COUNT := by
    by_contra hge
    rw [bzmTopologyActivationAt, if_pos (Nat.not_lt.mp hge)] at h
    cases h
  rw [activationAt_eq hlt] at h
  obtain ⟨⟨row, column⟩, hget, hlocate⟩ := Option.bind_eq_some_iff.mp h
  obtain ⟨hlocated, hrow, hcolumn⟩ := locateCoordinate_located hlocate
  have hmem := (List.mem_filter.mp (List.mem_of_getElem? hget)).2
  refine ⟨hlt, hlocated, by rw [hget, hrow, hcolumn], ?_⟩
  rw [hlocated.stack_eq, hrow]
  exact of_decide_eq_true hmem

/-- One engine has one place in the activation order. -/
theorem activationAt_inj {j k : Nat} (hj : bzmTopologyActivationAt j .bottom = some engine)
    (hk : bzmTopologyActivationAt k .bottom = some engine) : j = k := by
  obtain ⟨-, -, hgetJ, hstackJ⟩ := activationAt_located hj
  obtain ⟨-, -, hgetK, hstackK⟩ := activationAt_located hk
  have hstack : activationStack j = activationStack k := hstackJ.symm.trans hstackK
  have hparity : j % 2 = k % 2 := by
    by_cases hevenJ : j % 2 = 0 <;> by_cases hevenK : k % 2 = 0
    · omega
    · simp [activationStack, BZM_ENGINE_STACK_COUNT, hevenJ, hevenK] at hstack
    · simp [activationStack, BZM_ENGINE_STACK_COUNT, hevenJ, hevenK] at hstack
    · omega
  have hnodup : (stackCoordinates (activationStack k)).Nodup := nodup_usableCoordinates.filter _
  rw [hstack] at hgetJ
  have hhalf := hnodup.getElem_inj_iff.mp
    ((List.getElem?_eq_some_iff.mp hgetJ).2.trans (List.getElem?_eq_some_iff.mp hgetK).2.symm)
  omega

theorem BzmEngineLocation.Located.topologyIndex_lt (h : engine.Located) :
    engine.topologyIndex < BZM_TOPOLOGY_ENGINE_COUNT := by
  by_contra hge
  have hnone := h.engineAt
  rw [bzmTopologyEngineAt, if_pos (Nat.not_lt.mp hge)] at hnone
  cases hnone

/-- The activation order reaches every engine. -/
theorem activationAt_surjective {topologyIndex : Nat}
    (h : topologyIndex < BZM_TOPOLOGY_ENGINE_COUNT) :
    ∃ activationIndex < BZM_TOPOLOGY_ENGINE_COUNT, ∃ engine,
      bzmTopologyActivationAt activationIndex .bottom = some engine ∧
        engine.topologyIndex = topologyIndex := by
  choose engineOf hengineOf using
    fun j : Fin BZM_TOPOLOGY_ENGINE_COUNT => activationAt_isSome j.isLt
  have hlocated := fun j => (activationAt_located (hengineOf j)).2.1
  have hinjective : Function.Injective fun j : Fin BZM_TOPOLOGY_ENGINE_COUNT =>
      (⟨(engineOf j).topologyIndex, (hlocated j).topologyIndex_lt⟩ :
        Fin BZM_TOPOLOGY_ENGINE_COUNT) := by
    intro j k hsame
    have hengine := (hlocated j).eq_of_topologyIndex (hlocated k) (Fin.mk.inj hsame)
    exact Fin.ext (activationAt_inj (hengine ▸ hengineOf j) (hengineOf k))
  obtain ⟨j, hj⟩ := Finite.injective_iff_surjective.mp hinjective ⟨topologyIndex, h⟩
  exact ⟨j, j.isLt, engineOf j, hengineOf j, Fin.mk.inj hj⟩

/-- The place of one engine of a stack in the activation order. -/
def activationIndex (stack : BzmEngineStack) (stackIndex : Nat) : Nat :=
  2 * stackIndex + if stack = .bottom then 0 else 1

theorem activationIndex_inj {stack other : BzmEngineStack} {i k : Nat}
    (h : activationIndex stack i = activationIndex other k) : stack = other ∧ i = k := by
  unfold activationIndex at h
  cases stack <;> cases other <;> simp at h <;> first | exact ⟨rfl, h⟩ | omega

theorem stackEngineAt_eq_activationAt {stack : BzmEngineStack} {stackIndex : Nat}
    (h : bzmTopologyStackEngineAt stack stackIndex = some engine) :
    bzmTopologyActivationAt (activationIndex stack stackIndex) .bottom = some engine := by
  have hlt : stackIndex < 118 := by
    by_contra hge
    have hle : BZM_TOPOLOGY_STACK_ENGINE_COUNT ≤ stackIndex := Nat.not_lt.mp hge
    rw [bzmTopologyStackEngineAt, if_pos hle] at h
    cases h
  have hrange : ¬ BZM_TOPOLOGY_ENGINE_COUNT ≤ activationIndex stack stackIndex := by
    unfold activationIndex
    simp only [BZM_TOPOLOGY_ENGINE_COUNT]
    split <;> omega
  rw [bzmTopologyActivationAt, if_neg hrange, ← h]
  unfold activationIndex BZM_ENGINE_STACK_COUNT
  cases stack with
  | bottom => simp
  | top =>
    have hodd : (2 * stackIndex + 1) % 2 = 1 := by omega
    have hhalf : (2 * stackIndex + 1) / 2 = stackIndex := by omega
    simp [hodd, hhalf]

/-- Every engine is on one of the stacks. -/
theorem exists_stackEngineAt {topologyIndex : Nat}
    (h : bzmTopologyEngineAt topologyIndex = some engine)
    (hlt : topologyIndex < BZM_TOPOLOGY_ENGINE_COUNT) :
    ∃ stack, ∃ stackIndex < BZM_TOPOLOGY_STACK_ENGINE_COUNT,
      bzmTopologyActivationAt (activationIndex stack stackIndex) .bottom = some engine := by
  obtain ⟨j, hj, found, hfound, rfl⟩ := activationAt_surjective hlt
  have hlocated := (activationAt_located hfound).2.1
  rw [hlocated.engineAt] at h
  cases Option.some.inj h
  have hlt : j < 236 := hj
  have hindex : activationIndex (if j % 2 = 0 then .bottom else .top) (j / 2) = j := by
    unfold activationIndex
    split
    · simp
      omega
    · simp
      omega
  refine ⟨_, j / 2, ?_, hindex ▸ hfound⟩
  simp only [BZM_TOPOLOGY_STACK_ENGINE_COUNT]
  omega

end EspMiner
