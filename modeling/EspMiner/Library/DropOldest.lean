import Mathlib.Data.List.TakeDrop
import Mathlib.Logic.Function.Basic

/-!
# Bounded queues that drop their oldest element

A queue of at most `capacity` elements that makes room for a new one by dropping the
oldest.  Everything that arrived has left, in its order, or is queued.  An array of
`capacity` cells with a head and a length implements the queue.
-/

namespace EspMiner.Library

variable {α : Type*} {capacity : Nat}

/-- How an element left a queue. -/
inductive Departure where
  | taken
  | dropped
deriving DecidableEq, Repr

/-- A queue with what arrived and what left, oldest first. -/
structure DropOldest (capacity : Nat) (α : Type*) where
  arrived : List α
  departed : List (α × Departure)
  queued : List α
  conserved : arrived = departed.map Prod.fst ++ queued
  bounded : queued.length ≤ capacity

namespace DropOldest

/-- The elements that were taken. -/
def taken (q : DropOldest capacity α) : List α :=
  (q.departed.filter fun left => left.2 = .taken).map Prod.fst

/-- The number of elements that were dropped. -/
def drops (q : DropOldest capacity α) : Nat := q.departed.countP fun left => left.2 = .dropped

/-- The first element, if there is one, leaves a list. -/
theorem depart_first (elements : List α) (departure : Departure) :
    ((elements.take 1).map fun oldest => (oldest, departure)).map Prod.fst ++ elements.drop 1 =
      elements := by
  have hfst : (Prod.fst ∘ fun oldest : α => (oldest, departure)) = id := rfl
  rw [List.map_map, hfst, List.map_id, List.take_append_drop]

/-- A queue that nothing has arrived at. -/
def empty : DropOldest capacity α where
  arrived := []
  departed := []
  queued := []
  conserved := rfl
  bounded := Nat.zero_le _

/-- An element arrives; in a full queue it takes the place of the oldest. -/
def push (q : DropOldest capacity α) (a : α) : DropOldest capacity α :=
  if h : q.queued.length < capacity then
    { arrived := q.arrived ++ [a]
      departed := q.departed
      queued := q.queued ++ [a]
      conserved := by rw [q.conserved, List.append_assoc]
      bounded := by
        rw [List.length_append, List.length_singleton]
        exact h }
  else
    { arrived := q.arrived ++ [a]
      departed := q.departed ++ ((q.queued ++ [a]).take 1).map fun oldest => (oldest, .dropped)
      queued := (q.queued ++ [a]).drop 1
      conserved := by
        rw [List.map_append, List.append_assoc, depart_first, q.conserved, List.append_assoc]
      bounded := by
        have := q.bounded
        simp
        omega }

/-- The oldest element is taken. -/
def pop (q : DropOldest capacity α) : DropOldest capacity α where
  arrived := q.arrived
  departed := q.departed ++ (q.queued.take 1).map fun oldest => (oldest, .taken)
  queued := q.queued.drop 1
  conserved := by
    rw [List.map_append, List.append_assoc, depart_first, q.conserved]
  bounded := by
    rw [List.length_drop]
    exact Nat.le_trans (Nat.sub_le _ _) q.bounded

theorem queued_push_of_lt {q : DropOldest capacity α} (h : q.queued.length < capacity) (a : α) :
    (q.push a).queued = q.queued ++ [a] := by
  rw [push, dif_pos h]

theorem queued_push_of_full {q : DropOldest capacity α} (h : q.queued.length = capacity) (a : α) :
    (q.push a).queued = (q.queued ++ [a]).drop 1 := by
  rw [push, dif_neg (by omega)]

theorem departed_push_of_lt {q : DropOldest capacity α} (h : q.queued.length < capacity) (a : α) :
    (q.push a).departed = q.departed := by
  rw [push, dif_pos h]

/-- A full queue loses one element when another one arrives. -/
theorem departed_push_of_full {q : DropOldest capacity α} (h : q.queued.length = capacity) (a : α) :
    ∃ oldest, (q.push a).departed = q.departed ++ [(oldest, .dropped)] := by
  obtain ⟨oldest, hoff⟩ : ∃ oldest, (q.queued ++ [a]).take 1 = [oldest] := by
    cases q.queued with
    | nil => exact ⟨a, rfl⟩
    | cons oldest rest => exact ⟨oldest, rfl⟩
  refine ⟨oldest, ?_⟩
  rw [push, dif_neg (by omega)]
  simp only [hoff, List.map_singleton]

@[simp] theorem arrived_push (q : DropOldest capacity α) (a : α) :
    (q.push a).arrived = q.arrived ++ [a] := by
  unfold push
  split <;> rfl

theorem drops_push_of_lt {q : DropOldest capacity α} (h : q.queued.length < capacity) (a : α) :
    (q.push a).drops = q.drops := by
  rw [drops, departed_push_of_lt h, drops]

theorem drops_push_of_full {q : DropOldest capacity α} (h : q.queued.length = capacity) (a : α) :
    (q.push a).drops = q.drops + 1 := by
  obtain ⟨oldest, hdeparted⟩ := departed_push_of_full h a
  rw [drops, hdeparted, List.countP_append, drops]
  rfl

@[simp] theorem taken_push (q : DropOldest capacity α) (a : α) : (q.push a).taken = q.taken := by
  rcases Nat.lt_or_eq_of_le q.bounded with hlt | hfull
  · rw [taken, departed_push_of_lt hlt, taken]
  · obtain ⟨oldest, hdeparted⟩ := departed_push_of_full hfull a
    simp [taken, hdeparted]

@[simp] theorem drops_pop (q : DropOldest capacity α) : q.pop.drops = q.drops := by
  cases hqueued : q.queued <;> simp [drops, pop, hqueued]

theorem taken_pop (q : DropOldest capacity α) : q.pop.taken = q.taken ++ q.queued.head?.toList := by
  cases hqueued : q.queued <;> simp [taken, pop, hqueued]

/-- Every element was taken, was dropped or is queued. -/
theorem length_arrived (q : DropOldest capacity α) :
    q.arrived.length = q.taken.length + q.drops + q.queued.length := by
  have hsplit : ∀ left : List (α × Departure), left.length =
      ((left.filter fun d => d.2 = .taken).map Prod.fst).length +
        left.countP fun d => d.2 = .dropped := by
    intro left
    induction left with
    | nil => rfl
    | cons d left ih =>
      obtain ⟨a, departure⟩ := d
      cases departure <;> simp at ih ⊢ <;> omega
  rw [q.conserved, List.length_append, List.length_map, hsplit q.departed, taken, drops]

end DropOldest

/-! ### The array -/

namespace RingQueue

/-- The elements in the cells from `head` on, the oldest first. -/
def contents (capacity : Nat) (cells : Nat → α) (head length : Nat) : List α :=
  (List.range length).map fun i => cells ((head + i) % capacity)

variable {cells : Nat → α} {head length : Nat}

@[simp] theorem length_contents : (contents capacity cells head length).length = length := by
  simp [contents]

/-- Dropping the oldest element moves the head. -/
theorem contents_advance (hlength : 0 < length) :
    contents capacity cells ((head + 1) % capacity) (length - 1) =
      (contents capacity cells head length).drop 1 := by
  obtain ⟨length, rfl⟩ := Nat.exists_eq_add_of_lt hlength
  apply List.ext_getElem
  · simp
  · intro i hi hi'
    simp only [contents, List.getElem_map, List.getElem_range, List.getElem_drop,
      Nat.mod_add_mod]
    congr 2
    omega

theorem head?_contents (hhead : head < capacity) (hlength : 0 < length) :
    (contents capacity cells head length).head? = some (cells head) := by
  obtain ⟨length, rfl⟩ := Nat.exists_eq_add_of_lt hlength
  rw [contents, Nat.zero_add, List.range_succ_eq_map, List.map_cons, List.head?_cons,
    Nat.add_zero, Nat.mod_eq_of_lt hhead]

/-- Two different places of the queue have different cells. -/
theorem cell_ne {i j : Nat} (hi : i < capacity) (hj : j < i) :
    (head + j) % capacity ≠ (head + i) % capacity := by
  intro hsame
  have hzero := Nat.sub_mod_eq_zero_of_mod_eq hsame.symm
  rw [Nat.add_sub_add_left, Nat.mod_eq_of_lt (by omega)] at hzero
  omega

/-- Writing behind the youngest element appends. -/
theorem contents_append (hroom : length < capacity) (a : α) :
    contents capacity (Function.update cells ((head + length) % capacity) a) head (length + 1) =
      contents capacity cells head length ++ [a] := by
  rw [contents, List.range_succ, List.map_append, contents]
  congr 1
  · apply List.map_congr_left
    intro i hi
    exact Function.update_of_ne (cell_ne hroom (List.mem_range.mp hi)) _ _
  · rw [List.map_singleton, Function.update_self]

end RingQueue

end EspMiner.Library
