import Mathlib.Data.List.Infix
import Mathlib.Data.List.TakeDrop

/-!
# Reading an exact number of elements

A stream that arrives in pieces: every read finds some of it, as much as the peer and the
network have delivered by then.  The loop that reads until it has a given number of elements
gets the next ones of the stream, however they arrive.
-/

namespace EspMiner.Library

variable {α : Type*}

/-- What is still to come of a stream, and how much of it each of the next reads finds. -/
structure Incoming (α : Type*) where
  stream : List α
  arrivals : List Nat

namespace Incoming

/-- Read until `len` elements are there.  A read that finds none gives up, and what was read
before it is lost. -/
def receive (stream : List α) : List Nat → Nat → Option (List α) × Incoming α
  | arrivals, 0 => (some [], ⟨stream, arrivals⟩)
  | [], _ + 1 => (none, ⟨stream, []⟩)
  | available :: arrivals, len + 1 =>
      let got := stream.take (min available (len + 1))
      if got = [] then (none, ⟨stream, arrivals⟩)
      else
        match receive (stream.drop got.length) arrivals (len + 1 - got.length) with
        | (some rest, left) => (some (got ++ rest), left)
        | (none, left) => (none, left)

def readExact (incoming : Incoming α) (len : Nat) : Option (List α) × Incoming α :=
  receive incoming.stream incoming.arrivals len

/-- The peer keeps delivering: no read finds nothing while something is still to come. -/
def Steady (incoming : Incoming α) : Prop :=
  (∀ available ∈ incoming.arrivals, 0 < available) ∧
    incoming.stream.length ≤ incoming.arrivals.length

theorem receive_eq_some {stream : List α} {arrivals : List Nat} {len : Nat} {bytes : List α}
    {left : Incoming α} (h : receive stream arrivals len = (some bytes, left)) :
    stream = bytes ++ left.stream ∧ bytes.length = len := by
  induction arrivals generalizing stream len bytes with
  | nil =>
    cases len with
    | zero =>
      simp only [receive, Prod.mk.injEq, Option.some.injEq] at h
      obtain ⟨rfl, rfl⟩ := h
      simp
    | succ len => simp [receive] at h
  | cons available arrivals ih =>
    cases len with
    | zero =>
      simp only [receive, Prod.mk.injEq, Option.some.injEq] at h
      obtain ⟨rfl, rfl⟩ := h
      simp
    | succ len =>
      simp only [receive] at h
      split at h
      · cases h
      · split at h
        next rest left' hrest =>
          obtain ⟨rfl, rfl⟩ := Prod.mk.inj h |>.imp Option.some.inj id
          obtain ⟨hstream, hlength⟩ := ih hrest
          have hgot : (stream.take (min available (len + 1))).length ≤ len + 1 := by
            simp only [List.length_take]
            omega
          constructor
          · rw [List.append_assoc, ← hstream, List.length_take]
            conv_lhs => rw [← List.take_append_drop (min available (len + 1)) stream]
            rcases Nat.le_total (min available (len + 1)) stream.length with hle | hge
            · rw [Nat.min_eq_left hle]
            · rw [Nat.min_eq_right hge, List.drop_of_length_le hge,
                List.drop_of_length_le (Nat.le_refl _)]
          · rw [List.length_append, hlength]
            omega
        next => cases h

theorem readExact_eq_some {incoming left : Incoming α} {len : Nat} {bytes : List α}
    (h : incoming.readExact len = (some bytes, left)) :
    incoming.stream = bytes ++ left.stream ∧ bytes.length = len :=
  receive_eq_some h

theorem Steady.exists_receive {stream : List α} {arrivals : List Nat} {len : Nat}
    (h : Steady ⟨stream, arrivals⟩) (hlen : len ≤ stream.length) :
    ∃ left, receive stream arrivals len = (some (stream.take len), left) ∧
      left.stream = stream.drop len ∧ left.Steady := by
  induction arrivals generalizing stream len with
  | nil =>
    obtain ⟨-, hshort⟩ := h
    obtain rfl : len = 0 := Nat.le_zero.mp (hlen.trans hshort)
    exact ⟨⟨stream, []⟩, by simp [receive], rfl, by simp, hshort⟩
  | cons available arrivals ih =>
    obtain ⟨hpositive, hshort⟩ := h
    cases len with
    | zero => exact ⟨⟨stream, available :: arrivals⟩, by simp [receive], rfl, hpositive, hshort⟩
    | succ len =>
      have havailable := hpositive available List.mem_cons_self
      -- the read finds `count` elements, and the loop goes on with the rest
      generalize hcount : min available (len + 1) = count
      have hbounds : 0 < count ∧ count ≤ len + 1 := by omega
      have hgot : (stream.take count).length = count := by
        rw [List.length_take]
        omega
      have hne : stream.take count ≠ [] := by
        apply List.ne_nil_of_length_pos
        omega
      simp only [List.length_cons] at hshort
      have hrest : Steady ⟨stream.drop count, arrivals⟩ := by
        refine ⟨fun a ha => hpositive a (List.mem_cons_of_mem _ ha), ?_⟩
        show (stream.drop count).length ≤ arrivals.length
        rw [List.length_drop]
        omega
      obtain ⟨left, hleft, hstream, hsteady⟩ :=
        @ih (stream.drop count) (len + 1 - count) hrest (by rw [List.length_drop]; omega)
      refine ⟨left, ?_, ?_, hsteady⟩
      · simp only [receive, hcount, if_neg hne, hgot, hleft]
        rw [← List.take_add, Nat.add_sub_cancel' hbounds.2]
      · rw [hstream, List.drop_drop, Nat.add_sub_cancel' hbounds.2]

/-- A steady stream gives the next elements, and stays steady. -/
theorem Steady.exists_readExact {incoming : Incoming α} (h : incoming.Steady) {len : Nat}
    (hlen : len ≤ incoming.stream.length) :
    ∃ left, incoming.readExact len = (some (incoming.stream.take len), left) ∧
      left.stream = incoming.stream.drop len ∧ left.Steady :=
  h.exists_receive hlen

end Incoming

end EspMiner.Library
