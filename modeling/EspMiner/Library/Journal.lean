import Mathlib.Data.List.Basic
import Mathlib.Data.List.Forall2

/-!
# Computations that keep a journal

A `Journal` computation appends events to a journal and may fail.  `Emits` is its
specification: it only appends, and what it appends is described both where it returns
a value and where it fails.
-/

namespace EspMiner.Library

/-- From the journal so far, a result and the journal behind it. -/
def Journal (ε ω α : Type) : Type := List ω → Except ε α × List ω

namespace Journal

variable {ε ω α β ι : Type}

instance : Monad (Journal ε ω) where
  pure a := fun journal => (.ok a, journal)
  bind x f := fun journal =>
    match x journal with
    | (.ok a, journal) => f a journal
    | (.error e, journal) => (.error e, journal)

def fail (e : ε) : Journal ε ω α := fun journal => (.error e, journal)

/-- One event, which may answer with a value. -/
def perform (answer : List ω → Except ε α) (event : Except ε α → ω) : Journal ε ω α :=
  fun journal => (answer journal, journal ++ [event (answer journal)])

/-- Go on where `x` fails. -/
def attempt (x : Journal ε ω α) : Journal ε ω (Option α) := fun journal =>
  match x journal with
  | (.ok a, journal) => (.ok (some a), journal)
  | (.error _, journal) => (.ok none, journal)

/-- The body for every element of a list, until one fails. -/
def forEach : List ι → (ι → Journal ε ω Unit) → Journal ε ω Unit
  | [], _ => pure ()
  | i :: rest, body => do
      body i
      forEach rest body

/-- What `x` appends meets `Q` where it returns a value, and `E` where it fails. -/
def Emits (x : Journal ε ω α) (Q : α → List ω → Prop) (E : List ω → Prop) : Prop :=
  ∀ journal, ∃ events, (x journal).2 = journal ++ events ∧
    match (x journal).1 with
    | .ok a => Q a events
    | .error _ => E events

section Rules

variable {x : Journal ε ω α} {f : α → Journal ε ω β} {Q Q' : α → List ω → Prop}
  {R : β → List ω → Prop} {E E' : List ω → Prop}

theorem Emits.mono (h : x.Emits Q E) (hQ : ∀ a events, Q a events → Q' a events)
    (hE : ∀ events, E events → E' events) : x.Emits Q' E' := by
  intro journal
  obtain ⟨events, hjournal, hresult⟩ := h journal
  refine ⟨events, hjournal, ?_⟩
  cases hx : (x journal).1 with
  | ok a =>
    rw [hx] at hresult
    exact hQ a events hresult
  | error e =>
    rw [hx] at hresult
    exact hE events hresult

theorem emits_pure {a : α} (h : Q a []) : (pure a : Journal ε ω α).Emits Q E := by
  intro journal
  exact ⟨[], (List.append_nil journal).symm, h⟩

theorem emits_fail {e : ε} (h : E []) : (fail e : Journal ε ω α).Emits Q E := by
  intro journal
  exact ⟨[], (List.append_nil journal).symm, h⟩

theorem emits_perform {answer : List ω → Except ε α} {event : Except ε α → ω}
    (hok : ∀ a, Q a [event (.ok a)]) (herror : ∀ e, E [event (.error e)]) :
    (perform answer event).Emits Q E := by
  intro journal
  refine ⟨[event (answer journal)], rfl, ?_⟩
  simp only [perform]
  cases answer journal with
  | ok a => exact hok a
  | error e => exact herror e

/-- The continuation is judged by what it appends behind the events before it. -/
theorem Emits.bind (h : x.Emits (fun a events =>
      (f a).Emits (fun b more => R b (events ++ more)) fun more => E (events ++ more)) E) :
    (x >>= f).Emits R E := by
  intro journal
  obtain ⟨events, hjournal, hresult⟩ := h journal
  rcases hx : x journal with ⟨result, journal'⟩
  rw [hx] at hjournal hresult
  have hrun : (x >>= f) journal = match (result, journal') with
      | (.ok a, journal) => f a journal
      | (.error e, journal) => (.error e, journal) := by
    rw [← hx]
    rfl
  rw [hrun]
  cases result with
  | error e => exact ⟨events, hjournal, hresult⟩
  | ok a =>
    obtain ⟨more, hmore, hlast⟩ := hresult journal'
    simp only at hjournal
    refine ⟨events ++ more, ?_, hlast⟩
    rw [hmore, hjournal, List.append_assoc]

theorem Emits.attempt (h : x.Emits (fun a events => Q' a events) E)
    {S : Option α → List ω → Prop} (hok : ∀ a events, Q' a events → S (some a) events)
    (herror : ∀ events, E events → S none events) : x.attempt.Emits S E' := by
  intro journal
  obtain ⟨events, hjournal, hresult⟩ := h journal
  rcases hx : x journal with ⟨result, journal'⟩
  rw [hx] at hjournal hresult
  refine ⟨events, ?_⟩
  simp only [Journal.attempt, hx]
  cases result with
  | ok a => exact ⟨hjournal, hok a events hresult⟩
  | error e => exact ⟨hjournal, herror events hresult⟩

/-- Two specifications of one computation hold together. -/
theorem Emits.and (h : x.Emits Q E) (h' : x.Emits Q' E') :
    x.Emits (fun a events => Q a events ∧ Q' a events) fun events => E events ∧ E' events := by
  intro journal
  obtain ⟨events, hjournal, hresult⟩ := h journal
  obtain ⟨events', hjournal', hresult'⟩ := h' journal
  obtain rfl : events = events' := List.append_cancel_left (hjournal.symm.trans hjournal')
  refine ⟨events, hjournal, ?_⟩
  cases hx : (x journal).1 with
  | ok a =>
    rw [hx] at hresult hresult'
    exact ⟨hresult, hresult'⟩
  | error e =>
    rw [hx] at hresult hresult'
    exact ⟨hresult, hresult'⟩

end Rules

/-- The part that belongs to an element. -/
theorem exists_mem_of_forall₂ {P : ι → List ω → Prop} {elements : List ι} {parts : List (List ω)}
    (h : List.Forall₂ P elements parts) {i : ι} (hi : i ∈ elements) : ∃ part ∈ parts, P i part := by
  induction h with
  | nil => cases hi
  | cons hpart _ ih =>
    rcases List.mem_cons.mp hi with rfl | hrest
    · exact ⟨_, List.mem_cons_self, hpart⟩
    · obtain ⟨part, hmem, hP⟩ := ih hrest
      exact ⟨part, List.mem_cons_of_mem _ hmem, hP⟩

/-! ### What a computation appends where it returns -/

/-- `Emits` where nothing is said of a failure. -/
def Yields (x : Journal ε ω α) (Q : α → List ω → Prop) : Prop := x.Emits Q fun _ => True

section Yields

variable {x : Journal ε ω α} {f : α → Journal ε ω β} {Q Q' : α → List ω → Prop}
  {R : β → List ω → Prop}

theorem Yields.mono (h : x.Yields Q) (hQ : ∀ a events, Q a events → Q' a events) :
    x.Yields Q' :=
  Emits.mono h hQ fun _ _ => trivial

theorem yields_pure {a : α} (h : Q a []) : (pure a : Journal ε ω α).Yields Q := emits_pure h

theorem yields_fail {e : ε} : (fail e : Journal ε ω α).Yields Q := emits_fail trivial

theorem Yields.bind (h : x.Yields Q)
    (hf : ∀ a events, Q a events → (f a).Yields fun b more => R b (events ++ more)) :
    (x >>= f).Yields R := by
  apply Emits.bind
  exact Emits.mono h hf fun _ _ => trivial

/-- A loop appends one part for each element of its list. -/
theorem yields_forEach {P : ι → List ω → Prop} {body : ι → Journal ε ω Unit} {elements : List ι}
    (h : ∀ i ∈ elements, (body i).Yields fun _ events => P i events) :
    (forEach elements body).Yields
      fun _ events => ∃ parts, events = parts.flatten ∧ List.Forall₂ P elements parts := by
  induction elements with
  | nil => exact yields_pure ⟨[], rfl, .nil⟩
  | cons i rest ih =>
    apply (h i List.mem_cons_self).bind
    intro _ events hevents
    apply (ih fun j hj => h j (List.mem_cons_of_mem i hj)).mono
    rintro _ more ⟨parts, rfl, hparts⟩
    exact ⟨events :: parts, rfl, .cons hevents hparts⟩

/-- A loop whose body appends one event appends the events of its list. -/
theorem yields_forEach_map {event : ι → ω} {body : ι → Journal ε ω Unit} {elements : List ι}
    (h : ∀ i ∈ elements, (body i).Yields fun _ events => events = [event i]) :
    (forEach elements body).Yields fun _ events => events = elements.map event := by
  induction elements with
  | nil => exact yields_pure rfl
  | cons i rest ih =>
    apply (h i List.mem_cons_self).bind
    rintro _ events rfl
    apply (ih fun j hj => h j (List.mem_cons_of_mem i hj)).mono
    rintro _ more rfl
    rfl

/-- What a run appends, where it returned. -/
theorem Yields.of_ok (h : x.Yields Q) {journal journal' : List ω} {a : α}
    (hx : x journal = (.ok a, journal')) : ∃ events, journal' = journal ++ events ∧ Q a events := by
  obtain ⟨events, hjournal, hresult⟩ := h journal
  rw [hx] at hjournal hresult
  exact ⟨events, hjournal, hresult⟩

end Yields

/-! ### Computations that never fail -/

/-- `x` returns `a` behind every journal. -/
def Returns (x : Journal ε ω α) (a : α) : Prop := ∀ journal, (x journal).1 = .ok a

theorem returns_pure (a : α) : (pure a : Journal ε ω α).Returns a := fun _ => rfl

theorem Returns.bind {x : Journal ε ω α} {f : α → Journal ε ω β} {a : α} {b : β}
    (hx : x.Returns a) (hf : (f a).Returns b) : (x >>= f).Returns b := by
  intro journal
  have hfirst := hx journal
  rcases heq : x journal with ⟨result, journal'⟩
  rw [heq] at hfirst
  obtain rfl : result = .ok a := hfirst
  have hrun : (x >>= f) journal = f a journal' := by simp only [Bind.bind, heq]
  rw [hrun]
  exact hf journal'

theorem returns_forEach {body : ι → Journal ε ω Unit} {elements : List ι}
    (h : ∀ i ∈ elements, (body i).Returns ()) : (forEach elements body).Returns () := by
  induction elements with
  | nil => exact returns_pure ()
  | cons i rest ih =>
    exact (h i List.mem_cons_self).bind (ih fun j hj => h j (List.mem_cons_of_mem i hj))

/-! ### Computations that append certain events only -/

/-- Every event that `x` appends meets `p`. -/
def Confined (p : ω → Prop) (x : Journal ε ω α) : Prop :=
  x.Emits (fun _ events => ∀ e ∈ events, p e) fun events => ∀ e ∈ events, p e

section Confined

variable {p : ω → Prop} {x : Journal ε ω α} {f : α → Journal ε ω β}

theorem confined_pure (a : α) : Confined p (pure a : Journal ε ω α) :=
  emits_pure fun _ h => absurd h List.not_mem_nil

theorem confined_fail (e : ε) : Confined p (fail e : Journal ε ω α) :=
  emits_fail fun _ h => absurd h List.not_mem_nil

theorem confined_perform {answer : List ω → Except ε α} {event : Except ε α → ω}
    (h : ∀ result, p (event result)) : Confined p (perform answer event) :=
  emits_perform (fun a _ he => List.mem_singleton.mp he ▸ h (.ok a))
    fun error _ he => List.mem_singleton.mp he ▸ h (.error error)

theorem Confined.bind (hx : Confined p x) (hf : ∀ a, Confined p (f a)) :
    Confined p (x >>= f) := by
  apply Emits.bind
  apply Emits.mono hx _ fun _ h => h
  intro a events hevents
  apply Emits.mono (hf a)
  · intro b more hmore e he
    exact (List.mem_append.mp he).elim (hevents e) (hmore e)
  · intro more hmore e he
    exact (List.mem_append.mp he).elim (hevents e) (hmore e)

theorem Confined.yields (hx : Confined p x) : x.Yields fun _ events => ∀ e ∈ events, p e :=
  Emits.mono hx (fun _ _ h => h) fun _ _ => trivial

/-- A confined computation yields such events only, beside what else it yields. -/
theorem Confined.and {Q : α → List ω → Prop} (hx : Confined p x) (h : x.Yields Q) :
    x.Yields fun a events => (∀ e ∈ events, p e) ∧ Q a events :=
  (Emits.and hx h).mono (fun _ _ both => both) fun _ _ => trivial

theorem Confined.attempt (hx : Confined p x) : Confined p x.attempt :=
  Emits.attempt hx (fun _ _ h => h) fun _ h => h

theorem confined_forEach {body : ι → Journal ε ω Unit} {elements : List ι}
    (h : ∀ i ∈ elements, Confined p (body i)) : Confined p (forEach elements body) := by
  induction elements with
  | nil => exact confined_pure ()
  | cons i rest ih =>
    exact (h i List.mem_cons_self).bind fun _ => ih fun j hj => h j (List.mem_cons_of_mem i hj)

end Confined

end Journal

end EspMiner.Library
