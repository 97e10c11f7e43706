import Mathlib.Data.List.TakeWhile

/-!
# Runs and histories

A component is driven by a list of inputs through a step function; `run` is the
state this leaves.  What a component did is recorded as a history, a list of
events with the newest event first, so that the head of the list is the most
recent event and `since` cuts the list at the last barrier.
-/

namespace EspMiner.Library

section Run

variable {σ ι : Type*} (step : σ → ι → σ)

/-- The state left by feeding `inputs` to the machine from `s`. -/
def run (s : σ) (inputs : List ι) : σ := inputs.foldl step s

@[simp] theorem run_nil (s : σ) : run step s [] = s := rfl

@[simp] theorem run_cons (s : σ) (i : ι) (inputs : List ι) :
    run step s (i :: inputs) = run step (step s i) inputs := rfl

theorem run_append (s : σ) (first second : List ι) :
    run step s (first ++ second) = run step (run step s first) second :=
  List.foldl_append

/-- A predicate that every step preserves holds at the end of every run. -/
theorem run_invariant {P : σ → Prop} (hstep : ∀ s i, P s → P (step s i))
    {s : σ} (hs : P s) (inputs : List ι) : P (run step s inputs) := by
  induction inputs generalizing s with
  | nil => exact hs
  | cons i inputs ih => exact ih (hstep s i hs)

/-- Every input of the run meets `ok` in the state in which it is taken. -/
def Guarded (ok : σ → ι → Prop) : σ → List ι → Prop
  | _, [] => True
  | s, i :: inputs => ok s i ∧ Guarded ok (step s i) inputs

instance Guarded.decidable {ok : σ → ι → Prop} [∀ s i, Decidable (ok s i)] :
    (s : σ) → (inputs : List ι) → Decidable (Guarded step ok s inputs)
  | _, [] => .isTrue trivial
  | s, i :: inputs =>
      have : Decidable (Guarded step ok (step s i) inputs) := Guarded.decidable _ inputs
      inferInstanceAs (Decidable (ok s i ∧ Guarded step ok (step s i) inputs))

theorem Guarded.of_forall {ok : σ → ι → Prop} {inputs : List ι}
    (h : ∀ i ∈ inputs, ∀ s, ok s i) (s : σ) : Guarded step ok s inputs := by
  induction inputs generalizing s with
  | nil => trivial
  | cons i inputs ih =>
    exact ⟨h i List.mem_cons_self s, ih (fun j hj => h j (List.mem_cons_of_mem _ hj)) _⟩

theorem Guarded.append {ok : σ → ι → Prop} {s : σ} {first second : List ι}
    (hfirst : Guarded step ok s first) (hsecond : Guarded step ok (run step s first) second) :
    Guarded step ok s (first ++ second) := by
  induction first generalizing s with
  | nil => exact hsecond
  | cons i first ih => exact ⟨hfirst.1, ih hfirst.2 hsecond⟩

theorem guarded_append_iff {ok : σ → ι → Prop} {s : σ} {first second : List ι} :
    Guarded step ok s (first ++ second) ↔
      Guarded step ok s first ∧ Guarded step ok (run step s first) second := by
  refine ⟨?_, fun h => h.1.append step h.2⟩
  intro h
  induction first generalizing s with
  | nil => exact ⟨trivial, h⟩
  | cons i first ih => exact ⟨⟨h.1, (ih h.2).1⟩, (ih h.2).2⟩

/-- The invariant rule for runs whose inputs all meet a guard. -/
theorem Guarded.invariant {ok : σ → ι → Prop} {P : σ → Prop}
    (hstep : ∀ s i, P s → ok s i → P (step s i))
    {s : σ} {inputs : List ι} (hok : Guarded step ok s inputs) (hs : P s) :
    P (run step s inputs) := by
  induction inputs generalizing s with
  | nil => exact hs
  | cons i inputs ih => exact ih hok.2 (hstep s i hs hok.1)

/-! ### Observers -/

/-- The machine with an observer beside it, which sees every input in the state in which the
machine takes it. -/
def watched {ω : Type*} (watch : σ → ω → ι → ω) (s : σ × ω) (input : ι) : σ × ω :=
  (step s.1 input, watch s.1 s.2 input)

/-- An observer does not disturb what it watches. -/
theorem run_watched_fst {ω : Type*} (watch : σ → ω → ι → ω) (s : σ × ω) (inputs : List ι) :
    (run (watched step watch) s inputs).1 = run step s.1 inputs := by
  induction inputs generalizing s with
  | nil => rfl
  | cons i inputs ih => exact ih _

end Run

section History

variable {ε : Type*} {barrier : ε → Bool}

/-- Every event meets `ok` with the history before it. -/
def Throughout (ok : ε → List ε → Prop) : List ε → Prop
  | [] => True
  | event :: older => ok event older ∧ Throughout ok older

theorem throughout_iff {ok : ε → List ε → Prop} {history : List ε} :
    Throughout ok history ↔
      ∀ newer event older, history = newer ++ event :: older → ok event older := by
  induction history with
  | nil => simp [Throughout]
  | cons first history ih =>
    constructor
    · rintro ⟨hfirst, hrest⟩ newer event older hsplit
      cases newer with
      | nil =>
        obtain ⟨rfl, rfl⟩ := List.cons.inj hsplit
        exact hfirst
      | cons second newer => exact ih.mp hrest newer event older (List.cons.inj hsplit).2
    · intro h
      refine ⟨h [] first history rfl, ih.mpr ?_⟩
      rintro newer event older rfl
      exact h (first :: newer) event older rfl

/-- The events newer than the last event that is a barrier. -/
def since (barrier : ε → Bool) (history : List ε) : List ε :=
  history.takeWhile fun event => !barrier event

@[simp] theorem since_nil : since barrier [] = [] := rfl

theorem since_cons (event : ε) (history : List ε) :
    since barrier (event :: history) =
      if barrier event then [] else event :: since barrier history := by
  unfold since
  by_cases h : barrier event <;> simp [h]

@[simp] theorem since_cons_of_barrier {event : ε} (history : List ε)
    (h : barrier event = true) : since barrier (event :: history) = [] := by
  simp [since_cons, h]

@[simp] theorem since_cons_of_not_barrier {event : ε} (history : List ε)
    (h : barrier event = false) :
    since barrier (event :: history) = event :: since barrier history := by
  simp [since_cons, h]

theorem since_isPrefix (history : List ε) : since barrier history <+: history :=
  List.takeWhile_prefix _

/-- An event that is not among the events since the last barrier has the whole
stretch since that barrier after it. -/
theorem since_isPrefix_of_not_mem {event : ε} {newer older : List ε}
    (h : event ∉ since barrier (newer ++ event :: older)) :
    since barrier (newer ++ event :: older) <+: newer := by
  rcases List.prefix_or_prefix_of_prefix (since_isPrefix
    (newer ++ event :: older)) (List.prefix_append newer (event :: older)) with hle | ⟨rest, hrest⟩
  · exact hle
  · -- the stretch would reach `event` unless it ends with `newer`
    cases rest with
    | nil => exact ⟨[], by simpa using hrest.symm⟩
    | cons first rest =>
      obtain ⟨tail, htail⟩ := since_isPrefix (newer ++ event :: older)
      rw [← hrest, List.append_assoc] at htail
      obtain ⟨rfl, -⟩ := List.cons.inj (List.append_cancel_left htail)
      exact absurd (hrest ▸ List.mem_append_right newer List.mem_cons_self) h

/-- Without a barrier among the newer events, the stretch reaches past them. -/
theorem mem_since_of_not_barrier {event : ε} {newer older : List ε}
    (hnewer : ∀ e ∈ newer, barrier e = false) (hevent : barrier event = false) :
    event ∈ since barrier (newer ++ event :: older) := by
  induction newer with
  | nil =>
    rw [List.nil_append, since_cons_of_not_barrier older hevent]
    exact List.mem_cons_self
  | cons first newer ih =>
    rw [List.cons_append, since_cons_of_not_barrier _ (hnewer first List.mem_cons_self)]
    exact List.mem_cons_of_mem _ (ih fun e he => hnewer e (List.mem_cons_of_mem _ he))

end History

section OlderThan

variable {ε : Type*} [DecidableEq ε]

/-- The events older than the last `event`. -/
def olderThan (event : ε) : List ε → List ε
  | [] => []
  | last :: older => if last = event then older else olderThan event older

@[simp] theorem olderThan_cons_self (event : ε) (history : List ε) :
    olderThan event (event :: history) = history := if_pos rfl

theorem olderThan_cons_of_ne {event last : ε} (h : last ≠ event) (history : List ε) :
    olderThan event (last :: history) = olderThan event history := if_neg h

theorem olderThan_append_of_mem {event : ε} {newer : List ε} (h : event ∈ newer)
    (older : List ε) : olderThan event (newer ++ older) = olderThan event newer ++ older := by
  induction newer with
  | nil => cases h
  | cons last newer ih =>
    by_cases hlast : last = event
    · subst hlast
      simp
    · rw [List.cons_append, olderThan_cons_of_ne hlast, olderThan_cons_of_ne hlast]
      exact ih ((List.mem_cons.mp h).resolve_left fun heq => hlast heq.symm)

theorem olderThan_append_of_not_mem {event : ε} {newer : List ε} (h : event ∉ newer)
    (older : List ε) : olderThan event (newer ++ older) = olderThan event older := by
  induction newer with
  | nil => rfl
  | cons last newer ih =>
    have hlast : last ≠ event := by
      rintro rfl
      exact h List.mem_cons_self
    rw [List.cons_append, olderThan_cons_of_ne hlast]
    exact ih fun hmem => h (List.mem_cons_of_mem _ hmem)

theorem olderThan_sublist (event : ε) (history : List ε) :
    List.Sublist (olderThan event history) history := by
  induction history with
  | nil => exact .slnil
  | cons last history ih =>
    unfold olderThan
    split
    · exact List.sublist_cons_self last history
    · exact ih.cons last

end OlderThan

end EspMiner.Library
