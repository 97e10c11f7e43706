import Mathlib.Data.List.Forall2

/-!
# Scripts

A script drives a device: it makes its calls one after another and gives up at
the first failure that it does not handle.  It is an `EStateM` whose state keeps
what was asked and answered.  `Wp` is its weakest precondition; the rules below
compute it from the first call to the last.
-/

namespace EspMiner.Library

section Script

variable {σ φ α β : Type}

/-- From this state the script ends as `Q` says, or gives up in a state that
meets `E`. -/
def Wp (x : EStateM φ σ α) (Q : α → σ → Prop) (E : σ → Prop) (s : σ) : Prop :=
  match x s with
  | .ok a s' => Q a s'
  | .error _ s' => E s'

/-- A call whose answer depends on the state, and which is recorded there. -/
def call (answer : σ → α) (record : α → σ → σ) : EStateM φ σ α := fun s =>
  .ok (answer s) (record (answer s) s)

variable {Q Q' : α → σ → Prop} {E E' : σ → Prop} {s : σ}

theorem Wp.mono {x : EStateM φ σ α} (h : Wp x Q E s) (hQ : ∀ a s', Q a s' → Q' a s')
    (hE : ∀ s', E s' → E' s') : Wp x Q' E' s := by
  unfold Wp at h ⊢
  split at h
  · exact hQ _ _ h
  · exact hE _ h

/-- Nothing is said of how the script ends. -/
theorem wp_true {x : EStateM φ σ α} : Wp x (fun _ _ => True) (fun _ => True) s := by
  unfold Wp
  split <;> trivial

/-- Two facts about one script. -/
theorem Wp.and {x : EStateM φ σ α} (h : Wp x Q E s) (h' : Wp x Q' E' s) :
    Wp x (fun a s' => Q a s' ∧ Q' a s') (fun s' => E s' ∧ E' s') s := by
  unfold Wp at h h' ⊢
  cases hx : x s with
  | ok a s' =>
    rw [hx] at h h'
    exact ⟨h, h'⟩
  | error e s' =>
    rw [hx] at h h'
    exact ⟨h, h'⟩

/-- A script that does not give up ends. -/
theorem Wp.exists_ok {x : EStateM φ σ α} (h : Wp x Q (fun _ => False) s) : ∃ a s', Q a s' := by
  unfold Wp at h
  split at h
  · exact ⟨_, _, h⟩
  · exact h.elim

@[simp] theorem wp_pure (a : α) : Wp (pure a : EStateM φ σ α) Q E s ↔ Q a s := Iff.rfl

@[simp] theorem wp_throw (e : φ) : Wp (throw e : EStateM φ σ α) Q E s ↔ E s := Iff.rfl

@[simp] theorem wp_call (answer : σ → α) (record : α → σ → σ) :
    Wp (call answer record : EStateM φ σ α) Q E s ↔ Q (answer s) (record (answer s) s) := Iff.rfl

@[simp] theorem wp_get {Q : σ → σ → Prop} : Wp (get : EStateM φ σ σ) Q E s ↔ Q s s := Iff.rfl

@[simp] theorem wp_modify {Q : PUnit → σ → Prop} (change : σ → σ) :
    Wp (modify change : EStateM φ σ PUnit) Q E s ↔ Q ⟨⟩ (change s) := Iff.rfl

@[simp] theorem wp_bind {x : EStateM φ σ β} {f : β → EStateM φ σ α} :
    Wp (x >>= f) Q E s ↔ Wp x (fun b s' => Wp (f b) Q E s') E s := by
  show (match EStateM.bind x f s with | .ok a s' => Q a s' | .error _ s' => E s') ↔ _
  unfold Wp EStateM.bind
  cases x s <;> rfl

/-- What follows a part of which nothing is asked -/
theorem wp_bind_true {x : EStateM φ σ β} {f : β → EStateM φ σ α}
    (hf : ∀ b s', Wp (f b) Q (fun _ => True) s') : Wp (x >>= f) Q (fun _ => True) s :=
  wp_bind.mpr (wp_true.mono (fun b s' _ => hf b s') fun _ _ => trivial)

/-- A handler sees the state in which the script gave up. -/
theorem wp_tryCatch {x : EStateM φ σ α} {handle : φ → EStateM φ σ α} (h : Wp x Q E' s)
    (hhandle : ∀ e s', E' s' → Wp (handle e) Q E s') : Wp (tryCatch x handle) Q E s := by
  show (match EStateM.tryCatch x handle s with | .ok a s' => Q a s' | .error _ s' => E s')
  unfold Wp at h
  unfold EStateM.tryCatch
  cases hx : x s with
  | ok a s' =>
    rw [hx] at h
    exact h
  | error e s' =>
    rw [hx] at h
    exact hhandle e s' h

end Script

/-! ### Scripts that keep a trace

What a script asks and is answered goes to the front of a trace.  `Appends` describes what one
script adds to it, and says that the script leaves the rest of the state. -/

section Appends

variable {σ φ α β ι ω κ : Type} (trace : σ → List ω) (kept : σ → κ)

/-- The events that the script adds, newest first, meet `Q` where it ends and `E` where it gives
up. -/
def Appends (x : EStateM φ σ α) (Q : α → List ω → Prop) (E : List ω → Prop) : Prop :=
  ∀ s, Wp x
    (fun a s' => kept s' = kept s ∧ ∃ events, trace s' = events ++ trace s ∧ Q a events)
    (fun s' => kept s' = kept s ∧ ∃ events, trace s' = events ++ trace s ∧ E events) s

/-- Every event that the script adds meets `p`. -/
def AppendsOnly (p : ω → Prop) (x : EStateM φ σ α) : Prop :=
  Appends trace kept x (fun _ events => ∀ e ∈ events, p e) fun events => ∀ e ∈ events, p e

variable {trace kept} {x : EStateM φ σ α} {f : α → EStateM φ σ β} {Q Q' : α → List ω → Prop}
  {R : β → List ω → Prop} {E E' : List ω → Prop} {p : ω → Prop}

theorem Appends.mono (h : Appends trace kept x Q E) (hQ : ∀ a events, Q a events → Q' a events)
    (hE : ∀ events, E events → E' events) : Appends trace kept x Q' E' := by
  intro s
  refine (h s).mono ?_ ?_
  · rintro a s' ⟨hkept, events, htrace, hresult⟩
    exact ⟨hkept, events, htrace, hQ a events hresult⟩
  · rintro s' ⟨hkept, events, htrace, hresult⟩
    exact ⟨hkept, events, htrace, hE events hresult⟩

/-- Two descriptions of one script hold together. -/
theorem Appends.and (h : Appends trace kept x Q E) (h' : Appends trace kept x Q' E') :
    Appends trace kept x (fun a events => Q a events ∧ Q' a events)
      fun events => E events ∧ E' events := by
  intro s
  refine ((h s).and (h' s)).mono ?_ ?_
  · rintro a s' ⟨⟨hkept, events, htrace, hresult⟩, -, events', htrace', hresult'⟩
    obtain rfl : events = events' := List.append_cancel_right (htrace.symm.trans htrace')
    exact ⟨hkept, events, htrace, hresult, hresult'⟩
  · rintro s' ⟨⟨hkept, events, htrace, hresult⟩, -, events', htrace', hresult'⟩
    obtain rfl : events = events' := List.append_cancel_right (htrace.symm.trans htrace')
    exact ⟨hkept, events, htrace, hresult, hresult'⟩

theorem appends_pure {a : α} (h : Q a []) :
    Appends trace kept (pure a : EStateM φ σ α) Q E :=
  fun _ => ⟨rfl, [], rfl, h⟩

theorem appends_throw {e : φ} (h : E []) : Appends trace kept (throw e : EStateM φ σ α) Q E :=
  fun _ => ⟨rfl, [], rfl, h⟩

/-- A call that is recorded as one event -/
theorem appends_call {answer : σ → α} {record : α → σ → σ} (event : α → ω)
    (htrace : ∀ a s, trace (record a s) = event a :: trace s)
    (hkept : ∀ a s, kept (record a s) = kept s) (h : ∀ a, Q a [event a]) :
    Appends trace kept (call answer record : EStateM φ σ α) Q E :=
  fun s => ⟨hkept _ s, [event (answer s)], htrace _ s, h (answer s)⟩

/-- The continuation is judged by what it adds before the events that are there. -/
theorem Appends.bind (h : Appends trace kept x Q E)
    (hf : ∀ a events, Q a events →
      Appends trace kept (f a) (fun b more => R b (more ++ events))
        fun more => E (more ++ events)) :
    Appends trace kept (x >>= f) R E := by
  intro s
  rw [wp_bind]
  refine (h s).mono ?_ fun s' hs' => hs'
  rintro a s' ⟨hkept, events, htrace, hresult⟩
  refine (hf a events hresult s').mono ?_ ?_
  · rintro b s'' ⟨hkept', more, htrace', hresult'⟩
    exact ⟨hkept'.trans hkept, more ++ events, by rw [htrace', htrace, List.append_assoc],
      hresult'⟩
  · rintro s'' ⟨hkept', more, htrace', hresult'⟩
    exact ⟨hkept'.trans hkept, more ++ events, by rw [htrace', htrace, List.append_assoc],
      hresult'⟩

/-- What comes after a script starts behind what the script added. -/
theorem Appends.wp_bind {F : β → σ → Prop} {G : σ → Prop} {s : σ}
    (h : Appends trace kept x Q E)
    (hf : ∀ a s' events, kept s' = kept s → trace s' = events ++ trace s → Q a events →
      Wp (f a) F G s')
    (hE : ∀ s' events, kept s' = kept s → trace s' = events ++ trace s → E events → G s') :
    Wp (x >>= f) F G s := by
  rw [EspMiner.Library.wp_bind]
  refine (h s).mono ?_ ?_
  · rintro a s' ⟨hkept, events, htrace, hresult⟩
    exact hf a s' events hkept htrace hresult
  · rintro s' ⟨hkept, events, htrace, hresult⟩
    exact hE s' events hkept htrace hresult

/-- Less of the state is kept. -/
theorem AppendsOnly.forget {κ' : Type} (view : κ → κ') (h : AppendsOnly trace kept p x) :
    AppendsOnly trace (view ∘ kept) p x := by
  intro s
  refine (h s).mono ?_ ?_
  · rintro a s' ⟨hkept, hadded⟩
    exact ⟨congrArg view hkept, hadded⟩
  · rintro s' ⟨hkept, hadded⟩
    exact ⟨congrArg view hkept, hadded⟩

theorem appendsOnly_get : AppendsOnly trace kept p (get : EStateM φ σ σ) :=
  fun _ => ⟨rfl, [], rfl, fun _ h => absurd h List.not_mem_nil⟩

/-- A change of what is neither traced nor kept -/
theorem appendsOnly_modify {change : σ → σ} (htrace : ∀ s, trace (change s) = trace s)
    (hkept : ∀ s, kept (change s) = kept s) :
    AppendsOnly trace kept p (modify change : EStateM φ σ PUnit) :=
  fun s => ⟨hkept s, [], htrace s, fun _ h => absurd h List.not_mem_nil⟩

/-- A loop adds one part for each element of its list, the newest in front. -/
theorem appends_forM {P : ι → List ω → Prop} {body : ι → EStateM φ σ PUnit} {elements : List ι}
    (h : ∀ i ∈ elements, Appends trace kept (body i) (fun _ events => P i events) fun _ => True) :
    Appends trace kept (elements.forM body)
      (fun _ events => ∃ parts, events = parts.reverse.flatten ∧ List.Forall₂ P elements parts)
      fun _ => True := by
  induction elements with
  | nil => exact appends_pure ⟨[], rfl, .nil⟩
  | cons i rest ih =>
    rw [List.forM_eq_forM, List.forM_cons, ← List.forM_eq_forM]
    apply (h i List.mem_cons_self).bind
    intro _ events hevents
    apply (ih fun j hj => h j (List.mem_cons_of_mem i hj)).mono
    · rintro _ more ⟨parts, rfl, hparts⟩
      exact ⟨events :: parts, by simp, .cons hevents hparts⟩
    · exact fun _ _ => trivial

/-- A loop whose body adds one event adds the events of its list. -/
theorem appends_forM_map {event : ι → ω} {body : ι → EStateM φ σ PUnit} {elements : List ι}
    (h : ∀ i ∈ elements,
      Appends trace kept (body i) (fun _ events => events = [event i]) fun _ => True) :
    Appends trace kept (elements.forM body)
      (fun _ events => events = (elements.map event).reverse) fun _ => True := by
  refine (appends_forM h).mono ?_ fun _ h => h
  rintro _ events ⟨parts, rfl, hparts⟩
  induction hparts with
  | nil => rfl
  | @cons i part rest parts hpart hparts ih =>
    subst hpart
    have htail := ih fun j hj => h j (List.mem_cons_of_mem i hj)
    simp only [List.reverse_cons, List.flatten_append, htail, List.map_cons, List.flatten_cons,
      List.flatten_nil, List.append_nil]

/-- The element that a part belongs to -/
theorem exists_element_of_forall₂ {P : ι → List ω → Prop} {elements : List ι}
    {parts : List (List ω)} (h : List.Forall₂ P elements parts) {part : List ω}
    (hpart : part ∈ parts) : ∃ i ∈ elements, P i part := by
  induction h with
  | nil => exact absurd hpart List.not_mem_nil
  | @cons i first _ _ hfirst _ ih =>
    rcases List.mem_cons.mp hpart with rfl | hrest
    · exact ⟨i, List.mem_cons_self, hfirst⟩
    · obtain ⟨j, hj, hP⟩ := ih hrest
      exact ⟨j, List.mem_cons_of_mem _ hj, hP⟩

/-- The part of an element, with the parts of the elements after it in front. -/
theorem exists_split_of_forall₂ {P : ι → List ω → Prop} {elements : List ι}
    {parts : List (List ω)} (h : List.Forall₂ P elements parts) (hnodup : elements.Nodup) {i : ι}
    (hi : i ∈ elements) :
    ∃ newer part older, parts.reverse.flatten = newer ++ (part ++ older) ∧ P i part ∧
      ∀ e ∈ newer, ∃ j ∈ elements, j ≠ i ∧ ∃ part', P j part' ∧ e ∈ part' := by
  induction h with
  | nil => exact absurd hi List.not_mem_nil
  | @cons j part rest parts hpart hparts ih =>
    rw [List.nodup_cons] at hnodup
    rw [List.reverse_cons, List.flatten_append, List.flatten_cons, List.flatten_nil,
      List.append_nil]
    rcases List.mem_cons.mp hi with rfl | hrest
    · refine ⟨parts.reverse.flatten, part, [], by rw [List.append_nil], hpart, ?_⟩
      intro e he
      obtain ⟨part', hmem, he'⟩ := List.mem_flatten.mp he
      obtain ⟨k, hk, hpart'⟩ := exists_element_of_forall₂ hparts (List.mem_reverse.mp hmem)
      exact ⟨k, List.mem_cons_of_mem _ hk, fun heq => hnodup.1 (heq ▸ hk), part', hpart', he'⟩
    · obtain ⟨newer, part', older, hsplit, hpart', hnewer⟩ := ih hnodup.2 hrest
      refine ⟨newer, part', older ++ part, by rw [hsplit]; simp, hpart', ?_⟩
      intro e he
      obtain ⟨k, hk, hne, hevent⟩ := hnewer e he
      exact ⟨k, List.mem_cons_of_mem _ hk, hne, hevent⟩

theorem AppendsOnly.mono {p q : ω → Prop} (h : AppendsOnly trace kept p x) (hpq : ∀ e, p e → q e) :
    AppendsOnly trace kept q x :=
  Appends.mono h (fun _ _ hevents e he => hpq e (hevents e he))
    fun _ hevents e he => hpq e (hevents e he)

theorem appendsOnly_pure (a : α) : AppendsOnly trace kept p (pure a : EStateM φ σ α) :=
  appends_pure fun _ h => absurd h List.not_mem_nil

theorem appendsOnly_throw (e : φ) : AppendsOnly trace kept p (throw e : EStateM φ σ α) :=
  appends_throw fun _ h => absurd h List.not_mem_nil

theorem appendsOnly_call {answer : σ → α} {record : α → σ → σ} (event : α → ω)
    (htrace : ∀ a s, trace (record a s) = event a :: trace s)
    (hkept : ∀ a s, kept (record a s) = kept s) (h : ∀ a, p (event a)) :
    AppendsOnly trace kept p (call answer record : EStateM φ σ α) :=
  appends_call event htrace hkept fun a _ he => List.mem_singleton.mp he ▸ h a

theorem AppendsOnly.bind (hx : AppendsOnly trace kept p x)
    (hf : ∀ a, AppendsOnly trace kept p (f a)) :
    AppendsOnly trace kept p (x >>= f) := by
  apply Appends.bind hx
  intro a events hevents
  refine Appends.mono (hf a) ?_ ?_
  · intro b more hmore e he
    exact (List.mem_append.mp he).elim (hmore e) (hevents e)
  · intro more hmore e he
    exact (List.mem_append.mp he).elim (hmore e) (hevents e)

theorem appendsOnly_forM {body : ι → EStateM φ σ PUnit} {elements : List ι}
    (h : ∀ i ∈ elements, AppendsOnly trace kept p (body i)) :
    AppendsOnly trace kept p (elements.forM body) := by
  induction elements with
  | nil => exact appendsOnly_pure _
  | cons i rest ih =>
    rw [List.forM_eq_forM, List.forM_cons, ← List.forM_eq_forM]
    exact (h i List.mem_cons_self).bind fun _ => ih fun j hj => h j (List.mem_cons_of_mem i hj)

theorem AppendsOnly.tryCatch {handle : φ → EStateM φ σ α} (hx : AppendsOnly trace kept p x)
    (hhandle : ∀ e, AppendsOnly trace kept p (handle e)) :
    AppendsOnly trace kept p (tryCatch x handle) := by
  intro s
  refine wp_tryCatch (hx s) ?_
  rintro e s' ⟨hkept, events, htrace, hevents⟩
  refine (hhandle e s').mono ?_ ?_
  · rintro a s'' ⟨hkept', more, htrace', hmore⟩
    refine ⟨hkept'.trans hkept, more ++ events, by rw [htrace', htrace, List.append_assoc], ?_⟩
    exact fun e he => (List.mem_append.mp he).elim (hmore e) (hevents e)
  · rintro s'' ⟨hkept', more, htrace', hmore⟩
    refine ⟨hkept'.trans hkept, more ++ events, by rw [htrace', htrace, List.append_assoc], ?_⟩
    exact fun e he => (List.mem_append.mp he).elim (hmore e) (hevents e)

end Appends

end EspMiner.Library
