import EspMiner.Http.LiveUpdates
import Mathlib.Data.List.Nodup

/-!
# Which viewers converge

A difference says nothing of what is gone from the new state, nor of a value that is again what
the task's baseline has.  `viewers_converge` has two parts:

* a viewer of any state shows the new one after one update exactly if it follows the update
  (`Follows`): no name that it shows is gone, and it shows what compares equal to the baseline;
* in a run in which nothing is missed, every connected viewer shows the state it was sent at its
  connection or the task's baseline, and behind each update the state that was serialised.

What is missed is a matter of the states alone: the last state, the new one and the one that was
sent at a connection, which an observer keeps (`Served`).  The run is an induction over the
steps; each connection begins with the state that was sent, and each update carries every viewer
that shows the same (`Same`) along with it (`Follows.congr`).
-/

namespace EspMiner

open Library

/-! ## Objects as finite maps -/

namespace JsonMembers

variable {members : JsonMembers} {key : List U8}

@[simp] theorem getItem_nil (key : List U8) : getItem [] key = none := rfl

theorem getItem_cons (name : List U8) (item : Json) (members : JsonMembers) (key : List U8) :
    getItem ((name, item) :: members) key
      = if name = key then some item else members.getItem key := by
  unfold getItem
  rw [List.find?_cons]
  by_cases hname : name = key <;> simp [hname]

theorem getItem_setItem (members : JsonMembers) (name : List U8) (value : Json)
    (key : List U8) :
    (members.setItem name value).getItem key
      = if name = key then some value else members.getItem key := by
  induction members with
  | nil => rw [setItem, getItem_cons]
  | cons member members ih =>
    obtain ⟨first, item⟩ := member
    rw [setItem]
    split
    · next hfirst =>
      obtain rfl : first = name := hfirst
      rw [getItem_cons, getItem_cons]
      split <;> rfl
    · next hfirst =>
      rw [getItem_cons, getItem_cons, ih]
      by_cases hkey : first = key
      · have hname : name ≠ key := fun h => hfirst (hkey.trans h.symm)
        rw [if_pos hkey, if_neg hname, if_pos hkey]
      · rw [if_neg hkey, if_neg hkey]

theorem mem_of_getItem {item : Json} (h : members.getItem key = some item) :
    (key, item) ∈ members := by
  obtain ⟨member, hfind, rfl⟩ := Option.map_eq_some_iff.mp h
  have hkey := List.find?_some hfind
  obtain rfl : member.1 = key := of_decide_eq_true hkey
  exact List.mem_of_find?_eq_some hfind

theorem getItem_eq_none (h : key ∉ members.map Prod.fst) : members.getItem key = none := by
  cases hitem : members.getItem key with
  | none => rfl
  | some item => exact absurd (List.mem_map_of_mem (mem_of_getItem hitem)) h

theorem getItem_of_mem {item : Json} (hnodup : (members.map Prod.fst).Nodup)
    (h : (key, item) ∈ members) : members.getItem key = some item := by
  induction members with
  | nil => cases h
  | cons member members ih =>
    obtain ⟨name, first⟩ := member
    rw [List.map_cons, List.nodup_cons] at hnodup
    rw [getItem_cons]
    rcases List.mem_cons.mp h with heq | hmem
    · obtain ⟨rfl, rfl⟩ := Prod.mk.inj heq
      exact if_pos rfl
    · have hne : name ≠ key := by
        rintro rfl
        exact hnodup.1 (List.mem_map.mpr ⟨_, hmem, rfl⟩)
      rw [if_neg hne]
      exact ih hnodup.2 hmem

end JsonMembers

open JsonMembers

/-- The same JSON value: the order of the members of an object does not matter. -/
inductive Same : Json → Json → Prop
  | refl (value : Json) : Same value value
  | object {members members' : JsonMembers}
      (hkeys : ∀ key, (members.getItem key).isSome = (members'.getItem key).isSome)
      (hitems : ∀ key item item', members.getItem key = some item →
        members'.getItem key = some item' → Same item item') :
      Same (.object members) (.object members')

/-- A property of the browser shows an item. -/
def Shows (shown : Option Json) (item : Json) : Prop :=
  ∃ value, shown = some value ∧ Same value item

/-- What is shown is the same as another value, or neither is there. -/
def SameShown (shown : Option Json) : Option Json → Prop
  | none => shown = none
  | some item => Shows shown item

theorem same_object_iff {members members' : JsonMembers} :
    Same (.object members) (.object members') ↔
      ∀ key, SameShown (members.getItem key) (members'.getItem key) := by
  constructor
  · intro h key
    cases h with
    | refl =>
      cases members.getItem key with
      | none => rfl
      | some item => exact ⟨item, rfl, .refl item⟩
    | object hkeys hitems =>
      have hkey := hkeys key
      cases hitem' : members'.getItem key with
      | none =>
        rw [hitem'] at hkey
        exact Option.not_isSome_iff_eq_none.mp (by rw [hkey]; exact Bool.false_ne_true)
      | some item' =>
        rw [hitem'] at hkey
        obtain ⟨item, hitem⟩ := Option.isSome_iff_exists.mp hkey
        exact ⟨item, hitem, hitems key item item' hitem hitem'⟩
  · intro h
    refine .object (fun key => ?_) fun key item item' hitem hitem' => ?_
    · have hkey := h key
      cases hitem' : members'.getItem key with
      | none =>
        rw [hitem'] at hkey
        rw [hkey]
      | some item' =>
        rw [hitem'] at hkey
        obtain ⟨value, hvalue, -⟩ := hkey
        rw [hvalue]
        rfl
    · have hkey := h key
      rw [hitem, hitem'] at hkey
      obtain ⟨value, hvalue, hsame⟩ := hkey
      exact Option.some.inj hvalue ▸ hsame

/-- Only an object is the same as an object. -/
theorem Same.isObject {value : Json} {members : JsonMembers} (h : Same value (.object members)) :
    ∃ shown, value = .object shown := by
  cases h with
  | refl => exact ⟨members, rfl⟩
  | object => exact ⟨_, rfl⟩

theorem Same.symm {value value' : Json} (h : Same value value') : Same value' value := by
  induction h with
  | refl value => exact .refl value
  | object hkeys _ ih =>
    exact .object (fun key => (hkeys key).symm) fun key item item' h h' => ih key item' item h' h

theorem Same.trans {a b c : Json} (h : Same a b) (h' : Same b c) : Same a c := by
  induction h generalizing c with
  | refl => exact h'
  | object hkeys hitems ih =>
    cases h' with
    | refl => exact .object hkeys hitems
    | object hkeys' hitems' =>
      refine .object (fun key => (hkeys key).trans (hkeys' key)) fun key item item'' h h'' => ?_
      obtain ⟨item', h'⟩ := Option.isSome_iff_exists.mp ((hkeys key).symm.trans (by rw [h]; rfl))
      exact ih key item item' h h' (hitems' key item' item'' h' h'')

theorem Shows.congr {shown shown' : Option Json} {item : Json} (h : Shows shown item)
    (hsame : SameShown shown shown') : Shows shown' item := by
  obtain ⟨value, rfl, hvalue⟩ := h
  cases shown' with
  | none => cases hsame
  | some value' =>
    obtain ⟨_, heq, hsame⟩ := hsame
    cases heq
    exact ⟨value', rfl, hsame.symm.trans hvalue⟩

/-! ## Differences and merging by key -/

/-- What a property is after an update of it, if there is one. -/
def applied (shown update : Option Json) : Option Json :=
  match update with
  | none => shown
  | some update => some (mergeLiveDataUpdate shown update)

theorem getItem_mergeMembers {update : JsonMembers} (hnodup : (update.map Prod.fst).Nodup)
    (shown : JsonMembers) (key : List U8) :
    (mergeMembers shown update).getItem key = applied (shown.getItem key) (update.getItem key) := by
  induction update generalizing shown with
  | nil => rw [mergeMembers]; rfl
  | cons entry update ih =>
    obtain ⟨name, value⟩ := entry
    rw [List.map_cons, List.nodup_cons] at hnodup
    rw [mergeMembers, ih hnodup.2, getItem_setItem, getItem_cons]
    split
    · next hname =>
      obtain rfl := hname
      rw [getItem_eq_none hnodup.1]
      rfl
    · rfl

section Diff

variable (compare : Json → Json → Bool)

theorem diffMembers_keys (last : JsonMembers) (members : JsonMembers) :
    ((diffMembers compare last members).map Prod.fst).Sublist (members.map Prod.fst) := by
  induction members with
  | nil => rw [diffMembers]
  | cons member members ih =>
    obtain ⟨key, item⟩ := member
    rw [diffMembers]
    split
    · exact ih.trans (List.sublist_cons_self _ _)
    · exact ih.cons_cons key

theorem getItem_diffMembers (last : JsonMembers) {members : JsonMembers}
    (hnodup : (members.map Prod.fst).Nodup) (key : List U8) :
    (diffMembers compare last members).getItem key
      = (members.getItem key).bind (diffItem compare (last.getItem key)) := by
  induction members with
  | nil => rw [diffMembers]; rfl
  | cons member members ih =>
    obtain ⟨name, item⟩ := member
    rw [List.map_cons, List.nodup_cons] at hnodup
    have hrest : name = key → (diffMembers compare last members).getItem key = none := by
      rintro rfl
      exact getItem_eq_none fun hmem =>
        hnodup.1 ((diffMembers_keys compare last members).subset hmem)
    rw [diffMembers, getItem_cons]
    split
    · next hdiff =>
      split
      · next hname =>
        rw [hrest hname, Option.bind_some, ← hname, hdiff]
      · exact ih hnodup.2
    · next diff hdiff =>
      rw [getItem_cons]
      split
      · next hname => rw [Option.bind_some, ← hname, hdiff]
      · exact ih hnodup.2

/-! ## Viewers that follow -/

/-- The members of a property that is an object. -/
def objectMembers : Option Json → JsonMembers
  | some (.object members) => members
  | _ => []

/-- No name that is shown is gone. -/
def KeysKept (shown members : JsonMembers) : Prop :=
  ∀ key, members.getItem key = none → shown.getItem key = none

mutual

/-- A property that is shown follows an item of the new state, when the baseline has
`last` for it: what compares equal to the baseline is shown already, and of an object no
name is gone at any depth. -/
def FollowsItem (shown last : Option Json) : Json → Prop
  | .object members =>
      match last with
      | none => KeysKept (objectMembers shown) members ∧
          FollowsMembers (objectMembers shown) [] members
      | some last =>
          if compare last (.object members) then Shows shown (.object members)
          else
            match last with
            | .object lastMembers =>
                ((shown.elim false Json.isObject = true) ∨ members ≠ []) ∧
                  KeysKept (objectMembers shown) members ∧
                  FollowsMembers (objectMembers shown) lastMembers members
            | _ => KeysKept (objectMembers shown) members ∧
                FollowsMembers (objectMembers shown) [] members
  | item =>
      match last with
      | none => True
      | some last => compare last item = true → Shows shown item

def FollowsMembers (shown last : JsonMembers) : List (List U8 × Json) → Prop
  | [] => True
  | (key, item) :: members =>
      FollowsItem (shown.getItem key) (last.getItem key) item ∧ FollowsMembers shown last members

end

/-- A viewer that shows an object follows the update from a baseline to a new state. -/
def Follows (shown last members : JsonMembers) : Prop :=
  KeysKept shown members ∧ FollowsMembers compare shown last members

theorem followsMembers_iff (shown last : JsonMembers) (members : JsonMembers) :
    FollowsMembers compare shown last members ↔ ∀ member ∈ members,
      FollowsItem compare (shown.getItem member.1) (last.getItem member.1) member.2 := by
  induction members with
  | nil => simp [FollowsMembers]
  | cons member members ih => rw [FollowsMembers, ih, List.forall_mem_cons]

theorem KeysKept.congr {shown shown' members : JsonMembers} (h : KeysKept shown members)
    (hsame : Same (.object shown) (.object shown')) : KeysKept shown' members := by
  intro key hnone
  have hkey := same_object_iff.mp hsame key
  rw [h key hnone] at hkey
  cases hitem : shown'.getItem key with
  | none => rfl
  | some item =>
    rw [hitem] at hkey
    obtain ⟨_, hnone, -⟩ := hkey
    cases hnone

theorem wellFormedMembers_iff (members : JsonMembers) :
    WellFormedMembers members ↔ ∀ member ∈ members, WellFormed member.2 := by
  induction members with
  | nil => simp [WellFormedMembers]
  | cons member members ih => rw [WellFormedMembers, ih, List.forall_mem_cons]

/-- The members follow one by one, and so does the object. -/
theorem follows_iff_of_items (shown last : JsonMembers) {members : JsonMembers}
    (hnodup : (members.map Prod.fst).Nodup)
    (hitems : ∀ member ∈ members, ∀ shown last,
      FollowsItem compare shown last member.2 ↔
        Shows (applied shown (diffItem compare last member.2)) member.2) :
    Same (.object (mergeMembers shown (diffMembers compare last members))) (.object members) ↔
      Follows compare shown last members := by
  have hdiff : ((diffMembers compare last members).map Prod.fst).Nodup :=
    (diffMembers_keys compare last members).nodup hnodup
  rw [same_object_iff, Follows, followsMembers_iff]
  simp only [getItem_mergeMembers hdiff, getItem_diffMembers compare last hnodup]
  constructor
  · intro h
    refine ⟨fun key hnone => ?_, fun member hmember => ?_⟩
    · have hkey := h key
      rw [hnone] at hkey
      exact hkey
    · have hkey := h member.1
      rw [getItem_of_mem hnodup hmember] at hkey
      exact (hitems member hmember _ _).mpr hkey
  · rintro ⟨hkeys, hfollows⟩ key
    cases hitem : members.getItem key with
    | none => exact hkeys key hitem
    | some item =>
      have hmember := mem_of_getItem hitem
      exact (hitems _ hmember _ _).mp (hfollows _ hmember)

theorem diffItem_none (item : Json) : diffItem compare none item = some item := by
  cases item <;> rfl

theorem diffMembers_nil (members : JsonMembers) : diffMembers compare [] members = members := by
  induction members with
  | nil => rfl
  | cons member members ih =>
    obtain ⟨key, item⟩ := member
    have hitem : diffItem compare (getItem [] key) item = some item := diffItem_none compare item
    rw [diffMembers, hitem, ih]

theorem mergeLiveDataUpdate_none (update : Json) : mergeLiveDataUpdate none update = update := by
  cases update <;> rfl

theorem mergeLiveDataUpdate_value (shown : Option Json) {update : Json}
    (hvalue : update.isObject = false) : mergeLiveDataUpdate shown update = update := by
  cases update with
  | object => cases hvalue
  | _ => rfl

/-- An object taken as it is has the items it would have merged into no object. -/
theorem getItem_mergeMembers_nil {update : JsonMembers} (hnodup : (update.map Prod.fst).Nodup)
    (key : List U8) : (mergeMembers [] update).getItem key = update.getItem key := by
  rw [getItem_mergeMembers hnodup, getItem_nil]
  cases update.getItem key with
  | none => rfl
  | some value => exact congrArg some (mergeLiveDataUpdate_none value)

theorem same_object_congr {members members' : JsonMembers} (value : JsonMembers)
    (hitems : ∀ key, members.getItem key = members'.getItem key) :
    Same (.object members) (.object value) ↔ Same (.object members') (.object value) := by
  simp only [same_object_iff, hitems]

/-- A difference that is sent is merged into the object that is shown, or into no object. -/
theorem same_mergeLiveDataUpdate (shown : Option Json) {update : JsonMembers}
    (hnodup : (update.map Prod.fst).Nodup) (members : JsonMembers) :
    Same (mergeLiveDataUpdate shown (.object update)) (.object members) ↔
      Same (.object (mergeMembers (objectMembers shown) update)) (.object members) := by
  match shown with
  | some (.object _) => rfl
  | none | some .null | some (.bool _) | some (.number _) | some (.string _)
  | some (.array _) =>
    exact same_object_congr members fun key => (getItem_mergeMembers_nil hnodup key).symm

theorem shows_some {value item : Json} : Shows (some value) item ↔ Same value item := by
  simp [Shows]

theorem shows_object_iff {shown : Option Json} {members : JsonMembers} :
    Shows shown (.object members) ↔ shown.elim false Json.isObject = true ∧
      Same (.object (objectMembers shown)) (.object members) := by
  constructor
  · rintro ⟨value, rfl, hsame⟩
    obtain ⟨members, rfl⟩ := hsame.isObject
    exact ⟨rfl, hsame⟩
  · rintro ⟨hobject, hsame⟩
    match shown, hobject with
    | some (.object members), _ => exact ⟨_, rfl, hsame⟩

theorem same_nil_iff {members : JsonMembers} :
    Same (.object []) (.object members) ↔ members = [] := by
  constructor
  · intro h
    match members with
    | [] => rfl
    | (key, item) :: members =>
      have hkey := same_object_iff.mp h key
      rw [getItem_cons, if_pos rfl] at hkey
      obtain ⟨value, hvalue, -⟩ := hkey
      cases hvalue
  · rintro rfl
    exact .refl _

/-- An induction over values: objects after their items. -/
theorem jsonInduction {P : Json → Prop} (other : ∀ value, value.isObject = false → P value)
    (object : ∀ members : JsonMembers, (∀ member ∈ members, P member.2) → P (.object members))
    (value : Json) : P value := by
  match value with
  | .object members => exact object members fun member _ => jsonInduction other object member.2
  | .null => exact other _ rfl
  | .bool _ => exact other _ rfl
  | .number _ => exact other _ rfl
  | .string _ => exact other _ rfl
  | .array _ => exact other _ rfl
termination_by sizeOf value
decreasing_by
  have hmember := List.sizeOf_lt_of_mem ‹member ∈ members›
  have hitem : sizeOf member.2 < sizeOf member := by
    obtain ⟨key, item⟩ := member
    simp only [Prod.mk.sizeOf_spec]
    omega
  rw [Json.object.sizeOf_spec]
  omega

theorem Follows.congr_of_items {shown shown' last members : JsonMembers}
    (h : Follows compare shown last members) (hsame : Same (.object shown) (.object shown'))
    (hitems : ∀ member ∈ members, ∀ shown shown' last, SameShown shown shown' →
      FollowsItem compare shown last member.2 → FollowsItem compare shown' last member.2) :
    Follows compare shown' last members := by
  obtain ⟨hkeys, hfollows⟩ := h
  rw [followsMembers_iff] at hfollows
  refine ⟨hkeys.congr hsame, (followsMembers_iff compare shown' last members).mpr ?_⟩
  intro member hmember
  exact hitems member hmember _ _ _ (same_object_iff.mp hsame member.1) (hfollows member hmember)

theorem followsItem_congr (item : Json) : ∀ shown shown' last, SameShown shown shown' →
    FollowsItem compare shown last item → FollowsItem compare shown' last item := by
  induction item using jsonInduction with
  | other item hvalue =>
    intro shown shown' last hsame h
    have hother : ∀ shown, FollowsItem compare shown last item ↔
        ∀ last', last = some last' → compare last' item = true → Shows shown item := by
      intro shown
      cases item with
      | object => cases hvalue
      | _ => cases last <;> simp [FollowsItem]
    exact (hother shown').mpr fun last' hlast hequal =>
      ((hother shown).mp h last' hlast hequal).congr hsame
  | object members ih =>
    intro shown shown' last hsame h
    have hmembers : Same (.object (objectMembers shown)) (.object (objectMembers shown')) ∧
        shown.elim false Json.isObject = shown'.elim false Json.isObject := by
      match shown' with
      | none =>
        obtain rfl : shown = none := hsame
        exact ⟨.refl _, rfl⟩
      | some value' =>
        obtain ⟨value, rfl, hsame⟩ := hsame
        cases hsame with
        | refl => exact ⟨.refl _, rfl⟩
        | object hkeys hitems => exact ⟨.object hkeys hitems, rfl⟩
    have hfollows (last : JsonMembers)
        (h : Follows compare (objectMembers shown) last members) :
        Follows compare (objectMembers shown') last members :=
      h.congr_of_items compare hmembers.1 ih
    match last with
    | none => exact hfollows [] h
    | some last =>
      rw [FollowsItem.eq_def] at h ⊢
      dsimp only at h ⊢
      split at h
      · next hequal =>
        rw [if_pos hequal]
        exact h.congr hsame
      · next hequal =>
        rw [if_neg hequal]
        match last with
        | .object last => exact ⟨hmembers.2 ▸ h.1, hfollows last h.2⟩
        | .null | .bool _ | .number _ | .string _ | .array _ => exact hfollows [] h

/-- A viewer that shows the same follows the same updates. -/
theorem Follows.congr {shown shown' last members : JsonMembers}
    (h : Follows compare shown last members) (hsame : Same (.object shown) (.object shown')) :
    Follows compare shown' last members :=
  h.congr_of_items compare hsame fun member _ => followsItem_congr compare member.2

/-- The object that is shown after a difference: merged, or unchanged when nothing
differs. -/
theorem shows_applied_object (shown : Option Json) (last : JsonMembers) {members : JsonMembers}
    (hnodup : (members.map Prod.fst).Nodup)
    (hitems : Same (.object (mergeMembers (objectMembers shown) (diffMembers compare last members)))
      (.object members) ↔ Follows compare (objectMembers shown) last members) :
    ((shown.elim false Json.isObject = true ∨ members ≠ []) ∧
        Follows compare (objectMembers shown) last members) ↔
      Shows (applied shown (if (diffMembers compare last members).isEmpty then none
        else some (.object (diffMembers compare last members)))) (.object members) := by
  split
  · next hempty =>
    rw [List.isEmpty_iff.mp hempty, mergeMembers] at hitems
    rw [applied, shows_object_iff, ← hitems]
    constructor
    · rintro ⟨hobject | hmembers, hsame⟩
      · exact ⟨hobject, hsame⟩
      · match shown with
        | some (.object _) => exact ⟨rfl, hsame⟩
        | none | some .null | some (.bool _) | some (.number _) | some (.string _)
        | some (.array _) => exact absurd (same_nil_iff.mp hsame) hmembers
    · rintro ⟨hobject, hsame⟩
      exact ⟨Or.inl hobject, hsame⟩
  · next hempty =>
    have hmembers : members ≠ [] := by
      rintro rfl
      exact hempty rfl
    have hdiff : ((diffMembers compare last members).map Prod.fst).Nodup :=
      (diffMembers_keys compare last members).nodup hnodup
    rw [applied, shows_some, same_mergeLiveDataUpdate shown hdiff, hitems]
    exact and_iff_right (Or.inr hmembers)

/-- **A property shows an item after the update if and only if it follows it.** -/
theorem followsItem_iff (item : Json) (hitem : WellFormed item) : ∀ shown last : Option Json,
    FollowsItem compare shown last item ↔
      Shows (applied shown (diffItem compare last item)) item := by
  induction item using jsonInduction with
  | other item hvalue =>
    intro shown last
    have hsent : Shows (applied shown (some item)) item := by
      rw [applied, shows_some, mergeLiveDataUpdate_value shown hvalue]
      exact .refl item
    cases last with
    | none =>
      rw [diffItem_none]
      refine iff_of_true ?_ hsent
      cases item with
      | object => cases hvalue
      | _ => trivial
    | some last =>
      have hfollows : FollowsItem compare shown (some last) item ↔
          (compare last item = true → Shows shown item) := by
        cases item with
        | object => cases hvalue
        | _ => rfl
      have hdiff : diffItem compare (some last) item
          = if compare last item then none else some item := by
        cases item with
        | object => cases hvalue
        | _ => rfl
      rw [hfollows, hdiff]
      by_cases hequal : compare last item = true
      · rw [if_pos hequal]
        exact forall_prop_of_true hequal
      · rw [if_neg hequal]
        exact iff_of_true (fun h => absurd h hequal) hsent
  | object members ih =>
    intro shown last
    rw [WellFormed, wellFormedMembers_iff] at hitem
    obtain ⟨hnodup, hitems⟩ := hitem
    have hmembers (shown last : JsonMembers) :=
      follows_iff_of_items compare shown last hnodup fun member hmember shown last =>
        ih member hmember (hitems member hmember) shown last
    have hwhole : KeysKept (objectMembers shown) members ∧
        FollowsMembers compare (objectMembers shown) [] members ↔
          Shows (applied shown (some (.object members))) (.object members) := by
      rw [applied, shows_some, same_mergeLiveDataUpdate shown hnodup]
      have h := hmembers (objectMembers shown) []
      rw [diffMembers_nil] at h
      exact h.symm
    match last with
    | none => exact hwhole
    | some last =>
      rw [FollowsItem.eq_def, diffItem.eq_def]
      dsimp only
      split
      · rfl
      · match last with
        | .object last =>
          exact shows_applied_object compare shown last hnodup (hmembers _ _)
        | .null | .bool _ | .number _ | .string _ | .array _ => exact hwhole

/-- What a viewer shows after the broadcast of the difference, if there is one. -/
def afterDiff (shown last members : JsonMembers) : JsonMembers :=
  match cjsonGetDiff compare (some last) members with
  | none => shown
  | some diff => mergeMembers shown diff

theorem afterDiff_eq (shown last members : JsonMembers) : afterDiff compare shown last members
    = mergeMembers shown (diffMembers compare last members) := by
  rw [afterDiff, cjsonGetDiff]
  by_cases hempty : (diffMembers compare last members).isEmpty = true
  · rw [if_pos hempty, List.isEmpty_iff.mp hempty]
    rfl
  · rw [if_neg hempty]

/-- **A viewer shows the new state after the update if and only if it follows it.** -/
theorem same_afterDiff_iff (shown last : JsonMembers) {members : JsonMembers}
    (hwellFormed : WellFormed (.object members)) :
    Same (.object (afterDiff compare shown last members)) (.object members) ↔
      Follows compare shown last members := by
  rw [WellFormed, wellFormedMembers_iff] at hwellFormed
  obtain ⟨hnodup, hitems⟩ := hwellFormed
  rw [afterDiff_eq]
  exact follows_iff_of_items compare shown last hnodup fun member hmember =>
    followsItem_iff compare member.2 (hitems member hmember)

end Diff

/-! ## Runs -/

/-- What a client shows is an object. -/
def ApiClient.members (client : ApiClient) : JsonMembers := client.received.foldl mergeMembers []

theorem ApiClient.view_eq (client : ApiClient) : client.view = .object client.members := by
  have hfold : ∀ (received : List JsonMembers) (shown : JsonMembers),
      received.foldl (fun shown update => mergeLiveDataUpdate (some shown) (.object update))
        (.object shown) = .object (received.foldl mergeMembers shown) := by
    intro received
    induction received with
    | nil => exact fun _ => rfl
    | cons update received ih => exact fun shown => ih (mergeMembers shown update)
  exact hfold client.received []

@[simp] theorem ApiClient.members_receive (client : ApiClient) (update : JsonMembers) :
    (client.receive update).members = mergeMembers client.members update := by
  simp [ApiClient.members, ApiClient.receive]

/-- What was served so far: the state that the task serialised last while there were clients,
and what a client was sent at its connection, until an update takes it along. -/
structure Served where
  last : Option DeviceState
  sent : Nat → Option JsonMembers

def Served.initial : Served := ⟨none, fun _ => none⟩

/-- What a client is to show: what it was sent, or the last state. -/
def Served.basis (g : Served) (fd : Nat) : Option JsonMembers :=
  (g.sent fd).or (g.last.map DeviceState.members)

/-- The client has received nothing, and no state was read for it. -/
def ApiClient.Unserved (client : ApiClient) : Prop :=
  client.received = [] ∧ ∀ state, client.stage ≠ .read state

theorem find_of_unique {clients : List ApiClient} (hunique : (clients.map ApiClient.fd).Nodup)
    {client : ApiClient} (hclient : client ∈ clients) :
    (clients.find? fun other => decide (other.fd = client.fd)) = some client := by
  induction clients with
  | nil => cases hclient
  | cons first clients ih =>
    rw [List.map_cons, List.nodup_cons] at hunique
    rcases List.mem_cons.mp hclient with rfl | hlater
    · exact List.find?_cons_of_pos (decide_eq_true rfl)
    · have hne : first.fd ≠ client.fd := fun heq =>
        hunique.1 (heq ▸ List.mem_map_of_mem hlater)
      rw [List.find?_cons_of_neg (by rw [decide_eq_true_iff]; exact hne)]
      exact ih hunique.2 hlater

namespace WebsocketApi

/-- The observer of what is served. -/
def serve (s : WebsocketApi) (g : Served) : ApiInput → Served
  | .initBaseline state =>
      if s.started ∧ s.running = false then { g with last := some state } else g
  | .onConnect fd _ =>
      if s.started then g else { g with sent := Function.update g.sent fd (some []) }
  | .sendState fd =>
      match (s.clients.find? fun client => decide (client.fd = fd)).map ApiClient.stage with
      | some (.read state) => { g with sent := Function.update g.sent fd (some state.members) }
      | _ => g
  | .update _ current =>
      if s.running = false ∨ s.pending.isSome then g
      else if s.clients = [] then { g with last := none }
      else ⟨some current, fun _ => none⟩
  | .broadcast => if s.pending.isSome then { g with sent := fun _ => none } else g
  | .start | .addClient _ | .removeClient _ => g

variable (compare : Json → Json → Bool)

/-- The causes of a wrong view are absent.  At an update, what a client was sent, or else the
last state, follows from the last state to the new one.  What was sent while an update was
under way follows that update.  The state that is sent has the names of the broadcasts that
were sent before it. -/
def NothingMissed (s : WebsocketApi × Served) : ApiInput → Prop
  | .update baseline current =>
      s.1.running = true → s.1.pending = none → ∀ client ∈ s.1.clients,
        client.stage = .connected → Follows compare ((s.2.basis client.fd).getD baseline.members)
          (s.2.last.getD baseline).members current.members
  | .broadcast => ∀ update, s.1.pending = some update → ∀ client ∈ s.1.clients,
      client.stage = .connected → ∀ sent, s.2.sent client.fd = some sent →
        Follows compare sent update.last.members update.current.members
  | .sendState fd => ∀ client ∈ s.1.clients, client.fd = fd → ∀ state,
      client.stage = .read state → Follows compare client.members [] state.members
  | _ => True

/-- What a connected client shows: what it was sent, what the update under way changes to the
new state, or the baseline. -/
def ShowsBasis (s : WebsocketApi) (g : Served) (client : ApiClient) : Prop :=
  match g.sent client.fd, s.pending with
  | some sent, _ => Same (.object client.members) (.object sent)
  | none, some update =>
      Follows compare client.members update.last.members update.current.members
  | none, none => s.running = true ∧
      ∃ last, g.last = some last ∧ Same (.object client.members) (.object last.members)

/-- The invariant of a run. -/
structure Converges (s : WebsocketApi × Served) : Prop where
  unique : (s.1.clients.map ApiClient.fd).Nodup
  baseline : s.1.lastFullJson = s.2.last
  unstarted : s.1.started = false → s.1.running = false ∧ ∀ client ∈ s.1.clients, client.Unserved
  pending : ∀ update, s.1.pending = some update → s.1.running = true ∧
    s.2.last = some update.current ∧
      ∀ client ∈ s.1.clients, client.due = true →
        client.stage = .connected ∧ s.2.sent client.fd = none
  connected : ∀ client ∈ s.1.clients, client.stage = .connected →
    ShowsBasis compare s.1 s.2 client
  shown : ∀ entry ∈ s.1.shown, Same entry.2 (.object entry.1.members)

variable {compare} {s : WebsocketApi} {g : Served}

theorem changeClient_eq_self {fd : Nat} {change : ApiClient → ApiClient}
    (h : ∀ client ∈ s.clients, client.fd = fd → change client = client) :
    s.changeClient fd change = s := by
  have hclients : s.clients.map (fun client => if client.fd = fd then change client else client) =
      s.clients := by
    refine (List.map_congr_left fun client hclient => ?_).trans (List.map_id _)
    split
    · next hfd => exact h client hclient hfd
    · rfl
  rw [WebsocketApi.changeClient, hclients]

/-- A change of the client of a connection. -/
theorem Converges.changeClient (h : Converges compare (s, g)) {g' : Served} (fd : Nat)
    {change : ApiClient → ApiClient} (hlast : g'.last = g.last)
    (hother : ∀ other, other ≠ fd → g'.sent other = g.sent other)
    (hfd : ∀ client, (change client).fd = client.fd ∧ (change client).due = client.due)
    (hunserved : s.started = false → ∀ client ∈ s.clients, client.fd = fd → client.Unserved →
      (change client).Unserved)
    (hdue : ∀ client ∈ s.clients, client.fd = fd → client.stage = .connected →
      s.pending.isSome → change client = client ∧ g'.sent fd = g.sent fd)
    (hconnected : ∀ client ∈ s.clients, client.fd = fd → (change client).stage = .connected →
      ShowsBasis compare s g' (change client)) :
    Converges compare (s.changeClient fd change, g') := by
  have hmap : (s.changeClient fd change).clients.map ApiClient.fd = s.clients.map ApiClient.fd := by
    rw [WebsocketApi.changeClient, List.map_map]
    refine List.map_congr_left fun client _ => ?_
    rw [Function.comp_apply]
    split
    · exact (hfd client).1
    · rfl
  refine ⟨hmap ▸ h.unique, h.baseline.trans hlast.symm, fun hstarted => ?_,
    fun update hpending => ?_, fun client hclient hstage => ?_, h.shown⟩
  · refine ⟨(h.unstarted hstarted).1, fun client hclient => ?_⟩
    obtain ⟨client, hold, rfl⟩ := List.mem_map.mp hclient
    split
    · next heq => exact hunserved hstarted client hold heq ((h.unstarted hstarted).2 client hold)
    · exact (h.unstarted hstarted).2 client hold
  · obtain ⟨hrunning, hcurrent, hduePending⟩ := h.pending update hpending
    refine ⟨hrunning, hlast.trans hcurrent, fun client hclient hclientDue => ?_⟩
    obtain ⟨client, hold, rfl⟩ := List.mem_map.mp hclient
    by_cases heq : client.fd = fd
    · rw [if_pos heq] at hclientDue ⊢
      obtain ⟨hstage, hnone⟩ := hduePending client hold ((hfd client).2.symm.trans hclientDue)
      obtain ⟨hsame, hsent⟩ := hdue client hold heq hstage
        (Option.isSome_iff_exists.mpr ⟨update, hpending⟩)
      rw [hsame, heq, hsent, ← heq]
      exact ⟨hstage, hnone⟩
    · rw [if_neg heq] at hclientDue ⊢
      rw [hother _ heq]
      exact hduePending client hold hclientDue
  · obtain ⟨client, hold, rfl⟩ := List.mem_map.mp hclient
    by_cases heq : client.fd = fd
    · rw [if_pos heq] at hstage ⊢
      exact hconnected client hold heq hstage
    · rw [if_neg heq] at hstage ⊢
      have hshows := h.connected client hold hstage
      unfold ShowsBasis at hshows ⊢
      rw [hother _ heq, hlast]
      exact hshows

theorem Converges.addClient (h : Converges compare (s, g)) (fd : Nat) :
    Converges compare (s.addClient fd, g) := by
  rw [WebsocketApi.addClient]
  split
  · exact h
  · next hnew =>
    refine ⟨?_, h.baseline, fun hstarted => ⟨(h.unstarted hstarted).1, fun client hclient => ?_⟩,
      fun update hpending => ⟨(h.pending update hpending).1, (h.pending update hpending).2.1,
        fun client hclient hdue => ?_⟩, fun client hclient hstage => ?_, h.shown⟩
    · rw [List.map_append]
      refine h.unique.append (List.nodup_singleton fd) fun other hother hfd => hnew ?_
      obtain ⟨client, hclient, rfl⟩ := List.mem_map.mp hother
      exact List.any_eq_true.mpr ⟨client, hclient, decide_eq_true (List.mem_singleton.mp hfd)⟩
    all_goals rcases List.mem_append.mp hclient with hold | hadded
    · exact (h.unstarted hstarted).2 client hold
    · rw [List.mem_singleton.mp hadded]
      exact ⟨rfl, nofun⟩
    · exact (h.pending update hpending).2.2 client hold hdue
    · rw [List.mem_singleton.mp hadded] at hdue
      cases hdue
    · exact h.connected client hold hstage
    · rw [List.mem_singleton.mp hadded] at hstage
      cases hstage

theorem Converges.removeClient (h : Converges compare (s, g)) (fd : Nat) :
    Converges compare (s.step compare (.removeClient fd), g) where
  unique := h.unique.sublist (List.filter_sublist.map _)
  baseline := h.baseline
  unstarted hstarted := ⟨(h.unstarted hstarted).1, fun client hclient =>
    (h.unstarted hstarted).2 client (List.mem_filter.mp hclient).1⟩
  pending update hpending := ⟨(h.pending update hpending).1, (h.pending update hpending).2.1,
    fun client hclient => (h.pending update hpending).2.2 client (List.mem_filter.mp hclient).1⟩
  connected client hclient := h.connected client (List.mem_filter.mp hclient).1
  shown := h.shown

theorem showsBasis_of_sent {client : ApiClient} {sent : JsonMembers}
    (hsent : g.sent client.fd = some sent) (hsame : Same (.object client.members) (.object sent)) :
    ShowsBasis compare s g client := by
  rw [ShowsBasis, hsent]
  exact hsame

/-- A client that connects before the task is there shows nothing, and was sent nothing. -/
theorem Converges.onConnect (h : Converges compare (s, g)) (fd : Nat) (state : DeviceState) :
    Converges compare (s.onConnect fd state, s.serve g (.onConnect fd state)) := by
  rw [WebsocketApi.onConnect, serve]
  cases hstarted : s.started with
  | true =>
    refine h.changeClient fd rfl (fun _ _ => rfl) (fun client => ?_)
      (fun hfalse => absurd (hstarted.symm.trans hfalse) nofun) (fun client _ _ hstage _ => ?_)
      fun client hclient _ hstage => ?_
    · split <;> exact ⟨rfl, rfl⟩
    · rw [hstage]
      exact ⟨rfl, rfl⟩
    · split at hstage
      · cases hstage
      · exact h.connected client hclient hstage
  | false =>
    obtain ⟨hidle, hempty⟩ := h.unstarted hstarted
    simp only [Bool.false_eq_true, if_false]
    refine h.changeClient fd rfl (fun other hne => Function.update_of_ne hne _ _) (fun client => ?_)
      (fun _ client _ _ hunserved => ?_) (fun client _ _ _ hpending => ?_)
      fun client hclient hfd _ => ?_
    · split <;> exact ⟨rfl, rfl⟩
    · split
      · exact ⟨hunserved.1, nofun⟩
      · exact hunserved
    · obtain ⟨update, hupdate⟩ := Option.isSome_iff_exists.mp hpending
      exact absurd ((h.pending update hupdate).1.symm.trans hidle) nofun
    · subst hfd
      have hsame : Same (.object client.members) (.object []) := by
        rw [ApiClient.members, (hempty client hclient).1]
        exact .refl _
      split
      · exact showsBasis_of_sent (Function.update_self ..) hsame
      · exact showsBasis_of_sent (Function.update_self ..) hsame

/-- A state that is sent is what the client shows then. -/
theorem Converges.sendState (h : Converges compare (s, g)) (fd : Nat)
    (hmissed : NothingMissed compare (s, g) (.sendState fd)) :
    Converges compare (s.sendState compare fd, s.serve g (.sendState fd)) := by
  rw [WebsocketApi.sendState]
  by_cases hread : ∃ client ∈ s.clients, client.fd = fd ∧ ∃ state, client.stage = .read state
  · obtain ⟨reader, hreader, rfl, state, hstate⟩ := hread
    have honly : ∀ client ∈ s.clients, client.fd = reader.fd → client = reader := by
      intro client hclient hfd
      have hfind := find_of_unique h.unique hclient
      rw [hfd, find_of_unique h.unique hreader] at hfind
      exact (Option.some.inj hfind).symm
    have hserve : s.serve g (.sendState reader.fd) =
        { g with sent := Function.update g.sent reader.fd (some state.members) } := by
      rw [serve, find_of_unique h.unique hreader, Option.map_some, hstate]
    rw [hserve]
    refine h.changeClient reader.fd rfl (fun other hne => Function.update_of_ne hne _ _)
      (fun client => ?_) (fun hstarted client hclient hfd hunserved => ?_)
      (fun client hclient hfd hstage _ => ?_) fun client hclient hfd _ => ?_
    · split
      · split <;> exact ⟨rfl, rfl⟩
      · exact ⟨rfl, rfl⟩
    all_goals obtain rfl := honly client hclient hfd
    · exact absurd hstate (hunserved.2 state)
    · rw [hstate] at hstage
      cases hstage
    · have hsame := (same_afterDiff_iff compare client.members [] state.wellFormed).mpr
        (hmissed client hclient rfl state hstate)
      rw [afterDiff_eq, diffMembers_nil, ← ApiClient.members_receive] at hsame
      rw [hstate]
      exact showsBasis_of_sent (Function.update_self ..) hsame
  · have hnone : ∀ client ∈ s.clients, client.fd = fd → ∀ state, client.stage ≠ .read state :=
      fun client hclient hfd state hstate => hread ⟨client, hclient, hfd, state, hstate⟩
    have hserve : s.serve g (.sendState fd) = g := by
      rw [serve]
      split
      · next state hfind =>
        obtain ⟨client, hfound, hstate⟩ := Option.map_eq_some_iff.mp hfind
        exact absurd hstate (hnone client (List.mem_of_find?_eq_some hfound)
          (of_decide_eq_true (List.find?_some hfound :)) state)
      · rfl
    rw [hserve, changeClient_eq_self fun client hclient hfd => ?_]
    · exact h
    · split
      · next state hstate => exact absurd hstate (hnone client hclient hfd state)
      · rfl

theorem Converges.update (h : Converges compare (s, g)) (baseline current : DeviceState)
    (hmissed : NothingMissed compare (s, g) (.update baseline current)) :
    Converges compare (s.update baseline current, s.serve g (.update baseline current)) := by
  rw [WebsocketApi.update, serve]
  split
  · exact h
  · next hready =>
    obtain ⟨hrunning, hnone⟩ := not_or.mp hready
    have hrunning : s.running = true := eq_true_of_ne_false hrunning
    have hpending : s.pending = none := Option.not_isSome_iff_eq_none.mp hnone
    have hstarted : s.started = true := by
      by_contra hfalse
      exact absurd ((h.unstarted (eq_false_of_ne_true hfalse)).1.symm.trans hrunning) nofun
    split
    · next hempty =>
      exact ⟨h.unique, rfl, h.unstarted,
        fun update hsome => absurd (hpending.symm.trans hsome) nofun,
        fun client hclient => absurd (hempty ▸ hclient) List.not_mem_nil, h.shown⟩
    · refine ⟨?_, rfl, fun hfalse => absurd (hstarted.symm.trans hfalse) nofun,
        fun update hsome => ?_, fun client hclient hstage => ?_, h.shown⟩
      · rw [List.map_map]
        exact h.unique
      · obtain rfl := Option.some.inj hsome
        refine ⟨hrunning, rfl, fun client hclient hdue => ⟨?_, rfl⟩⟩
        obtain ⟨client, hold, rfl⟩ := List.mem_map.mp hclient
        cases hstage : client.stage with
        | connected => rfl
        | _ => rw [hstage] at hdue; cases hdue
      · obtain ⟨client, hold, rfl⟩ := List.mem_map.mp hclient
        have hfollows := hmissed hrunning hpending client hold hstage
        have hshows := h.connected client hold hstage
        show Follows compare client.members (s.lastFullJson.getD baseline).members current.members
        rw [h.baseline]
        unfold ShowsBasis at hshows
        unfold Served.basis at hfollows
        dsimp only at hfollows hshows
        cases hsent : g.sent client.fd with
        | some sent =>
          rw [hsent] at hshows hfollows
          exact hfollows.congr compare hshows.symm
        | none =>
          rw [hsent, hpending] at hshows
          obtain ⟨-, last, hlast, hsame⟩ := hshows
          rw [hsent, hlast] at hfollows
          rw [hlast]
          exact hfollows.congr compare hsame.symm

/-- What a client is behind a broadcast -/
theorem exists_before_broadcast {last current : DeviceState}
    (hpending : s.pending = some ⟨last, current⟩) :
    (s.broadcast compare).clients.map ApiClient.fd = s.clients.map ApiClient.fd ∧
      ∀ client ∈ (s.broadcast compare).clients, ∃ before ∈ s.clients, client.fd = before.fd ∧
        client.stage = before.stage ∧ client.due = before.due ∧
        client.members = afterDiff compare before.members last.members current.members := by
  rw [WebsocketApi.broadcast, hpending]
  dsimp only
  cases hdiff : cjsonGetDiff compare (some last.members) current.members with
  | none =>
    exact ⟨rfl, fun client hclient => ⟨client, hclient, rfl, rfl, rfl, by rw [afterDiff, hdiff]⟩⟩
  | some diff =>
    refine ⟨List.map_map.trans rfl, fun client hclient => ?_⟩
    obtain ⟨before, hbefore, rfl⟩ := List.mem_map.mp hclient
    exact ⟨before, hbefore, rfl, rfl, rfl, by rw [afterDiff, hdiff, ApiClient.members_receive]⟩

theorem Converges.broadcast (h : Converges compare (s, g))
    (hmissed : NothingMissed compare (s, g) .broadcast) :
    Converges compare (s.broadcast compare, s.serve g .broadcast) := by
  cases hpending : s.pending with
  | none =>
    rw [WebsocketApi.broadcast, serve, hpending]
    exact h
  | some update =>
    obtain ⟨last, current⟩ := update
    obtain ⟨hrunning, hcurrent, hdue⟩ := h.pending _ hpending
    obtain ⟨hfds, hbefore⟩ := @exists_before_broadcast compare s last current hpending
    have hshows : ∀ client ∈ (s.broadcast compare).clients, client.stage = .connected →
        Same (.object client.members) (.object current.members) := by
      intro client hclient hstage
      obtain ⟨before, hold, -, hstageBefore, -, hmembers⟩ := hbefore client hclient
      rw [hmembers, same_afterDiff_iff compare _ _ current.wellFormed]
      have hconnected := h.connected before hold (hstageBefore ▸ hstage)
      unfold ShowsBasis at hconnected
      dsimp only at hconnected
      cases hsent : g.sent before.fd with
      | some sent =>
        rw [hsent] at hconnected
        exact (hmissed _ hpending before hold (hstageBefore ▸ hstage) sent hsent).congr compare
          hconnected.symm
      | none =>
        rw [hsent, hpending] at hconnected
        exact hconnected
    have hleft : s.broadcast compare = { s with
        pending := none
        clients := (s.broadcast compare).clients
        shown := ((s.broadcast compare).clients.filter ApiClient.due).map
          (fun client => (current, client.view)) ++ s.shown } := by
      rw [WebsocketApi.broadcast, hpending]
    have hserve : s.serve g .broadcast = { g with sent := fun _ => none } := by
      rw [serve, hpending]
      rfl
    rw [hleft, hserve]
    generalize (s.broadcast compare).clients = clients at *
    refine ⟨hfds ▸ h.unique, h.baseline, fun hstarted => ?_, nofun, fun client hclient hstage =>
      ⟨hrunning, current, hcurrent, hshows client hclient hstage⟩, fun entry hentry => ?_⟩
    · exact absurd ((h.unstarted hstarted).1.symm.trans hrunning) nofun
    · rcases List.mem_append.mp hentry with hnew | hold
      · obtain ⟨client, hclient, rfl⟩ := List.mem_map.mp hnew
        obtain ⟨hclient, hclientDue⟩ := List.mem_filter.mp hclient
        obtain ⟨before, hold, -, hstage, hdueBefore, -⟩ := hbefore client hclient
        rw [ApiClient.view_eq]
        exact hshows client hclient
          (hstage.trans (hdue before hold (hdueBefore.symm.trans hclientDue)).1)
      · exact h.shown entry hold

/-- The task takes its first baseline before any update. -/
theorem Converges.initBaseline (h : Converges compare (s, g)) (state : DeviceState) :
    Converges compare (s.step compare (.initBaseline state), s.serve g (.initBaseline state)) := by
  rw [WebsocketApi.step, serve]
  split
  · next hready =>
    obtain ⟨hstarted, hrunning⟩ := hready
    refine ⟨h.unique, rfl, fun hfalse => absurd (hstarted.symm.trans hfalse) nofun,
      fun update hpending => ?_, fun client hclient hstage => ?_, h.shown⟩
    · exact absurd ((h.pending update hpending).1.symm.trans hrunning) nofun
    · have hshows := h.connected client hclient hstage
      unfold ShowsBasis at hshows ⊢
      dsimp only at hshows ⊢
      cases hsent : g.sent client.fd with
      | some sent =>
        rw [hsent] at hshows
        exact hshows
      | none =>
        rw [hsent] at hshows
        cases hpending : s.pending with
        | some update => exact absurd ((h.pending update hpending).1.symm.trans hrunning) nofun
        | none =>
          rw [hpending] at hshows
          exact absurd (hshows.1.symm.trans hrunning) nofun
  · exact h

theorem Converges.step {s : WebsocketApi × Served} (h : Converges compare s) (input : ApiInput)
    (hmissed : NothingMissed compare s input) :
    Converges compare (watched (WebsocketApi.step compare) serve s input) := by
  cases input with
  | start => exact ⟨h.unique, h.baseline, nofun, h.pending, h.connected, h.shown⟩
  | initBaseline state => exact h.initBaseline state
  | addClient fd => exact h.addClient fd
  | onConnect fd state => exact h.onConnect fd state
  | sendState fd => exact h.sendState fd hmissed
  | removeClient fd => exact h.removeClient fd
  | update baseline current => exact h.update baseline current hmissed
  | broadcast => exact h.broadcast hmissed

end WebsocketApi

open WebsocketApi

/-- **Viewers converge.**  In a run in which nothing is missed, each viewer that was connected
before an update shows behind it the state that was serialised, and in between every connected
viewer shows what it was sent at its connection, or else the baseline of the task.  And a viewer
of any state shows the new one after one update exactly if it follows it. -/
theorem viewers_converge (compare : Json → Json → Bool) :
    (∀ inputs, Guarded (watched (WebsocketApi.step compare) serve) (NothingMissed compare)
        (.initial, .initial) inputs →
      let s := run (WebsocketApi.step compare) .initial inputs
      let g := (run (watched (WebsocketApi.step compare) serve) (.initial, .initial) inputs).2
      (∀ entry ∈ s.shown, Same entry.2 (.object entry.1.members)) ∧
      (s.pending = none → ∀ client ∈ s.clients, client.stage = .connected →
        ∃ basis, ((g.sent client.fd).or (s.lastFullJson.map DeviceState.members)) = some basis ∧
          Same client.view (.object basis))) ∧
    ∀ (shown : JsonMembers) (last current : DeviceState),
      Same (.object (afterDiff compare shown last.members current.members))
        (.object current.members) ↔ Follows compare shown last.members current.members := by
  refine ⟨fun inputs hinputs => ?_, fun shown last current =>
    same_afterDiff_iff compare shown last.members current.wellFormed⟩
  have hinitial : Converges compare (WebsocketApi.initial, Served.initial) :=
    ⟨List.nodup_nil, rfl, fun _ => ⟨rfl, nofun⟩, nofun, nofun, nofun⟩
  have h := Guarded.invariant _ (fun _ input h hmissed => h.step input hmissed) hinputs hinitial
  rw [← run_watched_fst _ serve (.initial, .initial)]
  refine ⟨h.shown, fun hpending client hclient hstage => ?_⟩
  have hshows := h.connected client hclient hstage
  rw [h.baseline, ApiClient.view_eq]
  unfold ShowsBasis at hshows
  split at hshows
  · next _ sent hsent => exact ⟨sent, by rw [hsent]; rfl, hshows⟩
  · next update _ hsome => exact absurd (hpending.symm.trans hsome) nofun
  · next hsent _ =>
    obtain ⟨-, last, hlast, hsame⟩ := hshows
    exact ⟨last.members, by rw [hsent, hlast]; rfl, hsame⟩

/-- `cJSON_Compare` of two scalars. -/
def compareScalars : Json → Json → Bool
  | .null, .null => true
  | .bool value, .bool value' => decide (value = value')
  | .number value, .number value' => decide (value = value')
  | .string text, .string text' => decide (text = text')
  | _, _ => false

/-- The state of a device with a name and an uptime. -/
def uptimeState (uptime : BitVec 64) : DeviceState where
  members := [(cText "hostname", .string (cText "bitaxe")), (cText "uptimeSeconds", .number uptime)]
  wellFormed := ⟨(by decide : [cText "hostname", cText "uptimeSeconds"].Nodup), trivial, trivial,
    trivial⟩

/-- The state of a device with a power fault, and without. -/
def powerFaultState : DeviceState where
  members := [(cText "power_fault", .string (cText "Overvoltage"))]
  wellFormed := ⟨List.nodup_singleton _, trivial, trivial⟩

def noFaultState : DeviceState where
  members := []
  wellFormed := ⟨List.nodup_nil, trivial⟩

/-- A viewer connects, and an update follows. -/
def viewerInputs (last current : DeviceState) : List ApiInput :=
  [.start, .initBaseline last, .addClient 1, .onConnect 1 last, .sendState 1,
    .update last current, .broadcast]

/-- The name stays and is not sent again, and the uptime is always another one. -/
theorem follows_uptimeState {shown last current : BitVec 64} (h : last ≠ current) :
    Follows compareScalars (uptimeState shown).members (uptimeState last).members
      (uptimeState current).members := by
  refine ⟨fun key hnone => ?_, fun _ => ⟨_, rfl, .refl _⟩, fun hequal => ?_, trivial⟩
  · simp only [uptimeState, getItem_cons] at hnone ⊢
    split at hnone
    · cases hnone
    · next hhostname =>
      split at hnone
      · cases hnone
      · next huptime => rw [if_neg hhostname, if_neg huptime, getItem_nil]
  · exact absurd (of_decide_eq_true hequal) h

/-- A viewer gets the name when it connects, and the uptime with each of two updates. -/
theorem viewers_converge_of_uptime :
    ∀ entry ∈ (run (WebsocketApi.step compareScalars) .initial
      (viewerInputs (uptimeState 1) (uptimeState 2) ++
        [.update (uptimeState 2) (uptimeState 3), .broadcast])).shown,
        Same entry.2 (.object entry.1.members) := by
  have hinputs : Guarded (watched (WebsocketApi.step compareScalars) serve)
      (NothingMissed compareScalars) (.initial, .initial)
      (viewerInputs (uptimeState 1) (uptimeState 2) ++
        [.update (uptimeState 2) (uptimeState 3), .broadcast]) := by
    refine ⟨trivial, trivial, trivial, trivial, fun client hclient _ state hstate => ?_,
      fun _ _ client hclient _ => ?_, fun update _ client _ _ sent hsent => ?_,
      fun _ _ client hclient _ => ?_, fun update _ client _ _ sent hsent => ?_, trivial⟩
    · obtain rfl := List.mem_singleton.mp hclient
      obtain rfl := ConnectStage.read.inj hstate
      exact ⟨fun _ _ => rfl, trivial, trivial, trivial⟩
    · obtain rfl := List.mem_singleton.mp hclient
      exact follows_uptimeState (by decide)
    · cases hsent
    · obtain rfl := List.mem_singleton.mp hclient
      exact follows_uptimeState (by decide)
    · cases hsent
  exact ((viewers_converge compareScalars).1 _ hinputs).1

/-- The power fault is gone, and the viewer shows it still. -/
theorem powerFault_still_shown :
    ¬ ∀ inputs, ∀ entry ∈ (run (WebsocketApi.step compareScalars) .initial inputs).shown,
        Same entry.2 (.object entry.1.members) := by
  intro h
  have hshown : (noFaultState, Json.object powerFaultState.members) ∈
      (run (WebsocketApi.step compareScalars) .initial
        (viewerInputs powerFaultState noFaultState)).shown := List.mem_singleton.mpr rfl
  have hkey := same_object_iff.mp (h _ _ hshown) (cText "power_fault")
  cases hkey

end EspMiner
