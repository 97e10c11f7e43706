import EspMiner.Power.PowerPolicySafety

/-!
# Who owns the policy, and when it stays idle

Only the maintenance call changes the owner.  A step of a policy that is paused
or has an owner leaves the board idle.
-/

namespace EspMiner

section Operations

variable (operations : PowerOperations) (m : PowerMachine)

/-! ## The owner -/

theorem powerStop_owner : (powerStop operations m).policy.owner = m.policy.owner := by
  obtain ⟨answer, heq⟩ := powerStop_eq operations m
  rw [heq]
  rfl

theorem beginCooling_owner (nowMs : U64) (target : PowerTarget) :
    (beginCooling operations m nowMs target).policy.owner = m.policy.owner := by
  obtain ⟨answer, heq⟩ := beginCooling_eq operations m nowMs target
  rw [heq]
  rfl

theorem powerCancelled_policy : (powerCancelled operations m).2.policy = m.policy := by
  rw [powerCancelled_eq]

theorem powerStart_owner : (powerStart operations m).2.policy.owner = m.policy.owner := by
  have hcases := powerStart_cases operations m
  generalize powerStart operations m = outcome at hcases ⊢
  cases hcases with
  | overheated => rfl
  | failed answer fault => exact powerStop_owner operations _
  | cancelled result answer fault hchecks => exact powerStop_owner operations _
  | running => rfl

theorem powerPolicyPause_owner :
    (powerPolicyPause operations m).2.policy.owner = m.policy.owner := by
  unfold powerPolicyPause
  dsimp only
  split
  · rfl
  · exact powerStop_owner operations _

theorem powerPolicyPause_paused : (powerPolicyPause operations m).2.policy.paused = true := by
  unfold powerPolicyPause
  dsimp only
  split
  · rfl
  · obtain ⟨answer, heq⟩ := powerStop_eq operations (m.update fun p => { p with paused := true })
    rw [heq]
    rfl

theorem powerPolicyResume_owner :
    (powerPolicyResume operations m).2.policy.owner = m.policy.owner := by
  unfold powerPolicyResume
  dsimp only
  split
  · rfl
  · split
    · rfl
    · split
      · rfl
      · have hstart := powerStart_owner operations
          ((m.record .resumeBegins).update fun p => { p with paused := false })
        split
        · exact (beginCooling_owner operations _ _ _).trans hstart
        · exact hstart
        · exact hstart

theorem saveReducedTarget_flags :
    (saveReducedTarget operations m).2.policy.owner = m.policy.owner ∧
      (saveReducedTarget operations m).2.policy.paused = m.policy.paused ∧
      (saveReducedTarget operations m).2.policy.running = m.policy.running := by
  rcases saveReducedTarget_cases operations m with ⟨-, heq⟩ | ⟨-, -, -, heq⟩ | ⟨calls, -, heq⟩ <;>
    rw [heq] <;> exact ⟨rfl, rfl, rfl⟩

theorem coolingGate_flags (input : PowerStepInput) :
    (coolingGate m input).2.policy.owner = m.policy.owner ∧
      (coolingGate m input).2.policy.paused = m.policy.paused ∧
      (coolingGate m input).2.policy.running = m.policy.running := by
  rw [(coolingGate_cases m input).1]
  exact ⟨rfl, rfl, rfl⟩

theorem recoverStep_owner (input : PowerStepInput) :
    (recoverStep operations m input).policy.owner = m.policy.owner := by
  have hgate := (coolingGate_flags m input).1
  have hsaved := ((saveReducedTarget_flags operations (coolingGate m input).2).1).trans hgate
  unfold recoverStep
  dsimp only
  split
  · exact hgate
  · split
    · exact hsaved
    · split
      · exact hsaved
      · have hstart := (powerStart_owner operations
          (saveReducedTarget operations (coolingGate m input).2).2).trans hsaved
        split
        · exact (beginCooling_owner operations _ _ _).trans hstart
        · exact hstart
        · exact hstart

theorem operateStep_owner (input : PowerStepInput) :
    (operateStep operations m input).policy.owner = m.policy.owner := by
  let Owned (m' : PowerMachine) : Prop := m'.policy.owner = m.policy.owner
  have hresume : Owned (powerPolicyResume operations m).2 := powerPolicyResume_owner operations m
  have hcancelled (m' : PowerMachine) (h : Owned m') : Owned (powerCancelled operations m').2 := by
    show (powerCancelled operations m').2.policy.owner = _
    rw [powerCancelled_policy]
    exact h
  exact operateStep_rule operations (P := Owned) (T := Owned) (Q := Owned)
    (powerStop_owner operations m) rfl rfl hresume (fun _ => hresume) (fun _ _ h => h) hcancelled
    (fun _ h => h) fun _ _ h => (powerStop_owner operations _).trans h

/-- A step does not change the owner. -/
theorem powerPolicyStep_owner (input : PowerStepInput) :
    (powerPolicyStep operations m input).policy.owner = m.policy.owner := by
  have hcases := powerPolicyStep_cases operations m input
  generalize powerPolicyStep operations m input = m' at hcases ⊢
  cases hcases with
  | maintenance howner => rfl
  | faulted howner hfault =>
    split
    · exact powerStop_owner operations _
    · rfl
  | begins howner hreports hfault hbegins =>
    have hbegun := beginCooling_owner operations (m.beginStep input) input.nowMs input.target
    split
    · exact hbegun
    · exact (recoverStep_owner operations _ input).trans hbegun
  | recovers howner hreports hfault hcooling => exact recoverStep_owner operations _ input
  | operates howner hreports hfault hcooling hbegins => exact operateStep_owner operations _ input

/-- What an acquisition can do to the owner. -/
theorem powerPolicyMaintenance_acquire (owner : PowerOwner) :
    let result := powerPolicyMaintenance operations m owner true
    (result.1 = true ∧ m.policy.owner = .none ∧ owner ≠ .none ∧ result.2.policy.owner = owner) ∨
      (result.1 = false ∧ result.2.policy.owner = m.policy.owner) := by
  unfold powerPolicyMaintenance
  dsimp only
  split
  · exact .inr ⟨rfl, rfl⟩
  · next hvalid =>
    rw [if_pos rfl]
    split
    · exact .inr ⟨rfl, rfl⟩
    · next hfree =>
      split
      · exact .inr ⟨rfl, rfl⟩
      · exact .inl ⟨rfl, not_not.mp hfree, hvalid, rfl⟩

/-- What a release can do to the owner: a release of the owner ends the
ownership, whatever the board answers. -/
theorem powerPolicyMaintenance_release (owner : PowerOwner) :
    let result := powerPolicyMaintenance operations m owner false
    (m.policy.owner = owner ∧ result.2.policy.owner = .none) ∨
      (m.policy.owner ≠ owner ∧ result.1 = false ∧ result.2.policy.owner = m.policy.owner) := by
  unfold powerPolicyMaintenance
  dsimp only
  split
  · next hnone =>
    by_cases howner : m.policy.owner = owner
    · exact .inl ⟨howner, howner.trans hnone⟩
    · exact .inr ⟨howner, rfl, rfl⟩
  · rw [if_neg (by simp)]
    split
    · next hother => exact .inr ⟨hother, rfl, rfl⟩
    · next hsame =>
      refine .inl ⟨not_not.mp hsame, ?_⟩
      split <;> rfl

/-! ## Staying idle -/

theorem powerStop_idle : (powerStop operations m).policy.running = false := by
  obtain ⟨answer, heq⟩ := powerStop_eq operations m
  rw [heq]
  rfl

/-- A recovery of a paused policy starts nothing. -/
theorem recoverStep_idle {m : PowerMachine} (hpaused : m.policy.paused = true)
    (hidle : m.policy.running = false) (input : PowerStepInput) :
    (recoverStep operations m input).policy.running = false := by
  obtain ⟨-, hgatePaused, hgateIdle⟩ := coolingGate_flags m input
  obtain ⟨-, hsavedPaused, hsavedIdle⟩ :=
    saveReducedTarget_flags operations (coolingGate m input).2
  unfold recoverStep
  dsimp only
  split
  · exact hgateIdle.trans hidle
  · split
    · exact hsavedIdle.trans (hgateIdle.trans hidle)
    · rw [if_pos (.inr (.inl (hsavedPaused.trans (hgatePaused.trans hpaused))))]
      exact hsavedIdle.trans (hgateIdle.trans hidle)

/-- **A held policy does not run.**  After a step of a policy that is paused or
has an owner, the board is not running. -/
theorem powerPolicyStep_idle {m : PowerMachine} (h : PolicySafe m)
    (hheld : m.policy.paused = true ∨ m.policy.owner ≠ .none) (input : PowerStepInput) :
    (powerPolicyStep operations m input).policy.running = false := by
  have hnotRunning (hstops : m.policy.stopped ≠ false ∨ m.policy.owner ≠ .none ∨
      m.policy.cooling = true) : m.policy.running = false := by
    cases hrunning : m.policy.running with
    | false => rfl
    | true =>
      obtain ⟨-, hstopped, -, howner, hcooling⟩ := h.running hrunning
      rcases hstops with hstops | hstops | hstops
      · exact absurd hstopped hstops
      · exact absurd howner hstops
      · rw [hcooling] at hstops
        cases hstops
  have hcases := powerPolicyStep_cases operations m input
  generalize powerPolicyStep operations m input = m' at hcases ⊢
  cases hcases with
  | maintenance howner => exact hnotRunning (.inr (.inl howner))
  | faulted howner hfault =>
    split
    · exact powerStop_idle operations _
    · next hstopped => exact hnotRunning (.inl hstopped)
  | begins howner hreports hfault hbegins =>
    have hpaused : m.policy.paused = true := hheld.resolve_right (not_not.mpr howner)
    obtain ⟨answer, hbegun⟩ := beginCooling_eq operations (m.beginStep input) input.nowMs
      input.target
    rw [hbegun]
    split
    · rfl
    · refine recoverStep_idle operations ?_ ?_ input
      · exact hpaused
      · rfl
  | recovers howner hreports hfault hcooling =>
    refine recoverStep_idle operations ?_ ?_ input
    · exact hheld.resolve_right (not_not.mpr howner)
    · exact hnotRunning (.inr (.inr hcooling))
  | operates howner hreports hfault hcooling hbegins =>
    have hpaused : (m.beginStep input).policy.paused = true :=
      hheld.resolve_right (not_not.mpr howner)
    unfold operateStep
    rw [if_pos (.inl hpaused)]
    split
    · exact powerStop_idle operations _
    · next hstopped => exact hnotRunning (.inl hstopped)

end Operations

end EspMiner
