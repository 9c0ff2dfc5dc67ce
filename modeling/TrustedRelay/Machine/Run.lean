import Mathlib

/-!
# Runs of a step function

A system is a partial step function: an action is either not enabled in a state or leads to one
successor. A run is a list of actions. Interleavings of concurrent handlers are runs whose
actions name the handler that moves, so a statement about every run is one about every schedule.
-/

namespace TrustedRelay.Machine

variable {σ α : Type*} {step : σ → α → Option σ}

/-- The state after a list of actions, if all of them are enabled. -/
def run (step : σ → α → Option σ) (s : σ) (actions : List α) : Option σ := actions.foldlM step s

@[simp] theorem run_nil (s : σ) : run step s [] = some s := rfl

theorem run_cons (s : σ) (a : α) (actions : List α) :
    run step s (a :: actions) = (step s a).bind fun s' => run step s' actions := rfl

theorem run_append (s : σ) (actions later : List α) :
    run step s (actions ++ later) = (run step s actions).bind fun t => run step t later :=
  List.foldlM_append

theorem run_concat {s s' : σ} {actions : List α} {a : α} :
    run step s (actions ++ [a]) = some s' ↔
      ∃ t, run step s actions = some t ∧ step t a = some s' := by
  simp [run_append, run_cons, Option.bind_eq_some_iff]

/-- A run of a system with fewer steps. -/
theorem run_mono {step' : σ → α → Option σ} (hstep : ∀ s a s', step s a = some s' →
    step' s a = some s') {s s' : σ} {actions : List α} (h : run step s actions = some s') :
    run step' s actions = some s' := by
  induction actions generalizing s with
  | nil => exact h
  | cons a actions ih =>
    rw [run_cons, Option.bind_eq_some_iff] at h ⊢
    obtain ⟨t, ht, h⟩ := h
    exact ⟨t, hstep s a t ht, ih h⟩

/-- A run of a system each of whose steps is one of another system, or none that it can see. -/
theorem run_filterMap {τ β : Type*} {step' : τ → β → Option τ} (abs : σ → τ) (act : α → Option β)
    (hsome : ∀ s a s' b, step s a = some s' → act a = some b → step' (abs s) b = some (abs s'))
    (hnone : ∀ s a s', step s a = some s' → act a = none → abs s' = abs s)
    {s s' : σ} {actions : List α} (h : run step s actions = some s') :
    run step' (abs s) (actions.filterMap act) = some (abs s') := by
  induction actions generalizing s with
  | nil => exact congrArg _ (congrArg abs (Option.some.inj h))
  | cons a actions ih =>
    rw [run_cons, Option.bind_eq_some_iff] at h
    obtain ⟨t, ht, h⟩ := h
    cases ha : act a with
    | none =>
      rw [List.filterMap_cons_none ha, ← hnone s a t ht ha]
      exact ih h
    | some b =>
      rw [List.filterMap_cons_some ha, run_cons, hsome s a t b ht ha]
      exact ih h

/-! ### Invariants -/

/-- Invariants of histories: the state is described together with the actions that led to it. -/
theorem run_history {start s : σ} {actions : List α} (I : List α → σ → Prop) (hstart : I [] start)
    (hstep : ∀ before a after t t', actions = before ++ a :: after →
      run step start before = some t → I before t → step t a = some t' → I (before ++ [a]) t')
    (h : run step start actions = some s) : I actions s := by
  have hall : ∀ before after t, actions = before ++ after → run step start before = some t →
      I before t := by
    intro before
    induction before using List.reverseRecOn with
    | nil =>
      intro after t _ ht
      exact Option.some.inj ht ▸ hstart
    | append_singleton before a ih =>
      intro after t' heq ht'
      rw [List.append_assoc, List.singleton_append] at heq
      obtain ⟨t, ht, hat⟩ := run_concat.mp ht'
      exact hstep before a after t t' heq ht (ih (a :: after) t heq ht) hat
  exact hall actions [] s (List.append_nil _).symm h

/-- Every action of a run is taken in a state that satisfies the condition with it. -/
def Throughout (step : σ → α → Option σ) (s : σ) (actions : List α) (G : σ → α → Prop) : Prop :=
  ∀ before a after t, actions = before ++ a :: after → run step s before = some t → G t a

theorem Throughout.of_append {s : σ} {actions later : List α} {G : σ → α → Prop}
    (h : Throughout step s (actions ++ later) G) : Throughout step s actions G :=
  fun before a after t heq ht =>
    h before a (after ++ later) t (by rw [heq, List.append_assoc, List.cons_append]) ht

/-- What every step that meets a condition keeps holds at the end of every run whose steps all
meet it. -/
theorem run_invariant_of_throughout (I : σ → Prop) {G : σ → α → Prop}
    (hstep : ∀ s a s', I s → G s a → step s a = some s' → I s') {s s' : σ} {actions : List α}
    (hs : I s) (hG : Throughout step s actions G) (h : run step s actions = some s') : I s' :=
  run_history (fun _ => I) hs
    (fun before a after t t' heq ht hI hat => hstep t a t' hI (hG before a after t heq ht) hat) h

/-- What every step keeps holds at the end of every run. -/
theorem run_invariant (I : σ → Prop) (hstep : ∀ s a s', I s → step s a = some s' → I s')
    {s s' : σ} {actions : List α} (hs : I s) (h : run step s actions = some s') : I s' :=
  run_history (fun _ => I) hs (fun _ a _ t t' _ _ hI hat => hstep t a t' hI hat) h

end TrustedRelay.Machine
