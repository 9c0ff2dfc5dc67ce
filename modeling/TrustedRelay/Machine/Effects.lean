import TrustedRelay.Machine.Run

/-!
# Effects of a run

A concurrent system implements a sequential object when every operation takes effect with a single
action: there is a function `point` that names the operation which takes effect with an action. The
operations of a run in the order of their effects are its `effects`. They begin with those of every
part of the run (`effects_prefix_append`), so that an operation which is over comes before every
operation that is yet to start, and an invariant may speak of them (`run_effects_invariant`).

What an operation returns is determined by the state in which it took effect, `TookEffect`.
-/

namespace TrustedRelay.Machine

variable {σ α κ τ : Type*}

/-- The operations that take effect in a run, in order. -/
def effects (step : σ → α → Option σ) (point : σ → α → Option κ) (s : σ) : List α → List κ
  | [] => []
  | a :: actions =>
    match step s a with
    | none => []
    | some s' => (point s a).toList ++ effects step point s' actions

section Effects

variable {step : σ → α → Option σ} {point : σ → α → Option κ}

theorem effects_append {s t : σ} {actions later : List α} (h : run step s actions = some t) :
    effects step point s (actions ++ later) =
      effects step point s actions ++ effects step point t later := by
  induction actions generalizing s with
  | nil =>
    rw [← Option.some.inj h]
    rfl
  | cons a actions ih =>
    rw [run_cons, Option.bind_eq_some_iff] at h
    obtain ⟨s', hs', h⟩ := h
    rw [List.cons_append, effects, effects, hs']
    dsimp only
    rw [ih h, List.append_assoc]

theorem effects_concat {s t t' : σ} {actions : List α} {a : α} (h : run step s actions = some t)
    (ht : step t a = some t') :
    effects step point s (actions ++ [a]) =
      effects step point s actions ++ (point t a).toList := by
  rw [effects_append h, effects, ht]
  dsimp only
  rw [effects, List.append_nil]

theorem effects_prefix_append {s t : σ} {actions later : List α} (h : run step s actions = some t) :
    effects step point s actions <+: effects step point s (actions ++ later) :=
  ⟨_, (effects_append h).symm⟩

/-- Invariants that know the effects so far. -/
theorem run_effects_invariant {start s : σ} {actions : List α} (I : List α → List κ → σ → Prop)
    (hstart : I [] [] start)
    (hstep : ∀ before log t a t', I before log t → step t a = some t' →
      I (before ++ [a]) (log ++ (point t a).toList) t')
    (h : run step start actions = some s) : I actions (effects step point start actions) s := by
  refine run_history (fun before => I before (effects step point start before)) hstart ?_ h
  intro before a after t t' _ ht hI hat
  rw [effects_concat ht hat]
  exact hstep before _ t a t' hI hat

end Effects

/-! ### When an operation took effect -/

/-- The operation took effect in the log when the object was in state `t`. -/
def TookEffect (apply : τ → κ → τ) (start : τ) (log : List κ) (op : κ) (t : τ) : Prop :=
  ∃ before, before ++ [op] <+: log ∧ before.foldl apply start = t

section TookEffect

variable {apply : τ → κ → τ} {start t : τ} {log : List κ} {op : κ}

theorem TookEffect.append (h : TookEffect apply start log op t) (later : List κ) :
    TookEffect apply start (log ++ later) op t := by
  obtain ⟨before, hbefore, ht⟩ := h
  exact ⟨before, hbefore.trans (List.prefix_append log later), ht⟩

theorem tookEffect_concat (ht : log.foldl apply start = t) :
    TookEffect apply start (log ++ [op]) op t :=
  ⟨log, List.prefix_rfl, ht⟩

theorem TookEffect.mem (h : TookEffect apply start log op t) : op ∈ log := by
  obtain ⟨before, hbefore, -⟩ := h
  exact hbefore.subset (List.mem_append_right before List.mem_cons_self)

/-- The end of the log comes from the operation by what took effect after it. -/
theorem TookEffect.later (h : TookEffect apply start log op t) :
    ∃ later : List κ, log.foldl apply start = later.foldl apply (apply t op) := by
  obtain ⟨before, ⟨later, rfl⟩, ht⟩ := h
  exact ⟨later, by rw [List.foldl_append, List.foldl_append, ht, List.foldl_cons, List.foldl_nil]⟩

/-- What is not in a first part of the log took effect after that part. -/
theorem TookEffect.after (h : TookEffect apply start log op t) {first : List κ}
    (hfirst : first <+: log) (hop : op ∉ first) :
    ∃ later : List κ, t = later.foldl apply (first.foldl apply start) := by
  obtain ⟨before, hbefore, ht⟩ := h
  rcases List.prefix_or_prefix_of_prefix hfirst hbefore with hle | hle
  · rcases List.prefix_concat_iff.mp hle with heq | ⟨later, rfl⟩
    · exact absurd (heq ▸ List.mem_append_right before List.mem_cons_self) hop
    · exact ⟨later, by rw [← ht, List.foldl_append]⟩
  · exact absurd (hle.subset (List.mem_append_right before List.mem_cons_self)) hop

end TookEffect

end TrustedRelay.Machine
