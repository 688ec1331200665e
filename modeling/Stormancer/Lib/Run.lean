import Mathlib.Logic.Relation

/-!
# Runs of a guarded transition system

A system is a partial step function `step : σ → α → Option σ`: `none` says that the action is
not possible in the state. A *guard* `G : σ → α → Prop` is a condition on the state before a
step. `Run step G s as s'` is a run from `s` to `s'` that performs `as`, all of whose steps
meet the guard; `Reachable` forgets the actions.

Results:
1. `Run.invariant`, `Reachable.invariant`: a predicate that every guarded step preserves holds
   in every state of every guarded run.
2. `Run.mono`, `Run.mono_of_invariant`: a run under a guard is a run under every weaker guard,
   where it is enough to compare them on the states of an invariant. The guard that is always
   true (`anyStep`) gives the unrestricted runs.
3. `Run.project`: when a second system matches the kept actions of a run and the others do not
   show in it, the run projects to a run of the second system over the kept actions.
4. `Run.of_exec`, `Run.exec_eq`: the runs over a list of actions are its executions, so that a
   concrete run is found by evaluation.
-/

namespace Lts

variable {σ α : Type*}

/-! ## Definitions -/

/-- A run from `s₀` that performs the listed actions, each under the guard `G`. -/
inductive Run (step : σ → α → Option σ) (G : σ → α → Prop) (s₀ : σ) : List α → σ → Prop
  | nil : Run step G s₀ [] s₀
  | snoc {as : List α} {a : α} {s s' : σ} :
      Run step G s₀ as s → G s a → step s a = some s' → Run step G s₀ (as ++ [a]) s'

/-- `s` is the last state of some guarded run from `s₀`. -/
def Reachable (step : σ → α → Option σ) (G : σ → α → Prop) (s₀ s : σ) : Prop :=
  ∃ as, Run step G s₀ as s

/-- The guard of unrestricted runs. -/
def anyStep : σ → α → Prop := fun _ _ => True

instance (s : σ) (a : α) : Decidable (anyStep s a) := inferInstanceAs (Decidable True)

/-- Executes the actions in order. The guard is evaluated before each of them. -/
def exec (step : σ → α → Option σ) (G : σ → α → Prop) [∀ s a, Decidable (G s a)] :
    σ → List α → Option σ
  | s, [] => some s
  | s, a :: as => if G s a then (step s a).bind fun s' => exec step G s' as else none

/-! ## Runs -/

variable {step : σ → α → Option σ} {G G' : σ → α → Prop} {s₀ : σ}

namespace Run

theorem single {a : α} {s' : σ} (hg : G s₀ a) (hs : step s₀ a = some s') :
    Run step G s₀ [a] s' :=
  Run.snoc Run.nil hg hs

theorem append {as bs : List α} {s s' : σ} (h : Run step G s₀ as s) (h' : Run step G s bs s') :
    Run step G s₀ (as ++ bs) s' := by
  induction h' with
  | nil => simpa using h
  | snoc _ hg hs ih =>
    rw [← List.append_assoc]
    exact Run.snoc ih hg hs

theorem mono (hG : ∀ s a, G s a → G' s a) {as : List α} {s : σ} (h : Run step G s₀ as s) :
    Run step G' s₀ as s := by
  induction h with
  | nil => exact Run.nil
  | snoc _ hg hs ih => exact Run.snoc ih (hG _ _ hg) hs

/-- What one guarded step preserves holds at the end of every guarded run. -/
theorem invariant {I : σ → Prop} (h₀ : I s₀)
    (hI : ∀ s a s', I s → G s a → step s a = some s' → I s') {as : List α} {s : σ}
    (h : Run step G s₀ as s) : I s := by
  induction h with
  | nil => exact h₀
  | snoc _ hg hs ih => exact hI _ _ _ ih hg hs

/-- On the states of an invariant a guard may be replaced by what it implies there. -/
theorem mono_of_invariant {I : σ → Prop} (h₀ : I s₀)
    (hI : ∀ s a s', I s → step s a = some s' → I s') (hG : ∀ s a, I s → G s a → G' s a)
    {as : List α} {s : σ} (h : Run step G s₀ as s) : Run step G' s₀ as s := by
  have both : Run step G' s₀ as s ∧ I s := by
    induction h with
    | nil => exact ⟨Run.nil, h₀⟩
    | snoc _ hg hs ih =>
      obtain ⟨hr, hi⟩ := ih
      exact ⟨Run.snoc hr (hG _ _ hi hg) hs, hI _ _ _ hi hs⟩
  exact both.1

/-- The projection of a guarded run to the actions that `keep` selects. -/
theorem project {τ : Type*} {step₂ : τ → α → Option τ} {keep : α → Bool} {R : σ → τ → Prop}
    {t₀ : τ} (h₀ : R s₀ t₀)
    (hidden : ∀ s a s' t, R s t → G s a → step s a = some s' → keep a = false → R s' t)
    (matched : ∀ s a s' t, R s t → G s a → step s a = some s' → keep a = true →
      ∃ t', step₂ t a = some t' ∧ R s' t') {as : List α} {s : σ} (h : Run step G s₀ as s) :
    ∃ t, Run step₂ anyStep t₀ (as.filter keep) t ∧ R s t := by
  induction h with
  | nil => exact ⟨t₀, Run.nil, h₀⟩
  | @snoc as a s s' _ hg hs ih =>
    obtain ⟨t, hr, hst⟩ := ih
    rw [List.filter_append]
    cases hk : keep a with
    | true =>
      obtain ⟨t', ht, hst'⟩ := matched s a s' t hst hg hs hk
      refine ⟨t', ?_, hst'⟩
      rw [List.filter_cons_of_pos hk, List.filter_nil]
      exact Run.snoc hr trivial ht
    | false =>
      refine ⟨t, ?_, hidden s a s' t hst hg hs hk⟩
      rw [List.filter_cons_of_neg (by rw [hk]; nofun), List.filter_nil, List.append_nil]
      exact hr

theorem of_exec [∀ s a, Decidable (G s a)] {as : List α} {s : σ}
    (h : exec step G s₀ as = some s) : Run step G s₀ as s := by
  induction as generalizing s₀ with
  | nil =>
    cases h
    exact Run.nil
  | cons a as ih =>
    unfold exec at h
    split at h
    · next hg =>
      cases hs : step s₀ a with
      | none => simp [hs] at h
      | some s' =>
        rw [hs, Option.bind_some] at h
        exact (single hg hs).append (ih h)
    · cases h

theorem exec_append [∀ s a, Decidable (G s a)] (as bs : List α) (s : σ) :
    exec step G s (as ++ bs) = (exec step G s as).bind fun s' => exec step G s' bs := by
  induction as generalizing s with
  | nil => rfl
  | cons a as ih =>
    simp only [List.cons_append, exec]
    split
    · cases step s a with
      | none => rfl
      | some s' => exact ih s'
    · rfl

/-- The execution of the actions of a run ends where the run does. -/
theorem exec_eq [∀ s a, Decidable (G s a)] {as : List α} {s : σ} (h : Run step G s₀ as s) :
    exec step G s₀ as = some s := by
  induction h with
  | nil => rfl
  | snoc _ hg hs ih =>
    rw [exec_append, ih, Option.bind_some]
    simp only [exec, if_pos hg, hs, Option.bind_some]

/-- The actions determine where a run ends. -/
theorem unique {as : List α} {s s' : σ} (h : Run step G s₀ as s) (h' : Run step G' s₀ as s') :
    s = s' := by
  have hany : ∀ {K : σ → α → Prop} {t : σ}, Run step K s₀ as t →
      exec step anyStep s₀ as = some t := by
    intro K t ht
    exact (ht.mono fun _ _ _ => trivial).exec_eq
  have hs := hany h
  rw [hany h'] at hs
  exact (Option.some.inj hs).symm

/-- The last step of a run meets the guard. -/
theorem last {as : List α} {a : α} {s' : σ} (h : Run step G s₀ (as ++ [a]) s') :
    ∃ s, Run step G s₀ as s ∧ G s a ∧ step s a = some s' := by
  generalize hbs : as ++ [a] = bs at h
  cases h with
  | nil => simp at hbs
  | @snoc as' a' s s' hr hg hs =>
    obtain ⟨rfl, hlast⟩ := List.append_inj' hbs rfl
    cases hlast
    exact ⟨s, hr, hg, hs⟩

end Run

/-! ## Reachable states -/

namespace Reachable

theorem start : Reachable step G s₀ s₀ := ⟨[], Run.nil⟩

theorem next {s s' : σ} {a : α} (h : Reachable step G s₀ s) (hg : G s a)
    (hs : step s a = some s') : Reachable step G s₀ s' := by
  obtain ⟨as, hr⟩ := h
  exact ⟨as ++ [a], Run.snoc hr hg hs⟩

theorem invariant {I : σ → Prop} (h₀ : I s₀)
    (hI : ∀ s a s', I s → G s a → step s a = some s' → I s') {s : σ}
    (h : Reachable step G s₀ s) : I s := by
  obtain ⟨_, hr⟩ := h
  exact hr.invariant h₀ hI

theorem append {as : List α} {s s' : σ} (h : Reachable step G s₀ s) (h' : Run step G s as s') :
    Reachable step G s₀ s' := by
  obtain ⟨bs, hr⟩ := h
  exact ⟨bs ++ as, hr.append h'⟩

theorem mono (hG : ∀ s a, G s a → G' s a) {s : σ} (h : Reachable step G s₀ s) :
    Reachable step G' s₀ s := by
  obtain ⟨as, hr⟩ := h
  exact ⟨as, hr.mono hG⟩

/-- A guarded execution whose last state passes a test gives a reachable state that does. -/
theorem of_exec (step : σ → α → Option σ) (G : σ → α → Prop) [∀ s a, Decidable (G s a)] (s₀ : σ)
    (as : List α) (p : σ → Bool) (h : (exec step G s₀ as).any p = true) :
    ∃ s, Reachable step G s₀ s ∧ p s = true := by
  obtain ⟨s, hs, hp⟩ := (Option.any_eq_true p _).mp h
  exact ⟨s, ⟨as, Run.of_exec hs⟩, hp⟩

end Reachable

end Lts
