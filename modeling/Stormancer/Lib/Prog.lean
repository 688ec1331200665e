/-!
# Programs with a state and exceptions that may not return

A program over the states `σ` takes a state and returns a value, or throws, in a new state.
`none` says that it does not return.

Results:
1. `bind_eq_some`, `attempt_eq_some` and the like take a run of a program apart.
2. `Moves`: the rules for a relation between states that every run of a program respects, for
   relations that are reflexive and transitive.
3. `Returns`: the rules for programs that return or throw from every state.
-/

def Prog (σ ε α : Type) := σ → Option (Except ε α × σ)

namespace Prog

variable {σ ε α β : Type}

/-! ## Definitions -/

instance : Monad (Prog σ ε) where
  pure a := fun s => some (.ok a, s)
  bind m f := fun s =>
    match m s with
    | none => none
    | some (.error e, t) => some (.error e, t)
    | some (.ok a, t) => f a t

def get : Prog σ ε σ := fun s => some (.ok s, s)

def modify (f : σ → σ) : Prog σ ε Unit := fun s => some (.ok (), f s)

def raise (e : ε) : Prog σ ε α := fun s => some (.error e, s)

def diverge : Prog σ ε α := fun _ => none

/-- Runs a program and returns what it returned or threw. -/
def attempt (m : Prog σ ε α) : Prog σ ε (Except ε α) := fun s =>
  match m s with
  | none => none
  | some (r, t) => some (.ok r, t)

/-- Runs a program and then changes the state, whether it returned or threw. -/
def tap (f : Except ε α → σ → σ) (m : Prog σ ε α) : Prog σ ε α := fun s =>
  match m s with
  | none => none
  | some (r, t) => some (r, f r t)

/-! ## Runs -/

variable {s s' : σ}

theorem pure_eq_some {a : α} {r : Except ε α} :
    (pure a : Prog σ ε α) s = some (r, s') ↔ r = .ok a ∧ s' = s := by
  show some (Except.ok a, s) = some (r, s') ↔ _
  simp only [Option.some.injEq, Prod.mk.injEq]
  exact and_congr eq_comm eq_comm

theorem get_bind (f : σ → Prog σ ε β) (s : σ) : (get >>= f) s = f s s := rfl

theorem modify_bind (g : σ → σ) (f : Unit → Prog σ ε β) (s : σ) :
    (modify g >>= f) s = f () (g s) := rfl

theorem raise_eq_some {e : ε} {r : Except ε α} :
    (raise e : Prog σ ε α) s = some (r, s') ↔ r = .error e ∧ s' = s := by
  show some (Except.error e, s) = some (r, s') ↔ _
  simp only [Option.some.injEq, Prod.mk.injEq]
  exact and_congr eq_comm eq_comm

/-- A run of a sequence stops in its first part, or goes through both. -/
theorem bind_eq_some {m : Prog σ ε α} {f : α → Prog σ ε β} {r : Except ε β} :
    (m >>= f) s = some (r, s') ↔
      (∃ e, m s = some (.error e, s') ∧ r = .error e) ∨
        ∃ a t, m s = some (.ok a, t) ∧ f a t = some (r, s') := by
  show (match m s with
    | none => none
    | some (.error e, t) => some (.error e, t)
    | some (.ok a, t) => f a t) = some (r, s') ↔ _
  cases hm : m s with
  | none => simp
  | some p =>
    obtain ⟨p, t⟩ := p
    cases p with
    | error e =>
      simp only [Option.some.injEq, Prod.mk.injEq, reduceCtorEq, false_and, exists_false, or_false,
        Except.error.injEq]
      constructor
      · rintro ⟨rfl, rfl⟩
        exact ⟨e, ⟨rfl, rfl⟩, rfl⟩
      · rintro ⟨e', ⟨rfl, rfl⟩, rfl⟩
        exact ⟨rfl, rfl⟩
    | ok a =>
      simp only [Option.some.injEq, Prod.mk.injEq, reduceCtorEq, false_and, exists_false, false_or,
        Except.ok.injEq]
      constructor
      · intro h
        exact ⟨a, t, ⟨rfl, rfl⟩, h⟩
      · rintro ⟨a', t', ⟨rfl, rfl⟩, h⟩
        exact h

theorem attempt_eq_some {m : Prog σ ε α} {r : Except ε (Except ε α)} :
    attempt m s = some (r, s') ↔ ∃ r', m s = some (r', s') ∧ r = .ok r' := by
  unfold attempt
  cases hm : m s with
  | none => simp
  | some p =>
    obtain ⟨p, t⟩ := p
    simp only [Option.some.injEq, Prod.mk.injEq]
    constructor
    · rintro ⟨rfl, rfl⟩
      exact ⟨p, ⟨rfl, rfl⟩, rfl⟩
    · rintro ⟨r', ⟨rfl, rfl⟩, rfl⟩
      exact ⟨rfl, rfl⟩

theorem tap_eq_some {f : Except ε α → σ → σ} {m : Prog σ ε α} {r : Except ε α} :
    tap f m s = some (r, s') ↔ ∃ t, m s = some (r, t) ∧ s' = f r t := by
  unfold tap
  cases hm : m s with
  | none => simp
  | some p =>
    obtain ⟨p, t⟩ := p
    simp only [Option.some.injEq, Prod.mk.injEq]
    constructor
    · rintro ⟨rfl, rfl⟩
      exact ⟨t, ⟨rfl, rfl⟩, rfl⟩
    · rintro ⟨u, ⟨rfl, rfl⟩, rfl⟩
      exact ⟨rfl, rfl⟩

/-! ## Relations that programs respect -/

/-- Every run of the program moves the state along the relation. -/
def Moves (R : σ → σ → Prop) (m : Prog σ ε α) : Prop :=
  ∀ s r s', m s = some (r, s') → R s s'

namespace Moves

variable {R : σ → σ → Prop}

theorem pure (hr : ∀ s, R s s) (a : α) : Moves R (Pure.pure a : Prog σ ε α) := by
  intro s r s' h
  obtain ⟨_, rfl⟩ := pure_eq_some.mp h
  exact hr _

theorem get_bind {f : σ → Prog σ ε β} (hf : ∀ a, Moves R (f a)) : Moves R (Prog.get >>= f) := by
  intro s r s' h
  exact hf s s r s' h

theorem raise (hr : ∀ s, R s s) (e : ε) : Moves R (Prog.raise e : Prog σ ε α) := by
  intro s r s' h
  obtain ⟨_, rfl⟩ := raise_eq_some.mp h
  exact hr _

theorem modify {f : σ → σ} (hf : ∀ s, R s (f s)) : Moves R (Prog.modify f : Prog σ ε Unit) := by
  intro s r s' h
  cases h
  exact hf s

theorem diverge : Moves R (Prog.diverge : Prog σ ε α) := nofun

theorem bind (ht : ∀ s t u, R s t → R t u → R s u) {m : Prog σ ε α} {f : α → Prog σ ε β}
    (hm : Moves R m) (hf : ∀ a, Moves R (f a)) : Moves R (m >>= f) := by
  intro s r s' h
  rcases bind_eq_some.mp h with ⟨e, hrun, _⟩ | ⟨a, t, hrun, hrest⟩
  · exact hm s _ s' hrun
  · exact ht s t s' (hm s _ t hrun) (hf a t r s' hrest)

theorem attempt {m : Prog σ ε α} (hm : Moves R m) : Moves R (Prog.attempt m) := by
  intro s r s' h
  obtain ⟨r', hrun, _⟩ := attempt_eq_some.mp h
  exact hm s r' s' hrun

theorem tap (ht : ∀ s t u, R s t → R t u → R s u) {f : Except ε α → σ → σ} {m : Prog σ ε α}
    (hm : Moves R m) (hf : ∀ r s, R s (f r s)) : Moves R (Prog.tap f m) := by
  intro s r s' h
  obtain ⟨t, hrun, rfl⟩ := tap_eq_some.mp h
  exact ht s t _ (hm s r t hrun) (hf r t)

end Moves

/-! ## Programs that return -/

/-- From every state the program returns or throws. -/
def Returns (m : Prog σ ε α) : Prop := ∀ s, ∃ r s', m s = some (r, s')

namespace Returns

theorem pure (a : α) : Returns (Pure.pure a : Prog σ ε α) := fun s => ⟨.ok a, s, rfl⟩

theorem raise (e : ε) : Returns (Prog.raise e : Prog σ ε α) := fun s => ⟨.error e, s, rfl⟩

theorem get_bind {f : σ → Prog σ ε β} (hf : ∀ a, Returns (f a)) : Returns (Prog.get >>= f) :=
  fun s => hf s s

theorem modify (f : σ → σ) : Returns (Prog.modify f : Prog σ ε Unit) := fun s => ⟨.ok (), f s, rfl⟩

theorem bind {m : Prog σ ε α} {f : α → Prog σ ε β} (hm : Returns m) (hf : ∀ a, Returns (f a)) :
    Returns (m >>= f) := by
  intro s
  obtain ⟨r, t, hrun⟩ := hm s
  cases r with
  | error e => exact ⟨.error e, t, bind_eq_some.mpr (.inl ⟨e, hrun, rfl⟩)⟩
  | ok a =>
    obtain ⟨r', s', hrest⟩ := hf a t
    exact ⟨r', s', bind_eq_some.mpr (.inr ⟨a, t, hrun, hrest⟩)⟩

theorem tap {f : Except ε α → σ → σ} {m : Prog σ ε α} (hm : Returns m) :
    Returns (Prog.tap f m) := by
  intro s
  obtain ⟨r, t, hrun⟩ := hm s
  exact ⟨r, f r t, tap_eq_some.mpr ⟨t, hrun, rfl⟩⟩

end Returns

end Prog
