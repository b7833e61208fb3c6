import Mathlib.Tactic

/-!
# Invocations that commit or roll back

An invocation reads an environment, threads a state and either returns a
value with the new state or fails. A failure carries no state, so the caller
keeps the old one: that is the rollback of a transaction. `Yields` says what a
successful invocation returned; its lemmas take a computation apart one step
at a time, in both directions.
-/

namespace Invocation

/-- A failure is a reported error or a trap of the host. -/
inductive Failure (ε : Type)
  | error (e : ε)
  | trap
  deriving DecidableEq, Repr

/-- Environment `ρ`, state `σ`, reported errors `ε`. -/
abbrev Prog (ρ σ ε : Type) := ReaderT ρ (StateT σ (Except (Failure ε)))

variable {ρ σ ε α β γ : Type}

/-- From `s` the invocation succeeds, returns `a` and leaves `s'`. -/
def Yields (x : Prog ρ σ ε α) (r : ρ) (s : σ) (a : α) (s' : σ) : Prop := x r s = .ok (a, s')

/-- Return the error `e` when `c` holds. -/
def failIf (c : Prop) [Decidable c] (e : ε) : Prog ρ σ ε Unit :=
  if c then throw (.error e) else pure ()

/-- Trap unless `c` holds. -/
def demand (c : Prop) [Decidable c] : Prog ρ σ ε Unit :=
  if c then pure () else throw .trap

/-- The value of an option, or the error `e`. -/
def okOr (o : Option α) (e : ε) : Prog ρ σ ε α :=
  match o with
  | some a => pure a
  | none => throw (.error e)

/-- The value of an option, or a trap. -/
def okOrTrap (o : Option α) : Prog ρ σ ε α :=
  match o with
  | some a => pure a
  | none => throw .trap

@[simp] theorem yields_pure (a b : α) (r : ρ) (s s' : σ) :
    Yields (pure a : Prog ρ σ ε α) r s b s' ↔ b = a ∧ s' = s := by
  show (Except.ok (a, s) : Except (Failure ε) _) = .ok (b, s') ↔ _
  rw [Except.ok.injEq, Prod.mk.injEq, eq_comm (a := a), eq_comm (a := s)]

@[simp] theorem yields_bind (x : Prog ρ σ ε α) (k : α → Prog ρ σ ε β) (r : ρ) (s s'' : σ) (b : β) :
    Yields (x >>= k) r s b s'' ↔ ∃ a s', Yields x r s a s' ∧ Yields (k a) r s' b s'' := by
  show Except.bind (x r s) (fun p => k p.1 r p.2) = _ ↔ _
  unfold Yields
  cases x r s with
  | error e => simp [Except.bind]
  | ok p =>
    obtain ⟨a, s'⟩ := p
    simp [Except.bind]

@[simp] theorem yields_map (f : α → β) (x : Prog ρ σ ε α) (r : ρ) (s s' : σ) (b : β) :
    Yields (f <$> x) r s b s' ↔ ∃ a, Yields x r s a s' ∧ b = f a := by
  rw [← bind_pure_comp, yields_bind]
  simp only [yields_pure]
  constructor
  · rintro ⟨a, t, h, rfl, rfl⟩; exact ⟨a, h, rfl⟩
  · rintro ⟨a, h, rfl⟩; exact ⟨a, s', h, rfl, rfl⟩

@[simp] theorem yields_throw (e : Failure ε) (r : ρ) (s s' : σ) (a : α) :
    ¬ Yields (throw e : Prog ρ σ ε α) r s a s' := by
  show ¬ (Except.error e : Except (Failure ε) (α × σ)) = .ok (a, s')
  simp

@[simp] theorem yields_read (r r' : ρ) (s s' : σ) :
    Yields (read : Prog ρ σ ε ρ) r s r' s' ↔ r' = r ∧ s' = s := yields_pure r r' r s s'

@[simp] theorem yields_get (r : ρ) (s t s' : σ) :
    Yields (get : Prog ρ σ ε σ) r s t s' ↔ t = s ∧ s' = s := yields_pure s t r s s'

@[simp] theorem yields_read_bind (k : ρ → Prog ρ σ ε α) (r : ρ) (s s' : σ) (a : α) :
    Yields (read >>= k) r s a s' ↔ Yields (k r) r s a s' := by
  rw [yields_bind]
  simp only [yields_read]
  constructor
  · rintro ⟨_, _, ⟨rfl, rfl⟩, h⟩; exact h
  · intro h; exact ⟨r, s, ⟨rfl, rfl⟩, h⟩

@[simp] theorem yields_get_bind (k : σ → Prog ρ σ ε α) (r : ρ) (s s' : σ) (a : α) :
    Yields (get >>= k) r s a s' ↔ Yields (k s) r s a s' := by
  rw [yields_bind]
  simp only [yields_get]
  constructor
  · rintro ⟨_, _, ⟨rfl, rfl⟩, h⟩; exact h
  · intro h; exact ⟨s, s, ⟨rfl, rfl⟩, h⟩

@[simp] theorem yields_modify (f : σ → σ) (r : ρ) (s s' : σ) (u : PUnit) :
    Yields (modify f : Prog ρ σ ε PUnit) r s u s' ↔ s' = f s := by
  show (Except.ok (PUnit.unit, f s) : Except (Failure ε) _) = .ok (u, s') ↔ _
  rw [Except.ok.injEq, Prod.mk.injEq, eq_comm (a := f s)]
  simp

@[simp] theorem yields_set (t : σ) (r : ρ) (s s' : σ) (u : PUnit) :
    Yields (set t : Prog ρ σ ε PUnit) r s u s' ↔ s' = t := by
  show (Except.ok (PUnit.unit, t) : Except (Failure ε) _) = .ok (u, s') ↔ _
  rw [Except.ok.injEq, Prod.mk.injEq, eq_comm (a := t)]
  simp

@[simp] theorem yields_failIf (c : Prop) [Decidable c] (e : ε) (r : ρ) (s s' : σ) (u : Unit) :
    Yields (failIf c e : Prog ρ σ ε Unit) r s u s' ↔ ¬ c ∧ s' = s := by
  unfold failIf
  split <;> simp [*]

@[simp] theorem yields_demand (c : Prop) [Decidable c] (r : ρ) (s s' : σ) (u : Unit) :
    Yields (demand c : Prog ρ σ ε Unit) r s u s' ↔ c ∧ s' = s := by
  unfold demand
  split <;> simp [*]

@[simp] theorem yields_okOr (o : Option α) (e : ε) (r : ρ) (s s' : σ) (a : α) :
    Yields (okOr o e : Prog ρ σ ε α) r s a s' ↔ o = some a ∧ s' = s := by
  cases o <;> simp [okOr, eq_comm]

@[simp] theorem yields_okOrTrap (o : Option α) (r : ρ) (s s' : σ) (a : α) :
    Yields (okOrTrap o : Prog ρ σ ε α) r s a s' ↔ o = some a ∧ s' = s := by
  cases o <;> simp [okOrTrap, eq_comm]

/-! ## Failures -/

/-- From `s` the invocation fails with `e`. -/
def Fails (x : Prog ρ σ ε α) (r : ρ) (s : σ) (e : Failure ε) : Prop := x r s = .error e

theorem Yields.not_fails {x : Prog ρ σ ε α} {r : ρ} {s s' : σ} {a : α} (h : Yields x r s a s')
    (e : Failure ε) : ¬ Fails x r s e := by
  unfold Yields at h
  unfold Fails
  rw [h]
  simp

@[simp] theorem fails_pure (a : α) (r : ρ) (s : σ) (e : Failure ε) :
    ¬ Fails (pure a : Prog ρ σ ε α) r s e := by
  show ¬ (Except.ok (a, s) : Except (Failure ε) _) = .error e
  simp

@[simp] theorem fails_bind (x : Prog ρ σ ε α) (k : α → Prog ρ σ ε β) (r : ρ) (s : σ)
    (e : Failure ε) :
    Fails (x >>= k) r s e ↔ Fails x r s e ∨ ∃ a s', Yields x r s a s' ∧ Fails (k a) r s' e := by
  show Except.bind (x r s) (fun p => k p.1 r p.2) = _ ↔ _
  unfold Fails Yields
  cases x r s with
  | error e' => simp [Except.bind]
  | ok p =>
    obtain ⟨a, s'⟩ := p
    simp [Except.bind]

/-- The first step fails. -/
theorem Fails.bind {x : Prog ρ σ ε α} {r : ρ} {s : σ} {e : Failure ε} (h : Fails x r s e)
    (k : α → Prog ρ σ ε β) : Fails (x >>= k) r s e := (fails_bind ..).mpr (Or.inl h)

/-- The first step succeeds and what follows fails. -/
theorem Yields.bind_fails {x : Prog ρ σ ε α} {k : α → Prog ρ σ ε β} {r : ρ} {s s' : σ} {a : α}
    {e : Failure ε} (h : Yields x r s a s') (hk : Fails (k a) r s' e) : Fails (x >>= k) r s e :=
  (fails_bind ..).mpr (Or.inr ⟨a, s', h, hk⟩)

@[simp] theorem fails_map (f : α → β) (x : Prog ρ σ ε α) (r : ρ) (s : σ) (e : Failure ε) :
    Fails (f <$> x) r s e ↔ Fails x r s e := by
  rw [← bind_pure_comp, fails_bind]
  simp

@[simp] theorem fails_throw (e' : Failure ε) (r : ρ) (s : σ) (e : Failure ε) :
    Fails (throw e' : Prog ρ σ ε α) r s e ↔ e = e' := by
  show (Except.error e' : Except (Failure ε) (α × σ)) = .error e ↔ _
  rw [Except.error.injEq, eq_comm]

@[simp] theorem fails_read (r : ρ) (s : σ) (e : Failure ε) :
    ¬ Fails (read : Prog ρ σ ε ρ) r s e := fails_pure r r s e

@[simp] theorem fails_get (r : ρ) (s : σ) (e : Failure ε) :
    ¬ Fails (get : Prog ρ σ ε σ) r s e := fails_pure s r s e

@[simp] theorem fails_modify (f : σ → σ) (r : ρ) (s : σ) (e : Failure ε) :
    ¬ Fails (modify f : Prog ρ σ ε PUnit) r s e := by
  show ¬ (Except.ok (PUnit.unit, f s) : Except (Failure ε) _) = .error e
  simp

@[simp] theorem fails_failIf (c : Prop) [Decidable c] (e' : ε) (r : ρ) (s : σ) (e : Failure ε) :
    Fails (failIf c e' : Prog ρ σ ε Unit) r s e ↔ c ∧ e = .error e' := by
  unfold failIf
  split <;> simp [*]

@[simp] theorem fails_demand (c : Prop) [Decidable c] (r : ρ) (s : σ) (e : Failure ε) :
    Fails (demand c : Prog ρ σ ε Unit) r s e ↔ ¬ c ∧ e = .trap := by
  unfold demand
  split <;> simp [*]

@[simp] theorem fails_okOr (o : Option α) (e' : ε) (r : ρ) (s : σ) (e : Failure ε) :
    Fails (okOr o e' : Prog ρ σ ε α) r s e ↔ o = none ∧ e = .error e' := by
  cases o <;> simp [okOr]

@[simp] theorem fails_okOrTrap (o : Option α) (r : ρ) (s : σ) (e : Failure ε) :
    Fails (okOrTrap o : Prog ρ σ ε α) r s e ↔ o = none ∧ e = .trap := by
  cases o <;> simp [okOrTrap]

/-! ## Traps -/

/-- From `s` the invocation traps. -/
def Traps (x : Prog ρ σ ε α) (r : ρ) (s : σ) : Prop := x r s = .error .trap

theorem Yields.not_traps {x : Prog ρ σ ε α} {r : ρ} {s s' : σ} {a : α} (h : Yields x r s a s') :
    ¬ Traps x r s := h.not_fails .trap

@[simp] theorem traps_pure (a : α) (r : ρ) (s : σ) : ¬ Traps (pure a : Prog ρ σ ε α) r s :=
  fails_pure a r s .trap

@[simp] theorem traps_bind (x : Prog ρ σ ε α) (k : α → Prog ρ σ ε β) (r : ρ) (s : σ) :
    Traps (x >>= k) r s ↔ Traps x r s ∨ ∃ a s', Yields x r s a s' ∧ Traps (k a) r s' :=
  fails_bind x k r s .trap

@[simp] theorem traps_map (f : α → β) (x : Prog ρ σ ε α) (r : ρ) (s : σ) :
    Traps (f <$> x) r s ↔ Traps x r s := fails_map f x r s .trap

@[simp] theorem traps_read (r : ρ) (s : σ) : ¬ Traps (read : Prog ρ σ ε ρ) r s :=
  fails_read r s .trap

@[simp] theorem traps_get (r : ρ) (s : σ) : ¬ Traps (get : Prog ρ σ ε σ) r s := fails_get r s .trap

@[simp] theorem traps_modify (f : σ → σ) (r : ρ) (s : σ) :
    ¬ Traps (modify f : Prog ρ σ ε PUnit) r s := fails_modify f r s .trap

@[simp] theorem traps_failIf (c : Prop) [Decidable c] (e : ε) (r : ρ) (s : σ) :
    ¬ Traps (failIf c e : Prog ρ σ ε Unit) r s := by
  rw [Traps, ← Fails, fails_failIf]
  simp

@[simp] theorem traps_okOr (o : Option α) (e : ε) (r : ρ) (s : σ) :
    ¬ Traps (okOr o e : Prog ρ σ ε α) r s := by
  rw [Traps, ← Fails, fails_okOr]
  simp

@[simp] theorem traps_okOrTrap (o : Option α) (r : ρ) (s : σ) :
    Traps (okOrTrap o : Prog ρ σ ε α) r s ↔ o = none := by
  rw [Traps, ← Fails, fails_okOrTrap]
  simp

/-! ## Bodies without errors of their own -/

/-- The invocation may trap but reports no error. -/
def Silent (x : Prog ρ σ ε α) : Prop := ∀ r s e, ¬ Fails x r s (.error e)

theorem silent_pure (a : α) : Silent (pure a : Prog ρ σ ε α) := fun r s _ => fails_pure a r s _

theorem Silent.bind {x : Prog ρ σ ε α} {k : α → Prog ρ σ ε β} (hx : Silent x)
    (hk : ∀ a, Silent (k a)) : Silent (x >>= k) := by
  intro r s e h
  rcases (fails_bind ..).mp h with h | ⟨a, s', -, h⟩
  · exact hx r s e h
  · exact hk a r s' e h

theorem Silent.map {x : Prog ρ σ ε α} (hx : Silent x) (f : α → β) : Silent (f <$> x) :=
  fun r s e h => hx r s e ((fails_map ..).mp h)

theorem Silent.ite {c : Prop} [Decidable c] {x y : Prog ρ σ ε α} (hx : Silent x) (hy : Silent y) :
    Silent (if c then x else y) := by
  split
  · exact hx
  · exact hy

theorem silent_read : Silent (read : Prog ρ σ ε ρ) := fun r s _ => fails_read r s _

theorem silent_get : Silent (get : Prog ρ σ ε σ) := fun r s _ => fails_get r s _

theorem silent_modify (f : σ → σ) : Silent (modify f : Prog ρ σ ε PUnit) :=
  fun r s _ => fails_modify f r s _

theorem silent_set (s' : σ) : Silent (set s' : Prog ρ σ ε PUnit) :=
  fun r s _ => fails_modify (fun _ => s') r s _

theorem silent_demand (c : Prop) [Decidable c] : Silent (demand c : Prog ρ σ ε Unit) := by
  intro r s e h
  cases ((fails_demand ..).mp h).2

theorem silent_okOrTrap (o : Option α) : Silent (okOrTrap o : Prog ρ σ ε α) := by
  intro r s e h
  cases ((fails_okOrTrap ..).mp h).2

theorem silent_forM {f : α → Prog ρ σ ε PUnit} (hf : ∀ a, Silent (f a)) (l : List α) :
    Silent (forM l f) := by
  induction l with
  | nil => exact silent_pure _
  | cons a l ih =>
    rw [List.forM_cons]
    exact (hf a).bind fun _ => ih

/-! ## Loops -/

@[simp] theorem yields_forM_nil (f : α → Prog ρ σ ε PUnit) (r : ρ) (s s' : σ) (u : PUnit) :
    Yields (forM ([] : List α) f) r s u s' ↔ s' = s := by
  simp [List.forM_nil]

@[simp] theorem yields_forM_cons (a : α) (l : List α) (f : α → Prog ρ σ ε PUnit) (r : ρ)
    (s s' : σ) (u : PUnit) :
    Yields (forM (a :: l) f) r s u s' ↔
      ∃ t, Yields (f a) r s ⟨⟩ t ∧ Yields (forM l f) r t u s' := by
  rw [List.forM_cons, yields_bind]
  constructor
  · rintro ⟨_, t, h, hl⟩; exact ⟨t, h, hl⟩
  · rintro ⟨t, h, hl⟩; exact ⟨⟨⟩, t, h, hl⟩

end Invocation
