import Mathlib.Tactic

/-!
# Coroutines that share a state

An asynchronous function runs without interruption until it awaits the answer
to a request; then other coroutines run. `Coroutine` is the syntax of such
functions, `Pool` a set of them taking turns in any order. A `Protocol` says
how a coroutine may change the shared state and what it may ask for in each of
its modes; following a protocol is checked along the syntax of one coroutine
and then holds of every segment it runs.
-/

/-- Shared state `σ`, requests `Q` answered in `R`, errors `ε`. -/
inductive Coroutine (σ Q : Type) (R : Q → Type) (ε α : Type)
  | done (r : Except ε α)
  | sync (f : σ → σ) (k : σ → Coroutine σ Q R ε α)
  | await (q : Q) (k : Except ε (R q) → Coroutine σ Q R ε α)

namespace Coroutine

variable {σ Q : Type} {R : Q → Type} {ε α β : Type}

protected def bind : Coroutine σ Q R ε α → (α → Coroutine σ Q R ε β) → Coroutine σ Q R ε β
  | done (.ok a), g => g a
  | done (.error e), _ => done (.error e)
  | sync f k, g => sync f fun s => (k s).bind g
  | await q k, g => await q fun r => (k r).bind g

instance : Monad (Coroutine σ Q R ε) where
  pure a := done (.ok a)
  bind := Coroutine.bind

def fail (e : ε) : Coroutine σ Q R ε α := done (.error e)

/-- How a coroutine ends, as a value. -/
def attempt : Coroutine σ Q R ε α → Coroutine σ Q R ε (Except ε α)
  | done r => done (.ok r)
  | sync f k => sync f fun s => (k s).attempt
  | await q k => await q fun r => (k r).attempt

def request (q : Q) : Coroutine σ Q R ε (R q) := await q done

/-- Read the shared state. -/
def inspect (f : σ → α) : Coroutine σ Q R ε α := sync id fun s => done (.ok (f s))

/-- Change the shared state. -/
def change (f : σ → σ) : Coroutine σ Q R ε Unit := sync f fun _ => done (.ok ())

@[simp] theorem pure_eq (a : α) : (pure a : Coroutine σ Q R ε α) = done (.ok a) := rfl

@[simp] theorem done_ok_bind (a : α) (g : α → Coroutine σ Q R ε β) :
    (done (.ok a) >>= g) = g a := rfl

@[simp] theorem done_error_bind (e : ε) (g : α → Coroutine σ Q R ε β) :
    (done (.error e) >>= g) = done (.error e) := rfl

@[simp] theorem sync_bind (f : σ → σ) (k : σ → Coroutine σ Q R ε α)
    (g : α → Coroutine σ Q R ε β) : (sync f k >>= g) = sync f fun s => k s >>= g := rfl

@[simp] theorem await_bind (q : Q) (k : Except ε (R q) → Coroutine σ Q R ε α)
    (g : α → Coroutine σ Q R ε β) : (await q k >>= g) = await q fun r => k r >>= g := rfl

/-! ## Segments -/

/-- Run until the next request or the end. -/
def advance : Coroutine σ Q R ε α → σ → σ × Coroutine σ Q R ε α
  | done r, s => (s, done r)
  | sync f k, s => (k s).advance (f s)
  | await q k, s => (s, await q k)

/-- The request a coroutine is waiting for. -/
def pending : Coroutine σ Q R ε α → Option Q
  | await q _ => some q
  | _ => none

/-! ## Protocols -/

/-- The modes `G` of a coroutine, what each may do, and which answers are expected in it. -/
structure Protocol (σ Q : Type) (R : Q → Type) (ε G : Type) where
  /-- The mode at the start and at the end. -/
  idle : G
  change : G → σ → σ → G → Prop
  asks : G → Q → Prop
  answers : G → (q : Q) → Except ε (R q) → σ → Prop

variable {G : Type} {p : Protocol σ Q R ε G}

/-- From mode `g` in state `s` every segment keeps to the protocol. -/
def Follows (p : Protocol σ Q R ε G) : Coroutine σ Q R ε α → G → σ → Prop
  | done _, g, _ => g = p.idle
  | sync f k, g, s => ∃ g', p.change g s (f s) g' ∧ (k s).Follows p g' (f s)
  | await q k, g, _ => p.asks g q ∧ ∀ r s, p.answers g q r s → (k r).Follows p g s

theorem Follows.bind {x : Coroutine σ Q R ε α} {f : α → Coroutine σ Q R ε β} {g : G} {s : σ}
    (hx : x.Follows p g s) (hf : ∀ a s, (f a).Follows p p.idle s) :
    (x >>= f).Follows p g s := by
  induction x generalizing g s with
  | done r =>
    cases r with
    | ok a =>
      have hg : g = p.idle := hx
      subst hg
      exact hf a s
    | error e => exact hx
  | sync c k ih =>
    obtain ⟨g', hc, hk⟩ := hx
    exact ⟨g', hc, ih s hk⟩
  | await q k ih => exact ⟨hx.1, fun r t hr => ih r (hx.2 r t hr)⟩

theorem Follows.attempt {x : Coroutine σ Q R ε α} {g : G} {s : σ} (hx : x.Follows p g s) :
    x.attempt.Follows p g s := by
  induction x generalizing g s with
  | done r => exact hx
  | sync c k ih =>
    obtain ⟨g', hc, hk⟩ := hx
    exact ⟨g', hc, ih s hk⟩
  | await q k ih => exact ⟨hx.1, fun r t hr => ih r (hx.2 r t hr)⟩

theorem follows_request {q : Q} (hq : p.asks p.idle q) (s : σ) :
    (request q).Follows p p.idle s := ⟨hq, fun _ _ _ => rfl⟩

theorem follows_inspect (hid : ∀ s, p.change p.idle s s p.idle) (f : σ → α) (s : σ) :
    (inspect f).Follows p p.idle s := ⟨p.idle, hid s, rfl⟩

theorem follows_change {f : σ → σ} {s : σ} (hf : p.change p.idle s (f s) p.idle) :
    (change f).Follows p p.idle s := ⟨p.idle, hf, rfl⟩

theorem follows_foldlM {f : β → α → Coroutine σ Q R ε β}
    (hf : ∀ b a s, (f b a).Follows p p.idle s) (l : List α) (b : β) (s : σ) :
    (l.foldlM f b).Follows p p.idle s := by
  induction l generalizing b s with
  | nil => rfl
  | cons a l ih =>
    rw [List.foldlM_cons]
    exact (hf b a s).bind ih

/-- The changes of a segment, mode by mode. -/
abbrev Protocol.Path (p : Protocol σ Q R ε G) : G × σ → G × σ → Prop :=
  Relation.ReflTransGen fun a b => p.change a.1 a.2 b.2 b.1

/-- **Segment rule.** A segment makes a path of allowed changes, and the rest
follows the protocol again. -/
theorem Follows.advance {x : Coroutine σ Q R ε α} {g : G} {s : σ} (h : x.Follows p g s) :
    ∃ g', p.Path (g, s) (g', (x.advance s).1) ∧
      (x.advance s).2.Follows p g' (x.advance s).1 := by
  induction x generalizing g s with
  | done r => exact ⟨g, Relation.ReflTransGen.refl, h⟩
  | sync f k ih =>
    obtain ⟨g', hc, hk⟩ := h
    obtain ⟨g'', hpath, hrest⟩ := ih s hk
    exact ⟨g'', Relation.ReflTransGen.head hc hpath, hrest⟩
  | await q k ih => exact ⟨g, Relation.ReflTransGen.refl, h⟩

/-! ## One coroutine alone -/

/-- A world `W` answers each request, and may change together with the shared state meanwhile. -/
inductive Ends {W : Type} (env : σ × W → (q : Q) → Except ε (R q) → σ × W → Prop) :
    Coroutine σ Q R ε α → σ × W → Except ε α → σ × W → Prop
  | done {c : σ × W} (r : Except ε α) : Ends env (.done r) c r c
  | sync {f : σ → σ} {k : σ → Coroutine σ Q R ε α} {c c' : σ × W} {r : Except ε α} :
      Ends env (k c.1) (f c.1, c.2) r c' → Ends env (.sync f k) c r c'
  | await {q : Q} {k : Except ε (R q) → Coroutine σ Q R ε α} {c d c' : σ × W}
      {a : Except ε (R q)} {r : Except ε α} :
      env c q a d → Ends env (k a) d r c' → Ends env (.await q k) c r c'

section

variable {W : Type} {env : σ × W → (q : Q) → Except ε (R q) → σ × W → Prop} {c c' : σ × W}

@[simp] theorem ends_done {r r' : Except ε α} : Ends env (done r) c r' c' ↔ r' = r ∧ c' = c := by
  constructor
  · intro h
    cases h
    exact ⟨rfl, rfl⟩
  · rintro ⟨rfl, rfl⟩
    exact .done _

@[simp] theorem ends_pure {a : α} {r : Except ε α} :
    Ends env (pure a) c r c' ↔ r = .ok a ∧ c' = c := ends_done

@[simp] theorem ends_fail {e : ε} {r : Except ε α} :
    Ends env (fail e) c r c' ↔ r = .error e ∧ c' = c := ends_done

theorem ends_sync {f : σ → σ} {k : σ → Coroutine σ Q R ε α} {r : Except ε α} :
    Ends env (sync f k) c r c' ↔ Ends env (k c.1) (f c.1, c.2) r c' := by
  constructor
  · intro h
    cases h with
    | sync h => exact h
  · exact .sync

theorem ends_await {q : Q} {k : Except ε (R q) → Coroutine σ Q R ε α} {r : Except ε α} :
    Ends env (await q k) c r c' ↔ ∃ a d, env c q a d ∧ Ends env (k a) d r c' := by
  constructor
  · intro h
    cases h with
    | await henv h => exact ⟨_, _, henv, h⟩
  · rintro ⟨a, d, henv, h⟩
    exact .await henv h

@[simp] theorem ends_request {q : Q} {r : Except ε (R q)} :
    Ends env (request q) c r c' ↔ env c q r c' := by
  rw [request, ends_await]
  constructor
  · rintro ⟨a, d, henv, h⟩
    obtain ⟨rfl, rfl⟩ := ends_done.mp h
    exact henv
  · intro henv
    exact ⟨r, c', henv, .done r⟩

@[simp] theorem ends_inspect {f : σ → α} {r : Except ε α} :
    Ends env (inspect f) c r c' ↔ r = .ok (f c.1) ∧ c' = c := by
  rw [inspect, ends_sync, ends_done]
  exact Iff.rfl

@[simp] theorem ends_change {f : σ → σ} {r : Except ε Unit} :
    Ends env (change f) c r c' ↔ r = .ok () ∧ c' = (f c.1, c.2) := by
  rw [change, ends_sync, ends_done]

theorem ends_bind {x : Coroutine σ Q R ε α} {f : α → Coroutine σ Q R ε β} {r : Except ε β} :
    Ends env (x >>= f) c r c' ↔
      (∃ a d, Ends env x c (.ok a) d ∧ Ends env (f a) d r c') ∨
        ∃ e, r = .error e ∧ Ends env x c (.error e) c' := by
  induction x generalizing c with
  | done o =>
    cases o with
    | ok a =>
      rw [done_ok_bind]
      constructor
      · exact fun h => Or.inl ⟨a, c, .done _, h⟩
      · rintro (⟨b, d, hx, hf⟩ | ⟨e, -, hx⟩)
        · obtain ⟨hb, rfl⟩ := ends_done.mp hx
          cases hb
          exact hf
        · cases (ends_done.mp hx).1
    | error e => simp
  | sync g k ih => simp only [sync_bind, ends_sync, ih]
  | await q k ih =>
    simp only [await_bind, ends_await, ih]
    constructor
    · rintro ⟨a, d, henv, ⟨b, d', hx, hf⟩ | ⟨e, rfl, hx⟩⟩
      · exact Or.inl ⟨b, d', ⟨a, d, henv, hx⟩, hf⟩
      · exact Or.inr ⟨e, rfl, a, d, henv, hx⟩
    · rintro (⟨b, d', ⟨a, d, henv, hx⟩, hf⟩ | ⟨e, rfl, a, d, henv, hx⟩)
      · exact ⟨a, d, henv, Or.inl ⟨b, d', hx, hf⟩⟩
      · exact ⟨a, d, henv, Or.inr ⟨e, rfl, hx⟩⟩

theorem ends_map {x : Coroutine σ Q R ε α} {f : α → β} {r : Except ε β} :
    Ends env (f <$> x) c r c' ↔ ∃ o, r = o.map f ∧ Ends env x c o c' := by
  have hbind : Ends env (f <$> x) c r c' ↔ Ends env (x >>= fun a => pure (f a)) c r c' := Iff.rfl
  rw [hbind, ends_bind]
  constructor
  · rintro (⟨a, d, hx, hf⟩ | ⟨e, rfl, hx⟩)
    · obtain ⟨rfl, rfl⟩ := ends_pure.mp hf
      exact ⟨.ok a, rfl, hx⟩
    · exact ⟨.error e, rfl, hx⟩
  · rintro ⟨o, rfl, hx⟩
    cases o with
    | ok a => exact Or.inl ⟨a, c', hx, ends_pure.mpr ⟨rfl, rfl⟩⟩
    | error e => exact Or.inr ⟨e, rfl, hx⟩

@[simp] theorem ends_attempt {x : Coroutine σ Q R ε α} {r : Except ε (Except ε α)} :
    Ends env x.attempt c r c' ↔ ∃ o, r = .ok o ∧ Ends env x c o c' := by
  induction x generalizing c with
  | done o => simp [attempt]
  | sync g k ih => simp only [attempt, ends_sync, ih]
  | await q k ih =>
    simp only [attempt, ends_await, ih]
    constructor
    · rintro ⟨a, d, henv, o, rfl, h⟩
      exact ⟨o, rfl, a, d, henv, h⟩
    · rintro ⟨o, rfl, a, d, henv, h⟩
      exact ⟨a, d, henv, o, rfl, h⟩

/-- A computation that cannot fail, first. -/
theorem ends_attempt_bind {x : Coroutine σ Q R ε α} {f : Except ε α → Coroutine σ Q R ε β}
    {r : Except ε β} :
    Ends env (x.attempt >>= f) c r c' ↔ ∃ o d, Ends env x c o d ∧ Ends env (f o) d r c' := by
  rw [ends_bind]
  simp only [ends_attempt]
  constructor
  · rintro (⟨o, d, ⟨_, ho, hx⟩, hf⟩ | ⟨e, rfl, o, ho, -⟩)
    · cases ho
      exact ⟨o, d, hx, hf⟩
    · cases ho
  · rintro ⟨o, d, hx, hf⟩
    exact Or.inl ⟨o, d, ⟨o, rfl, hx⟩, hf⟩

/-- A computed value or error, first. -/
theorem ends_done_bind {o : Except ε α} {f : α → Coroutine σ Q R ε β} {r : Except ε β} :
    Ends env (done o >>= f) c r c' ↔
      (∃ a, o = .ok a ∧ Ends env (f a) c r c') ∨ ∃ e, o = .error e ∧ r = .error e ∧ c' = c := by
  cases o with
  | ok a => simp
  | error e => simp

theorem ends_inspect_bind {g : σ → α} {f : α → Coroutine σ Q R ε β} {r : Except ε β} :
    Ends env (inspect g >>= f) c r c' ↔ Ends env (f (g c.1)) c r c' := by
  rw [inspect, sync_bind, ends_sync]
  exact Iff.rfl

theorem ends_change_bind {g : σ → σ} {f : Unit → Coroutine σ Q R ε β} {r : Except ε β} :
    Ends env (change g >>= f) c r c' ↔ Ends env (f ()) (g c.1, c.2) r c' := by
  rw [change, sync_bind, ends_sync]
  exact Iff.rfl

/-- **Loop rule.** When each round of a loop over distinct items turns what is to do for its own
item (`T`) into what is done (`D`), and leaves the others as they are, the loop ends without an
error and has done every item. -/
theorem ends_foldlM {P : σ × W → Prop} {T D : α → σ × W → Prop}
    {f : β → α → Coroutine σ Q R ε β}
    (hround : ∀ b a c r c', P c → T a c → Ends env (f b a) c r c' →
      ∃ b', r = .ok b' ∧ P c' ∧ D a c' ∧
        ∀ other, other ≠ a → (T other c → T other c') ∧ (D other c → D other c'))
    {l : List α} (hl : l.Nodup) {b : β} {r : Except ε β} (hP : P c) (htodo : ∀ a ∈ l, T a c)
    (h : Ends env (l.foldlM f b) c r c') :
    ∃ b', r = .ok b' ∧ P c' ∧ (∀ a ∈ l, D a c') ∧
      ∀ a, a ∉ l → (T a c → T a c') ∧ (D a c → D a c') := by
  induction l generalizing b c with
  | nil =>
    obtain ⟨rfl, rfl⟩ := ends_pure.mp h
    exact ⟨b, rfl, hP, nofun, fun _ _ => ⟨id, id⟩⟩
  | cons a l ih =>
    obtain ⟨hnew, hl⟩ := List.nodup_cons.mp hl
    rw [List.foldlM_cons] at h
    rcases ends_bind.mp h with ⟨b₁, d, hfirst, hrest⟩ | ⟨e, rfl, hfirst⟩
    · obtain ⟨_, -, hd, hdone, hothers⟩ := hround _ _ _ _ _ hP (htodo a (by simp)) hfirst
      have hlater : ∀ x ∈ l, T x d := by
        intro x hx
        refine (hothers x ?_).1 (htodo x (by simp [hx]))
        rintro rfl
        exact hnew hx
      obtain ⟨b', hr, hP', hall, houtside⟩ := ih hl hd hlater hrest
      refine ⟨b', hr, hP', fun x hx => ?_, fun x hx => ?_⟩
      · rcases List.mem_cons.mp hx with rfl | hx
        · exact (houtside x hnew).2 hdone
        · exact hall x hx
      · obtain ⟨hne, hx⟩ := not_or.mp fun h => hx (List.mem_cons.mpr h)
        exact ⟨fun h => (houtside x hx).1 ((hothers x hne).1 h),
          fun h => (houtside x hx).2 ((hothers x hne).2 h)⟩
    · obtain ⟨_, hr, -⟩ := hround _ _ _ _ _ hP (htodo a (by simp)) hfirst
      cases hr

/-- **Stop rule.** Each round of a loop over distinct items does its own item (`D`) or fails, the
item stuck (`S`), and leaves the others as they are. Then every item is done, or the loop has
stopped at the first stuck one: those before it are done, those after it are still to do. -/
theorem ends_foldlM_stop {P : β → σ × W → Prop} {T D S : α → σ × W → Prop}
    {f : β → α → Coroutine σ Q R ε β} {l : List α}
    (hround : ∀ b a c r c', a ∈ l → P b c → T a c → Ends env (f b a) c r c' →
      ((∃ b', r = .ok b' ∧ P b' c') ∧ D a c' ∨ (∃ e, r = .error e) ∧ S a c') ∧
        ∀ other, other ≠ a → (T other c → T other c') ∧ (D other c → D other c'))
    (hl : l.Nodup) {b : β} {r : Except ε β} (hP : P b c) (htodo : ∀ a ∈ l, T a c)
    (h : Ends env (l.foldlM f b) c r c') :
    (∀ a, a ∉ l → (T a c → T a c') ∧ (D a c → D a c')) ∧
      ((∃ b', r = .ok b' ∧ P b' c') ∧ (∀ a ∈ l, D a c') ∨
        ∃ done a rest, (∃ e, r = .error e) ∧ l = done ++ a :: rest ∧ (∀ x ∈ done, D x c') ∧
          S a c' ∧ ∀ x ∈ rest, T x c') := by
  induction l generalizing b c with
  | nil =>
    obtain ⟨rfl, rfl⟩ := ends_pure.mp h
    exact ⟨fun _ _ => ⟨id, id⟩, Or.inl ⟨⟨b, rfl, hP⟩, by simp⟩⟩
  | cons a l ih =>
    obtain ⟨hnew, hl⟩ := List.nodup_cons.mp hl
    have hne : ∀ x ∈ l, x ≠ a := fun x hx hxa => hnew (hxa ▸ hx)
    rw [List.foldlM_cons] at h
    rcases ends_bind.mp h with ⟨b₁, d, hfirst, hrest⟩ | ⟨e, rfl, hfirst⟩
    · obtain ⟨⟨⟨b', hb', hd⟩, hdone⟩ | ⟨⟨e, he⟩, -⟩, hothers⟩ :=
        hround _ _ _ _ _ (by simp) hP (htodo a (by simp)) hfirst
      · obtain rfl := Except.ok.inj hb'
        have hlater : ∀ x ∈ l, T x d :=
          fun x hx => (hothers x (hne x hx)).1 (htodo x (by simp [hx]))
        obtain ⟨houtside, hall⟩ :=
          ih (fun b x c r c' hx => hround b x c r c' (List.mem_cons_of_mem _ hx)) hl hd hlater hrest
        have hdone' : D a c' := (houtside a hnew).2 hdone
        refine ⟨fun x hx => ?_, ?_⟩
        · obtain ⟨hxa, hx⟩ := not_or.mp fun h => hx (List.mem_cons.mpr h)
          exact ⟨fun h => (houtside x hx).1 ((hothers x hxa).1 h),
            fun h => (houtside x hx).2 ((hothers x hxa).2 h)⟩
        · rcases hall with ⟨hr, hall⟩ | ⟨done, x, rest, hr, rfl, hbefore, hstuck, hafter⟩
          · exact Or.inl ⟨hr, List.forall_mem_cons.mpr ⟨hdone', hall⟩⟩
          · exact Or.inr ⟨a :: done, x, rest, hr, rfl,
              List.forall_mem_cons.mpr ⟨hdone', hbefore⟩, hstuck, hafter⟩
      · cases he
    · obtain ⟨⟨⟨b', hb', -⟩, -⟩ | ⟨-, hstuck⟩, hothers⟩ :=
        hround _ _ _ _ _ (by simp) hP (htodo a (by simp)) hfirst
      · cases hb'
      · refine ⟨fun x hx => ?_, Or.inr ⟨[], a, l, ⟨e, rfl⟩, rfl, by simp, hstuck, ?_⟩⟩
        · exact hothers x fun hxa => hx (List.mem_cons.mpr (Or.inl hxa))
        · exact fun x hx => (hothers x (hne x hx)).1 (htodo x (by simp [hx]))

/-- More answers, more ends. -/
theorem Ends.mono {env' : σ × W → (q : Q) → Except ε (R q) → σ × W → Prop}
    (henv : ∀ c q a d, env c q a d → env' c q a d) {x : Coroutine σ Q R ε α} {r : Except ε α}
    (h : Ends env x c r c') : Ends env' x c r c' := by
  induction h with
  | done r => exact .done r
  | sync _ ih => exact .sync ih
  | await ha _ ih => exact .await (henv _ _ _ _ ha) ih

/-- **Termination.** Where every request gets an answer, a coroutine ends. -/
theorem exists_ends {P : σ × W → Prop} (hsync : ∀ (f : σ → σ) c, P c → P (f c.1, c.2))
    (hanswer : ∀ c q, P c → ∃ a d, env c q a d ∧ P d) (x : Coroutine σ Q R ε α) (hc : P c) :
    ∃ r c', Ends env x c r c' ∧ P c' := by
  induction x generalizing c with
  | done r => exact ⟨r, c, .done r, hc⟩
  | sync f k ih =>
    obtain ⟨r, c', h, hc'⟩ := ih c.1 (hsync f c hc)
    exact ⟨r, c', .sync h, hc'⟩
  | await q k ih =>
    obtain ⟨a, d, ha, hd⟩ := hanswer c q hc
    obtain ⟨r, c', h, hc'⟩ := ih a hd
    exact ⟨r, c', .await ha h, hc'⟩

/-- **Run rule.** A preorder that every allowed change and every answer keeps relates the state
at the start to the state at the end. -/
theorem Follows.ends {I : σ → σ → Prop} (hrefl : ∀ s, I s s)
    (htrans : ∀ s t u, I s t → I t u → I s u)
    (hchange : ∀ g s t g', p.change g s t g' → I s t)
    (henv : ∀ g c q a d, p.asks g q → env c q a d → p.answers g q a d.1 ∧ I c.1 d.1)
    {x : Coroutine σ Q R ε α} {g : G} {r : Except ε α} (hx : x.Follows p g c.1)
    (h : Ends env x c r c') : I c.1 c'.1 := by
  induction h generalizing g with
  | done r => exact hrefl _
  | sync _ ih =>
    obtain ⟨g', hc, hk⟩ := hx
    exact htrans _ _ _ (hchange _ _ _ _ hc) (ih hk)
  | await hanswer _ ih =>
    obtain ⟨hasks, hk⟩ := hx
    obtain ⟨ha, hkeep⟩ := henv _ _ _ _ _ hasks hanswer
    exact htrans _ _ _ hkeep (ih (hk _ _ ha))

/-! ## Outcomes -/

/-- A value with a state in `A`, or an error in `E`. -/
def Outcome (A : α → σ × W → Prop) (E : ε → Prop) : Except ε α → σ × W → Prop
  | .ok a, c => A a c
  | .error e, _ => E e

/-- From a state in `P` the coroutine ends with a value in `A` or with an error in `E`. -/
def Ensures (env : σ × W → (q : Q) → Except ε (R q) → σ × W → Prop) (P : σ × W → Prop)
    (x : Coroutine σ Q R ε α) (A : α → σ × W → Prop) (E : ε → Prop) : Prop :=
  ∀ c r c', P c → Ends env x c r c' → Outcome A E r c'

section

variable {P P' : σ × W → Prop} {A A' : α → σ × W → Prop} {B : β → σ × W → Prop} {E : ε → Prop}

theorem Ensures.mono {x : Coroutine σ Q R ε α} (h : Ensures env P x A E) (hP : ∀ c, P' c → P c)
    (hA : ∀ a c, A a c → A' a c) : Ensures env P' x A' E := by
  intro c r c' hc hends
  have hr := h c r c' (hP c hc) hends
  cases r with
  | ok a => exact hA a c' hr
  | error e => exact hr

theorem ensures_pure {a : α} (h : ∀ c, P c → A a c) :
    Ensures env P (pure a : Coroutine σ Q R ε α) A E := by
  intro c r c' hc hends
  obtain ⟨rfl, rfl⟩ := ends_pure.mp hends
  exact h _ hc

theorem ensures_fail {e : ε} (h : E e) : Ensures env P (fail e : Coroutine σ Q R ε α) A E := by
  intro c r c' _ hends
  obtain ⟨rfl, rfl⟩ := ends_fail.mp hends
  exact h

theorem Ensures.bind {x : Coroutine σ Q R ε α} {f : α → Coroutine σ Q R ε β}
    (hx : Ensures env P x A E) (hf : ∀ a, Ensures env (A a) (f a) B E) :
    Ensures env P (x >>= f) B E := by
  intro c r c' hc hends
  rcases ends_bind.mp hends with ⟨a, d, hfirst, hrest⟩ | ⟨e, rfl, hfirst⟩
  · exact hf a d r c' (hx c _ d hc hfirst) hrest
  · exact hx c _ c' hc hfirst

theorem Ensures.map {x : Coroutine σ Q R ε α} {f : α → β} (hx : Ensures env P x A E)
    (hA : ∀ a c, A a c → B (f a) c) : Ensures env P (f <$> x) B E := by
  intro c r c' hc hends
  obtain ⟨o, rfl, hx'⟩ := ends_map.mp hends
  have ho := hx c o c' hc hx'
  cases o with
  | ok a => exact hA a c' ho
  | error e => exact ho

/-- A caught error is looked at by what follows. -/
theorem Ensures.attempt {x : Coroutine σ Q R ε α} {f : Except ε α → Coroutine σ Q R ε β}
    {F : Except ε α → σ × W → Prop} (hx : ∀ c o d, P c → Ends env x c o d → F o d)
    (hf : ∀ o, Ensures env (F o) (f o) B E) : Ensures env P (x.attempt >>= f) B E := by
  intro c r c' hc hends
  obtain ⟨o, d, hfirst, hrest⟩ := ends_attempt_bind.mp hends
  exact hf o d r c' (hx c o d hc hfirst) hrest

theorem ensures_request {q : Q} {A : R q → σ × W → Prop}
    (h : ∀ c a d, P c → env c q a d → Outcome A E a d) :
    Ensures env P (request q : Coroutine σ Q R ε (R q)) A E :=
  fun c r c' hc hends => h c r c' hc (ends_request.mp hends)

theorem ensures_inspect {g : σ → α} (h : ∀ c, P c → A (g c.1) c) :
    Ensures env P (inspect g : Coroutine σ Q R ε α) A E := by
  intro c r c' hc hends
  obtain ⟨rfl, rfl⟩ := ends_inspect.mp hends
  exact h _ hc

theorem ensures_change {g : σ → σ} {A : Unit → σ × W → Prop}
    (h : ∀ c, P c → A () (g c.1, c.2)) : Ensures env P (change g) A E := by
  intro c r c' hc hends
  obtain ⟨rfl, rfl⟩ := ends_change.mp hends
  exact h _ hc

theorem Ensures.weaken {E' : ε → Prop} {x : Coroutine σ Q R ε α} (h : Ensures env P x A E)
    (hE : ∀ e, E e → E' e) : Ensures env P x A E' := by
  intro c r c' hc hends
  have hr := h c r c' hc hends
  cases r with
  | ok a => exact hr
  | error e => exact hE e hr

/-- A fact that every start state gives. -/
theorem Ensures.given {φ : Prop} {x : Coroutine σ Q R ε α} (h : φ → Ensures env P x A E)
    (hP : ∀ c, P' c → P c ∧ φ) : Ensures env P' x A E :=
  fun c r c' hc hends => h (hP c hc).2 c r c' (hP c hc).1 hends

/-- No answer and no change of the shared state makes `P` false. -/
structure Stable (env : σ × W → (q : Q) → Except ε (R q) → σ × W → Prop) (P : σ × W → Prop) :
    Prop where
  answer : ∀ {c q a d}, P c → env c q a d → P d
  change : ∀ {c}, P c → ∀ f : σ → σ, P (f c.1, c.2)

theorem Stable.ends (h : Stable env P) {x : Coroutine σ Q R ε α} {c d : σ × W} {r : Except ε α}
    (hc : P c) (hends : x.Ends env c r d) : P d := by
  induction hends with
  | done => exact hc
  | sync _ ih => exact ih (h.change hc _)
  | await ha _ ih => exact ih (h.answer hc ha)

/-- A loop whose every round keeps `P`. -/
theorem ensures_foldlM {f : β → α → Coroutine σ Q R ε β}
    (hf : ∀ b a, Ensures env P (f b a) (fun _ => P) E) (l : List α) (b : β) :
    Ensures env P (l.foldlM f b) (fun _ => P) E := by
  induction l generalizing b with
  | nil => exact ensures_pure fun _ hc => hc
  | cons a l ih =>
    rw [List.foldlM_cons]
    exact (hf b a).bind ih

end

/-! ## Transcripts -/

/-- Any answer, with a record of it. -/
def Recorded (c : σ × List (Σ q, Except ε (R q))) (q : Q) (a : Except ε (R q))
    (d : σ × List (Σ q, Except ε (R q))) : Prop := d = (c.1, c.2 ++ [⟨q, a⟩])

/-- What follows in a transcript satisfies `P`. -/
def Adds (P : (Σ q, Except ε (R q)) → Prop) (t t' : List (Σ q, Except ε (R q))) : Prop :=
  ∃ es, t' = t ++ es ∧ ∀ e ∈ es, P e

section

variable {P : (Σ q, Except ε (R q)) → Prop} {t t' t'' : List (Σ q, Except ε (R q))} {s s' : σ}

theorem Adds.refl : Adds P t t := ⟨[], by simp, by simp⟩

theorem Adds.trans (h : Adds P t t') (h' : Adds P t' t'') : Adds P t t'' := by
  obtain ⟨es, rfl, hes⟩ := h
  obtain ⟨es', rfl, hes'⟩ := h'
  refine ⟨es ++ es', by rw [List.append_assoc], fun e he => ?_⟩
  exact (List.mem_append.mp he).elim (hes e) (hes' e)

theorem Adds.one {e : Σ q, Except ε (R q)} (he : P e) : Adds P t (t ++ [e]) :=
  ⟨[e], rfl, by simpa using he⟩

theorem Adds.mem {e : Σ q, Except ε (R q)} (h : Adds P t t') (he : e ∈ t') : e ∈ t ∨ P e := by
  obtain ⟨es, rfl, hes⟩ := h
  exact (List.mem_append.mp he).imp_right (hes e)

theorem Adds.subset {e : Σ q, Except ε (R q)} (h : Adds P t t') (he : e ∈ t) : e ∈ t' := by
  obtain ⟨es, rfl, -⟩ := h
  exact List.mem_append_left _ he

theorem ends_recorded {q : Q} {r : Except ε (R q)} :
    (request q).Ends Recorded (s, t) r (s', t') ↔ s' = s ∧ t' = t ++ [⟨q, r⟩] := by
  rw [ends_request, Recorded, Prod.mk.injEq]

/-- An answered request first: either it fails and ends the coroutine, or the coroutine goes
on. -/
theorem ends_recorded_bind {q : Q} {f : R q → Coroutine σ Q R ε α} {r : Except ε α} :
    (request q >>= f).Ends Recorded (s, t) r (s', t') ↔
      (∃ a, (f a).Ends Recorded (s, t ++ [⟨q, .ok a⟩]) r (s', t')) ∨
      ∃ e, r = .error e ∧ s' = s ∧ t' = t ++ [⟨q, .error e⟩] := by
  rw [ends_bind]
  constructor
  · rintro (⟨a, ⟨s₁, t₁⟩, hask, h⟩ | ⟨e, hr, hask⟩)
    · obtain ⟨rfl, rfl⟩ := ends_recorded.mp hask
      exact Or.inl ⟨a, h⟩
    · exact Or.inr ⟨e, hr, ends_recorded.mp hask⟩
  · rintro (⟨a, h⟩ | ⟨e, hr, rfl, rfl⟩)
    · exact Or.inl ⟨a, _, ends_recorded.mpr ⟨rfl, rfl⟩, h⟩
    · exact Or.inr ⟨e, hr, ends_recorded.mpr ⟨rfl, rfl⟩⟩

/-- Every exchange of the coroutine satisfies `P`, whatever it is answered. -/
def Makes (P : (Σ q, Except ε (R q)) → Prop) (x : Coroutine σ Q R ε α) : Prop :=
  ∀ s t r s' t', x.Ends Recorded (s, t) r (s', t') → Adds P t t'

theorem makes_done (r : Except ε α) : Makes P (done r : Coroutine σ Q R ε α) := by
  intro s t r' s' t' h
  obtain rfl : t' = t := congrArg Prod.snd (ends_done.mp h).2
  exact Adds.refl

theorem makes_bind {x : Coroutine σ Q R ε α} {f : α → Coroutine σ Q R ε β} (hx : Makes P x)
    (hf : ∀ a, Makes P (f a)) : Makes P (x >>= f) := by
  intro s t r s' t' h
  rcases ends_bind.mp h with ⟨a, ⟨s₁, t₁⟩, h₁, h₂⟩ | ⟨e, -, h₁⟩
  · exact (hx _ _ _ _ _ h₁).trans (hf a _ _ _ _ _ h₂)
  · exact hx _ _ _ _ _ h₁

theorem makes_request {q : Q} (hq : ∀ r, P ⟨q, r⟩) :
    Makes P (request q : Coroutine σ Q R ε (R q)) := by
  intro s t r s' t' h
  obtain ⟨-, rfl⟩ := ends_recorded.mp h
  exact Adds.one (hq r)

end

end

/-! ## Pools -/

/-- Coroutines that are each at a request or at the end, over one shared state. -/
structure Pool (σ Q : Type) (R : Q → Type) (ε : Type) where
  shared : σ
  tasks : List (Coroutine σ Q R ε Unit)

/-- What happens in one turn: a coroutine starts, or an answer arrives at one of them, or the
shared state changes from outside. -/
inductive Turn (Q : Type) (R : Q → Type) (ε : Type)
  | start
  | answer (i : Nat) (q : Q) (r : Except ε (R q))
  | outside

/-- `Starts` are the coroutines that can be started, `Outside` the changes from outside. -/
inductive Pool.Step (Starts : Coroutine σ Q R ε Unit → Prop) (Outside : σ → σ → Prop) :
    Pool σ Q R ε → Turn Q R ε → Pool σ Q R ε → Prop
  | start {p : Pool σ Q R ε} {x : Coroutine σ Q R ε Unit} : Starts x →
      Pool.Step Starts Outside p .start
        ⟨(x.advance p.shared).1, p.tasks ++ [(x.advance p.shared).2]⟩
  | answer {p : Pool σ Q R ε} {i : Nat} {q : Q} {k : Except ε (R q) → Coroutine σ Q R ε Unit}
      (r : Except ε (R q)) : p.tasks[i]? = some (.await q k) →
      Pool.Step Starts Outside p (.answer i q r)
        ⟨((k r).advance p.shared).1, p.tasks.set i ((k r).advance p.shared).2⟩
  | outside {p : Pool σ Q R ε} {s : σ} : Outside p.shared s →
      Pool.Step Starts Outside p .outside { p with shared := s }

end Coroutine
