import SubRosa.Library.Coroutine
import SubRosa.Library.Runs

/-!
# Mutual exclusion without waiting

A key is taken by an entry in the shared state, in the same segment in which it
was found free, and given back when the answer has come. Coroutines that keep
to this never wait for the same key at the same time, whatever the order of
their turns, and a key whose entry says taken is held by one of them.
-/

namespace Coroutine

variable {σ Q : Type} {R : Q → Type} {ε κ : Type}

/-- A state says which keys are free and which are taken; a key may be neither. A request is made
under at most one key. -/
structure Lock (σ Q κ : Type) where
  free : σ → κ → Prop
  taken : σ → κ → Prop
  holds : Q → Option κ

namespace Lock

variable (l : Lock σ Q κ)

/-- Take a key only when it is free, keep it from being free while holding it, free no key of
somebody else. -/
structure Change (own : Option κ) (s s' : σ) (own' : Option κ) : Prop where
  frees : ∀ c, own ≠ some c → ¬ l.free s c → ¬ l.free s' c
  takes : ∀ c, own' = some c → own = some c ∨ l.free s c
  keeps : ∀ c, own' = some c → ¬ l.free s' c
  leaves : ∀ c, l.taken s' c → own' = some c ∨ (own ≠ some c ∧ l.taken s c)

/-- The modes are the keys held. -/
def protocol : Protocol σ Q R ε (Option κ) where
  idle := none
  change := l.Change
  asks own q := l.holds q = own
  answers own _ _ s := ∀ c, own = some c → ¬ l.free s c

variable {l}

theorem Change.same {s s' : σ} (hfree : ∀ c, l.free s' c → l.free s c)
    (htaken : ∀ c, l.taken s' c → l.taken s c) : l.Change none s s' none where
  frees c _ h := mt (hfree c) h
  takes c h := by cases h
  keeps c h := by cases h
  leaves c h := Or.inr ⟨by simp, htaken c h⟩

/-- A change that a segment makes, from its first state to its last. -/
theorem Change.trans {own own' own'' : Option κ} {s s' s'' : σ}
    (h : l.Change own s s' own') (k : l.Change own' s' s'' own'') :
    l.Change own s s'' own'' where
  frees c hown hfree := by
    have hown' : own' ≠ some c := fun h' => (h.takes c h').elim hown hfree
    exact k.frees c hown' (h.frees c hown hfree)
  takes c hown := by
    by_cases h' : own' = some c
    · exact h.takes c h'
    · have hfree := (k.takes c hown).resolve_left h'
      by_cases hown : own = some c
      · exact Or.inl hown
      · exact Or.inr (by_contra fun hn => h.frees c hown hn hfree)
  keeps := k.keeps
  leaves c htaken := by
    rcases k.leaves c htaken with h' | ⟨h', ht⟩
    · exact Or.inl h'
    · rcases h.leaves c ht with h'' | h''
      · exact absurd h'' h'
      · exact Or.inr h''

theorem Change.refl {own : Option κ} {s : σ} (h : ∀ c, own = some c → ¬ l.free s c) :
    l.Change own s s own where
  frees _ _ hn := hn
  takes _ hown := Or.inl hown
  keeps := h
  leaves c ht := by
    by_cases hown : own = some c
    · exact Or.inl hown
    · exact Or.inr ⟨hown, ht⟩

theorem path_change {a b : Option κ × σ}
    (h : (l.protocol : Protocol σ Q R ε _).Path a b)
    (ha : ∀ c, a.1 = some c → ¬ l.free a.2 c) : l.Change a.1 a.2 b.2 b.1 := by
  induction h with
  | refl => exact Change.refl ha
  | tail _ hstep ih => exact ih.trans hstep

/-! ## Pools -/

variable (l) in
/-- The key under which a coroutine waits. -/
def own (x : Coroutine σ Q R ε Unit) : Option κ := x.pending.bind l.holds

variable (l) in
/-- The number of coroutines that wait under a key. -/
def holders [DecidableEq κ] (p : Pool σ Q R ε) (c : κ) : Nat :=
  p.tasks.countP fun x => l.own x = some c

variable (l) in
/-- Everybody follows the protocol, a key has at most one holder, a free key none and a taken
one exactly one. -/
structure Sound [DecidableEq κ] (p : Pool σ Q R ε) : Prop where
  follows : ∀ x ∈ p.tasks, ∀ s, x.Follows l.protocol (l.own x) s
  atMostOne : ∀ c, l.holders p c ≤ 1
  free : ∀ c, l.free p.shared c → l.holders p c = 0
  taken : ∀ c, l.taken p.shared c → l.holders p c = 1

/-- A coroutine at a request follows the protocol under the key of the request. -/
theorem follows_parked {x : Coroutine σ Q R ε Unit} {g : Option κ} {s s' : σ}
    (h : (x.advance s).2.Follows l.protocol g s') :
    g = l.own (x.advance s).2 ∧ ∀ t, (x.advance s).2.Follows l.protocol g t := by
  induction x generalizing s with
  | done r => exact ⟨h, fun _ => h⟩
  | sync f k ih => exact ih s h
  | await q k ih => exact ⟨h.1.symm, fun _ => h⟩

/-- What one segment does, for a coroutine that holds `g` before it. -/
theorem segment {x : Coroutine σ Q R ε Unit} {g : Option κ} {s : σ}
    (hx : x.Follows l.protocol g s) (hg : ∀ c, g = some c → ¬ l.free s c) :
    l.Change g s (x.advance s).1 (l.own (x.advance s).2) ∧
      ∀ t, (x.advance s).2.Follows l.protocol (l.own (x.advance s).2) t := by
  obtain ⟨g', hpath, hrest⟩ := hx.advance
  obtain ⟨rfl, hall⟩ := follows_parked hrest
  exact ⟨path_change hpath hg, hall⟩

variable [DecidableEq κ]

/-- The counts after one coroutine went from holding `g` to holding `g'`. -/
theorem counts {c : κ} {n m : Nat} {g g' : Option κ} {s s' : σ} (hchange : l.Change g s s' g')
    (hm : m + (if g = some c then 1 else 0) = n + (if g' = some c then 1 else 0))
    (hpos : g = some c → 0 < n) (hone : n ≤ 1) (hfree : l.free s c → n = 0)
    (htaken : l.taken s c → n = 1) :
    m ≤ 1 ∧ (l.free s' c → m = 0) ∧ (l.taken s' c → m = 1) := by
  by_cases hg' : g' = some c
  · have hnot := hchange.keeps c hg'
    rw [if_pos hg'] at hm
    have hm1 : m = 1 := by
      rcases hchange.takes c hg' with hg | hf
      · have hn := hpos hg
        rw [if_pos hg] at hm
        omega
      · have hn := hfree hf
        have hg : g ≠ some c := fun h => by
          have := hpos h
          omega
        rw [if_neg hg] at hm
        omega
    exact ⟨hm1.le, fun h => absurd h hnot, fun _ => hm1⟩
  · rw [if_neg hg'] at hm
    by_cases hg : g = some c
    · rw [if_pos hg] at hm
      have hm0 : m = 0 := by omega
      refine ⟨by omega, fun _ => hm0, fun ht => ?_⟩
      rcases hchange.leaves c ht with h | ⟨h, -⟩
      · exact absurd h hg'
      · exact absurd hg h
    · rw [if_neg hg] at hm
      have hmn : m = n := by omega
      rw [hmn]
      refine ⟨hone, fun hf => ?_, fun ht => ?_⟩
      · by_contra hne
        exact hchange.frees c hg (fun h => hne (hfree h)) hf
      · rcases hchange.leaves c ht with h | ⟨-, h⟩
        · exact absurd h hg'
        · exact htaken h

theorem Sound.empty {s : σ} (hs : ∀ c, ¬ l.taken s c) : l.Sound (⟨s, []⟩ : Pool σ Q R ε) where
  follows x hx := by simp at hx
  atMostOne c := by simp [holders]
  free c _ := by simp [holders]
  taken c hc := absurd hc (hs c)

/-- **Exclusion.** Sound pools stay sound when every coroutine that starts follows the protocol
and nothing outside touches the keys. -/
theorem Sound.step {Starts : Coroutine σ Q R ε Unit → Prop} {Outside : σ → σ → Prop}
    (hstarts : ∀ x, Starts x → ∀ s, x.Follows l.protocol none s)
    (houtside : ∀ s s', Outside s s' → ∀ c, (l.free s' c → l.free s c) ∧
      (l.taken s' c → l.taken s c))
    {p p' : Pool σ Q R ε} {turn : Turn Q R ε} (hp : l.Sound p)
    (h : Pool.Step Starts Outside p turn p') : l.Sound p' := by
  cases h with
  | @start x hx =>
    obtain ⟨hchange, hrest⟩ := segment (hstarts x hx p.shared) (fun c hc => by cases hc)
    have hcount : ∀ c, l.holders ⟨(x.advance p.shared).1, p.tasks ++ [(x.advance p.shared).2]⟩ c
        = l.holders p c + (if l.own (x.advance p.shared).2 = some c then 1 else 0) := by
      intro c
      simp [holders, List.countP_append, List.countP_singleton]
    have hbalance : ∀ c, l.holders ⟨(x.advance p.shared).1,
          p.tasks ++ [(x.advance p.shared).2]⟩ c + (if (none : Option κ) = some c then 1 else 0)
        = l.holders p c + (if l.own (x.advance p.shared).2 = some c then 1 else 0) := by
      intro c
      rw [if_neg (by simp), Nat.add_zero]
      exact hcount c
    have hc := fun c => counts hchange (hbalance c) (fun h => by cases h)
      (hp.atMostOne c) (hp.free c) (hp.taken c)
    refine ⟨?_, fun c => (hc c).1, fun c => (hc c).2.1, fun c => (hc c).2.2⟩
    intro y hy
    rcases List.mem_append.mp hy with hy | hy
    · exact hp.follows y hy
    · rw [List.mem_singleton] at hy
      subst hy
      exact hrest
  | @answer i q k r hi =>
    have hmem := List.mem_of_getElem? hi
    have hfollows := hp.follows _ hmem
    have hown : l.own (.await q k : Coroutine σ Q R ε Unit) = l.holds q := rfl
    rw [hown] at hfollows
    have hpos : ∀ c, l.holds q = some c → 0 < l.holders p c := fun c hc =>
      List.countP_pos_iff.mpr ⟨_, hmem, by simp [hown, hc]⟩
    have hheld : ∀ c, l.holds q = some c → ¬ l.free p.shared c := by
      intro c hc hf
      have h0 := hp.free c hf
      have := hpos c hc
      omega
    obtain ⟨hchange, hrest⟩ :=
      segment ((hfollows p.shared).2 r p.shared hheld) hheld
    obtain ⟨hlt, hget⟩ := List.getElem?_eq_some_iff.mp hi
    have hcount : ∀ c, l.holders ⟨((k r).advance p.shared).1,
          p.tasks.set i ((k r).advance p.shared).2⟩ c
        + (if l.holds q = some c then 1 else 0)
        = l.holders p c + (if l.own ((k r).advance p.shared).2 = some c then 1 else 0) := by
      intro c
      have hset := List.countP_set (p := fun x => decide (l.own x = some c))
        (l := p.tasks) (a := ((k r).advance p.shared).2) hlt
      rw [hget, hown] at hset
      have hpos := hpos c
      simp only [decide_eq_true_eq] at hset
      simp only [holders] at hpos ⊢
      rw [hset]
      split
      · rename_i hc
        have := hpos hc
        omega
      · omega
    have hc := fun c => counts hchange (hcount c) (hpos c) (hp.atMostOne c) (hp.free c) (hp.taken c)
    refine ⟨?_, fun c => (hc c).1, fun c => (hc c).2.1, fun c => (hc c).2.2⟩
    intro y hy
    rcases List.mem_or_eq_of_mem_set hy with hy | rfl
    · exact hp.follows y hy
    · exact hrest
  | @outside s hs =>
    have hs := houtside _ _ hs
    exact ⟨hp.follows, hp.atMostOne, fun c hc => hp.free c ((hs c).1 hc),
      fun c hc => hp.taken c ((hs c).2 hc)⟩

end Lock

/-! ## Marks that stay -/

/-- Every change keeps `I`, as long as no answer outside `Expected` arrives. -/
def staying (I : σ → Prop) (Expected : (q : Q) → Except ε (R q) → σ → Prop) :
    Protocol σ Q R ε Unit where
  idle := ()
  change _ s s' _ := I s → I s'
  asks _ _ := True
  answers _ q r s := Expected q r s

variable {I : σ → Prop} {Expected : (q : Q) → Except ε (R q) → σ → Prop}

theorem staying_path {a b : Unit × σ} (h : (staying I Expected).Path a b) : I a.2 → I b.2 := by
  induction h with
  | refl => exact id
  | tail _ hstep ih => exact hstep ∘ ih

/-- Every coroutine of the pool keeps `I`. -/
def Pool.Stays (I : σ → Prop) (Expected : (q : Q) → Except ε (R q) → σ → Prop)
    (p : Pool σ Q R ε) : Prop :=
  ∀ x ∈ p.tasks, ∀ s, x.Follows (staying I Expected) () s

theorem stays_parked {x : Coroutine σ Q R ε Unit} {s s' : σ}
    (h : (x.advance s).2.Follows (staying I Expected) () s') (t : σ) :
    (x.advance s).2.Follows (staying I Expected) () t := by
  induction x generalizing s with
  | done r => exact h
  | sync f k ih => exact ih s h
  | await q k ih => exact h

/-- A turn brings only expected answers. -/
def Turn.Brings (Expected : (q : Q) → Except ε (R q) → σ → Prop) (s : σ) : Turn Q R ε → Prop
  | .answer _ q r => Expected q r s
  | _ => True

/-- **Absorption.** A turn without an unexpected answer keeps `I`. -/
theorem Pool.Stays.step {Starts : Coroutine σ Q R ε Unit → Prop} {Outside : σ → σ → Prop}
    (hstarts : ∀ x, Starts x → ∀ s, x.Follows (staying I Expected) () s)
    (houtside : ∀ s s', Outside s s' → I s → I s')
    {p p' : Pool σ Q R ε} {turn : Turn Q R ε} (hp : p.Stays I Expected)
    (hturn : turn.Brings Expected p.shared) (h : Pool.Step Starts Outside p turn p') :
    p'.Stays I Expected ∧ (I p.shared → I p'.shared) := by
  cases h with
  | @start x hx =>
    obtain ⟨⟨⟩, hpath, hrest⟩ := (hstarts x hx p.shared).advance
    refine ⟨?_, staying_path hpath⟩
    intro y hy
    rcases List.mem_append.mp hy with hy | hy
    · exact hp y hy
    · rw [List.mem_singleton] at hy
      subst hy
      exact stays_parked hrest
  | @answer i q k r hi =>
    have hk := (hp _ (List.mem_of_getElem? hi) p.shared).2 r p.shared hturn
    obtain ⟨⟨⟩, hpath, hrest⟩ := hk.advance
    refine ⟨?_, staying_path hpath⟩
    intro y hy
    rcases List.mem_or_eq_of_mem_set hy with hy | rfl
    · exact hp y hy
    · exact stays_parked hrest
  | @outside s hs => exact ⟨hp, houtside _ _ hs⟩

end Coroutine
