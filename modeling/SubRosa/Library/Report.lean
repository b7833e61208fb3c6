import Mathlib.Tactic

/-!
# Checks that report issues

A check may throw, adds issues to a report, and finishes with a value or stops
early. A run is clean when it finishes and reports no bad issue; the lemmas
take a clean run apart, in both directions, along the check's own structure.
-/

/-- Thrown errors `ε`, issues `ι`; no value after an early stop. -/
def Report (ε ι α : Type) : Type := Except ε (List ι × Option α)

namespace Report

variable {ε ι α β σ : Type}

protected def pure (a : α) : Report ε ι α := .ok ([], some a)

protected def bind (x : Report ε ι α) (f : α → Report ε ι β) : Report ε ι β :=
  match x with
  | .error e => .error e
  | .ok (issues, none) => .ok (issues, none)
  | .ok (issues, some a) =>
    match f a with
    | .error e => .error e
    | .ok (more, b) => .ok (issues ++ more, b)

instance : Monad (Report ε ι) where
  pure := Report.pure
  bind := Report.bind

def add (i : ι) : Report ε ι Unit := .ok ([i], some ())

/-- Add the issue `i` when `c` holds. -/
def addIf (c : Prop) [Decidable c] (i : ι) : Report ε ι Unit := if c then add i else pure ()

def stop : Report ε ι α := .ok ([], none)

def lift (x : Except ε α) : Report ε ι α :=
  match x with
  | .error e => .error e
  | .ok a => .ok ([], some a)

variable (bad : ι → Prop)

/-- The check finishes with `a` and reports no bad issue. -/
def Clean (x : Report ε ι α) (a : α) : Prop :=
  ∃ issues, x = .ok (issues, some a) ∧ ∀ i ∈ issues, ¬ bad i

variable {bad}

@[simp] theorem clean_pure {a b : α} : Clean bad (pure a : Report ε ι α) b ↔ b = a := by
  constructor
  · rintro ⟨issues, h, -⟩
    cases h
    rfl
  · rintro rfl
    exact ⟨[], rfl, by simp⟩

@[simp] theorem clean_bind {x : Report ε ι α} {f : α → Report ε ι β} {b : β} :
    Clean bad (x >>= f) b ↔ ∃ a, Clean bad x a ∧ Clean bad (f a) b := by
  have hbind : x >>= f = Report.bind x f := rfl
  rw [hbind]
  rcases x with e | ⟨issues, _ | a⟩
  · constructor
    · rintro ⟨_, h, -⟩
      cases h
    · rintro ⟨a, ⟨_, h, -⟩, -⟩
      cases h
  · constructor
    · rintro ⟨_, h, -⟩
      cases h
    · rintro ⟨a, ⟨_, h, -⟩, -⟩
      cases h
  · have hstep : ∀ y, f a = y → Report.bind (.ok (issues, some a)) f = match y with
        | .error e => .error e
        | .ok (more, b) => .ok (issues ++ more, b) := by
      rintro y rfl
      rfl
    constructor
    · rintro ⟨all, h, hclean⟩
      rcases hf : f a with e | ⟨more, c⟩
      · rw [hstep _ hf] at h
        cases h
      · rw [hstep _ hf] at h
        cases h
        exact ⟨a, ⟨issues, rfl, fun i hi => hclean i (List.mem_append_left _ hi)⟩,
          ⟨more, hf, fun i hi => hclean i (List.mem_append_right _ hi)⟩⟩
    · rintro ⟨_, ⟨_, h, hclean⟩, ⟨more, hf, hmore⟩⟩
      cases h
      refine ⟨issues ++ more, hstep _ hf, fun i hi => ?_⟩
      rcases List.mem_append.mp hi with hi | hi
      · exact hclean i hi
      · exact hmore i hi

@[simp] theorem clean_add {i : ι} {u : Unit} :
    Clean bad (add i : Report ε ι Unit) u ↔ ¬ bad i := by
  constructor
  · rintro ⟨_, h, hclean⟩
    cases h
    exact hclean i (by simp)
  · intro h
    exact ⟨[i], rfl, by simpa using h⟩

@[simp] theorem clean_addIf {c : Prop} [Decidable c] {i : ι} {u : Unit} :
    Clean bad (addIf c i : Report ε ι Unit) u ↔ (c → ¬ bad i) := by
  unfold addIf
  split
  · next h => rw [clean_add]; exact ⟨fun hi _ => hi, fun hi => hi h⟩
  · next h => rw [clean_pure]; exact ⟨fun _ hc => absurd hc h, fun _ => rfl⟩

@[simp] theorem clean_stop {a : α} : ¬ Clean bad (stop : Report ε ι α) a := by
  rintro ⟨_, h, -⟩
  cases h

@[simp] theorem clean_lift {x : Except ε α} {a : α} :
    Clean bad (lift x : Report ε ι α) a ↔ x = .ok a := by
  cases x with
  | error e =>
    constructor
    · rintro ⟨_, h, -⟩
      cases h
    · intro h
      cases h
  | ok b =>
    constructor
    · rintro ⟨_, h, -⟩
      cases h
      rfl
    · intro h
      cases h
      exact ⟨[], rfl, by simp⟩

theorem clean_ite {c : Prop} [Decidable c] {x y : Report ε ι α} {a : α} :
    Clean bad (if c then x else y) a ↔ (c → Clean bad x a) ∧ (¬ c → Clean bad y a) := by
  split
  · next h => exact ⟨fun hx => ⟨fun _ => hx, fun hn => absurd h hn⟩, fun hx => hx.1 h⟩
  · next h => exact ⟨fun hy => ⟨fun hc => absurd hc h, fun _ => hy⟩, fun hy => hy.2 h⟩

/-! ## Loops -/

theorem clean_forM {l : List α} {f : α → Report ε ι Unit} {u : Unit} :
    Clean bad (forM l f) u ↔ ∀ a ∈ l, Clean bad (f a) () := by
  induction l with
  | nil =>
    rw [List.forM_nil, clean_pure]
    simp
  | cons a l ih =>
    rw [List.forM_cons, clean_bind, List.forall_mem_cons]
    constructor
    · rintro ⟨⟨⟩, ha, hl⟩
      exact ⟨ha, ih.mp hl⟩
    · rintro ⟨ha, hl⟩
      exact ⟨(), ha, ih.mpr hl⟩

/-- A loop whose step is clean on `P`, and there computes `g`. -/
theorem clean_foldlM {f : σ → α → Report ε ι σ} {P : α → Prop} {g : σ → α → σ}
    {l : List α} (hstep : ∀ a ∈ l, ∀ s t, Clean bad (f s a) t ↔ P a ∧ t = g s a) {s t : σ} :
    Clean bad (l.foldlM f s) t ↔ (∀ a ∈ l, P a) ∧ t = l.foldl g s := by
  induction l generalizing s with
  | nil =>
    rw [List.foldlM_nil, clean_pure]
    simp
  | cons a l ih =>
    have hl : ∀ b ∈ l, ∀ s t, Clean bad (f s b) t ↔ P b ∧ t = g s b :=
      fun b hb => hstep b (List.mem_cons_of_mem a hb)
    rw [List.foldlM_cons, clean_bind, List.forall_mem_cons, List.foldl_cons]
    constructor
    · rintro ⟨s', hs, ht⟩
      obtain ⟨ha, rfl⟩ := (hstep a (by simp) _ _).mp hs
      obtain ⟨hall, rfl⟩ := (ih hl).mp ht
      exact ⟨⟨ha, hall⟩, rfl⟩
    · rintro ⟨⟨ha, hall⟩, rfl⟩
      exact ⟨g s a, (hstep a (by simp) _ _).mpr ⟨ha, rfl⟩, (ih hl).mpr ⟨hall, rfl⟩⟩

/-- A loop invariant, over the steps that are clean. -/
theorem Clean.foldlM_induction {f : σ → α → Report ε ι σ} (Inv : σ → Prop) {l : List α}
    (hstep : ∀ a ∈ l, ∀ s t, Inv s → Clean bad (f s a) t → Inv t) {s t : σ} (hs : Inv s)
    (h : Clean bad (l.foldlM f s) t) : Inv t := by
  induction l generalizing s with
  | nil =>
    rw [List.foldlM_nil, clean_pure] at h
    rw [h]
    exact hs
  | cons a l ih =>
    rw [List.foldlM_cons, clean_bind] at h
    obtain ⟨s', ha, hl⟩ := h
    exact ih (fun b hb => hstep b (List.mem_cons_of_mem a hb)) (hstep a (by simp) s s' hs ha) hl

/-- A loop whose step gets through on `P`, from wherever it starts. -/
theorem exists_clean_foldlM {f : σ → α → Report ε ι σ} {P : α → Prop} {l : List α}
    (hstep : ∀ a ∈ l, ∀ s, (∃ t, Clean bad (f s a) t) ↔ P a) {s : σ} :
    (∃ t, Clean bad (l.foldlM f s) t) ↔ ∀ a ∈ l, P a := by
  induction l generalizing s with
  | nil =>
    simp only [List.foldlM_nil, clean_pure]
    exact ⟨fun _ => by simp, fun _ => ⟨s, rfl⟩⟩
  | cons a l ih =>
    have hl : ∀ b ∈ l, ∀ s, (∃ t, Clean bad (f s b) t) ↔ P b :=
      fun b hb => hstep b (List.mem_cons_of_mem a hb)
    simp only [List.foldlM_cons, clean_bind, List.forall_mem_cons]
    constructor
    · rintro ⟨t, s', ha, hrest⟩
      exact ⟨(hstep a (by simp) s).mp ⟨s', ha⟩, (ih hl).mp ⟨t, hrest⟩⟩
    · rintro ⟨ha, hall⟩
      obtain ⟨s', hs'⟩ := (hstep a (by simp) s).mpr ha
      obtain ⟨t, ht⟩ := (ih hl (s := s')).mpr hall
      exact ⟨t, s', hs', ht⟩

/-! ## Checks that do not throw -/

/-- The check finishes with `a`, whatever it reports. -/
abbrev Finishes (x : Report ε ι α) (a : α) : Prop := Clean (fun _ => False) x a

/-- The check does not throw. -/
def Returns (x : Report ε ι α) : Prop := ∃ p, x = .ok p

/-- The check stops early. -/
def Stops (x : Report ε ι α) : Prop := ∃ issues, x = .ok (issues, none)

@[simp] theorem stops_pure (a : α) : ¬ Stops (pure a : Report ε ι α) := by
  rintro ⟨_, ⟨⟩⟩

@[simp] theorem stops_add (i : ι) : ¬ Stops (add i : Report ε ι Unit) := by
  rintro ⟨_, ⟨⟩⟩

@[simp] theorem stops_lift (x : Except ε α) : ¬ Stops (lift x : Report ε ι α) := by
  cases x <;> rintro ⟨_, ⟨⟩⟩

theorem stops_ite {c : Prop} [Decidable c] {x y : Report ε ι α} :
    Stops (if c then x else y) ↔ c ∧ Stops x ∨ ¬ c ∧ Stops y := by
  split
  · next h => simp [h]
  · next h => simp [h]

@[simp] theorem stops_addIf {c : Prop} [Decidable c] (i : ι) :
    ¬ Stops (addIf c i : Report ε ι Unit) := by
  simp [addIf, stops_ite]

@[simp] theorem stops_bind {x : Report ε ι α} {f : α → Report ε ι β} :
    Stops (x >>= f) ↔ Stops x ∨ ∃ a, Finishes x a ∧ Stops (f a) := by
  have hbind : x >>= f = Report.bind x f := rfl
  rw [hbind]
  constructor
  · rintro ⟨issues, h⟩
    rcases x with e | ⟨first, _ | a⟩
    · cases h
    · exact .inl ⟨first, rfl⟩
    · rcases hf : f a with e | ⟨more, _ | b⟩
      · rw [Report.bind, hf] at h
        cases h
      · exact .inr ⟨a, ⟨first, rfl, by simp⟩, more, hf⟩
      · rw [Report.bind, hf] at h
        cases h
  · rintro (⟨issues, rfl⟩ | ⟨a, ⟨first, rfl, -⟩, more, hf⟩)
    · exact ⟨issues, rfl⟩
    · exact ⟨first ++ more, by rw [Report.bind, hf]⟩

theorem stops_forM {l : List α} {f : α → Report ε ι Unit} (hf : ∀ a ∈ l, ¬ Stops (f a)) :
    ¬ Stops (forM l f) := by
  induction l with
  | nil => exact stops_pure ()
  | cons a l ih =>
    rw [List.forall_mem_cons] at hf
    rw [List.forM_cons, stops_bind]
    rintro (h | ⟨_, -, h⟩)
    · exact hf.1 h
    · exact ih hf.2 h

theorem stops_foldlM {f : σ → α → Report ε ι σ} {l : List α}
    (hf : ∀ a ∈ l, ∀ s, ¬ Stops (f s a)) {s : σ} : ¬ Stops (l.foldlM f s) := by
  induction l generalizing s with
  | nil => exact stops_pure s
  | cons a l ih =>
    rw [List.forall_mem_cons] at hf
    rw [List.foldlM_cons, stops_bind]
    rintro (h | ⟨_, -, h⟩)
    · exact hf.1 s h
    · exact ih hf.2 h

@[simp] theorem returns_stop : Returns (stop : Report ε ι α) := ⟨_, rfl⟩

/-- A section without an early stop has to finish, and the rest to return. -/
theorem returns_bind {x : Report ε ι α} (hx : ¬ Stops x) {f : α → Report ε ι β} :
    Returns (x >>= f) ↔ ∃ a, Finishes x a ∧ Returns (f a) := by
  have hbind : x >>= f = Report.bind x f := rfl
  rw [hbind]
  constructor
  · rintro ⟨p, h⟩
    rcases x with e | ⟨issues, _ | a⟩
    · cases h
    · exact absurd ⟨issues, rfl⟩ hx
    · refine ⟨a, ⟨issues, rfl, by simp⟩, ?_⟩
      rcases hf : f a with e | q
      · rw [Report.bind, hf] at h
        cases h
      · exact ⟨q, rfl⟩
  · rintro ⟨a, ⟨issues, rfl, -⟩, ⟨more, b⟩, hf⟩
    exact ⟨(issues ++ more, b), by rw [Report.bind, hf]⟩

theorem returns_then {x : Report ε ι Unit} (hx : ¬ Stops x) {f : Unit → Report ε ι β} :
    Returns (x >>= f) ↔ Finishes x () ∧ Returns (f ()) :=
  (returns_bind hx).trans ⟨fun ⟨_, h⟩ => h, fun h => ⟨(), h⟩⟩

end Report
