import Mathlib.Tactic

/-!
# The first best element of a list

A single pass that keeps the first candidate and replaces it only by a
strictly better one ends with the best candidate, and among equally good ones
with the first in list order. `r u v` reads "`u` is better than `v`"; elements
without a value are no candidates.
-/

namespace FirstBest

variable {α β : Type}

/-- Keep the best so far, or move to the candidate `a` with value `v`. -/
def keep (r : β → β → Prop) [DecidableRel r] (best : Option (α × β)) (a : α) (v : β) :
    Option (α × β) :=
  match best with
  | none => some (a, v)
  | some (w, b) => if r v b then some (a, v) else some (w, b)

def visit (r : β → β → Prop) [DecidableRel r] (value : α → Option β) (best : Option (α × β))
    (a : α) : Option (α × β) :=
  match value a with
  | none => best
  | some v => keep r best a v

/-- The whole pass. -/
def scan (r : β → β → Prop) [DecidableRel r] (value : α → Option β) (l : List α) :
    Option (α × β) :=
  l.foldl (visit r value) none

/-- `a` has value `v`, everything before it is worse and nothing after it is better. -/
def IsFirstBest (r : β → β → Prop) (value : α → Option β) (l : List α) (a : α) (v : β) : Prop :=
  value a = some v ∧ ∃ pre post, l = pre ++ a :: post ∧
    (∀ x ∈ pre, ∀ u, value x = some u → r v u) ∧ (∀ x ∈ post, ∀ u, value x = some u → ¬ r u v)

variable {r : β → β → Prop}

section Facts

variable {value : α → Option β} {l : List α} {a : α} {v : β}

theorem IsFirstBest.mem (h : IsFirstBest r value l a v) : a ∈ l := by
  obtain ⟨-, pre, post, rfl, -, -⟩ := h
  simp

theorem IsFirstBest.append_worse (h : IsFirstBest r value l a v) {x : α}
    (hx : ∀ u, value x = some u → ¬ r u v) : IsFirstBest r value (l ++ [x]) a v := by
  obtain ⟨ha, pre, post, rfl, hpre, hpost⟩ := h
  refine ⟨ha, pre, post ++ [x], by simp, hpre, ?_⟩
  intro y hy
  rcases List.mem_append.mp hy with hy | hy
  · exact hpost y hy
  · rw [List.mem_singleton] at hy
    subst hy
    exact hx

/-- Nothing in the list is better. -/
theorem IsFirstBest.best [IsStrictTotalOrder β r] (h : IsFirstBest r value l a v)
    {x : α} (hx : x ∈ l) {u : β} (hu : value x = some u) : ¬ r u v := by
  obtain ⟨ha, pre, post, rfl, hpre, hpost⟩ := h
  rcases List.mem_append.mp hx with hx | hx
  · exact fun hr => irrefl_of r u (trans_of r hr (hpre x hx u hu))
  · rcases List.mem_cons.mp hx with rfl | hx
    · rw [ha, Option.some_inj] at hu
      subst hu
      exact irrefl_of r v
    · exact hpost x hx u hu

/-- Nothing as good comes before. -/
theorem IsFirstBest.first [DecidableEq α] (h : IsFirstBest r value l a v)
    {x : α} (hx : x ∈ l) {u : β} (hu : value x = some u) (hr : ¬ r v u) :
    l.idxOf a ≤ l.idxOf x := by
  obtain ⟨-, pre, post, rfl, hpre, -⟩ := h
  have hxpre : x ∉ pre := fun hm => hr (hpre x hm u hu)
  have ha : (pre ++ a :: post).idxOf a ≤ pre.length := by
    by_cases hm : a ∈ pre
    · rw [List.idxOf_append_of_mem hm]
      exact List.idxOf_le_length
    · rw [List.idxOf_append_of_notMem hm]
      simp
  rw [List.idxOf_append_of_notMem hxpre]
  omega

/-- In a list without repetition there is one place where the element stands. -/
theorem IsFirstBest.around (h : IsFirstBest r value l a v) (hl : l.Nodup) {pre post : List α}
    (hsplit : l = pre ++ a :: post) :
    (∀ x ∈ pre, ∀ u, value x = some u → r v u) ∧ ∀ x ∈ post, ∀ u, value x = some u → ¬ r u v := by
  obtain ⟨-, pre', post', hsplit', hpre, hpost⟩ := h
  have hpre' : a ∉ pre' := fun hmem => by
    rw [hsplit'] at hl
    exact (List.nodup_append.mp hl).2.2 a hmem a List.mem_cons_self rfl
  have hpost' : a ∉ post' := fun hmem => by
    rw [hsplit'] at hl
    exact (List.nodup_cons.mp (List.nodup_append.mp hl).2.1).1 hmem
  obtain ⟨rfl, -, rfl⟩ :=
    (List.append_cons_inj_of_notMem hpre' hpost').mp (hsplit'.symm.trans hsplit)
  exact ⟨hpre, hpost⟩

/-- A strictly better candidate appended to the list takes over. -/
theorem IsFirstBest.append_better [IsStrictTotalOrder β r] (h : IsFirstBest r value l a v)
    {x : α} {u : β} (hu : value x = some u) (hr : r u v) :
    IsFirstBest r value (l ++ [x]) x u := by
  refine ⟨hu, l, [], rfl, ?_, by simp⟩
  intro y hy w hw
  have hbest := h.best hy hw
  by_cases hvw : r v w
  · exact trans_of r hr hvw
  · have heq : v = w := Std.Trichotomous.trichotomous v w hvw hbest
    rwa [← heq]

end Facts

variable [DecidableRel r]

theorem scan_append_singleton (value : α → Option β) (l : List α) (x : α) :
    scan r value (l ++ [x]) = visit r value (scan r value l) x := by
  simp [scan, List.foldl_append]

/-- **What the pass computes.** -/
theorem scan_spec [IsStrictTotalOrder β r] (value : α → Option β) (l : List α) :
    match scan r value l with
    | none => ∀ x ∈ l, value x = none
    | some (a, v) => IsFirstBest r value l a v := by
  induction l using List.reverseRecOn with
  | nil => simp [scan]
  | append_singleton l x ih =>
    rw [scan_append_singleton]
    cases hs : scan r value l with
    | none =>
      rw [hs] at ih
      cases hx : value x with
      | none =>
        simp only [visit, hx]
        intro y hy
        rcases List.mem_append.mp hy with hy | hy
        · exact ih y hy
        · rw [List.mem_singleton.mp hy, hx]
      | some u =>
        simp only [visit, hx, keep]
        refine ⟨hx, l, [], rfl, ?_, by simp⟩
        intro y hy w hw
        rw [ih y hy] at hw
        cases hw
    | some p =>
      obtain ⟨a, v⟩ := p
      rw [hs] at ih
      cases hx : value x with
      | none =>
        simp only [visit, hx]
        exact ih.append_worse fun u hu => by rw [hx] at hu; cases hu
      | some u =>
        by_cases hr : r u v
        · simp only [visit, hx, keep, if_pos hr]
          exact ih.append_better hx hr
        · simp only [visit, hx, keep, if_neg hr]
          exact ih.append_worse fun w hw => by rw [hx, Option.some_inj] at hw; rwa [← hw]

theorem scan_eq_none [IsStrictTotalOrder β r] {value : α → Option β} {l : List α} :
    scan r value l = none ↔ ∀ x ∈ l, value x = none := by
  have hspec := scan_spec (r := r) value l
  constructor
  · intro h
    rwa [h] at hspec
  · intro h
    cases hs : scan r value l with
    | none => rfl
    | some p =>
      rw [hs] at hspec
      have hnone := h p.1 hspec.mem
      rw [hspec.1] at hnone
      cases hnone

theorem scan_eq_some [IsStrictTotalOrder β r] {value : α → Option β} {l : List α} {a : α} {v : β}
    (h : scan r value l = some (a, v)) : IsFirstBest r value l a v := by
  have hspec := scan_spec (r := r) value l
  rwa [h] at hspec

/-- Nothing behind the best element moves the pass on. -/
theorem foldl_visit_worse {value : α → Option β} {a : α} {v : β} {post : List α}
    (h : ∀ x ∈ post, ∀ u, value x = some u → ¬ r u v) :
    post.foldl (visit r value) (some (a, v)) = some (a, v) := by
  induction post with
  | nil => rfl
  | cons x post ih =>
    have hstep : visit r value (some (a, v)) x = some (a, v) := by
      unfold visit
      cases hx : value x with
      | none => rfl
      | some u =>
        show (if r u v then some (x, u) else some (a, v)) = some (a, v)
        rw [if_neg (h x (by simp) u hx)]
    rw [List.foldl_cons, hstep]
    exact ih fun y hy => h y (List.mem_cons_of_mem x hy)

/-- The first best element is what the pass computes. -/
theorem IsFirstBest.scan_eq [IsStrictTotalOrder β r] {value : α → Option β} {l : List α} {a : α}
    {v : β} (h : IsFirstBest r value l a v) : scan r value l = some (a, v) := by
  obtain ⟨ha, pre, post, rfl, hpre, hpost⟩ := h
  have hstep : visit r value (scan r value pre) a = some (a, v) := by
    cases hs : scan r value pre with
    | none => simp [visit, ha, keep]
    | some p =>
      obtain ⟨b, u⟩ := p
      have hb := scan_eq_some hs
      simp [visit, ha, keep, hpre b hb.mem u hb.1]
  have happend : scan r value (pre ++ a :: post) =
      post.foldl (visit r value) (visit r value (scan r value pre) a) := by
    rw [scan, List.foldl_append, List.foldl_cons]
    rfl
  rw [happend, hstep]
  exact foldl_visit_worse hpost

section Restrict

variable [IsStrictTotalOrder β r] {value : α → Option β} {flag : α → Bool} {l : List α}

/-- The values of the flagged elements. -/
def restrict (flag : α → Bool) (value : α → Option β) (a : α) : Option β :=
  if flag a = true then value a else none

theorem restrict_eq_some {a : α} {v : β} :
    restrict flag value a = some v ↔ flag a = true ∧ value a = some v := by
  unfold restrict
  split
  · next h => exact ⟨fun hv => ⟨h, hv⟩, fun hv => hv.2⟩
  · next h => exact ⟨nofun, fun hv => absurd hv.1 h⟩

/-- Every element without the flag is behind one with it: a better one, or one as good and
earlier. -/
def Covered (r : β → β → Prop) (value : α → Option β) (flag : α → Bool) (l : List α) : Prop :=
  ∀ pre x post, l = pre ++ x :: post → flag x = false → ∀ u, value x = some u →
    (∃ y ∈ pre, flag y = true ∧ ∃ w, value y = some w ∧ ¬ r u w) ∨
    ∃ y ∈ post, flag y = true ∧ ∃ w, value y = some w ∧ r w u

theorem not_worse {u v : β} (h : ¬ r u v) : u = v ∨ r v u := by
  by_cases hr : r v u
  · exact .inr hr
  · exact .inl (Std.Trichotomous.trichotomous u v h hr)

/-- An element before the first best flagged one is worse, when it is covered. -/
theorem Covered.worse {a : α} {v : β} (hc : Covered r value flag l)
    (hbest : IsFirstBest r (restrict flag value) l a v) {pre post : List α}
    (hl : l = pre ++ a :: post)
    (hpre : ∀ x ∈ pre, ∀ u, restrict flag value x = some u → r v u) {x : α} (hx : x ∈ pre) {u : β}
    (hu : value x = some u) : r v u := by
  by_cases hflag : flag x = true
  · exact hpre x hx u (restrict_eq_some.mpr ⟨hflag, hu⟩)
  · obtain ⟨pre', post', rfl⟩ := List.append_of_mem hx
    have hsplit : l = pre' ++ x :: (post' ++ a :: post) := by rw [hl]; simp
    rcases hc pre' x _ hsplit (by simpa using hflag) u hu with
      ⟨y, hy, hfy, w, hw, hnot⟩ | ⟨y, hy, hfy, w, hw, hbetter⟩
    · have hvw := hpre y (by simp [hy]) w (restrict_eq_some.mpr ⟨hfy, hw⟩)
      rcases not_worse hnot with rfl | hwu
      · exact hvw
      · exact trans_of r hvw hwu
    · have hyl : y ∈ l := hsplit ▸ List.mem_append_right pre' (List.mem_cons_of_mem x hy)
      have hnot := hbest.best hyl (restrict_eq_some.mpr ⟨hfy, hw⟩)
      rcases not_worse hnot with rfl | hvw
      · exact hbetter
      · exact trans_of r hvw hbetter

/-- Nothing is better than the first best flagged element, when all is covered. -/
theorem Covered.best {a : α} {v : β} (hc : Covered r value flag l)
    (hbest : IsFirstBest r (restrict flag value) l a v) {x : α} (hx : x ∈ l) {u : β}
    (hu : value x = some u) : ¬ r u v := by
  have hflagged : ∀ y ∈ l, flag y = true → ∀ w, value y = some w → ¬ r w v :=
    fun y hy hf w hw => hbest.best hy (restrict_eq_some.mpr ⟨hf, hw⟩)
  by_cases hflag : flag x = true
  · exact hflagged x hx hflag u hu
  · intro huv
    obtain ⟨pre, post, rfl⟩ := List.append_of_mem hx
    rcases hc pre x post rfl (by simpa using hflag) u hu with
      ⟨y, hy, hfy, w, hw, hnot⟩ | ⟨y, hy, hfy, w, hw, hbetter⟩
    · rcases not_worse hnot with rfl | hwu
      · exact hflagged y (by simp [hy]) hfy _ hw huv
      · exact hflagged y (by simp [hy]) hfy w hw (trans_of r hwu huv)
    · exact hflagged y (by simp [hy]) hfy w hw (trans_of r hbetter huv)

/-- A pass over the flagged elements alone finds the first best of all exactly when they cover the
others. -/
theorem scan_restrict_eq_iff :
    scan r value l = scan r (restrict flag value) l ↔ Covered r value flag l := by
  constructor
  · intro heq pre x post hl hflag u hu
    cases hs : scan r value l with
    | none =>
      have hnone := scan_eq_none.mp hs x (by simp [hl])
      rw [hu] at hnone
      cases hnone
    | some p =>
      obtain ⟨a, v⟩ := p
      obtain ⟨ha, pre', post', hl', hpre, hpost⟩ := scan_eq_some hs
      rw [hs] at heq
      obtain ⟨hfa, -⟩ := restrict_eq_some.mp (scan_eq_some heq.symm).1
      rcases List.append_eq_append_iff.mp (hl.symm.trans hl') with
        ⟨mid, hmid, hrest⟩ | ⟨mid, hmid, hrest⟩
      · cases mid with
        | nil =>
          rw [List.nil_append, List.cons.injEq] at hrest
          rw [hrest.1, hfa] at hflag
          cases hflag
        | cons y mid =>
          rw [List.cons_append, List.cons.injEq] at hrest
          obtain ⟨rfl, hpost'⟩ := hrest
          have hmem : x ∈ pre' := by simp [hmid]
          exact .inr ⟨a, by simp [hpost'], hfa, v, ha, hpre x hmem u hu⟩
      · cases mid with
        | nil =>
          rw [List.nil_append, List.cons.injEq] at hrest
          rw [← hrest.1, hfa] at hflag
          cases hflag
        | cons y mid =>
          rw [List.cons_append, List.cons.injEq] at hrest
          obtain ⟨rfl, hpost'⟩ := hrest
          have hmem : x ∈ post' := by simp [hpost']
          exact .inl ⟨a, by simp [hmid], hfa, v, ha, hpost x hmem u hu⟩
  · intro hc
    cases hs : scan r (restrict flag value) l with
    | none =>
      apply scan_eq_none.mpr
      intro x hx
      cases hu : value x with
      | none => rfl
      | some u =>
        have hno : ∀ y ∈ l, flag y = true → ∀ w, value y ≠ some w := by
          intro y hy hf w hw
          have hnone := scan_eq_none.mp hs y hy
          rw [restrict_eq_some.mpr ⟨hf, hw⟩] at hnone
          cases hnone
        by_cases hflag : flag x = true
        · exact absurd hu (hno x hx hflag u)
        · obtain ⟨pre, post, rfl⟩ := List.append_of_mem hx
          rcases hc pre x post rfl (by simpa using hflag) u hu with
            ⟨y, hy, hfy, w, hw, -⟩ | ⟨y, hy, hfy, w, hw, -⟩
          · exact absurd hw (hno y (by simp [hy]) hfy w)
          · exact absurd hw (hno y (by simp [hy]) hfy w)
    | some p =>
      obtain ⟨a, v⟩ := p
      have hbest := scan_eq_some hs
      obtain ⟨ha, pre, post, hl, hpre, -⟩ := id hbest
      refine IsFirstBest.scan_eq ⟨(restrict_eq_some.mp ha).2, pre, post, hl,
        fun x hx u hu => hc.worse hbest hl hpre hx hu, fun x hx u hu => ?_⟩
      exact hc.best hbest (by simp [hl, hx]) hu

end Restrict

/-- The pass over values that `g` carries to comparable values elsewhere. -/
theorem scan_map {γ : Type} {q : γ → γ → Prop} [DecidableRel q] {g : β → γ}
    (hg : ∀ u v, r u v ↔ q (g u) (g v)) (value : α → Option β) (l : List α) :
    scan q (fun x => (value x).map g) l = (scan r value l).map fun p => (p.1, g p.2) := by
  induction l using List.reverseRecOn with
  | nil => rfl
  | append_singleton l x ih =>
    rw [scan_append_singleton, scan_append_singleton, ih, visit, visit]
    cases value x with
    | none => rfl
    | some v =>
      cases scan r value l with
      | none => rfl
      | some p =>
        by_cases hr : r v p.2
        · simp [keep, hr, (hg v p.2).mp hr]
        · simp [keep, hr, mt (hg v p.2).mpr hr]

/-- A pass over renamed elements. -/
theorem scan_rename {γ : Type} (f : γ → α) (value : α → Option β) (l : List γ) :
    scan r value (l.map f) = (scan r (value ∘ f) l).map fun p => (f p.1, p.2) := by
  induction l using List.reverseRecOn with
  | nil => rfl
  | append_singleton l x ih =>
    rw [List.map_append, List.map_singleton, scan_append_singleton, scan_append_singleton, ih,
      visit, visit]
    cases hx : value (f x) with
    | none => rw [Function.comp_apply, hx]
    | some v =>
      rw [Function.comp_apply, hx]
      cases scan r (value ∘ f) l with
      | none => rfl
      | some p =>
        show (if r v p.2 then some (f x, v) else some (f p.1, p.2)) =
          (if r v p.2 then some (x, v) else some (p.1, p.2)).map fun p => (f p.1, p.2)
        split <;> rfl

/-- The pass looks only at the values of the elements of the list. -/
theorem scan_congr {value value' : α → Option β} {l : List α}
    (h : ∀ x ∈ l, value x = value' x) : scan r value l = scan r value' l := by
  induction l using List.reverseRecOn with
  | nil => rfl
  | append_singleton l x ih =>
    rw [scan_append_singleton, scan_append_singleton,
      ih fun y hy => h y (List.mem_append_left _ hy), visit, visit, h x (by simp)]

end FirstBest
