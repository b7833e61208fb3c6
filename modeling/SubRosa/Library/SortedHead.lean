import Mathlib.Data.List.Sort
import Mathlib.Order.Compare

/-!
# The head of a sorted list

Under a comparison that orders the members of a list, the first element of the
sorted list is the least member. So it does not depend on the order in which
the members are listed.
-/

namespace SortedHead

variable {α : Type} {le : α → α → Bool} {l l' : List α}

/-- `le` is a linear order on the members of `l`. -/
structure Orders (le : α → α → Bool) (l : List α) : Prop where
  total : ∀ a ∈ l, ∀ b ∈ l, le a b = true ∨ le b a = true
  trans : ∀ a ∈ l, ∀ b ∈ l, ∀ c ∈ l, le a b = true → le b c = true → le a c = true
  antisymm : ∀ a ∈ l, ∀ b ∈ l, le a b = true → le b a = true → a = b

theorem Orders.of_subset (h : Orders le l') (hsub : ∀ a ∈ l, a ∈ l') : Orders le l where
  total a ha b hb := h.total a (hsub a ha) b (hsub b hb)
  trans a ha b hb c hc := h.trans a (hsub a ha) b (hsub b hb) c (hsub c hc)
  antisymm a ha b hb := h.antisymm a (hsub a ha) b (hsub b hb)

/-- Sorting puts the members in order. -/
theorem Orders.pairwise (h : Orders le l) : (l.mergeSort le).Pairwise fun a b => le a b = true := by
  -- sort the members with their membership, where the order is one of a whole type
  have hmembers : (l.attach.mergeSort fun a b => le a.1 b.1).Pairwise
      fun a b => le a.1 b.1 = true :=
    List.pairwise_mergeSort (fun a b c => h.trans a.1 a.2 b.1 b.2 c.1 c.2)
      (fun a b => by simpa using h.total a.1 a.2 b.1 b.2) l.attach
  have hmap := List.map_mergeSort (f := Subtype.val) (l := l.attach) (s := le)
    (r := fun a b => le a.1 b.1) fun _ _ _ _ => rfl
  rw [List.attach_map_subtype_val] at hmap
  rw [← hmap]
  exact List.pairwise_map.mpr hmembers

/-- The first element after sorting is the least member. -/
theorem Orders.head?_eq_some (h : Orders le l) {a : α} :
    (l.mergeSort le).head? = some a ↔ a ∈ l ∧ ∀ b ∈ l, le a b = true := by
  have hrefl : ∀ b ∈ l, le b b = true := fun b hb => (h.total b hb b hb).elim id id
  constructor
  · intro hhead
    obtain ⟨rest, hrest⟩ : ∃ rest, l.mergeSort le = a :: rest := List.head?_eq_some_iff.mp hhead
    have hmem : ∀ b, b ∈ l ↔ b ∈ a :: rest := fun b => by rw [← hrest, List.mem_mergeSort]
    have hsorted := h.pairwise
    rw [hrest] at hsorted
    have hfirst := (List.pairwise_cons.mp hsorted).1
    have ha : a ∈ l := (hmem a).mpr (List.mem_cons_self)
    refine ⟨ha, fun b hb => ?_⟩
    rcases List.mem_cons.mp ((hmem b).mp hb) with rfl | hb
    · exact hrefl b ha
    · exact hfirst b hb
  · rintro ⟨ha, hleast⟩
    cases hhead : (l.mergeSort le).head? with
    | none =>
      have hnil : l.mergeSort le = [] := List.head?_eq_none_iff.mp hhead
      have hmem : a ∈ l.mergeSort le := List.mem_mergeSort.mpr ha
      rw [hnil] at hmem
      cases hmem
    | some b =>
      obtain ⟨rest, hrest⟩ : ∃ rest, l.mergeSort le = b :: rest := List.head?_eq_some_iff.mp hhead
      have hb : b ∈ l := by
        refine List.mem_mergeSort.mp (?_ : b ∈ l.mergeSort le)
        rw [hrest]
        exact List.mem_cons_self
      have hsorted := h.pairwise
      rw [hrest] at hsorted
      have hba : le b a = true := by
        have hmem : a ∈ b :: rest := by rw [← hrest, List.mem_mergeSort]; exact ha
        rcases List.mem_cons.mp hmem with rfl | hmem
        · exact hrefl a ha
        · exact (List.pairwise_cons.mp hsorted).1 a hmem
      rw [h.antisymm b hb a ha hba (hleast b hb)]

/-- Lists with the same members have the same least one. -/
theorem Orders.head?_congr (h : Orders le l) (hsame : ∀ a, a ∈ l ↔ a ∈ l') :
    (l'.mergeSort le).head? = (l.mergeSort le).head? := by
  have h' : Orders le l' := h.of_subset fun a ha => (hsame a).mpr ha
  ext a
  rw [h'.head?_eq_some, h.head?_eq_some, hsame]
  simp only [hsame]

/-! ## Comparators -/

/-- `cmp` compares the members of `l` consistently. -/
structure Compares (cmp : α → α → Ordering) (l : List α) : Prop where
  swap : ∀ a ∈ l, ∀ b ∈ l, cmp b a = (cmp a b).swap
  trans : ∀ a ∈ l, ∀ b ∈ l, ∀ c ∈ l, cmp a b ≠ .gt → cmp b c ≠ .gt → cmp a c ≠ .gt

/-- Members that compare equal to the ends compare equal in between. -/
theorem Compares.eq_of_eq {cmp : α → α → Ordering} (h : Compares cmp l) {a b c : α} (ha : a ∈ l)
    (hb : b ∈ l) (hc : c ∈ l) (hab : cmp a b ≠ .gt) (hbc : cmp b c ≠ .gt) (hac : cmp a c = .eq) :
    cmp a b = .eq ∧ cmp b c = .eq := by
  have hca : cmp c a ≠ .gt := by
    rw [h.swap a ha c hc, hac]
    decide
  have hba := h.trans b hb c hc a ha hbc hca
  have hcb := h.trans c hc a ha b hb hca hab
  rw [h.swap a ha b hb] at hba
  rw [h.swap b hb c hc] at hcb
  constructor
  · cases hcmp : cmp a b <;> simp_all
  · cases hcmp : cmp b c <;> simp_all

theorem then_ne_gt {o p : Ordering} : o.then p ≠ .gt ↔ o ≠ .gt ∧ (o = .eq → p ≠ .gt) := by
  cases o <;> simp [Ordering.then]

/-- One comparator, and another one where it finds no difference. -/
theorem Compares.then {cmp cmp' : α → α → Ordering} (h : Compares cmp l) (h' : Compares cmp' l) :
    Compares (fun a b => (cmp a b).then (cmp' a b)) l where
  swap a ha b hb := by
    rw [h.swap a ha b hb, h'.swap a ha b hb, Ordering.swap_then]
  trans a ha b hb c hc hab hbc := by
    rw [then_ne_gt] at hab hbc ⊢
    refine ⟨h.trans a ha b hb c hc hab.1 hbc.1, fun hac => ?_⟩
    obtain ⟨heq, heq'⟩ := h.eq_of_eq ha hb hc hab.1 hbc.1 hac
    exact h'.trans a ha b hb c hc (hab.2 heq) (hbc.2 heq')

theorem Compares.on {β : Type} {cmp : β → β → Ordering} {f : α → β} {names : List β}
    (h : Compares cmp names) (hf : ∀ a ∈ l, f a ∈ names) :
    Compares (fun a b => cmp (f a) (f b)) l where
  swap a ha b hb := h.swap _ (hf a ha) _ (hf b hb)
  trans a ha b hb c hc := h.trans _ (hf a ha) _ (hf b hb) _ (hf c hc)

theorem Compares.compare {β : Type} [LinearOrder β] (f : α → β) :
    Compares (fun a b => compare (f a) (f b)) l where
  swap a _ b _ := Std.OrientedCmp.eq_swap
  trans a _ b _ c _ := by
    simp only [ne_eq, compare_gt_iff_gt, not_lt]
    exact le_trans

/-- A comparator that tells the members apart orders them. -/
theorem Compares.orders {cmp : α → α → Ordering} (h : Compares cmp l)
    (heq : ∀ a ∈ l, ∀ b ∈ l, cmp a b = .eq → a = b) : Orders (fun a b => cmp a b ≠ .gt) l where
  total a ha b hb := by
    simp only [decide_eq_true_eq, h.swap a ha b hb]
    cases cmp a b <;> simp
  trans a ha b hb c hc := by
    simp only [decide_eq_true_eq]
    exact h.trans a ha b hb c hc
  antisymm a ha b hb hab hba := by
    refine heq a ha b hb ?_
    simp only [decide_eq_true_eq, h.swap a ha b hb] at hab hba
    cases hcmp : cmp a b <;> simp_all

end SortedHead
