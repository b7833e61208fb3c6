import Mathlib.Tactic

/-!
# Reading a growing list page by page

A page shows a part of a list from a cursor on and the cursor of the next page;
the cursor 0 stands for the start and, as an answer, for the end. Between two
pages the list may grow at its end.
-/

namespace Paging

variable {α : Type}

structure Page (α : Type) where
  data : List α
  next : Nat

/-- The page of at most `limit` entries from `cursor` on. -/
def page (limit : Nat) (l : List α) (cursor : Nat) : Page α :=
  let start := min cursor l.length
  let stop := min (start + limit) l.length
  ⟨(l.drop start).take (stop - start), if stop < l.length then stop else 0⟩

/-- Pages of lists, each read from the cursor that the page before it gave, up to the last page,
and what they show together. -/
inductive Reading (limit : Nat) : Nat → List (List α) → List α → Prop
  | last {cursor : Nat} {l : List α} : (page limit l cursor).next = 0 →
      Reading limit cursor [l] (page limit l cursor).data
  | more {cursor : Nat} {l : List α} {ls : List (List α)} {out : List α} :
      (page limit l cursor).next ≠ 0 → Reading limit (page limit l cursor).next ls out →
      Reading limit cursor (l :: ls) ((page limit l cursor).data ++ out)

variable {limit cursor : Nat} {l : List α}

/-- A page that is not the last is full. -/
theorem page_more (h : cursor + limit < l.length) :
    page limit l cursor = ⟨(l.drop cursor).take limit, cursor + limit⟩ := by
  have hstart : min cursor l.length = cursor := by omega
  have hstop : min (cursor + limit) l.length = cursor + limit := by omega
  simp only [page, hstart, hstop, if_pos h, Nat.add_sub_cancel_left]

/-- The last page shows all the rest. -/
theorem page_last (h : l.length ≤ cursor + limit) :
    page limit l cursor = ⟨l.drop cursor, 0⟩ := by
  have hstop : min (min cursor l.length + limit) l.length = l.length := by omega
  simp only [page, hstop, if_neg (lt_irrefl _), Page.mk.injEq, and_true]
  rw [List.take_of_length_le (by simp)]
  rcases le_total cursor l.length with hle | hle
  · rw [min_eq_left hle]
  · rw [min_eq_right hle, List.drop_eq_nil_of_le le_rfl, List.drop_eq_nil_of_le hle]

theorem page_next_eq_zero (hlimit : 0 < limit) :
    (page limit l cursor).next = 0 ↔ l.length ≤ cursor + limit := by
  rcases le_or_gt l.length (cursor + limit) with h | h
  · simp [page_last h, h]
  · rw [page_more h]
    show cursor + limit = 0 ↔ _
    omega

/-- A page of a list and the rest of a longer one. -/
theorem take_append_drop_of_prefix {final : List α} (h : l <+: final)
    (hle : cursor + limit ≤ l.length) :
    (l.drop cursor).take limit ++ final.drop (cursor + limit) = final.drop cursor := by
  obtain ⟨suffix, rfl⟩ := h
  rw [← List.drop_drop, List.drop_append_of_le_length (by omega)]
  have htake : (l.drop cursor ++ suffix).take limit = (l.drop cursor).take limit :=
    List.take_append_of_le_length (by simp; omega)
  rw [← htake, List.take_append_drop]

/-- **A reading loses and repeats nothing.** It shows the last list from its cursor on. -/
theorem Reading.shows {ls : List (List α)} {out : List α} (h : Reading limit cursor ls out)
    (hlimit : 0 < limit) (hgrow : ls.IsChain (· <+: ·)) {final : List α}
    (hfinal : ls.getLast? = some final) : out = final.drop cursor := by
  induction h with
  | last hnext =>
    obtain rfl := Option.some.inj hfinal
    rw [page_last ((page_next_eq_zero hlimit).mp hnext)]
    rfl
  | @more cursor l ls out hnext hrest ih =>
    have hlt : cursor + limit < l.length := not_le.mp (mt (page_next_eq_zero hlimit).mpr hnext)
    rw [page_more hlt] at ih ⊢
    have hne : ls ≠ [] := by
      rintro rfl
      cases hrest
    have hlast : ls.getLast? = some final := by
      rw [← hfinal, List.getLast?_cons]
      cases hls : ls.getLast? with
      | none => exact (hne (List.getLast?_eq_none_iff.mp hls)).elim
      | some x => rfl
    have hprefix : l <+: final := by
      have hpairs := List.isChain_iff_pairwise.mp hgrow
      exact (List.pairwise_cons.mp hpairs).1 final (List.mem_of_getLast? hlast)
    rw [ih hgrow.tail hlast]
    exact take_append_drop_of_prefix hprefix hlt.le

/-- **A reading ends.** While the lists stay within a bound, so do the pages. -/
theorem exists_reading (hlimit : 0 < limit) (ls : Nat → List α) {bound : Nat}
    (hbound : ∀ i, (ls i).length ≤ bound) (i cursor : Nat) :
    ∃ n out, n ≤ bound - cursor ∧
      Reading limit cursor ((List.range' i (n + 1)).map ls) out := by
  have hfuel : ∀ fuel i cursor, bound - cursor ≤ fuel → ∃ n out, n ≤ bound - cursor ∧
      Reading limit cursor ((List.range' i (n + 1)).map ls) out := by
    intro fuel
    induction fuel with
    | zero =>
      intro i cursor hle
      have hlast : (page limit (ls i) cursor).next = 0 :=
        (page_next_eq_zero hlimit).mpr (by have := hbound i; omega)
      exact ⟨0, _, Nat.zero_le _, .last hlast⟩
    | succ fuel ih =>
      intro i cursor hle
      by_cases hlast : (page limit (ls i) cursor).next = 0
      · exact ⟨0, _, Nat.zero_le _, .last hlast⟩
      · have hlt : cursor + limit < (ls i).length :=
          not_le.mp (mt (page_next_eq_zero hlimit).mpr hlast)
        have hi := hbound i
        have hnext : (page limit (ls i) cursor).next = cursor + limit := by rw [page_more hlt]
        obtain ⟨n, out, hn, hreading⟩ := ih (i + 1) (cursor + limit) (by omega)
        refine ⟨n + 1, (page limit (ls i) cursor).data ++ out, by omega, ?_⟩
        rw [List.range'_succ, List.map_cons]
        exact .more hlast (hnext ▸ hreading)
  exact hfuel _ i cursor le_rfl

end Paging
