import SubRosa.Library.DecimalText
import SubRosa.Keeper.RoundIds

/-!
# The ids a specification names

A specification is a list of positive ids and ranges of such. The parser reads
these as they are meant and rejects every text with an item that holds no
integers, but it takes as an id or as a bound whatever `BigInt` reads, and it
looks at two bounds of a range only, in any order.
-/

namespace SubRosa.Keeper

open JavaScript

/-! ## The grammar -/

/-- A decimal text of a positive integer. -/
def IsId (cs : List Char) (n : Int) : Prop := Digits cs ∧ (digitsValue cs : Int) = n ∧ 0 < n

/-- An item that names the ids from `a` to `b`. -/
inductive Item : List Char → Int → Int → Prop
  | id {cs : List Char} {n : Int} : IsId cs n → Item cs n n
  | range {l r : List Char} {a b : Int} : IsId (trim l) a → IsId (trim r) b → a ≤ b →
      Item (l ++ '-' :: r) a b

/-- The text lists the items, with commas between them. -/
structure Lists (spec : String) (items : List (List Char)) : Prop where
  nonempty : items ≠ []
  plain : ∀ item ∈ items, ',' ∉ item
  joined : spec.toList = [','].intercalate items

/-- Blanks around items are allowed and empty items are ignored. -/
def WellFormed (spec : String) : Prop :=
  ∃ items, Lists spec items ∧ ∀ item ∈ items, trim item ≠ [] → ∃ a b, Item (trim item) a b

/-- The specification names the id. -/
def Names (spec : String) (id : Int) : Prop :=
  ∃ items, Lists spec items ∧ ∃ item ∈ items, ∃ a b, Item (trim item) a b ∧ a ≤ id ∧ id ≤ b

/-- No piece of a split contains what was split at. -/
theorem not_mem_piece {x : Char} {cs piece : List Char} (h : piece ∈ cs.splitOn x) :
    x ∉ piece := by
  induction cs generalizing piece with
  | nil =>
    rw [List.splitOn_nil, List.mem_singleton] at h
    rw [h]
    exact List.not_mem_nil
  | cons c cs ih =>
    rw [List.splitOn_cons_eq_if_modifyHead] at h
    split at h
    · rcases List.mem_cons.mp h with rfl | h
      · exact List.not_mem_nil
      · exact ih h
    · next hc =>
      obtain ⟨first, rest, hsplit⟩ := List.exists_cons_of_ne_nil (List.splitOn_ne_nil x cs)
      rw [hsplit] at h ih
      rcases List.mem_cons.mp h with rfl | h
      · rw [List.mem_cons, not_or]
        exact ⟨fun hx => hc (beq_iff_eq.mpr hx.symm), ih List.mem_cons_self⟩
      · exact ih (List.mem_cons_of_mem first h)

theorem lists_iff {spec : String} {items : List (List Char)} :
    Lists spec items ↔ items = spec.toList.splitOn ',' := by
  constructor
  · rintro ⟨hnonempty, hplain, hjoined⟩
    rw [hjoined, List.splitOn_intercalate ',' hplain hnonempty]
  · rintro rfl
    exact ⟨List.splitOn_ne_nil ',' _, fun item hitem => not_mem_piece hitem,
      (List.intercalate_splitOn ',').symm⟩

theorem mem_partsOf {spec : String} {part : List Char} :
    part ∈ partsOf spec ↔ ∃ item ∈ spec.toList.splitOn ',', trim item = part ∧ part ≠ [] := by
  rw [partsOf, List.mem_filter, List.mem_map, decide_eq_true_eq]
  constructor
  · rintro ⟨⟨item, hitem, hpart⟩, hne⟩
    exact ⟨item, hitem, hpart, hne⟩
  · rintro ⟨item, hitem, hpart, hne⟩
    exact ⟨⟨item, hitem, hpart⟩, hne⟩

theorem wellFormed_iff {spec : String} :
    WellFormed spec ↔ ∀ part ∈ partsOf spec, ∃ a b, Item part a b := by
  unfold WellFormed
  simp only [lists_iff, exists_eq_left, mem_partsOf]
  constructor
  · rintro h part ⟨item, hitem, rfl, hne⟩
    exact h item hitem hne
  · intro h item hitem hne
    exact h (trim item) ⟨item, hitem, rfl, hne⟩

theorem Item.ne_nil {part : List Char} {a b : Int} (h : Item part a b) : part ≠ [] := by
  cases h with
  | id h => exact h.1.1
  | range => exact List.append_ne_nil_of_right_ne_nil _ (List.cons_ne_nil _ _)

theorem names_iff {spec : String} {id : Int} :
    Names spec id ↔ ∃ part ∈ partsOf spec, ∃ a b, Item part a b ∧ a ≤ id ∧ id ≤ b := by
  unfold Names
  simp only [lists_iff, exists_eq_left, mem_partsOf]
  constructor
  · rintro ⟨item, hitem, a, b, h, hid⟩
    exact ⟨trim item, ⟨item, hitem, rfl, h.ne_nil⟩, a, b, h, hid⟩
  · rintro ⟨_, ⟨item, hitem, rfl, -⟩, a, b, h, hid⟩
    exact ⟨item, hitem, a, b, h, hid⟩

/-! ## What the parser makes of its items -/

theorem mem_addId {ids : List Int} {i j : Int} : j ∈ addId ids i ↔ j ∈ ids ∨ j = i := by
  unfold addId
  split
  · next h => exact ⟨.inl, fun hj => hj.elim id fun heq => heq ▸ h⟩
  · rw [List.mem_append, List.mem_singleton]

theorem nodup_addId {ids : List Int} (h : ids.Nodup) (i : Int) : (addId ids i).Nodup := by
  unfold addId
  split
  · exact h
  · next hnot =>
    refine List.nodup_append.mpr ⟨h, List.nodup_singleton i, ?_⟩
    rintro _ hmem _ hi rfl
    exact hnot (List.mem_singleton.mp hi ▸ hmem)

theorem addRange_spec {ids : List Int} (h : ids.Nodup) (a b : Int) :
    (addRange ids a b).Nodup ∧ ∀ j, j ∈ addRange ids a b ↔ j ∈ ids ∨ a ≤ j ∧ j ≤ b := by
  -- the ids that are added, at any stage of the loop
  have hloop : ∀ (ks : List Nat) (ids : List Int), ids.Nodup →
      (ks.foldl (fun ids (k : Nat) => addId ids (a + k)) ids).Nodup ∧
      ∀ j, j ∈ ks.foldl (fun ids (k : Nat) => addId ids (a + k)) ids ↔
        j ∈ ids ∨ ∃ k ∈ ks, j = a + k := by
    intro ks
    induction ks with
    | nil => exact fun ids h => ⟨h, fun j => by simp⟩
    | cons k ks ih =>
      intro ids h
      obtain ⟨hnodup, hmem⟩ := ih (addId ids (a + k)) (nodup_addId h _)
      refine ⟨hnodup, fun j => ?_⟩
      rw [List.foldl_cons, hmem, mem_addId, List.exists_mem_cons_iff, or_assoc]
  obtain ⟨hnodup, hmem⟩ := hloop (List.range (b + 1 - a).toNat) ids h
  refine ⟨hnodup, fun j => ?_⟩
  rw [addRange, hmem]
  refine or_congr_right ⟨?_, fun hj => ⟨(j - a).toNat, List.mem_range.mpr (by omega), by omega⟩⟩
  rintro ⟨k, hk, rfl⟩
  have hlt := List.mem_range.mp hk
  omega

/-- The ids from the first to the last that the parser takes an item for. -/
def partRange (part : List Char) : Except Thrown (Int × Int) := do
  if '-' ∈ part then
    let (a, b) := splitDash part
    return (← boundOf a, ← boundOf b)
  else
    let n ← bigIntOfText (String.ofList part)
    return (n, n)

theorem addRange_self (ids : List Int) (n : Int) : addRange ids n n = addId ids n := by
  have hone : (n + 1 - n).toNat = 1 := by omega
  rw [addRange, hone]
  show addId ids (n + (0 : Nat)) = addId ids n
  rw [Nat.cast_zero, add_zero]

theorem addPart_eq (ids : List Int) (part : List Char) :
    addPart ids part = (partRange part).map fun r => addRange ids r.1 r.2 := by
  unfold addPart partRange
  split
  · obtain ⟨a, b⟩ := splitDash part
    dsimp only
    cases boundOf a with
    | error e => rfl
    | ok a => cases boundOf b <;> rfl
  · cases bigIntOfText (String.ofList part) with
    | error e => rfl
    | ok n => exact congrArg Except.ok (addRange_self ids n).symm

/-- The ids of the parts that are read so far. -/
theorem addParts_ok {parts : List (List Char)} {ids made : List Int} (hnodup : ids.Nodup)
    (h : parts.foldlM addPart ids = .ok made) :
    made.Nodup ∧ (∀ part ∈ parts, ∃ r, partRange part = .ok r) ∧
      ∀ i, i ∈ made ↔ i ∈ ids ∨
        ∃ part ∈ parts, ∃ r, partRange part = .ok r ∧ r.1 ≤ i ∧ i ≤ r.2 := by
  induction parts generalizing ids with
  | nil =>
    obtain rfl := Except.ok.inj h
    exact ⟨hnodup, by simp, by simp⟩
  | cons part parts ih =>
    rw [List.foldlM_cons, bind_eq_ok] at h
    obtain ⟨ids', hpart, hrest⟩ := h
    rw [addPart_eq] at hpart
    cases hr : partRange part with
    | error e =>
      rw [hr] at hpart
      cases hpart
    | ok r =>
      rw [hr] at hpart
      obtain rfl := Except.ok.inj hpart
      obtain ⟨hnodup', hmem'⟩ := addRange_spec hnodup r.1 r.2
      obtain ⟨hmade, hall, hmem⟩ := ih hnodup' hrest
      refine ⟨hmade, List.forall_mem_cons.mpr ⟨⟨r, hr⟩, hall⟩, fun i => ?_⟩
      rw [hmem, hmem', or_assoc, List.exists_mem_cons_iff]
      refine or_congr_right (or_congr_left ?_)
      constructor
      · exact fun hi => ⟨r, hr, hi⟩
      · rintro ⟨_, hr', hi⟩
        rwa [Except.ok.inj (hr.symm.trans hr')]

theorem addParts_reads {parts : List (List Char)} (ids : List Int)
    (h : ∀ part ∈ parts, ∃ r, partRange part = .ok r) :
    ∃ made, parts.foldlM addPart ids = .ok made := by
  induction parts generalizing ids with
  | nil => exact ⟨ids, rfl⟩
  | cons part parts ih =>
    obtain ⟨⟨r, hr⟩, hrest⟩ := List.forall_mem_cons.mp h
    rw [List.foldlM_cons, addPart_eq, hr]
    exact ih _ hrest

/-- The parser accepts what it can read, in ascending order. -/
theorem parseRoundIdSpec_ok {spec : String} {ids : List Int} (h : parseRoundIdSpec spec = .ok ids) :
    (∀ part ∈ partsOf spec, ∃ r, partRange part = .ok r) ∧ ids.Pairwise (· < ·) ∧
      ∀ i, i ∈ ids ↔ ∃ part ∈ partsOf spec, ∃ r, partRange part = .ok r ∧ r.1 ≤ i ∧ i ≤ r.2 := by
  obtain ⟨made, hmade, hids⟩ := bind_eq_ok.mp h
  obtain rfl := Except.ok.inj hids
  obtain ⟨hnodup, hall, hmem⟩ := addParts_ok List.nodup_nil hmade
  have hsorted : (made.mergeSort (· ≤ ·)).Pairwise (· ≤ ·) := List.pairwise_mergeSort' _ _
  have hnodup : (made.mergeSort (· ≤ ·)).Nodup := (List.mergeSort_perm made _).nodup_iff.mpr hnodup
  refine ⟨hall, (hsorted.and hnodup).imp fun h => lt_of_le_of_ne h.1 h.2, fun i => ?_⟩
  rw [List.mem_mergeSort, hmem]
  simp

theorem parseRoundIdSpec_reads {spec : String}
    (h : ∀ part ∈ partsOf spec, ∃ r, partRange part = .ok r) :
    ∃ ids, parseRoundIdSpec spec = .ok ids := by
  obtain ⟨made, hmade⟩ := addParts_reads [] h
  exact ⟨_, bind_eq_ok.mpr ⟨made, hmade, rfl⟩⟩

/-! ## What `BigInt` reads -/

/-- A text without blanks around it that `BigInt` reads though it is no positive id. -/
inductive LooseText : List Char → Prop
  | empty : LooseText []
  | zero {cs : List Char} : Digits cs → digitsValue cs = 0 → LooseText cs
  | plus {cs : List Char} : Digits cs → LooseText ('+' :: cs)
  | hex {x : Char} {cs : List Char} : x = 'x' ∨ x = 'X' → digitsIn? 16 cs ≠ none →
      LooseText ('0' :: x :: cs)
  | octal {x : Char} {cs : List Char} : x = 'o' ∨ x = 'O' → digitsIn? 8 cs ≠ none →
      LooseText ('0' :: x :: cs)
  | binary {x : Char} {cs : List Char} : x = 'b' ∨ x = 'B' → digitsIn? 2 cs ≠ none →
      LooseText ('0' :: x :: cs)

theorem LooseText.not_id {cs : List Char} {n : Int} (h : LooseText cs) : ¬ IsId cs n := by
  rintro ⟨hdigits, hvalue, hpos⟩
  have hdigit : ∀ c ∈ cs, isDecimalDigit c = true := hdigits.2
  have hletter : ∀ {x y z : Char} {ds : List Char}, cs = '0' :: x :: ds → x = y ∨ x = z →
      isDecimalDigit y = false → isDecimalDigit z = false → False := by
    rintro x y z ds rfl hx hy hz
    have hxdigit := hdigit x (by simp)
    rcases hx with rfl | rfl
    · rw [hy] at hxdigit
      cases hxdigit
    · rw [hz] at hxdigit
      cases hxdigit
  cases h with
  | empty => exact hdigits.1 rfl
  | zero _ hzero =>
    rw [hzero] at hvalue
    omega
  | plus _ => exact absurd (hdigit '+' List.mem_cons_self) (by decide)
  | hex hx _ => exact hletter rfl hx (by decide) (by decide)
  | octal hx _ => exact hletter rfl hx (by decide) (by decide)
  | binary hx _ => exact hletter rfl hx (by decide) (by decide)

theorem IsId.read {cs : List Char} {n : Int} (h : IsId cs n) :
    bigIntOfText (String.ofList cs) = .ok n := by
  have hdigits : Digits (String.ofList cs).toList := by
    rw [String.toList_ofList]
    exact h.1
  rw [bigIntOfText, bigIntText_digits hdigits, String.toList_ofList, ← h.2.1]

theorem digits?_map_eq {cs : List Char} {n : Int}
    (h : (digits? cs).map Int.ofNat = some n) : Digits cs ∧ (digitsValue cs : Int) = n := by
  obtain ⟨k, hk, rfl⟩ := Option.map_eq_some_iff.mp h
  obtain ⟨hdigits, rfl⟩ := digits?_eq_some.mp hk
  exact ⟨hdigits, rfl⟩

/-- A text without a dash that `BigInt` reads is an id or a loose one. -/
theorem read_cases {cs : List Char} {n : Int} (htrim : trim cs = cs) (hdash : '-' ∉ cs)
    (h : bigIntOfText (String.ofList cs) = .ok n) : IsId cs n ∨ LooseText cs := by
  have hread : bigIntText? (String.ofList cs) = some n := by
    unfold bigIntOfText at h
    split at h
    · next hsome => rw [hsome, Except.ok.inj h]
    · cases h
  unfold bigIntText? at hread
  rw [String.toList_ofList, htrim] at hread
  have hsome : ∀ {o : Option Nat}, o.map Int.ofNat = some n → o ≠ none := by
    rintro _ ho rfl
    cases ho
  split at hread
  · exact .inr .empty
  · exact .inr (.hex (.inl rfl) (hsome hread))
  · exact .inr (.hex (.inr rfl) (hsome hread))
  · exact .inr (.octal (.inl rfl) (hsome hread))
  · exact .inr (.octal (.inr rfl) (hsome hread))
  · exact .inr (.binary (.inl rfl) (hsome hread))
  · exact .inr (.binary (.inr rfl) (hsome hread))
  · exact absurd List.mem_cons_self hdash
  · exact .inr (.plus (digits?_map_eq hread).1)
  · obtain ⟨hdigits, hvalue⟩ := digits?_map_eq hread
    rcases Nat.eq_zero_or_pos (digitsValue cs) with hzero | hpos
    · exact .inr (.zero hdigits hzero)
    · exact .inl ⟨hdigits, hvalue, by omega⟩

/-! ## Bounds -/

/-- The item has dashes, and these are its first two bounds. -/
inductive Bounds : List Char → List Char → List Char → Prop
  | two {l r : List Char} : '-' ∉ l → '-' ∉ r → Bounds (l ++ '-' :: r) l r
  | more {l r more : List Char} : '-' ∉ l → '-' ∉ r → Bounds (l ++ '-' :: (r ++ '-' :: more)) l r

theorem exists_bounds {part : List Char} (h : '-' ∈ part) : ∃ l r, Bounds part l r := by
  have hfirst : ∀ {cs : List Char}, '-' ∈ cs → ∃ l rest, cs = l ++ '-' :: rest ∧ '-' ∉ l :=
    fun hmem => List.eq_append_cons_of_mem hmem
  obtain ⟨l, rest, rfl, hl⟩ := hfirst h
  by_cases hrest : '-' ∈ rest
  · obtain ⟨r, more, rfl, hr⟩ := hfirst hrest
    exact ⟨l, r, .more hl hr⟩
  · exact ⟨l, rest, .two hl hrest⟩

theorem takeWhile_dash {l rest : List Char} (h : '-' ∉ l) :
    (l ++ '-' :: rest).takeWhile (· ≠ '-') = l ∧
      (l ++ '-' :: rest).dropWhile (· ≠ '-') = '-' :: rest := by
  have hall : ∀ c ∈ l, decide (c ≠ '-') = true := by
    intro c hc
    rw [decide_eq_true_eq]
    rintro rfl
    exact h hc
  rw [List.takeWhile_append_of_pos hall, List.dropWhile_append_of_pos hall]
  simp

theorem Bounds.split {part l r : List Char} (h : Bounds part l r) :
    '-' ∈ part ∧ splitDash part = (l, r) := by
  unfold splitDash
  cases h with
  | two hl hr =>
    obtain ⟨htake, hdrop⟩ := @takeWhile_dash l r hl
    have hall : ∀ c ∈ r, decide (c ≠ '-') = true := by
      intro c hc
      rw [decide_eq_true_eq]
      rintro rfl
      exact hr hc
    rw [htake, hdrop, List.drop_one, List.tail_cons, List.takeWhile_eq_self_iff.mpr hall]
    exact ⟨by simp, rfl⟩
  | more hl hr =>
    rename_i more
    obtain ⟨htake, hdrop⟩ := @takeWhile_dash l (r ++ '-' :: more) hl
    rw [htake, hdrop, List.drop_one, List.tail_cons, (takeWhile_dash hr).1]
    exact ⟨by simp, rfl⟩

/-- What is read of an item with dashes. -/
theorem Bounds.read {part l r : List Char} (h : Bounds part l r) {a b : Int} :
    partRange part = .ok (a, b) ↔ boundOf l = .ok a ∧ boundOf r = .ok b := by
  obtain ⟨hdash, hsplit⟩ := h.split
  rw [partRange, if_pos hdash, hsplit]
  show (boundOf l >>= fun a => boundOf r >>= fun b => Except.ok (a, b)) = _ ↔ _
  simp only [bind_eq_ok, Except.ok.injEq, Prod.mk.injEq]
  constructor
  · rintro ⟨_, hl, _, hr, rfl, rfl⟩
    exact ⟨hl, hr⟩
  · rintro ⟨hl, hr⟩
    exact ⟨a, hl, b, hr, rfl, rfl⟩

theorem single_read {part : List Char} (h : '-' ∉ part) {a b : Int} :
    partRange part = .ok (a, b) ↔ bigIntOfText (String.ofList part) = .ok a ∧ a = b := by
  rw [partRange, if_neg h, bind_eq_ok]
  constructor
  · rintro ⟨n, hn, hr⟩
    obtain ⟨rfl, rfl⟩ := Prod.mk.inj (Except.ok.inj hr)
    exact ⟨hn, rfl⟩
  · rintro ⟨hn, rfl⟩
    exact ⟨a, hn, rfl⟩

/-- A bound that is an id has no dash. -/
theorem IsId.plain {cs : List Char} {n : Int} (h : IsId (trim cs) n) : '-' ∉ cs := by
  intro hmem
  exact absurd (h.1.2 '-' (mem_trim hmem (by decide))) (by decide)

/-! ## Loose items -/

/-- An item that is read, if its bounds are, though it is none of the grammar: the id or one of the
first two bounds is loose, there is a third bound, or the first is above the second. -/
inductive LooseItem : List Char → Prop
  | id {part : List Char} : '-' ∉ part → LooseText part → LooseItem part
  | bound {part l r : List Char} : Bounds part l r → LooseText (trim l) ∨ LooseText (trim r) →
      LooseItem part
  | third {l r more : List Char} : '-' ∉ l → '-' ∉ r → LooseItem (l ++ '-' :: (r ++ '-' :: more))
  | reversed {l r : List Char} {a b : Int} : IsId (trim l) a → IsId (trim r) b → b < a →
      LooseItem (l ++ '-' :: r)

/-- `BigInt` does not read the id of the item, or one of its first two bounds. -/
inductive Unreadable : List Char → Prop
  | id {part : List Char} : '-' ∉ part → bigIntText? (String.ofList part) = none → Unreadable part
  | bound {part l r : List Char} : Bounds part l r →
      bigIntText? (String.ofList (trim l)) = none ∨ bigIntText? (String.ofList (trim r)) = none →
      Unreadable part

theorem bigIntOfText_none {s : String} :
    bigIntText? s = none ↔ ∀ n, bigIntOfText s ≠ .ok n := by
  unfold bigIntOfText
  split
  · next n hn =>
    rw [hn]
    exact ⟨nofun, fun h => absurd rfl (h n)⟩
  · next hn => exact ⟨fun _ _ => nofun, fun _ => hn⟩

theorem Bounds.unique {part l r l' r' : List Char} (h : Bounds part l r)
    (h' : Bounds part l' r') : l = l' ∧ r = r' :=
  Prod.mk.inj (h.split.2.symm.trans h'.split.2)

theorem not_unreadable {part : List Char} :
    ¬ Unreadable part ↔ ∃ r, partRange part = .ok r := by
  constructor
  · intro h
    by_cases hdash : '-' ∈ part
    · obtain ⟨l, r, hbounds⟩ := exists_bounds hdash
      by_contra hnone
      refine h (.bound hbounds ?_)
      by_contra hboth
      simp only [not_or, bigIntOfText_none, not_forall, not_not] at hboth
      obtain ⟨⟨a, ha⟩, b, hb⟩ := hboth
      exact hnone ⟨(a, b), hbounds.read.mpr ⟨ha, hb⟩⟩
    · by_contra hnone
      refine h (.id hdash (bigIntOfText_none.mpr fun n hn => hnone ⟨(n, n), ?_⟩))
      exact (single_read hdash).mpr ⟨hn, rfl⟩
  · rintro ⟨⟨a, b⟩, hr⟩ h
    cases h with
    | id hdash hnone => exact bigIntOfText_none.mp hnone a ((single_read hdash).mp hr).1
    | bound hbounds hnone =>
      obtain ⟨ha, hb⟩ := hbounds.read.mp hr
      exact hnone.elim (fun hl => bigIntOfText_none.mp hl a ha)
        (fun hr => bigIntOfText_none.mp hr b hb)

theorem IsId.unique {cs : List Char} {n m : Int} (h : IsId cs n) (h' : IsId cs m) : n = m :=
  h.2.1.symm.trans h'.2.1

theorem IsId.no_dash {cs : List Char} {n : Int} (h : IsId cs n) : '-' ∉ cs := by
  intro hmem
  exact absurd (h.1.2 '-' hmem) (by decide)

theorem Item.read {part : List Char} {a b : Int} (h : Item part a b) :
    partRange part = .ok (a, b) := by
  cases h with
  | id h => exact (single_read h.no_dash).mpr ⟨h.read, rfl⟩
  | range hl hr _ => exact (Bounds.two hl.plain hr.plain).read.mpr ⟨hl.read, hr.read⟩

theorem Item.not_loose {part : List Char} {a b : Int} (h : Item part a b) : ¬ LooseItem part := by
  intro hloose
  cases h with
  | id h =>
    cases hloose with
    | id _ htext => exact htext.not_id h
    | bound hbounds _ => exact h.no_dash hbounds.split.1
    | third hl hr => exact h.no_dash (Bounds.more hl hr).split.1
    | reversed => exact h.no_dash (by simp)
  | range hl hr hle =>
    have hbounds := Bounds.two hl.plain hr.plain
    generalize hpart : _ ++ '-' :: _ = part at hloose hbounds
    cases hloose with
    | id hdash _ => exact hdash hbounds.split.1
    | bound hbounds' htext =>
      obtain ⟨rfl, rfl⟩ := hbounds.unique hbounds'
      exact htext.elim (fun h => h.not_id hl) (fun h => h.not_id hr)
    | third hl' hr' =>
      obtain ⟨rfl, rfl⟩ := hbounds.unique (.more hl' hr')
      have hlength := congrArg List.length hpart
      simp at hlength
    | reversed hl' hr' hlt =>
      obtain ⟨rfl, rfl⟩ := hbounds.unique (.two hl'.plain hr'.plain)
      rw [hl.unique hl', hr.unique hr'] at hle
      omega

/-- An item that is read is one of the grammar or a loose one. -/
theorem item_or_loose {part : List Char} {a b : Int} (htrim : trim part = part)
    (h : partRange part = .ok (a, b)) : Item part a b ∨ LooseItem part := by
  by_cases hdash : '-' ∈ part
  · obtain ⟨l, r, hbounds⟩ := exists_bounds hdash
    obtain ⟨ha, hb⟩ := hbounds.read.mp h
    have hplain : ∀ {cs : List Char}, '-' ∉ cs → '-' ∉ trim cs :=
      fun hcs hmem => hcs (trim_sub hmem)
    have hdashes : '-' ∉ l ∧ '-' ∉ r := by
      cases hbounds <;> exact ⟨by assumption, by assumption⟩
    rcases read_cases (trim_trim l) (hplain hdashes.1) ha with hl | hl
    · rcases read_cases (trim_trim r) (hplain hdashes.2) hb with hr | hr
      · cases hbounds with
        | two _ _ =>
          rcases le_or_gt a b with hle | hlt
          · exact .inl (.range hl hr hle)
          · exact .inr (.reversed hl hr hlt)
        | more _ _ => exact .inr (.third hl.plain hr.plain)
      · exact .inr (.bound hbounds (.inr hr))
    · exact .inr (.bound hbounds (.inl hl))
  · obtain ⟨hread, rfl⟩ := (single_read hdash).mp h
    rcases read_cases htrim hdash hread with hid | hloose
    · exact .inl (.id hid)
    · exact .inr (.id hdash hloose)

/-! ## The specification -/

/-- The parser accepts just the well-formed, and gives what they name in ascending order. -/
def ReadsExactly (spec : String) : Prop :=
  ((∃ ids, parseRoundIdSpec spec = .ok ids) ↔ WellFormed spec) ∧
    ∀ ids, parseRoundIdSpec spec = .ok ids →
      ids.Pairwise (· < ·) ∧ ∀ id, id ∈ ids ↔ Names spec id

/-- A text is read as it is meant just when no item of it is loose, or it is rejected for another
item. -/
theorem round_ids_exact_iff (spec : String) :
    ReadsExactly spec ↔
      (∃ part ∈ partsOf spec, Unreadable part) ∨ ∀ part ∈ partsOf spec, ¬ LooseItem part := by
  by_cases hunreadable : ∃ part ∈ partsOf spec, Unreadable part
  · obtain ⟨part, hpart, hnone⟩ := hunreadable
    have hrejected : ∀ ids, parseRoundIdSpec spec ≠ .ok ids := fun ids hids =>
      not_unreadable.mpr ((parseRoundIdSpec_ok hids).1 part hpart) hnone
    refine ⟨fun _ => .inl ⟨part, hpart, hnone⟩, fun _ => ⟨⟨?_, fun hform => ?_⟩, ?_⟩⟩
    · rintro ⟨ids, hids⟩
      exact absurd hids (hrejected ids)
    · obtain ⟨a, b, hitem⟩ := wellFormed_iff.mp hform part hpart
      exact absurd hnone (not_unreadable.mpr ⟨_, hitem.read⟩)
    · exact fun ids hids => absurd hids (hrejected ids)
  · have hread : ∀ part ∈ partsOf spec, ∃ r, partRange part = .ok r := fun part hpart =>
      not_unreadable.mp fun h => hunreadable ⟨part, hpart, h⟩
    obtain ⟨ids, hids⟩ := parseRoundIdSpec_reads hread
    rw [or_iff_right hunreadable]
    constructor
    · intro hexact part hpart hloose
      obtain ⟨a, b, hitem⟩ := wellFormed_iff.mp (hexact.1.mp ⟨ids, hids⟩) part hpart
      exact hitem.not_loose hloose
    · intro hstrict
      have hitems : ∀ part ∈ partsOf spec, ∀ a b, partRange part = .ok (a, b) → Item part a b := by
        intro part hpart a b hr
        obtain ⟨item, -, rfl, -⟩ := mem_partsOf.mp hpart
        exact (item_or_loose (trim_trim item) hr).resolve_right (hstrict _ hpart)
      refine ⟨⟨fun _ => wellFormed_iff.mpr fun part hpart => ?_, fun _ => ⟨ids, hids⟩⟩, ?_⟩
      · obtain ⟨⟨a, b⟩, hr⟩ := hread part hpart
        exact ⟨a, b, hitems part hpart a b hr⟩
      · intro ids hids
        obtain ⟨-, hsorted, hmem⟩ := parseRoundIdSpec_ok hids
        refine ⟨hsorted, fun id => ?_⟩
        rw [hmem, names_iff]
        refine exists_congr fun part => and_congr_right fun hpart => ?_
        constructor
        · rintro ⟨⟨a, b⟩, hr, hid⟩
          exact ⟨a, b, hitems part hpart a b hr, hid⟩
        · rintro ⟨a, b, hitem, hid⟩
          exact ⟨(a, b), hitem.read, hid⟩

theorem round_ids_exact_fails : ¬ ∀ spec, ReadsExactly spec := by
  intro hclaim
  have haccepted : (parseRoundIdSpec "1-2-3").toOption.isSome = true := by decide +kernel
  obtain ⟨ids, hids⟩ : ∃ ids, parseRoundIdSpec "1-2-3" = .ok ids := by
    cases h : parseRoundIdSpec "1-2-3" with
    | ok ids => exact ⟨ids, rfl⟩
    | error e =>
      rw [h] at haccepted
      cases haccepted
  have hparts : partsOf "1-2-3" = [['1', '-', '2', '-', '3']] := by decide +kernel
  obtain ⟨a, b, hitem⟩ := wellFormed_iff.mp ((hclaim "1-2-3").1.mp ⟨ids, hids⟩) _
    (by rw [hparts]; exact List.mem_singleton_self _)
  exact hitem.not_loose (@LooseItem.third ['1'] ['2'] ['3'] (by decide) (by decide))

end SubRosa.Keeper
