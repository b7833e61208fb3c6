import SubRosa.Library.JsonText

/-!
# The order of fields

Objects list their fields in an order of their own, a serialiser may sort them
first, and two values are the same up to the order of their fields when they
sort to one value.
-/

namespace JavaScript

/-- The UTF-16 code units of a character. -/
def charUnits (c : Char) : List Nat :=
  if c.toNat < 0x10000 then [c.toNat]
  else [0xD800 + (c.toNat - 0x10000) / 0x400, 0xDC00 + (c.toNat - 0x10000) % 0x400]

/-- UTF-16 code units, which decide the order of two texts. -/
def utf16 (s : String) : List Nat := s.toList.flatMap charUnits

section

variable {α β : Type}

/-- `entries.sort(([a], [b]) => (a < b ? -1 : a > b ? 1 : 0))`. -/
def sortEntries (entries : List (String × α)) : List (String × α) :=
  entries.mergeSort fun a b => utf16 a.1 ≤ utf16 b.1

/-- `Object.fromEntries`. -/
def fromEntries (entries : List (String × α)) : List (String × α) :=
  entries.foldl (fun made p => setField made p.1 p.2) []

/-! ## Sorting -/

theorem charUnits_append {c d : Char} {l l' : List Nat}
    (h : charUnits c ++ l = charUnits d ++ l') : c = d ∧ l = l' := by
  have hc : c.toNat < 0xD800 ∨ 0xDFFF < c.toNat ∧ c.toNat < 0x110000 := c.valid
  have hd : d.toNat < 0xD800 ∨ 0xDFFF < d.toNat ∧ d.toNat < 0x110000 := d.valid
  unfold charUnits at h
  split at h <;> split at h <;> simp only [List.cons_append, List.nil_append, List.cons.injEq] at h
  · exact ⟨Char.toNat_inj.mp h.1, h.2⟩
  · omega
  · omega
  · exact ⟨Char.toNat_inj.mp (by omega), h.2.2⟩

theorem utf16_inj {s t : String} (h : utf16 s = utf16 t) : s = t := by
  have hlist : ∀ l l' : List Char, l.flatMap charUnits = l'.flatMap charUnits → l = l' := by
    intro l
    induction l with
    | nil =>
      rintro (_ | ⟨d, l'⟩) h
      · rfl
      · exfalso
        rw [List.flatMap_nil, List.flatMap_cons] at h
        unfold charUnits at h
        split at h <;> simp at h
    | cons c l ih =>
      rintro (_ | ⟨d, l'⟩) h
      · exfalso
        rw [List.flatMap_nil, List.flatMap_cons] at h
        unfold charUnits at h
        split at h <;> simp at h
      · rw [List.flatMap_cons, List.flatMap_cons] at h
        obtain ⟨rfl, hrest⟩ := charUnits_append h
        rw [ih l' hrest]
  exact String.toList_inj.mp (hlist _ _ h)

theorem sortEntries_perm (entries : List (String × α)) : (sortEntries entries).Perm entries :=
  List.mergeSort_perm ..

theorem sortEntries_sorted (entries : List (String × α)) :
    (sortEntries entries).Pairwise fun a b => utf16 a.1 ≤ utf16 b.1 := by
  have h := @List.pairwise_mergeSort _ (fun a b : String × α => decide (utf16 a.1 ≤ utf16 b.1))
    (fun a b c hab hbc => by
      rw [decide_eq_true_eq] at hab hbc ⊢
      exact hab.trans hbc)
    (fun a b => by
      rw [Bool.or_eq_true, decide_eq_true_eq, decide_eq_true_eq]
      exact le_total _ _) entries
  exact h.imp fun h => of_decide_eq_true h

/-- Entries with different names sort the same whatever their order. -/
theorem sortEntries_congr {entries entries' : List (String × α)}
    (hnodup : (entries.map Prod.fst).Nodup) (h : entries.Perm entries') :
    sortEntries entries = sortEntries entries' := by
  have hperm : (sortEntries entries).Perm (sortEntries entries') :=
    (sortEntries_perm entries).trans (h.trans (sortEntries_perm entries').symm)
  refine List.Perm.eq_of_pairwise (fun a b ha hb hab hba => ?_) (sortEntries_sorted entries)
    (sortEntries_sorted entries') hperm
  have hname : a.1 = b.1 := utf16_inj (le_antisymm hab hba)
  have hb : b ∈ sortEntries entries := hperm.mem_iff.mpr hb
  have hnodup : ((sortEntries entries).map Prod.fst).Nodup :=
    ((sortEntries_perm entries).map Prod.fst).nodup_iff.mpr hnodup
  exact List.inj_on_of_nodup_map hnodup ha hb hname

theorem sortEntries_map (g : α → β) (entries : List (String × α)) :
    (sortEntries entries).map (fun p => (p.1, g p.2)) =
      sortEntries (entries.map fun p => (p.1, g p.2)) :=
  List.map_mergeSort fun _ _ _ _ => rfl

end

/-! ## Objects -/

section

variable {α : Type}

/-- An object lists the names in this order. -/
def InOrder (names : List String) : Prop :=
  names.Pairwise fun a b => a ≠ b ∧ precedes b a = false

theorem InOrder.nodup {names : List String} (h : InOrder names) : names.Nodup :=
  h.imp And.left

theorem precedes_trans {a b c : String} (h : precedes a b = true) (h' : precedes b c = true) :
    precedes a c = true := by
  unfold precedes at h h' ⊢
  cases ha : indexName? a <;> cases hb : indexName? b <;> cases hc : indexName? c <;>
    simp_all
  omega

theorem setField_names (fields : List (String × α)) (key : String) (v : α)
    (h : InOrder (fields.map Prod.fst)) : InOrder ((setField fields key v).map Prod.fst) := by
  unfold setField
  split
  · have hnames : (fields.map fun p => if p.1 = key then (key, v) else p).map Prod.fst =
        fields.map Prod.fst := by
      rw [List.map_map]
      refine List.map_congr_left fun p _ => ?_
      show (if p.1 = key then (key, v) else p).1 = p.1
      split
      · next hp => exact hp.symm
      · rfl
    rwa [hnames]
  · next hnew =>
    have hne : ∀ p ∈ fields, p.1 ≠ key := by
      intro p hp he
      exact hnew (List.any_eq_true.mpr ⟨p, hp, decide_eq_true he⟩)
    have hsplit := List.takeWhile_append_dropWhile (p := fun p : String × α => !precedes key p.1)
      (l := fields)
    have hbefore : ∀ p ∈ fields.takeWhile (fun p => !precedes key p.1), precedes key p.1 = false :=
      fun p hp => by simpa using List.mem_takeWhile_imp hp
    unfold InOrder at h ⊢
    rw [List.pairwise_map] at h ⊢
    rw [← hsplit] at h hne
    rw [List.pairwise_append] at h ⊢
    obtain ⟨htake, hdrop, hacross⟩ := h
    refine ⟨htake, List.pairwise_cons.mpr ⟨fun q hq => ⟨?_, ?_⟩, hdrop⟩, fun p hp q hq => ?_⟩
    · exact (hne q (List.mem_append_right _ hq)).symm
    · -- the first name after the new one comes after it, and no later one before that
      cases hlist : fields.dropWhile (fun p => !precedes key p.1) with
      | nil =>
        rw [hlist] at hq
        cases hq
      | cons first rest =>
        have hfirst : precedes key first.1 = true := by
          have hhead := List.head_dropWhile_not (fun p : String × α => !precedes key p.1)
            (l := fields) (by rw [hlist]; simp)
          simpa [hlist] using hhead
        rw [hlist] at hq hdrop
        rcases List.mem_cons.mp hq with rfl | hq
        · by_contra hback
          have hself := precedes_trans hfirst (Bool.not_eq_false _ ▸ hback)
          unfold precedes at hself
          split at hself <;> simp_all
        · by_contra hback
          have hlater := ((List.pairwise_cons.mp hdrop).1 q hq).2
          rw [precedes_trans (Bool.not_eq_false _ ▸ hback) hfirst] at hlater
          cases hlater
    · rcases List.mem_cons.mp hq with rfl | hq
      · exact ⟨hne p (List.mem_append_left _ hp), hbefore p hp⟩
      · exact hacross p hp q hq

theorem fromEntries_names (entries : List (String × α)) :
    InOrder ((fromEntries entries).map Prod.fst) := by
  have hfold : ∀ made : List (String × α), InOrder (made.map Prod.fst) →
      InOrder ((entries.foldl (fun made p => setField made p.1 p.2) made).map Prod.fst) := by
    induction entries with
    | nil => exact fun made h => h
    | cons p entries ih => exact fun made h => ih _ (setField_names made p.1 p.2 h)
  exact hfold [] List.Pairwise.nil

/-- Entries in the order of an object stay as they are. -/
theorem fromEntries_inOrder {entries : List (String × α)}
    (h : InOrder (entries.map Prod.fst)) : fromEntries entries = entries := by
  induction entries using List.reverseRecOn with
  | nil => rfl
  | append_singleton entries p ih =>
    unfold InOrder at h ih
    rw [List.pairwise_map, List.pairwise_append] at h
    obtain ⟨hbefore, -, hlast⟩ := h
    have hlast : ∀ q ∈ entries, q.1 ≠ p.1 ∧ precedes p.1 q.1 = false :=
      fun q hq => hlast q hq p List.mem_cons_self
    unfold fromEntries at ih ⊢
    rw [List.foldl_append, ih (List.pairwise_map.mpr hbefore)]
    have hany : (entries.any fun q => q.1 = p.1) = false := by
      rw [List.any_eq_false]
      intro q hq
      rw [decide_eq_true_eq]
      exact (hlast q hq).1
    have hall : ∀ q ∈ entries, (!precedes p.1 q.1) = true := by
      intro q hq
      rw [(hlast q hq).2]
      rfl
    show setField entries p.1 p.2 = _
    rw [setField, hany, if_neg Bool.false_ne_true, List.takeWhile_eq_self_iff.mpr hall,
      List.dropWhile_eq_nil_iff.mpr hall]

theorem setField_perm {fields : List (String × α)} {key : String} (v : α)
    (hnew : key ∉ fields.map Prod.fst) : (setField fields key v).Perm ((key, v) :: fields) := by
  have hany : (fields.any fun p => p.1 = key) = false := by
    rw [List.any_eq_false]
    intro p hp
    rw [decide_eq_true_eq]
    exact fun he => hnew (he ▸ List.mem_map_of_mem hp)
  rw [setField, hany, if_neg Bool.false_ne_true]
  refine List.perm_middle.trans (List.Perm.of_eq ?_)
  rw [List.takeWhile_append_dropWhile]

/-- Different names all become fields. -/
theorem fromEntries_perm {entries : List (String × α)}
    (h : (entries.map Prod.fst).Nodup) : (fromEntries entries).Perm entries := by
  induction entries using List.reverseRecOn with
  | nil => exact List.Perm.refl _
  | append_singleton entries p ih =>
    rw [List.map_append, List.map_singleton] at h
    obtain ⟨hbefore, -, hnew⟩ := List.nodup_append.mp h
    have hperm := ih hbefore
    have hnew : p.1 ∉ (fromEntries entries).map Prod.fst := by
      intro hp
      exact hnew p.1 ((hperm.map Prod.fst).mem_iff.mp hp) p.1 (by simp) rfl
    unfold fromEntries at hperm hnew ⊢
    rw [List.foldl_append]
    exact (setField_perm p.2 hnew).trans
      ((hperm.cons p).trans (List.perm_append_singleton p entries).symm)

theorem mem_setField {fields : List (String × α)} {key : String} {v : α}
    {q : String × α} (h : q ∈ setField fields key v) : q ∈ fields ∨ q = (key, v) := by
  unfold setField at h
  split at h
  · obtain ⟨p, hp, rfl⟩ := List.mem_map.mp h
    by_cases hname : p.1 = key
    · rw [if_pos hname]
      exact Or.inr rfl
    · rw [if_neg hname]
      exact Or.inl hp
  · rcases List.mem_append.mp h with h | h
    · exact Or.inl (List.takeWhile_subset _ h)
    · rcases List.mem_cons.mp h with h | h
      · exact Or.inr h
      · exact Or.inl (List.dropWhile_subset _ h)

theorem mem_fromEntries {entries : List (String × α)} {q : String × α}
    (h : q ∈ fromEntries entries) : q ∈ entries := by
  have hfold : ∀ entries made : List (String × α),
      q ∈ entries.foldl (fun made p => setField made p.1 p.2) made → q ∈ made ∨ q ∈ entries := by
    intro entries
    induction entries with
    | nil => exact fun made h => Or.inl h
    | cons p entries ih =>
      intro made h
      rcases ih _ h with h | h
      · refine (mem_setField h).imp_right ?_
        rintro rfl
        exact List.mem_cons_self
      · exact Or.inr (List.mem_cons_of_mem _ h)
  exact (hfold entries [] h).resolve_left (by simp)

end

/-! ## Values -/

mutual

/-- The fields of every object sorted by name. -/
def Json.sorted : Json → Json
  | .arr items => .arr (Json.sortedItems items)
  | .obj fields => .obj (sortEntries (Json.sortedFields fields))
  | v => v

def Json.sortedItems : List Json → List Json
  | [] => []
  | item :: items => item.sorted :: Json.sortedItems items

def Json.sortedFields : List (String × Json) → List (String × Json)
  | [] => []
  | (key, v) :: fields => (key, v.sorted) :: Json.sortedFields fields

end

/-- Equal up to the order of the fields of objects, at any depth. -/
inductive Json.Same : Json → Json → Prop
  | null : Json.Same .null .null
  | bool (b : Bool) : Json.Same (.bool b) (.bool b)
  | num (n : Number) : Json.Same (.num n) (.num n)
  | str (s : String) : Json.Same (.str s) (.str s)
  | nil : Json.Same (.arr []) (.arr [])
  | cons {v w : Json} {items items' : List Json} : Json.Same v w →
      Json.Same (.arr items) (.arr items') → Json.Same (.arr (v :: items)) (.arr (w :: items'))
  | empty : Json.Same (.obj []) (.obj [])
  | field {key : String} {v w : Json} {fields before after : List (String × Json)} :
      Json.Same v w → Json.Same (.obj fields) (.obj (before ++ after)) →
      Json.Same (.obj ((key, v) :: fields)) (.obj (before ++ (key, w) :: after))

/-- The names of every object are different. -/
abbrev Json.Distinct : Json → Prop := Json.Every (fun _ => True) List.Nodup

theorem Json.sortedItems_eq_map (items : List Json) :
    Json.sortedItems items = items.map Json.sorted := by
  induction items with
  | nil => rfl
  | cons item items ih => rw [Json.sortedItems, ih, List.map_cons]

theorem Json.sortedFields_eq_map (fields : List (String × Json)) :
    Json.sortedFields fields = fields.map fun p => (p.1, p.2.sorted) := by
  induction fields with
  | nil => rfl
  | cons p fields ih =>
    obtain ⟨key, v⟩ := p
    rw [Json.sortedFields, ih, List.map_cons]

theorem Json.sortedFields_names (fields : List (String × Json)) :
    (Json.sortedFields fields).map Prod.fst = fields.map Prod.fst := by
  rw [Json.sortedFields_eq_map, List.map_map]
  rfl

/-- What sorting leaves of two values that are the same. -/
def Json.Agree : Json → Json → Prop
  | .obj fields, .obj fields' => (Json.sortedFields fields).Perm (Json.sortedFields fields')
  | v, w => v.sorted = w.sorted

theorem Json.Agree.sorted {v w : Json} (h : v.Agree w) (hv : v.Distinct) : v.sorted = w.sorted := by
  cases hv with
  | @obj fields hnames _ =>
    cases w with
    | obj fields' =>
      rw [Json.sorted, Json.sorted,
        sortEntries_congr (by rwa [Json.sortedFields_names]) h]
    | _ => exact h
  | _ => exact h

theorem Json.Same.sorted {v w : Json} (h : v.Same w) (hv : v.Distinct) : v.sorted = w.sorted := by
  refine Json.Agree.sorted ?_ hv
  induction h with
  | null => rfl
  | bool => rfl
  | num => rfl
  | str => rfl
  | nil => rfl
  | empty => exact List.Perm.refl _
  | @cons v w items items' _ _ ih ihs =>
    cases hv with
    | arr hitems =>
      have hhead := (ih (hitems v List.mem_cons_self)).sorted (hitems v List.mem_cons_self)
      have htail : (Json.arr items).sorted = (Json.arr items').sorted :=
        ihs (.arr fun u hu => hitems u (List.mem_cons_of_mem _ hu))
      show (Json.arr (v :: items)).sorted = (Json.arr (w :: items')).sorted
      rw [Json.sorted, Json.sorted, Json.arr.injEq] at htail ⊢
      rw [Json.sortedItems, Json.sortedItems, hhead, htail]
  | @field key v w fields before after _ _ ih ihs =>
    cases hv with
    | obj hnames hfields =>
      have hhead := (ih (hfields (key, v) List.mem_cons_self)).sorted
        (hfields (key, v) List.mem_cons_self)
      have htail : (Json.sortedFields fields).Perm (Json.sortedFields (before ++ after)) :=
        ihs (.obj (List.nodup_cons.mp hnames).2 fun u hu => hfields u (List.mem_cons_of_mem _ hu))
      show (Json.sortedFields ((key, v) :: fields)).Perm
        (Json.sortedFields (before ++ (key, w) :: after))
      rw [Json.sortedFields, hhead]
      rw [Json.sortedFields_eq_map, Json.sortedFields_eq_map] at htail ⊢
      rw [List.map_append, List.map_cons]
      rw [List.map_append] at htail
      exact (htail.cons _).trans List.perm_middle.symm

/-- Fields that sort to the same are the same in some order. -/
theorem Json.same_fields {fields fields' : List (String × Json)}
    (hsame : ∀ p ∈ fields, ∀ w, p.2.sorted = w.sorted → p.2.Same w)
    (h : (Json.sortedFields fields).Perm (Json.sortedFields fields')) :
    (Json.obj fields).Same (.obj fields') := by
  induction fields generalizing fields' with
  | nil =>
    rw [Json.sortedFields, List.nil_perm] at h
    rw [Json.sortedFields_eq_map, List.map_eq_nil_iff] at h
    rw [h]
    exact .empty
  | cons p fields ih =>
    obtain ⟨key, v⟩ := p
    rw [Json.sortedFields] at h
    have hmem : (key, v.sorted) ∈ Json.sortedFields fields' := h.subset List.mem_cons_self
    rw [Json.sortedFields_eq_map] at hmem
    obtain ⟨⟨name, w⟩, hw, hpair⟩ := List.mem_map.mp hmem
    obtain ⟨rfl, hsorted⟩ := Prod.mk.inj hpair
    obtain ⟨before, after, rfl⟩ := List.append_of_mem hw
    refine .field (hsame _ List.mem_cons_self w hsorted.symm)
      (ih (fun q hq => hsame q (List.mem_cons_of_mem _ hq)) ?_)
    rw [Json.sortedFields_eq_map (before ++ _), List.map_append, List.map_cons] at h
    have hrest := (h.trans List.perm_middle)
    rw [hsorted] at hrest
    rw [Json.sortedFields_eq_map (before ++ after), List.map_append]
    exact hrest.cons_inv

theorem Json.same_of_sorted {v w : Json} (h : v.sorted = w.sorted) : v.Same w := by
  induction v using Json.induct generalizing w with
  | null => cases w <;> cases h; exact .null
  | bool b => cases w <;> cases h; exact .bool b
  | num n => cases w <;> cases h; exact .num n
  | str s => cases w <;> cases h; exact .str s
  | arr items ih =>
    cases w with
    | arr items' =>
      rw [Json.sorted, Json.sorted, Json.arr.injEq, Json.sortedItems_eq_map,
        Json.sortedItems_eq_map] at h
      induction items generalizing items' with
      | nil =>
        rw [List.map_nil] at h
        rw [List.map_eq_nil_iff.mp h.symm]
        exact .nil
      | cons v items ihs =>
        cases items' with
        | nil => cases h
        | cons w items' =>
          rw [List.map_cons, List.map_cons, List.cons.injEq] at h
          exact .cons (ih v List.mem_cons_self h.1)
            (ihs (fun u hu => ih u (List.mem_cons_of_mem _ hu)) items' h.2)
    | _ => cases h
  | obj fields ih =>
    cases w with
    | obj fields' =>
      rw [Json.sorted, Json.sorted, Json.obj.injEq] at h
      refine Json.same_fields (fun p hp w hw => ih p hp hw) ?_
      exact (sortEntries_perm _).symm.trans ((List.Perm.of_eq h).trans (sortEntries_perm _))
    | _ => cases h

/-! ## Sorting, assembling and copying together -/

section

variable {number : Number → Prop} {names : List String → Prop} {v w : Json}

theorem Json.Every.imp {number' : Number → Prop} {names' : List String → Prop}
    (h : v.Every number names) (hnumber : ∀ n, number n → number' n)
    (hnames : ∀ l, names l → names' l) : v.Every number' names' := by
  induction h with
  | null => exact .null
  | bool b => exact .bool b
  | num hn => exact .num (hnumber _ hn)
  | str s => exact .str s
  | arr _ ih => exact .arr ih
  | obj hl _ ih => exact .obj (hnames _ hl) ih

theorem Json.Every.sorted (hperm : ∀ l l' : List String, l.Perm l' → names l → names l')
    (h : v.Every number names) : v.sorted.Every number names := by
  induction h with
  | null => exact .null
  | bool b => exact .bool b
  | num hn => exact .num hn
  | str s => exact .str s
  | arr _ ih =>
    rw [Json.sorted, Json.sortedItems_eq_map]
    exact .arr (List.forall_mem_map.mpr ih)
  | @obj fields hl _ ih =>
    have hsort := sortEntries_perm (Json.sortedFields fields)
    rw [Json.sorted]
    refine .obj (hperm _ _ (hsort.map Prod.fst).symm ?_) fun p hp => ?_
    · rwa [Json.sortedFields_names]
    · have hp := hsort.subset hp
      rw [Json.sortedFields_eq_map] at hp
      obtain ⟨q, hq, rfl⟩ := List.mem_map.mp hp
      exact ih q hq

theorem Json.Every.copy (h : v.Every number names) : v.copy.Every number names := by
  induction h with
  | null => exact .null
  | bool b => exact .bool b
  | @num n hn =>
    cases n with
    | finite q => exact .num hn
    | infinite b => exact .null
  | str s => exact .str s
  | arr _ ih =>
    rw [Json.copy, Json.copyItems_eq_map]
    exact .arr (List.forall_mem_map.mpr ih)
  | @obj fields hl _ ih =>
    rw [Json.copy, Json.copyFields_eq_map]
    refine .obj ?_ (List.forall_mem_map.mpr ih)
    rw [List.map_map]
    exact hl

theorem Json.assembleItems_eq_map (items : List Json) :
    Json.assembleItems items = items.map Json.assemble := by
  induction items with
  | nil => rfl
  | cons item items ih => rw [Json.assembleItems, ih, List.map_cons]

theorem Json.assembleFields_eq_map (fields : List (String × Json)) :
    Json.assembleFields fields = fields.map fun p => (p.1, p.2.assemble) := by
  induction fields with
  | nil => rfl
  | cons p fields ih =>
    obtain ⟨key, v⟩ := p
    rw [Json.assembleFields, ih, List.map_cons]

theorem Json.assemble_obj (fields : List (String × Json)) :
    (Json.obj fields).assemble = .obj (fromEntries (fields.map fun p => (p.1, p.2.assemble))) := by
  rw [Json.assemble, Json.assembleFields_eq_map]
  rfl

/-- A value whose objects are in order is made of itself. -/
theorem Json.Every.assemble_eq (h : v.Every number InOrder) : v.assemble = v := by
  induction h with
  | null => rfl
  | bool b => rfl
  | num hn => rfl
  | str s => rfl
  | arr _ ih =>
    rw [Json.assemble, Json.assembleItems_eq_map, map_eq_self_iff.mpr ih]
  | @obj fields hl _ ih =>
    have hsame : (fields.map fun p => (p.1, p.2.assemble)) = fields :=
      map_eq_self_iff.mpr fun p hp => Prod.ext rfl (ih p hp)
    rw [Json.assemble_obj, hsame, fromEntries_inOrder hl]

/-- Assembling puts the names of every object in order. -/
theorem Json.Every.assemble (h : v.Every number names) : v.assemble.Every number InOrder := by
  induction h with
  | null => exact .null
  | bool b => exact .bool b
  | num hn => exact .num hn
  | str s => exact .str s
  | arr _ ih =>
    rw [Json.assemble, Json.assembleItems_eq_map]
    exact .arr (List.forall_mem_map.mpr ih)
  | @obj fields hl _ ih =>
    rw [Json.assemble_obj]
    refine .obj (fromEntries_names _) fun p hp => ?_
    obtain ⟨q, hq, rfl⟩ := List.mem_map.mp (mem_fromEntries hp)
    exact ih q hq

theorem Json.sorted_sorted (v : Json) (h : v.Distinct) : v.sorted.sorted = v.sorted := by
  induction h with
  | null => rfl
  | bool b => rfl
  | num hn => rfl
  | str s => rfl
  | arr _ ih =>
    rw [Json.sorted, Json.sorted, Json.sortedItems_eq_map, Json.sortedItems_eq_map, List.map_map,
      Json.arr.injEq]
    exact List.map_congr_left ih
  | @obj fields hl _ ih =>
    have hsame : (Json.sortedFields fields).map (fun p => (p.1, p.2.sorted)) =
        Json.sortedFields fields := by
      refine map_eq_self_iff.mpr fun p hp => ?_
      rw [Json.sortedFields_eq_map] at hp
      obtain ⟨q, hq, rfl⟩ := List.mem_map.mp hp
      exact Prod.ext rfl (ih q hq)
    rw [Json.sorted, Json.sorted, Json.sortedFields_eq_map (sortEntries _), sortEntries_map, hsame,
      Json.obj.injEq]
    exact sortEntries_congr (((sortEntries_perm _).map Prod.fst).nodup_iff.mpr
      (by rwa [Json.sortedFields_names])) (sortEntries_perm _)

theorem Json.sorted_assemble (h : v.Distinct) : v.assemble.sorted = v.sorted := by
  induction h with
  | null => rfl
  | bool b => rfl
  | num hn => rfl
  | str s => rfl
  | arr _ ih =>
    rw [Json.assemble, Json.sorted, Json.sorted, Json.assembleItems_eq_map,
      Json.sortedItems_eq_map, Json.sortedItems_eq_map, List.map_map, Json.arr.injEq]
    exact List.map_congr_left ih
  | @obj fields hl _ ih =>
    have hnames : (fields.map fun p => (p.1, p.2.assemble)).map Prod.fst = fields.map Prod.fst := by
      rw [List.map_map]
      rfl
    have hperm := (fromEntries_perm (hnames ▸ hl)).map fun p => (p.1, p.2.sorted)
    rw [List.map_map] at hperm
    rw [Json.assemble_obj, Json.sorted, Json.sorted, Json.obj.injEq, Json.sortedFields_eq_map,
      Json.sortedFields_eq_map]
    refine sortEntries_congr ?_ (hperm.trans (List.Perm.of_eq (List.map_congr_left fun p hp => ?_)))
    · rw [List.map_map]
      exact (fromEntries_names _).nodup
    · exact Prod.ext rfl (ih p hp)

theorem Json.copy_sorted (v : Json) : v.sorted.copy = v.copy.sorted := by
  induction v using Json.induct with
  | null => rfl
  | bool b => rfl
  | num n => cases n <;> rfl
  | str s => rfl
  | arr items ih =>
    rw [Json.sorted, Json.copy, Json.copy, Json.sorted, Json.copyItems_eq_map,
      Json.copyItems_eq_map, Json.sortedItems_eq_map, Json.sortedItems_eq_map, List.map_map,
      List.map_map, Json.arr.injEq]
    exact List.map_congr_left ih
  | obj fields ih =>
    rw [Json.sorted, Json.copy, Json.copy, Json.sorted, Json.copyFields_eq_map,
      Json.copyFields_eq_map, Json.sortedFields_eq_map, Json.sortedFields_eq_map, sortEntries_map,
      List.map_map, List.map_map, Json.obj.injEq]
    exact congrArg sortEntries (List.map_congr_left fun p hp => Prod.ext rfl (ih p hp))

theorem Json.chars_copy (engine : Engine) (v : Json) : v.copy.chars engine = v.chars engine := by
  have hitems : ∀ items : List Json, (∀ v ∈ items, v.copy.chars engine = v.chars engine) →
      Json.itemChars engine (Json.copyItems items) = Json.itemChars engine items := by
    intro items h
    induction items with
    | nil => rfl
    | cons item items ih =>
      rw [Json.copyItems, Json.itemChars, Json.itemChars, h item List.mem_cons_self,
        ih fun v hv => h v (List.mem_cons_of_mem _ hv)]
  have hfields : ∀ fields : List (String × Json),
      (∀ p ∈ fields, p.2.copy.chars engine = p.2.chars engine) →
      Json.fieldChars engine (Json.copyFields fields) = Json.fieldChars engine fields := by
    intro fields h
    induction fields with
    | nil => rfl
    | cons p fields ih =>
      obtain ⟨key, v⟩ := p
      rw [Json.copyFields, Json.fieldChars, Json.fieldChars, h (key, v) List.mem_cons_self,
        ih fun q hq => h q (List.mem_cons_of_mem _ hq)]
  induction v using Json.induct with
  | null => rfl
  | bool b => rfl
  | num n => cases n <;> rfl
  | str s => rfl
  | arr items ih => rw [Json.copy, Json.chars, Json.chars, hitems items ih]
  | obj fields ih => rw [Json.copy, Json.chars, Json.chars, hfields fields ih]

end

/-- A value as the language holds it: its objects are in order and its numbers have texts. -/
abbrev Json.Held (engine : Engine) : Json → Prop := Json.Every engine.Prints InOrder

theorem Json.Held.distinct {engine : Engine} {v : Json} (h : v.Held engine) : v.Distinct :=
  Json.Every.imp h (fun _ _ => trivial) fun _ hl => hl.nodup

/-- What is written reads back, with `null` for infinite numbers. -/
theorem jsonParse_stringify {engine : Engine} {v : Json} (h : v.Held engine) :
    jsonParse engine (jsonStringify engine v) = .ok v.copy := by
  have hread := @readJson_chars engine _ v h [] (by simp)
  rw [List.append_nil] at hread
  rw [jsonParse, jsonStringify, String.toList_ofList, hread]
  exact congrArg Except.ok h.copy.assemble_eq

/-- A value without infinite numbers is its own copy. -/
theorem Json.Every.copy_eq {names : List String → Prop} {v : Json}
    (h : v.Every (fun n => ∃ q, n = .finite q) names) : v.copy = v := by
  induction h with
  | null => rfl
  | bool b => rfl
  | num hn =>
    obtain ⟨q, rfl⟩ := hn
    rfl
  | str s => rfl
  | arr _ ih => exact Json.copy_arr.mpr ih
  | obj _ _ ih => exact Json.copy_obj.mpr ih

/-! ## What the reader makes -/

section

variable {engine : Engine}

/-- The numbers that texts stand for. -/
def Engine.Denoted (engine : Engine) (n : Number) : Prop :=
  ∃ s, engine.stringToNumber s = some n

/-- Every number of what is read stands in the text. -/
theorem reader_every (fuel : Nat) :
    (∀ cs v rest, readValue engine fuel cs = some (v, rest) →
      v.Every engine.Denoted fun _ => True) ∧
    (∀ cs items rest, readItems engine fuel cs = some (items, rest) →
      ∀ v ∈ items, v.Every engine.Denoted fun _ => True) ∧
    (∀ cs fields rest, readFields engine fuel cs = some (fields, rest) →
      ∀ p ∈ fields, p.2.Every engine.Denoted fun _ => True) := by
  induction fuel with
  | zero => refine ⟨?_, ?_, ?_⟩ <;> (intro _ _ _ h; cases h)
  | succ fuel ih =>
    obtain ⟨hvalue, hitems, hfields⟩ := ih
    refine ⟨fun cs v rest h => ?_, fun cs items rest h => ?_, fun cs fields rest h => ?_⟩
    · rw [readValue] at h
      split at h
      · cases h; exact .null
      · cases h; exact .bool true
      · cases h; exact .bool false
      · obtain ⟨⟨s, cs⟩, -, hmade⟩ := Option.map_eq_some_iff.mp h
        cases hmade
        exact .str s
      · split at h
        · cases h; exact .arr (List.forall_mem_nil _)
        · obtain ⟨⟨items, cs⟩, hread, hmade⟩ := Option.map_eq_some_iff.mp h
          cases hmade
          exact .arr (hitems _ _ _ hread)
      · split at h
        · cases h; exact .obj trivial (List.forall_mem_nil _)
        · obtain ⟨⟨fields, cs⟩, hread, hmade⟩ := Option.map_eq_some_iff.mp h
          cases hmade
          exact .obj trivial (hfields _ _ _ hread)
      · unfold readNumber at h
        dsimp only at h
        split at h
        · obtain ⟨n, hn, hmade⟩ := Option.map_eq_some_iff.mp h
          cases hmade
          exact .num ⟨_, hn⟩
        · cases h
    · rw [readItems] at h
      obtain ⟨⟨item, cs'⟩, hread, h⟩ := Option.bind_eq_some_iff.mp h
      have hitem := hvalue _ _ _ hread
      dsimp only at h
      split at h
      · obtain ⟨⟨items, cs⟩, hrest, hmade⟩ := Option.map_eq_some_iff.mp h
        cases hmade
        exact List.forall_mem_cons.mpr ⟨hitem, hitems _ _ _ hrest⟩
      · cases h
        exact List.forall_mem_singleton.mpr hitem
      · cases h
    · rw [readFields] at h
      split at h
      · obtain ⟨⟨key, cs'⟩, -, h⟩ := Option.bind_eq_some_iff.mp h
        dsimp only at h
        split at h
        · obtain ⟨⟨v, cs'⟩, hread, h⟩ := Option.bind_eq_some_iff.mp h
          have hv := hvalue _ _ _ hread
          dsimp only at h
          split at h
          · obtain ⟨⟨fields, cs⟩, hrest, hmade⟩ := Option.map_eq_some_iff.mp h
            cases hmade
            exact List.forall_mem_cons.mpr ⟨hv, hfields _ _ _ hrest⟩
          · cases h
            exact List.forall_mem_singleton.mpr hv
          · cases h
        · cases h
      · cases h

/-- What is parsed is held, when the numbers that texts stand for have texts themselves. -/
theorem held_of_jsonParse (hengine : ∀ n, engine.Denoted n → engine.Prints n) {s : String}
    {v : Json} (h : jsonParse engine s = .ok v) : v.Held engine := by
  unfold jsonParse at h
  split at h
  · next w hread =>
    obtain rfl := Except.ok.inj h
    obtain ⟨⟨w', rest⟩, hvalue, hdone⟩ := Option.bind_eq_some_iff.mp hread
    have hevery := (reader_every _).1 _ _ _ hvalue
    dsimp only at hdone
    split at hdone
    · cases hdone
      exact Json.Every.imp hevery.assemble hengine fun _ hl => hl
    · cases hdone
  · cases h

/-- What is written with indentation reads back, too. -/
theorem jsonParse_indented {v : Json} (h : v.Held engine) :
    jsonParse engine (jsonStringifyIndented engine v) = .ok v.copy := by
  have hread := @readJson_laidOut engine twoBlanks _ v h 0 [] (List.forall_mem_nil _)
  rw [List.append_nil] at hread
  rw [jsonParse, jsonStringifyIndented, String.toList_ofList, hread]
  exact congrArg Except.ok h.copy.assemble_eq

end

end JavaScript
