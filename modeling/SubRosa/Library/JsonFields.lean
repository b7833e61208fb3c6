import Mathlib.Data.List.TakeWhile
import SubRosa.Library.JavaScript

/-!
# Fields of a JSON value, at any depth

Induction over JSON values, copying through their text, assignment of a field,
and what can be said about the fields whose names are marked: whether all of
them satisfy a property, which values differ in them only, and the value with
all of them overwritten. Nothing is said about the inside of a marked field.
-/

namespace JavaScript

/-- Induction over a JSON value. -/
theorem Json.induct {motive : Json → Prop} (null : motive .null) (bool : ∀ b, motive (.bool b))
    (num : ∀ n, motive (.num n)) (str : ∀ s, motive (.str s))
    (arr : ∀ items, (∀ v ∈ items, motive v) → motive (.arr items))
    (obj : ∀ fields, (∀ p ∈ fields, motive p.2) → motive (.obj fields)) (v : Json) : motive v := by
  refine @Json.rec motive (fun items => ∀ v ∈ items, motive v)
    (fun fields => ∀ p ∈ fields, motive p.2) (fun p => motive p.2)
    null bool num str arr obj ?_ ?_ ?_ ?_ ?_ v
  · exact fun v hv => absurd hv List.not_mem_nil
  · exact fun item items hitem hitems => List.forall_mem_cons.mpr ⟨hitem, hitems⟩
  · exact fun p hp => absurd hp List.not_mem_nil
  · exact fun p fields hp hfields => List.forall_mem_cons.mpr ⟨hp, hfields⟩
  · exact fun _ _ hv => hv

/-! ## Copies -/

mutual

/-- `JSON.parse(JSON.stringify(v))`: an infinite number is written as `null`. -/
def Json.copy : Json → Json
  | .num (.infinite _) => .null
  | .arr items => .arr (Json.copyItems items)
  | .obj fields => .obj (Json.copyFields fields)
  | v => v

def Json.copyItems : List Json → List Json
  | [] => []
  | item :: items => item.copy :: Json.copyItems items

def Json.copyFields : List (String × Json) → List (String × Json)
  | [] => []
  | (key, v) :: fields => (key, v.copy) :: Json.copyFields fields

end

theorem Json.copyItems_eq_map (items : List Json) : Json.copyItems items = items.map Json.copy := by
  induction items with
  | nil => rfl
  | cons item items ih => rw [Json.copyItems, ih, List.map_cons]

theorem Json.copyFields_eq_map (fields : List (String × Json)) :
    Json.copyFields fields = fields.map fun p => (p.1, p.2.copy) := by
  induction fields with
  | nil => rfl
  | cons p fields ih =>
    obtain ⟨key, v⟩ := p
    rw [Json.copyFields, ih, List.map_cons]

theorem map_eq_self_iff {α : Type} {f : α → α} {l : List α} : l.map f = l ↔ ∀ a ∈ l, f a = a := by
  induction l with
  | nil => simp
  | cons a l ih => simp [ih]

theorem Json.copy_arr {items : List Json} :
    (Json.arr items).copy = .arr items ↔ ∀ v ∈ items, v.copy = v := by
  rw [Json.copy, Json.copyItems_eq_map, Json.arr.injEq, map_eq_self_iff]

theorem Json.copy_obj {fields : List (String × Json)} :
    (Json.obj fields).copy = .obj fields ↔ ∀ p ∈ fields, p.2.copy = p.2 := by
  rw [Json.copy, Json.copyFields_eq_map, Json.obj.injEq, map_eq_self_iff]
  refine forall₂_congr fun p _ => ?_
  rw [Prod.ext_iff]
  simp

/-! ## Assignment -/

/-- The index of an array that a name stands for. -/
def indexName? (key : String) : Option Nat :=
  (digits? key.toList).filter fun n => n.repr = key ∧ n < 2 ^ 32 - 1

/-- An index comes before the names that are none and before larger indices. -/
def precedes (key other : String) : Bool :=
  match indexName? key, indexName? other with
  | some i, some j => i < j
  | some _, none => true
  | none, _ => false

/-- `fields[key] = v`, with the fields in the order of `Object.keys`. -/
def setField {α : Type} (fields : List (String × α)) (key : String) (v : α) : List (String × α) :=
  if fields.any fun p => p.1 = key then fields.map fun p => if p.1 = key then (key, v) else p
  else fields.takeWhile (fun p => !precedes key p.1) ++
    (key, v) :: fields.dropWhile fun p => !precedes key p.1

theorem setField_new {α : Type} {fields : List (String × α)} {key : String} (v : α)
    (hnew : key ∉ fields.map Prod.fst) (hindex : indexName? key = none) :
    setField fields key v = fields ++ [(key, v)] := by
  have hany : (fields.any fun p => p.1 = key) = false := by
    rw [List.any_eq_false]
    intro p hp
    rw [decide_eq_true_eq]
    exact fun he => hnew (he ▸ List.mem_map_of_mem hp)
  have hall : ∀ p ∈ fields, (!precedes key p.1) = true := by
    intro p _
    rw [precedes, hindex]
    rfl
  have htake : fields.takeWhile (fun p => !precedes key p.1) = fields :=
    List.takeWhile_eq_self_iff.mpr hall
  have hdrop : fields.dropWhile (fun p => !precedes key p.1) = [] :=
    List.dropWhile_eq_nil_iff.mpr hall
  rw [setField, hany, if_neg Bool.false_ne_true, htake, hdrop]

/-! ## Reading fields -/

theorem fieldOf_cons (k key : String) (v : Json) (fields : List (String × Json)) :
    fieldOf ((k, v) :: fields) key = if k = key then some v else fieldOf fields key := by
  by_cases h : k = key
  · simp [fieldOf, h]
  · simp [fieldOf, h]

/-- A field of an object, when no prototype has the name. -/
theorem property_obj {engine : Engine} {fields : List (String × Json)} {key : String}
    (h : key ∉ objectPrototype) : property engine (.obj fields) key = fieldOf fields key := by
  rw [property, ownProperty]
  cases fieldOf fields key with
  | some w => rfl
  | none => simp [inherited, h]

theorem fieldOf_append (fields rest : List (String × Json)) (key : String) :
    fieldOf (fields ++ rest) key = (fieldOf fields key).or (fieldOf rest key) := by
  rw [fieldOf, fieldOf, fieldOf, List.find?_append, Option.map_or]

theorem fieldOf_none {fields : List (String × Json)} {key : String}
    (h : key ∉ fields.map Prod.fst) : fieldOf fields key = none := by
  have hnone : fields.find? (fun p => p.1 = key) = none := by
    rw [List.find?_eq_none]
    intro p hp he
    exact h (decide_eq_true_eq.mp he ▸ List.mem_map_of_mem hp)
  rw [fieldOf, hnone, Option.map_none]

theorem fieldOf_eq_some {fields : List (String × Json)} {key : String} {v : Json}
    (h : (fields.map Prod.fst).Nodup) : fieldOf fields key = some v ↔ (key, v) ∈ fields := by
  constructor
  · intro hfield
    obtain ⟨p, hp, rfl⟩ := Option.map_eq_some_iff.mp hfield
    have hkey : p.1 = key := by simpa using List.find?_some hp
    rw [← hkey]
    exact List.mem_of_find?_eq_some hp
  · intro hmem
    cases hfind : fields.find? (fun p => p.1 = key) with
    | none =>
      rw [List.find?_eq_none] at hfind
      exact absurd (decide_eq_true rfl) (hfind _ hmem)
    | some p =>
      have hkey : p.1 = key := by simpa using List.find?_some hfind
      have heq := List.inj_on_of_nodup_map h (List.mem_of_find?_eq_some hfind) hmem hkey
      rw [fieldOf, hfind, heq, Option.map_some]

/-- A lookup does not see the order of distinct names. -/
theorem fieldOf_perm {fields fields' : List (String × Json)} (h : (fields.map Prod.fst).Nodup)
    (hperm : fields.Perm fields') (key : String) : fieldOf fields key = fieldOf fields' key := by
  have h' : (fields'.map Prod.fst).Nodup := (hperm.map Prod.fst).nodup_iff.mp h
  ext v
  rw [fieldOf_eq_some h, fieldOf_eq_some h', hperm.mem_iff]

theorem fieldOf_map (g : String → Json → Json) (fields : List (String × Json)) (key : String) :
    fieldOf (fields.map fun p => (p.1, g p.1 p.2)) key = (fieldOf fields key).map (g key) := by
  induction fields with
  | nil => rfl
  | cons p fields ih =>
    by_cases hkey : p.1 = key
    · simp [fieldOf, hkey]
    · simpa [fieldOf, hkey] using ih

/-! ## Marked fields -/

section

variable (marked : String → Bool)

/-- Every marked field satisfies `P`. -/
inductive Json.Marked (P : Json → Prop) : Json → Prop
  | null : Marked P .null
  | bool (b : Bool) : Marked P (.bool b)
  | num (n : Number) : Marked P (.num n)
  | str (s : String) : Marked P (.str s)
  | arr {items : List Json} : (∀ v ∈ items, Marked P v) → Marked P (.arr items)
  | obj {fields : List (String × Json)} : (∀ p ∈ fields, marked p.1 = true → P p.2) →
      (∀ p ∈ fields, marked p.1 = false → Marked P p.2) → Marked P (.obj fields)

mutual

/-- The values differ in marked fields only, and those are `null` at the same places. -/
def Json.Alike : Json → Json → Prop
  | .arr items, .arr items' => Json.AlikeItems items items'
  | .obj fields, .obj fields' => Json.AlikeFields fields fields'
  | v, w => v = w

def Json.AlikeItems : List Json → List Json → Prop
  | [], [] => True
  | v :: items, w :: items' => Json.Alike v w ∧ Json.AlikeItems items items'
  | _, _ => False

def Json.AlikeFields : List (String × Json) → List (String × Json) → Prop
  | [], [] => True
  | (key, v) :: fields, (key', w) :: fields' =>
    key = key' ∧ (if marked key then v = .null ↔ w = .null else Json.Alike v w) ∧
      Json.AlikeFields fields fields'
  | _, _ => False

end

mutual

/-- Every marked field that is not `null` becomes the text `s`. -/
def Json.overwrite (s : String) : Json → Json
  | .arr items => .arr (Json.overwriteItems s items)
  | .obj fields => .obj (Json.overwriteFields s fields)
  | v => v

def Json.overwriteItems (s : String) : List Json → List Json
  | [] => []
  | item :: items => item.overwrite s :: Json.overwriteItems s items

def Json.overwriteFields (s : String) : List (String × Json) → List (String × Json)
  | [] => []
  | (key, v) :: fields =>
    (key, if marked key then (if strictEq (some v) (some .null) then .null else .str s)
      else v.overwrite s) :: Json.overwriteFields s fields

end

end

section

variable {marked : String → Bool}

theorem Json.overwriteItems_eq_map (s : String) (items : List Json) :
    Json.overwriteItems marked s items = items.map (Json.overwrite marked s) := by
  induction items with
  | nil => rfl
  | cons item items ih => rw [Json.overwriteItems, ih, List.map_cons]

/-- One field of an overwritten object. -/
def overwriteField (marked : String → Bool) (s : String) (p : String × Json) : String × Json :=
  (p.1, if marked p.1 then (if strictEq (some p.2) (some .null) then .null else .str s)
    else p.2.overwrite marked s)

theorem Json.overwriteFields_eq_map (s : String) (fields : List (String × Json)) :
    Json.overwriteFields marked s fields = fields.map (overwriteField marked s) := by
  induction fields with
  | nil => rfl
  | cons p fields ih =>
    obtain ⟨key, v⟩ := p
    rw [Json.overwriteFields, ih, List.map_cons]
    rfl

theorem Json.alikeItems_iff {items items' : List Json} :
    Json.AlikeItems marked items items' ↔ List.Forall₂ (Json.Alike marked) items items' := by
  induction items generalizing items' with
  | nil => cases items' <;> simp [Json.AlikeItems]
  | cons v items ih => cases items' <;> simp [Json.AlikeItems, ih]

/-- Two fields that may differ only where it is marked. -/
def AlikeField (marked : String → Bool) (p q : String × Json) : Prop :=
  p.1 = q.1 ∧ if marked p.1 then p.2 = .null ↔ q.2 = .null else p.2.Alike marked q.2

theorem Json.alikeFields_iff {fields fields' : List (String × Json)} :
    Json.AlikeFields marked fields fields' ↔
      List.Forall₂ (AlikeField marked) fields fields' := by
  induction fields generalizing fields' with
  | nil => cases fields' <;> simp [Json.AlikeFields]
  | cons p fields ih =>
    cases fields' with
    | nil => simp [Json.AlikeFields]
    | cons q fields' => simp [Json.AlikeFields, ih, AlikeField, and_assoc]

theorem isNull_iff {v : Json} : strictEq (some v) (some .null) = true ↔ v = .null := by
  cases v <;> simp [strictEq]

theorem Json.alike_refl (v : Json) : v.Alike marked v := by
  induction v using Json.induct with
  | null => rfl
  | bool b => rfl
  | num n => rfl
  | str s => rfl
  | arr items ih =>
    rw [Json.Alike, Json.alikeItems_iff, List.forall₂_same]
    exact ih
  | obj fields ih =>
    rw [Json.Alike, Json.alikeFields_iff, List.forall₂_same]
    intro p hp
    refine ⟨rfl, ?_⟩
    split
    · rfl
    · exact ih p hp

theorem Json.alike_overwrite (s : String) (v : Json) : v.Alike marked (v.overwrite marked s) := by
  induction v using Json.induct with
  | null => rfl
  | bool b => rfl
  | num n => rfl
  | str t => rfl
  | arr items ih =>
    rw [Json.overwrite, Json.Alike, Json.alikeItems_iff, Json.overwriteItems_eq_map,
      List.forall₂_map_right_iff, List.forall₂_same]
    exact ih
  | obj fields ih =>
    rw [Json.overwrite, Json.Alike, Json.alikeFields_iff, Json.overwriteFields_eq_map,
      List.forall₂_map_right_iff, List.forall₂_same]
    intro p hp
    refine ⟨rfl, ?_⟩
    by_cases hmarked : marked p.1 = true
    · rw [if_pos hmarked, overwriteField, if_pos hmarked]
      by_cases hnull : p.2 = .null
      · simp [hnull, strictEq]
      · have hno : ¬ strictEq (some p.2) (some .null) = true := mt isNull_iff.mp hnull
        rw [if_neg hno]
        simp [hnull]
    · rw [if_neg hmarked, overwriteField, if_neg hmarked]
      exact ih p hp

theorem Json.Marked.mono {P Q : Json → Prop} (hpq : ∀ v, P v → Q v) {v : Json}
    (h : v.Marked marked P) : v.Marked marked Q := by
  induction h with
  | null => exact .null
  | bool b => exact .bool b
  | num n => exact .num n
  | str s => exact .str s
  | arr _ ih => exact .arr ih
  | obj hmarked _ ih => exact .obj (fun p hp hkey => hpq _ (hmarked p hp hkey)) ih

/-- What an overwritten text does not satisfy, only a value whose marked fields are all `null`
satisfies after overwriting. -/
theorem Json.marked_of_overwrite {P : Json → Prop} {s : String} (hs : ¬ P (.str s)) {v : Json}
    (h : (v.overwrite marked s).Marked marked P) : v.Marked marked (· = .null) := by
  induction v using Json.induct with
  | null => exact .null
  | bool b => exact .bool b
  | num n => exact .num n
  | str t => exact .str t
  | arr items ih =>
    rw [Json.overwrite, Json.overwriteItems_eq_map] at h
    cases h with
    | arr hitems => exact .arr fun v hv => ih v hv (hitems _ (List.mem_map_of_mem hv))
  | obj fields ih =>
    rw [Json.overwrite, Json.overwriteFields_eq_map] at h
    cases h with
    | obj hmarked hrest =>
      refine .obj (fun p hp hkey => ?_) fun p hp hkey => ?_
      · have hfield := hmarked _ (List.mem_map_of_mem hp) hkey
        by_contra hnull
        have hno : ¬ strictEq (some p.2) (some .null) = true := mt isNull_iff.mp hnull
        rw [overwriteField, if_pos hkey, if_neg hno] at hfield
        exact hs hfield
      · have hfield := hrest _ (List.mem_map_of_mem hp) hkey
        rw [overwriteField, hkey, if_neg Bool.false_ne_true] at hfield
        exact ih p hp hfield

theorem forall₂_imp_mem {α β : Type} {I J : α → β → Prop} {l : List α} {l' : List β}
    (h : ∀ a ∈ l, ∀ b, I a b → J a b) (hl : List.Forall₂ I l l') : List.Forall₂ J l l' := by
  induction hl with
  | nil => exact .nil
  | cons hab _ ih =>
    rw [List.forall_mem_cons] at h
    exact .cons (h.1 _ hab) (ih h.2)

theorem eq_of_forall₂ {α : Type} {I : α → α → Prop} {l l' : List α}
    (h : ∀ a ∈ l, ∀ b, I a b → b = a) (hl : List.Forall₂ I l l') : l' = l := by
  induction hl with
  | nil => rfl
  | cons hab _ ih =>
    rw [List.forall_mem_cons] at h
    rw [h.1 _ hab, ih h.2]

/-- A value whose marked fields are all `null` differs from nothing else. -/
theorem Json.eq_of_alike {v w : Json} (h : v.Marked marked (· = .null)) (hvw : v.Alike marked w) :
    w = v := by
  induction v using Json.induct generalizing w with
  | null => exact hvw.symm
  | bool b => exact hvw.symm
  | num n => exact hvw.symm
  | str t => exact hvw.symm
  | arr items ih =>
    cases h with
    | arr hitems =>
      cases w with
      | arr items' =>
        rw [Json.Alike, Json.alikeItems_iff] at hvw
        rw [eq_of_forall₂ (fun v hv w hvw => ih v hv (hitems v hv) hvw) hvw]
      | _ => cases hvw
  | obj fields ih =>
    cases h with
    | obj hmarked hrest =>
      cases w with
      | obj fields' =>
        rw [Json.Alike, Json.alikeFields_iff] at hvw
        rw [eq_of_forall₂ (fun p hp q hpq => ?_) hvw]
        obtain ⟨hkey, hvalue⟩ := hpq
        by_cases hmark : marked p.1 = true
        · rw [if_pos hmark] at hvalue
          have hnull := hmarked p hp hmark
          exact Prod.ext hkey.symm ((hvalue.mp hnull).trans hnull.symm)
        · rw [if_neg hmark] at hvalue
          exact Prod.ext hkey.symm (ih p hp (hrest p hp (Bool.not_eq_true _ ▸ hmark)) hvalue)
      | _ => cases hvw

theorem Json.copy_overwrite {s : String} {v : Json} (h : v.copy = v) :
    (v.overwrite marked s).copy = v.overwrite marked s := by
  induction v using Json.induct with
  | null => rfl
  | bool b => rfl
  | num n => exact h
  | str t => rfl
  | arr items ih =>
    rw [Json.overwrite, Json.overwriteItems_eq_map, Json.copy_arr]
    intro w hw
    obtain ⟨v, hv, rfl⟩ := List.mem_map.mp hw
    exact ih v hv (Json.copy_arr.mp h v hv)
  | obj fields ih =>
    rw [Json.overwrite, Json.overwriteFields_eq_map, Json.copy_obj]
    intro q hq
    obtain ⟨p, hp, rfl⟩ := List.mem_map.mp hq
    unfold overwriteField
    split
    · split
      · rfl
      · rfl
    · exact ih p hp (Json.copy_obj.mp h p hp)

end

end JavaScript
