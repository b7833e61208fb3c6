import SubRosa.Library.JsonOrder

/-!
# Writing with a replacer

`JSON.stringify` with a function that may replace each value before it is
written, from the outside in.
-/

namespace JavaScript

mutual

/-- How deep a value is nested. -/
def Json.depth : Json → Nat
  | .arr items => Json.itemsDepth items + 1
  | .obj fields => Json.fieldsDepth fields + 1
  | _ => 0

def Json.itemsDepth : List Json → Nat
  | [] => 0
  | item :: items => max item.depth (Json.itemsDepth items)

def Json.fieldsDepth : List (String × Json) → Nat
  | [] => 0
  | (_, v) :: fields => max v.depth (Json.fieldsDepth fields)

end

theorem Json.depth_le_items {items : List Json} {v : Json} (h : v ∈ items) :
    v.depth ≤ Json.itemsDepth items := by
  induction items with
  | nil => cases h
  | cons item items ih =>
    rw [Json.itemsDepth]
    rcases List.mem_cons.mp h with rfl | h
    · exact le_max_left _ _
    · exact (ih h).trans (le_max_right _ _)

theorem Json.depth_le_fields {fields : List (String × Json)} {p : String × Json} (h : p ∈ fields) :
    p.2.depth ≤ Json.fieldsDepth fields := by
  induction fields with
  | nil => cases h
  | cons q fields ih =>
    obtain ⟨key, v⟩ := q
    rw [Json.fieldsDepth]
    rcases List.mem_cons.mp h with rfl | h
    · exact le_max_left _ _
    · exact (ih h).trans (le_max_right _ _)

section

variable (engine : Engine) (replacer : Json → Json)

/-- The characters of `JSON.stringify(v, replacer)` for a value nested at most that deep. -/
def replacedChars : Nat → Json → List Char
  | 0, v => (replacer v).chars engine
  | fuel + 1, v =>
    match replacer v with
    | .arr items => '[' :: (commas (items.map (replacedChars fuel)) ++ [']'])
    | .obj fields =>
      '\x7b' ::
        (commas (fields.map fun p => quoted p.1 ++ ':' :: replacedChars fuel p.2) ++ ['\x7d'])
    | w => w.chars engine

/-- `JSON.stringify(v, replacer)`. -/
def stringifyWith (v : Json) : String := String.ofList (replacedChars engine replacer v.depth v)

end

theorem Json.itemChars_eq_map (engine : Engine) (items : List Json) :
    Json.itemChars engine items = items.map fun v => v.chars engine := by
  induction items with
  | nil => rfl
  | cons item items ih => rw [Json.itemChars, ih, List.map_cons]

theorem Json.fieldChars_eq_map (engine : Engine) (fields : List (String × Json)) :
    Json.fieldChars engine fields = fields.map fun p => quoted p.1 ++ ':' :: p.2.chars engine := by
  induction fields with
  | nil => rfl
  | cons p fields ih =>
    obtain ⟨key, v⟩ := p
    rw [Json.fieldChars, ih, List.map_cons]

/-- **Replacing from the outside in.** A replacer that works on the fields of objects writes the
value in which it has worked on every object. -/
theorem replacedChars_eq {engine : Engine} {replacer whole : Json → Json}
    (hatom : ∀ v, v.depth = 0 → replacer v = v ∧ whole v = v)
    (harr : ∀ items, replacer (.arr items) = .arr items ∧
      whole (.arr items) = .arr (items.map whole))
    (hobj : ∀ fields, ∃ fields', replacer (.obj fields) = .obj fields' ∧
      whole (.obj fields) = .obj (fields'.map fun p => (p.1, whole p.2)) ∧
      ∀ p ∈ fields', p ∈ fields)
    {fuel : Nat} : ∀ {v : Json}, v.depth ≤ fuel →
      replacedChars engine replacer fuel v = (whole v).chars engine := by
  induction fuel with
  | zero =>
    intro v h
    obtain ⟨hreplacer, hwhole⟩ := hatom v (Nat.le_zero.mp h)
    rw [replacedChars, hreplacer, hwhole]
  | succ fuel ih =>
    intro v h
    have hkept : v.depth = 0 → replacedChars engine replacer (fuel + 1) v =
        (whole v).chars engine := by
      intro hdepth
      obtain ⟨hreplacer, hwhole⟩ := hatom v hdepth
      rw [replacedChars, hreplacer, hwhole]
      cases v with
      | arr items => exact absurd hdepth (Nat.succ_ne_zero _)
      | obj fields => exact absurd hdepth (Nat.succ_ne_zero _)
      | _ => rfl
    cases v with
    | arr items =>
      obtain ⟨hreplacer, hwhole⟩ := harr items
      have hitems : items.map (replacedChars engine replacer fuel) =
          (items.map whole).map fun v => v.chars engine := by
        rw [List.map_map]
        exact List.map_congr_left fun v hv =>
          ih ((Json.depth_le_items hv).trans (Nat.le_of_succ_le_succ h))
      rw [replacedChars, hreplacer, hwhole, Json.chars, Json.itemChars_eq_map, ← hitems]
    | obj fields =>
      obtain ⟨fields', hreplacer, hwhole, hmem⟩ := hobj fields
      have hfields : (fields'.map fun p =>
          quoted p.1 ++ ':' :: replacedChars engine replacer fuel p.2) =
          (fields'.map fun p => (p.1, whole p.2)).map fun p =>
          quoted p.1 ++ ':' :: p.2.chars engine := by
        rw [List.map_map]
        refine List.map_congr_left fun p hp => ?_
        rw [ih ((Json.depth_le_fields (hmem p hp)).trans (Nat.le_of_succ_le_succ h))]
        rfl
      rw [replacedChars, hreplacer, hwhole, Json.chars, Json.fieldChars_eq_map, ← hfields]
    | _ => exact hkept rfl

end JavaScript
