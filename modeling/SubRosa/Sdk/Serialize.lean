import SubRosa.Library.JsonReplacer

/-!
# Canonical receipts

`serializeReceipt` and `parseReceipt` of `receipt.ts`, and their copies for
structured receipts in `receipt-v2.ts`, on any JSON value.
-/

namespace SubRosa.Sdk

open JavaScript

/-- The replacer: the entries of an object sorted by name. -/
def sortKeys : Json → Json
  | .obj fields => .obj (fromEntries (sortEntries fields))
  | v => v

/-- Serialise a receipt to canonical JSON. -/
def serializeReceipt (engine : Engine) (receipt : Json) : String :=
  stringifyWith engine sortKeys receipt ++ "\n"

/-- Parse a receipt from its canonical JSON form. -/
def parseReceipt (engine : Engine) (json : String) : Except Thrown Json := jsonParse engine json

def serializeReceiptV2 (engine : Engine) (receipt : Json) : String :=
  stringifyWith engine sortKeys receipt ++ "\n"

def parseReceiptV2 (engine : Engine) (json : String) : Except Thrown Json := jsonParse engine json

theorem setField_map (g : Json → Json) (fields : List (String × Json)) (key : String) (v : Json) :
    setField (fields.map fun p => (p.1, g p.2)) key (g v) =
      (setField fields key v).map fun p => (p.1, g p.2) := by
  have hany : ((fields.map fun p => (p.1, g p.2)).any fun p => p.1 = key) =
      fields.any fun p => p.1 = key := by
    rw [List.any_map]
    rfl
  unfold setField
  rw [hany]
  split
  · rw [List.map_map, List.map_map]
    refine List.map_congr_left fun p _ => ?_
    show (if p.1 = key then (key, g v) else (p.1, g p.2)) = _
    by_cases hp : p.1 = key <;> simp [hp]
  · rw [List.map_append, List.map_cons, List.takeWhile_map, List.dropWhile_map]
    rfl

theorem fromEntries_map (g : Json → Json) (entries : List (String × Json)) :
    fromEntries (entries.map fun p => (p.1, g p.2)) =
      (fromEntries entries).map fun p => (p.1, g p.2) := by
  have hfold : ∀ made : List (String × Json),
      (entries.map fun p => (p.1, g p.2)).foldl (fun made p => setField made p.1 p.2)
          (made.map fun p => (p.1, g p.2)) =
        (entries.foldl (fun made p => setField made p.1 p.2) made).map fun p => (p.1, g p.2) := by
    induction entries with
    | nil => exact fun made => rfl
    | cons p entries ih =>
      intro made
      rw [List.map_cons, List.foldl_cons, List.foldl_cons, setField_map]
      exact ih _
  exact hfold []

/-- The text of a receipt is that of the receipt with all its fields sorted and its objects made
anew. -/
theorem toList_stringifyWith_sortKeys (engine : Engine) (v : Json) :
    (stringifyWith engine sortKeys v).toList = v.sorted.assemble.chars engine := by
  rw [stringifyWith, String.toList_ofList]
  refine @replacedChars_eq engine sortKeys (fun v => v.sorted.assemble) (fun v h => ?_)
    (fun items => ⟨rfl, ?_⟩) (fun fields => ⟨_, rfl, ?_, fun p hp => ?_⟩) _ _ le_rfl
  · cases v with
    | arr items => exact absurd h (Nat.succ_ne_zero _)
    | obj fields => exact absurd h (Nat.succ_ne_zero _)
    | _ => exact ⟨rfl, rfl⟩
  · show (Json.arr items).sorted.assemble = _
    rw [Json.sorted, Json.assemble, Json.assembleItems_eq_map, Json.sortedItems_eq_map,
      List.map_map]
    rfl
  · show (Json.obj fields).sorted.assemble = _
    rw [Json.sorted, Json.assemble_obj, Json.sortedFields_eq_map, sortEntries_map, List.map_map,
      ← fromEntries_map (fun v => v.sorted.assemble)]
    exact congrArg (fun entries => Json.obj (fromEntries entries))
      (sortEntries_map (fun v => v.sorted.assemble) fields).symm
  · exact (sortEntries_perm _).subset (mem_fromEntries hp)

end SubRosa.Sdk
