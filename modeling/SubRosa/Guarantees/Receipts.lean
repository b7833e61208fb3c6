import SubRosa.Sdk.Serialize

/-!
# Canonical serialisation of receipts

Receipts that differ in the order of fields have one text; it reads back as the
receipt, and a text of the serialiser is that of what it reads back as. An
infinite number is written as `null`.
-/

namespace SubRosa.Sdk

open JavaScript

section

variable {engine : Engine} {r s : Json}

theorem serializeReceipt_eq (engine : Engine) (r : Json) :
    (serializeReceipt engine r).toList = r.sorted.assemble.chars engine ++ ['\n'] := by
  rw [serializeReceipt, String.toList_append, toList_stringifyWith_sortKeys]
  rfl

/-- The objects of a receipt as it is written. -/
theorem held_written (h : r.Held engine) : (r.sorted.assemble).Held engine := by
  have hsorted : r.sorted.Every engine.Prints List.Nodup :=
    (h.imp (fun _ hn => hn) fun _ hl => hl.nodup).sorted fun _ _ hl => hl.nodup_iff.mp
  exact hsorted.assemble

/-- **One text.** -/
theorem serializeReceipt_congr (h : r.Held engine) (hsame : r.Same s) :
    serializeReceipt engine r = serializeReceipt engine s := by
  apply String.toList_inj.mp
  rw [serializeReceipt_eq, serializeReceipt_eq, hsame.sorted h.distinct]

/-- **Reading back.** -/
theorem parse_serializeReceipt (h : r.Held engine) :
    parseReceipt engine (serializeReceipt engine r) = .ok r.sorted.assemble.copy := by
  have hread := @readJson_chars engine _ _ (held_written h) ['\n'] (by simp [isJsonSpace])
  rw [parseReceipt, jsonParse, serializeReceipt_eq, hread]
  exact congrArg Except.ok (held_written h).copy.assemble_eq

theorem sorted_written (h : r.Held engine) : r.sorted.assemble.copy.sorted = r.copy.sorted := by
  have hdistinct : r.sorted.Distinct :=
    h.distinct.sorted fun _ _ hl => hl.nodup_iff.mp
  rw [← Json.copy_sorted, Json.sorted_assemble hdistinct, r.sorted_sorted h.distinct,
    Json.copy_sorted]

theorem copy_assemble (v : Json) : v.assemble.copy = v.copy.assemble := by
  induction v using Json.induct with
  | null => rfl
  | bool b => rfl
  | num n => cases n <;> rfl
  | str s => rfl
  | arr items ih =>
    rw [Json.assemble, Json.copy, Json.copy, Json.assemble, Json.copyItems_eq_map,
      Json.copyItems_eq_map, Json.assembleItems_eq_map, Json.assembleItems_eq_map, List.map_map,
      List.map_map, Json.arr.injEq]
    exact List.map_congr_left ih
  | obj fields ih =>
    rw [Json.assemble_obj, Json.copy, Json.copy, Json.assemble_obj, Json.copyFields_eq_map,
      Json.copyFields_eq_map, ← fromEntries_map Json.copy, List.map_map, List.map_map,
      Json.obj.injEq]
    exact congrArg fromEntries (List.map_congr_left fun p hp => Prod.ext rfl (ih p hp))

/-- **The same text again.** -/
theorem serialize_parsed (h : r.Held engine) :
    serializeReceipt engine r.sorted.assemble.copy = serializeReceipt engine r := by
  apply String.toList_inj.mp
  rw [serializeReceipt_eq, serializeReceipt_eq, sorted_written h, ← Json.copy_sorted,
    ← copy_assemble, Json.chars_copy]

end

/-- A serialiser with its parser. -/
def Canonical (engine : Engine) (serialize : Json → String) (parse : String → Except Thrown Json) :
    Prop :=
  (∀ r s, r.Held engine → s.Held engine → r.Same s → serialize r = serialize s) ∧
  (∀ r, r.Held engine → ∃ r', parse (serialize r) = .ok r' ∧ r'.Same r.copy) ∧
  ∀ r j, r.Held engine → j = serialize r → ∀ r', parse j = .ok r' → serialize r' = j

/-- **Canonical receipt serialisation**, an infinite number being written as `null`. -/
theorem receipts_canonical (engine : Engine) :
    Canonical engine (serializeReceipt engine) (parseReceipt engine) ∧
      Canonical engine (serializeReceiptV2 engine) (parseReceiptV2 engine) := by
  have hcanonical : Canonical engine (serializeReceipt engine) (parseReceipt engine) := by
    refine ⟨fun r s hr _ hsame => serializeReceipt_congr hr hsame,
      fun r hr => ⟨_, parse_serializeReceipt hr, Json.same_of_sorted (sorted_written hr)⟩, ?_⟩
    rintro r j hr rfl r' hparse
    rw [parse_serializeReceipt hr] at hparse
    rw [← Except.ok.inj hparse]
    exact serialize_parsed hr
  exact ⟨hcanonical, hcanonical⟩

namespace SampleText

/-- An object of two fields, in this order or turned around. -/
def pair (key key' : String) (v w : Json) : Json := .obj [(key, v), (key', w)]

theorem pair_held {key key' : String} {v w : Json} (hkeys : InOrder [key, key'])
    (hv : v.Held silentEngine) (hw : w.Held silentEngine) : (pair key key' v w).Held silentEngine :=
  .obj hkeys (List.forall_mem_cons.mpr ⟨hv, List.forall_mem_singleton.mpr hw⟩)

theorem pair_same {key key' : String} {v v' w w' : Json} (hv : v.Same v') (hw : w.Same w') :
    (pair key' key w v).Same (pair key key' v' w') :=
  @Json.Same.field _ _ _ _ [(key, v')] [] hw (@Json.Same.field _ _ _ _ [] [] hv .empty)

/-- A receipt with one sealed bid. -/
def ordered : Json :=
  pair "bids" "winner" (.obj [("GA", pair "commitment" "nonce" (.str "00") .null)]) (.str "GA")

/-- The same with its fields turned around, those of the bid as well. -/
def turned : Json :=
  pair "winner" "bids" (.str "GA") (.obj [("GA", pair "nonce" "commitment" .null (.str "00"))])

theorem single_held {v : Json} (hv : v.Held silentEngine) :
    (Json.obj [("GA", v)]).Held silentEngine :=
  .obj (List.pairwise_singleton _ _) (List.forall_mem_singleton.mpr hv)

theorem ordered_held : ordered.Held silentEngine :=
  pair_held (by unfold InOrder; decide +kernel)
    (single_held (pair_held (by unfold InOrder; decide +kernel) (.str _) .null)) (.str _)

theorem turned_held : turned.Held silentEngine :=
  pair_held (by unfold InOrder; decide +kernel) (.str _)
    (single_held (pair_held (by unfold InOrder; decide +kernel) .null (.str _)))

theorem turned_same : turned.Same ordered :=
  pair_same (@Json.Same.field _ _ _ _ [] [] (pair_same (.str _) .null) .empty) (.str _)

/-- A field with an infinite number. -/
def endless : Json := .obj [("maxParticipants", .num (.infinite false))]

theorem endless_held : endless.Held silentEngine :=
  .obj (List.pairwise_singleton _ _) (List.forall_mem_singleton.mpr (.num trivial))

end SampleText

open SampleText in
theorem receipts_canonical_sample :
    serializeReceipt silentEngine turned = serializeReceipt silentEngine ordered :=
  (receipts_canonical silentEngine).1.1 _ _ turned_held ordered_held turned_same

open SampleText in
/-- What is written `1e999` reads back as `null`. -/
theorem endless_reads_null : endless.Held silentEngine ∧
    parseReceipt silentEngine (serializeReceipt silentEngine endless) =
      .ok (.obj [("maxParticipants", .null)]) ∧
    ¬ (Json.obj [("maxParticipants", .null)]).Same endless := by
  have hone : ∀ v : Json, (Json.obj [("maxParticipants", v)]).sorted =
      .obj [("maxParticipants", v.sorted)] := by
    intro v
    rw [Json.sorted, Json.sortedFields_eq_map, List.map_singleton, sortEntries,
      List.mergeSort_singleton]
  refine ⟨endless_held, ?_, fun hsame => ?_⟩
  · rw [parse_serializeReceipt endless_held, endless, hone]
    rfl
  · have hdistinct : (Json.obj [("maxParticipants", .null)]).Distinct :=
      .obj (List.nodup_singleton _) (List.forall_mem_singleton.mpr .null)
    have hsorted := hsame.sorted hdistinct
    rw [endless, hone, hone] at hsorted
    cases hsorted

end SubRosa.Sdk
