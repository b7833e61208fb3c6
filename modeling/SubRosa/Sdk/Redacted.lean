import SubRosa.Sdk.Envelope
import SubRosa.Sdk.Redact

/-!
# What redaction shows

With an empty keep list: which fields of a redacted value are hidden, when two
values redact alike, and the redacted receipt in closed form. Nested values and
bid entries have rules of their own.
-/

namespace SubRosa.Sdk

open JavaScript

/-- What a sensitive field may show. -/
def Hidden (v : Json) : Prop := v = .null ∨ v = redacted

/-! ## Nested values -/

section

variable {path path' : String}

/-- What a nested object shows of a field. -/
def shownField (childPath key : String) (val : Json) : Json :=
  if isSensitiveKey key && !isNull val then redacted else redactValue [] childPath val

theorem redactFields_cons (key : String) (val : Json) (fields : List (String × Json)) :
    ∃ childPath, redactFields [] path ((key, val) :: fields) =
      (key, shownField childPath key val) :: redactFields [] path fields := by
  refine ⟨if path = "" then key else path ++ "." ++ key, ?_⟩
  rw [redactFields, if_neg List.not_mem_nil]
  rfl

theorem redactArray_cons (i : Nat) (item : Json) (items : List Json) :
    ∃ itemPath, redactArray [] path i (item :: items) =
      redactValue [] itemPath item :: redactArray [] path (i + 1) items := by
  refine ⟨s!"{path}[{i}]", ?_⟩
  rw [redactArray, if_neg List.not_mem_nil]

theorem redactValue_obj (fields : List (String × Json)) :
    redactValue [] path (.obj fields) = .obj (redactFields [] path fields) := by
  rw [redactValue, if_neg List.not_mem_nil]

theorem shownField_sensitive {key : String} (hkey : isSensitiveKey key = true) (val : Json) :
    shownField path key val = if isNull val then .null else redacted := by
  unfold shownField
  by_cases hnull : isNull val = true
  · rw [if_pos hnull, isNull_iff.mp hnull, hkey]
    rfl
  · rw [if_neg hnull, if_pos]
    rw [hkey, Bool.true_and, Bool.not_eq_true']
    exact Bool.not_eq_true _ ▸ hnull

theorem shownField_other {key : String} (hkey : isSensitiveKey key = false) (val : Json) :
    shownField path key val = redactValue [] path val := by
  rw [shownField, hkey, Bool.false_and, if_neg Bool.false_ne_true]

/-! ### Coverage -/

theorem redactFields_hidden {fields : List (String × Json)}
    (ih : ∀ p ∈ fields, ∀ path, (redactValue [] path p.2).Marked isSensitiveKey Hidden) :
    ∀ q ∈ redactFields [] path fields, (isSensitiveKey q.1 = true → Hidden q.2) ∧
      (isSensitiveKey q.1 = false → q.2.Marked isSensitiveKey Hidden) := by
  induction fields with
  | nil => exact fun q hq => absurd hq List.not_mem_nil
  | cons p fields ihf =>
    obtain ⟨key, val⟩ := p
    rw [List.forall_mem_cons] at ih
    obtain ⟨childPath, hcons⟩ := @redactFields_cons path key val fields
    rw [hcons, List.forall_mem_cons]
    refine ⟨⟨fun hkey => ?_, fun hkey => ?_⟩, ihf ih.2⟩
    · rw [shownField_sensitive hkey]
      split
      · exact Or.inl rfl
      · exact Or.inr rfl
    · rw [shownField_other hkey]
      exact ih.1 childPath

theorem redactArray_hidden {items : List Json}
    (ih : ∀ v ∈ items, ∀ path, (redactValue [] path v).Marked isSensitiveKey Hidden) (i : Nat) :
    ∀ w ∈ redactArray [] path i items, w.Marked isSensitiveKey Hidden := by
  induction items generalizing i with
  | nil => exact fun w hw => absurd hw List.not_mem_nil
  | cons item items ihi =>
    rw [List.forall_mem_cons] at ih
    obtain ⟨itemPath, hcons⟩ := @redactArray_cons path i item items
    rw [hcons, List.forall_mem_cons]
    exact ⟨ih.1 itemPath, ihi ih.2 (i + 1)⟩

/-- Every sensitive field inside a redacted value is hidden. -/
theorem redactValue_hidden (v : Json) : (redactValue [] path v).Marked isSensitiveKey Hidden := by
  induction v using Json.induct generalizing path with
  | null => exact .null
  | bool b => exact .bool b
  | num n => exact .num n
  | str s => exact .str s
  | arr items ih => exact .arr (redactArray_hidden (fun v hv path => ih v hv) 0)
  | obj fields ih =>
    rw [redactValue_obj]
    have hfields := @redactFields_hidden path fields fun p hp path => @ih p hp path
    exact .obj (fun q hq => (hfields q hq).1) fun q hq => (hfields q hq).2

/-! ### What decides the result -/

theorem shown_eq_iff {v w : Json} :
    (if isNull v then Json.null else redacted) = (if isNull w then .null else redacted) ↔
      (v = .null ↔ w = .null) := by
  rw [← isNull_iff, ← isNull_iff]
  change _ ↔ (isNull v = true ↔ isNull w = true)
  cases isNull v <;> cases isNull w <;> simp [redacted]

theorem redactFields_eq_iff {fields fields' : List (String × Json)}
    (ih : ∀ p ∈ fields, ∀ path path' w, redactValue [] path p.2 = redactValue [] path' w ↔
      p.2.Alike isSensitiveKey w) :
    redactFields [] path fields = redactFields [] path' fields' ↔
      Json.AlikeFields isSensitiveKey fields fields' := by
  induction fields generalizing fields' with
  | nil =>
    cases fields' with
    | nil => simp [redactFields, Json.AlikeFields]
    | cons q fields' => simp [redactFields, Json.AlikeFields]
  | cons p fields ihf =>
    obtain ⟨key, v⟩ := p
    rw [List.forall_mem_cons] at ih
    obtain ⟨childPath, hcons⟩ := @redactFields_cons path key v fields
    cases fields' with
    | nil => simp [redactFields, Json.AlikeFields]
    | cons q fields' =>
      obtain ⟨key', w⟩ := q
      obtain ⟨childPath', hcons'⟩ := @redactFields_cons path' key' w fields'
      rw [hcons, hcons', Json.AlikeFields, List.cons.injEq, Prod.mk.injEq, ihf ih.2, and_assoc]
      refine and_congr_right fun hkey => and_congr_left fun _ => ?_
      subst hkey
      by_cases hsensitive : isSensitiveKey key = true
      · rw [shownField_sensitive hsensitive, shownField_sensitive hsensitive, shown_eq_iff,
          if_pos hsensitive]
      · have hother : isSensitiveKey key = false := by simpa using hsensitive
        rw [shownField_other hother, shownField_other hother, if_neg hsensitive, ih.1]

theorem redactArray_eq_iff {items items' : List Json}
    (ih : ∀ v ∈ items, ∀ path path' w, redactValue [] path v = redactValue [] path' w ↔
      v.Alike isSensitiveKey w) (i j : Nat) :
    redactArray [] path i items = redactArray [] path' j items' ↔
      Json.AlikeItems isSensitiveKey items items' := by
  induction items generalizing items' i j with
  | nil =>
    cases items' with
    | nil => simp [redactArray, Json.AlikeItems]
    | cons w items' => simp [redactArray, Json.AlikeItems]
  | cons v items ihi =>
    rw [List.forall_mem_cons] at ih
    obtain ⟨itemPath, hcons⟩ := @redactArray_cons path i v items
    cases items' with
    | nil => simp [redactArray, Json.AlikeItems]
    | cons w items' =>
      obtain ⟨itemPath', hcons'⟩ := @redactArray_cons path' j w items'
      rw [hcons, hcons', Json.AlikeItems, List.cons.injEq, ihi ih.2, ih.1]

/-- Two nested values look the same after redaction exactly when they differ in sensitive fields
only. -/
theorem redactValue_eq_iff {v w : Json} :
    redactValue [] path v = redactValue [] path' w ↔ v.Alike isSensitiveKey w := by
  induction v using Json.induct generalizing path path' w with
  | arr items ih =>
    cases w with
    | arr items' =>
      rw [redactValue, redactValue, Json.arr.injEq, Json.Alike]
      exact redactArray_eq_iff (fun v hv path path' w => ih v hv) 0 0
    | obj fields' => simp [redactValue, Json.Alike]
    | _ => simp [redactValue, Json.Alike]
  | obj fields ih =>
    cases w with
    | obj fields' =>
      rw [redactValue_obj, redactValue_obj, Json.obj.injEq, Json.Alike]
      exact redactFields_eq_iff fun p hp path path' w => ih p hp
    | _ => simp [redactValue, Json.Alike]
  | null => cases w <;> simp [redactValue, Json.Alike]
  | bool b => cases w <;> simp [redactValue, Json.Alike]
  | num n => cases w <;> simp [redactValue, Json.Alike]
  | str s => cases w <;> simp [redactValue, Json.Alike]

/-! ## Bid entries -/

/-- One of the two names an entry redacts. -/
def isEntryKey (key : String) : Bool := key = "ciphertext" || key = "auditorBlob"

/-- Two values of an entry that show the same: nested objects are redacted, arrays are not. -/
def ShowSame (v w : Json) : Prop :=
  v = w ∨ ∃ fields fields', v = .obj fields ∧ w = .obj fields' ∧
    Json.AlikeFields isSensitiveKey fields fields'

/-- Two fields of an entry that show the same. -/
def FieldsAgree (p q : String × Json) : Prop :=
  p.1 = q.1 ∧ if isEntryKey p.1 then p.2 = .null ↔ q.2 = .null else ShowSame p.2 q.2

theorem redactBidField_eq (p : String × Json) :
    redactBidField [] path p =
      (p.1, if isEntryKey p.1 && !isNull p.2 then redacted
        else match p.2 with
          | .obj fields => .obj (redactFields [] (path ++ "." ++ p.1) fields)
          | v => v) := by
  unfold redactBidField redactObject isEntryKey
  dsimp only
  rw [if_neg List.not_mem_nil]
  simp only [Bool.and_eq_true, Bool.or_eq_true, decide_eq_true_eq, Bool.not_eq_true']
  congr 2

theorem redactBidField_entry {p : String × Json} (hkey : isEntryKey p.1 = true) :
    redactBidField [] path p = (p.1, if isNull p.2 then .null else redacted) := by
  rw [redactBidField_eq, hkey]
  by_cases hnull : isNull p.2 = true
  · rw [hnull, isNull_iff.mp hnull]
    rfl
  · have hfalse : isNull p.2 = false := by simpa using hnull
    rw [hfalse]
    rfl

theorem redactBidField_other {p : String × Json} (hkey : isEntryKey p.1 = false) :
    redactBidField [] path p = (p.1, match p.2 with
      | .obj fields => .obj (redactFields [] (path ++ "." ++ p.1) fields)
      | v => v) := by
  rw [redactBidField_eq, hkey]
  rfl

theorem redactBidField_eq_iff {p q : String × Json} :
    redactBidField [] path p = redactBidField [] path' q ↔ FieldsAgree p q := by
  obtain ⟨key, v⟩ := p
  obtain ⟨key', w⟩ := q
  unfold FieldsAgree
  by_cases hkey : key = key'
  · subst hkey
    by_cases hentry : isEntryKey key = true
    · rw [redactBidField_entry hentry, redactBidField_entry hentry, Prod.mk.injEq, if_pos hentry,
        shown_eq_iff]
    · have hother : isEntryKey key = false := by simpa using hentry
      rw [redactBidField_other hother, redactBidField_other hother, Prod.mk.injEq, if_neg hentry]
      refine and_congr_right fun _ => ?_
      have hfields : ∀ fields fields' : List (String × Json), ∀ path path',
          (Json.obj (redactFields [] path fields) = .obj (redactFields [] path' fields')) ↔
            Json.AlikeFields isSensitiveKey fields fields' := by
        intro fields fields' path path'
        rw [← redactValue_obj, ← redactValue_obj, redactValue_eq_iff, Json.Alike]
      cases v with
      | obj fields =>
        cases w with
        | obj fields' =>
          refine (hfields fields fields' _ _).trans ⟨fun h => Or.inr ⟨_, _, rfl, rfl, h⟩, ?_⟩
          rintro (h | ⟨_, _, h, h', halike⟩)
          · cases h
            exact @Json.alike_refl isSensitiveKey (.obj fields)
          · cases h
            cases h'
            exact halike
        | _ => simp [ShowSame]
      | _ => cases w <;> simp [ShowSame]
  · simp [redactBidField_eq, hkey]

theorem redactBidEntry_obj (fields : List (String × Json)) :
    redactBidEntry [] (.obj fields) path = .ok (.obj (fields.map (redactBidField [] path))) := by
  rw [redactBidEntry, if_neg List.not_mem_nil]
  rfl

/-- Two entries that show the same. -/
def EntriesAgree (fields fields' : List (String × Json)) : Prop :=
  List.Forall₂ FieldsAgree fields fields'

theorem redactEntry_eq_iff {fields fields' : List (String × Json)} :
    fields.map (redactBidField [] path) = fields'.map (redactBidField [] path') ↔
      EntriesAgree fields fields' := by
  unfold EntriesAgree
  rw [← List.forall₂_eq_eq_eq, List.forall₂_map_left_iff, List.forall₂_map_right_iff]
  constructor
  · exact List.Forall₂.imp fun _ _ => redactBidField_eq_iff.mp
  · exact List.Forall₂.imp fun _ _ => redactBidField_eq_iff.mpr

end

/-! ## Placeholders -/

theorem placeholder_inj {i j : Nat} (h : placeholder i = placeholder j) : i = j := by
  have hlist : "<redacted:".toList ++ i.repr.toList ++ ">".toList =
      "<redacted:".toList ++ j.repr.toList ++ ">".toList := by
    have htext := congrArg String.toList h
    simp only [placeholder, String.toList_append] at htext
    exact htext
  have hdigits := List.append_cancel_left (List.append_cancel_right hlist)
  rw [Nat.toList_repr, Nat.toList_repr] at hdigits
  have hvalue := congrArg (fun cs => Nat.ofDigitChars 10 cs 0) hdigits
  simpa only [Nat.ofDigitChars_ten_toDigits] using hvalue

theorem indexName_placeholder (i : Nat) : indexName? (placeholder i) = none := by
  have hlist : (placeholder i).toList = '<' ::
      ("redacted:".toList ++ i.repr.toList ++ ">".toList) := by
    simp only [placeholder, String.toList_append]
    rfl
  have hdigits : digits? (placeholder i).toList = none := by
    rw [hlist, digits?, if_neg]
    rintro ⟨-, hall⟩
    rw [List.all_cons, Bool.and_eq_true] at hall
    exact absurd hall.1 (by decide)
  rw [indexName?, hdigits]
  rfl

/-! ## Receipts -/

def bidsField (bids : List (String × List (String × Json))) : Json :=
  .obj (bids.map fun b => (b.1, .obj b.2))

/-- A first-generation receipt, as far as its redaction depends on its shape: `bids` is an object
of objects; everything else is any JSON, and nothing is lost when it is written. -/
structure RoundReceipt where
  before : List (String × Json)
  bids : List (String × List (String × Json))
  after : List (String × Json)
  names : (before.map Prod.fst ++ "bids" :: after.map Prod.fst).Nodup
  bidNames : (bids.map Prod.fst).Nodup
  written : (Json.obj (before ++ ("bids", bidsField bids) :: after)).copy =
    .obj (before ++ ("bids", bidsField bids) :: after)

def RoundReceipt.fields (receipt : RoundReceipt) : List (String × Json) :=
  receipt.before ++ ("bids", bidsField receipt.bids) :: receipt.after

def RoundReceipt.json (receipt : RoundReceipt) : Json := .obj receipt.fields

/-- The entries from index `i` on, under their placeholders. -/
def redactedBids (i : Nat) : List (String × List (String × Json)) → List (String × Json)
  | [] => []
  | b :: bids =>
    (placeholder i, .obj (b.2.map (redactBidField [] ("bids." ++ b.1)))) ::
      redactedBids (i + 1) bids

theorem redactBids_eq {bids : List (String × List (String × Json))} {out : List (String × Json)}
    {i : Nat} (hout : ∀ j, i ≤ j → placeholder j ∉ out.map Prod.fst) :
    redactBids [] out i (bids.map fun b => (b.1, .obj b.2)) = .ok (out ++ redactedBids i bids) := by
  induction bids generalizing out i with
  | nil => simp [redactBids, redactedBids]
  | cons b bids ih =>
    have hkept : isKept [] b.1 = false := by simp [isKept]
    rw [List.map_cons, redactBids, hkept, redactBidEntry_obj, redactedBids]
    simp only [Bool.false_eq_true, if_false, bind_ok]
    rw [setField_new _ (hout i (le_refl i)) (indexName_placeholder i), ih, List.append_assoc]
    · rfl
    · intro j hj hmem
      rw [List.map_append, List.mem_append] at hmem
      rcases hmem with hmem | hmem
      · exact hout j (by omega) hmem
      · have heq := placeholder_inj (List.mem_singleton.mp hmem)
        omega

/-- The redacted receipt. -/
def RoundReceipt.redacted (receipt : RoundReceipt) : List (String × Json) :=
  receipt.before.map (fun p => (p.1, redactRootField [] p.1 p.2)) ++
    ("bids", .obj (redactedBids 0 receipt.bids)) ::
      receipt.after.map fun p => (p.1, redactRootField [] p.1 p.2)

theorem redactReceipt_eq (receipt : RoundReceipt) :
    redactReceipt [] receipt.json = .ok (.obj receipt.redacted) := by
  have hroot : ∀ p : String × Json, p.1 ≠ "bids" →
      (do return (p.1, ← redactRoot [] p.1 p.2) : Except Thrown (String × Json)) =
        .ok (p.1, redactRootField [] p.1 p.2) := by
    intro p hp
    rw [redactRoot, if_neg hp]
    rfl
  have hbids : redactRoot [] "bids" (bidsField receipt.bids) =
      .ok (.obj (redactedBids 0 receipt.bids)) := by
    have hredact := @redactBids_eq receipt.bids [] 0 fun _ _ => List.not_mem_nil
    rw [redactRoot, if_pos rfl, bidsField]
    simp only [entries, entriesOf, bind_ok, List.not_mem_nil, if_false, hredact, List.nil_append]
    rfl
  have hne := receipt.names
  rw [List.nodup_append, List.nodup_cons] at hne
  have hbefore := mapM_ok (l := receipt.before)
    (g := fun p => (p.1, redactRootField [] p.1 p.2)) fun p hp =>
      hroot p fun he => hne.2.2 _ (List.mem_map_of_mem hp) _ List.mem_cons_self he
  have hafter := mapM_ok (l := receipt.after)
    (g := fun p => (p.1, redactRootField [] p.1 p.2)) fun p hp =>
      hroot p fun he => hne.2.1.1 (he ▸ List.mem_map_of_mem hp)
  rw [redactReceipt, RoundReceipt.json, RoundReceipt.fields, receipt.written]
  simp only [entries, entriesOf, bind_ok, List.mapM_append, List.mapM_cons]
  rw [hbefore, hafter, hbids]
  rfl

/-- What the redacted receipt holds under the placeholder of an entry. -/
def redactedBid (i : Nat) (b : String × List (String × Json)) : String × Json :=
  (placeholder i, .obj (b.2.map (redactBidField [] ("bids." ++ b.1))))

theorem getElem_redactedBids {bids : List (String × List (String × Json))} (i k : Nat) :
    (redactedBids i bids)[k]? = bids[k]?.map (redactedBid (i + k)) := by
  induction bids generalizing i k with
  | nil => rfl
  | cons b bids ih =>
    cases k with
    | zero => rfl
    | succ k =>
      rw [redactedBids, List.getElem?_cons_succ, ih, List.getElem?_cons_succ]
      congr 2
      omega

theorem mem_redactedBids {bids : List (String × List (String × Json))} {e : String × Json} :
    e ∈ redactedBids 0 bids ↔ ∃ k b, bids[k]? = some b ∧ e = redactedBid k b := by
  rw [List.mem_iff_getElem?]
  refine exists_congr fun k => ?_
  rw [getElem_redactedBids, Option.map_eq_some_iff, Nat.zero_add]
  exact exists_congr fun b => and_congr_right fun _ => eq_comm

theorem fieldOf_redactedBids {bids : List (String × List (String × Json))} (i k : Nat) :
    fieldOf (redactedBids i bids) (placeholder (i + k)) =
      bids[k]?.map fun b => (redactedBid (i + k) b).2 := by
  induction bids generalizing i k with
  | nil => rfl
  | cons b bids ih =>
    cases k with
    | zero => simp [redactedBids, fieldOf, redactedBid]
    | succ k =>
      have hne : placeholder i ≠ placeholder (i + (k + 1)) := by
        intro he
        have := placeholder_inj he
        omega
      have hshift : i + (k + 1) = (i + 1) + k := by omega
      rw [hshift] at hne ⊢
      rw [List.getElem?_cons_succ, ← ih]
      simp [redactedBids, fieldOf, hne]

end SubRosa.Sdk
