import SubRosa.Sdk.Accepted
import SubRosa.Sdk.Redacted

/-!
# What redaction covers

Nested objects and arrays are redacted at any depth. A bid entry has rules of
its own: they know two of the sensitive names, and they do not look into
arrays. With an empty keep list redaction hides all sensitive fields exactly
when no entry has more of them than those two. The placeholders of bidders and
bids agree exactly when both come in the same order.
-/

namespace SubRosa.Sdk

open JavaScript

/-! ## Coverage -/

/-- What a redacted field of the receipt may show. -/
def CoveredField (p : String × Json) : Prop :=
  if p.1 = "bids" then
    ∃ bids, p.2 = .obj bids ∧ ∀ b ∈ bids, b.2.Marked isSensitiveKey Hidden
  else if isSensitiveKey p.1 then
    Hidden p.2 ∨ ∃ n, p.2 = .arr ((List.range n).map fun i => .str (placeholder i))
  else p.2.Marked isSensitiveKey Hidden

/-- Two fields of a receipt that differ in sensitive values only, and not in the bidders. -/
def RootAlike (p q : String × Json) : Prop :=
  if p.1 = "bidders" then p = q else AlikeField isSensitiveKey p q

/-- Receipts that differ in non-null values of sensitive fields only, outside the bidders. -/
structure RoundReceipt.Varies (receipt other : RoundReceipt) : Prop where
  before : List.Forall₂ RootAlike receipt.before other.before
  bids : List.Forall₂ (fun b c => b.1 = c.1 ∧ List.Forall₂ (AlikeField isSensitiveKey) b.2 c.2)
    receipt.bids other.bids
  after : List.Forall₂ RootAlike receipt.after other.after

/-- The redacted receipt hides every sensitive value and every name of a bid, and depends on no
sensitive value. -/
structure Covered (receipt : RoundReceipt) (out : List (String × Json)) : Prop where
  hidden : ∀ p ∈ out, CoveredField p
  names : ∀ bids, fieldOf out "bids" = some (.obj bids) →
    ∀ b ∈ receipt.bids, b.1 ∉ bids.map Prod.fst
  independent : ∀ other, receipt.Varies other → redactReceipt [] other.json = .ok (.obj out)

/-- An entry has sensitive values only where redaction looks for them, and no name of a bid is a
placeholder. -/
structure RoundReceipt.Redactable (receipt : RoundReceipt) : Prop where
  fields : ∀ b ∈ receipt.bids, ∀ p ∈ b.2, isEntryKey p.1 = false →
    (isSensitiveKey p.1 = true → p.2 = .null) ∧
      ∀ items, p.2 = .arr items → (Json.arr items).Marked isSensitiveKey (· = .null)
  names : ∀ b ∈ receipt.bids, ∀ i < receipt.bids.length, b.1 ≠ placeholder i

theorem isSensitiveKey_entry {key : String} (h : isEntryKey key = true) :
    isSensitiveKey key = true := by
  unfold isEntryKey at h
  rw [Bool.or_eq_true, decide_eq_true_eq, decide_eq_true_eq] at h
  rcases h with rfl | rfl
  · decide
  · decide

theorem redactRootField_covered {key : String} (hkey : key ≠ "bids") (val : Json) :
    CoveredField (key, redactRootField [] key val) := by
  have hother : ∀ v, CoveredField (key, redactOtherField [] key v) := by
    intro v
    unfold CoveredField redactOtherField
    rw [if_neg hkey, if_neg List.not_mem_nil]
    by_cases hsensitive : isSensitiveKey key = true
    · rw [if_pos hsensitive, if_pos hsensitive]
      exact Or.inl (Or.inr rfl)
    · rw [if_neg hsensitive, if_neg hsensitive]
      exact redactValue_hidden v
  unfold redactRootField
  split
  · next bidders =>
    split
    · next hbidders =>
      subst hbidders
      rw [if_neg List.not_mem_nil]
      unfold CoveredField
      rw [if_neg hkey, if_pos (show isSensitiveKey "bidders" = true by decide)]
      exact Or.inr ⟨_, rfl⟩
    · exact hother _
  · exact hother _

/-- The top level shows nothing of what may vary. -/
theorem redactRootField_eq {p q : String × Json} (h : RootAlike p q) :
    (p.1, redactRootField [] p.1 p.2) = (q.1, redactRootField [] q.1 q.2) := by
  unfold RootAlike at h
  split at h
  · rw [h]
  · next hbidders =>
    obtain ⟨hkey, hvalue⟩ := h
    have hroot : ∀ v, redactRootField [] p.1 v = redactOtherField [] p.1 v := by
      intro v
      cases v with
      | arr items => rw [redactRootField, if_neg hbidders]
      | _ => rfl
    rw [← hkey, hroot, hroot, redactOtherField, redactOtherField, if_neg List.not_mem_nil,
      if_neg List.not_mem_nil]
    split
    · rfl
    · next hsensitive =>
      rw [if_neg hsensitive] at hvalue
      rw [redactValue_eq_iff.mpr hvalue]

/-- A field of an entry with nothing to leak. -/
theorem redactBidField_covered {path : String} {p : String × Json}
    (h : isEntryKey p.1 = false → (isSensitiveKey p.1 = true → p.2 = .null) ∧
      ∀ items, p.2 = .arr items → (Json.arr items).Marked isSensitiveKey (· = .null)) :
    (isSensitiveKey p.1 = true → Hidden (redactBidField [] path p).2) ∧
      (isSensitiveKey p.1 = false → (redactBidField [] path p).2.Marked isSensitiveKey Hidden) := by
  by_cases hentry : isEntryKey p.1 = true
  · rw [redactBidField_entry hentry]
    refine ⟨fun _ => ?_, fun hkey => ?_⟩
    · by_cases hnull : isNull p.2 = true
      · exact Or.inl (if_pos hnull)
      · exact Or.inr (if_neg hnull)
    · rw [isSensitiveKey_entry hentry] at hkey
      cases hkey
  · have hother : isEntryKey p.1 = false := by simpa using hentry
    obtain ⟨hnull, harr⟩ := h hother
    rw [redactBidField_other hother]
    refine ⟨fun hkey => ?_, fun _ => ?_⟩
    · rw [hnull hkey]
      exact Or.inl rfl
    · cases hp : p.2 with
      | obj fields =>
        dsimp only
        rw [← redactValue_obj]
        exact redactValue_hidden _
      | arr items => exact (harr items hp).mono fun _ => Or.inl
      | null => exact .null
      | bool b => exact .bool b
      | num n => exact .num n
      | str s => exact .str s

theorem fieldsAgree_of_alike {p q : String × Json}
    (h : isEntryKey p.1 = false → (isSensitiveKey p.1 = true → p.2 = .null) ∧
      ∀ items, p.2 = .arr items → (Json.arr items).Marked isSensitiveKey (· = .null))
    (halike : AlikeField isSensitiveKey p q) : FieldsAgree p q := by
  obtain ⟨hkey, hvalue⟩ := halike
  refine ⟨hkey, ?_⟩
  by_cases hentry : isEntryKey p.1 = true
  · rw [if_pos hentry]
    rw [if_pos (isSensitiveKey_entry hentry)] at hvalue
    exact hvalue
  · rw [if_neg hentry]
    obtain ⟨hnull, harr⟩ := h (by simpa using hentry)
    by_cases hsensitive : isSensitiveKey p.1 = true
    · rw [if_pos hsensitive] at hvalue
      exact Or.inl ((hnull hsensitive).trans (hvalue.mp (hnull hsensitive)).symm)
    · rw [if_neg hsensitive] at hvalue
      cases hp : p.2 with
      | obj fields =>
        rw [hp] at hvalue
        cases hq : q.2 with
        | obj fields' =>
          rw [hq, Json.Alike] at hvalue
          exact Or.inr ⟨_, _, rfl, rfl, hvalue⟩
        | _ =>
          rw [hq] at hvalue
          cases hvalue
      | arr items =>
        rw [hp] at hvalue
        exact Or.inl (Json.eq_of_alike (harr items hp) hvalue).symm
      | _ =>
        rw [hp] at hvalue
        exact Or.inl hvalue

theorem fieldOf_bids (receipt : RoundReceipt) :
    fieldOf receipt.redacted "bids" = some (.obj (redactedBids 0 receipt.bids)) := by
  have hbefore : "bids" ∉ (receipt.before.map fun p =>
      (p.1, redactRootField [] p.1 p.2)).map Prod.fst := by
    rw [List.map_map]
    exact fun hmem => (List.nodup_append.mp receipt.names).2.2 _ hmem _ List.mem_cons_self rfl
  rw [RoundReceipt.redacted, fieldOf_append, fieldOf_none hbefore]
  rfl

theorem redactedBids_eq {bids bids' : List (String × List (String × Json))}
    (h : List.Forall₂ (fun b c => b.1 = c.1 ∧ EntriesAgree b.2 c.2) bids bids') (i : Nat) :
    redactedBids i bids = redactedBids i bids' := by
  induction h generalizing i with
  | nil => rfl
  | cons hb _ ih => rw [redactedBids, redactedBids, ih, hb.1, redactEntry_eq_iff.mpr hb.2]

/-- Receipts that vary in sensitive values redact alike, where their entries show the same. -/
theorem redacted_eq {receipt other : RoundReceipt}
    (hbefore : List.Forall₂ RootAlike receipt.before other.before)
    (hafter : List.Forall₂ RootAlike receipt.after other.after)
    (hbids : List.Forall₂ (fun b c => b.1 = c.1 ∧ EntriesAgree b.2 c.2) receipt.bids other.bids) :
    receipt.redacted = other.redacted := by
  have hroot : ∀ {fields fields' : List (String × Json)}, List.Forall₂ RootAlike fields fields' →
      (fields.map fun p => (p.1, redactRootField [] p.1 p.2)) =
        fields'.map fun p => (p.1, redactRootField [] p.1 p.2) := by
    intro fields fields' h
    rw [← List.forall₂_eq_eq_eq, List.forall₂_map_left_iff, List.forall₂_map_right_iff]
    exact h.imp fun _ _ => redactRootField_eq
  rw [RoundReceipt.redacted, RoundReceipt.redacted, hroot hbefore, hroot hafter,
    redactedBids_eq hbids]

/-- The receipt with every sensitive value of its entries overwritten. -/
def RoundReceipt.overwritten (receipt : RoundReceipt) (s : String) : RoundReceipt where
  before := receipt.before
  bids := receipt.bids.map fun b => (b.1, b.2.map (overwriteField isSensitiveKey s))
  after := receipt.after
  names := receipt.names
  bidNames := by
    rw [List.map_map]
    exact receipt.bidNames
  written := by
    have hwritten := Json.copy_obj.mp receipt.written
    rw [Json.copy_obj]
    intro p hp
    rcases List.mem_append.mp hp with hp | hp
    · exact hwritten p (List.mem_append_left _ hp)
    rcases List.mem_cons.mp hp with rfl | hp
    · have hbids := hwritten ("bids", bidsField receipt.bids)
        (List.mem_append_right _ List.mem_cons_self)
      rw [bidsField, Json.copy_obj] at hbids ⊢
      intro q hq
      rw [List.map_map] at hq
      obtain ⟨b, hb, rfl⟩ := List.mem_map.mp hq
      have hover := @Json.copy_overwrite isSensitiveKey s _
        (hbids _ (List.mem_map_of_mem hb))
      rw [Json.overwrite, Json.overwriteFields_eq_map] at hover
      exact hover
    · exact hwritten p (List.mem_append_right _ (List.mem_cons_of_mem _ hp))

theorem rootAlike_refl (fields : List (String × Json)) : List.Forall₂ RootAlike fields fields := by
  rw [List.forall₂_same]
  intro p _
  unfold RootAlike
  split
  · rfl
  · refine ⟨rfl, ?_⟩
    split
    · rfl
    · exact Json.alike_refl p.2

theorem varies_overwritten (receipt : RoundReceipt) (s : String) :
    receipt.Varies (receipt.overwritten s) where
  before := rootAlike_refl _
  after := rootAlike_refl _
  bids := by
    rw [RoundReceipt.overwritten, List.forall₂_map_right_iff, List.forall₂_same]
    intro b _
    refine ⟨rfl, ?_⟩
    have halike := @Json.alike_overwrite isSensitiveKey s (.obj b.2)
    rw [Json.overwrite, Json.Alike, Json.alikeFields_iff, Json.overwriteFields_eq_map] at halike
    exact halike

/-- An overwritten field that is covered had nothing to leak. -/
theorem nothing_to_leak {path : String} {p : String × Json} (hentry : isEntryKey p.1 = false)
    (h : (isSensitiveKey p.1 = true →
        Hidden (redactBidField [] path (overwriteField isSensitiveKey "leak" p)).2) ∧
      (isSensitiveKey p.1 = false →
        (redactBidField [] path (overwriteField isSensitiveKey "leak" p)).2.Marked isSensitiveKey
          Hidden)) :
    (isSensitiveKey p.1 = true → p.2 = .null) ∧
      ∀ items, p.2 = .arr items → (Json.arr items).Marked isSensitiveKey (· = .null) := by
  have hleak : ¬ Hidden (.str "leak") := by simp [Hidden, redacted]
  have hfield : (overwriteField isSensitiveKey "leak" p).1 = p.1 := rfl
  rw [redactBidField_other (hfield ▸ hentry)] at h
  have hnull : isSensitiveKey p.1 = true → p.2 = .null := by
    intro hkey
    by_contra hno
    have hover : (overwriteField isSensitiveKey "leak" p).2 = .str "leak" := by
      rw [overwriteField, if_pos hkey, if_neg (mt isNull_iff.mp hno)]
    have hshown := h.1 hkey
    rw [hover] at hshown
    exact hleak hshown
  refine ⟨hnull, fun items hitems => ?_⟩
  by_cases hkey : isSensitiveKey p.1 = true
  · rw [hnull hkey] at hitems
    cases hitems
  · have hother : isSensitiveKey p.1 = false := by simpa using hkey
    have hover : (overwriteField isSensitiveKey "leak" p).2 =
        (Json.arr items).overwrite isSensitiveKey "leak" := by
      rw [overwriteField, if_neg hkey, hitems]
    have hshown := h.2 hother
    rw [hover] at hshown
    exact Json.marked_of_overwrite hleak hshown

/-- Where every field of the redacted receipt is covered, so is every field of its entries. -/
theorem redacted_entry_covered {receipt : RoundReceipt}
    (h : ∀ p ∈ receipt.redacted, CoveredField p) {k : Nat} {b : String × List (String × Json)}
    (hb : receipt.bids[k]? = some b) :
    ∀ p ∈ b.2, (isSensitiveKey p.1 = true →
        Hidden (redactBidField [] ("bids." ++ b.1) p).2) ∧
      (isSensitiveKey p.1 = false →
        (redactBidField [] ("bids." ++ b.1) p).2.Marked isSensitiveKey Hidden) := by
  have hfield := h ("bids", .obj (redactedBids 0 receipt.bids)) (by simp [RoundReceipt.redacted])
  rw [CoveredField, if_pos rfl] at hfield
  obtain ⟨bids, hbids, hall⟩ := hfield
  cases hbids
  have hentry := hall _ (mem_redactedBids.mpr ⟨k, b, hb, rfl⟩)
  intro p hp
  have hname : (redactBidField [] ("bids." ++ b.1) p).1 = p.1 := rfl
  cases hentry with
  | obj hmarked hrest =>
    exact ⟨fun hkey => hmarked _ (List.mem_map_of_mem hp) hkey,
      fun hkey => hrest _ (List.mem_map_of_mem hp) hkey⟩

section

variable {receipt : RoundReceipt}
  (hfields : ∀ b ∈ receipt.bids, ∀ p ∈ b.2, isEntryKey p.1 = false →
    (isSensitiveKey p.1 = true → p.2 = .null) ∧
      ∀ items, p.2 = .arr items → (Json.arr items).Marked isSensitiveKey (· = .null))

include hfields

theorem covered_redacted : ∀ p ∈ receipt.redacted, CoveredField p := by
  have hne := receipt.names
  rw [List.nodup_append, List.nodup_cons] at hne
  intro p hp
  rcases List.mem_append.mp hp with hp | hp
  · obtain ⟨q, hq, rfl⟩ := List.mem_map.mp hp
    exact redactRootField_covered
      (fun he => hne.2.2 _ (List.mem_map_of_mem hq) _ List.mem_cons_self he) _
  rcases List.mem_cons.mp hp with rfl | hp
  · rw [CoveredField, if_pos rfl]
    refine ⟨_, rfl, fun e he => ?_⟩
    obtain ⟨k, b, hk, rfl⟩ := mem_redactedBids.mp he
    have hb := List.mem_of_getElem? hk
    refine .obj (fun q hq hkey => ?_) fun q hq hkey => ?_
    · obtain ⟨p, hp, rfl⟩ := List.mem_map.mp hq
      exact (redactBidField_covered (hfields b hb p hp)).1 hkey
    · obtain ⟨p, hp, rfl⟩ := List.mem_map.mp hq
      exact (redactBidField_covered (hfields b hb p hp)).2 hkey
  · obtain ⟨q, hq, rfl⟩ := List.mem_map.mp hp
    exact redactRootField_covered (fun he => hne.2.1.1 (he ▸ List.mem_map_of_mem hq)) _

theorem agree_of_varies {bids : List (String × List (String × Json))}
    (h : List.Forall₂ (fun b c => b.1 = c.1 ∧ List.Forall₂ (AlikeField isSensitiveKey) b.2 c.2)
      receipt.bids bids) :
    List.Forall₂ (fun b c => b.1 = c.1 ∧ EntriesAgree b.2 c.2) receipt.bids bids := by
  generalize receipt.bids = own at h hfields
  induction h with
  | nil => exact .nil
  | cons hb _ ih =>
    rw [List.forall_mem_cons] at hfields
    exact .cons ⟨hb.1, forall₂_imp_mem (fun p hp q => fieldsAgree_of_alike (hfields.1 p hp)) hb.2⟩
      (ih hfields.2)

end

/-- **Redaction covers every sensitive field.** With an empty keep list the redacted receipt hides
every sensitive value and every name of a bid, and depends on no sensitive value, if and only if
each entry has its sensitive values where redaction looks for them. -/
theorem redaction_covers_iff (receipt : RoundReceipt) :
    (∃ out, redactReceipt [] receipt.json = .ok (.obj out) ∧ Covered receipt out) ↔
      receipt.Redactable := by
  have hnames : (∀ bids, fieldOf receipt.redacted "bids" = some (.obj bids) →
      ∀ b ∈ receipt.bids, b.1 ∉ bids.map Prod.fst) ↔
      ∀ b ∈ receipt.bids, ∀ i < receipt.bids.length, b.1 ≠ placeholder i := by
    rw [fieldOf_bids]
    constructor
    · intro h b hb i hi he
      refine h _ rfl b hb (List.mem_map.mpr ⟨_, mem_redactedBids.mpr ⟨i, receipt.bids[i], ?_, rfl⟩,
        he.symm⟩)
      exact List.getElem?_eq_getElem hi
    · rintro h bids heq b hb hmem
      cases heq
      obtain ⟨e, he, hname⟩ := List.mem_map.mp hmem
      obtain ⟨k, c, hk, rfl⟩ := mem_redactedBids.mp he
      exact h b hb k (List.getElem?_eq_some_iff.mp hk).1 hname.symm
  constructor
  · rintro ⟨out, hout, hcovered⟩
    rw [redactReceipt_eq, Except.ok.injEq, Json.obj.injEq] at hout
    subst hout
    refine ⟨fun b hb p hp hentry => ?_, hnames.mp hcovered.names⟩
    -- the receipt with overwritten entries redacts to the same, so it is covered too
    have hsame := hcovered.independent _ (varies_overwritten receipt "leak")
    rw [redactReceipt_eq, Except.ok.injEq, Json.obj.injEq] at hsame
    obtain ⟨k, hk⟩ := List.getElem?_of_mem hb
    have hentryField := redacted_entry_covered (hsame ▸ hcovered.hidden)
      (k := k) (b := (b.1, b.2.map (overwriteField isSensitiveKey "leak")))
      (by rw [RoundReceipt.overwritten, List.getElem?_map, hk]; rfl)
    exact nothing_to_leak hentry (hentryField _ (List.mem_map_of_mem hp))
  · intro hredactable
    refine ⟨receipt.redacted, redactReceipt_eq receipt, covered_redacted hredactable.fields,
      hnames.mpr hredactable.names, fun other hvaries => ?_⟩
    rw [redactReceipt_eq, ← redacted_eq hvaries.before hvaries.after]
    exact agree_of_varies hredactable.fields hvaries.bids

namespace SampleRedaction

def sha256 (_ : Bytes) : BytesN 32 := BytesN.fill 32 0

def zeros : String := "0000000000000000000000000000000000000000000000000000000000000000"

/-- A sealed bid with a memo. -/
def sealedBid (escrow memo : String) : List (String × Json) :=
  [("commitment", .str zeros), ("escrow", .str escrow), ("revealedValue", .null),
    ("nonce", .null), ("hashValid", .null), ("valid", .bool false), ("settled", .bool false),
    ("evidence", .obj [("ciphertext", .str "00"), ("auditorBlob", .str "00")]),
    ("memo", .str memo)]

/-- A receipt read back from its canonical JSON: the bids are sorted, the bidders are not. -/
def receipt : RoundReceipt where
  before :=
    [("auditorPubkey", .str "00"), ("bidders", .arr [.str "GB", .str "GA"])]
  bids := [("GA", sealedBid "10" "desk 1"), ("GB", sealedBid "20" "desk 2")]
  after :=
    [("clearingRule", .str "HighestBid"), ("commitDeadline", .str "1050"),
      ("contractId", .str "C1"), ("exportedAt", .str "2026-01-01T00:00:00.000Z"),
      ("itemRef", .str zeros), ("network", .str "N"), ("networkFingerprint", .str zeros),
      ("operator", .str "GO"), ("revealDeadline", .str "2000"), ("revealRound", .num 3),
      ("roundId", .str "1"), ("status", .str "Open"), ("version", .num 1), ("winner", .null),
      ("winningValue", .null)]
  names := by decide
  bidNames := by decide
  written := rfl

end SampleRedaction

open SampleRedaction in
/-- The memo of a bid stays in the redacted receipt. -/
theorem redaction_leaks :
    ¬ ∃ out, redactReceipt [] receipt.json = .ok (.obj out) ∧ Covered receipt out := by
  rintro ⟨out, hout, hcovered⟩
  rw [redactReceipt_eq, Except.ok.injEq, Json.obj.injEq] at hout
  subst hout
  have hentry := redacted_entry_covered hcovered.hidden (k := 0) rfl ("memo", .str "desk 1")
    (by simp [sealedBid])
  have hhidden := hentry.1 (by decide)
  rw [redactBidField_other (by decide)] at hhidden
  rcases hhidden with h | h
  · cases h
  · simp [redacted] at h

/-! ## Alignment -/

/-- The `i`-th bidder's placeholder is the `i`-th, and the bids hold the redaction of the `i`-th
bidder's entry under it. -/
def Aligned (receipt : RoundReceipt) (bidders : List Json) (out : List (String × Json)) : Prop :=
  ∃ outBidders outBids, fieldOf out "bidders" = some (.arr outBidders) ∧
    fieldOf out "bids" = some (.obj outBids) ∧ outBidders.length = bidders.length ∧
    ∀ (i : Nat) (name : String), bidders[i]? = some (.str name) → ∃ entry shown,
    (name, entry) ∈ receipt.bids ∧
      outBidders[i]? = some (.str (placeholder i)) ∧ fieldOf outBids (placeholder i) = some shown ∧
      redactBidEntry [] (.obj entry) ("bids." ++ name) = .ok shown

/-- The `i`-th entry of the bids shows the same as the entry of the `i`-th bidder. -/
def RoundReceipt.InOrder (receipt : RoundReceipt) (bidders : List Json) : Prop :=
  ∀ (i : Nat) (name : String), bidders[i]? = some (.str name) → ∃ entry key shown,
    (name, entry) ∈ receipt.bids ∧ receipt.bids[i]? = some (key, shown) ∧ EntriesAgree shown entry

/-- Bids in the order of the bidders are in order. -/
theorem inOrder_of_names {receipt : RoundReceipt} {bidders : List Json}
    (h : receipt.bids.map (fun b => Json.str b.1) = bidders) : receipt.InOrder bidders := by
  subst h
  intro i name hname
  rw [List.getElem?_map, Option.map_eq_some_iff] at hname
  obtain ⟨b, hb, heq⟩ := hname
  cases heq
  exact ⟨b.2, b.1, b.2, List.mem_of_getElem? hb, hb,
    redactEntry_eq_iff.mp (Eq.refl (b.2.map (redactBidField [] "")))⟩

theorem fieldOf_redacted (receipt : RoundReceipt) {key : String} (hkey : key ≠ "bids") :
    fieldOf receipt.redacted key = (fieldOf receipt.fields key).map (redactRootField [] key) := by
  have hcons : ∀ v rest, fieldOf (("bids", v) :: rest) key = fieldOf rest key := by
    intro v rest
    simp [fieldOf, Ne.symm hkey]
  rw [RoundReceipt.redacted, RoundReceipt.fields, fieldOf_append, fieldOf_append, hcons, hcons,
    fieldOf_map (redactRootField []), fieldOf_map (redactRootField []), Option.map_or]

/-- An accepted receipt has a list of bidders. -/
theorem accepted_bidders {engine : Engine} {sha256 : Bytes → BytesN 32}
    {receipt : RoundReceipt}
    (h : ∃ result, verifyReceipt engine sha256 receipt.json = .ok result ∧
      result.valid = true) :
    ∃ bidders, fieldOf receipt.fields "bidders" = some (.arr bidders) := by
  obtain ⟨leader, hpasses⟩ := conclude_valid.mp h
  obtain ⟨-, bidders, hbidders, -⟩ := passes_checkReceipt.mp hpasses
  have hown : property engine receipt.json "bidders" = fieldOf receipt.fields "bidders" := by
    rw [RoundReceipt.json, property, ownProperty]
    cases fieldOf receipt.fields "bidders" with
    | some v => rfl
    | none => rfl
  exact ⟨bidders, hown ▸ hbidders⟩

/-- **Redaction keeps bidders and bids aligned.** For an accepted receipt the placeholder of every
bidder names the redaction of its own entry if and only if the entries are in the order of the
bidders, up to what redaction hides. -/
theorem redaction_aligned_iff (engine : Engine) (sha256 : Bytes → BytesN 32)
    (receipt : RoundReceipt)
    (h : ∃ result, verifyReceipt engine sha256 receipt.json = .ok result ∧
      result.valid = true) :
    ∃ bidders out, fieldOf receipt.fields "bidders" = some (.arr bidders) ∧
      redactReceipt [] receipt.json = .ok (.obj out) ∧
      (Aligned receipt bidders out ↔ receipt.InOrder bidders) := by
  obtain ⟨bidders, hbidders⟩ := accepted_bidders h
  refine ⟨bidders, receipt.redacted, hbidders, redactReceipt_eq receipt, ?_⟩
  have hshown : fieldOf receipt.redacted "bidders" =
      some (.arr ((List.range bidders.length).map fun i => .str (placeholder i))) := by
    rw [fieldOf_redacted receipt (by decide), hbidders]
    rfl
  have hentry : ∀ i, fieldOf (redactedBids 0 receipt.bids) (placeholder i) =
      receipt.bids[i]?.map fun b => (redactedBid i b).2 := by
    intro i
    simpa using @fieldOf_redactedBids receipt.bids 0 i
  constructor
  · rintro ⟨outBidders, outBids, -, hbids, -, hall⟩ i name hname
    rw [fieldOf_bids] at hbids
    cases hbids
    obtain ⟨entry, shown, hmem, -, hfield, hredact⟩ := hall i name hname
    rw [hentry, Option.map_eq_some_iff] at hfield
    obtain ⟨b, hb, rfl⟩ := hfield
    rw [redactBidEntry_obj, Except.ok.injEq, redactedBid, Json.obj.injEq] at hredact
    exact ⟨entry, b.1, b.2, hmem, hb, redactEntry_eq_iff.mp hredact.symm⟩
  · intro horder
    refine ⟨_, _, hshown, fieldOf_bids receipt, by simp, fun i name hname => ?_⟩
    obtain ⟨entry, key, kept, hmem, hb, hagree⟩ := horder i name hname
    have hi : i < bidders.length := (List.getElem?_eq_some_iff.mp hname).1
    refine ⟨entry, (redactedBid i (key, kept)).2, hmem, by simp [hi], ?_, ?_⟩
    · rw [hentry, hb]
      rfl
    · rw [redactBidEntry_obj, redactedBid, redactEntry_eq_iff.mpr hagree]

open SampleRedaction in
theorem redaction_aligned_iff_sample :
    ∃ bidders out, fieldOf receipt.fields "bidders" = some (.arr bidders) ∧
      redactReceipt [] receipt.json = .ok (.obj out) ∧
      (Aligned receipt bidders out ↔ receipt.InOrder bidders) :=
  redaction_aligned_iff silentEngine sha256 receipt (accepted_of_accepts (by decide +kernel))

open SampleRedaction in
/-- The placeholder of bidder GB names the entry of GA. -/
theorem redaction_misaligned :
    (∃ result, verifyReceipt silentEngine sha256 receipt.json = .ok result ∧ result.valid = true) ∧
      ∃ out, redactReceipt [] receipt.json = .ok (.obj out) ∧
        ¬ Aligned receipt [.str "GB", .str "GA"] out := by
  refine ⟨accepted_of_accepts (by decide +kernel), receipt.redacted, redactReceipt_eq receipt, ?_⟩
  rintro ⟨outBidders, outBids, -, hbids, -, hall⟩
  rw [fieldOf_bids] at hbids
  cases hbids
  obtain ⟨entry, shown, hmem, -, hfield, hredact⟩ := hall 0 "GB" rfl
  have hown : entry = sealedBid "20" "desk 2" := by simpa [receipt] using hmem
  have hother := @fieldOf_redactedBids receipt.bids 0 0
  rw [hfield] at hother
  cases hother
  have hsame := Json.obj.inj (Except.ok.inj ((redactBidEntry_obj entry).symm.trans hredact))
  rw [redactEntry_eq_iff, hown] at hsame
  cases hsame with
  | cons _ hrest =>
    cases hrest with
    | cons hescrow _ => simp [FieldsAgree, ShowSame, isEntryKey] at hescrow

end SubRosa.Sdk
