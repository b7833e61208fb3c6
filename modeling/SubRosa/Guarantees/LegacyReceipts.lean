import SubRosa.Guarantees.StructuredReceipts
import SubRosa.Sdk.Accepted

/-!
# What an accepted first-generation receipt proves

The outcome that clearing computes from the data of a receipt, and what the
verifier leaves open: the declared value, entries without the flag, and a
declared winner that it has nothing to compare with.
-/

namespace SubRosa.Sdk

open JavaScript MachineInt

/-- The value and the nonce hash to the commitment. -/
def hashesTo (sha256 : Bytes → BytesN 32) (value : Int) (nonce : Bytes) (declared : JsValue) :
    Bool :=
  match commitment sha256 value nonce, toLowerCase declared with
  | .ok hash, .ok hex => toHex hash = hex
  | _, _ => false

/-- The value of an entry that hashes to its commitment, positive and within the escrow. -/
def qualifyingValue (engine : Engine) (sha256 : Bytes → BytesN 32) (entry : String → JsValue) :
    Option Int :=
  match parseBigInt engine (entry "revealedValue"), fromHex engine (entry "nonce"),
    parseBigInt engine (entry "escrow") with
  | some value, .ok nonce, some escrow =>
    if hashesTo sha256 value nonce (entry "commitment") = true ∧ 0 < value ∧ value ≤ escrow then
      some value
    else none
  | _, _, _ => none

/-- The value with which a bidder enters the scan of `clear`. -/
def qualifyingEntry (engine : Engine) (sha256 : Bytes → BytesN 32) (r : String → JsValue)
    (bidder : Json) : Option Int :=
  (bidEntry engine r bidder).bind (qualifyingValue engine sha256)

def hasFlag (engine : Engine) (r : String → JsValue) (bidder : Json) : Bool :=
  (bidEntry engine r bidder).any fun entry => truthy (entry "valid")

/-- The best value is declared with its bidder, and nothing when there is none. -/
def DeclaresValue : Leader → JsValue → JsValue → Prop
  | some (bidder, best), winner, value =>
    strictEq (some bidder) winner = true ∧ decimal value = some best
  | none, winner, value =>
    strictEq winner (some .null) = true ∧ strictEq value (some .null) = true

instance : ∀ best winner value, Decidable (DeclaresValue best winner value)
  | some _, _, _ => inferInstanceAs (Decidable (_ ∧ _))
  | none, _, _ => inferInstanceAs (Decidable (_ ∧ _))

/-- The receipt declares what `clear` computes from its own data. -/
def ExactOutcome (engine : Engine) (sha256 : Bytes → BytesN 32) (r : String → JsValue) : Prop :=
  ∃ rule, clearingRule? (r "clearingRule") = some rule ∧
    DeclaresValue (FirstBest.scan rule.Better (qualifyingEntry engine sha256 r) (biddersOf r))
      (r "winner") (r "winningValue")

/-- No entry without the flag beats this bidder with this value. -/
def Unbeaten (engine : Engine) (sha256 : Bytes → BytesN 32) (r : String → JsValue)
    (rule : ClearingRule) (winner : Json) (value : Int) : Prop :=
  ∃ pre post, biddersOf r = pre ++ winner :: post ∧
    (∀ b ∈ pre, hasFlag engine r b = false → ∀ u, qualifyingEntry engine sha256 r b = some u →
      rule.Better value u) ∧
    ∀ b ∈ post, hasFlag engine r b = false → ∀ u, qualifyingEntry engine sha256 r b = some u →
      ¬ rule.Better u value

/-- Where no winner is declared, no value is, and no entry qualifies. A declared winner has an
entry that qualifies with the declared value, and no entry without the flag beats it. -/
def WinnerBacked (engine : Engine) (sha256 : Bytes → BytesN 32) (r : String → JsValue) : Prop :=
  (strictEq (r "winner") (some .null) = true ∧ strictEq (r "winningValue") (some .null) = true ∧
    ∀ b ∈ biddersOf r, qualifyingEntry engine sha256 r b = none) ∨
  ∃ rule winner value, clearingRule? (r "clearingRule") = some rule ∧
    strictEq (some winner) (r "winner") = true ∧
    qualifyingEntry engine sha256 r winner = some value ∧
    decimal (r "winningValue") = some value ∧ Unbeaten engine sha256 r rule winner value

section

variable {engine : Engine} {sha256 : Bytes → BytesN 32} {r : String → JsValue} {bidders : List Json}
  {leader : Leader} {receipt : Json}

theorem qualifyingValue_parsed {entry : String → JsValue} {value : Int}
    (h : qualifyingValue engine sha256 entry = some value) :
    parseBigInt engine (entry "revealedValue") = some value := by
  unfold qualifyingValue at h
  split at h
  · next v nonce escrow hv _ _ =>
    rw [hv, (Option.ite_none_right_eq_some.mp h).2]
  · cases h

/-- A flagged entry that qualifies competes, with its value. -/
theorem competingValue_of_qualifies {entry : String → JsValue} {value : Int}
    (h : qualifyingValue engine sha256 entry = some value)
    (hvalid : truthy (entry "valid") = true) :
    competingValue engine entry = some value := by
  have hparsed := qualifyingValue_parsed h
  have hrevealed : isRevealed entry = true := by
    unfold isRevealed
    cases hnull : strictEq (entry "revealedValue") (some .null) with
    | false => rfl
    | true =>
      rw [eq_of_strictEq hnull] at hparsed
      cases hparsed
  rw [competingValue, hrevealed, hvalid, Bool.and_true, if_pos rfl, hparsed]

/-- What competes and qualifies does so with one value. -/
theorem competingValue_eq {entry : String → JsValue} {value value' : Int}
    (h : qualifyingValue engine sha256 entry = some value)
    (hcompetes : competingValue engine entry = some value') : value = value' := by
  rw [competingValue, Option.ite_none_right_eq_some, qualifyingValue_parsed h] at hcompetes
  exact Option.some_inj.mp hcompetes.2

theorem Accepted.leader_scan (h : Accepted engine sha256 r bidders leader) {rule : ClearingRule}
    (hrule : clearingRule? (r "clearingRule") = some rule) :
    leader = FirstBest.scan rule.Better (competingEntry engine r) bidders := by
  rw [h.leader_eq, ← scan_clearingRule hrule, foldl_afterEntry]

theorem Accepted.rule (h : Accepted engine sha256 r bidders leader) :
    ∃ rule, clearingRule? (r "clearingRule") = some rule := by
  have hone := h.schema.clearingRule
  unfold isOneOf at hone
  split at hone
  · next s hs =>
    rw [hs]
    rcases List.mem_cons.mp (of_decide_eq_true hone) with rfl | hmem
    · exact ⟨.HighestBid, rfl⟩
    · obtain rfl := List.mem_singleton.mp hmem
      exact ⟨.LowestBid, rfl⟩
  · cases hone

theorem Accepted.nodup (h : Accepted engine sha256 r bidders leader) : bidders.Nodup := by
  refine (List.pairwise_iff_getElem.mpr fun i j hi hj hij heq => ?_)
  obtain ⟨name, hname, -⟩ := h.roster.account _ (List.getElem_mem hi)
  have hdistinct := List.pairwise_iff_getElem.mp h.roster.distinct i j hi hj hij
  rw [← heq, hname, strictEq, decide_eq_false_iff_not] at hdistinct
  exact hdistinct rfl

theorem exactOutcome_iff {rule : ClearingRule} (h : clearingRule? (r "clearingRule") = some rule) :
    ExactOutcome engine sha256 r ↔
      DeclaresValue (FirstBest.scan rule.Better (qualifyingEntry engine sha256 r) (biddersOf r))
        (r "winner") (r "winningValue") := by
  constructor
  · rintro ⟨_, hrule, hdeclares⟩
    rw [h] at hrule
    cases hrule
    exact hdeclares
  · intro hdeclares
    exact ⟨rule, h, hdeclares⟩

/-- The declared outcome is backed when it is the exact one. -/
theorem winnerBacked_of_exact (h : ExactOutcome engine sha256 r) :
    WinnerBacked engine sha256 r := by
  obtain ⟨rule, hrule, hdeclares⟩ := h
  cases hscan : FirstBest.scan rule.Better (qualifyingEntry engine sha256 r) (biddersOf r) with
  | none =>
    rw [hscan] at hdeclares
    exact .inl ⟨hdeclares.1, hdeclares.2, FirstBest.scan_eq_none.mp hscan⟩
  | some p =>
    obtain ⟨winner, value⟩ := p
    rw [hscan] at hdeclares
    obtain ⟨hvalue, pre, post, hsplit, hpre, hpost⟩ := FirstBest.scan_eq_some hscan
    exact .inr ⟨rule, winner, value, hrule, hdeclares.1, hvalue, hdeclares.2, pre, post, hsplit,
      fun b hb _ => hpre b hb, fun b hb _ => hpost b hb⟩

/-- A flagged entry that qualifies makes the declared winner the leader. -/
theorem Accepted.leads (h : Accepted engine sha256 r bidders leader) {rule : ClearingRule}
    (hrule : clearingRule? (r "clearingRule") = some rule) {winner : Json} {value : Int}
    (hwinner : strictEq (some winner) (r "winner") = true)
    (hvalue : qualifyingEntry engine sha256 r winner = some value) {b : Json} (hb : b ∈ bidders)
    {u : Int} (hu : competingEntry engine r b = some u) :
    FirstBest.IsFirstBest rule.Better (competingEntry engine r) bidders winner value := by
  have hscan := h.leader_scan hrule
  cases hleader : leader with
  | none =>
    rw [hleader] at hscan
    rw [FirstBest.scan_eq_none.mp hscan.symm b hb] at hu
    cases hu
  | some p =>
    obtain ⟨w, v⟩ := p
    rw [hleader] at hscan
    have hbest := FirstBest.scan_eq_some hscan.symm
    have hdeclared := eq_of_strictEq hwinner
    have houtcome := h.outcome
    rw [hleader] at houtcome
    have hsame : w = winner := by
      rcases houtcome with hnull | heq
      · rw [← hdeclared] at hnull
        cases hnull
        cases hvalue
      · rw [← hdeclared] at heq
        exact Option.some_inj.mp (eq_of_strictEq heq)
    subst hsame
    obtain ⟨entry, hentry, hqualifies⟩ := Option.bind_eq_some_iff.mp hvalue
    have hcompetes := hbest.1
    rw [competingEntry, hentry, Option.bind_some] at hcompetes
    rwa [competingValue_eq hqualifies hcompetes]

theorem competingEntry_of_flag {b : Json} (hflag : hasFlag engine r b = true) {u : Int}
    (hu : qualifyingEntry engine sha256 r b = some u) : competingEntry engine r b = some u := by
  obtain ⟨entry, hentry, hqualifies⟩ := Option.bind_eq_some_iff.mp hu
  rw [hasFlag, hentry, Option.any_some] at hflag
  rw [competingEntry, hentry]
  exact competingValue_of_qualifies hqualifies hflag

/-- In an accepted receipt a backed outcome is the exact one. -/
theorem Accepted.exact_of_backed (h : Accepted engine sha256 r bidders leader)
    (hbidders : r "bidders" = some (.arr bidders)) (hbacked : WinnerBacked engine sha256 r) :
    ExactOutcome engine sha256 r := by
  have hlist : biddersOf r = bidders := by rw [biddersOf, hbidders]
  rcases hbacked with ⟨hwinner, hvalue, hnone⟩ |
    ⟨rule, winner, value, hrule, hwinner, hqualifies, hvalue, pre, post, hsplit, hpre, hpost⟩
  · obtain ⟨rule, hrule⟩ := h.rule
    refine ⟨rule, hrule, ?_⟩
    rw [FirstBest.scan_eq_none.mpr hnone]
    exact ⟨hwinner, hvalue⟩
  · have hflagged : ∀ b ∈ bidders, hasFlag engine r b = true →
        ∀ u, qualifyingEntry engine sha256 r b = some u →
        FirstBest.IsFirstBest rule.Better (competingEntry engine r) bidders winner value :=
      fun b hb hflag u hu =>
        h.leads hrule hwinner hqualifies hb (competingEntry_of_flag hflag hu)
    rw [hlist] at hsplit
    have hbest : FirstBest.IsFirstBest rule.Better (qualifyingEntry engine sha256 r) bidders winner
        value := by
      refine ⟨hqualifies, pre, post, hsplit, fun b hb u hu => ?_, fun b hb u hu => ?_⟩
      · cases hflag : hasFlag engine r b with
        | false => exact hpre b hb hflag u hu
        | true =>
          have hmem : b ∈ bidders := hsplit ▸ List.mem_append_left _ hb
          exact ((hflagged b hmem hflag u hu).around h.nodup hsplit).1 b hb u
            (competingEntry_of_flag hflag hu)
      · cases hflag : hasFlag engine r b with
        | false => exact hpost b hb hflag u hu
        | true =>
          have hmem : b ∈ bidders :=
            hsplit ▸ List.mem_append_right _ (List.mem_cons_of_mem _ hb)
          exact ((hflagged b hmem hflag u hu).around h.nodup hsplit).2 b hb u
            (competingEntry_of_flag hflag hu)
    refine ⟨rule, hrule, ?_⟩
    rw [hlist, hbest.scan_eq]
    exact ⟨hwinner, hvalue⟩

/-- **Soundness of first-generation receipts.** An accepted receipt of a cleared or settled round
declares the outcome of `clear` exactly when its winner is backed. -/
theorem legacy_receipt_sound_iff {result : VerificationResult}
    (haccepted : verifyReceipt engine sha256 receipt = .ok result) (hvalid : result.valid = true)
    (_ : property engine receipt "status" = some (.str "Cleared") ∨
      property engine receipt "status" = some (.str "Settled")) :
    ExactOutcome engine sha256 (property engine receipt) ↔
      WinnerBacked engine sha256 (property engine receipt) := by
  obtain ⟨leader, hpasses⟩ := conclude_valid.mp ⟨result, haccepted, hvalid⟩
  obtain ⟨-, bidders, hbidders, hok⟩ := passes_checkReceipt.mp hpasses
  exact ⟨winnerBacked_of_exact, hok.exact_of_backed hbidders⟩

end

/-! ## The receipt of a small round -/

namespace SampleLegacy

def aliceHash : Bytes :=
  [205, 169, 57, 161, 7, 15, 205, 6, 251, 135, 210, 67, 161, 190, 26, 57, 136, 210, 27, 150,
  191, 229,
    249, 30, 218, 96, 25, 240, 68, 212, 141, 129]

/-- SHA-256 on the texts that occur in the sample. -/
def sha256 (bytes : Bytes) : BytesN 32 :=
  if bytes = List.replicate 15 0 ++ 30 :: List.replicate 32 7 then ⟨aliceHash, rfl⟩
  else SampleReceipt.sha256 bytes

/-- Alice reveals 30. -/
def alice : Json :=
  .obj [("commitment", .str (toHex aliceHash)), ("escrow", .str "50"), ("revealedValue", .str "30"),
    ("nonce", .str (toHex (List.replicate 32 7))), ("hashValid", .bool true), ("valid", .bool true),
    ("settled", .bool false), ("evidence", .obj [("ciphertext", .null), ("auditorBlob", .null)])]

/-- A cleared round that Alice won with this value. -/
def receipt (winningValue : String) : Json :=
  .obj [("version", .num 1), ("network", .str SampleReceipt.network),
    ("networkFingerprint", .str (toHex SampleReceipt.networkHash)), ("contractId", .str "CA"),
    ("exportedAt", .str "2026-01-01T00:00:00.000Z"), ("roundId", .str "1"),
    ("itemRef", .str (toHex (List.replicate 32 1))), ("revealRound", .num 3),
    ("clearingRule", .str "HighestBid"), ("commitDeadline", .str "1050"),
    ("revealDeadline", .str "1100"), ("operator", .str "GO"), ("auditorPubkey", .str ""),
    ("bidders", .arr [.str "GA"]), ("bids", .obj [("GA", alice)]), ("winner", .str "GA"),
    ("winningValue", .str winningValue), ("status", .str "Cleared")]

end SampleLegacy

open SampleLegacy in
theorem legacy_receipt_sound_sample :
    ExactOutcome integerEngine SampleLegacy.sha256
      (property integerEngine (receipt "30")) := by
  have haccepts : Sdk.accepts integerEngine SampleLegacy.sha256 (receipt "30") = true := by
    decide +kernel
  obtain ⟨result, haccepted, hvalid⟩ := accepted_of_accepts haccepts
  exact (legacy_receipt_sound_iff haccepted hvalid (.inl rfl)).mpr
    (.inr ⟨.HighestBid, .str "GA", 30, rfl, by decide +kernel, by decide +kernel,
      by decide +kernel, [], [], rfl, by simp, by simp⟩)

open SampleLegacy in
/-- The receipt of the round with another value is accepted, too. -/
theorem legacy_receipt_forged :
    (∃ result, verifyReceipt integerEngine SampleLegacy.sha256 (receipt "31") = .ok result ∧
        result.valid = true) ∧
      ¬ ExactOutcome integerEngine SampleLegacy.sha256
        (property integerEngine (receipt "31")) := by
  refine ⟨accepted_of_accepts (by decide +kernel), ?_⟩
  rw [exactOutcome_iff (show _ = some ClearingRule.HighestBid from rfl)]
  decide +kernel

end SubRosa.Sdk
