import SubRosa.Guarantees.LegacyReceipts
import SubRosa.Sdk.ReadableV2

/-!
# The verdicts of the verifiers

A verifier should answer on any JSON object of its version, and refuse one that
lacks a field of the receipt type. It throws on the receipts it cannot read,
and it accepts some receipts with a bad field that no check looks at.
-/

namespace SubRosa.Sdk

open JavaScript Report MachineInt

/-- The verifier answers, and it refuses a receipt that is not well formed. -/
def Verdict (wellFormed : Prop) (answer : Except Thrown VerificationResult) : Prop :=
  ∃ result, answer = .ok result ∧ (¬ wellFormed → result.valid = false)

/-- A verdict in terms of the check: it has to return, and to pass on nothing malformed. -/
theorem verdict_conclude {wellFormed : Prop} {check : Check Leader} :
    Verdict wellFormed (conclude check) ↔
      Returns check ∧ ((∃ leader, Passes check leader) → wellFormed) := by
  have hreturns : Returns check ↔ ∃ result, conclude check = .ok result := by
    rcases check with e | ⟨issues, _ | leader⟩
    · exact iff_of_false (by rintro ⟨_, ⟨⟩⟩) (by rintro ⟨_, ⟨⟩⟩)
    · exact iff_of_true ⟨_, rfl⟩ ⟨_, rfl⟩
    · exact iff_of_true ⟨_, rfl⟩ ⟨_, rfl⟩
  rw [hreturns, ← conclude_valid]
  constructor
  · rintro ⟨result, hresult, hrefuse⟩
    refine ⟨⟨result, hresult⟩, ?_⟩
    rintro ⟨other, hother, hvalid⟩
    rw [hresult] at hother
    cases hother
    by_contra hbad
    rw [hrefuse hbad] at hvalid
    cases hvalid
  · rintro ⟨⟨result, hresult⟩, hgood⟩
    refine ⟨result, hresult, fun hbad => ?_⟩
    by_contra hvalid
    exact hbad (hgood ⟨result, hresult, by simpa using hvalid⟩)

section

variable {engine : Engine} {sha256 : Bytes → BytesN 32} {r : String → JsValue}

def isBoolean : JsValue → Bool
  | some (.bool _) => true
  | _ => false

/-- A type `T | null`. -/
def isNullOr (isType : JsValue → Bool) (v : JsValue) : Bool := strictEq v (some .null) || isType v

def isDecimal (v : JsValue) : Bool := (decimal v).isSome

/-- `{ ciphertext: string | null; auditorBlob: string | null }`, both in hex. -/
def EvidenceFormed (engine : Engine) (v : JsValue) : Prop :=
  ∃ fields, v = some (.obj fields) ∧ ∀ name ∈ ["ciphertext", "auditorBlob"],
    isNullOr isHexValue (property engine (.obj fields) name) = true

/-! ## First generation -/

/-- Fields of a `RoundReceipt` that the verifier checks in full. -/
structure CheckedFields (engine : Engine) (r : String → JsValue) : Prop where
  network : isString (r "network") = true
  networkFingerprint : isString (r "networkFingerprint") = true
  contractId : startsWith 'C' (r "contractId") = true
  clearingRule : isOneOf ["HighestBid", "LowestBid"] (r "clearingRule") = true
  bidders : ∃ bidders, r "bidders" = some (.arr bidders) ∧ ∀ b ∈ bidders, IsAccountName b ∧
    ∀ entry, bidEntry engine r b = some entry → isHexOf 32 (entry "commitment") = true

/-- The fields of a `BidReceiptEntry` that the verifier does not check, or not in full. -/
structure UncheckedEntry (engine : Engine) (entry : String → JsValue) : Prop where
  escrow : isDecimal (entry "escrow") = true
  revealedValue : isNullOr isDecimal (entry "revealedValue") = true
  nonce : isNullOr (isHexOf 32) (entry "nonce") = true
  hashValid : isNullOr isBoolean (entry "hashValid") = true
  valid : isBoolean (entry "valid") = true
  settled : isBoolean (entry "settled") = true
  evidence : EvidenceFormed engine (entry "evidence")

/-- The fields of a `RoundReceipt` that the verifier does not check, or not in full. -/
structure UncheckedFields (engine : Engine) (r : String → JsValue) : Prop where
  exportedAt : isString (r "exportedAt") = true
  roundId : isDecimal (r "roundId") = true
  itemRef : isHexOf 32 (r "itemRef") = true
  revealRound : isSafePositive (r "revealRound") = true
  commitDeadline : isDecimal (r "commitDeadline") = true
  revealDeadline : isDecimal (r "revealDeadline") = true
  operator : isString (r "operator") = true
  auditorPubkey : isHexValue (r "auditorPubkey") = true
  bids : ∃ fields, r "bids" = some (.obj fields)
  entry : ∀ bidders, r "bidders" = some (.arr bidders) → ∀ b ∈ bidders,
    ∃ entry, bidEntry engine r b = some entry ∧ UncheckedEntry engine entry
  winner : isNullOr isString (r "winner") = true
  winningValue : isNullOr isDecimal (r "winningValue") = true
  status : isOneOf validStatuses (r "status") = true

/-- The required fields of a `RoundReceipt` are there, each of its type and format. -/
def WellFormed (engine : Engine) (r : String → JsValue) : Prop :=
  CheckedFields engine r ∧ UncheckedFields engine r

/-- A declared winner is the first best among the flagged entries with a value, if there is one. -/
def WinnerNamed (engine : Engine) (r : String → JsValue) (bidders : List Json) : Prop :=
  r "winner" = some .null ∨
  (∃ winner value, strictEq (some winner) (r "winner") = true ∧ FirstBest.IsFirstBest
    (ranksOver (r "clearingRule")) (competingEntry engine r) bidders winner value) ∨
  (∀ b ∈ bidders, competingEntry engine r b = none) ∧ Textual engine (r "winner")

/-- The fields agree with each other wherever the verifier compares them. -/
structure ConsistentWith (engine : Engine) (sha256 : Bytes → BytesN 32) (r : String → JsValue)
    (bidders : List Json) : Prop where
  schema : SchemaOk engine sha256 r
  roster : BiddersOk engine r bidders
  entry : ∀ b ∈ bidders, ∀ entry, bidEntry engine r b = some entry → EntryOk engine sha256 entry
  winner : WinnerNamed engine r bidders
  evidence : ∀ b ∈ bidders, ∀ entry, bidEntry engine r b = some entry → EvidenceOkV1 engine entry

def Consistent (engine : Engine) (sha256 : Bytes → BytesN 32) (r : String → JsValue) : Prop :=
  ∃ bidders, r "bidders" = some (.arr bidders) ∧ ConsistentWith engine sha256 r bidders

theorem Consistent.checked (h : Consistent engine sha256 r) : CheckedFields engine r := by
  obtain ⟨bidders, hbidders, hok⟩ := h
  obtain ⟨passphrase, hnetwork, -, hfingerprint⟩ := hok.schema.network
  refine ⟨by rw [hnetwork]; rfl, by rw [hfingerprint]; rfl, hok.schema.contractId,
    hok.schema.clearingRule, bidders, hbidders, fun b hb => ⟨hok.roster.account b hb, ?_⟩⟩
  exact fun entry hentry => (hok.entry b hb entry hentry).commitment

/-- The outcome of the loop over the bidders, as a condition on the entries. -/
theorem outcomeOk_iff {bidders : List Json} : OutcomeOk engine r (FirstBest.scan
      (ranksOver (r "clearingRule")) (competingEntry engine r) bidders) ↔
    WinnerNamed engine r bidders := by
  unfold OutcomeOk WinnerNamed
  cases hscan : FirstBest.scan (ranksOver (r "clearingRule")) (competingEntry engine r) bidders with
  | none =>
    have hnone := FirstBest.scan_eq_none.mp hscan
    refine or_congr_right ⟨fun h => .inr ⟨hnone, h⟩, ?_⟩
    rintro (⟨winner, value, -, hbest⟩ | ⟨-, h⟩)
    · rw [hbest.scan_eq] at hscan
      cases hscan
    · exact h
  | some p =>
    obtain ⟨winner, value⟩ := p
    refine or_congr_right ⟨fun h => .inl ⟨winner, value, h, FirstBest.scan_eq_some hscan⟩, ?_⟩
    rintro (⟨other, best, h, hbest⟩ | ⟨hnone, -⟩)
    · rw [hbest.scan_eq] at hscan
      cases hscan
      exact h
    · rw [FirstBest.scan_eq_none.mpr hnone] at hscan
      cases hscan

theorem accepted_iff {bidders : List Json} (hversion : r "version" = some (.num 1)) :
    (∃ leader, Accepted engine sha256 r bidders leader) ↔
      ConsistentWith engine sha256 r bidders := by
  constructor
  · rintro ⟨leader, hok⟩
    have houtcome := hok.outcome
    rw [hok.leader_eq, foldl_afterEntry] at houtcome
    exact ⟨hok.schema, hok.roster, hok.entry, outcomeOk_iff.mp houtcome, hok.evidence⟩
  · intro hok
    refine ⟨_, hversion, hok.schema, hok.roster, hok.entry, rfl, ?_, hok.evidence⟩
    rw [foldl_afterEntry]
    exact outcomeOk_iff.mpr hok.winner

/-- The verifier of first-generation receipts, by cases. -/
theorem verdict_iff {fields : List (String × Json)}
    (hversion : property engine (.obj fields) "version" = some (.num 1)) :
    Verdict (WellFormed engine (property engine (.obj fields)))
        (verifyReceipt engine sha256 (.obj fields)) ↔
      Readable engine (property engine (.obj fields)) ∧
        (Consistent engine sha256 (property engine (.obj fields)) →
          UncheckedFields engine (property engine (.obj fields))) := by
  have hobject : Json.obj fields ≠ .null := Json.noConfusion
  rw [verifyReceipt, verdict_conclude, returns_checkReceipt hobject hversion]
  refine and_congr_right fun _ => ?_
  simp only [passes_checkReceipt, ne_eq, hobject, not_false_eq_true, true_and]
  constructor
  · rintro h ⟨bidders, hbidders, hok⟩
    obtain ⟨leader, haccepted⟩ := (accepted_iff hversion).mpr hok
    exact (h ⟨leader, bidders, hbidders, haccepted⟩).2
  · rintro h ⟨leader, bidders, hbidders, haccepted⟩
    have hok : Consistent engine sha256 (property engine (.obj fields)) :=
      ⟨bidders, hbidders, (accepted_iff hversion).mp ⟨leader, haccepted⟩⟩
    exact ⟨hok.checked, h hok⟩

/-! ## Structured receipts -/

/-- Fields of a `CoreV2Receipt` that the verifier checks in full. -/
structure CheckedFieldsV2 (engine : Engine) (r : String → JsValue) : Prop where
  contractId : startsWith 'C' (r "contractId") = true
  roundId : isDecimal (r "roundId") = true
  itemRef : isHexOf 32 (r "itemRef") = true
  schemaRef : isHexOf 32 (r "schemaRef") = true
  auditorPubkey : isHexValue (r "auditorPubkey") = true
  revealRound : isSafePositive (r "revealRound") = true
  maxParticipants : isIntegerBetween 1 25 (r "maxParticipants") = true
  lotAmount : isDecimal (r "lotAmount") = true
  winningAmount : isDecimal (r "winningAmount") = true
  mode : isOneOf ["Auction", "ReceiptOnly"] (r "mode") = true
  submission : ∀ bidders fields, r "bidders" = some (.arr bidders) →
    r "submissions" = some (.obj fields) → ∀ b ∈ bidders,
      ∃ s, submissionFields engine (.obj fields) b = some s ∧ isHexOf 32 (s "commitment") = true ∧
        isDecimal (s "escrow") = true ∧ isNullOr isDecimal (s "revealedAmount") = true ∧
          isNullOr isHexValue (s "revealedEnvelope") = true

/-- The fields of a submission that the verifier does not check, or not in full. -/
structure UncheckedSubmission (engine : Engine) (submission : String → JsValue) : Prop where
  valid : isBoolean (submission "valid") = true
  settled : isBoolean (submission "settled") = true
  evidence : EvidenceFormed engine (submission "evidence")

/-- The partner policy of a structured receipt. -/
structure PolicyFormed (policy : String → JsValue) : Prop where
  enforced : isBoolean (policy "enforced") = true
  fixedEscrow : isNullOr isDecimal (policy "fixedEscrow") = true
  participation : isOneOf ["Open", "Allowlist"] (policy "participation") = true
  eligibleParticipants : ∃ participants, policy "eligibleParticipants" = some (.arr participants) ∧
    ∀ p ∈ participants, isString (some p) = true

/-- The opening fields a receipt of version 3 has on top. -/
structure OpeningFormed (engine : Engine) (r : String → JsValue) : Prop where
  revealPolicy : ∃ fields, r "revealPolicy" = some (.obj fields) ∧
    (property engine (.obj fields) "type" = some (.str "timed") ∨
      property engine (.obj fields) "type" = some (.str "owner-triggered") ∧
        isString (property engine (.obj fields) "controller") = true ∧
        isDecimal (property engine (.obj fields) "fallbackAt") = true)
  openedAt : isNullOr isDecimal (r "openedAt") = true

/-- The fields of a `CoreV2Receipt` that the verifier does not check, or not in full. -/
structure UncheckedFieldsV2 (engine : Engine) (r : String → JsValue) : Prop where
  network : isString (r "network") = true
  networkFingerprint : isHexOf 32 (r "networkFingerprint") = true
  exportedAt : isString (r "exportedAt") = true
  paymentAsset : isNullOr isString (r "paymentAsset") = true
  lotAsset : isNullOr isString (r "lotAsset") = true
  drandGenesis : isDecimal (r "drandGenesis") = true
  drandPeriod : isDecimal (r "drandPeriod") = true
  clearingRule : isOneOf ["HighestBid", "LowestBid"] (r "clearingRule") = true
  commitDeadline : isDecimal (r "commitDeadline") = true
  revealDeadline : isDecimal (r "revealDeadline") = true
  operator : isString (r "operator") = true
  policy : ∃ fields, r "policy" = some (.obj fields) ∧ PolicyFormed (property engine (.obj fields))
  opening : isVersion3 r = true → OpeningFormed engine r
  bidders : ∃ bidders, r "bidders" = some (.arr bidders) ∧ ∀ b ∈ bidders, isString (some b) = true
  submissions : ∃ fields, r "submissions" = some (.obj fields) ∧ ∀ bidders,
    r "bidders" = some (.arr bidders) → ∀ b ∈ bidders, ∀ s,
      submissionFields engine (.obj fields) b = some s → UncheckedSubmission engine s
  winner : isNullOr isString (r "winner") = true
  status : isOneOf validStatuses (r "status") = true

/-- The required fields of a `CoreV2Receipt` are there, each of its type and format. -/
def WellFormedV2 (engine : Engine) (r : String → JsValue) : Prop :=
  CheckedFieldsV2 engine r ∧ UncheckedFieldsV2 engine r

/-- The declared winner of a closed auction is the first best among the flagged submissions, and
the declared amount is its bid. -/
def WinnerNamedV2 (engine : Engine) (r : String → JsValue) (bidders : List Json)
    (submissions : Json) : Prop :=
  isAuction r = true → hasStatus r "Cleared" = true ∨ hasStatus r "Settled" = true →
    ∃ winner value, strictEq (some winner) (r "winner") = true ∧
      decimal (r "winningAmount") = some value ∧ FirstBest.IsFirstBest
        (ranksOver (r "clearingRule")) (competingSubmission engine r submissions) bidders
        winner value

/-- The fields agree with each other wherever the verifier compares them. -/
structure ConsistentWithV2 (engine : Engine) (sha256 : Bytes → BytesN 32) (r : String → JsValue)
    (bidders : List Json) (submissions : Json) : Prop where
  identity : IdentityOk engine sha256 r
  opening : OpeningOk engine r
  policy : PolicyOk engine r
  mode : ModeOk r
  roster : RosterOk engine bidders submissions
  submission : ∀ b ∈ bidders, ∀ s, submissionFields engine submissions b = some s →
    SubmissionOk engine sha256 r s
  winner : WinnerNamedV2 engine r bidders submissions

def ConsistentV2 (engine : Engine) (sha256 : Bytes → BytesN 32) (r : String → JsValue) : Prop :=
  ∃ bidders fields, r "bidders" = some (.arr bidders) ∧ r "submissions" = some (.obj fields) ∧
    ConsistentWithV2 engine sha256 r bidders (.obj fields)

theorem ConsistentV2.checked (h : ConsistentV2 engine sha256 r) : CheckedFieldsV2 engine r := by
  obtain ⟨bidders, fields, hbidders, hsubmissions, hok⟩ := h
  have hidentity := hok.identity
  have hdecimal : ∀ {v}, isNonnegative (decimal v) = true → isDecimal v = true := by
    intro v h
    obtain ⟨a, ha, -⟩ := isNonnegative_iff.mp h
    rw [isDecimal, ha]
    rfl
  refine ⟨hidentity.contractId, Option.isSome_iff_ne_none.mpr hidentity.roundId, hidentity.itemRef,
    hidentity.schemaRef, hidentity.auditorPubkey, hidentity.revealRound, hidentity.maxParticipants,
    hdecimal hok.mode.lotAmount, hdecimal hok.mode.winningAmount, ?_, ?_⟩
  · rcases hok.mode.assets with ⟨hauction, -⟩ | ⟨honly, -⟩
    · rw [eq_of_strictEq hauction]
      rfl
    · rw [honly]
      rfl
  · intro list object hlist hobject b hb
    rw [hbidders] at hlist
    rw [hsubmissions] at hobject
    cases hlist
    cases hobject
    obtain ⟨s, hs⟩ := Option.isSome_iff_exists.mp (hok.roster.present b hb)
    have hsub := hok.submission b hb s hs
    refine ⟨s, hs, hsub.commitment, hdecimal hsub.escrow, ?_, ?_⟩
    · unfold isNullOr isDecimal
      rcases hsub.amount with h | h
      · rw [h, Bool.true_or]
      · rw [Option.isSome_iff_ne_none.mpr h, Bool.or_true]
    · unfold isNullOr
      by_cases hnull : strictEq (s "revealedEnvelope") (some .null) = true
      · rw [hnull, Bool.true_or]
      · rw [(hsub.revealed (by simpa using hnull)).hex, Bool.or_true]

/-- The outcome of the loop over the submissions, as a condition on them. An amount that is no
number has been refused before. -/
theorem winnerOk_iff {bidders : List Json} {submissions : Json} (hmode : ModeOk r) :
    WinnerOk r (FirstBest.scan (ranksOver (r "clearingRule"))
        (competingSubmission engine r submissions) bidders) ↔
      WinnerNamedV2 engine r bidders submissions := by
  refine forall₂_congr fun _ _ => ?_
  obtain ⟨amount, hamount, -⟩ := isNonnegative_iff.mp hmode.winningAmount
  rw [hamount]
  constructor
  · rintro ⟨hwinner, hvalue⟩
    obtain ⟨⟨winner, value⟩, hscan, rfl⟩ := Option.map_eq_some_iff.mp hvalue
    rw [hscan] at hwinner
    exact ⟨winner, value, hwinner, rfl, FirstBest.scan_eq_some hscan⟩
  · rintro ⟨winner, value, hwinner, hvalue, hbest⟩
    rw [hbest.scan_eq]
    exact ⟨hwinner, hvalue.symm⟩

theorem acceptedV2_iff {bidders : List Json} {submissions : Json} (hversion : hasVersion r) :
    (∃ leader, AcceptedV2 engine sha256 r bidders submissions leader) ↔
      ConsistentWithV2 engine sha256 r bidders submissions := by
  constructor
  · rintro ⟨leader, hok⟩
    have hwinner := hok.winner
    rw [hok.leader_best, winnerOk_iff hok.mode] at hwinner
    exact ⟨hok.identity, hok.opening, hok.policy, hok.mode, hok.roster, hok.submission, hwinner⟩
  · intro hok
    exact ⟨_, hversion, hok.identity, hok.opening, hok.policy, hok.mode, hok.roster,
      hok.submission, (foldl_advance (competingSubmission engine r submissions) bidders).symm,
      (winnerOk_iff hok.mode).mpr hok.winner⟩

/-- The verifier of structured receipts, by cases. -/
theorem verdict_iff_v2 {fields : List (String × Json)}
    (hversion : hasVersion (property engine (.obj fields))) :
    Verdict (WellFormedV2 engine (property engine (.obj fields)))
        (verifyReceiptV2 engine sha256 (.obj fields)) ↔
      ReadableV2 engine (property engine (.obj fields)) ∧
        (ConsistentV2 engine sha256 (property engine (.obj fields)) →
          UncheckedFieldsV2 engine (property engine (.obj fields))) := by
  have hobject : Json.obj fields ≠ .null := Json.noConfusion
  rw [verifyReceiptV2, verdict_conclude, returns_checkReceiptV2 hobject hversion]
  refine and_congr_right fun _ => ?_
  simp only [passes_checkReceiptV2, ne_eq, hobject, not_false_eq_true, true_and]
  constructor
  · rintro h ⟨bidders, submissions, hbidders, hsubmissions, hok⟩
    obtain ⟨leader, haccepted⟩ := (acceptedV2_iff hversion).mpr hok
    exact (h ⟨leader, bidders, submissions, hbidders, hsubmissions, haccepted⟩).2
  · rintro h ⟨leader, bidders, submissions, hbidders, hsubmissions, haccepted⟩
    have hok : ConsistentV2 engine sha256 (property engine (.obj fields)) :=
      ⟨bidders, submissions, hbidders, hsubmissions,
        (acceptedV2_iff hversion).mp ⟨leader, haccepted⟩⟩
    exact ⟨hok.checked, h hok⟩

end

/-- **Verdicts.** On a receipt of its version each verifier answers, and refuses what is not well
formed, exactly when it can read the receipt and nothing unchecked is malformed in one whose
fields agree. -/
theorem verifiers_answer_iff (engine : Engine) (sha256 : Bytes → BytesN 32)
    (fields : List (String × Json)) :
    (property engine (.obj fields) "version" = some (.num 1) →
      (Verdict (WellFormed engine (property engine (.obj fields)))
          (verifyReceipt engine sha256 (.obj fields)) ↔
        Readable engine (property engine (.obj fields)) ∧
          (Consistent engine sha256 (property engine (.obj fields)) →
            UncheckedFields engine (property engine (.obj fields))))) ∧
    (hasVersion (property engine (.obj fields)) →
      (Verdict (WellFormedV2 engine (property engine (.obj fields)))
          (verifyReceiptV2 engine sha256 (.obj fields)) ↔
        ReadableV2 engine (property engine (.obj fields)) ∧
          (ConsistentV2 engine sha256 (property engine (.obj fields)) →
            UncheckedFieldsV2 engine (property engine (.obj fields))))) :=
  ⟨verdict_iff, verdict_iff_v2⟩

namespace SampleVerdicts

def sha256 : Bytes → BytesN 32 := fun _ => BytesN.fill 32 0

/-- A receipt with nothing in it but its version and an empty list of bidders. -/
def bare : List (String × Json) := [("version", .num 1), ("bidders", .arr [])]

/-- A receipt with no more than what the verifier looks at. -/
def hollow : List (String × Json) :=
  [("version", .num 1), ("network", .str "N"),
    ("networkFingerprint", .str "0000000000000000000000000000000000000000000000000000000000000000"),
    ("contractId", .str "C"), ("roundId", .str "1"), ("clearingRule", .str "HighestBid"),
    ("bidders", .arr []), ("bids", .obj []), ("winner", .null)]

/-- A structured receipt whose only submission has no commitment. -/
def uncommitted : List (String × Json) :=
  [("version", .num 2), ("protocolVersion", .num 2), ("bidders", .arr [.str "GA"]),
    ("submissions", .obj [("GA", .obj [("revealedEnvelope", .str "00")])])]

/-- An auction of Alice and Bob; Bob's submission has this commitment. -/
def auction (commitment : Bytes) : Json := SampleReceipt.receipt [SampleReceipt.alice,
  ("GB", SampleReceipt.submission SampleReceipt.bobEnvelope commitment "40" false)]

theorem legacy_readable :
    Readable integerEngine (property integerEngine (SampleLegacy.receipt "30")) := by
  have hbidders : property integerEngine (SampleLegacy.receipt "30") "bidders" =
      some (.arr [.str "GA"]) := rfl
  have hentry : bidEntry integerEngine (property integerEngine (SampleLegacy.receipt "30"))
      (.str "GA") = some (property integerEngine SampleLegacy.alice) := rfl
  refine ⟨textual_str _, textual_str _, fun l hl => ?_, fun l hl b hb entry hread => ?_,
    fun l hl b hb entry hread => ?_, fun _ _ => textual_str _⟩
  all_goals
    rw [hbidders] at hl
    cases hl
  · refine ⟨fun b hb => ⟨"GA", List.mem_singleton.mp hb⟩, ⟨by rintro ⟨⟩, by rintro ⟨⟩⟩,
      fun _ => rfl⟩
  · rw [List.mem_singleton.mp hb, hentry] at hread
    cases hread
    intro _ _ value nonce hvalue _ _
    obtain rfl : 30 = value := Option.some_inj.mp ((show _ = _ from by decide +kernel).trans hvalue)
    exact ⟨by decide, _, rfl⟩
  · rw [List.mem_singleton.mp hb, hentry] at hread
    cases hread
    rintro evidence ⟨⟩ -
    exact ⟨textual_null, textual_null⟩

theorem legacy_formed :
    UncheckedFields integerEngine (property integerEngine (SampleLegacy.receipt "30")) := by
  have hbidders : property integerEngine (SampleLegacy.receipt "30") "bidders" =
      some (.arr [.str "GA"]) := rfl
  have hentry : bidEntry integerEngine (property integerEngine (SampleLegacy.receipt "30"))
      (.str "GA") = some (property integerEngine SampleLegacy.alice) := rfl
  have halice : UncheckedEntry integerEngine (property integerEngine SampleLegacy.alice) := by
    refine ⟨by decide +kernel, by decide +kernel, by decide +kernel, rfl, rfl, rfl, _, rfl, ?_⟩
    decide +kernel
  refine ⟨rfl, by decide +kernel, by decide +kernel, by decide +kernel, by decide +kernel,
    by decide +kernel, rfl, by decide +kernel, ⟨_, rfl⟩, fun l hl b hb => ?_, rfl,
    by decide +kernel, by decide +kernel⟩
  rw [hbidders] at hl
  cases hl
  rw [List.mem_singleton.mp hb]
  exact ⟨_, hentry, halice⟩

theorem auction_readable (commitment : Bytes) :
    ReadableV2 integerEngine (property integerEngine (auction commitment)) := by
  have hbidders : property integerEngine (auction commitment) "bidders" =
      some (.arr [.str "GA", .str "GB"]) := rfl
  refine ⟨textual_str _, ?_, textual_str _, fun l fields hl _ b hb => ?_,
    fun l fields hl hfields b hb s hs => ?_⟩
  · rintro p participants hp - hlist
    obtain rfl := Option.some_inj.mp (show _ = _ from hp)
    cases hlist
    exact ⟨⟨_, rfl⟩, fun _ _ _ hpos => absurd hpos (Nat.lt_irrefl 0)⟩
  · rw [hbidders] at hl
    cases hl
    rcases List.mem_cons.mp hb with rfl | hb
    · exact textual_str _
    · rw [List.mem_singleton.mp hb]
      exact textual_str _
  · rw [hbidders] at hl
    cases hl
    cases hfields
    rcases List.mem_cons.mp hb with rfl | hb
    · cases hs
      exact fun _ => ⟨_, rfl⟩
    · rw [List.mem_singleton.mp hb] at hs
      cases hs
      exact fun _ => ⟨_, rfl⟩

theorem auction_formed :
    UncheckedFieldsV2 integerEngine (property integerEngine (auction SampleReceipt.bobHash)) := by
  have hbidders : property integerEngine (auction SampleReceipt.bobHash) "bidders" =
      some (.arr [.str "GA", .str "GB"]) := rfl
  have hsubmission : ∀ envelope hash amount valid, UncheckedSubmission integerEngine
      (property integerEngine (SampleReceipt.submission envelope hash amount valid)) := by
    intro envelope hash amount valid
    refine ⟨rfl, rfl, _, rfl, ?_⟩
    decide +kernel
  refine ⟨rfl, by decide +kernel, rfl, by decide +kernel, by decide +kernel, by decide +kernel,
    by decide +kernel, by decide +kernel, by decide +kernel, by decide +kernel, rfl,
    ⟨_, rfl, rfl, rfl, by decide +kernel, [], rfl, by simp⟩, fun hthree => ?_, ⟨_, hbidders, ?_⟩,
    ⟨_, rfl, fun l hl b hb s hs => ?_⟩, rfl, by decide +kernel⟩
  · exact absurd hthree (by decide)
  · simp [isString]
  · rw [hbidders] at hl
    cases hl
    rcases List.mem_cons.mp hb with rfl | hb
    · cases hs
      exact hsubmission ..
    · rw [List.mem_singleton.mp hb] at hs
      cases hs
      exact hsubmission ..

/-- A commitment of no bytes is no commitment. -/
theorem auction_unbound :
    ¬ CheckedFieldsV2 integerEngine (property integerEngine (auction [])) := by
  intro hchecked
  obtain ⟨s, hs, hcommitment, -⟩ := hchecked.submission _ _ rfl rfl (.str "GB") (by simp)
  cases hs
  exact absurd hcommitment (by decide +kernel)

end SampleVerdicts

open SampleVerdicts in
/-- A legacy receipt and an auction, both complete, get their verdict, and so does the auction
without the commitment of Bob: it is refused. -/
theorem verifiers_answer_sample :
    Verdict (WellFormed integerEngine (property integerEngine (SampleLegacy.receipt "30")))
      (verifyReceipt integerEngine SampleLegacy.sha256 (SampleLegacy.receipt "30")) ∧
    Verdict (WellFormedV2 integerEngine (property integerEngine (auction SampleReceipt.bobHash)))
      (verifyReceiptV2 integerEngine SampleReceipt.sha256 (auction SampleReceipt.bobHash)) ∧
    ∃ result, verifyReceiptV2 integerEngine SampleReceipt.sha256 (auction []) = .ok result ∧
      result.valid = false := by
  refine ⟨?_, ?_, ?_⟩
  · exact ((verifiers_answer_iff integerEngine SampleLegacy.sha256 _).1 rfl).mpr
      ⟨legacy_readable, fun _ => legacy_formed⟩
  · exact ((verifiers_answer_iff integerEngine SampleReceipt.sha256 _).2 (by decide)).mpr
      ⟨auction_readable _, fun _ => auction_formed⟩
  · obtain ⟨result, hresult, hrefuse⟩ := ((verifiers_answer_iff integerEngine SampleReceipt.sha256
      _).2 (by decide)).mpr ⟨auction_readable [], fun h => absurd h.checked auction_unbound⟩
    exact ⟨result, hresult, hrefuse fun hformed => auction_unbound hformed.1⟩

open SampleVerdicts in
/-- The verifiers throw on receipts without entries or without a commitment, and accept a receipt
without most of its fields. -/
theorem verifiers_fail :
    ¬ Verdict (WellFormed integerEngine (property integerEngine (.obj bare)))
      (verifyReceipt integerEngine sha256 (.obj bare)) ∧
    ¬ Verdict (WellFormed integerEngine (property integerEngine (.obj hollow)))
      (verifyReceipt integerEngine sha256 (.obj hollow)) ∧
    ¬ Verdict (WellFormedV2 integerEngine (property integerEngine (.obj uncommitted)))
      (verifyReceiptV2 integerEngine sha256 (.obj uncommitted)) := by
  refine ⟨?_, ?_, ?_⟩
  · have hthrows : verifyReceipt integerEngine sha256 (.obj bare) = .error (.native .typeError) :=
      rfl
    rintro ⟨_, h, -⟩
    rw [hthrows] at h
    cases h
  · have haccepts : accepts integerEngine sha256 (.obj hollow) = true := by decide +kernel
    obtain ⟨result, hresult, hvalid⟩ := accepted_of_accepts haccepts
    rintro ⟨_, h, hrefuse⟩
    rw [hresult] at h
    cases h
    rw [hrefuse fun hformed => ?_] at hvalid
    · cases hvalid
    · have hmissing := hformed.2.exportedAt
      cases hmissing
  · have hthrows : verifyReceiptV2 integerEngine sha256 (.obj uncommitted) =
        .error (.native .typeError) := rfl
    rintro ⟨_, h, -⟩
    rw [hthrows] at h
    cases h

end SubRosa.Sdk
