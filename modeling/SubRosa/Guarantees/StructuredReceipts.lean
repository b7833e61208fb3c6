import SubRosa.Auction.Model
import SubRosa.Guarantees.Envelopes
import SubRosa.Library.IntegerEngine
import SubRosa.Sdk.AcceptedV2

/-!
# What an accepted structured receipt proves

The outcome that clearing computes from the data of a receipt, and when the
verifier's acceptance forces the declared outcome to be that one. The verifier
takes the flags of the submissions and the clearing rule as they come.
-/

namespace SubRosa.Sdk

open JavaScript MachineInt

def clearingRule? : JsValue → Option ClearingRule
  | some (.str "HighestBid") => some .HighestBid
  | some (.str "LowestBid") => some .LowestBid
  | _ => none

def biddersOf (r : String → JsValue) : List Json :=
  match r "bidders" with
  | some (.arr bidders) => bidders
  | _ => []

def submissionsOf (r : String → JsValue) : Json := (r "submissions").getD .null

/-- The bid of a submission whose envelope hashes to the commitment and carries an amount that is
positive and within the escrow. -/
def qualifyingAmount (sha256 : Bytes → BytesN 32) (submission : String → JsValue) : Option Int :=
  match submission "revealedEnvelope", submission "commitment", decimal (submission "escrow") with
  | some (.str hex), some (.str text), some escrow =>
    (fromHexText hex).toOption.bind fun envelope =>
      (decodeEnvelope envelope).toOption.bind fun payload =>
        payload.amount.bind fun amount =>
          if (fromHexText text).toOption = some (sha256 envelope).val ∧ 0 < amount.toInt ∧
              amount.toInt ≤ escrow then
            some amount.toInt
          else none
  | _, _, _ => none

/-- The bid with which a bidder enters the scan of `clear_v2`. -/
def qualifyingBid (engine : Engine) (sha256 : Bytes → BytesN 32) (r : String → JsValue)
    (bidder : Json) : Option Int :=
  (submissionFields engine (submissionsOf r) bidder).bind (qualifyingAmount sha256)

/-- The best bid is declared as the winner, and no winner when there is none. -/
def Declares : Leader → JsValue → Option Int → Prop
  | some (bidder, best), winner, amount => strictEq (some bidder) winner = true ∧ amount = some best
  | none, winner, amount => strictEq winner (some .null) = true ∧ amount = some 0

instance : ∀ best winner amount, Decidable (Declares best winner amount)
  | some _, _, _ => inferInstanceAs (Decidable (_ ∧ _))
  | none, _, _ => inferInstanceAs (Decidable (_ ∧ _))

/-- The receipt declares what `clear_v2` computes from its own data. -/
def ExactOutcomeV2 (engine : Engine) (sha256 : Bytes → BytesN 32) (r : String → JsValue) : Prop :=
  ∃ rule, clearingRule? (r "clearingRule") = some rule ∧
    Declares (FirstBest.scan rule.Better (qualifyingBid engine sha256 r) (biddersOf r)) (r "winner")
      (decimal (r "winningAmount"))

/-- The rule is one of the two, and every submission without the flag that would qualify is behind
one that has it. -/
def FlagsSufficeV2 (engine : Engine) (sha256 : Bytes → BytesN 32) (r : String → JsValue) : Prop :=
  ∃ rule, clearingRule? (r "clearingRule") = some rule ∧
    FirstBest.Covered rule.Better (qualifyingBid engine sha256 r)
      (isFlagged engine (submissionsOf r)) (biddersOf r)

section

variable {engine : Engine} {sha256 : Bytes → BytesN 32} {r : String → JsValue} {bidders : List Json}
  {submissions receipt : Json} {leader : Leader}

theorem ranksOver_clearingRule {rule : ClearingRule}
    (h : clearingRule? (r "clearingRule") = some rule)
    (u v : Int) : ranksOver (r "clearingRule") u v ↔ rule.Better u v := by
  unfold clearingRule? at h
  split at h
  · next heq =>
    cases h
    rw [heq]
    exact Iff.rfl
  · next heq =>
    cases h
    rw [heq]
    exact Iff.rfl
  · cases h

theorem exactOutcomeV2_iff {rule : ClearingRule}
    (h : clearingRule? (r "clearingRule") = some rule) :
    ExactOutcomeV2 engine sha256 r ↔
      Declares (FirstBest.scan rule.Better (qualifyingBid engine sha256 r) (biddersOf r))
        (r "winner") (decimal (r "winningAmount")) := by
  constructor
  · rintro ⟨_, hrule, hdeclares⟩
    rw [h] at hrule
    cases hrule
    exact hdeclares
  · intro hdeclares
    exact ⟨rule, h, hdeclares⟩

/-- A competing submission that passes qualifies, with the amount the verifier reads. -/
theorem SubmissionOk.qualifies {s : String → JsValue} (h : SubmissionOk engine sha256 r s)
    (hauction : isAuction r = true) (hvalid : truthy (s "valid") = true) :
    ∃ a, envelopeAmount s = some a ∧ qualifyingAmount sha256 s = some a := by
  obtain ⟨a, e, ha, he, hpos, hle⟩ := h.competes hauction hvalid
  refine ⟨a, ha, ?_⟩
  have hrevealed : strictEq (s "revealedEnvelope") (some .null) = false := by
    by_contra hnull
    rw [h.sealed (by simpa using hnull)] at hvalid
    cases hvalid
  have henvelope := h.revealed hrevealed
  obtain ⟨hex, hhex, htext, heven⟩ := isHexValue_some.mp henvelope.hex
  have hbytes := fromHexText_hex htext heven
  obtain ⟨text, hcommitment, hhash⟩ := henvelope.commits hex _ hhex hbytes
  obtain ⟨x, hx⟩ := henvelope.decodes
  have hdecode : decodePayloadEnvelope (parsePairs hex.toList) = .ok x := by
    simpa only [revealedEnvelope, hhex, hbytes, bind_ok] using hx
  obtain ⟨d, hd⟩ := same_strings.mpr ⟨x, hdecode⟩
  have hamount := same_amount hd hdecode
  have hax : x.amount = some a := by
    rw [envelopeAmount, hx] at ha
    exact ha
  rw [hax] at hamount
  obtain ⟨amount, hda, rfl⟩ := Option.map_eq_some_iff.mp hamount.symm
  simp [qualifyingAmount, hhex, hcommitment, he, hbytes, hd, hda, hhash, Except.toOption, hpos, hle]

/-- In an accepted auction the verifier scans the qualifying bids of the flagged submissions. -/
theorem AcceptedV2.leader_scan (h : AcceptedV2 engine sha256 r bidders submissions leader)
    (hauction : isAuction r = true) : leader = FirstBest.scan (ranksOver (r "clearingRule"))
      (FirstBest.restrict (isFlagged engine submissions)
        fun b => (submissionFields engine submissions b).bind (qualifyingAmount sha256))
        bidders := by
  have hstep : ∀ b ∈ bidders, (submissionFields engine submissions b).bind (competingAmount r) =
      FirstBest.restrict (isFlagged engine submissions)
        (fun b => (submissionFields engine submissions b).bind (qualifyingAmount sha256)) b := by
    intro b hb
    cases hs : submissionFields engine submissions b with
    | none => simp [FirstBest.restrict, hs]
    | some s =>
      by_cases hvalid : truthy (s "valid") = true
      · obtain ⟨a, ha, hq⟩ := (h.submission b hb s hs).qualifies hauction hvalid
        simp [FirstBest.restrict, isFlagged, hs, competingAmount, hauction, hvalid, ha, hq]
      · simp [FirstBest.restrict, isFlagged, hs, competingAmount, hvalid]
  rw [h.leader_eq, foldl_advance]
  exact FirstBest.scan_congr hstep

theorem scan_clearingRule {rule : ClearingRule} (h : clearingRule? (r "clearingRule") = some rule)
    (value : Json → Option Int) : FirstBest.scan (ranksOver (r "clearingRule")) value bidders =
      FirstBest.scan rule.Better value bidders := by
  have hmap := FirstBest.scan_map (ranksOver_clearingRule h) value bidders
  simpa using hmap.symm

/-- The verifier recomputes the declared winner from the flagged submissions. -/
theorem AcceptedV2.declared (h : AcceptedV2 engine sha256 r bidders submissions leader)
    (hauction : isAuction r = true)
    (hstatus : hasStatus r "Cleared" = true ∨ hasStatus r "Settled" = true) :
    ∃ w v, leader = some (w, v) ∧ strictEq (some w) (r "winner") = true ∧
      decimal (r "winningAmount") = some v := by
  obtain ⟨hwinner, hamount⟩ := h.winner hauction hstatus
  obtain ⟨v, hv, -⟩ := isNonnegative_iff.mp h.mode.winningAmount
  rw [hv] at hamount
  obtain ⟨⟨w, _⟩, rfl, rfl⟩ := Option.map_eq_some_iff.mp hamount
  exact ⟨w, _, rfl, hwinner, hv⟩

/-- **Soundness of structured receipts.** An accepted receipt of a cleared or settled auction
declares the outcome of `clear_v2` exactly when its flags suffice. -/
theorem structured_receipt_sound_iff {result : VerificationResult}
    (haccepted : verifyReceiptV2 engine sha256 receipt = .ok result) (hvalid : result.valid = true)
    (hmode : property engine receipt "mode" = some (.str "Auction"))
    (hstatus : property engine receipt "status" = some (.str "Cleared") ∨
      property engine receipt "status" = some (.str "Settled")) :
    ExactOutcomeV2 engine sha256 (property engine receipt) ↔
      FlagsSufficeV2 engine sha256 (property engine receipt) := by
  obtain ⟨leader, hpasses⟩ := conclude_valid.mp ⟨result, haccepted, hvalid⟩
  obtain ⟨-, bidders, fields, hbidders, hsubmissions, hok⟩ := passes_checkReceiptV2.mp hpasses
  generalize property engine receipt = r at hmode hstatus hbidders hsubmissions hok
  have hauction : isAuction r = true := by simp [isAuction, hmode, strictEq]
  have hclosed : hasStatus r "Cleared" = true ∨ hasStatus r "Settled" = true :=
    hstatus.imp (fun h => by simp [hasStatus, h, strictEq])
      fun h => by simp [hasStatus, h, strictEq]
  have hlist : biddersOf r = bidders := by rw [biddersOf, hbidders]
  have hobject : submissionsOf r = .obj fields := by
    rw [submissionsOf, hsubmissions, Option.getD_some]
  obtain ⟨w, v, rfl, hwinner, hamount⟩ := hok.declared hauction hclosed
  have hscan := hok.leader_scan hauction
  have hbid : (fun b => (submissionFields engine (.obj fields) b).bind (qualifyingAmount sha256)) =
      qualifyingBid engine sha256 r := by
    funext b
    rw [qualifyingBid, hobject]
  rw [hbid, ← hobject] at hscan
  refine exists_congr fun rule => and_congr_right fun hrule => ?_
  rw [scan_clearingRule hrule] at hscan
  rw [hlist, ← FirstBest.scan_restrict_eq_iff, ← hscan]
  constructor
  · intro hdeclares
    cases hall : FirstBest.scan rule.Better (qualifyingBid engine sha256 r) bidders with
    | none =>
      -- the verifier has a winner, so some submission qualifies
      obtain ⟨hflag, hw⟩ := FirstBest.restrict_eq_some.mp (FirstBest.scan_eq_some hscan.symm).1
      have hnone := FirstBest.scan_eq_none.mp hall w (FirstBest.scan_eq_some hscan.symm).mem
      rw [hw] at hnone
      cases hnone
    | some p =>
      rw [hall] at hdeclares
      obtain ⟨hbest, hbestAmount⟩ := hdeclares
      have hsame := (eq_of_strictEq hwinner).trans (eq_of_strictEq hbest).symm
      rw [hamount, Option.some_inj] at hbestAmount
      rw [Option.some_inj] at hsame
      rw [hsame, hbestAmount]
  · intro heq
    rw [heq]
    exact ⟨hwinner, hamount⟩

end

/-! ## Receipts of a small auction -/

namespace SampleReceipt

def network : String := "Test SDF Network ; September 2015"

def networkHash : Bytes :=
  [206, 224, 48, 45, 89, 132, 77, 50, 189, 202, 145, 92, 130, 3, 221, 68, 179, 63, 187,
  126, 220, 25,
    5, 30, 163, 122, 190, 223, 40, 236, 212, 114]

def aliceEnvelope : Bytes :=
  envelopeBytes (I128.ofInt? 30) (List.replicate 32 7) []

def aliceHash : Bytes :=
  [134, 237, 85, 53, 240, 133, 79, 235, 179, 176, 37, 58, 224, 85, 59, 144, 145, 201, 97, 64, 215,
    134, 152, 227, 244, 93, 14, 151, 237, 231, 49, 109]

def bobEnvelope : Bytes :=
  envelopeBytes (I128.ofInt? 40) (List.replicate 32 9) []

def bobHash : Bytes :=
  [123, 44, 212, 20, 74, 201, 98, 118, 99, 30, 169, 23, 201, 217, 203, 105, 41, 161, 52, 48, 37, 84,
    232, 160, 6, 164, 250, 61, 114, 202, 38, 0]

/-- SHA-256 on the texts that occur in the sample. -/
def sha256 (bytes : Bytes) : BytesN 32 :=
  if bytes = aliceEnvelope then ⟨aliceHash, rfl⟩
  else if bytes = bobEnvelope then ⟨bobHash, rfl⟩
  else ⟨networkHash, rfl⟩

def submission (envelope hash : Bytes) (amount : String) (valid : Bool) : Json :=
  .obj [("commitment", .str (toHex hash)), ("escrow", .str "50"),
    ("revealedEnvelope", .str (toHex envelope)), ("revealedAmount", .str amount),
    ("valid", .bool valid), ("settled", .bool false),
    ("evidence", .obj [("ciphertext", .null), ("auditorBlob", .null)])]

/-- A highest bid auction over these submissions that Alice won with 30. -/
def receipt (submissions : List (String × Json)) : Json :=
  .obj [("version", .num 2), ("protocolVersion", .num 2), ("network", .str network),
    ("networkFingerprint", .str (toHex networkHash)), ("contractId", .str "CA"),
    ("exportedAt", .str "2026-01-01T00:00:00.000Z"), ("roundId", .str "1"),
    ("itemRef", .str (toHex (List.replicate 32 1))),
    ("schemaRef", .str (toHex (List.replicate 32 2))),
    ("mode", .str "Auction"), ("paymentAsset", .str "CB"), ("lotAsset", .str "CC"),
    ("lotAmount", .str "5"), ("revealRound", .num 3), ("drandGenesis", .str "1000"),
    ("drandPeriod", .str "30"), ("clearingRule", .str "HighestBid"),
    ("commitDeadline", .str "1050"),
    ("revealDeadline", .str "1100"), ("operator", .str "GO"), ("auditorPubkey", .str ""),
    ("maxParticipants", .num 25),
    ("policy", .obj [("enforced", .bool false), ("fixedEscrow", .null),
      ("participation", .str "Open"), ("eligibleParticipants", .arr [])]),
    ("bidders", .arr (submissions.map fun entry => .str entry.1)),
    ("submissions", .obj submissions),
    ("winner", .str "GA"), ("winningAmount", .str "30"), ("status", .str "Cleared")]

/-- Alice bids 30. -/
def alice : String × Json := ("GA", submission aliceEnvelope aliceHash "30" true)

/-- Bob bids 40, and his flag is removed. -/
def bob : String × Json := ("GB", submission bobEnvelope bobHash "40" false)

theorem accepts {receipt : Json}
    (h : (verifyReceiptV2 integerEngine sha256 receipt).toOption.map VerificationResult.valid =
      some true) :
    ∃ result, verifyReceiptV2 integerEngine sha256 receipt = .ok result ∧ result.valid = true := by
  cases hv : verifyReceiptV2 integerEngine sha256 receipt with
  | error e =>
    rw [hv] at h
    cases h
  | ok result =>
    rw [hv] at h
    exact ⟨result, rfl, Option.some_inj.mp h⟩

end SampleReceipt

open SampleReceipt in
theorem structured_receipt_sound_sample :
    ExactOutcomeV2 integerEngine SampleReceipt.sha256
      (property integerEngine (receipt [alice])) := by
  have haccepts : (verifyReceiptV2 integerEngine SampleReceipt.sha256
      (receipt [alice])).toOption.map VerificationResult.valid = some true := by decide +kernel
  obtain ⟨result, haccepted, hvalid⟩ := SampleReceipt.accepts haccepts
  refine (structured_receipt_sound_iff haccepted hvalid rfl (.inl rfl)).mpr
    ⟨.HighestBid, rfl, fun pre x post hl hflag => ?_⟩
  have hx : x = .str "GA" := by
    have hmem : x ∈ biddersOf (property integerEngine (receipt [alice])) := by
      rw [hl]
      simp
    exact List.mem_singleton.mp hmem
  rw [hx] at hflag
  cases hflag

open SampleReceipt in
/-- A receipt that is accepted with another outcome, the flag of the higher bid removed. -/
theorem structured_receipt_forged :
    (∃ result, verifyReceiptV2 integerEngine SampleReceipt.sha256
        (receipt [alice, bob]) = .ok result ∧ result.valid = true) ∧
      ¬ ExactOutcomeV2 integerEngine SampleReceipt.sha256
        (property integerEngine (receipt [alice, bob])) := by
  refine ⟨SampleReceipt.accepts (by decide +kernel), ?_⟩
  rw [exactOutcomeV2_iff (show _ = some ClearingRule.HighestBid from rfl)]
  decide +kernel

end SubRosa.Sdk
