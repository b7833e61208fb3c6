import SubRosa.Sdk.Readable

/-!
# Structured receipts a verifier can read

The sections of `verifyReceiptV2` do not throw but for a few uses of a field.
-/

namespace SubRosa.Sdk

open JavaScript Report MachineInt

section

variable {engine : Engine} {sha256 : Bytes → BytesN 32} {r : String → JsValue}

/-! ## The head of the receipt -/

theorem stops_checkIdentity : ¬ Stops (checkIdentity engine sha256 r) := by
  simp [checkIdentity, checkNetwork, stops_ite]

theorem finishes_checkIdentity : Finishes (checkIdentity engine sha256 r) () ↔
    Textual engine (r "network") := by
  have hnetwork : Finishes (checkNetwork engine sha256 r) () ↔ Textual engine (r "network") := by
    unfold checkNetwork
    by_cases htrue : truthy (r "network") = true
    · simp [htrue, Textual]
    · simp [htrue, textual_of_falsy (by simpa using htrue)]
  simp [checkIdentity, hnetwork]

theorem stops_checkOpening : ¬ Stops (checkOpening engine r) := by
  have hreveal : ¬ Stops (checkRevealPolicy engine r) := by
    unfold checkRevealPolicy
    split
    · simp [stops_ite]
    · simp
  simp [checkOpening, checkOpenedAt, stops_ite, hreveal]

theorem finishes_checkOpening : Finishes (checkOpening engine r) () := by
  have hreveal : Finishes (checkRevealPolicy engine r) () := by
    unfold checkRevealPolicy
    split
    · simp [clean_ite]
    · simp
  simp [checkOpening, checkOpenedAt, clean_ite, hreveal]

theorem stops_checkMode : ¬ Stops (checkMode engine r) := by
  simp [checkMode, stops_ite]

theorem finishes_checkMode : Finishes (checkMode engine r) () ↔ Textual engine (r "mode") := by
  have hname : ∀ mode, strictEq (r "mode") (some (.str mode)) = true →
      Textual engine (r "mode") := by
    intro mode h
    rw [eq_of_strictEq h]
    exact textual_str mode
  unfold checkMode isAuction
  by_cases hauction : strictEq (r "mode") (some (.str "Auction")) = true
  · simp [hauction, hname _ hauction]
  · by_cases honly : strictEq (r "mode") (some (.str "ReceiptOnly")) = true
    · simp [hauction, honly, hname _ honly]
    · simp [hauction, honly, Textual]

/-! ## The policy -/

/-- The cap is a number in the end, and a bidder off the list has a text. -/
structure EligibilityReadable (engine : Engine) (r : String → JsValue) (enforced : Bool)
    (participants : List Json) : Prop where
  cap : ∃ cap, toNumber engine (r "maxParticipants") = .ok cap
  ineligible : ∀ bidders, r "bidders" = some (.arr bidders) → enforced = true →
    0 < (setOf participants).length →
      ∀ b ∈ bidders, hasValue (setOf participants) b = false → Textual engine (some b)

/-- The list of a policy can be compared with the bidders. -/
def PolicyReadable (engine : Engine) (r : String → JsValue) : Prop :=
  ∀ p participants, r "policy" = some p → isObject (some p) = true →
    property engine p "eligibleParticipants" = some (.arr participants) →
      EligibilityReadable engine r (truthy (property engine p "enforced")) participants

theorem stops_checkEligible {eligible bidders : List Json} :
    ¬ Stops (checkEligible engine eligible bidders) := by
  refine stops_forM fun b _ => ?_
  simp [stops_ite]

theorem finishes_checkEligible {eligible bidders : List Json} :
    Finishes (checkEligible engine eligible bidders) () ↔
      ∀ b ∈ bidders, hasValue eligible b = false → Textual engine (some b) := by
  unfold checkEligible
  rw [Finishes, clean_forM]
  refine forall₂_congr fun b _ => ?_
  simp [clean_ite, Textual]

theorem stops_checkEligibility {enforced : Bool} {policy : String → JsValue} :
    ¬ Stops (checkEligibility engine r enforced policy) := by
  unfold checkEligibility
  split
  · simp only [stops_bind, stops_addIf, stops_lift, false_or, not_exists, not_and]
    rintro ⟨⟩ - cap - ⟨⟩ - ⟨⟩ -
    split
    · simp [stops_ite, stops_checkEligible]
    · simp
  · simp

theorem finishes_checkEligibility {enforced : Bool} {policy : String → JsValue} :
    Finishes (checkEligibility engine r enforced policy) () ↔
      ∀ participants, policy "eligibleParticipants" = some (.arr participants) →
        EligibilityReadable engine r enforced participants := by
  unfold checkEligibility
  split
  · next participants heq =>
    simp only [clean_bind, clean_addIf, clean_lift, not_false_eq_true, implies_true, true_and,
      exists_const, heq]
    split
    · next bidders hbidders =>
      have hlist : Finishes (if enforced = true ∧ 0 < (setOf participants).length then
          checkEligible engine (setOf participants) bidders else pure () : Check Unit) () ↔
          ∀ list, r "bidders" = some (.arr list) → enforced = true →
            0 < (setOf participants).length →
              ∀ b ∈ list, hasValue (setOf participants) b = false → Textual engine (some b) := by
        simp [clean_ite, finishes_checkEligible, hbidders]
      constructor
      · rintro ⟨cap, hcap, hineligible⟩ list ⟨⟩
        exact ⟨⟨cap, hcap⟩, hlist.mp hineligible⟩
      · intro h
        obtain ⟨⟨cap, hcap⟩, hineligible⟩ := h participants rfl
        exact ⟨cap, hcap, hlist.mpr hineligible⟩
    · next hno =>
      constructor
      · rintro ⟨cap, hcap, -⟩ list ⟨⟩
        exact ⟨⟨cap, hcap⟩, fun bidders h => absurd h (hno bidders)⟩
      · intro h
        obtain ⟨⟨cap, hcap⟩, -⟩ := h participants rfl
        exact ⟨cap, hcap, clean_pure.mpr rfl⟩
  · next hno =>
    exact iff_of_true (clean_add.mpr (by simp)) fun list h => absurd h (hno list)

theorem stops_checkPolicy : ¬ Stops (checkPolicy engine r) := by
  unfold checkPolicy
  split
  · simp [stops_ite, stops_checkEligibility]
  · simp

theorem finishes_checkPolicy : Finishes (checkPolicy engine r) () ↔ PolicyReadable engine r := by
  unfold checkPolicy PolicyReadable
  split
  · next p hp =>
    by_cases hobject : isObject (some p) = true
    · simp only [hobject, if_true, clean_bind, clean_addIf, not_false_eq_true, implies_true,
        true_and, exists_const, and_true]
      constructor
      · rintro ⟨⟨⟩, h⟩ _ participants heq - hlist
        rw [hp] at heq
        cases heq
        exact finishes_checkEligibility.mp h participants hlist
      · intro h
        exact ⟨(), finishes_checkEligibility.mpr fun participants hlist =>
          h p participants hp hobject hlist⟩
    · rw [if_neg hobject]
      refine iff_of_true (clean_add.mpr (by simp)) fun q participants hq hq' => ?_
      rw [hp] at hq
      cases hq
      exact absurd hq' hobject
  · next hno =>
    exact iff_of_true (clean_add.mpr (by simp)) fun p _ hp => by rw [hno] at hp; cases hp

/-! ## Bidders and submissions -/

theorem submissionOf_eq_ok (submissions bidder : Json) :
    (∃ p, submissionOf engine submissions bidder = .ok p) ↔ Textual engine (some bidder) := by
  unfold submissionOf Textual
  cases text engine (some bidder) <;> simp [bind, Except.bind, pure, Except.pure]

theorem stops_visitBidder {submissions : Json} (seen : List Json) (bidder : Json) :
    ¬ Stops (visitBidder engine submissions seen bidder) := by
  simp [visitBidder]

theorem stops_checkRoster {submissions : Json} {bidders : List Json} :
    ¬ Stops (checkRoster engine bidders submissions) := by
  simp [checkRoster, stops_forM, stops_foldlM, stops_visitBidder]

theorem finishes_visitBidder {submissions : Json} (seen : List Json) (bidder : Json) :
    (∃ t, Finishes (visitBidder engine submissions seen bidder) t) ↔
      Textual engine (some bidder) := by
  rw [← submissionOf_eq_ok submissions bidder]
  simp [visitBidder]

theorem finishes_checkRoster {submissions : Json} {bidders : List Json} :
    Finishes (checkRoster engine bidders submissions) () ↔
      ∀ b ∈ bidders, Textual engine (some b) := by
  have hloop : (∃ seen, Finishes (bidders.foldlM (visitBidder engine submissions) []) seen) ↔
      ∀ b ∈ bidders, Textual engine (some b) :=
    exists_clean_foldlM fun b _ seen => finishes_visitBidder seen b
  rw [← hloop, checkRoster]
  simp [clean_forM]

/-- A revealed envelope comes with a text to compare its hash with. -/
def EnvelopeReadable (submission : String → JsValue) : Prop :=
  isHexValue (submission "revealedEnvelope") = true →
    ∃ text, submission "commitment" = some (.str text)

theorem stops_checkEnvelope {path : String} {submission : String → JsValue} {amount : Option Int} :
    ¬ Stops (checkEnvelope engine sha256 path submission amount) := by
  unfold checkEnvelope
  split
  · simp
  · split
    · split
      · simp only [stops_bind, stops_lift, stops_addIf, false_or, not_exists, not_and]
        rintro bytes - declared - ⟨⟩ -
        split
        · simp
        · simp
      · simp
    · simp

theorem finishes_checkEnvelope {path : String} {submission : String → JsValue}
    {amount : Option Int} :
    (∃ t, Finishes (checkEnvelope engine sha256 path submission amount) t) ↔
      EnvelopeReadable submission := by
  unfold checkEnvelope EnvelopeReadable
  by_cases hnull : strictEq (submission "revealedEnvelope") (some .null) = true
  · rw [if_pos hnull, strictEq_null.mp hnull]
    refine iff_of_true ⟨none, ?_⟩ (by simp [isHexValue])
    simp
  · rw [if_neg hnull]
    split
    · next hex hrevealed =>
      rw [hrevealed]
      by_cases hhex : isHexValue (some (.str hex)) = true
      · obtain ⟨_, heq, htext, heven⟩ := isHexValue_some.mp hhex
        cases heq
        have hbytes := fromHexText_hex htext heven
        have hlower := toLowerCase_eq_ok (v := submission "commitment")
        rw [if_pos hhex, ← hlower]
        simp only [hhex, true_implies, clean_bind, clean_lift, clean_addIf, not_false_eq_true,
          implies_true, true_and, exists_const, hbytes, Except.ok.injEq, exists_eq_left']
        constructor
        · rintro ⟨t, declared, hdeclared, -⟩
          exact ⟨declared, hdeclared⟩
        · rintro ⟨declared, hdeclared⟩
          cases decodePayloadEnvelope (parsePairs hex.toList) with
          | ok envelope => exact ⟨envelope.amount, declared, hdeclared, by simp⟩
          | error e => exact ⟨none, declared, hdeclared, by simp⟩
      · rw [if_neg hhex]
        exact iff_of_true ⟨none, by simp⟩ fun h => absurd h hhex
    · next hno =>
      refine iff_of_true ⟨none, by simp⟩ fun h => ?_
      obtain ⟨text, htext, -⟩ := isHexValue_some.mp h
      exact absurd htext (hno text)

theorem stops_rankSubmission {path : String} {bidder : Json} {submission : String → JsValue}
    {amount escrow : Option Int} {leader : Leader} :
    ¬ Stops (rankSubmission r path bidder submission amount escrow leader) := by
  unfold rankSubmission compete
  split
  · split
    · simp
    · simp [stops_ite]
  · simp

theorem finishes_rankSubmission {path : String} {bidder : Json} {submission : String → JsValue}
    {amount escrow : Option Int} {leader : Leader} :
    ∃ t, Finishes (rankSubmission r path bidder submission amount escrow leader) t := by
  unfold rankSubmission compete
  split
  · split
    · exact ⟨leader, by simp⟩
    · split
      · exact ⟨leader, by simp⟩
      · split
        · exact ⟨leader, by simp⟩
        · exact ⟨_, clean_pure.mpr rfl⟩
  · exact ⟨_, clean_pure.mpr rfl⟩

theorem stops_checkEvidence {path : String} {evidence : JsValue} :
    ¬ Stops (checkEvidence path evidence) := by
  unfold checkEvidence
  split
  · simp
  · simp
  · exact stops_forM fun _ _ => stops_addIf _

theorem finishes_checkEvidence {path : String} {evidence : JsValue} :
    Finishes (checkEvidence path evidence) () := by
  unfold checkEvidence
  split
  · simp
  · simp
  · simp [clean_forM]

theorem finishes_checkSubmission {path : String} {bidder : Json} {submission : String → JsValue}
    {leader : Leader} :
    (∃ t, Finishes (checkSubmission engine sha256 r path bidder submission leader) t) ↔
      EnvelopeReadable submission := by
  have henvelope : (∃ t, Finishes (checkEnvelope engine sha256 path submission
      (decimal (submission "revealedAmount"))) t) ↔ EnvelopeReadable submission :=
    finishes_checkEnvelope
  rw [← henvelope]
  simp only [checkSubmission, clean_bind, clean_addIf, not_false_eq_true, implies_true, true_and,
    exists_const, clean_pure]
  constructor
  · rintro ⟨_, amount, henvelope, -⟩
    exact ⟨amount, henvelope⟩
  · rintro ⟨amount, henvelope⟩
    obtain ⟨t, ht⟩ : ∃ t, Finishes (rankSubmission r path bidder submission amount
      (decimal (submission "escrow")) leader) t := finishes_rankSubmission
    exact ⟨t, amount, henvelope, t, ht, (), finishes_checkEvidence, rfl⟩

theorem stops_visitSubmission {submissions : Json} (leader : Leader) (bidder : Json) :
    ¬ Stops (visitSubmission engine sha256 r submissions leader bidder) := by
  simp only [visitSubmission, stops_bind, stops_lift, false_or, not_exists, not_and]
  rintro ⟨name, submission⟩ -
  cases submission with
  | none => simp
  | some s => simp [checkSubmission, stops_ite, stops_checkEnvelope, stops_rankSubmission,
      stops_checkEvidence]

theorem finishes_visitSubmission {submissions : Json} (leader : Leader) (bidder : Json) :
    (∃ t, Finishes (visitSubmission engine sha256 r submissions leader bidder) t) ↔
      Textual engine (some bidder) ∧ ∀ s, submissionFields engine submissions bidder = some s →
        EnvelopeReadable s := by
  rw [← submissionOf_eq_ok submissions bidder]
  cases hsub : submissionOf engine submissions bidder with
  | error e => simp [visitSubmission, hsub]
  | ok p =>
    obtain ⟨name, _ | s⟩ := p
    · simp [visitSubmission, hsub, submissionFields]
    · by_cases htrue : truthy (some s) = true
      · simp [visitSubmission, hsub, submissionFields, htrue, finishes_checkSubmission]
      · simp [visitSubmission, hsub, submissionFields, htrue]

/-! ## The whole receipt -/

/-- A structured receipt whose fields support every use the verifier makes of them. -/
structure ReadableV2 (engine : Engine) (r : String → JsValue) : Prop where
  network : Textual engine (r "network")
  policy : PolicyReadable engine r
  mode : Textual engine (r "mode")
  bidder : ∀ bidders fields, r "bidders" = some (.arr bidders) →
    r "submissions" = some (.obj fields) →
    ∀ b ∈ bidders, Textual engine (some b)
  submission : ∀ bidders fields, r "bidders" = some (.arr bidders) →
    r "submissions" = some (.obj fields) → ∀ b ∈ bidders, ∀ s,
      submissionFields engine (.obj fields) b = some s → EnvelopeReadable s

theorem returns_submissions {bidders : List Json} {submissions : Json} :
    Returns (do
      checkRoster engine bidders submissions
      let leader ← bidders.foldlM (visitSubmission engine sha256 r submissions) none
      checkWinner r leader
      return leader : Check Leader) ↔
      (∀ b ∈ bidders, Textual engine (some b)) ∧
        ∀ b ∈ bidders, ∀ s, submissionFields engine submissions b = some s →
          EnvelopeReadable s := by
  have hloop : (∃ leader,
      Finishes (bidders.foldlM (visitSubmission engine sha256 r submissions) none)
      leader) ↔ ∀ b ∈ bidders, Textual engine (some b) ∧ ∀ s,
        submissionFields engine submissions b = some s → EnvelopeReadable s :=
    exists_clean_foldlM fun b _ leader => finishes_visitSubmission leader b
  have hwinner : ∀ leader, Returns (do
      checkWinner r leader
      return leader : Check Leader) := fun leader =>
    (returns_then (by simp [checkWinner])).mpr ⟨by simp [checkWinner], _, rfl⟩
  rw [returns_then stops_checkRoster, finishes_checkRoster,
    returns_bind (stops_foldlM fun b _ leader => stops_visitSubmission leader b)]
  simp only [hwinner, and_true, hloop]
  constructor
  · rintro ⟨-, h⟩
    exact ⟨fun b hb => (h b hb).1, fun b hb => (h b hb).2⟩
  · rintro ⟨htext, h⟩
    exact ⟨htext, fun b hb => ⟨htext b hb, h b hb⟩⟩

theorem returns_checkReceiptV2 {receipt : Json} (hobject : receipt ≠ .null)
    (hversion : hasVersion (property engine receipt)) :
    Returns (checkReceiptV2 engine sha256 receipt) ↔
      ReadableV2 engine (property engine receipt) := by
  obtain ⟨w, hread⟩ : ∃ w, getProperty engine (some receipt) "version" = .ok w :=
    getProperty_eq_ok.mpr hobject
  rw [checkReceiptV2, returns_bind (stops_lift _)]
  simp only [clean_lift, hread, Except.ok.injEq, exists_eq_left', hversion, not_true_eq_false,
    if_false]
  generalize property engine receipt = r
  rw [returns_then stops_checkIdentity, finishes_checkIdentity, returns_then stops_checkOpening,
    returns_then stops_checkPolicy, finishes_checkPolicy, returns_then stops_checkMode,
    finishes_checkMode]
  have hstop : ∀ i, Returns (do
      add i
      stop : Check Leader) := fun i => (returns_then (stops_add i)).mpr ⟨by simp, returns_stop⟩
  split
  · next bidders fields hbidders hsubmissions =>
    rw [returns_submissions]
    constructor
    · rintro ⟨hnetwork, -, hpolicy, hmode, htext, hsubmission⟩
      refine ⟨hnetwork, hpolicy, hmode, ?_, ?_⟩
      all_goals
        intro list object heq heq'
        rw [hbidders] at heq
        rw [hsubmissions] at heq'
        cases heq
        cases heq'
        assumption
    · intro h
      exact ⟨h.network, finishes_checkOpening, h.policy, h.mode,
        h.bidder _ _ hbidders hsubmissions, h.submission _ _ hbidders hsubmissions⟩
  · next bidders hbidders hno =>
    constructor
    · rintro ⟨hnetwork, -, hpolicy, hmode, -⟩
      exact ⟨hnetwork, hpolicy, hmode, fun _ object _ h => absurd h (hno object),
        fun _ object _ h => absurd h (hno object)⟩
    · intro h
      exact ⟨h.network, finishes_checkOpening, h.policy, h.mode, hstop _⟩
  · next hno _ =>
    constructor
    · rintro ⟨hnetwork, -, hpolicy, hmode, -⟩
      exact ⟨hnetwork, hpolicy, hmode, fun list _ h _ => (hno list h).elim,
        fun list _ h _ => (hno list h).elim⟩
    · intro h
      exact ⟨h.network, finishes_checkOpening, h.policy, h.mode, hstop _⟩

end

end SubRosa.Sdk
