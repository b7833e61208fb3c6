import SubRosa.Sdk.VerifyV2

/-!
# What acceptance of a structured receipt means

Each section of the verifier passes on a condition of its own; the loop over
the submissions computes the first best bid among the flagged submissions.
-/

namespace SubRosa.Sdk

open JavaScript Report MachineInt

section

variable {engine : Engine} {sha256 : Bytes → BytesN 32} {r : String → JsValue}

/-! ## One submission -/

/-- The revealed envelope of a submission, decoded. -/
def revealedEnvelope (submission : String → JsValue) : Except Thrown PayloadEnvelope :=
  match submission "revealedEnvelope" with
  | some (.str hex) => do decodePayloadEnvelope (← fromHexText hex)
  | _ => .error (.native .typeError)

/-- The amount the envelope of a submission carries. -/
def envelopeAmount (submission : String → JsValue) : Option Int :=
  (revealedEnvelope submission).toOption.bind PayloadEnvelope.amount

/-- The text of a commitment and the bytes that hash to it. -/
def CommitsTo (sha256 : Bytes → BytesN 32) (submission : String → JsValue) (bytes : Bytes) : Prop :=
  ∃ text, submission "commitment" = some (.str text) ∧ fromHexText text = .ok (sha256 bytes).val

/-- A revealed envelope matches the commitment and the recorded amount. -/
structure EnvelopeOk (sha256 : Bytes → BytesN 32) (submission : String → JsValue) : Prop where
  hex : isHexValue (submission "revealedEnvelope") = true
  commits : ∀ text bytes, submission "revealedEnvelope" = some (.str text) →
    fromHexText text = .ok bytes → CommitsTo sha256 submission bytes
  decodes : ∃ x, revealedEnvelope submission = .ok x
  amount : envelopeAmount submission = decimal (submission "revealedAmount")

/-- Every entry of the evidence is `null` or hex. -/
def EvidenceOk (evidence : JsValue) : Prop :=
  ∀ v, evidence = some v → v ≠ .null → ∀ entry ∈ entriesOf v,
    strictEq (some entry.2) (some .null) = false → isHexValue (some entry.2) = true

/-- What the verifier demands of one submission. -/
structure SubmissionOk (engine : Engine) (sha256 : Bytes → BytesN 32) (r : String → JsValue)
    (submission : String → JsValue) : Prop where
  commitment : isHexOf 32 (submission "commitment") = true
  escrow : isNonnegative (decimal (submission "escrow")) = true
  amount : strictEq (submission "revealedAmount") (some .null) = true ∨
    decimal (submission "revealedAmount") ≠ none
  policy : truthy (optionalGet engine (r "policy") "enforced") = true → isAuction r = true →
    ∀ e f, decimal (submission "escrow") = some e →
      decimal (optionalGet engine (r "policy") "fixedEscrow") = some f → e = f
  sealed : strictEq (submission "revealedEnvelope") (some .null) = true →
    truthy (submission "valid") = false
  revealed : strictEq (submission "revealedEnvelope") (some .null) = false →
    EnvelopeOk sha256 submission
  competes : isAuction r = true → truthy (submission "valid") = true →
    ∃ a e, envelopeAmount submission = some a ∧ decimal (submission "escrow") = some e ∧
      0 < a ∧ a ≤ e
  settled : hasStatus r "Settled" = true → truthy (submission "settled") = true
  evidence : EvidenceOk (submission "evidence")

theorem strictEq_null {v : JsValue} : strictEq v (some .null) = true ↔ v = some .null := by
  rcases v with _ | (_ | _ | _ | _ | _ | _) <;> simp [strictEq]

theorem eq_of_strictEq {v w : JsValue} (h : strictEq v w = true) : v = w := by
  unfold strictEq at h
  split at h <;> simp_all

theorem strictEq_none {v : JsValue} : strictEq v none = true ↔ v = none := by
  rcases v with _ | (_ | _ | _ | _ | _ | _) <;> simp [strictEq]

theorem strictEq_bool {v : JsValue} {b : Bool} :
    strictEq v (some (.bool b)) = true ↔ v = some (.bool b) := by
  rcases v with _ | (_ | _ | _ | _ | _ | _) <;> simp [strictEq]

theorem strictEq_str {v : JsValue} {s : String} :
    strictEq v (some (.str s)) = true ↔ v = some (.str s) := by
  rcases v with _ | (_ | _ | _ | _ | _ | _) <;> simp [strictEq]

theorem passes_checkEvidence {path : String} {evidence : JsValue} :
    Passes (checkEvidence path evidence) () ↔ EvidenceOk evidence := by
  have hloop : ∀ w, Passes (forM (entriesOf w) fun entry =>
      addIf (¬ strictEq (some entry.2) (some .null) ∧ ¬ isHexValue (some entry.2))
        (issueAt "invalid_evidence_hex" s!"{entry.1} must be hex" s!"{path}.evidence.{entry.1}"))
        () ↔ ∀ entry ∈ entriesOf w,
          strictEq (some entry.2) (some .null) = false → isHexValue (some entry.2) = true := by
    intro w
    rw [Passes, clean_forM]
    refine forall₂_congr fun entry _ => ?_
    rw [clean_addIf]
    simp
  unfold checkEvidence
  split
  · simp [EvidenceOk]
  · simp [EvidenceOk]
  · next w hnull =>
    rw [hloop]
    have hw : w ≠ .null := fun h => hnull (by rw [h])
    simp [EvidenceOk, hw]

/-- A hex text as the checks of the verifier see it. -/
theorem isHexValue_some {v : JsValue} :
    isHexValue v = true ↔ ∃ s, v = some (.str s) ∧ isHexText s = true ∧
      (codeUnits s).length % 2 = 0 := by
  unfold isHexValue
  split
  · next s => simp
  · next v hno =>
    constructor
    · nofun
    · rintro ⟨s, rfl, -⟩
      exact absurd rfl (hno s)

theorem isHexOf_some {n : Nat} {v : JsValue} :
    isHexOf n v = true ↔ ∃ s, v = some (.str s) ∧ isHexText s = true ∧
      (codeUnits s).length = n * 2 := by
  unfold isHexOf
  split
  · next s => simp
  · next v hno =>
    constructor
    · nofun
    · rintro ⟨s, rfl, -⟩
      exact absurd rfl (hno s)

/-- Comparing the hash with the commitment in lower case. -/
theorem commitsTo_iff {submission : String → JsValue}
    (h : isHexOf 32 (submission "commitment") = true)
    {bytes : Bytes} : CommitsTo sha256 submission bytes ↔
      toLowerCase (submission "commitment") = .ok (toHex (sha256 bytes).val) := by
  obtain ⟨text, htext, hhex, hlength⟩ := isHexOf_some.mp h
  have hcompare : toHex (sha256 bytes).val = text.toLower ↔ _ :=
    toHex_eq_toLower hhex (by rw [hlength])
  rw [CommitsTo, htext]
  constructor
  · rintro ⟨_, heq, hbytes⟩
    cases heq
    exact congrArg Except.ok (hcompare.mpr hbytes).symm
  · intro heq
    exact ⟨text, rfl, hcompare.mp (Except.ok.inj heq).symm⟩

/-- The check of the envelope hands on the amount it carries. -/
theorem passes_checkEnvelope {path : String} {submission : String → JsValue}
    (hcommitment : isHexOf 32 (submission "commitment") = true) {amount : Option Int} :
    Passes (checkEnvelope engine sha256 path submission (decimal (submission "revealedAmount")))
        amount ↔
      (strictEq (submission "revealedEnvelope") (some .null) = true →
        truthy (submission "valid") = false) ∧
      (strictEq (submission "revealedEnvelope") (some .null) = false →
        EnvelopeOk sha256 submission) ∧ amount = envelopeAmount submission := by
  unfold checkEnvelope
  by_cases hnull : strictEq (submission "revealedEnvelope") (some .null) = true
  · have hnone : envelopeAmount submission = none := by
      rw [envelopeAmount, revealedEnvelope, strictEq_null.mp hnull]
      rfl
    simp [hnull, hnone]
  · rw [if_neg hnull]
    have hfalse : strictEq (submission "revealedEnvelope") (some .null) = false :=
      Bool.not_eq_true _ ▸ hnull
    simp only [hfalse, Bool.false_eq_true, false_implies, true_and, true_implies]
    split
    · next hex hrevealed =>
      by_cases hhex : isHexValue (some (.str hex)) = true
      · obtain ⟨_, heq, htext, heven⟩ := isHexValue_some.mp hhex
        cases heq
        have hbytes := fromHexText_hex htext heven
        have hdecode : revealedEnvelope submission =
            decodePayloadEnvelope (parsePairs hex.toList) := by
          simp only [revealedEnvelope, hrevealed, hbytes, bind_ok]
        rw [if_pos hhex, Passes, clean_bind]
        simp only [clean_lift, hbytes, Except.ok.injEq, exists_eq_left', clean_bind, clean_addIf,
          issueAt_bad, not_true_eq_false, imp_false, not_not, exists_const]
        constructor
        · rintro ⟨declared, hdeclared, hhash, hrest⟩
          have hcommits : CommitsTo sha256 submission (parsePairs hex.toList) :=
            (commitsTo_iff hcommitment).mpr (by rw [hdeclared, hhash])
          cases hx : decodePayloadEnvelope (parsePairs hex.toList) with
          | error e => simp [hx] at hrest
          | ok x =>
            simp only [hx, clean_bind, clean_addIf, issueAt_bad, not_true_eq_false, imp_false,
              not_not, clean_pure, exists_const] at hrest
            have hamount : envelopeAmount submission = x.amount := by
              rw [envelopeAmount, hdecode, hx]
              rfl
            refine ⟨⟨by rw [hrevealed]; exact hhex, ?_, ⟨x, hdecode.trans hx⟩,
              hamount.trans hrest.1⟩, hrest.2.trans hamount.symm⟩
            intro text bytes htext hread
            rw [hrevealed] at htext
            cases htext
            rw [hbytes] at hread
            cases hread
            exact hcommits
        · rintro ⟨⟨-, hcommits, ⟨x, hx⟩, hamount⟩, rfl⟩
          rw [hdecode] at hx
          have hown : envelopeAmount submission = x.amount := by
            rw [envelopeAmount, hdecode, hx]
            rfl
          refine ⟨_, (commitsTo_iff hcommitment).mp (hcommits _ _ hrevealed hbytes), rfl, ?_⟩
          simp only [hx, clean_bind, clean_addIf, issueAt_bad, not_true_eq_false, imp_false,
            not_not, clean_pure, exists_const]
          exact ⟨hown.symm.trans hamount, hown⟩
      · rw [if_neg hhex]
        constructor
        · intro h
          simp at h
        · rintro ⟨henvelope, -⟩
          exact absurd (hrevealed ▸ henvelope.hex) hhex
    · next hno =>
      constructor
      · intro h
        simp at h
      · rintro ⟨henvelope, -⟩
        obtain ⟨text, htext, -⟩ := isHexValue_some.mp henvelope.hex
        exact absurd htext (hno text)

theorem isNonnegative_iff {x : Option Int} : isNonnegative x = true ↔ ∃ a, x = some a ∧ 0 ≤ a := by
  cases x <;> simp [isNonnegative]

theorem passes_compete {path : String} {bidder : Json} {amount escrow : Option Int}
    {leader t : Leader} : Passes (compete r path bidder amount escrow leader) t ↔
      ∃ a, amount = some a ∧ 0 < a ∧ (∀ e, escrow = some e → a ≤ e) ∧
        t = FirstBest.keep (ranksOver (r "clearingRule")) leader bidder a := by
  unfold compete
  cases amount with
  | none => simp
  | some a =>
    by_cases hpos : a ≤ 0
    · have hnot : ¬ 0 < a := not_lt.mpr hpos
      simp [hpos, hnot]
    · have hgt : 0 < a := not_le.mp hpos
      cases escrow with
      | none => simp [hpos, hgt]
      | some e =>
        by_cases hlt : e < a
        · have hnot : ¬ a ≤ e := not_le.mpr hlt
          simp [hpos, hlt, hnot]
        · have hle : a ≤ e := not_lt.mp hlt
          simp [hpos, hgt, hlt, hle]

/-- The bid a submission competes with: that of a flagged submission of an auction. -/
def competingAmount (r submission : String → JsValue) : Option Int :=
  if isAuction r ∧ truthy (submission "valid") then envelopeAmount submission else none

/-- The leader after a bid, if there is one. -/
def advance (rule : JsValue) (leader : Leader) (bidder : Json) : Option Int → Leader
  | some a => FirstBest.keep (ranksOver rule) leader bidder a
  | none => leader

/-- The loop over the bids computes the first best one. -/
theorem foldl_advance {rule : JsValue} (value : Json → Option Int) (bidders : List Json) :
    bidders.foldl (fun leader b => advance rule leader b (value b)) none =
      FirstBest.scan (ranksOver rule) value bidders := by
  rw [FirstBest.scan]
  apply List.foldl_ext
  intro leader b _
  rw [FirstBest.visit]
  cases value b <;> rfl

instance (rule : JsValue) : IsStrictTotalOrder Int (ranksOver rule) := by
  unfold ranksOver
  split
  · exact inferInstanceAs (IsStrictTotalOrder Int (· > ·))
  · exact inferInstanceAs (IsStrictTotalOrder Int (· < ·))

theorem passes_rankSubmission {path : String} {bidder : Json} {submission : String → JsValue}
    {escrow : Option Int} {leader t : Leader} :
    Passes (rankSubmission r path bidder submission (envelopeAmount submission) escrow leader) t ↔
      (isAuction r = true → truthy (submission "valid") = true → ∃ a,
        envelopeAmount submission = some a ∧ 0 < a ∧ ∀ e, escrow = some e → a ≤ e) ∧
      t = advance (r "clearingRule") leader bidder (competingAmount r submission) := by
  unfold rankSubmission competingAmount
  by_cases hflag : isAuction r = true ∧ truthy (submission "valid") = true
  · rw [if_pos hflag, if_pos hflag, passes_compete]
    constructor
    · rintro ⟨a, ha, hpos, hle, rfl⟩
      rw [ha]
      exact ⟨fun _ _ => ⟨a, rfl, hpos, hle⟩, rfl⟩
    · rintro ⟨hbid, rfl⟩
      obtain ⟨a, ha, hpos, hle⟩ := hbid hflag.1 hflag.2
      rw [ha]
      exact ⟨a, rfl, hpos, hle, rfl⟩
  · rw [if_neg hflag, if_neg hflag, Passes, clean_pure]
    constructor
    · rintro rfl
      exact ⟨fun hauction hvalid => absurd ⟨hauction, hvalid⟩ hflag, rfl⟩
    · rintro ⟨-, rfl⟩
      rfl

theorem passes_checkSubmission {path : String} {bidder : Json} {submission : String → JsValue}
    {leader t : Leader} :
    Passes (checkSubmission engine sha256 r path bidder submission leader) t ↔
      SubmissionOk engine sha256 r submission ∧
        t = advance (r "clearingRule") leader bidder (competingAmount r submission) := by
  have hcap : ∀ {amount escrow : Option Int}, isNonnegative escrow = true →
      ((∃ a, amount = some a ∧ 0 < a ∧ ∀ e, escrow = some e → a ≤ e) ↔
        ∃ a e, amount = some a ∧ escrow = some e ∧ 0 < a ∧ a ≤ e) := by
    intro amount escrow hescrow
    obtain ⟨e, rfl, -⟩ := isNonnegative_iff.mp hescrow
    simp
  simp only [checkSubmission, Passes, clean_bind, clean_addIf, issueAt_bad, not_true_eq_false,
    imp_false, exists_const, clean_pure]
  constructor
  · rintro ⟨hcommitment, hescrow, hamount, hpolicy, amount, henvelope, t', hrank, hsettled, ⟨⟩,
      hevidence, rfl⟩
    rw [not_not] at hcommitment hescrow
    obtain ⟨hsealed, hrevealed, rfl⟩ := (passes_checkEnvelope hcommitment).mp henvelope
    obtain ⟨hcompetes, rfl⟩ := passes_rankSubmission.mp hrank
    refine ⟨⟨hcommitment, hescrow, ?_, ?_, hsealed, hrevealed,
      fun hauction hvalid => (hcap hescrow).mp (hcompetes hauction hvalid), ?_,
      passes_checkEvidence.mp hevidence⟩, rfl⟩
    · by_cases hnull : strictEq (submission "revealedAmount") (some .null) = true
      · exact .inl hnull
      · exact .inr fun hnone => hamount ⟨hnull, hnone⟩
    · intro henforced hauction e f he hf
      by_contra hne
      exact hpolicy ⟨henforced, hauction, by simp [he], by simp [hf], by simp [he, hf, hne]⟩
    · intro hst
      by_contra hno
      exact hsettled ⟨hst, hno⟩
  · rintro ⟨hok, rfl⟩
    refine ⟨not_not.mpr hok.commitment, not_not.mpr hok.escrow, ?_, ?_, _,
      (passes_checkEnvelope hok.commitment).mpr ⟨hok.sealed, hok.revealed, rfl⟩, _,
      passes_rankSubmission.mpr ⟨fun hauction hvalid =>
        (hcap hok.escrow).mpr (hok.competes hauction hvalid), rfl⟩, ?_,
      (), passes_checkEvidence.mpr hok.evidence, rfl⟩
    · rintro ⟨hnull, hnone⟩
      rcases hok.amount with h | h
      · exact hnull h
      · exact h hnone
    · rintro ⟨henforced, hauction, hescrow, hfixed, hne⟩
      obtain ⟨e, he⟩ := Option.ne_none_iff_exists'.mp hescrow
      obtain ⟨f, hf⟩ := Option.ne_none_iff_exists'.mp hfixed
      exact hne (by rw [he, hf, hok.policy henforced hauction e f he hf])
    · rintro ⟨hst, hno⟩
      exact hno (hok.settled hst)

/-! ## The loop over the submissions -/

/-- The submission that the receipt holds for a bidder. -/
def submissionFields (engine : Engine) (submissions bidder : Json) : Option (String → JsValue) :=
  match submissionOf engine submissions bidder with
  | .ok (_, some s) => if truthy (some s) then some (property engine s) else none
  | _ => none

/-- The bid with which a bidder enters the verifier's scan. -/
def competingSubmission (engine : Engine) (r : String → JsValue) (submissions bidder : Json) :
    Option Int :=
  (submissionFields engine submissions bidder).bind (competingAmount r)

/-- The submission of the bidder carries the flag of a valid one. -/
def isFlagged (engine : Engine) (submissions bidder : Json) : Bool :=
  (submissionFields engine submissions bidder).any fun s => truthy (s "valid")

theorem passes_visitSubmission {submissions bidder : Json} {leader t : Leader} :
    Passes (visitSubmission engine sha256 r submissions leader bidder) t ↔
      ((∃ p, submissionOf engine submissions bidder = .ok p) ∧
        ∀ s, submissionFields engine submissions bidder = some s →
          SubmissionOk engine sha256 r s) ∧
      t = advance (r "clearingRule") leader bidder
        ((submissionFields engine submissions bidder).bind (competingAmount r)) := by
  cases hsub : submissionOf engine submissions bidder with
  | error e => simp [visitSubmission, hsub]
  | ok p =>
    obtain ⟨name, _ | s⟩ := p
    · simp [visitSubmission, hsub, submissionFields, advance]
    · by_cases htrue : truthy (some s) = true
      · have hvisit : Passes (visitSubmission engine sha256 r submissions leader bidder) t ↔
            Passes (checkSubmission engine sha256 r ("submissions." ++ name) bidder
              (property engine s) leader) t := by
          simp [visitSubmission, hsub, htrue]
        rw [hvisit, passes_checkSubmission]
        simp [submissionFields, hsub, htrue]
      · simp [visitSubmission, hsub, htrue, submissionFields, advance]

/-! ## The sections without bidders -/

/-- The network is named by a passphrase with this fingerprint. -/
def NetworkOk (engine : Engine) (sha256 : Bytes → BytesN 32) (r : String → JsValue) : Prop :=
  truthy (r "network") = true ∧ ∃ passphrase, text engine (r "network") = .ok passphrase ∧
    r "networkFingerprint" = some (.str (networkFingerprint sha256 passphrase))

/-- What the verifier demands of the fields that identify the round. -/
structure IdentityOk (engine : Engine) (sha256 : Bytes → BytesN 32) (r : String → JsValue) :
    Prop where
  network : NetworkOk engine sha256 r
  contractId : startsWith 'C' (r "contractId") = true
  roundId : decimal (r "roundId") ≠ none
  itemRef : isHexOf 32 (r "itemRef") = true
  schemaRef : isHexOf 32 (r "schemaRef") = true
  auditorPubkey : isHexValue (r "auditorPubkey") = true
  revealRound : isSafePositive (r "revealRound") = true
  maxParticipants : isIntegerBetween 1 25 (r "maxParticipants") = true

theorem passes_checkNetwork :
    Passes (checkNetwork engine sha256 r) () ↔ NetworkOk engine sha256 r := by
  unfold checkNetwork NetworkOk
  by_cases htrue : truthy (r "network") = true
  · simp [htrue, strictEq_str]
  · simp [htrue]

theorem passes_checkIdentity :
    Passes (checkIdentity engine sha256 r) () ↔ IdentityOk engine sha256 r := by
  have hnetwork : Report.Clean VerificationIssue.Bad (checkNetwork engine sha256 r) () ↔
    NetworkOk engine sha256 r := passes_checkNetwork
  simp only [checkIdentity, Passes, clean_bind, clean_addIf, issue_bad, not_true_eq_false,
    imp_false, not_not, exists_const, hnetwork]
  constructor
  · rintro ⟨hnetwork, hcontract, hround, hitem, hschema, hauditor, hreveal, hcap⟩
    exact ⟨hnetwork, hcontract, hround, hitem, hschema, hauditor, hreveal, hcap⟩
  · intro hok
    exact ⟨hok.network, hok.contractId, hok.roundId, hok.itemRef, hok.schemaRef,
      hok.auditorPubkey, hok.revealRound, hok.maxParticipants⟩

/-- The reveal opens with time, or by the operator with a fallback. -/
def RevealPolicyOk (engine : Engine) (r : String → JsValue) : Prop :=
  ∃ reveal, r "revealPolicy" = some reveal ∧ truthy (some reveal) = true ∧
    (property engine reveal "type" = some (.str "timed") ∨
      property engine reveal "type" = some (.str "owner-triggered") ∧
        strictEq (property engine reveal "controller") (r "operator") = true ∧
        fallbackOk (decimal (property engine reveal "fallbackAt")) (privacyTime r)
          (decimal (r "revealDeadline")) = true)

/-- An opened round says when it was opened. -/
def OpenedAtOk (r : String → JsValue) : Prop :=
  if hasStatus r "Open" = true ∨ hasStatus r "Voided" = true then r "openedAt" = some .null
  else openedOk (decimal (r "openedAt")) (privacyTime r) (decimal (r "revealDeadline")) = true

/-- What the verifier demands of the opening fields of a version. -/
structure OpeningOk (engine : Engine) (r : String → JsValue) : Prop where
  enforced : isVersion3 r = true → optionalGet engine (r "policy") "enforced" = some (.bool true)
  timing : isVersion3 r = true →
    timingOk (privacyTime r) (decimal (r "commitDeadline")) (decimal (r "revealDeadline")) = true
  policy : isVersion3 r = true → RevealPolicyOk engine r
  openedAt : isVersion3 r = true → OpenedAtOk r
  unopened : isVersion3 r = false → r "revealPolicy" = none ∧ r "openedAt" = none

theorem passes_checkRevealPolicy :
    Passes (checkRevealPolicy engine r) () ↔ RevealPolicyOk engine r := by
  unfold checkRevealPolicy RevealPolicyOk
  cases r "revealPolicy" with
  | none => simp
  | some reveal =>
    simp only [Option.some.injEq, exists_eq_left', Passes, clean_ite, clean_add, clean_addIf,
      issue_bad, not_true_eq_false, imp_false, strictEq_str, not_or, not_not]
    constructor
    · rintro ⟨⟨htrue, htype⟩, howner⟩
      by_cases htimed : property engine reveal "type" = some (.str "timed")
      · exact ⟨htrue, .inl htimed⟩
      · have hkind : property engine reveal "type" = some (.str "owner-triggered") := by
          by_contra hno
          exact htype ⟨htimed, hno⟩
        refine ⟨htrue, .inr ⟨hkind, ?_⟩⟩
        by_contra hno
        exact howner ⟨htrue, htype⟩ ⟨hkind, hno⟩
    · rintro ⟨htrue, htimed | ⟨howner, hrest⟩⟩
      · refine ⟨⟨htrue, fun h => h.1 htimed⟩, fun _ h => ?_⟩
        simp [htimed] at h
      · exact ⟨⟨htrue, fun h => h.2 howner⟩, fun _ h => h.2 hrest⟩

theorem passes_checkOpenedAt : Passes (checkOpenedAt r) () ↔ OpenedAtOk r := by
  unfold checkOpenedAt OpenedAtOk
  split
  · simp [strictEq_null]
  · simp

theorem passes_checkOpening : Passes (checkOpening engine r) () ↔ OpeningOk engine r := by
  unfold checkOpening
  by_cases hthree : isVersion3 r = true
  · simp only [hthree, if_true, Passes, clean_bind, clean_addIf, issue_bad, not_true_eq_false,
      imp_false, not_not, exists_const, exists_and_right, strictEq_bool]
    constructor
    · rintro ⟨henforced, htiming, ⟨⟨⟩, hpolicy⟩, hopened⟩
      exact ⟨fun _ => henforced, fun _ => htiming, fun _ => passes_checkRevealPolicy.mp hpolicy,
        fun _ => passes_checkOpenedAt.mp hopened, fun htwo => absurd hthree (by simp [htwo])⟩
    · intro hok
      exact ⟨hok.enforced hthree, hok.timing hthree,
        ⟨(), passes_checkRevealPolicy.mpr (hok.policy hthree)⟩,
        passes_checkOpenedAt.mpr (hok.openedAt hthree)⟩
  · have htwo : isVersion3 r = false := by simpa using hthree
    rw [if_neg hthree, Passes, clean_addIf]
    simp only [issue_bad, not_true_eq_false, imp_false, not_or, not_not, strictEq_none]
    constructor
    · intro h
      exact ⟨fun h => absurd h hthree, fun h => absurd h hthree, fun h => absurd h hthree,
        fun h => absurd h hthree, fun _ => h⟩
    · intro hok
      exact hok.unopened htwo

/-- The list of eligible participants: no repetition, within the cap, and on it every bidder. -/
structure EligibleOk (engine : Engine) (r policy : String → JsValue) (participants : List Json) :
    Prop where
  distinct : (setOf participants).length = participants.length
  cap : ∃ cap, toNumber engine (r "maxParticipants") = .ok cap ∧
    lessThan cap (some (.finite participants.length)) = false
  participation : policy "participation" =
    some (.str (if (setOf participants).length = 0 then "Open" else "Allowlist"))
  bidders : truthy (policy "enforced") = true → 0 < (setOf participants).length →
    ∀ bidders, r "bidders" = some (.arr bidders) → ∀ b ∈ bidders,
      hasValue (setOf participants) b = true

/-- What the verifier demands of a partner policy. -/
structure PolicyFieldsOk (engine : Engine) (r policy : String → JsValue) : Prop where
  fixed : truthy (policy "enforced") = true → decimal (policy "fixedEscrow") ≠ none
  legacy : truthy (policy "enforced") = false → policy "fixedEscrow" = some .null
  eligible : ∃ participants, policy "eligibleParticipants" = some (.arr participants) ∧
    EligibleOk engine r policy participants
  auction : truthy (policy "enforced") = true → isAuction r = true →
    isPositive (decimal (policy "fixedEscrow")) = true
  receiptOnly : truthy (policy "enforced") = true → r "mode" = some (.str "ReceiptOnly") →
    decimal (policy "fixedEscrow") = some 0

def PolicyOk (engine : Engine) (r : String → JsValue) : Prop :=
  ∃ p, r "policy" = some p ∧ isObject (some p) = true ∧ PolicyFieldsOk engine r (property engine p)

theorem passes_checkEligible {eligible bidders : List Json} :
    Passes (checkEligible engine eligible bidders) () ↔
      ∀ b ∈ bidders, hasValue eligible b = true := by
  rw [checkEligible, Passes, clean_forM]
  refine forall₂_congr fun b _ => ?_
  split
  · next hmem => simp [hmem]
  · next hout => simp [hout]

theorem passes_checkEligibility {enforced : Bool} {policy : String → JsValue}
    (henforced : truthy (policy "enforced") = enforced) :
    Passes (checkEligibility engine r enforced policy) () ↔
      ∃ participants, policy "eligibleParticipants" = some (.arr participants) ∧
        EligibleOk engine r policy participants := by
  unfold checkEligibility
  split
  · next participants hparticipants =>
    simp only [hparticipants, Option.some.injEq, Json.arr.injEq, exists_eq_left', Passes,
      clean_bind, clean_addIf, clean_lift, issue_bad, not_true_eq_false, imp_false, not_not,
      exists_const, strictEq_str]
    constructor
    · rintro ⟨hdistinct, cap, hcap, hfits, hparticipation, hinvited⟩
      refine ⟨hdistinct, ⟨cap, hcap, by simpa using hfits⟩, hparticipation, ?_⟩
      intro hflag hpos bidders hbidders
      rw [hbidders] at hinvited
      dsimp only at hinvited
      rw [if_pos ⟨henforced.symm.trans hflag, hpos⟩] at hinvited
      exact passes_checkEligible.mp hinvited
    · intro hok
      obtain ⟨cap, hcap, hfits⟩ := hok.cap
      refine ⟨hok.distinct, cap, hcap, by simp [hfits], hok.participation, ?_⟩
      split
      · next bidders hbidders =>
        split
        · next h =>
          exact passes_checkEligible.mpr (hok.bidders (henforced.trans h.1) h.2 bidders hbidders)
        · exact clean_pure.mpr rfl
      · exact clean_pure.mpr rfl
  · next hno =>
    refine iff_of_false (fun h => absurd (issue_bad _ _) (clean_add.mp h)) ?_
    rintro ⟨participants, heq, -⟩
    exact hno participants heq

theorem passes_checkPolicy : Passes (checkPolicy engine r) () ↔ PolicyOk engine r := by
  unfold checkPolicy PolicyOk
  cases r "policy" with
  | none => simp
  | some p =>
    by_cases hobject : isObject (some p) = true
    · simp only [hobject, if_true, Option.some.injEq, exists_eq_left', true_and, Passes, clean_bind,
        clean_addIf, issue_bad, warning_not_bad, not_true_eq_false, not_false_eq_true, imp_false,
        exists_const, strictEq_str, strictEq_null]
      constructor
      · rintro ⟨hfixed, hlegacy, ⟨⟩, heligible, hauction, honly, -⟩
        refine ⟨fun henforced hnone => hfixed ⟨henforced, hnone⟩, fun hfree => ?_,
          (passes_checkEligibility rfl).mp heligible, fun henforced ha => ?_,
          fun henforced ho => ?_⟩
        · by_contra hno
          exact hlegacy ⟨by simp [hfree], hno⟩
        · by_contra hno
          exact hauction ⟨henforced, ha, hno⟩
        · by_contra hno
          exact honly ⟨henforced, ho, hno⟩
      · intro hok
        refine ⟨fun h => hok.fixed h.1 h.2, fun h => h.2 (hok.legacy (by simpa using h.1)),
          (), (passes_checkEligibility rfl).mpr hok.eligible,
          fun h => h.2.2 (hok.auction h.1 h.2.1), fun h => h.2.2 (hok.receiptOnly h.1 h.2.1),
          fun _ => trivial⟩
    · simp [hobject]

/-- What the verifier demands of the mode, its assets and its outcome. -/
structure ModeOk (r : String → JsValue) : Prop where
  lotAmount : isNonnegative (decimal (r "lotAmount")) = true
  winningAmount : isNonnegative (decimal (r "winningAmount")) = true
  assets : isAuction r = true ∧ truthy (r "paymentAsset") = true ∧
      truthy (r "lotAsset") = true ∧ isPositive (decimal (r "lotAmount")) = true ∨
    r "mode" = some (.str "ReceiptOnly") ∧ r "paymentAsset" = some .null ∧
      r "lotAsset" = some .null ∧ decimal (r "lotAmount") = some 0 ∧ r "winner" = some .null ∧
      decimal (r "winningAmount") = some 0

theorem passes_checkMode : Passes (checkMode engine r) () ↔ ModeOk r := by
  unfold checkMode
  simp only [Passes, clean_bind, clean_addIf, clean_ite, clean_add, clean_lift, issue_bad,
    not_true_eq_false, imp_false, exists_const, not_not, not_or, strictEq_null, strictEq_str]
  constructor
  · rintro ⟨hlot, hwinning, hauction, hother⟩
    refine ⟨hlot, hwinning, ?_⟩
    by_cases ha : isAuction r = true
    · exact .inl ⟨ha, hauction ha⟩
    · obtain ⟨honly, hunknown⟩ := hother ha
      by_cases ho : r "mode" = some (.str "ReceiptOnly")
      · obtain ⟨⟨hpayment, hasset, hzero⟩, hwinner, hamount⟩ := honly ho
        exact .inr ⟨ho, hpayment, hasset, hzero, hwinner, hamount⟩
      · obtain ⟨_, -, hfalse⟩ := hunknown ho
        exact hfalse.elim
  · intro hok
    refine ⟨hok.lotAmount, hok.winningAmount, fun ha => ?_, fun ha => ?_⟩
    · rcases hok.assets with h | ⟨ho, -⟩
      · exact h.2
      · rw [isAuction, ho] at ha
        exact absurd ha (by decide)
    · rcases hok.assets with h | ⟨ho, hpayment, hasset, hzero, hwinner, hamount⟩
      · exact absurd h.1 ha
      · exact ⟨fun _ => ⟨⟨hpayment, hasset, hzero⟩, hwinner, hamount⟩, fun h => absurd ho h⟩

/-! ## The roster -/

/-- No two of the values are equal. -/
def Distinct (items : List Json) : Prop :=
  items.Pairwise fun a b => strictEq (some a) (some b) = false

theorem hasValue_append {set items : List Json} {v : Json} :
    hasValue (set ++ items) v = (hasValue set v || hasValue items v) := List.any_append

/-- A loop that collects values, each of which has to be new. -/
theorem passes_collect {visit : List Json → Json → Check (List Json)} {P : Json → Prop}
    (hvisit : ∀ seen b t, Passes (visit seen b) t ↔
      (P b ∧ hasValue seen b = false) ∧ t = seen ++ [b]) {bidders seen t : List Json} :
    Passes (bidders.foldlM visit seen) t ↔ (∀ b ∈ bidders, P b) ∧ Distinct bidders ∧
      (∀ b ∈ bidders, hasValue seen b = false) ∧ t = seen ++ bidders := by
  induction bidders generalizing seen with
  | nil => simp [Distinct]
  | cons b bidders ih =>
    rw [List.foldlM_cons, Passes, clean_bind]
    constructor
    · rintro ⟨s, hb, hrest⟩
      obtain ⟨⟨hsub, hnew⟩, rfl⟩ := (hvisit _ _ _).mp hb
      obtain ⟨hall, hdistinct, hseen, rfl⟩ := ih.mp hrest
      have hsplit : ∀ c ∈ bidders,
          hasValue seen c = false ∧ strictEq (some b) (some c) = false := by
        intro c hc
        have hno := hseen c hc
        rw [hasValue_append, Bool.or_eq_false_iff] at hno
        exact ⟨hno.1, by simpa [hasValue] using hno.2⟩
      refine ⟨List.forall_mem_cons.mpr ⟨hsub, hall⟩,
        List.pairwise_cons.mpr ⟨fun c hc => (hsplit c hc).2, hdistinct⟩,
        List.forall_mem_cons.mpr ⟨hnew, fun c hc => (hsplit c hc).1⟩, by simp⟩
    · rintro ⟨hall, hdistinct, hseen, rfl⟩
      obtain ⟨hsub, hall⟩ := List.forall_mem_cons.mp hall
      obtain ⟨hfresh, hdistinct⟩ := List.pairwise_cons.mp hdistinct
      obtain ⟨hnew, hseen⟩ := List.forall_mem_cons.mp hseen
      refine ⟨seen ++ [b], (hvisit _ _ _).mpr ⟨⟨hsub, hnew⟩, rfl⟩,
        ih.mpr ⟨hall, hdistinct, fun c hc => ?_, by simp⟩⟩
      rw [hasValue_append, hseen c hc, Bool.false_or]
      simpa [hasValue] using hfresh c hc

theorem insertValue_new {seen : List Json} {v : Json} (hnew : hasValue seen v = false) :
    insertValue seen v = seen ++ [v] := by
  rw [hasValue] at hnew
  rw [insertValue, hnew, if_neg Bool.false_ne_true]

theorem passes_visitBidder {submissions bidder : Json} {seen t : List Json} :
    Passes (visitBidder engine submissions seen bidder) t ↔
      ((submissionFields engine submissions bidder).isSome = true ∧ hasValue seen bidder = false) ∧
        t = seen ++ [bidder] := by
  have hcases : Passes (visitBidder engine submissions seen bidder) t ↔
      (submissionFields engine submissions bidder).isSome = true ∧ hasValue seen bidder = false ∧
        t = insertValue seen bidder := by
    cases hsub : submissionOf engine submissions bidder with
    | error e => simp [visitBidder, submissionFields, hsub]
    | ok p =>
      obtain ⟨name, _ | s⟩ := p
      · simp [visitBidder, submissionFields, hsub, truthy]
      · by_cases htrue : truthy (some s) = true
        · simp [visitBidder, submissionFields, hsub, htrue]
        · simp [visitBidder, submissionFields, hsub, htrue]
  rw [hcases, and_assoc]
  refine and_congr_right fun _ => and_congr_right fun hnew => ?_
  rw [insertValue_new hnew]

/-- Every bidder has a submission, every submission a bidder, and no bidder comes twice. -/
structure RosterOk (engine : Engine) (bidders : List Json) (submissions : Json) : Prop where
  present : ∀ b ∈ bidders, (submissionFields engine submissions b).isSome = true
  distinct : Distinct bidders
  known : ∀ entry ∈ entriesOf submissions, hasValue bidders (.str entry.1) = true

theorem passes_checkRoster {submissions : Json} {bidders : List Json} :
    Passes (checkRoster engine bidders submissions) () ↔ RosterOk engine bidders submissions := by
  have horphans : ∀ seen : List Json, Passes (forM (entriesOf submissions) fun entry =>
      addIf (¬ hasValue seen (.str entry.1))
        (issue "orphan_submission" s!"submission for unknown bidder {entry.1}")) () ↔
      ∀ entry ∈ entriesOf submissions, hasValue seen (.str entry.1) = true := by
    intro seen
    rw [Passes, clean_forM]
    simp
  rw [checkRoster, Passes, clean_bind]
  constructor
  · rintro ⟨seen, hbidders, hknown⟩
    obtain ⟨hpresent, hdistinct, -, rfl⟩ :=
      (passes_collect fun _ _ _ => passes_visitBidder).mp hbidders
    exact ⟨hpresent, hdistinct, (horphans _).mp hknown⟩
  · intro hok
    exact ⟨_, (passes_collect fun _ _ _ => passes_visitBidder).mpr
        ⟨hok.present, hok.distinct, fun _ _ => rfl, rfl⟩,
      (horphans _).mpr hok.known⟩

/-! ## The whole receipt -/

/-- The declared winner is the recomputed one. -/
def WinnerOk (r : String → JsValue) (leader : Leader) : Prop :=
  isAuction r = true → hasStatus r "Cleared" = true ∨ hasStatus r "Settled" = true →
    strictEq (some ((leader.map Prod.fst).getD .null)) (r "winner") = true ∧
      leader.map Prod.snd = decimal (r "winningAmount")

theorem passes_checkWinner {leader : Leader} :
    Passes (checkWinner r leader) () ↔ WinnerOk r leader := by
  unfold checkWinner WinnerOk
  rw [Passes, clean_addIf]
  simp only [issueAt_bad, not_true_eq_false, imp_false]
  tauto

/-- What the verifier demands of a receipt with these bidders and submissions. -/
structure AcceptedV2 (engine : Engine) (sha256 : Bytes → BytesN 32) (r : String → JsValue)
    (bidders : List Json) (submissions : Json) (leader : Leader) : Prop where
  version : hasVersion r
  identity : IdentityOk engine sha256 r
  opening : OpeningOk engine r
  policy : PolicyOk engine r
  mode : ModeOk r
  roster : RosterOk engine bidders submissions
  submission : ∀ b ∈ bidders, ∀ s, submissionFields engine submissions b = some s →
    SubmissionOk engine sha256 r s
  leader_eq : leader = bidders.foldl (fun l b => advance (r "clearingRule") l b
    ((submissionFields engine submissions b).bind (competingAmount r))) none
  winner : WinnerOk r leader

theorem AcceptedV2.leader_best {bidders : List Json} {submissions : Json} {leader : Leader}
    (h : AcceptedV2 engine sha256 r bidders submissions leader) : leader =
      FirstBest.scan (ranksOver (r "clearingRule")) (competingSubmission engine r submissions)
        bidders :=
  h.leader_eq.trans (foldl_advance (competingSubmission engine r submissions) bidders)

theorem submissionOf_ok {submissions bidder : Json}
    (h : (submissionFields engine submissions bidder).isSome = true) :
    ∃ p, submissionOf engine submissions bidder = .ok p := by
  cases hsub : submissionOf engine submissions bidder with
  | ok p => exact ⟨p, rfl⟩
  | error e =>
    rw [submissionFields, hsub] at h
    cases h

theorem passes_submissions {submissions : Json} {bidders : List Json}
    (hroster : RosterOk engine bidders submissions) {leader : Leader} :
    Passes (bidders.foldlM (visitSubmission engine sha256 r submissions) none) leader ↔
      (∀ b ∈ bidders, ∀ s, submissionFields engine submissions b = some s →
        SubmissionOk engine sha256 r s) ∧
      leader = bidders.foldl (fun l b => advance (r "clearingRule") l b
        ((submissionFields engine submissions b).bind (competingAmount r))) none := by
  refine clean_foldlM fun b hb l t => passes_visitSubmission.trans (and_congr_left fun _ => ?_)
  exact and_iff_right (submissionOf_ok (hroster.present b hb))

theorem getProperty_eq_ok {v : Json} {key : String} :
    (∃ w, getProperty engine (some v) key = .ok w) ↔ v ≠ .null := by
  cases v <;> simp [getProperty]

/-- **What acceptance means.** -/
theorem passes_checkReceiptV2 {receipt : Json} {leader : Leader} :
    Passes (checkReceiptV2 engine sha256 receipt) leader ↔ receipt ≠ .null ∧
      ∃ bidders fields, property engine receipt "bidders" = some (.arr bidders) ∧
        property engine receipt "submissions" = some (.obj fields) ∧
        AcceptedV2 engine sha256 (property engine receipt) bidders (.obj fields) leader := by
  rw [checkReceiptV2, Passes, clean_bind]
  simp only [clean_lift]
  generalize hr : property engine receipt = r
  constructor
  · rintro ⟨w, hw, h⟩
    refine ⟨getProperty_eq_ok.mp ⟨w, hw⟩, ?_⟩
    rw [clean_ite] at h
    by_cases hversion : hasVersion r
    · have h := h.2 (not_not.mpr hversion)
      simp only [clean_bind] at h
      obtain ⟨⟨⟩, hidentity, ⟨⟩, hopening, ⟨⟩, hpolicy, ⟨⟩, hmode, h⟩ := h
      split at h
      · next bidders fields hbidders hsubmissions =>
        simp only [clean_bind, clean_pure] at h
        obtain ⟨⟨⟩, hroster, t, hloop, ⟨⟩, hwinner, rfl⟩ := h
        have hroster := passes_checkRoster.mp hroster
        obtain ⟨hsubmission, hleader⟩ := (passes_submissions hroster).mp hloop
        exact ⟨bidders, fields, hbidders, hsubmissions, hversion, passes_checkIdentity.mp hidentity,
          passes_checkOpening.mp hopening, passes_checkPolicy.mp hpolicy, passes_checkMode.mp hmode,
          hroster, hsubmission, hleader, passes_checkWinner.mp hwinner⟩
      · simp at h
      · simp at h
    · have h := h.1 hversion
      simp at h
  · rintro ⟨hnull, bidders, fields, hbidders, hsubmissions, hok⟩
    obtain ⟨w, hw⟩ := getProperty_eq_ok.mpr hnull
    refine ⟨w, hw, ?_⟩
    rw [if_neg (not_not.mpr hok.version)]
    simp only [clean_bind, hbidders, hsubmissions, clean_pure]
    exact ⟨(), passes_checkIdentity.mpr hok.identity, (), passes_checkOpening.mpr hok.opening, (),
      passes_checkPolicy.mpr hok.policy, (), passes_checkMode.mpr hok.mode, (),
      passes_checkRoster.mpr hok.roster, leader,
      (passes_submissions hok.roster).mpr ⟨hok.submission, hok.leader_eq⟩, (),
      passes_checkWinner.mpr hok.winner, rfl⟩

end

end SubRosa.Sdk
