import SubRosa.Sdk.Verify
import SubRosa.Sdk.AcceptedV2

/-!
# What acceptance of a first-generation receipt means

Each section of the verifier passes on a condition of its own; the loop over
the bidders computes the first best value among the flagged entries.
-/

namespace SubRosa.Sdk

open JavaScript Report

section

variable {engine : Engine} {sha256 : Bytes → BytesN 32} {r : String → JsValue}

/-! ## The schema -/

/-- The value has a text. -/
def Textual (engine : Engine) (v : JsValue) : Prop := ∃ s, text engine v = .ok s

theorem textual_none : Textual engine none := ⟨_, rfl⟩

theorem textual_null : Textual engine (some .null) := ⟨_, rfl⟩

theorem textual_str (s : String) : Textual engine (some (.str s)) := ⟨_, rfl⟩

theorem textual_of_falsy {v : JsValue} (h : truthy v = false) : Textual engine v := by
  cases v with
  | none => exact textual_none
  | some w =>
    cases w with
    | arr items => cases h
    | obj fields => cases h
    | _ => exact ⟨_, rfl⟩

theorem textual_of_isOneOf {names : List String} {v : JsValue} (h : isOneOf names v = true) :
    Textual engine v := by
  unfold isOneOf at h
  split at h
  · exact textual_str _
  · cases h

/-- A text that is only needed in one branch, where every value of the other has one. -/
theorem exists_text {c : Prop} {v : JsValue} (h : c → Textual engine v) :
    (¬ c → ∃ s, text engine v = .ok s) ↔ Textual engine v :=
  ⟨fun hno => (em c).elim h hno, fun hv _ => hv⟩

/-- What the verifier demands of the fields that name the round. -/
structure SchemaOk (engine : Engine) (sha256 : Bytes → BytesN 32) (r : String → JsValue) :
    Prop where
  network : ∃ passphrase : String, r "network" = some (.str passphrase) ∧ passphrase ≠ "" ∧
    r "networkFingerprint" = some (.str (networkFingerprint sha256 passphrase))
  contractId : startsWith 'C' (r "contractId") = true
  roundId : isString (r "roundId") = true ∧ parseBigInt engine (r "roundId") ≠ none
  clearingRule : isOneOf ["HighestBid", "LowestBid"] (r "clearingRule") = true
  /-- Any status will do that has a text. -/
  status : Textual engine (r "status")

/-- A text that is not empty. -/
theorem isString_truthy {v : JsValue} :
    isString v = true ∧ truthy v = true ↔ ∃ s : String, v = some (.str s) ∧ s ≠ "" := by
  rcases v with _ | (_ | _ | _ | _ | _ | _) <;> simp [isString, truthy]

theorem passes_checkSchema :
    Passes (checkSchema engine sha256 r) () ↔ SchemaOk engine sha256 r := by
  have hstatus : (¬ isOneOf validStatuses (r "status") = true →
      ∃ s, text engine (r "status") = .ok s) ↔ Textual engine (r "status") :=
    exists_text textual_of_isOneOf
  unfold checkSchema
  simp only [Passes, clean_bind, clean_ite, clean_addIf, clean_lift, clean_add, clean_pure,
    issueAt_bad, warning_not_bad, not_true_eq_false, not_false_eq_true, imp_false, not_not, not_or,
    exists_const, strictEq_str, and_true, hstatus, implies_true, true_and, isString_truthy]
  constructor
  · rintro ⟨hnamed, hunnamed⟩
    by_cases hnetwork : ∃ s : String, r "network" = some (.str s) ∧ s ≠ ""
    · obtain ⟨shown, hshown, hfingerprint, hcontract, hround, hrule, hother⟩ := hnamed hnetwork
      obtain ⟨passphrase, hread, hne⟩ := hnetwork
      rw [hread] at hshown
      obtain rfl : passphrase = shown := Except.ok.inj hshown
      by_cases hone : isOneOf ["HighestBid", "LowestBid"] (r "clearingRule") = true
      · exact ⟨⟨passphrase, hread, hne, hfingerprint⟩, hcontract, hround, hone, hrule hone⟩
      · obtain ⟨_, -, hfalse, -⟩ := hother hone
        exact hfalse.elim
    · exact (hunnamed hnetwork).1.elim
  · intro hok
    obtain ⟨passphrase, hread, hne, hfingerprint⟩ := hok.network
    refine ⟨fun _ => ⟨passphrase, by rw [hread]; rfl, hfingerprint, hok.contractId, hok.roundId,
      fun _ => hok.status, fun h => absurd hok.clearingRule h⟩, fun h => ?_⟩
    exact absurd ⟨passphrase, hread, hne⟩ h

/-! ## One entry -/

/-- The value and the nonce hash to the commitment. -/
def Binds (engine : Engine) (sha256 : Bytes → BytesN 32) (entry : String → JsValue) : Prop :=
  ∃ value, parseBigInt engine (entry "revealedValue") = some value ∧
    ∃ nonce, fromHex engine (entry "nonce") = .ok nonce ∧ nonce.length = 32 ∧
      ∃ hash, commitment sha256 value nonce = .ok hash ∧
        toLowerCase (entry "commitment") = .ok (toHex hash)

/-- The entry reveals a value. -/
def isRevealed (entry : String → JsValue) : Bool := !strictEq (entry "revealedValue") (some .null)

def hasNonce (entry : String → JsValue) : Bool := !strictEq (entry "nonce") (some .null)

/-- What the verifier demands of one entry. -/
structure EntryOk (engine : Engine) (sha256 : Bytes → BytesN 32) (entry : String → JsValue) :
    Prop where
  commitment : isHexOf 32 (entry "commitment") = true
  escrow : isNonnegative (parseBigInt engine (entry "escrow")) = true
  hidden : isRevealed entry = false → hasNonce entry = false
  value : isRevealed entry = true → ∃ value, parseBigInt engine (entry "revealedValue") = some value
  binds : isRevealed entry = true → hasNonce entry = true → Binds engine sha256 entry

/-- The value an entry competes with: that of a flagged revealed entry. -/
def competingValue (engine : Engine) (entry : String → JsValue) : Option Int :=
  if isRevealed entry && truthy (entry "valid") then parseBigInt engine (entry "revealedValue")
  else none

theorem candidate_eq {bidder : Json} {entry : String → JsValue} {value : Int} {leader : Leader}
    (hrevealed : isRevealed entry = true)
    (hvalue : parseBigInt engine (entry "revealedValue") = some value) :
    candidate r bidder entry value leader =
      advance (r "clearingRule") leader bidder (competingValue engine entry) := by
  unfold candidate competingValue
  rw [hrevealed, Bool.true_and, hvalue]
  split
  · rfl
  · rfl

theorem passes_checkReveal {path : String} {bidder : Json} {entry : String → JsValue}
    {leader t : Leader} (hrevealed : isRevealed entry = true) :
    Passes (checkReveal engine sha256 r path bidder entry leader) t ↔
      Binds engine sha256 entry ∧
        t = advance (r "clearingRule") leader bidder (competingValue engine entry) := by
  unfold checkReveal Binds
  cases hvalue : parseBigInt engine (entry "revealedValue") with
  | none => simp
  | some value =>
    have hcandidate := @candidate_eq engine r bidder entry value leader hrevealed hvalue
    cases hnonce : fromHex engine (entry "nonce") with
    | error e => simp
    | ok nonce =>
      by_cases hlength : nonce.length = 32
      · simp only [hlength, ne_eq, not_true_eq_false, if_false, Passes, clean_bind, clean_lift,
          clean_ite, clean_add, clean_pure, hcandidate, Option.some.injEq, exists_eq_left',
          Except.ok.injEq, true_and, issueAt_bad, not_true_eq_false, false_and, exists_false,
          and_false, imp_false, not_not]
        constructor
        · rintro ⟨hash, hhash, declared, hdeclared, rfl, ht⟩
          exact ⟨⟨hash, hhash, hdeclared⟩, ht rfl⟩
        · rintro ⟨⟨hash, hhash, hdeclared⟩, rfl⟩
          exact ⟨hash, hhash, _, hdeclared, rfl, fun _ => rfl⟩
      · simp [hlength]

theorem passes_checkValue {path : String} {bidder : Json} {entry : String → JsValue}
    {leader t : Leader} (hrevealed : isRevealed entry = true) :
    Passes (checkValue engine r path bidder entry leader) t ↔
      (∃ value, parseBigInt engine (entry "revealedValue") = some value) ∧
        t = advance (r "clearingRule") leader bidder (competingValue engine entry) := by
  unfold checkValue
  cases hvalue : parseBigInt engine (entry "revealedValue") with
  | none => simp
  | some value => simp [candidate_eq (r := r) hrevealed hvalue]

theorem passes_checkEntry {path : String} {bidder : Json} {entry : String → JsValue}
    {leader t : Leader} :
    Passes (checkEntry engine sha256 r path bidder entry leader) t ↔
      EntryOk engine sha256 entry ∧
        t = advance (r "clearingRule") leader bidder (competingValue engine entry) := by
  have hsplit : Passes (checkEntry engine sha256 r path bidder entry leader) t ↔
      isHexOf 32 (entry "commitment") = true ∧
        isNonnegative (parseBigInt engine (entry "escrow")) = true ∧
          Passes (if isRevealed entry = true then
            if hasNonce entry = true then checkReveal engine sha256 r path bidder entry leader
            else checkValue engine r path bidder entry leader
          else do
            addIf (hasNonce entry = true)
              (issueAt "partial_reveal" "nonce is set but revealedValue is null" path)
            return leader) t := by
    simp only [checkEntry, Passes, clean_bind, clean_addIf, issueAt_bad, not_true_eq_false,
      imp_false, exists_const, isRevealed, hasNonce, Bool.not_eq_true', Bool.not_eq_true,
      Bool.not_eq_false]
  rw [hsplit]
  by_cases hrevealed : isRevealed entry = true
  · rw [if_pos hrevealed]
    by_cases hnonce : hasNonce entry = true
    · rw [if_pos hnonce, passes_checkReveal hrevealed]
      constructor
      · rintro ⟨hcommitment, hescrow, hbinds, rfl⟩
        obtain ⟨value, hvalue, -⟩ := id hbinds
        exact ⟨⟨hcommitment, hescrow, fun h => absurd hrevealed (by simp [h]),
          fun _ => ⟨value, hvalue⟩, fun _ _ => hbinds⟩, rfl⟩
      · rintro ⟨hok, rfl⟩
        exact ⟨hok.commitment, hok.escrow, hok.binds hrevealed hnonce, rfl⟩
    · rw [if_neg hnonce, passes_checkValue hrevealed]
      constructor
      · rintro ⟨hcommitment, hescrow, hvalue, rfl⟩
        exact ⟨⟨hcommitment, hescrow, fun h => absurd hrevealed (by simp [h]), fun _ => hvalue,
          fun _ h => absurd h hnonce⟩, rfl⟩
      · rintro ⟨hok, rfl⟩
        exact ⟨hok.commitment, hok.escrow, hok.value hrevealed, rfl⟩
  · have hhidden : isRevealed entry = false := by simpa using hrevealed
    have hnone : competingValue engine entry = none := by
      rw [competingValue, hhidden, Bool.false_and, if_neg Bool.false_ne_true]
    rw [if_neg hrevealed, hnone]
    simp only [Passes, clean_bind, clean_addIf, issueAt_bad, not_true_eq_false, imp_false,
      clean_pure, exists_const]
    constructor
    · rintro ⟨hcommitment, hescrow, hnonce, rfl⟩
      exact ⟨⟨hcommitment, hescrow, fun _ => by simpa using hnonce,
        fun h => absurd h hrevealed, fun h => absurd h hrevealed⟩, rfl⟩
    · rintro ⟨hok, rfl⟩
      refine ⟨hok.commitment, hok.escrow, ?_, rfl⟩
      rw [hok.hidden hhidden]
      exact Bool.false_ne_true

/-! ## The roster -/

/-- An account address as a value. -/
def IsAccountName (b : Json) : Prop := ∃ name : String, b = .str name ∧ name.toList.head? = some 'G'

theorem passes_visitBidderV1 {seen t : List Json} {bidder : Json} :
    Passes (visitBidderV1 seen bidder) t ↔
      (IsAccountName bidder ∧ hasValue seen bidder = false) ∧ t = seen ++ [bidder] := by
  cases bidder with
  | str name =>
    simp only [visitBidderV1, bidderName, Passes, clean_bind, clean_lift, clean_addIf, clean_pure,
      issueAt_bad, not_true_eq_false, imp_false, not_not, exists_const, Except.ok.injEq,
      exists_eq_left', IsAccountName, Json.str.injEq, and_assoc, Bool.not_eq_true]
    refine and_congr_right fun _ => and_congr_right fun hnew => ?_
    rw [insertValue_new hnew]
  | _ => simp [visitBidderV1, bidderName, IsAccountName]

/-- Every bidder is an account with an entry, no bidder comes twice, and every entry has a
bidder. -/
structure BiddersOk (engine : Engine) (r : String → JsValue) (bidders : List Json) : Prop where
  account : ∀ b ∈ bidders, IsAccountName b
  distinct : Distinct bidders
  known : ∃ bidKeys, keys (r "bids") = .ok bidKeys ∧
    ∀ key ∈ bidKeys, hasValue (setOf bidders) (.str key) = true
  present : ∀ name, Json.str name ∈ bidders → hasProperty engine (r "bids") name = .ok true

theorem passes_checkBidders {bidders : List Json} :
    Passes (checkBidders engine r bidders) () ↔ BiddersOk engine r bidders := by
  have hknown : ∀ bidKeys : List String, Passes (forM bidKeys fun key =>
      addIf (¬ hasValue (setOf bidders) (.str key))
        (issueAt "orphan_bid_entry" s!"bid entry for {key} not in bidders array" s!"bids.{key}"))
      () ↔ ∀ key ∈ bidKeys, hasValue (setOf bidders) (.str key) = true := by
    intro bidKeys
    rw [Passes, clean_forM]
    simp
  have hpresent : Passes (forM bidders fun bidder => do
      let name ← lift (bidderName bidder)
      let present ← lift (hasProperty engine (r "bids") name)
      addIf (¬ present) (issueAt "missing_bid_entry" s!"no bid entry for {name}"
        s!"bidders.{name}"))
        () ↔ ∀ b ∈ bidders, ∃ name,
          b = .str name ∧ hasProperty engine (r "bids") name = .ok true := by
    rw [Passes, clean_forM]
    refine forall₂_congr fun b _ => ?_
    cases b with
    | str name => simp [bidderName]
    | _ => simp [bidderName]
  rw [checkBidders, Passes, clean_bind]
  simp only [clean_bind, clean_lift]
  constructor
  · rintro ⟨seen, hloop, bidKeys, hkeys, ⟨⟩, horphans, hmissing⟩
    obtain ⟨haccount, hdistinct, -, -⟩ :=
      (passes_collect fun _ _ _ => passes_visitBidderV1).mp hloop
    refine ⟨haccount, hdistinct, ⟨bidKeys, hkeys, (hknown _).mp horphans⟩, fun name hname => ?_⟩
    obtain ⟨_, heq, hhas⟩ := hpresent.mp hmissing _ hname
    cases heq
    exact hhas
  · intro hok
    obtain ⟨bidKeys, hkeys, hall⟩ := hok.known
    refine ⟨_, (passes_collect fun _ _ _ => passes_visitBidderV1).mpr
      ⟨hok.account, hok.distinct, fun _ _ => rfl, rfl⟩, bidKeys, hkeys, (), (hknown _).mpr hall,
      hpresent.mpr fun b hb => ?_⟩
    obtain ⟨name, rfl, -⟩ := hok.account b hb
    exact ⟨name, rfl, hok.present name hb⟩

/-! ## The loop over the bidders -/

/-- The entry that the receipt holds for a bidder. -/
def bidEntry (engine : Engine) (r : String → JsValue) (bidder : Json) : Option (String → JsValue) :=
  match bidder with
  | .str name =>
    match entryOf engine r name with
    | .ok (some entry) => some (property engine entry)
    | _ => none
  | _ => none

/-- The leader after the entry of a bidder. -/
def afterEntry (engine : Engine) (r : String → JsValue) (leader : Leader) (bidder : Json) :
    Leader :=
  advance (r "clearingRule") leader bidder ((bidEntry engine r bidder).bind (competingValue engine))

/-- The value with which a bidder enters the verifier's scan. -/
def competingEntry (engine : Engine) (r : String → JsValue) (bidder : Json) : Option Int :=
  (bidEntry engine r bidder).bind (competingValue engine)

theorem foldl_afterEntry (bidders : List Json) : bidders.foldl (afterEntry engine r) none =
    FirstBest.scan (ranksOver (r "clearingRule")) (competingEntry engine r) bidders :=
  foldl_advance (competingEntry engine r) bidders

theorem entryOf_ok {name : String} (h : hasProperty engine (r "bids") name = .ok true) :
    ∃ o, entryOf engine r name = .ok o := by
  unfold entryOf
  cases hbids : r "bids" with
  | none => simp [hbids, hasProperty] at h
  | some bids =>
    cases bids with
    | null => simp [hbids, hasProperty] at h
    | _ => exact ⟨_, rfl⟩

theorem passes_visitEntry {bidders : List Json} (hok : BiddersOk engine r bidders) {bidder : Json}
    (hbidder : bidder ∈ bidders) {leader t : Leader} :
    Passes (visitEntry engine sha256 r leader bidder) t ↔
      (∀ entry, bidEntry engine r bidder = some entry → EntryOk engine sha256 entry) ∧
        t = afterEntry engine r leader bidder := by
  obtain ⟨name, rfl, -⟩ := hok.account bidder hbidder
  obtain ⟨o, ho⟩ := entryOf_ok (hok.present name hbidder)
  unfold afterEntry bidEntry
  cases o with
  | none => simp [visitEntry, bidderName, ho, advance]
  | some entry => simp [visitEntry, bidderName, ho, passes_checkEntry]

/-! ## Outcome and evidence -/

/-- A declared winner is the recomputed one, unless only one of the two exists. -/
def OutcomeOk (engine : Engine) (r : String → JsValue) (leader : Leader) : Prop :=
  match leader with
  | some (winner, _) => r "winner" = some .null ∨ strictEq (some winner) (r "winner") = true
  | none => r "winner" = some .null ∨ ∃ declared, text engine (r "winner") = .ok declared

theorem passes_checkOutcome {leader : Leader}
    (hname : ∀ winner value, leader = some (winner, value) → ∃ name, winner = .str name) :
    Passes (checkOutcome engine r leader) () ↔ OutcomeOk engine r leader := by
  unfold checkOutcome OutcomeOk
  rcases leader with _ | ⟨winner, value⟩
  · by_cases hnull : strictEq (r "winner") (some .null) = true
    · simp [strictEq_null.mp hnull, strictEq]
    · simp [hnull, mt strictEq_null.mpr hnull]
  · obtain ⟨name, rfl⟩ := hname winner value rfl
    by_cases hnull : strictEq (r "winner") (some .null) = true
    · simp [strictEq_null.mp hnull, strictEq, text, Json.text]
    · by_cases heq : strictEq (some (.str name)) (r "winner") = true
      · simp [hnull, heq]
      · simp [hnull, heq, mt strictEq_null.mpr hnull]

/-- The value is `null` or its text is hex with at least one digit. -/
def HexOrNull (engine : Engine) (v : JsValue) : Prop :=
  v = some .null ∨ ∃ shown, text engine v = .ok shown ∧ shown ≠ "" ∧ isHexText shown = true

/-- What the verifier demands of the evidence of an entry. -/
def EvidenceOkV1 (engine : Engine) (entry : String → JsValue) : Prop :=
  ∀ evidence, entry "evidence" = some evidence → truthy (some evidence) = true →
    HexOrNull engine (property engine evidence "ciphertext") ∧
      HexOrNull engine (property engine evidence "auditorBlob")

theorem passes_checkHex {field path : String} {v : JsValue} :
    Passes (checkHex engine field path v) () ↔ HexOrNull engine v := by
  unfold checkHex HexOrNull
  by_cases hnull : strictEq v (some .null) = true
  · simp [strictEq_null.mp hnull, strictEq]
  · simp [hnull, mt strictEq_null.mpr hnull]

theorem passes_checkEntryEvidence {bidders : List Json} (hok : BiddersOk engine r bidders)
    {bidder : Json} (hbidder : bidder ∈ bidders) :
    Passes (checkEntryEvidence engine r bidder) () ↔
      ∀ entry, bidEntry engine r bidder = some entry → EvidenceOkV1 engine entry := by
  obtain ⟨name, rfl, -⟩ := hok.account bidder hbidder
  obtain ⟨o, ho⟩ := entryOf_ok (hok.present name hbidder)
  unfold bidEntry
  cases o with
  | none => simp [checkEntryEvidence, bidderName, ho]
  | some entry =>
    simp only [checkEntryEvidence, bidderName, ho, Passes, clean_bind, clean_lift, Except.ok.injEq,
      exists_eq_left', Option.some.injEq, forall_eq', EvidenceOkV1]
    cases hevidence : property engine entry "evidence" with
    | none => simp
    | some evidence =>
      by_cases htrue : truthy (some evidence) = true
      · simp only [htrue, if_true, clean_bind, Option.some.injEq, forall_eq', true_implies]
        constructor
        · rintro ⟨⟨⟩, hciphertext, hblob⟩
          exact ⟨passes_checkHex.mp hciphertext, passes_checkHex.mp hblob⟩
        · rintro ⟨hciphertext, hblob⟩
          exact ⟨(), passes_checkHex.mpr hciphertext, passes_checkHex.mpr hblob⟩
      · simp [htrue]

/-! ## The whole receipt -/

/-- What the verifier demands of a receipt with these bidders. -/
structure Accepted (engine : Engine) (sha256 : Bytes → BytesN 32) (r : String → JsValue)
    (bidders : List Json) (leader : Leader) : Prop where
  version : r "version" = some (.num 1)
  schema : SchemaOk engine sha256 r
  roster : BiddersOk engine r bidders
  entry : ∀ b ∈ bidders, ∀ entry, bidEntry engine r b = some entry → EntryOk engine sha256 entry
  leader_eq : leader = bidders.foldl (afterEntry engine r) none
  outcome : OutcomeOk engine r leader
  evidence : ∀ b ∈ bidders, ∀ entry, bidEntry engine r b = some entry → EvidenceOkV1 engine entry

/-- The leader is one of the bidders. -/
theorem leader_name {bidders : List Json} (haccount : ∀ b ∈ bidders, IsAccountName b)
    {leader : Leader}
    (hleader : ∀ winner value, leader = some (winner, value) → ∃ name, winner = .str name) :
    ∀ winner value, bidders.foldl (afterEntry engine r) leader = some (winner, value) →
      ∃ name, winner = .str name := by
  induction bidders generalizing leader with
  | nil => exact hleader
  | cons b bidders ih =>
    rw [List.forall_mem_cons] at haccount
    refine ih haccount.2 fun winner value h => ?_
    obtain ⟨name, rfl, -⟩ := haccount.1
    unfold afterEntry advance at h
    split at h
    · unfold FirstBest.keep at h
      split at h
      · cases h
        exact ⟨name, rfl⟩
      · split at h
        · cases h
          exact ⟨name, rfl⟩
        · exact hleader winner value h
    · exact hleader winner value h

theorem strictEq_one {v : JsValue} : strictEq v (some (.num 1)) = true ↔ v = some (.num 1) := by
  rcases v with _ | (_ | _ | _ | _ | _ | _) <;> simp [strictEq]

/-- **What acceptance means.** -/
theorem passes_checkReceipt {receipt : Json} {leader : Leader} :
    Passes (checkReceipt engine sha256 receipt) leader ↔ receipt ≠ .null ∧
      ∃ bidders, property engine receipt "bidders" = some (.arr bidders) ∧
        Accepted engine sha256 (property engine receipt) bidders leader := by
  rw [checkReceipt, Passes, clean_bind]
  simp only [clean_lift]
  constructor
  · rintro ⟨version, hread, h⟩
    have hnull := getProperty_eq_ok.mp ⟨version, hread⟩
    have hversion : version = property engine receipt "version" := by
      cases receipt with
      | null => exact absurd rfl hnull
      | _ => exact (Except.ok.inj hread).symm
    subst hversion
    refine ⟨hnull, ?_⟩
    rw [clean_ite] at h
    by_cases hone : strictEq (property engine receipt "version") (some (.num 1)) = true
    · have h := h.2 (not_not.mpr hone)
      simp only [clean_bind] at h
      obtain ⟨⟨⟩, hschema, h⟩ := h
      split at h
      · next bidders hbidders =>
        simp only [clean_bind, clean_pure] at h
        obtain ⟨⟨⟩, hcheck, t, hloop, ⟨⟩, houtcome, ⟨⟩, hevidence, rfl⟩ := h
        have hok := passes_checkBidders.mp hcheck
        obtain ⟨hentry, hleader⟩ := (clean_foldlM fun b hb l t => passes_visitEntry hok hb).mp hloop
        have hname := @leader_name engine (property engine receipt) _ hok.account none
          fun _ _ h => (Option.some_ne_none _ h.symm).elim
        rw [← hleader] at hname
        exact ⟨bidders, hbidders, strictEq_one.mp hone, passes_checkSchema.mp hschema, hok, hentry,
          hleader,
          (passes_checkOutcome hname).mp houtcome,
          fun b hb => (passes_checkEntryEvidence hok hb).mp (clean_forM.mp hevidence b hb)⟩
      · simp at h
    · have h := h.1 hone
      simp at h
  · rintro ⟨hnull, bidders, hbidders, hok⟩
    have hread : getProperty engine (some receipt) "version" =
        .ok (property engine receipt "version") := by
      cases receipt with
      | null => exact absurd rfl hnull
      | _ => rfl
    refine ⟨_, hread, ?_⟩
    have hname := @leader_name engine (property engine receipt) _ hok.roster.account none
      fun _ _ h => (Option.some_ne_none _ h.symm).elim
    rw [← hok.leader_eq] at hname
    rw [if_neg (not_not.mpr (strictEq_one.mpr hok.version))]
    simp only [clean_bind, hbidders, clean_pure]
    exact ⟨(), passes_checkSchema.mpr hok.schema, (), passes_checkBidders.mpr hok.roster, leader,
      (clean_foldlM fun b hb l t => passes_visitEntry hok.roster hb).mpr ⟨hok.entry, hok.leader_eq⟩,
      (), (passes_checkOutcome hname).mpr hok.outcome, (), clean_forM.mpr fun b hb =>
        (passes_checkEntryEvidence hok.roster hb).mpr (hok.evidence b hb), rfl⟩

end

/-- The verifier's answer as a flag. -/
def accepts (engine : Engine) (sha256 : Bytes → BytesN 32) (receipt : Json) : Bool :=
  match verifyReceipt engine sha256 receipt with
  | .ok result => result.valid
  | .error _ => false

theorem accepted_of_accepts {engine : Engine} {sha256 : Bytes → BytesN 32} {receipt : Json}
    (h : accepts engine sha256 receipt = true) :
    ∃ result, verifyReceipt engine sha256 receipt = .ok result ∧ result.valid = true := by
  unfold accepts at h
  cases hverify : verifyReceipt engine sha256 receipt with
  | ok result =>
    rw [hverify] at h
    exact ⟨result, rfl, h⟩
  | error e =>
    rw [hverify] at h
    cases h

end SubRosa.Sdk
