import SubRosa.Sdk.Accepted

/-!
# Receipts a verifier can read

What the sections of the two verifiers need so as not to throw. The checks of a
section all tolerate missing and mistyped fields but for a few uses.
-/

namespace SubRosa.Sdk

open JavaScript Report MachineInt

section

variable {engine : Engine} {sha256 : Bytes → BytesN 32} {r : String → JsValue}

/-! ## First generation -/

theorem finishes_checkSchema : Finishes (checkSchema engine sha256 r) () ↔
    Textual engine (r "clearingRule") ∧ Textual engine (r "status") := by
  have hnetwork : isString (r "network") = true → Textual engine (r "network") := by
    intro hstr
    unfold isString at hstr
    split at hstr
    · next heq => rw [heq]; exact textual_str _
    · cases hstr
  have hrule : isOneOf ["HighestBid", "LowestBid"] (r "clearingRule") = true →
      Textual engine (r "clearingRule") := textual_of_isOneOf
  have hstatus : (¬ isOneOf validStatuses (r "status") = true →
      ∃ s, text engine (r "status") = .ok s) ↔ Textual engine (r "status") :=
    exists_text textual_of_isOneOf
  unfold checkSchema
  simp only [clean_bind, clean_addIf, clean_ite, clean_lift, clean_pure, clean_add,
    not_false_eq_true, implies_true, true_and, exists_const, and_true, hstatus, exists_and_right]
  unfold Textual at *
  by_cases hnet : isString (r "network") = true
  · have hread := hnetwork hnet
    by_cases hone : isOneOf ["HighestBid", "LowestBid"] (r "clearingRule") = true
    · have hshown := hrule hone
      simp only [hread, hone, hshown, not_true_eq_false, false_implies, and_true, true_and,
        true_implies]
      exact ⟨fun h => (em _).elim h.1 h.2, fun h => ⟨fun _ => h, fun _ => h⟩⟩
    · simp only [hread, hone, true_and, not_false_eq_true, false_implies, true_implies,
        Bool.false_eq_true]
      exact ⟨fun h => (em _).elim h.1 h.2, fun h => ⟨fun _ => h, fun _ => h⟩⟩
  · by_cases hone : isOneOf ["HighestBid", "LowestBid"] (r "clearingRule") = true
    · simp [hnet, hone, hrule hone]
    · simp [hnet, hone]

/-! ### The roster -/

theorem finishes_visitBidderV1 (seen : List Json) (bidder : Json) :
    (∃ t, Finishes (visitBidderV1 seen bidder) t) ↔ ∃ name, bidder = .str name := by
  cases bidder with
  | str name => simp [visitBidderV1, bidderName]
  | _ => simp [visitBidderV1, bidderName]

theorem hasProperty_eq_ok {v : JsValue} {key : String} :
    (∃ b, hasProperty engine v key = .ok b) ↔ isObject v = true := by
  rcases v with _ | (_ | _ | _ | _ | _ | _) <;> simp [hasProperty, isObject]

theorem keys_eq_ok {v : JsValue} : (∃ names, keys v = .ok names) ↔ v ≠ none ∧ v ≠ some .null := by
  rcases v with _ | (_ | _ | _ | _ | _ | _) <;> simp [keys]

/-- Bidders whose entries can be looked up. -/
structure RosterReadable (r : String → JsValue) (bidders : List Json) : Prop where
  name : ∀ b ∈ bidders, ∃ name, b = .str name
  bids : r "bids" ≠ none ∧ r "bids" ≠ some .null
  record : bidders ≠ [] → isObject (r "bids") = true

theorem finishes_checkBidders {bidders : List Json} :
    Finishes (checkBidders engine r bidders) () ↔ RosterReadable r bidders := by
  have hloop : (∃ seen, Finishes (bidders.foldlM visitBidderV1 []) seen) ↔
      ∀ b ∈ bidders, ∃ name, b = .str name :=
    exists_clean_foldlM fun b _ seen => finishes_visitBidderV1 seen b
  unfold checkBidders
  simp only [clean_bind, clean_lift, clean_forM, clean_addIf, not_false_eq_true, implies_true,
    true_and, and_true]
  constructor
  · rintro ⟨seen, hseen, names, hkeys, ⟨⟩, hpresent⟩
    refine ⟨hloop.mp ⟨seen, hseen⟩, keys_eq_ok.mp ⟨names, hkeys⟩, fun hne => ?_⟩
    obtain ⟨b, hb⟩ := List.exists_mem_of_ne_nil bidders hne
    obtain ⟨_, -, hhas⟩ := hpresent b hb
    exact hasProperty_eq_ok.mp hhas
  · intro h
    obtain ⟨seen, hseen⟩ := hloop.mpr h.name
    obtain ⟨names, hkeys⟩ := keys_eq_ok.mpr h.bids
    refine ⟨seen, hseen, names, hkeys, (), fun b hb => ?_⟩
    obtain ⟨name, rfl⟩ := h.name b hb
    exact ⟨name, rfl, hasProperty_eq_ok.mpr (h.record (List.ne_nil_of_mem hb))⟩

/-! ### Entries -/

/-- A value with a nonce can be hashed and compared. -/
def RevealReadable (engine : Engine) (entry : String → JsValue) : Prop :=
  isRevealed entry = true → hasNonce entry = true →
    ∀ value nonce, parseBigInt engine (entry "revealedValue") = some value →
      fromHex engine (entry "nonce") = .ok nonce → nonce.length = 32 →
        (i128Min ≤ value ∧ value ≤ i128Max) ∧ ∃ text, entry "commitment" = some (.str text)

def EvidenceReadable (engine : Engine) (entry : String → JsValue) : Prop :=
  ∀ evidence, entry "evidence" = some evidence → truthy (some evidence) = true →
    Textual engine (property engine evidence "ciphertext") ∧
      Textual engine (property engine evidence "auditorBlob")

theorem commitment_eq_ok {value : Int} {nonce : Bytes} (hlength : nonce.length = 32) :
    (∃ hash, commitment sha256 value nonce = .ok hash) ↔ i128Min ≤ value ∧ value ≤ i128Max := by
  unfold commitment encodeBidPreimage
  rw [if_neg (by simp [hlength, nonceBytes])]
  unfold i128ToBeBytes
  by_cases hrange : value < i128Min ∨ i128Max < value
  · rw [if_pos hrange]
    simp [bind, Except.bind]
    omega
  · rw [if_neg hrange]
    simp [bind, Except.bind, pure, Except.pure]
    omega

theorem toLowerCase_eq_ok {v : JsValue} :
    (∃ s, toLowerCase v = .ok s) ↔ ∃ text, v = some (.str text) := by
  rcases v with _ | (_ | _ | _ | _ | _ | _) <;> simp [toLowerCase]

theorem finishes_checkReveal {path : String} {bidder : Json} {entry : String → JsValue}
    {leader : Leader} (hrevealed : isRevealed entry = true) (hnonce : hasNonce entry = true) :
    (∃ t, Finishes (checkReveal engine sha256 r path bidder entry leader) t) ↔
      RevealReadable engine entry := by
  unfold checkReveal RevealReadable
  cases hvalue : parseBigInt engine (entry "revealedValue") with
  | none => simp
  | some value =>
    cases hbytes : fromHex engine (entry "nonce") with
    | error e => simp
    | ok nonce =>
      by_cases hlength : nonce.length = 32
      · have hcases : (∃ hash, commitment sha256 value nonce = .ok hash) ↔
            i128Min ≤ value ∧ value ≤ i128Max := commitment_eq_ok hlength
        have hlower := toLowerCase_eq_ok (v := entry "commitment")
        simp only [hlength, ne_eq, not_true_eq_false, if_false, clean_bind, clean_lift, clean_ite,
          clean_add, clean_pure, not_false_eq_true, true_and]
        constructor
        · rintro ⟨t, hash, hhash, shown, hshown, -⟩ - - value' nonce' ⟨⟩ ⟨⟩ -
          exact ⟨hcases.mp ⟨hash, hhash⟩, hlower.mp ⟨shown, hshown⟩⟩
        · intro h
          obtain ⟨hrange, text, htext⟩ := h hrevealed hnonce value nonce rfl rfl hlength
          obtain ⟨hash, hhash⟩ := hcases.mpr hrange
          refine ⟨candidate r bidder entry value leader, hash, hhash, text.toLower,
            by rw [htext]; rfl, ?_⟩
          rw [htext]
          exact ⟨fun _ => ⟨text, rfl, (), rfl⟩, fun _ => rfl⟩
      · simp [hlength]

theorem finishes_checkValue {path : String} {bidder : Json} {entry : String → JsValue}
    {leader : Leader} : ∃ t, Finishes (checkValue engine r path bidder entry leader) t := by
  unfold checkValue
  split
  · exact ⟨leader, by simp⟩
  · exact ⟨_, clean_pure.mpr rfl⟩

theorem finishes_checkEntry {path : String} {bidder : Json} {entry : String → JsValue}
    {leader : Leader} : (∃ t, Finishes (checkEntry engine sha256 r path bidder entry leader) t) ↔
      RevealReadable engine entry := by
  have hbranch : (∃ t, Finishes (checkEntry engine sha256 r path bidder entry leader) t) ↔
      ∃ t, Finishes (if isRevealed entry = true then
          if hasNonce entry = true then checkReveal engine sha256 r path bidder entry leader
          else checkValue engine r path bidder entry leader
        else pure leader) t := by
    unfold checkEntry isRevealed hasNonce
    simp only [clean_bind, clean_addIf, clean_ite, clean_pure, not_false_eq_true, implies_true,
      true_and, exists_const, Bool.not_eq_true', Bool.not_eq_true, Bool.not_eq_false]
  rw [hbranch]
  by_cases hrevealed : isRevealed entry = true
  · rw [if_pos hrevealed]
    by_cases hnonce : hasNonce entry = true
    · rw [if_pos hnonce]
      exact finishes_checkReveal hrevealed hnonce
    · rw [if_neg hnonce]
      exact iff_of_true finishes_checkValue fun _ h => absurd h hnonce
  · rw [if_neg hrevealed]
    exact iff_of_true ⟨leader, clean_pure.mpr rfl⟩ fun h => absurd h hrevealed

/-! ### The loops -/

theorem entryOf_eq_ok {name : String} (h : r "bids" ≠ none ∧ r "bids" ≠ some .null) :
    ∃ o, entryOf engine r name = .ok o := by
  unfold entryOf
  rcases hbids : r "bids" with _ | (_ | _ | _ | _ | _ | _)
  · exact absurd hbids h.1
  · exact absurd hbids h.2
  all_goals exact ⟨_, rfl⟩

theorem finishes_visitEntry {bidders : List Json} (hroster : RosterReadable r bidders)
    {bidder : Json} (hbidder : bidder ∈ bidders) (leader : Leader) :
    (∃ t, Finishes (visitEntry engine sha256 r leader bidder) t) ↔
      ∀ entry, bidEntry engine r bidder = some entry → RevealReadable engine entry := by
  obtain ⟨name, rfl⟩ := hroster.name bidder hbidder
  obtain ⟨o, ho⟩ : ∃ o, entryOf engine r name = .ok o := entryOf_eq_ok hroster.bids
  unfold bidEntry
  cases o with
  | none => simp [visitEntry, bidderName, ho]
  | some entry => simp [visitEntry, bidderName, ho, finishes_checkEntry]

theorem finishes_checkHex {field path : String} {v : JsValue} :
    Finishes (checkHex engine field path v) () ↔ Textual engine v := by
  unfold checkHex
  by_cases hnull : strictEq v (some .null) = true
  · rw [if_pos hnull, strictEq_null.mp hnull]
    exact iff_of_true (clean_pure.mpr rfl) textual_null
  · simp [hnull, Textual]

theorem finishes_checkEntryEvidence {bidders : List Json} (hroster : RosterReadable r bidders)
    {bidder : Json} (hbidder : bidder ∈ bidders) :
    Finishes (checkEntryEvidence engine r bidder) () ↔
      ∀ entry, bidEntry engine r bidder = some entry → EvidenceReadable engine entry := by
  obtain ⟨name, rfl⟩ := hroster.name bidder hbidder
  obtain ⟨o, ho⟩ : ∃ o, entryOf engine r name = .ok o := entryOf_eq_ok hroster.bids
  unfold bidEntry
  cases o with
  | none => simp [checkEntryEvidence, bidderName, ho]
  | some entry =>
    simp only [checkEntryEvidence, bidderName, ho, clean_bind, clean_lift, Except.ok.injEq,
      exists_eq_left', Option.some.injEq, forall_eq', EvidenceReadable]
    cases hevidence : property engine entry "evidence" with
    | none => simp
    | some evidence =>
      by_cases htrue : truthy (some evidence) = true
      · simp only [htrue, if_true, clean_bind, Option.some.injEq, forall_eq', true_implies]
        constructor
        · rintro ⟨⟨⟩, hciphertext, hblob⟩
          exact ⟨finishes_checkHex.mp hciphertext, finishes_checkHex.mp hblob⟩
        · rintro ⟨hciphertext, hblob⟩
          exact ⟨(), finishes_checkHex.mpr hciphertext, finishes_checkHex.mpr hblob⟩
      · simp [htrue]

/-- The lead stays or goes to this bidder. -/
def Overtakes (bidder : Json) (leader t : Leader) : Prop := t = leader ∨ ∃ v, t = some (bidder, v)

theorem overtakes_candidate {bidder : Json} {entry : String → JsValue} {value : Int}
    {leader : Leader} : Overtakes bidder leader (candidate r bidder entry value leader) := by
  unfold candidate
  split
  · unfold FirstBest.keep
    split
    · exact .inr ⟨value, rfl⟩
    · split
      · exact .inr ⟨value, rfl⟩
      · exact .inl rfl
  · exact .inl rfl

theorem overtakes_checkReveal {path : String} {bidder : Json} {entry : String → JsValue}
    {leader t : Leader}
    (h : Finishes (checkReveal engine sha256 r path bidder entry leader) t) :
    Overtakes bidder leader t := by
  unfold checkReveal at h
  split at h
  · simp only [clean_bind, clean_add, not_false_eq_true, exists_const, true_and, clean_pure] at h
    exact .inl h
  · split at h
    · simp only [clean_bind, clean_add, not_false_eq_true, exists_const, true_and, clean_pure] at h
      exact .inl h
    · split at h
      · simp only [clean_bind, clean_add, not_false_eq_true, exists_const, true_and,
          clean_pure] at h
        exact .inl h
      · simp only [clean_bind, clean_lift, clean_ite, clean_add, clean_pure, not_false_eq_true,
          true_and, exists_const] at h
        obtain ⟨hash, -, shown, -, hdiffer, hsame⟩ := h
        have ht : t = candidate r bidder entry _ leader :=
          (em _).elim (fun hne => (hdiffer hne).choose_spec.2) hsame
        rw [ht]
        exact overtakes_candidate

theorem overtakes_checkValue {path : String} {bidder : Json} {entry : String → JsValue}
    {leader t : Leader} (h : Finishes (checkValue engine r path bidder entry leader) t) :
    Overtakes bidder leader t := by
  unfold checkValue at h
  split at h
  · simp only [clean_bind, clean_add, not_false_eq_true, exists_const, true_and, clean_pure] at h
    exact .inl h
  · rw [clean_pure.mp h]
    exact overtakes_candidate

theorem overtakes_checkEntry {path : String} {bidder : Json} {entry : String → JsValue}
    {leader t : Leader} (h : Finishes (checkEntry engine sha256 r path bidder entry leader) t) :
    Overtakes bidder leader t := by
  unfold checkEntry at h
  simp only [clean_bind, clean_addIf, not_false_eq_true, implies_true, true_and,
    exists_const] at h
  split at h
  · split at h
    · exact overtakes_checkReveal h
    · exact overtakes_checkValue h
  · simp only [clean_bind, clean_addIf, not_false_eq_true, implies_true, true_and, exists_const,
      clean_pure] at h
    exact .inl h

theorem overtakes_visitEntry {bidder : Json} {leader t : Leader}
    (h : Finishes (visitEntry engine sha256 r leader bidder) t) : Overtakes bidder leader t := by
  unfold visitEntry at h
  simp only [clean_bind, clean_lift] at h
  obtain ⟨name, -, o, -, h⟩ := h
  cases o with
  | none => exact .inl (clean_pure.mp h)
  | some entry => exact overtakes_checkEntry h

/-- The winner is a bidder, so it has a text. -/
theorem finishes_checkOutcome {leader : Leader}
    (hname : ∀ winner value, leader = some (winner, value) → ∃ name, winner = .str name) :
    Finishes (checkOutcome engine r leader) () ↔ Textual engine (r "winner") := by
  unfold checkOutcome
  have hnull : strictEq (r "winner") (some .null) = true → Textual engine (r "winner") := by
    intro h
    rw [strictEq_null.mp h]
    exact textual_null
  rcases leader with _ | ⟨winner, value⟩
  · by_cases h : strictEq (r "winner") (some .null) = true
    · simp [h, hnull h]
    · simp [h, Textual]
  · obtain ⟨name, rfl⟩ := hname winner value rfl
    by_cases h : strictEq (r "winner") (some .null) = true
    · simp [h, hnull h, text, Json.text]
    · by_cases heq : strictEq (some (.str name)) (r "winner") = true
      · have hwinner : r "winner" = some (.str name) := (eq_of_strictEq heq).symm
        rw [hwinner]
        exact iff_of_true (by simp [strictEq]) (textual_str name)
      · simp [h, heq, text, Json.text, Textual]

/-! ### The whole receipt -/

theorem stops_checkSchema : ¬ Stops (checkSchema engine sha256 r) := by
  simp [checkSchema, stops_ite]

theorem stops_visitBidderV1 (seen : List Json) (bidder : Json) :
    ¬ Stops (visitBidderV1 seen bidder) := by
  simp [visitBidderV1]

theorem stops_checkBidders {bidders : List Json} : ¬ Stops (checkBidders engine r bidders) := by
  simp [checkBidders, stops_forM, stops_foldlM, stops_visitBidderV1]

theorem stops_checkReveal {path : String} {bidder : Json} {entry : String → JsValue}
    {leader : Leader} : ¬ Stops (checkReveal engine sha256 r path bidder entry leader) := by
  unfold checkReveal
  split
  · simp
  · split
    · simp
    · simp [stops_ite]

theorem stops_checkValue {path : String} {bidder : Json} {entry : String → JsValue}
    {leader : Leader} : ¬ Stops (checkValue engine r path bidder entry leader) := by
  unfold checkValue
  split
  · simp
  · simp

theorem stops_visitEntry (leader : Leader) (bidder : Json) :
    ¬ Stops (visitEntry engine sha256 r leader bidder) := by
  simp only [visitEntry, stops_bind, stops_lift, false_or, not_exists, not_and]
  rintro name - o -
  cases o with
  | none => simp
  | some entry => simp [checkEntry, stops_ite, stops_checkReveal, stops_checkValue]

theorem stops_checkOutcome {leader : Leader} : ¬ Stops (checkOutcome engine r leader) := by
  unfold checkOutcome
  split
  · simp [stops_ite]
  · simp [stops_ite]

theorem stops_checkHex {field path : String} {v : JsValue} :
    ¬ Stops (checkHex engine field path v) := by
  simp [checkHex, stops_ite]

theorem stops_checkEntryEvidence (bidder : Json) :
    ¬ Stops (checkEntryEvidence engine r bidder) := by
  simp only [checkEntryEvidence, stops_bind, stops_lift, false_or, not_exists, not_and]
  rintro name - o -
  cases o with
  | none => simp
  | some entry =>
    dsimp only
    split
    · simp [stops_ite, stops_checkHex]
    · simp

/-- A receipt whose fields support every use the verifier makes of them. -/
structure Readable (engine : Engine) (r : String → JsValue) : Prop where
  rule : Textual engine (r "clearingRule")
  status : Textual engine (r "status")
  roster : ∀ bidders, r "bidders" = some (.arr bidders) → RosterReadable r bidders
  reveal : ∀ bidders, r "bidders" = some (.arr bidders) → ∀ b ∈ bidders, ∀ entry,
    bidEntry engine r b = some entry → RevealReadable engine entry
  evidence : ∀ bidders, r "bidders" = some (.arr bidders) → ∀ b ∈ bidders, ∀ entry,
    bidEntry engine r b = some entry → EvidenceReadable engine entry
  winner : ∀ bidders, r "bidders" = some (.arr bidders) → Textual engine (r "winner")

/-- What the verifier reads once it has the bidders. -/
theorem returns_bidders {bidders : List Json} :
    Returns (do
      checkBidders engine r bidders
      let leader ← bidders.foldlM (visitEntry engine sha256 r) none
      checkOutcome engine r leader
      forM bidders (checkEntryEvidence engine r)
      return leader : Check Leader) ↔
      RosterReadable r bidders ∧
        (∀ b ∈ bidders, ∀ entry, bidEntry engine r b = some entry → RevealReadable engine entry) ∧
        Textual engine (r "winner") ∧
        ∀ b ∈ bidders, ∀ entry, bidEntry engine r b = some entry →
          EvidenceReadable engine entry := by
  rw [returns_then stops_checkBidders, finishes_checkBidders]
  refine and_congr_right fun hroster => ?_
  have hloop : (∃ leader, Finishes (bidders.foldlM (visitEntry engine sha256 r) none) leader) ↔
      ∀ b ∈ bidders, ∀ entry, bidEntry engine r b = some entry → RevealReadable engine entry :=
    exists_clean_foldlM fun b hb leader => finishes_visitEntry hroster hb leader
  have hevidence : Finishes (forM bidders (checkEntryEvidence engine r)) () ↔
      ∀ b ∈ bidders, ∀ entry, bidEntry engine r b = some entry → EvidenceReadable engine entry :=
    clean_forM.trans (forall₂_congr fun b hb => finishes_checkEntryEvidence hroster hb)
  -- the leader is one of the bidders
  have hname : ∀ leader, Finishes (bidders.foldlM (visitEntry engine sha256 r) none) leader →
      ∀ winner value, leader = some (winner, value) → ∃ name, winner = .str name := by
    intro leader h
    refine h.foldlM_induction (fun l : Leader => ∀ winner value, l = some (winner, value) →
      ∃ name, winner = .str name) (fun b hb s t hs ht winner value heq => ?_) (by simp)
    rcases overtakes_visitEntry ht with rfl | ⟨v, rfl⟩
    · exact hs winner value heq
    · cases heq
      exact hroster.name b hb
  have hrest : ∀ leader, Returns (do
      checkOutcome engine r leader
      forM bidders (checkEntryEvidence engine r)
      return leader : Check Leader) ↔ Finishes (checkOutcome engine r leader) () ∧
        Finishes (forM bidders (checkEntryEvidence engine r)) () := by
    intro leader
    rw [returns_then stops_checkOutcome,
      returns_then (stops_forM fun b _ => stops_checkEntryEvidence b)]
    exact and_congr_right fun _ => and_iff_left ⟨_, rfl⟩
  rw [returns_bind (stops_foldlM fun b _ leader => stops_visitEntry leader b), ← hloop, ← hevidence]
  simp only [hrest]
  constructor
  · rintro ⟨leader, hleader, houtcome, hev⟩
    exact ⟨⟨leader, hleader⟩, (finishes_checkOutcome (hname leader hleader)).mp houtcome, hev⟩
  · rintro ⟨⟨leader, hleader⟩, hwinner, hev⟩
    exact ⟨leader, hleader, (finishes_checkOutcome (hname leader hleader)).mpr hwinner, hev⟩

theorem returns_checkReceipt {receipt : Json} (hobject : receipt ≠ .null)
    (hversion : property engine receipt "version" = some (.num 1)) :
    Returns (checkReceipt engine sha256 receipt) ↔ Readable engine (property engine receipt) := by
  have hread : getProperty engine (some receipt) "version" = .ok (some (.num 1)) := by
    rw [← hversion]
    cases receipt with
    | null => exact absurd rfl hobject
    | _ => rfl
  rw [checkReceipt, returns_bind (stops_lift _)]
  simp only [clean_lift, hread, Except.ok.injEq, exists_eq_left', strictEq_one, not_true_eq_false,
    if_false]
  generalize property engine receipt = r
  rw [returns_then stops_checkSchema, finishes_checkSchema]
  split
  · next bidders hbidders =>
    rw [returns_bidders]
    constructor
    · rintro ⟨⟨hrule, hstatus⟩, hroster, hreveal, hwinner, hevidence⟩
      refine ⟨hrule, hstatus, ?_, ?_, ?_, ?_⟩
      all_goals
        intro list heq
        rw [hbidders] at heq
        cases heq
        assumption
    · intro h
      exact ⟨⟨h.rule, h.status⟩, h.roster _ hbidders, h.reveal _ hbidders, h.winner _ hbidders,
        h.evidence _ hbidders⟩
  · next hno =>
    constructor
    · rintro ⟨⟨hrule, hstatus⟩, -⟩
      exact ⟨hrule, hstatus, fun _ h => absurd h (hno _), fun _ h => absurd h (hno _),
        fun _ h => absurd h (hno _), fun _ h => absurd h (hno _)⟩
    · intro h
      exact ⟨⟨h.rule, h.status⟩,
        (returns_then (stops_add _)).mpr ⟨clean_add.mpr (by simp), returns_stop⟩⟩

end

end SubRosa.Sdk
