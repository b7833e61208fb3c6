import SubRosa.Library.IntegerEngine
import SubRosa.Sdk.Accepted
import SubRosa.Sdk.Export

/-!
# What a verifier reads of an exported receipt

The values of an exported receipt read back as what they were written from, its
entries stand under the names of the bidders, and each of its fields is found.
-/

namespace SubRosa.Sdk

open JavaScript MachineInt

/-! ## Values -/

section Values

variable {engine : Engine}

theorem decimal_i128Json (x : I128) : decimal (some (i128Json x)) = some x.toInt :=
  (decimal_intCast x.toInt).2

theorem decimal_u64Json (n : UInt64) : decimal (some (u64Json n)) = some (n.toNat : Int) :=
  (decimal_intCast (n.toNat : Int)).2

theorem parseBigInt_text (n : Int) : parseBigInt engine (some (.str (toString n))) = some n := by
  rw [parseBigInt, bigInt, bigIntOfText, bigIntText_intCast]
  rfl

theorem parseBigInt_i128Json (x : I128) : parseBigInt engine (some (i128Json x)) = some x.toInt :=
  parseBigInt_text x.toInt

theorem parseBigInt_u64Json (n : UInt64) :
    parseBigInt engine (some (u64Json n)) = some (n.toNat : Int) :=
  parseBigInt_text (n.toNat : Int)

theorem isHexValue_hexJson (bytes : Bytes) : isHexValue (some (hexJson bytes)) = true := by
  rw [hexJson, isHexValue, isHexText_toHex, length_toHex, Bool.true_and, decide_eq_true_eq]
  omega

theorem isHexOf_hexJson {n : Nat} (bytes : BytesN n) :
    isHexOf n (some (hexJson bytes.val)) = true := by
  rw [hexJson, isHexOf, isHexText_toHex, length_toHex, bytes.property, Bool.true_and,
    decide_eq_true_eq]

theorem toLowerCase_hexJson (bytes : Bytes) :
    toLowerCase (some (hexJson bytes)) = .ok (toHex bytes) := by
  rw [hexJson, toLowerCase, toLower_toHex]

theorem orNull_eq_null {α : Type} {f : α → Json} (hf : ∀ a, f a ≠ .null) {o : Option α} :
    orNull (o.map f) = .null ↔ o = none := by
  cases o with
  | none => simp [orNull]
  | some a => simp [orNull, hf]

theorem numberJson_small {n : UInt64} (h : n.toNat < 2 ^ 53) :
    numberJson n = .num (.finite (n.toNat : ℤ)) := by
  have hsmall : |(n.toNat : ℤ)| ≤ 2 ^ 53 := by
    rw [abs_of_nonneg (by omega)]
    omega
  have hexact := Number.ofExact_intCast hsmall
  rw [numberJson, ← hexact]
  norm_cast

/-- The number of a Drand round is a positive safe integer when it fits the doubles. -/
theorem isSafePositive_numberJson {n : UInt64} :
    isSafePositive (some (numberJson n)) = true ↔ n.toNat ≠ 0 ∧ n.toNat < 2 ^ 53 := by
  by_cases h : n.toNat < 2 ^ 53
  · have hsafe : (Number.finite (n.toNat : ℤ)).isSafeInteger = true := by
      rw [Number.isSafeInteger_intCast, abs_of_nonneg (by omega)]
      omega
    rw [numberJson_small h, isSafePositive, hsafe, Bool.true_and]
    have hpositive : (0 : Number).lt (.finite ((n.toNat : ℤ) : ℚ)) =
        decide ((0 : ℚ) < n.toNat) := by
      simp [Number.lt, OfNat.ofNat]
    rw [hpositive, decide_eq_true_eq, Nat.cast_pos]
    omega
  · have hlarge : (2 : ℚ) ^ 53 ≤ (n.toNat : ℚ) := by
      exact_mod_cast Nat.le_of_not_lt h
    have hunsafe := Number.isSafe_large hlarge
    have hfalse : (Number.ofExact (n.toNat : ℚ)).isSafeInteger = false := hunsafe
    rw [numberJson, isSafePositive, hfalse, Bool.false_and]
    exact ⟨nofun, fun hbound => absurd hbound.2 h⟩

theorem isIntegerBetween_u32Json {n : UInt32} (hlow : 1 ≤ n.toNat) (hhigh : n.toNat ≤ 25) :
    isIntegerBetween 1 25 (some (u32Json n)) = true := by
  have hinteger : (Number.finite (n.toNat : ℚ)).isInteger = true := by simp [Number.isInteger]
  have habove : (Number.finite (n.toNat : ℚ)).lt 1 = false :=
    decide_eq_false (not_lt.mpr (by exact_mod_cast hlow))
  have hbelow : (25 : Number).lt (.finite (n.toNat : ℚ)) = false :=
    decide_eq_false (not_lt.mpr (by exact_mod_cast hhigh))
  rw [u32Json, isIntegerBetween, hinteger, habove, hbelow]
  rfl

end Values

/-! ## Names -/

section Names

variable {exporter : Exporter}

/-- No name of an address is an index. -/
theorem Strkey.indexName_encode (strkey : Strkey) (b : Address) :
    indexName? (strkey.encode b) = none := by
  have hhead : ∃ c, (strkey.encode b).toList.head? = some c ∧ isDecimalDigit c = false := by
    cases b with
    | account key => exact ⟨'G', strkey.account key, by decide⟩
    | contract id => exact ⟨'C', strkey.contract id, by decide⟩
  obtain ⟨c, hc, hdigit⟩ := hhead
  have hdigits : digits? (strkey.encode b).toList = none := by
    rw [digits?, if_neg]
    rintro ⟨-, hall⟩
    have hone := List.all_eq_true.mp hall c (List.mem_of_head? hc)
    rw [hdigit] at hone
    cases hone
  rw [indexName?, hdigits]
  rfl

theorem strictEq_addressJson (a b : Address) :
    strictEq (some (addressJson exporter a)) (some (addressJson exporter b)) = decide (a = b) := by
  show decide (exporter.strkey.encode a = exporter.strkey.encode b) = _
  rw [decide_eq_decide, exporter.strkey.injective.eq_iff]

theorem hasValue_addresses (bidders : List Address) (b : Address) :
    hasValue (bidders.map (addressJson exporter)) (addressJson exporter b) =
      decide (b ∈ bidders) := by
  rw [hasValue, List.any_map]
  induction bidders with
  | nil => rfl
  | cons a bidders ih =>
    rw [List.any_cons, ih, Function.comp_apply, strictEq_addressJson, ← Bool.decide_or]
    refine decide_eq_decide.mpr ?_
    rw [List.mem_cons, eq_comm]

theorem distinct_addresses {bidders : List Address} (h : bidders.Nodup) :
    Distinct (bidders.map (addressJson exporter)) := by
  refine List.pairwise_map.mpr (h.imp fun {a b} hne => ?_)
  rw [strictEq_addressJson, decide_eq_false hne]

theorem setOf_distinct {items : List Json} (h : Distinct items) : setOf items = items := by
  have hgeneral : ∀ seen, Distinct (seen ++ items) → items.foldl insertValue seen =
      seen ++ items := by
    clear h
    induction items with
    | nil => simp
    | cons v items ih =>
      intro seen h
      have hnew : hasValue seen v = false := by
        rw [hasValue, List.any_eq_false]
        intro w hw
        rw [(List.pairwise_append.mp h).2.2 w hw v List.mem_cons_self]
        exact Bool.false_ne_true
      rw [List.foldl_cons, insertValue_new hnew, ih _ (by simpa using h)]
      simp
  exact hgeneral [] h

/-! ## Entries -/

/-- The entries of the bidders, in their order. -/
def namedEntries (exporter : Exporter) (json : Address → Json) (bidders : List Address) :
    List (String × Json) :=
  bidders.map fun b => (exporter.strkey.encode b, json b)

theorem names_namedEntries (json : Address → Json) (bidders : List Address) :
    (namedEntries exporter json bidders).map Prod.fst = bidders.map exporter.strkey.encode := by
  rw [namedEntries, List.map_map]
  rfl

theorem nodup_namedEntries (json : Address → Json) {bidders : List Address} (h : bidders.Nodup) :
    ((namedEntries exporter json bidders).map Prod.fst).Nodup := by
  rw [names_namedEntries]
  exact h.map exporter.strkey.injective

/-- **The loop of an export.** -/
theorem exportEntries_eq {read : Address → Except Thrown Json} {json : Address → Json}
    {bidders : List Address} (hread : ∀ b ∈ bidders, read b = .ok (json b)) (h : bidders.Nodup) :
    exportEntries exporter read bidders = .ok (namedEntries exporter json bidders) := by
  have hgeneral : ∀ done, (done ++ bidders).Nodup →
      bidders.foldlM (fun entries bidder => do
        return setField entries (exporter.strkey.encode bidder) (← read bidder))
        (namedEntries exporter json done) = .ok (namedEntries exporter json (done ++ bidders)) := by
    clear h
    induction bidders with
    | nil =>
      intro done _
      rw [List.append_nil]
      rfl
    | cons b bidders ih =>
      intro done h
      rw [List.forall_mem_cons] at hread
      have hnew : exporter.strkey.encode b ∉ (namedEntries exporter json done).map Prod.fst := by
        rw [names_namedEntries]
        intro hmem
        obtain ⟨a, ha, hab⟩ := List.mem_map.mp hmem
        rw [exporter.strkey.injective hab] at ha
        exact (List.nodup_append.mp h).2.2 b ha b List.mem_cons_self rfl
      have hstep : setField (namedEntries exporter json done) (exporter.strkey.encode b) (json b) =
          namedEntries exporter json (done ++ [b]) := by
        rw [setField_new _ hnew (exporter.strkey.indexName_encode b), namedEntries, namedEntries,
          List.map_append]
        rfl
      rw [List.foldlM_cons, hread.1]
      show (bidders.foldlM _ (setField (namedEntries exporter json done)
        (exporter.strkey.encode b) (json b))) = _
      rw [hstep, ih hread.2 (done ++ [b]) (by simpa using h)]
      simp
  exact hgeneral [] h

theorem fieldOf_namedEntries (json : Address → Json) {bidders : List Address} (h : bidders.Nodup)
    {b : Address} (hb : b ∈ bidders) :
    fieldOf (namedEntries exporter json bidders) (exporter.strkey.encode b) = some (json b) :=
  (fieldOf_eq_some (nodup_namedEntries json h)).mpr (List.mem_map.mpr ⟨b, hb, rfl⟩)

end Names

/-! ## Fields -/

section Fields

variable {engine : Engine} {exporter : Exporter} {host : Host} {roundId : UInt64}

structure BidReads (engine : Engine) (state : BidState) (found : Option Seal)
    (entry : String → JsValue) : Prop where
  commitment : entry "commitment" = some (hexJson state.commitment.val)
  escrow : entry "escrow" = some (i128Json state.escrow)
  revealedValue : entry "revealedValue" = some (orNull (state.revealedValue.map i128Json))
  nonce : entry "nonce" = some (orNull (state.revealedNonce.map fun n => hexJson n.val))
  valid : entry "valid" = some (.bool state.valid)
  evidence : entry "evidence" = some (evidenceJson found)

theorem bidJson_reads (state : BidState) (found : Option Seal) :
    BidReads engine state found (property engine (bidJson state found)) := by
  constructor
  all_goals
    rw [bidJson, property_obj (by simp [objectPrototype])]
    simp [fieldOf_cons]

structure SubmissionReads (engine : Engine) (state : SubmissionStateV2) (found : Option Seal)
    (submission : String → JsValue) : Prop where
  commitment : submission "commitment" = some (hexJson state.commitment.val)
  escrow : submission "escrow" = some (i128Json state.escrow)
  revealedEnvelope : submission "revealedEnvelope" =
    some (orNull (state.revealedEnvelope.map hexJson))
  revealedAmount : submission "revealedAmount" = some (orNull (state.revealedAmount.map i128Json))
  valid : submission "valid" = some (.bool state.valid)
  settled : submission "settled" = some (.bool state.settled)
  evidence : submission "evidence" = some (evidenceJson found)

theorem submissionJson_reads (state : SubmissionStateV2) (found : Option Seal) :
    SubmissionReads engine state found (property engine (submissionJson state found)) := by
  constructor
  all_goals
    rw [submissionJson, property_obj (by simp [objectPrototype])]
    simp [fieldOf_cons]

structure ReceiptReads (exporter : Exporter) (host : Host) (roundId : UInt64) (round : Round)
    (bids : List (String × Json)) (r : String → JsValue) : Prop where
  version : r "version" = some (.num 1)
  network : r "network" = some (.str exporter.networkPassphrase)
  networkFingerprint : r "networkFingerprint" =
    some (.str (networkFingerprint host.sha256 exporter.networkPassphrase))
  contractId : r "contractId" = some (.str exporter.contractId)
  roundId : r "roundId" = some (u64Json roundId)
  clearingRule : r "clearingRule" = some (.str round.clearingRule.tag)
  bidders : r "bidders" = some (.arr (round.bidders.map (addressJson exporter)))
  bids : r "bids" = some (.obj bids)
  winner : r "winner" = some (orNull (round.winner.map (addressJson exporter)))
  status : r "status" = some (.str round.status.tag)

theorem receiptJson_reads (round : Round) (bids : List (String × Json)) :
    ReceiptReads exporter host roundId round bids
      (property engine (receiptJson exporter host roundId round bids)) := by
  constructor
  all_goals
    rw [receiptJson, property_obj (by simp [objectPrototype])]
    simp [fieldOf_cons]

structure PolicyReads (exporter : Exporter) (policy : Option RoundPolicyV2)
    (p : String → JsValue) : Prop where
  enforced : p "enforced" = some (.bool policy.isSome)
  fixedEscrow : p "fixedEscrow" = some (orNull (policy.map fun p => i128Json p.fixedEscrow))
  participation : p "participation" = some (.str (if
    ((policy.map RoundPolicyV2.eligibleParticipants).getD []).length = 0 then "Open"
      else "Allowlist"))
  eligibleParticipants : p "eligibleParticipants" = some (.arr
    (((policy.map RoundPolicyV2.eligibleParticipants).getD []).map (addressJson exporter)))

theorem policyJson_reads (policy : Option RoundPolicyV2) :
    PolicyReads exporter policy (property engine (policyJson exporter policy)) := by
  cases policy with
  | none =>
    constructor
    all_goals
      rw [policyJson, property_obj (by simp [objectPrototype])]
      simp [fieldOf_cons, orNull]
  | some policy =>
    constructor
    all_goals
      rw [policyJson, property_obj (by simp [objectPrototype])]
      simp [fieldOf_cons, orNull]

/-- The opening fields are absent without a record. -/
structure OpeningReads (exporter : Exporter) (operator : Address) (reveal : Option RevealStateV3)
    (r : String → JsValue) : Prop where
  revealPolicy : r "revealPolicy" =
    reveal.map fun state => revealPolicyJson exporter operator state.policy
  openedAt : r "openedAt" = reveal.map fun state => orNull (state.openedAt.map u64Json)

structure ReceiptReadsV2 (exporter : Exporter) (host : Host) (roundId : UInt64) (round : RoundV2)
    (config : GlobalConfig) (policy : Option RoundPolicyV2) (reveal : Option RevealStateV3)
    (submissions : List (String × Json)) (r : String → JsValue) : Prop
    extends OpeningReads exporter round.operator reveal r where
  version : r "version" = some (u32Json round.protocolVersion)
  protocolVersion : r "protocolVersion" = some (u32Json round.protocolVersion)
  network : r "network" = some (.str exporter.networkPassphrase)
  networkFingerprint : r "networkFingerprint" =
    some (.str (networkFingerprint host.sha256 exporter.networkPassphrase))
  contractId : r "contractId" = some (.str exporter.contractId)
  roundId : r "roundId" = some (u64Json roundId)
  itemRef : r "itemRef" = some (hexJson round.itemRef.val)
  schemaRef : r "schemaRef" = some (hexJson round.schemaRef.val)
  mode : r "mode" = some (.str round.mode.tag)
  paymentAsset : r "paymentAsset" = some (orNull (round.paymentAsset.map (addressJson exporter)))
  lotAsset : r "lotAsset" = some (orNull (round.lotAsset.map (addressJson exporter)))
  lotAmount : r "lotAmount" = some (i128Json round.lotAmount)
  revealRound : r "revealRound" = some (numberJson round.revealRound)
  drandGenesis : r "drandGenesis" = some (u64Json config.drandGenesis)
  drandPeriod : r "drandPeriod" = some (u64Json config.drandPeriod)
  clearingRule : r "clearingRule" = some (.str round.clearingRule.tag)
  commitDeadline : r "commitDeadline" = some (u64Json round.commitDeadline)
  revealDeadline : r "revealDeadline" = some (u64Json round.revealDeadline)
  operator : r "operator" = some (addressJson exporter round.operator)
  auditorPubkey : r "auditorPubkey" = some (hexJson round.auditorPubkey)
  maxParticipants : r "maxParticipants" = some (u32Json round.maxParticipants)
  policy : r "policy" = some (policyJson exporter policy)
  bidders : r "bidders" = some (.arr (round.bidders.map (addressJson exporter)))
  submissions : r "submissions" = some (.obj submissions)
  winner : r "winner" = some (orNull (round.winner.map (addressJson exporter)))
  winningAmount : r "winningAmount" = some (i128Json round.winningBid)
  status : r "status" = some (.str round.status.tag)

theorem receiptV2Json_reads (round : RoundV2) (config : GlobalConfig)
    (policy : Option RoundPolicyV2) (reveal : Option RevealStateV3)
    (submissions : List (String × Json)) :
    ReceiptReadsV2 exporter host roundId round config policy reveal submissions (property engine
      (receiptV2Json exporter host roundId round config policy reveal submissions)) := by
  have hopening : ∀ key, key ≠ "revealPolicy" → key ≠ "openedAt" →
      fieldOf (openingFields exporter round.operator reveal) key = none := by
    intro key hpolicy hopened
    cases reveal with
    | none => rfl
    | some state => simp [openingFields, Ne.symm hpolicy, Ne.symm hopened, fieldOf]
  have hreads : OpeningReads exporter round.operator reveal (property engine
      (receiptV2Json exporter host roundId round config policy reveal submissions)) := by
    cases reveal with
    | none =>
      constructor
      all_goals
        rw [receiptV2Json, property_obj (by simp [objectPrototype])]
        simp [openingFields, fieldOf]
    | some state =>
      constructor
      all_goals
        rw [receiptV2Json, property_obj (by simp [objectPrototype])]
        simp [openingFields, fieldOf_cons]
  constructor
  case toOpeningReads => exact hreads
  all_goals
    rw [receiptV2Json, property_obj (by simp [objectPrototype])]
    simp [fieldOf_append, fieldOf_cons, hopening]

end Fields

end SubRosa.Sdk
