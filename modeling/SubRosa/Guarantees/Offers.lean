import SubRosa.Guarantees.Amounts
import SubRosa.Guarantees.Envelopes
import SubRosa.Guarantees.Proposals
import SubRosa.Library.IntegerEngine
import SubRosa.OpenX402.Offers

/-!
# Offers survive sealing

The metadata of a sealed offer read back, in any order, and give the offer,
unless its time of expiry is one that the reader refuses: the mapper computes
it in doubles and does not check it.
-/

namespace SubRosa.OpenX402

open JavaScript Sdk MachineInt

section

variable {engine : Engine} {timesTenMillion : Number → Number}
  {isValidEd25519PublicKey : String → Bool} {draft : OpenX402OfferDraft}
  {resource : OpenX402Resource} {bidder : String} {decimals : Nat} {now : Option Number}
  {offer : OpenX402Offer}

/-- A resource whose texts all say something. -/
structure OpenX402Resource.Filled (resource : OpenX402Resource) : Prop where
  id : resource.id ≠ ""
  provider : resource.provider ≠ ""
  network : resource.network ≠ ""
  asset : resource.asset ≠ ""
  payTo : resource.payTo ≠ ""
  metadataDigest : resource.metadataDigest ≠ ""
  resourceDigest : resource.resourceDigest ≠ ""

/-- The texts of safe integers stand for them. -/
def WritesIntegers (engine : Engine) : Prop :=
  ∀ n : ℤ, |n| ≤ 2 ^ 53 - 1 → engine.Prints (.finite n)

/-- An offer whose texts all say something. -/
structure OpenX402Offer.Filled (offer : OpenX402Offer) : Prop where
  provider : offer.provider ≠ ""
  resourceId : offer.resourceId ≠ ""
  resourceDigest : offer.resourceDigest ≠ ""
  quotedAmountBaseUnits : offer.quotedAmountBaseUnits ≠ ""
  network : offer.network ≠ ""
  asset : offer.asset ≠ ""
  payTo : offer.payTo ≠ ""
  metadataDigest : offer.metadataDigest ≠ some ""

/-- Unix second at which an offer of this validity expires. -/
def expiry (engine : Engine) (draft : OpenX402OfferDraft) (now : Option Number) : Option Number :=
  Number.add now (Number.mul (engine.stringToNumber draft.validityMinutes) (some 60))

/-! ## The mapper -/

/-- The offer of a draft that passes the checks. -/
def offerOf (engine : Engine) (draft : OpenX402OfferDraft) (resource : OpenX402Resource)
    (bidder quoted : String) (now : Option Number) : OpenX402Offer where
  bidder
  provider := resource.provider
  resourceId := resource.id
  resourceDigest := resource.resourceDigest
  quotedAmountBaseUnits := quoted
  network := resource.network
  asset := resource.asset
  payTo := resource.payTo
  estimatedResponseSeconds := engine.stringToNumber draft.estimatedResponseSeconds
  terms := trimText draft.terms
  validUntil := expiry engine draft now
  metadataDigest := some resource.metadataDigest

theorem mapOpenX402Offer_eq_ok :
    mapOpenX402Offer engine draft resource bidder decimals now = .ok offer ↔
      isPositiveCount (engine.stringToNumber draft.estimatedResponseSeconds) = true ∧
      isPositiveCount (engine.stringToNumber draft.validityMinutes) = true ∧
      isBlank draft.terms = false ∧
      ∃ quoted, amountToBaseUnits draft.quotedAmount decimals = .ok quoted ∧
        offer = offerOf engine draft resource bidder quoted now := by
  simp only [mapOpenX402Offer, bind_eq_ok, throwIf_eq_ok, exists_const, Bool.not_eq_true,
    Bool.not_eq_false]
  refine and_congr_right fun _ => and_congr_right fun _ => and_congr_right fun _ =>
    exists_congr fun quoted => and_congr_right fun _ => ?_
  exact ⟨fun h => (Except.ok.inj h).symm, fun h => congrArg Except.ok h.symm⟩

/-! ## The metadata -/

/-- The names of an offer's metadata. -/
def metadataNames : List String :=
  ["openX402OfferVersion", "provider", "resourceId", "resourceDigest", "quotedAmountBaseUnits",
    "network", "asset", "payTo", "estimatedResponseSeconds", "validUntil", "metadataDigest"]

theorem metadata_nodup (engine : Engine) (offer : OpenX402Offer) :
    ((offer.metadata engine).map Prod.fst).Nodup := by
  have hnames : (offer.metadata engine).map Prod.fst = metadataNames ∨
      (offer.metadata engine).map Prod.fst = metadataNames.take 10 := by
    unfold OpenX402Offer.metadata digestField
    split
    · split
      · exact .inr rfl
      · exact .inl rfl
    · exact .inr rfl
  rcases hnames with h | h <;> rw [h] <;> decide

theorem hasOtherValue_metadata (engine : Engine) (offer : OpenX402Offer) :
    hasOtherValue (some (.obj (offer.metadata engine))) = false := by
  unfold OpenX402Offer.metadata digestField
  split
  · split <;> rfl
  · rfl

/-- What is read from metadata that list the offer's in any order. -/
theorem optionalGet_metadata {metadata : JsValue}
    (h : SameMetadata (some (.obj (offer.metadata engine))) metadata) {key : String}
    (hkey : key ∈ metadataNames) :
    optionalGet engine metadata key = fieldOf (offer.metadata engine) key := by
  have hown : key ∉ objectPrototype := by
    have hall : ∀ k ∈ metadataNames, k ∉ objectPrototype := by decide
    exact hall key hkey
  rcases h with rfl | ⟨fields, fields', hfields, rfl, hperm⟩
  · exact property_obj hown
  · obtain rfl : offer.metadata engine = fields := by simpa using hfields
    rw [fieldOf_perm (metadata_nodup engine offer) hperm]
    exact property_obj hown

theorem requiredMetadata_eq_ok {metadata : JsValue} {key s : String} :
    requiredMetadata engine metadata key = .ok s ↔
      optionalGet engine metadata key = some (.str s) ∧ s ≠ "" := by
  unfold requiredMetadata
  split
  · next t ht =>
    rw [ht, Option.some_inj, Json.str.injEq]
    split
    · next hempty => exact ⟨nofun, fun hs => absurd (hs.1 ▸ hempty) hs.2⟩
    · next hfilled =>
      constructor
      · rintro ⟨⟩
        exact ⟨rfl, hfilled⟩
      · rintro ⟨rfl, -⟩
        rfl
  · next hother => exact ⟨nofun, fun hs => absurd hs.1 (hother s)⟩

/-- The metadata of an offer, name by name. -/
structure ReadsAs (engine : Engine) (metadata : JsValue) (offer : OpenX402Offer) : Prop where
  version : optionalGet engine metadata "openX402OfferVersion" = some (.str openX402OfferVersion)
  provider : optionalGet engine metadata "provider" = some (.str offer.provider)
  resourceId : optionalGet engine metadata "resourceId" = some (.str offer.resourceId)
  resourceDigest : optionalGet engine metadata "resourceDigest" = some (.str offer.resourceDigest)
  quotedAmountBaseUnits : optionalGet engine metadata "quotedAmountBaseUnits" =
    some (.str offer.quotedAmountBaseUnits)
  network : optionalGet engine metadata "network" = some (.str offer.network)
  asset : optionalGet engine metadata "asset" = some (.str offer.asset)
  payTo : optionalGet engine metadata "payTo" = some (.str offer.payTo)
  estimatedResponseSeconds : optionalGet engine metadata "estimatedResponseSeconds" =
    some (.str (Number.text engine offer.estimatedResponseSeconds))
  validUntil : optionalGet engine metadata "validUntil" =
    some (.str (Number.text engine offer.validUntil))
  metadataDigest : optionalGet engine metadata "metadataDigest" =
    fieldOf (digestField offer.metadataDigest) "metadataDigest"

theorem readsAs_metadata {metadata : JsValue}
    (h : SameMetadata (some (.obj (offer.metadata engine))) metadata) :
    ReadsAs engine metadata offer := by
  constructor
  all_goals
    rw [optionalGet_metadata h (by decide), OpenX402Offer.metadata]
    simp [fieldOf]

theorem digestOf_metadata {metadata : JsValue} (h : ReadsAs engine metadata offer)
    (hdigest : offer.metadataDigest ≠ some "") :
    digestOf engine metadata = offer.metadataDigest := by
  rw [digestOf, h.metadataDigest]
  cases hoffer : offer.metadataDigest with
  | none => rfl
  | some digest =>
    have hfilled : digest ≠ "" := fun hempty => hdigest (by rw [hoffer, hempty])
    simp [digestField, hfilled, fieldOf]

/-! ## The reader -/

/-- What the reader makes of the metadata of an offer. -/
theorem offerFromProposal_eq_ok {proposal : SealedProposal} {read : OpenX402Offer}
    (hmetadata : ReadsAs engine proposal.metadata offer) (hterms : proposal.approach = offer.terms)
    (hfilled : offer.Filled) :
    openX402OfferFromProposal engine proposal offer.bidder = .ok read ↔
      Number.text engine offer.estimatedResponseSeconds ≠ "" ∧
      Number.text engine offer.validUntil ≠ "" ∧
      isPositiveCount (engine.stringToNumber
        (Number.text engine offer.estimatedResponseSeconds)) = true ∧
      isPositiveCount (engine.stringToNumber (Number.text engine offer.validUntil)) = true ∧
      read = { offer with
        estimatedResponseSeconds := engine.stringToNumber
          (Number.text engine offer.estimatedResponseSeconds)
        validUntil := engine.stringToNumber (Number.text engine offer.validUntil) } := by
  have hread : ∀ {key s t : String}, optionalGet engine proposal.metadata key = some (.str s) →
      (requiredMetadata engine proposal.metadata key = .ok t ↔ s = t ∧ t ≠ "") := by
    intro key s t hget
    rw [requiredMetadata_eq_ok, hget, Option.some_inj, Json.str.injEq]
  simp only [openX402OfferFromProposal, bind_eq_ok, throwIf_eq_ok, exists_const,
    hread hmetadata.version, hread hmetadata.provider, hread hmetadata.resourceId,
    hread hmetadata.resourceDigest, hread hmetadata.quotedAmountBaseUnits, hread hmetadata.network,
    hread hmetadata.asset, hread hmetadata.payTo, hread hmetadata.estimatedResponseSeconds,
    hread hmetadata.validUntil, digestOf_metadata hmetadata hfilled.metadataDigest, hterms]
  constructor
  · rintro ⟨_, ⟨rfl, -⟩, -, _, ⟨rfl, hseconds⟩, _, ⟨rfl, huntil⟩, hcount, hcount', _, ⟨rfl, -⟩,
      _, ⟨rfl, -⟩, _, ⟨rfl, -⟩, _, ⟨rfl, -⟩, _, ⟨rfl, -⟩, _, ⟨rfl, -⟩, _, ⟨rfl, -⟩, hoffer⟩
    exact ⟨hseconds, huntil, not_not.mp hcount, not_not.mp hcount', (Except.ok.inj hoffer).symm⟩
  · rintro ⟨hseconds, huntil, hcount, hcount', rfl⟩
    exact ⟨_, ⟨rfl, by decide⟩, not_not.mpr rfl, _, ⟨rfl, hseconds⟩, _, ⟨rfl, huntil⟩,
      not_not.mpr hcount, not_not.mpr hcount', _, ⟨rfl, hfilled.provider⟩,
      _, ⟨rfl, hfilled.resourceId⟩, _, ⟨rfl, hfilled.resourceDigest⟩,
      _, ⟨rfl, hfilled.quotedAmountBaseUnits⟩, _, ⟨rfl, hfilled.network⟩, _, ⟨rfl, hfilled.asset⟩,
      _, ⟨rfl, hfilled.payTo⟩, rfl⟩

/-- A count is read back from its text. -/
theorem count_reads (hengine : WritesIntegers engine) {x : Option Number}
    (h : isPositiveCount x = true) :
    Number.text engine x ≠ "" ∧ engine.stringToNumber (Number.text engine x) = x := by
  obtain ⟨n, rfl, hn⟩ := Number.isSafe_iff.mp (Bool.and_eq_true_iff.mp h).1
  obtain ⟨hform, hvalue⟩ := hengine n hn
  refine ⟨fun hempty => ?_, hvalue⟩
  have htext : engine.numberToString (.finite n) = "" := hempty
  rw [htext] at hform
  cases hform

/-- The offer itself is read just when its time of expiry passes as a count. -/
theorem offer_read_iff (hengine : WritesIntegers engine) {proposal : SealedProposal}
    (hmetadata : ReadsAs engine proposal.metadata offer) (hterms : proposal.approach = offer.terms)
    (hfilled : offer.Filled) (hseconds : isPositiveCount offer.estimatedResponseSeconds = true) :
    openX402OfferFromProposal engine proposal offer.bidder = .ok offer ↔
      isPositiveCount offer.validUntil = true := by
  rw [offerFromProposal_eq_ok hmetadata hterms hfilled]
  constructor
  · rintro ⟨-, -, -, hcount, hoffer⟩
    rw [congrArg OpenX402Offer.validUntil hoffer]
    exact hcount
  · intro hcount
    obtain ⟨hsecondsText, hsecondsRead⟩ := count_reads hengine hseconds
    obtain ⟨huntilText, huntilRead⟩ := count_reads hengine hcount
    rw [hsecondsRead, huntilRead]
    exact ⟨hsecondsText, huntilText, hseconds, hcount, rfl⟩

/-! ## Through the envelope -/

theorem proposal_encoded (hterms : isBlank offer.terms = false) :
    ∃ payload, encodeSealedProposal engine timesTenMillion isValidEd25519PublicKey
      (openX402OfferToProposal engine offer) = .ok payload := by
  have hdays : isDayCount (openX402OfferToProposal engine offer).timelineDays = true := by
    show isDayCount 1 = true
    decide
  exact ⟨_, encodeSealedProposal_eq_ok.mpr ⟨⟨hdays, hterms, nofun, rfl,
    hasOtherValue_metadata engine offer, nofun, nofun⟩, rfl⟩⟩

theorem proposal_decoded (hengine : WritesIntegers engine) {payload : Bytes}
    (h : encodeSealedProposal engine timesTenMillion isValidEd25519PublicKey
      (openX402OfferToProposal engine offer) = .ok payload) :
    ∃ proposal, decodeSealedProposal engine timesTenMillion isValidEd25519PublicKey payload =
        .ok proposal ∧ proposal.approach = offer.terms ∧
      ReadsAs engine proposal.metadata offer := by
  have hone : engine.Prints 1 := by
    have hprints := hengine 1 (by decide)
    rwa [Int.cast_one] at hprints
  have hproper : (openX402OfferToProposal engine offer).Proper :=
    ⟨.inr ⟨_, rfl, metadata_nodup engine offer⟩, nofun⟩
  obtain ⟨hok, rfl⟩ := encodeSealedProposal_eq_ok.mp h
  have hform := congrArg SealedProposal.milestones (normalized_proposal hproper)
  exact ⟨_, decode_json (hok.normalized hproper) hproper.normalized.metadata hform
    (parse_written hproper hok ⟨hone, hone, nofun, nofun⟩), rfl,
    readsAs_metadata (canonicalMetadata_same hproper.metadata)⟩

/-- The envelope of an offer is read as its proposal and its amount are. -/
theorem decodeOffer_eq_ok {timesTenMillion : Number → Number} {bytes : Bytes}
    {envelope : PayloadEnvelope} {proposal : SealedProposal} {read : OpenX402Offer}
    (henvelope : decodePayloadEnvelope bytes = .ok envelope)
    (hproposal : decodeSealedProposal engine timesTenMillion isValidEd25519PublicKey
      envelope.payload = .ok proposal) :
    decodeOpenX402OfferEnvelope engine timesTenMillion isValidEd25519PublicKey bytes bidder =
        .ok read ↔
      openX402OfferFromProposal engine proposal bidder = .ok read ∧
        envelope.amount.map toString = some read.quotedAmountBaseUnits := by
  rw [decodeOpenX402OfferEnvelope, henvelope, bind_ok, hproposal, bind_ok]
  simp only [bind_eq_ok, throwIf_eq_ok, exists_const, not_not]
  constructor
  · rintro ⟨offer, hread, hamount, hoffer⟩
    obtain rfl := Except.ok.inj hoffer
    exact ⟨hread, hamount⟩
  · rintro ⟨hread, hamount⟩
    exact ⟨read, hread, hamount, rfl⟩

theorem quoted_text {quoted value : String} {decimals : Nat} {amount : Int}
    (h : amountToBaseUnits value decimals = .ok quoted)
    (hamount : bigIntText? quoted = some amount) :
    quoted = toString amount ∧ 0 < amount := by
  obtain ⟨w, f, -, -, hpos, rfl⟩ := amountToBaseUnits_eq_ok.mp h
  have htext : (toString (unitsOf w f decimals)).toList = Nat.toDigits 10 (unitsOf w f decimals) :=
    Nat.toList_repr
  rw [bigIntText_digits (by rw [htext]; exact digits_toDigits _), htext, digitsValue_toDigits,
    Option.some_inj] at hamount
  subst hamount
  exact ⟨rfl, by omega⟩

/-- A sealed offer is read from its envelope just when its time of expiry passes as a count. -/
theorem sealed_offer_read (hengine : WritesIntegers engine) (hfilled : offer.Filled)
    (hseconds : isPositiveCount offer.estimatedResponseSeconds = true) {amount : Int}
    (hquoted : offer.quotedAmountBaseUnits = toString amount) (hpos : 0 < amount)
    (hbound : amount < 2 ^ 127) {payload : Bytes}
    (hencode : encodeSealedProposal engine timesTenMillion isValidEd25519PublicKey
      (openX402OfferToProposal engine offer) = .ok payload)
    (hfits : payload.length ≤ maxApplicationPayloadBytes) (nonce : BytesN 32) :
    ∃ bytes, encodePayloadEnvelope ⟨some amount, payload, nonce.val⟩ = .ok bytes ∧
      (decodeOpenX402OfferEnvelope engine timesTenMillion isValidEd25519PublicKey bytes
          offer.bidder = .ok offer ↔ isPositiveCount offer.validUntil = true) := by
  obtain ⟨proposal, hdecode, happroach, hreads⟩ := proposal_decoded hengine hencode
  obtain ⟨bytes, hbytes, henvelope⟩ := decode_encode_envelope
    (x := ⟨some amount, payload, nonce.val⟩) ⟨nonce.property, hfits, by
      rintro a ⟨⟩
      omega⟩
  refine ⟨bytes, hbytes, ?_⟩
  rw [decodeOffer_eq_ok henvelope hdecode,
    offer_read_iff hengine hreads happroach hfilled hseconds, hquoted]
  exact ⟨And.left, fun h => ⟨h, rfl⟩⟩

/-- An offer that was mapped from a draft survives sealing just when it expires at a positive
safe second. -/
theorem offer_survives_iff (engine : Engine) (timesTenMillion : Number → Number)
    (isValidEd25519PublicKey : String → Bool) (draft : OpenX402OfferDraft)
    (resource : OpenX402Resource) (bidder : String) (decimals : Nat) (now : Option Number)
    (offer : OpenX402Offer) (amount : Int) (nonce : BytesN 32)
    (hengine : WritesIntegers engine) (hresource : resource.Filled)
    (hmap : mapOpenX402Offer engine draft resource bidder decimals now = .ok offer)
    (hamount : bigIntText? offer.quotedAmountBaseUnits = some amount) (hbound : amount < 2 ^ 127) :
    ∃ payload, encodeSealedProposal engine timesTenMillion isValidEd25519PublicKey
        (openX402OfferToProposal engine offer) = .ok payload ∧
      (payload.length ≤ maxApplicationPayloadBytes →
        ∃ bytes, encodePayloadEnvelope ⟨some amount, payload, nonce.val⟩ = .ok bytes ∧
          (decodeOpenX402OfferEnvelope engine timesTenMillion isValidEd25519PublicKey bytes bidder =
              .ok offer ↔ isPositiveCount (expiry engine draft now) = true)) := by
  obtain ⟨hseconds, -, hterms, quoted, hquoted, hoffer⟩ := mapOpenX402Offer_eq_ok.mp hmap
  have hquotedOffer : offer.quotedAmountBaseUnits = quoted := by rw [hoffer, offerOf]
  rw [hquotedOffer] at hamount
  obtain ⟨hquotedText, hpos⟩ := quoted_text hquoted hamount
  have hquotedFilled : quoted ≠ "" := by
    rintro rfl
    obtain rfl : 0 = amount := Option.some_inj.mp hamount
    exact absurd hpos (lt_irrefl 0)
  have hfilled : offer.Filled := by
    rw [hoffer]
    exact ⟨hresource.provider, hresource.id, hresource.resourceDigest, hquotedFilled,
      hresource.network, hresource.asset, hresource.payTo,
      fun h => hresource.metadataDigest (Option.some_inj.mp h)⟩
  obtain ⟨payload, hencode⟩ : ∃ payload, encodeSealedProposal engine timesTenMillion
      isValidEd25519PublicKey (openX402OfferToProposal engine offer) = .ok payload :=
    proposal_encoded (by rw [hoffer, offerOf, isBlank_trimText]; exact hterms)
  have hcount : isPositiveCount offer.estimatedResponseSeconds = true := by
    rw [hoffer, offerOf]
    exact hseconds
  have hread : payload.length ≤ maxApplicationPayloadBytes → _ := fun hfits =>
    sealed_offer_read hengine hfilled hcount (hquotedOffer.trans hquotedText) hpos hbound hencode
      hfits nonce
  have hbidder : offer.bidder = bidder := by rw [hoffer, offerOf]
  have huntil : offer.validUntil = expiry engine draft now := by rw [hoffer, offerOf]
  rw [hbidder, huntil] at hread
  exact ⟨payload, hencode, hread⟩

end

/-! ## A sample draft -/

namespace SampleOffer

abbrev engine : Engine := integerEngine

theorem writesIntegers : WritesIntegers engine := fun n _ => integerEngine_prints n

def resource : OpenX402Resource where
  id := "summary"
  provider := "acme"
  network := "stellar-testnet"
  asset := "USDC"
  payTo := "GPAYEE"
  metadataDigest := "m1"
  resourceDigest := "r1"

def draft (validityMinutes : String) : OpenX402OfferDraft where
  quotedAmount := "2.5"
  estimatedResponseSeconds := "30"
  terms := " one summary "
  validityMinutes

/-- The offer of the draft at a second of 2023. -/
def offer (validityMinutes : String) : OpenX402Offer :=
  offerOf engine (draft validityMinutes) resource "GBIDDER" "25000000" (some 1700000000)

theorem mapped {validityMinutes : String}
    (h : isPositiveCount (engine.stringToNumber validityMinutes) = true) :
    mapOpenX402Offer engine (draft validityMinutes) resource "GBIDDER" 7 (some 1700000000) =
      .ok (offer validityMinutes) := by
  have hquoted : amountToBaseUnits "2.5" 7 = .ok "25000000" := by decide +kernel
  have hseconds : isPositiveCount (engine.stringToNumber "30") = true := by decide +kernel
  have hterms : isBlank " one summary " = false := by decide +kernel
  exact mapOpenX402Offer_eq_ok.mpr ⟨hseconds, h, hterms, _, hquoted, rfl⟩

def nonce : BytesN 32 := ⟨List.replicate 32 7, rfl⟩

end SampleOffer

open SampleOffer in
theorem offer_survives_iff_sample :
    ∃ payload, encodeSealedProposal engine id (fun _ => true)
        (openX402OfferToProposal engine (offer "60")) = .ok payload ∧
      (payload.length ≤ maxApplicationPayloadBytes →
        ∃ bytes, encodePayloadEnvelope ⟨some 25000000, payload, nonce.val⟩ = .ok bytes ∧
          (decodeOpenX402OfferEnvelope engine id (fun _ => true) bytes "GBIDDER" =
              .ok (offer "60") ↔
            isPositiveCount (expiry engine (draft "60") (some 1700000000)) = true)) :=
  offer_survives_iff engine id (fun _ => true) (draft "60") resource "GBIDDER" 7 (some 1700000000)
    (offer "60") 25000000 nonce writesIntegers
    ⟨by decide, by decide, by decide, by decide, by decide, by decide, by decide⟩
    (mapped (by decide +kernel)) (by decide +kernel) (by decide)

namespace SampleOffer

/-- An offer of more minutes than the seconds of which are safe. -/
def late : OpenX402Offer := offer "9007199254740991"

def texts : List (String × String) :=
  [("openX402OfferVersion", "1"), ("provider", "acme"), ("resourceId", "summary"),
    ("resourceDigest", "r1"), ("quotedAmountBaseUnits", "25000000"),
    ("network", "stellar-testnet"), ("asset", "USDC"), ("payTo", "GPAYEE"),
    ("estimatedResponseSeconds", "30"), ("validUntil", "540431956984459456"),
    ("metadataDigest", "m1")]

def sortedTexts : List (String × String) :=
  [("asset", "USDC"), ("estimatedResponseSeconds", "30"), ("metadataDigest", "m1"),
    ("network", "stellar-testnet"), ("openX402OfferVersion", "1"), ("payTo", "GPAYEE"),
    ("provider", "acme"), ("quotedAmountBaseUnits", "25000000"), ("resourceDigest", "r1"),
    ("resourceId", "summary"), ("validUntil", "540431956984459456")]

def field (p : String × String) : String × Json := (p.1, .str p.2)

theorem late_metadata : sortEntries (late.metadata engine) = sortedTexts.map field := by
  have huntil : Number.text engine late.validUntil = "540431956984459456" := by decide +kernel
  have hseconds : Number.text engine late.estimatedResponseSeconds = "30" := by decide +kernel
  have hfields : late.metadata engine = texts.map field := by
    rw [OpenX402Offer.metadata, huntil, hseconds]
    rfl
  have hperm : texts.Perm sortedTexts := by decide +kernel
  rw [sortEntries_congr (metadata_nodup engine late) (hfields ▸ hperm.map field)]
  exact List.mergeSort_of_pairwise (by decide +kernel)

theorem late_fits : (textEncode (jsonStringify engine
    (openX402OfferToProposal engine late).normalized.json)).length ≤
      maxApplicationPayloadBytes := by
  have hnormal : (openX402OfferToProposal engine late).normalized =
      ⟨1, "one summary", none, none, none, none,
        some (.obj (fromEntries (sortedTexts.map field)))⟩ := by
    rw [← late_metadata]
    rfl
  rw [hnormal, textEncode, jsonStringify, String.toList_ofList]
  decide +kernel

end SampleOffer

open SampleOffer in
theorem offer_survives_fails :
    ¬ ∀ (engine : Engine) (timesTenMillion : Number → Number)
      (isValidEd25519PublicKey : String → Bool) (draft : OpenX402OfferDraft)
      (resource : OpenX402Resource) (bidder : String) (decimals : Nat) (now : Option Number)
      (offer : OpenX402Offer) (amount : Int) (nonce : BytesN 32) (payload bytes : Bytes),
      WritesIntegers engine → resource.Filled →
      mapOpenX402Offer engine draft resource bidder decimals now = .ok offer →
      bigIntText? offer.quotedAmountBaseUnits = some amount → amount < 2 ^ 127 →
      encodeSealedProposal engine timesTenMillion isValidEd25519PublicKey
        (openX402OfferToProposal engine offer) = .ok payload →
      payload.length ≤ maxApplicationPayloadBytes →
      encodePayloadEnvelope ⟨some amount, payload, nonce.val⟩ = .ok bytes →
      decodeOpenX402OfferEnvelope engine timesTenMillion isValidEd25519PublicKey bytes bidder =
        .ok offer := by
  intro hclaim
  have hresource : resource.Filled :=
    ⟨by decide, by decide, by decide, by decide, by decide, by decide, by decide⟩
  obtain ⟨payload, hencode⟩ : ∃ payload, encodeSealedProposal engine id (fun _ => true)
      (openX402OfferToProposal engine late) = .ok payload := proposal_encoded (by decide +kernel)
  have hfits : payload.length ≤ maxApplicationPayloadBytes := by
    rw [(encodeSealedProposal_eq_ok.mp hencode).2]
    exact late_fits
  have hfilled : late.Filled :=
    ⟨by decide, by decide, by decide, by decide, by decide, by decide, by decide, by decide⟩
  have hquoted : late.quotedAmountBaseUnits = toString (25000000 : Int) := by decide +kernel
  obtain ⟨bytes, hbytes, hread⟩ := sealed_offer_read writesIntegers hfilled (by decide +kernel)
    hquoted (by decide) (by decide) hencode hfits nonce
  have hdecoded := hclaim engine id (fun _ => true) (draft "9007199254740991") resource "GBIDDER" 7
    (some 1700000000) late 25000000 nonce payload bytes writesIntegers hresource
    (mapped (by decide +kernel)) (by decide +kernel) (by decide) hencode hfits hbytes
  have hcount := hread.mp hdecoded
  revert hcount
  decide +kernel

end SubRosa.OpenX402
