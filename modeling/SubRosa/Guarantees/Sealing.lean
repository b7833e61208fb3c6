import SubRosa.Guarantees.Mandates
import SubRosa.Guarantees.Preflights
import SubRosa.Sdk.Seal

/-!
# What is sealed and where it goes

The agent seals with the parameters of its configuration: the bid is sealed to
the round it bids in when these are the parameters of that round. A seal can be
committed when an identity is sealed with it.
-/

namespace SubRosa.Agent

open JavaScript Sdk Coroutine

section

variable {Demand Payment : Type} {platform : Platform Demand Payment} {config : BidderAgentConfig}
  {t : List (Σ q : Request Demand Payment, Except Thrown q.Answer)}

/-- An exchange that reads no round but that of the mandate and seals with the configuration. -/
structure Configured (config : BidderAgentConfig)
    (e : Σ q : Request Demand Payment, Except Thrown q.Answer) : Prop where
  read : ∀ roundId, e.1 = .getRound roundId → bigIntOfText config.mandate.roundId = .ok roundId
  sealed_with : ∀ sealing, e.1 = .sealBid sealing →
    sealing.round = config.revealRound ∧ sealing.auditorPublicKey = config.auditorPubkey

theorem configured_ask {q : Request Demand Payment} (hread : ∀ roundId, q ≠ .getRound roundId)
    (hseal : ∀ sealing, q ≠ .sealBid sealing) : Makes (Configured config) (Agent.ask q) :=
  makes_request fun _ => ⟨fun _ h => (hread _ h).elim, fun _ h => (hseal _ h).elim⟩

theorem configured_paidFetch (body : Json) :
    Makes (Configured config) (paidFetch platform body) := by
  have hfetch : ∀ payment, Makes (Configured config)
      (Agent.ask (.fetch body payment : Request Demand Payment)) :=
    fun payment => configured_ask (by simp) (by simp)
  refine makes_bind (hfetch none) fun first => ?_
  split
  · exact makes_bind (makes_done _) fun body => makes_done _
  · refine makes_bind (makes_done _) fun paymentRequired =>
      makes_bind (configured_ask (by rintro _ ⟨⟩) (by rintro _ ⟨⟩)) fun payload =>
      makes_bind (hfetch (some payload)) fun paid => makes_bind (makes_done _) fun body => ?_
    split
    · exact makes_done _
    · exact makes_bind (makes_done _) fun settlement => makes_done _

theorem configured_placeBid (roundId : Int) (publicKey : String) (paid : PaidResult) :
    Makes (Configured config) (placeBid platform config roundId publicKey paid) := by
  refine makes_bind (makes_done _) fun bid =>
    makes_bind (configured_ask (by rintro _ ⟨⟩) (by rintro _ ⟨⟩)) fun nonce =>
    makes_bind (makes_request fun _ => ⟨by rintro _ ⟨⟩, ?_⟩) fun sealedBid =>
    makes_bind (configured_ask (by rintro _ ⟨⟩) (by rintro _ ⟨⟩)) fun _ =>
    makes_bind (makes_done _) fun inputsHash => makes_done _
  rintro sealing ⟨⟩
  exact ⟨rfl, rfl⟩

/-- The round of a session is that of the mandate. -/
theorem checkSession_round {now roundId : Int} {publicKey : String}
    (h : checkSession platform config now = .ok (roundId, publicKey)) :
    bigIntOfText config.mandate.roundId = .ok roundId := by
  obtain ⟨id, hid, h⟩ := bind_eq_ok.mp h
  obtain ⟨key, -, h⟩ := bind_eq_ok.mp h
  obtain ⟨-, h⟩ := throwIf_bind_eq_ok.mp h
  obtain ⟨_, -, h⟩ := bind_eq_ok.mp h
  obtain rfl : id = roundId := (Prod.mk.inj (Except.ok.inj h)).1
  exact hid

/-- Every exchange of a run keeps to the configuration. -/
theorem run_configured {r : Except Thrown BidderAgentResult}
    (h : Ends Recorded (runBidderAgent platform config) ((), []) r ((), t)) :
    ∀ e ∈ t, Configured config e := by
  have hmakes : Adds (Configured config) [] t := by
    rcases ends_bind.mp h with ⟨now, ⟨⟨⟩, t₁⟩, hnow, h⟩ | ⟨e, -, hnow⟩
    · refine (configured_ask (by rintro _ ⟨⟩) (by rintro _ ⟨⟩) _ _ _ _ _ hnow).trans ?_
      rcases ends_done_bind.mp h with ⟨⟨roundId, publicKey⟩, hsession, h⟩ | ⟨e, -, -, hend⟩
      · have hround := checkSession_round hsession
        refine makes_bind (makes_request fun _ => ⟨?_, by rintro _ ⟨⟩⟩) (fun round =>
          makes_bind (makes_done _) fun _ => makes_bind (configured_paidFetch _) fun paid =>
          configured_placeBid _ _ _) _ _ _ _ _ h
        rintro id ⟨⟩
        exact hround
      · obtain rfl : t = t₁ := congrArg Prod.snd hend
        exact Adds.refl
    · exact configured_ask (by rintro _ ⟨⟩) (by rintro _ ⟨⟩) _ _ _ _ _ hnow
  intro e he
  exact (hmakes.mem he).resolve_left (by simp)

end

/-- The committed seal is timelocked to the reveal round of `round` and its blob is for the auditor
of `round`. -/
structure SealedTo {Demand Payment : Type}
    (t : List (Σ q : Request Demand Payment, Except Thrown q.Answer)) (params : CommitParams)
    (round : Round) : Prop where
  made : ∃ sealing, ⟨.sealBid sealing, .ok params.sealedBid⟩ ∈ t
  fits : ∀ sealing, ⟨.sealBid sealing, .ok params.sealedBid⟩ ∈ t →
    sealing.round = .finite round.revealRound.toNat ∧
    sealing.auditorPublicKey = round.auditorPubkey

/-- **The agent seals to the round it bids in** exactly when its configuration is that of the
round. -/
theorem agent_seals_iff {Demand Payment : Type} {platform : Platform Demand Payment}
    {config : BidderAgentConfig}
    {t : List (Σ q : Request Demand Payment, Except Thrown q.Answer)}
    {r : Except Thrown BidderAgentResult} {params : CommitParams} {a : Except Thrown Unit}
    {roundId : Int} {round : Round}
    (hrun : Ends Recorded (runBidderAgent platform config) ((), []) r ((), t))
    (hmade : ⟨.commit params, a⟩ ∈ t) (hread : ⟨.getRound roundId, .ok round⟩ ∈ t) :
    params.roundId = .bigint roundId ∧
    (SealedTo t params round ↔ config.revealRound = .finite round.revealRound.toNat ∧
      config.auditorPubkey = round.auditorPubkey) := by
  have hconfigured := run_configured hrun
  obtain ⟨id, _, sealing, hplaced⟩ := run_places hrun hmade
  obtain ⟨now, publicKey, hsession⟩ := hplaced.session
  have hid : id = roundId := Except.ok.inj
    ((checkSession_round hsession).symm.trans ((hconfigured _ hread).read roundId rfl))
  refine ⟨hid ▸ hplaced.round, fun h => ?_, fun ⟨hround, hkey⟩ => ⟨⟨sealing, hplaced.made⟩, ?_⟩⟩
  · obtain ⟨hround, hkey⟩ := h.fits sealing hplaced.made
    exact ⟨hplaced.timelocked ▸ hround, hplaced.audited ▸ hkey⟩
  · intro other hother
    obtain ⟨hround', hkey'⟩ := (hconfigured _ hother).sealed_with other rfl
    exact ⟨hround'.trans hround, hkey'.trans hkey⟩

/-- The parameters that the client gets with a request for a seal. -/
def SealBidParams.sdk (sealing : SealBidParams) : Sdk.SealBidParams where
  value := sealing.value
  nonce := sealing.nonce
  round := sealing.round
  identity := some sealing.identity
  auditorPublicKey := some sealing.auditorPublicKey

/-- The client answers the requests for seals. -/
def SealsWithSdk {Demand Payment : Type} (primitives : Primitives)
    (t : List (Σ q : Request Demand Payment, Except Thrown q.Answer)) : Prop :=
  ∀ sealing sealedBid, ⟨.sealBid sealing, .ok sealedBid⟩ ∈ t →
    ∃ draws, Sdk.sealBid primitives draws sealing.sdk = .ok sealedBid

/-- What is committed then: the preimage of the bid under the timelock of the round, and the blob
for the auditor of the round. -/
theorem SealedTo.committed {Demand Payment : Type} {primitives : Primitives}
    {t : List (Σ q : Request Demand Payment, Except Thrown q.Answer)} {params : CommitParams}
    {round : Round} (h : SealedTo t params round) (hsdk : SealsWithSdk primitives t) :
    ∃ (sealing : SealBidParams) (draws : Draws) (preimage : Bytes) (armored : String),
      encodeBidPreimage sealing.value sealing.nonce = .ok preimage ∧
      primitives.timelockEncrypt (.finite round.revealRound.toNat) preimage = .ok armored ∧
      params.sealedBid.ciphertext = textEncode armored ∧
      sealIdentity primitives draws sealing.identity round.auditorPubkey =
        .ok params.sealedBid.auditorBlob := by
  obtain ⟨sealing, hmade⟩ := h.made
  obtain ⟨hround, hkey⟩ := h.fits sealing hmade
  obtain ⟨draws, hseal⟩ := hsdk sealing _ hmade
  obtain ⟨preimage, hpreimage, hseal⟩ := bind_eq_ok.mp hseal
  obtain ⟨hash, -, hseal⟩ := bind_eq_ok.mp hseal
  obtain ⟨armored, harmored, hseal⟩ := bind_eq_ok.mp hseal
  obtain ⟨blob, hblob, hseal⟩ := bind_eq_ok.mp hseal
  have hsealed : ⟨hash, textEncode armored, blob⟩ = params.sealedBid := Except.ok.inj hseal
  rw [← hsealed, ← hround, ← hkey]
  exact ⟨sealing, draws, preimage, armored, hpreimage, harmored, rfl, hblob⟩

namespace SampleMandate

theorem round_mem (revealRound : UInt64) :
    ⟨.getRound 1, .ok (round revealRound)⟩ ∈ transcript revealRound :=
  List.mem_cons_of_mem _ List.mem_cons_self

end SampleMandate

open SampleMandate in
theorem agent_seals_iff_sample :
    SealedTo (transcript 3) ⟨.bigint 1, sealedBid, 9, none⟩ (round 3) :=
  (agent_seals_iff (transcript_ends 3) (commit_mem 3) (round_mem 3)).2.mpr ⟨rfl, rfl⟩

open SampleMandate in
/-- The agent timelocks its bid to round 3 of drand and commits it to a round that opens with
round 4. -/
theorem agent_seals_elsewhere : ∃ t r,
    Ends Recorded (runBidderAgent platform config) ((), []) (.ok r) ((), t) ∧
    ⟨.commit ⟨.bigint 1, sealedBid, 9, none⟩, .ok ()⟩ ∈ t ∧
    ⟨.getRound 1, .ok (round 4)⟩ ∈ t ∧
    ¬ SealedTo t ⟨.bigint 1, sealedBid, 9, none⟩ (round 4) := by
  refine ⟨transcript 4, _, transcript_ends 4, commit_mem 4, round_mem 4, fun h => ?_⟩
  have hmade : ⟨.sealBid sealing, .ok sealedBid⟩ ∈ transcript 4 :=
    List.mem_append_right [_, _, _, _] List.mem_cons_self
  exact absurd (h.fits sealing hmade).1 (by decide +kernel)

end SubRosa.Agent

namespace SubRosa.Sdk

open JavaScript MachineInt

/-- The contract takes blobs of this size. -/
structure SealedBid.WithinContract (sealedBid : SealedBid) : Prop where
  ciphertext : sealedBid.ciphertext.length ≤ maxCiphertext
  auditorBlob : sealedBid.auditorBlob.length ≤ maxAuditorBlob

/-- The commit of a seal, of either generation. -/
def Carries (sealedBid : SealedBid) : Call → Prop
  | .commit _ _ commitment ciphertext _ auditorBlob
  | .commitV2 _ _ commitment ciphertext _ auditorBlob =>
    commitment.val = sealedBid.commitment ∧ ciphertext = sealedBid.ciphertext ∧
      auditorBlob = sealedBid.auditorBlob
  | _ => False

/-- An identity is given, and its blob has at most 1024 bytes. -/
def IdentityFits (identity : Option Bytes) : Prop := ∃ i, identity = some i ∧ i.length ≤ 952

/-- The payloads that are sealed with an identity or without. -/
inductive SealsPayload (primitives : Primitives) (draws : Draws) :
    Option Bytes → SealedPayload → Prop
  | payload {params : SealPayloadParams} {sealedPayload : SealedPayload} :
    sealPayload primitives draws params = .ok sealedPayload →
      SealsPayload primitives draws params.identity sealedPayload
  | assetBid {params : SealAssetBidParams} {sealedPayload : SealedPayload} :
    sealAssetBid primitives draws params = .ok sealedPayload →
      SealsPayload primitives draws params.identity sealedPayload
  | proposal {engine : Engine} {timesTenMillion : Number → Number}
    {isValidEd25519PublicKey : String → Bool} {params : SealProposalParams}
    {sealedPayload : SealedPayload} :
    sealProposal primitives draws engine timesTenMillion isValidEd25519PublicKey params =
      .ok sealedPayload → SealsPayload primitives draws params.identity sealedPayload

section

variable {primitives : Primitives} {draws : Draws}

/-- Every payload is sealed by `sealPayload`. -/
theorem SealsPayload.exists_params {identity : Option Bytes} {sealedPayload : SealedPayload}
    (h : SealsPayload primitives draws identity sealedPayload) :
    ∃ params : SealPayloadParams, params.identity = identity ∧
      sealPayload primitives draws params = .ok sealedPayload := by
  cases h with
  | payload h => exact ⟨_, rfl, h⟩
  | assetBid h => exact ⟨_, rfl, h⟩
  | proposal h =>
    obtain ⟨payload, -, h⟩ := bind_eq_ok.mp h
    exact ⟨_, rfl, h⟩

/-- The client accepts a bid that was sealed with an identity that fits. -/
theorem sealBid_fits (hsized : primitives.Sized) {params : SealBidParams} {sealedBid : SealedBid}
    (h : sealBid primitives draws params = .ok sealedBid) (hwithin : sealedBid.WithinContract) :
    sealedBid.commitment.length = 32 ∧ (sealedBid.BlobsFit ↔ IdentityFits params.identity) := by
  obtain ⟨preimage, hpreimage, h⟩ := bind_eq_ok.mp h
  obtain ⟨hash, hhash, h⟩ := bind_eq_ok.mp h
  obtain ⟨armored, harmored, h⟩ := bind_eq_ok.mp h
  obtain ⟨blob, hblob, h⟩ := bind_eq_ok.mp h
  obtain rfl : SealedBid.mk hash (textEncode armored) blob = sealedBid := Except.ok.inj h
  constructor
  · obtain ⟨bytes, -, hbytes⟩ := bind_eq_ok.mp hhash
    obtain rfl : (primitives.sha256 bytes).val = hash := Except.ok.inj hbytes
    exact (primitives.sha256 bytes).property
  · have hciphertext := And.intro (ciphertext_pos hsized harmored) hwithin.ciphertext
    exact (and_iff_right hciphertext).trans (auditorBlobOf_fits hsized hblob)

theorem sealPayload_fits (hsized : primitives.Sized) {params : SealPayloadParams}
    {sealedPayload : SealedPayload} (h : sealPayload primitives draws params = .ok sealedPayload)
    (hwithin : sealedPayload.WithinContract) :
    sealedPayload.version = 1 ∧ sealedPayload.commitment.length = 32 ∧
      (sealedPayload.BlobsFit ↔ IdentityFits params.identity) := by
  obtain ⟨encoded, -, h⟩ := bind_eq_ok.mp h
  obtain ⟨armored, harmored, h⟩ := bind_eq_ok.mp h
  obtain ⟨blob, hblob, h⟩ := bind_eq_ok.mp h
  obtain rfl : SealedPayload.mk ⟨(primitives.sha256 encoded).val, textEncode armored, blob⟩ 1 =
    sealedPayload := Except.ok.inj h
  refine ⟨rfl, (primitives.sha256 encoded).property, ?_⟩
  have hciphertext := And.intro (ciphertext_pos hsized harmored) hwithin.ciphertext
  exact (and_iff_right hciphertext).trans (auditorBlobOf_fits hsized hblob)

end

section

variable {client : SubRosaClient}

/-- An integer in the range of `u64`. -/
def Numeric.IsU64 : Numeric → Prop
  | .bigint n => 0 ≤ n ∧ n < 2 ^ 64
  | .number n => n.isInteger = true ∧ 0 ≤ n.toInt ∧ n.toInt < 2 ^ 64

theorem Numeric.IsU64.encodes {id : Numeric} (h : id.IsU64) (encoder : Encoder) :
    id.Encodes encoder := by
  cases id with
  | bigint n => exact encoder.u64_isSome h
  | number n => exact ⟨h.1, encoder.u64_isSome h.2⟩

/-- The rest of a commit fits the types of its entry point. -/
structure CommitFits (client : SubRosaClient) (roundId : Numeric) (bidder : Option Address)
    (commitment : Bytes) (escrow : Int) : Prop where
  bidder : bidder ≠ none ∨ client.source ≠ none
  roundId : roundId.IsU64
  commitment : commitment.length = 32
  escrow : -2 ^ 127 ≤ escrow ∧ escrow < 2 ^ 127

/-- What a commit builds once its blobs have been checked. -/
theorem commit_builds {roundId : Numeric} {bidder : Option Address} {commitment : Bytes}
    {escrow : Int} (hfits : CommitFits client roundId bidder commitment escrow)
    (call : UInt64 → Address → BytesN 32 → I128 → Call) :
    ∃ id address amount, ((client.addressOr bidder "bidder").toOption.bind fun bidder =>
      (client.roundId roundId >>= fun id =>
        encoded (client.encoder.bytesN 32 commitment) >>= fun commitment =>
        encoded (client.encoder.i128 escrow) >>= fun escrow =>
        pure (call id bidder commitment escrow)).toOption) =
      some (call id address ⟨commitment, hfits.commitment⟩ amount) := by
  obtain ⟨address, haddress⟩ : ∃ address,
      (client.addressOr bidder "bidder").toOption = some address :=
    Option.isSome_iff_exists.mp (addressOr_isSome.mpr hfits.bidder)
  obtain ⟨id, hid⟩ : ∃ id, (client.roundId roundId).toOption = some id :=
    Option.isSome_iff_exists.mp (roundId_isSome.mpr (hfits.roundId.encodes client.encoder))
  obtain ⟨amount, hamount⟩ : ∃ amount, client.encoder.i128 escrow = some amount :=
    Option.isSome_iff_exists.mp (client.encoder.i128_isSome hfits.escrow)
  refine ⟨id, address, amount, ?_⟩
  simp only [toOption_bind, encoded_toOption, haddress, hid, hamount,
    client.encoder.bytesN_of_length hfits.commitment, Option.bind_some]
  rfl

/-- A checked seal is carried exactly when it passes the check. -/
theorem carried_iff {sealedBid : SealedBid} {built : Option Call}
    (h : ∃ call, built = some call ∧ Carries sealedBid call) :
    (∃ call, ((SubRosaClient.requireValidBlobs sealedBid).toOption.bind fun _ => built) =
        some call ∧
      Carries sealedBid call) ↔ sealedBid.BlobsFit := by
  obtain ⟨call, rfl, hcarries⟩ := h
  rw [← requireValidBlobs_ok]
  cases hcheck : SubRosaClient.requireValidBlobs sealedBid with
  | ok _ => exact iff_of_true ⟨call, rfl, hcarries⟩ rfl
  | error e => exact iff_of_false (fun ⟨_, hnone, _⟩ => nomatch hnone) nofun

theorem commit_carries_iff {params : CommitParams} {s : ClientState}
    (hfits : CommitFits client params.roundId params.bidder params.sealedBid.commitment
      params.escrow) :
    (∃ call, builtCall (client.commit (.fixed params)) s = some call ∧
        Carries params.sealedBid call) ↔
      params.sealedBid.BlobsFit := by
  obtain ⟨id, address, amount, hbuilds⟩ := commit_builds hfits fun id bidder commitment escrow =>
    .commit id bidder commitment params.sealedBid.ciphertext escrow params.sealedBid.auditorBlob
  have hcall : builtCall (client.commit (.fixed params)) s =
      (SubRosaClient.requireValidBlobs params.sealedBid).toOption.bind fun _ =>
        some (.commit id address ⟨params.sealedBid.commitment, hfits.commitment⟩
          params.sealedBid.ciphertext amount params.sealedBid.auditorBlob) := by
    rw [SubRosaClient.commit, builtCall_done_bind]
    refine congrArg _ (funext fun _ => ?_)
    rw [builtCall_done_bind, ← hbuilds]
    exact congrArg _ (funext fun bidder => builtCall_sendUnwrap _ s)
  rw [hcall]
  exact carried_iff ⟨_, rfl, rfl, rfl, rfl⟩

theorem commitV2_carries_iff {params : CommitV2Params} {s : ClientState}
    (hversion : params.sealedPayload.version = 1)
    (hfits : CommitFits client params.roundId params.bidder params.sealedPayload.commitment
      params.escrow) :
    (∃ call, builtCall (client.commitV2 (.fixed params)) s = some call ∧
      Carries params.sealedPayload.toSealedBid call) ↔ params.sealedPayload.BlobsFit := by
  obtain ⟨id, address, amount, hbuilds⟩ := commit_builds hfits fun id bidder commitment escrow =>
    .commitV2 id bidder commitment params.sealedPayload.ciphertext escrow
      params.sealedPayload.auditorBlob
  have hcall : builtCall (client.commitV2 (.fixed params)) s =
      (SubRosaClient.requireValidBlobs params.sealedPayload.toSealedBid).toOption.bind fun _ =>
        some (.commitV2 id address ⟨params.sealedPayload.commitment, hfits.commitment⟩
          params.sealedPayload.ciphertext amount params.sealedPayload.auditorBlob) := by
    have hversion : (Mutable.fixed params).atCall.sealedPayload.version = 1 := hversion
    rw [SubRosaClient.commitV2, builtCall_done_bind, configErrorIf, if_neg (not_not.mpr hversion)]
    refine (builtCall_done_bind _ _ s).trans (congrArg _ (funext fun _ => ?_))
    rw [builtCall_done_bind, ← hbuilds]
    exact congrArg _ (funext fun bidder => builtCall_sendUnwrap _ s)
  rw [hcall]
  exact carried_iff ⟨_, rfl, rfl, rfl, rfl⟩

end

/-- **What is sealed can be committed**, within the limits of the contract, exactly when an identity
of at most 952 bytes is sealed with it. -/
theorem sealed_commits_iff {primitives : Primitives} (hsized : primitives.Sized) (draws : Draws)
    (client : SubRosaClient) (s : ClientState) (roundId : Numeric) (bidder : Option Address)
    (escrow : Int) (hbidder : bidder ≠ none ∨ client.source ≠ none) (hround : roundId.IsU64)
    (hescrow : -2 ^ 127 ≤ escrow ∧ escrow < 2 ^ 127) :
    (∀ params sealedBid, sealBid primitives draws params = .ok sealedBid →
      sealedBid.WithinContract →
      ((∃ call, builtCall (client.commit (.fixed ⟨roundId, sealedBid, escrow, bidder⟩)) s =
      some call ∧
        Carries sealedBid call) ↔ IdentityFits params.identity)) ∧
    (∀ identity sealedPayload, SealsPayload primitives draws identity sealedPayload →
      sealedPayload.WithinContract →
      ((∃ call, builtCall (client.commitV2 (.fixed ⟨roundId, sealedPayload, escrow, bidder⟩)) s =
      some call ∧
        Carries sealedPayload.toSealedBid call) ↔ IdentityFits identity) ∧
      client.submitV2 (.fixed ⟨roundId, sealedPayload, escrow, bidder⟩) =
        client.commitV2 (.fixed ⟨roundId, sealedPayload, escrow, bidder⟩)) := by
  constructor
  · intro params sealedBid hseal hwithin
    obtain ⟨hcommitment, hblobs⟩ := sealBid_fits hsized hseal hwithin
    exact (commit_carries_iff ⟨hbidder, hround, hcommitment, hescrow⟩).trans hblobs
  · intro identity sealedPayload hsealed hwithin
    obtain ⟨params, rfl, hseal⟩ := hsealed.exists_params
    obtain ⟨hversion, hcommitment, hblobs⟩ := sealPayload_fits hsized hseal hwithin
    exact ⟨(commitV2_carries_iff hversion ⟨hbidder, hround, hcommitment, hescrow⟩).trans
      hblobs, rfl⟩

namespace SampleSeal

def primitives : Primitives where
  sha256 _ := BytesN.fill 32 7
  timelockEncrypt _ _ := .ok "-----BEGIN AGE ENCRYPTED FILE-----"
  getPublicKey _ := BytesN.fill 32 9
  getSharedSecret _ _ := .ok (List.replicate 32 5)
  hkdf _ _ _ length := List.replicate length 3
  encrypt _ _ plaintext := plaintext ++ List.replicate 16 1

theorem sized : primitives.Sized where
  armored := by
    intro round plaintext h
    have htext : "-----BEGIN AGE ENCRYPTED FILE-----" = "" := Except.ok.inj h
    exact absurd htext (by decide)
  tagged := by
    intro key nonce plaintext
    exact List.length_append

def draws : Draws := ⟨List.replicate 32 0, BytesN.fill 24 0, BytesN.fill 32 0⟩

def client : SubRosaClient := ⟨silentEngine, .strict, none⟩

def blob : Bytes := List.replicate 32 9 ++ List.replicate 24 0 ++ ([65] ++ List.replicate 16 1)

def armored : Bytes := textEncode "-----BEGIN AGE ENCRYPTED FILE-----"

/-- A bid of 5, with an identity and without. -/
def bidParams (identity auditorPublicKey : Option Bytes) : SealBidParams :=
  ⟨5, List.replicate 32 2, .finite 1000, identity, auditorPublicKey⟩

end SampleSeal

open SampleSeal in
theorem sealed_commits_iff_sample :
    ∃ call, builtCall (client.commit
      (.fixed ⟨.bigint 1, ⟨List.replicate 32 7, armored, blob⟩, 5, some (.account 1)⟩)) ⟨false⟩ =
      some call ∧
      Carries ⟨List.replicate 32 7, armored, blob⟩ call :=
  ((sealed_commits_iff sized draws client ⟨false⟩ (.bigint 1) (some (.account 1)) 5
    (.inl (by decide)) ⟨by decide, by decide⟩ ⟨by decide, by decide⟩).1
    (bidParams (some [65]) (some (List.replicate 32 8))) ⟨List.replicate 32 7, armored, blob⟩
    (by rfl)
    ⟨by decide +kernel, by decide +kernel⟩).mpr ⟨[65], rfl, by decide⟩

open SampleSeal in
/-- A bid and a payload without an identity are sealed and cannot be committed. -/
theorem sealed_commits_fails :
    primitives.Sized ∧
    (∃ sealedBid, sealBid primitives draws (bidParams none none) = .ok sealedBid ∧
      sealedBid.WithinContract ∧ builtCall (client.commit
        (.fixed ⟨.bigint 1, sealedBid, 5, some (.account 1)⟩)) ⟨false⟩ = none) ∧
    ∃ sealedPayload, sealAssetBid primitives draws
        { round := .finite 1000, nonce := none, identity := none, auditorPublicKey := none,
          amount := 700, payload := none } = .ok sealedPayload ∧
      sealedPayload.WithinContract ∧ builtCall (client.submitV2
        (.fixed ⟨.bigint 1, sealedPayload, 1000, some (.account 1)⟩)) ⟨false⟩ = none := by
  have hwithin : (SealedBid.mk (List.replicate 32 7) armored []).WithinContract :=
    ⟨by decide +kernel, by decide +kernel⟩
  exact ⟨sized, ⟨⟨List.replicate 32 7, armored, []⟩, by rfl, hwithin, by rfl⟩,
    ⟨⟨⟨List.replicate 32 7, armored, []⟩, 1⟩, by rfl, hwithin, by rfl⟩⟩

end SubRosa.Sdk
