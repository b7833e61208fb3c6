import SubRosa.Sdk.Preflight

/-!
# Preflights and their methods

A preflight builds the call of its method, except that a commit is preflighted
without a look at its blobs.
-/

namespace SubRosa.Sdk

open JavaScript MachineInt

theorem toOption_bind {ε α β : Type} (x : Except ε α) (f : α → Except ε β) :
    (x >>= f).toOption = x.toOption.bind fun a => (f a).toOption := by
  cases x <;> rfl

/-- A call of a method that has a preflight. -/
inductive Lifecycle
  | createRound (params : Mutable CreateRoundParams)
  | createRoundV2 (params : Mutable CreateRoundV2Params)
  | createPartnerRoundV2 (params : Mutable CreatePartnerRoundV2Params)
  | createRoundV3 (params : Mutable CreateRoundV3Params)
  | commit (params : Mutable CommitParams)
  | commitV2 (params : Mutable CommitV2Params)
  | openReveal (roundId : Numeric) (drandSignature : Bytes)
  | openRevealV2 (roundId : Numeric) (drandSignature : Bytes)
  | reveal (params : RevealParams)
  | revealV2 (params : RevealV2Params)
  | clear (roundId : Numeric)
  | clearV2 (roundId : Numeric)
  | settle (roundId : Numeric)
  | settleV2 (roundId : Numeric)
  | void (roundId : Numeric)
  | voidV2 (roundId : Numeric)

namespace Lifecycle

/-- The submitting method. -/
def submit (client : SubRosaClient) : Lifecycle → Method Value
  | createRound params => client.createRound params
  | createRoundV2 params => client.createRoundV2 params
  | createPartnerRoundV2 params => client.createPartnerRoundV2 params
  | createRoundV3 params => client.createRoundV3 params
  | commit params => client.commit params
  | commitV2 params => client.commitV2 params
  | openReveal roundId drandSignature => client.openReveal roundId drandSignature
  | openRevealV2 roundId drandSignature => client.openRevealV2 roundId drandSignature
  | reveal params => client.reveal params
  | revealV2 params => client.revealV2 params
  | clear roundId => client.clear roundId
  | clearV2 roundId => client.clearV2 roundId
  | settle roundId => client.settle roundId
  | settleV2 roundId => client.settleV2 roundId
  | void roundId => client.void roundId
  | voidV2 roundId => client.voidV2 roundId

/-- Its preflight. -/
def preflight (client : SubRosaClient) : Lifecycle → Simulation PreflightResult
  | createRound params => client.preflightCreateRound params
  | createRoundV2 params => client.preflightCreateRoundV2 params
  | createPartnerRoundV2 params => client.preflightCreatePartnerRoundV2 params
  | createRoundV3 params => client.preflightCreateRoundV3 params
  | commit params => client.preflightCommit params
  | commitV2 params => client.preflightCommitV2 params
  | openReveal roundId drandSignature => client.preflightOpenReveal roundId drandSignature
  | openRevealV2 roundId drandSignature => client.preflightOpenRevealV2 roundId drandSignature
  | reveal params => client.preflightReveal params
  | revealV2 params => client.preflightRevealV2 params
  | clear roundId => client.preflightClear roundId
  | clearV2 roundId => client.preflightClearV2 roundId
  | settle roundId => client.preflightSettle roundId
  | settleV2 roundId => client.preflightSettleV2 roundId
  | void roundId => client.preflightVoid roundId
  | voidV2 roundId => client.preflightVoidV2 roundId

end Lifecycle

/-! ## What is rejected -/

/-- An integer that encodes as the id of a round. -/
def Numeric.Encodes (encoder : Encoder) : Numeric → Prop
  | .bigint n => (encoder.u64 n).isSome
  | .number n => n.isInteger = true ∧ (encoder.u64 n.toInt).isSome

/-- The rest of a commit encodes: the bidder at the call, the other arguments when they are
built. -/
structure CommitEncodes (client : SubRosaClient) (bidder : Option Address) (roundId : Numeric)
    (commitment : Bytes) (escrow : Int) : Prop where
  bidder : bidder ≠ none ∨ client.source ≠ none
  roundId : roundId.Encodes client.encoder
  commitment : (client.encoder.bytesN 32 commitment).isSome
  escrow : (client.encoder.i128 escrow).isSome

/-- Neither blob is empty or too large. -/
def SealedBid.BlobsFit (sealedBid : SealedBid) : Prop :=
  (0 < sealedBid.ciphertext.length ∧ sealedBid.ciphertext.length ≤ 4096) ∧
    0 < sealedBid.auditorBlob.length ∧ sealedBid.auditorBlob.length ≤ 1024

/-- If all else encodes, the blobs of a commit fit. -/
def Lifecycle.BlobsDecideNothing (client : SubRosaClient) : Lifecycle → Prop
  | .commit params =>
    CommitEncodes client params.atCall.bidder params.atBuild.roundId
        params.atBuild.sealedBid.commitment params.atBuild.escrow →
      params.atCall.sealedBid.BlobsFit
  | .commitV2 params => params.atCall.sealedPayload.version = 1 →
    CommitEncodes client params.atCall.bidder params.atBuild.roundId
        params.atBuild.sealedPayload.commitment params.atBuild.escrow →
      params.atCall.sealedPayload.BlobsFit
  | _ => True

section

variable {client : SubRosaClient}

/-- Both generations read the same round. -/
theorem roundBigInt_toOption (id : Numeric) :
    (client.roundBigInt id).toOption = (client.roundId id).toOption := by
  unfold SubRosaClient.roundBigInt SubRosaClient.roundId toBigInt normalizeRoundId
  cases id with
  | bigint n => rfl
  | number n =>
    dsimp only
    split <;> rfl

theorem roundId_isSome {id : Numeric} :
    (client.roundId id).toOption.isSome ↔ id.Encodes client.encoder := by
  unfold SubRosaClient.roundId normalizeRoundId Numeric.Encodes
  cases id with
  | bigint n =>
    show (encoded (client.encoder.u64 n)).toOption.isSome ↔ _
    rw [encoded_toOption]
  | number n =>
    dsimp only
    split
    · next h =>
      show (encoded (client.encoder.u64 n.toInt)).toOption.isSome ↔ _
      rw [encoded_toOption, h, and_iff_right rfl]
    · next h => simp [h, Except.toOption, bind, Except.bind]

theorem addressOr_isSome {address : Option Address} {role : String} :
    (client.addressOr address role).toOption.isSome ↔ address ≠ none ∨ client.source ≠ none := by
  unfold SubRosaClient.addressOr SubRosaClient.requireSource
  cases address <;> cases client.source <;> simp [Except.toOption]

theorem requireValidBlob_ok {blob : Bytes} {contentType : BlobContentType} :
    requireValidBlob blob contentType = .ok () ↔
      0 < blob.length ∧ blob.length ≤ contentType.maxBytes := by
  unfold requireValidBlob validateEncryptedBlob
  by_cases hempty : blob.length = 0
  · simp [hempty]
  · by_cases hlarge : contentType.maxBytes < blob.length
    · simp [hempty, hlarge]
    · simp [hempty, hlarge, Nat.pos_of_ne_zero hempty, not_lt.mp hlarge]

theorem requireValidBlobs_ok {sealedBid : SealedBid} :
    SubRosaClient.requireValidBlobs sealedBid = .ok () ↔ sealedBid.BlobsFit := by
  constructor
  · intro h
    obtain ⟨_, hciphertext, hauditor⟩ := bind_eq_ok.mp h
    exact ⟨requireValidBlob_ok.mp hciphertext, requireValidBlob_ok.mp hauditor⟩
  · rintro ⟨hciphertext, hauditor⟩
    exact bind_eq_ok.mpr ⟨(), requireValidBlob_ok.mpr hciphertext, requireValidBlob_ok.mpr hauditor⟩

/-! ## Agreement -/

/-- A simulated build and a submitted one. -/
theorem simulated_eq_submitted {operation : PreflightOperation}
    {build build' : Except ClientError Call}
    {s : ClientState} (h : build.toOption = build'.toOption) :
    simulatedCall (preflight operation (simulateCall operation build)) s =
      builtCall (sendUnwrap build') s := by
  rw [simulatedCall_preflight, simulatedCall_simulateCall, builtCall_sendUnwrap, h]

/-- The same after one local computation. -/
theorem simulated_eq_submitted_after {α : Type} {operation : PreflightOperation}
    {x : Except ClientError α} {build build' : α → Except ClientError Call} {s : ClientState}
    (h : ∀ a, (build a).toOption = (build' a).toOption) :
    simulatedCall (preflight operation (local? x >>= fun a => simulateCall operation (build a))) s =
      builtCall (Coroutine.done x >>= fun a => sendUnwrap (build' a)) s := by
  rw [simulatedCall_preflight, simulatedCall_local_bind, builtCall_done_bind]
  refine congrArg _ (funext fun a => ?_)
  rw [simulatedCall_simulateCall, builtCall_sendUnwrap, h]

/-- A check before a method leaves its call alone when it passes or the method builds none. -/
theorem eq_checked_iff {c : Option Call} {check : Except ClientError Unit} :
    (c = check.toOption.bind fun _ => c) ↔ (c.isSome → check = .ok ()) := by
  cases c <;> cases check <;> simp [Except.toOption]

/-- When a commit is built. -/
theorem commit_isSome {roundId : Numeric} {bidder : Option Address} {commitment : Bytes}
    {escrow : Int} {call : UInt64 → Address → BytesN 32 → I128 → Call} :
    ((client.addressOr bidder "bidder").toOption.bind fun bidder =>
      (client.roundId roundId >>= fun id =>
        encoded (client.encoder.bytesN 32 commitment) >>= fun commitment =>
        encoded (client.encoder.i128 escrow) >>= fun escrow =>
        pure (call id bidder commitment escrow)).toOption).isSome ↔
      CommitEncodes client bidder roundId commitment escrow := by
  have hencodes : CommitEncodes client bidder roundId commitment escrow ↔
      (bidder ≠ none ∨ client.source ≠ none) ∧ roundId.Encodes client.encoder ∧
        (client.encoder.bytesN 32 commitment).isSome ∧ (client.encoder.i128 escrow).isSome :=
    ⟨fun h => ⟨h.bidder, h.roundId, h.commitment, h.escrow⟩,
      fun h => ⟨h.1, h.2.1, h.2.2.1, h.2.2.2⟩⟩
  rw [hencodes, ← @addressOr_isSome client _ "bidder", ← @roundId_isSome client]
  simp only [toOption_bind, encoded_toOption]
  cases (client.addressOr bidder "bidder").toOption <;>
    cases (client.roundId roundId).toOption <;> cases client.encoder.bytesN 32 commitment <;>
    cases client.encoder.i128 escrow <;> simp [Except.toOption, pure, Except.pure]

end

/-- **Preflights agree with their methods** exactly when no commit is rejected for its blobs
alone. -/
theorem preflight_agrees_iff (client : SubRosaClient) (op : Lifecycle) (s : ClientState) :
    simulatedCall (op.preflight client) s = builtCall (op.submit client) s ↔
      op.BlobsDecideNothing client := by
  have hround : ∀ (operation : PreflightOperation) (call : UInt64 → Call) (roundId : Numeric),
      simulatedCall (client.preflightRound operation call roundId) s =
        builtCall (client.onRound call roundId) s := fun operation call roundId =>
    simulated_eq_submitted (by rw [toOption_bind, toOption_bind, roundBigInt_toOption])
  have hroundV2 : ∀ (operation : PreflightOperation) (call : UInt64 → Call) (roundId : Numeric),
      simulatedCall (client.preflightRoundV2 operation call roundId) s =
        builtCall (client.onRound call roundId) s := fun operation call roundId =>
    simulated_eq_submitted rfl
  cases op with
  | createRound params => exact iff_of_true (simulated_eq_submitted_after fun _ => rfl) trivial
  | createRoundV2 params => exact iff_of_true (simulated_eq_submitted_after fun _ => rfl) trivial
  | createPartnerRoundV2 params =>
    exact iff_of_true (simulated_eq_submitted_after fun _ => rfl) trivial
  | createRoundV3 params => exact iff_of_true (simulated_eq_submitted_after fun _ => rfl) trivial
  | commit params =>
    have hcall : simulatedCall (client.preflightCommit params) s =
        (client.addressOr params.atCall.bidder "bidder").toOption.bind fun bidder =>
          (client.roundId params.atBuild.roundId >>= fun id =>
            encoded (client.encoder.bytesN 32 params.atBuild.sealedBid.commitment) >>=
              fun commitment => encoded (client.encoder.i128 params.atBuild.escrow) >>=
              fun escrow => pure (Call.commit id bidder commitment
                params.atBuild.sealedBid.ciphertext escrow
                params.atBuild.sealedBid.auditorBlob)).toOption := by
      rw [SubRosaClient.preflightCommit, simulatedCall_preflight, simulatedCall_local_bind]
      refine congrArg _ (funext fun bidder => ?_)
      rw [simulatedCall_simulateCall, toOption_bind, toOption_bind, roundBigInt_toOption]
    have hsubmitted : builtCall (client.commit params) s =
        (SubRosaClient.requireValidBlobs params.atCall.sealedBid).toOption.bind fun _ =>
          simulatedCall (client.preflightCommit params) s := by
      rw [hcall, SubRosaClient.commit, builtCall_done_bind]
      refine congrArg _ (funext fun _ => ?_)
      rw [builtCall_done_bind]
      exact congrArg _ (funext fun bidder => builtCall_sendUnwrap _ s)
    show simulatedCall (client.preflightCommit params) s = builtCall (client.commit params) s ↔ _
    rw [hsubmitted, eq_checked_iff, hcall, commit_isSome, requireValidBlobs_ok]
    rfl
  | commitV2 params =>
    have hcall : simulatedCall (client.preflightCommitV2 params) s =
        (configErrorIf (params.atCall.sealedPayload.version ≠ 1)
          s!"unsupported sealed payload version {client.engine.numberToString
            params.atCall.sealedPayload.version}").toOption.bind
        fun _ => (client.addressOr params.atCall.bidder "bidder").toOption.bind fun bidder =>
          (client.roundId params.atBuild.roundId >>= fun id =>
            encoded (client.encoder.bytesN 32 params.atBuild.sealedPayload.commitment) >>=
              fun commitment => encoded (client.encoder.i128 params.atBuild.escrow) >>=
              fun escrow => pure (Call.commitV2 id bidder commitment
                params.atBuild.sealedPayload.ciphertext escrow
                params.atBuild.sealedPayload.auditorBlob)).toOption := by
      rw [SubRosaClient.preflightCommitV2, simulatedCall_preflight, simulatedCall_local_bind]
      refine congrArg _ (funext fun _ => ?_)
      rw [simulatedCall_local_bind]
      exact congrArg _ (funext fun bidder => simulatedCall_simulateCall _ _ s)
    have hsubmitted : builtCall (client.commitV2 params) s =
        (SubRosaClient.requireValidBlobs
          params.atCall.sealedPayload.toSealedBid).toOption.bind fun _ =>
          simulatedCall (client.preflightCommitV2 params) s := by
      rw [hcall, SubRosaClient.commitV2, builtCall_done_bind, Option.bind_comm]
      refine congrArg _ (funext fun _ => ?_)
      rw [builtCall_done_bind]
      refine congrArg _ (funext fun _ => ?_)
      rw [builtCall_done_bind]
      exact congrArg _ (funext fun bidder => builtCall_sendUnwrap _ s)
    show simulatedCall (client.preflightCommitV2 params) s =
      builtCall (client.commitV2 params) s ↔ _
    rw [hsubmitted, eq_checked_iff, requireValidBlobs_ok, hcall]
    by_cases hversion : params.atCall.sealedPayload.version = 1
    · rw [configErrorIf, if_neg (not_not.mpr hversion)]
      refine (imp_congr commit_isSome Iff.rfl).trans ?_
      exact ⟨fun h _ => h, fun h => h hversion⟩
    · rw [configErrorIf, if_pos hversion]
      exact iff_of_true (by simp [Except.toOption]) fun h => (hversion h).elim
  | openReveal roundId drandSignature =>
    exact iff_of_true (simulated_eq_submitted (by
      rw [toOption_bind, toOption_bind, roundBigInt_toOption])) trivial
  | openRevealV2 roundId drandSignature => exact iff_of_true (simulated_eq_submitted rfl) trivial
  | reveal params =>
    exact iff_of_true (simulated_eq_submitted (by
      rw [toOption_bind, toOption_bind, roundBigInt_toOption])) trivial
  | revealV2 params => exact iff_of_true (simulated_eq_submitted rfl) trivial
  | clear roundId => exact iff_of_true (hround .clear .clear roundId) trivial
  | clearV2 roundId => exact iff_of_true (hroundV2 .clear_v2 .clearV2 roundId) trivial
  | settle roundId => exact iff_of_true (hround .settle .settle roundId) trivial
  | settleV2 roundId => exact iff_of_true (hroundV2 .settle_v2 .settleV2 roundId) trivial
  | void roundId => exact iff_of_true (hround .void .void roundId) trivial
  | voidV2 roundId => exact iff_of_true (hroundV2 .void_v2 .voidV2 roundId) trivial

/-- A seal without an auditor blob passes its preflight and is refused when it is committed. -/
theorem commit_preflight_differs :
    let client : SubRosaClient := ⟨silentEngine, .strict, none⟩
    let params : Mutable CommitParams :=
      .fixed ⟨.bigint 1, ⟨List.replicate 32 0, [1], []⟩, 5, some (.account 1)⟩
    simulatedCall (client.preflightCommit params) ⟨false⟩ =
        some (.commit 1 (.account 1) ⟨List.replicate 32 0, rfl⟩ [1] ⟨5, by decide, by decide⟩ []) ∧
      builtCall (client.commit params) ⟨false⟩ = none := by
  exact ⟨by rfl, by rfl⟩

end SubRosa.Sdk
