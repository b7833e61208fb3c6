import SubRosa.Sdk.Client
import SubRosa.Sdk.Templates

/-!
# Sealing

`seal.ts`, `auditor.ts`, `payload.ts` and the sealing helpers of `templates.ts`.
A preimage is timelocked to a round of drand and the identity of its bidder is
encrypted to the auditor. Keys, ciphers and the timelock are packages; what a
seal draws at random is given to it.
-/

namespace SubRosa.Sdk

open JavaScript MachineInt

structure Primitives where
  sha256 : Bytes → BytesN 32
  /-- `timelockEncrypt` of a round and a plaintext, with the client for drand. -/
  timelockEncrypt : Number → Bytes → Except Thrown String
  /-- X25519. -/
  getPublicKey : Bytes → BytesN 32
  getSharedSecret : Bytes → Bytes → Except Thrown Bytes
  hkdf : Bytes → Bytes → Bytes → Nat → Bytes
  /-- XChaCha20-Poly1305 under a key and a nonce. -/
  encrypt : Bytes → Bytes → Bytes → Bytes

/-- The random bytes of one seal. -/
structure Draws where
  ephSecret : Bytes
  blobNonce : BytesN 24
  generatedNonce : BytesN 32

def ephPubBytes : Nat := 32
def blobNonceBytes : Nat := 24
def hkdfInfo : Bytes := textEncode "sub-rosa/auditor-blob/v1"

structure SealBidParams where
  value : Int
  nonce : Bytes
  round : Number
  identity : Option Bytes
  auditorPublicKey : Option Bytes

structure SealPayloadParams extends PayloadEnvelope where
  round : Number
  identity : Option Bytes
  auditorPublicKey : Option Bytes

structure SharedSealParams where
  round : Number
  nonce : Option Bytes
  identity : Option Bytes
  auditorPublicKey : Option Bytes

structure SealAssetBidParams extends SharedSealParams where
  amount : Int
  /-- Metadata of the partner, committed with the amount. -/
  payload : Option Bytes

structure SealProposalParams extends SharedSealParams where
  proposal : SealedProposal
  price : Option Int

section

variable (primitives : Primitives) (draws : Draws)

def deriveKey (shared ephPub auditorPub : Bytes) : Bytes :=
  let salt := setBytes (setBytes (zeros (ephPubBytes * 2)) 0 ephPub) ephPubBytes auditorPub
  primitives.hkdf shared salt hkdfInfo 32

/-- `ephPub ‖ nonce ‖ ciphertext`. -/
def sealIdentity (identity auditorPublicKey : Bytes) : Except Thrown Bytes := do
  let ephPub := (primitives.getPublicKey draws.ephSecret).val
  let shared ← primitives.getSharedSecret draws.ephSecret auditorPublicKey
  let key := deriveKey primitives shared ephPub auditorPublicKey
  let ct := primitives.encrypt key draws.blobNonce.val identity
  let blob := zeros (ephPubBytes + blobNonceBytes + ct.length)
  let blob := setBytes blob 0 ephPub
  let blob := setBytes blob ephPubBytes draws.blobNonce.val
  return setBytes blob (ephPubBytes + blobNonceBytes) ct

/-- The blob of a seal, empty without an identity. An empty array counts as given. -/
def auditorBlobOf (identity auditorPublicKey : Option Bytes) : Except Thrown Bytes :=
  match identity, auditorPublicKey with
  | some identity, some auditorPublicKey =>
    sealIdentity primitives draws identity auditorPublicKey
  | none, none => .ok []
  | _, _ => .error (.error "identity and auditorPublicKey must be provided together")

def sealBid (params : SealBidParams) : Except Thrown SealedBid := do
  let preimage ← encodeBidPreimage params.value params.nonce
  let h ← commitment primitives.sha256 params.value params.nonce
  let armored ← primitives.timelockEncrypt params.round preimage
  let ciphertext := textEncode armored
  let auditorBlob ← auditorBlobOf primitives draws params.identity params.auditorPublicKey
  return { commitment := h, ciphertext, auditorBlob }

/-- Timelock a structured payload. -/
def sealPayload (params : SealPayloadParams) : Except Thrown SealedPayload := do
  let encoded ← encodePayloadEnvelope params.toPayloadEnvelope
  let armored ← primitives.timelockEncrypt params.round encoded
  let auditorBlob ← auditorBlobOf primitives draws params.identity params.auditorPublicKey
  return {
    version := 1
    commitment := (primitives.sha256 encoded).val
    ciphertext := textEncode armored
    auditorBlob }

def sealArgs (params : SharedSealParams) (amount : Option Int) (payload : Bytes) :
    SealPayloadParams where
  round := params.round
  nonce := params.nonce.getD draws.generatedNonce.val
  payload := payload
  amount := amount
  identity := params.identity
  auditorPublicKey := params.auditorPublicKey

def sealAssetBid (params : SealAssetBidParams) : Except Thrown SealedPayload :=
  sealPayload primitives draws
    (sealArgs draws params.toSharedSealParams (some params.amount) (params.payload.getD []))

def sealProposal (engine : Engine) (timesTenMillion : Number → Number)
    (isValidEd25519PublicKey : String → Bool) (params : SealProposalParams) :
    Except Thrown SealedPayload := do
  sealPayload primitives draws
    (sealArgs draws params.toSharedSealParams params.price
      (← encodeSealedProposal engine timesTenMillion isValidEd25519PublicKey params.proposal))

end

/-! ## The length of what is sealed -/

/-- Lengths that the packages promise: an armored text has a first line, a ciphertext a tag. -/
structure Primitives.Sized (primitives : Primitives) : Prop where
  armored : ∀ round plaintext, primitives.timelockEncrypt round plaintext ≠ .ok ""
  tagged : ∀ key nonce plaintext,
    (primitives.encrypt key nonce plaintext).length = plaintext.length + 16

section

variable {primitives : Primitives} {draws : Draws}

theorem sealIdentity_layout {identity auditorPublicKey blob : Bytes}
    (h : sealIdentity primitives draws identity auditorPublicKey = .ok blob) :
    ∃ key, blob = (primitives.getPublicKey draws.ephSecret).val ++ draws.blobNonce.val ++
      primitives.encrypt key draws.blobNonce.val identity := by
  obtain ⟨shared, -, h⟩ := bind_eq_ok.mp h
  refine ⟨deriveKey primitives shared (primitives.getPublicKey draws.ephSecret).val
    auditorPublicKey, ?_⟩
  have hblob := Except.ok.inj h
  generalize deriveKey primitives shared _ auditorPublicKey = key at hblob ⊢
  generalize primitives.encrypt key draws.blobNonce.val identity = ct at hblob ⊢
  have hpub : (primitives.getPublicKey draws.ephSecret).val.length = ephPubBytes :=
    (primitives.getPublicKey draws.ephSecret).property
  have hnonce : draws.blobNonce.val.length = blobNonceBytes := draws.blobNonce.property
  generalize (primitives.getPublicKey draws.ephSecret).val = ephPub at hblob hpub ⊢
  generalize draws.blobNonce.val = nonce at hblob hnonce ⊢
  have hfirst : setBytes ([] ++ zeros (ephPubBytes + blobNonceBytes + ct.length)) 0 ephPub =
      [] ++ ephPub ++ zeros (blobNonceBytes + ct.length) := setBytes_zeros rfl (by omega)
  rw [List.nil_append, List.nil_append] at hfirst
  have hsecond : setBytes (ephPub ++ zeros (blobNonceBytes + ct.length)) ephPubBytes nonce =
      ephPub ++ nonce ++ zeros ct.length := setBytes_zeros hpub (by omega)
  have hlength : (ephPub ++ nonce).length = ephPubBytes + blobNonceBytes := by
    rw [List.length_append, hpub, hnonce]
  have hthird : setBytes (ephPub ++ nonce ++ zeros ct.length) (ephPubBytes + blobNonceBytes) ct =
      ephPub ++ nonce ++ ct ++ zeros 0 := setBytes_zeros hlength rfl
  rw [← hblob, hfirst, hsecond, hthird]
  exact List.append_nil _

/-- A blob is 72 bytes longer than its identity. -/
theorem sealIdentity_length (hsized : primitives.Sized) {identity auditorPublicKey blob : Bytes}
    (h : sealIdentity primitives draws identity auditorPublicKey = .ok blob) :
    blob.length = identity.length + 72 := by
  obtain ⟨key, rfl⟩ := sealIdentity_layout h
  have hpub : (primitives.getPublicKey draws.ephSecret).val.length = 32 :=
    (primitives.getPublicKey draws.ephSecret).property
  have hnonce : draws.blobNonce.val.length = 24 := draws.blobNonce.property
  rw [List.length_append, List.length_append, hsized.tagged, hpub, hnonce]
  omega

/-- The blob of a seal has the size that the client accepts when an identity of at most 952 bytes
is given. -/
theorem auditorBlobOf_fits (hsized : primitives.Sized) {identity auditorPublicKey : Option Bytes}
    {blob : Bytes} (h : auditorBlobOf primitives draws identity auditorPublicKey = .ok blob) :
    (0 < blob.length ∧ blob.length ≤ 1024) ↔ ∃ i, identity = some i ∧ i.length ≤ 952 := by
  unfold auditorBlobOf at h
  split at h
  · next i key =>
    have hlength := sealIdentity_length hsized h
    simp only [Option.some.injEq, exists_eq_left']
    omega
  · obtain rfl : [] = blob := Except.ok.inj h
    simp
  · cases h

/-- A timelocked text is not empty. -/
theorem ciphertext_pos (hsized : primitives.Sized) {round : Number} {plaintext : Bytes}
    {armored : String} (h : primitives.timelockEncrypt round plaintext = .ok armored) :
    0 < (textEncode armored).length := by
  have hne : armored ≠ "" := fun hempty => hsized.armored round plaintext (hempty ▸ h)
  rw [List.length_pos_iff, ne_eq, textEncode_eq_nil]
  exact hne

end

end SubRosa.Sdk
