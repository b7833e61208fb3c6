import SubRosa.Contract.Envelope
import SubRosa.Sdk.Commitment

/-!
# The payload envelope in the SDK

`payload.ts`: the encoder and the strict decoder. The decoder is taken apart on
the header fields of a string, where its checks are those of the contract.
-/

namespace SubRosa.Sdk

open BigEndian MachineInt JavaScript

structure PayloadEnvelope where
  amount : Option Int
  payload : Bytes
  nonce : Bytes
  deriving DecidableEq

/-- `throw new Error(message)` when `c` holds. -/
def throwIf (c : Prop) [Decidable c] (message : String) : Except Thrown Unit :=
  if c then .error (.error message) else .ok ()

/-- `new Uint8Array(n)`. -/
def zeros (n : Nat) : Bytes := List.replicate n 0

/-- `out.set(bytes, offset)`. -/
def setBytes (out : Bytes) (offset : Nat) (bytes : Bytes) : Bytes :=
  out.take offset ++ bytes ++ out.drop (offset + bytes.length)

def assertEnvelopeInput (envelope : PayloadEnvelope) : Except Thrown Unit := do
  throwIf (envelope.nonce.length ≠ nonceBytes)
    s!"nonce must be {nonceBytes} bytes, got {envelope.nonce.length}"
  throwIf (maxApplicationPayloadBytes < envelope.payload.length)
    s!"payload must be at most {maxApplicationPayloadBytes} bytes, got {envelope.payload.length}"
  match envelope.amount with
  | some amount => discard (i128ToBeBytes amount)
  | none => pure ()

def setAmount (out : Bytes) : Option Int → Except Thrown Bytes
  | some amount => do return setBytes out amountOffset (← i128ToBeBytes amount)
  | none => .ok out

/-- Write the fields into a zeroed array. -/
def encodePayloadEnvelope (envelope : PayloadEnvelope) : Except Thrown Bytes := do
  assertEnvelopeInput envelope
  let out := zeros (payloadHeaderBytes + envelope.payload.length)
  let out := setBytes out 0 payloadMagic
  let out := setBytes out versionOffset [payloadEnvelopeVersion]
  let out := setBytes out flagsOffset [if envelope.amount = none then 0 else flagAmount]
  let out ← setAmount out envelope.amount
  let out := setBytes out nonceOffset envelope.nonce
  let out := setBytes out lengthOffset (encode 4 envelope.payload.length)
  return setBytes out payloadHeaderBytes envelope.payload

/-- `bytes[i]` as a number; what is out of bounds counts as zero in a bit operation. -/
def numberAt (bytes : Bytes) (i : Nat) : Nat := (bytes[i]?.map UInt8.toNat).getD 0

/-- `view.getUint32(offset, false)`. -/
def getUint32 (bytes : Bytes) (offset : Nat) : Except Thrown Nat :=
  let field := (bytes.drop offset).take 4
  if field.length = 4 then .ok (decode field) else .error (.native .rangeError)

def readAmount (hasAmount : Prop) [Decidable hasAmount] (amountBytes : Bytes) :
    Except Thrown (Option Int) :=
  if hasAmount then some <$> beBytesToI128 amountBytes else .ok none

/-- Strictly validate an envelope. -/
def decodePayloadEnvelope (bytes : Bytes) : Except Thrown PayloadEnvelope := do
  throwIf (bytes.length < payloadHeaderBytes)
    s!"payload envelope must be at least {payloadHeaderBytes} bytes, got {bytes.length}"
  throwIf (¬ payloadMagic.zipIdx.all fun p => bytes[p.2]? = some p.1)
    "invalid payload envelope magic"
  throwIf (bytes[versionOffset]? ≠ some payloadEnvelopeVersion)
    s!"unsupported payload envelope version {numberAt bytes versionOffset}"
  let flags := bytes[flagsOffset]?.getD 0
  let shown := String.ofList (Nat.toDigits 16 flags.toNat)
  throwIf (flags &&& ~~~supportedFlags ≠ 0) s!"unsupported payload envelope flags 0x{shown}"
  throwIf (bytes[reservedOffset]? ≠ some 0 ∨ bytes[reservedOffset + 1]? ≠ some 0)
    "payload envelope reserved bytes must be zero"
  let payloadLength ← getUint32 bytes lengthOffset
  throwIf (maxApplicationPayloadBytes < payloadLength)
    s!"payload must be at most {maxApplicationPayloadBytes} bytes, got {payloadLength}"
  let rest := bytes.length - payloadHeaderBytes
  throwIf (bytes.length ≠ payloadHeaderBytes + payloadLength)
    s!"payload envelope length mismatch: header declares {payloadLength}, got {rest}"
  let amountBytes := (bytes.drop amountOffset).take valueBytes
  let hasAmount := flags &&& flagAmount ≠ 0
  throwIf (¬ hasAmount ∧ amountBytes.any (· ≠ 0))
    "payload envelope without amount must use a zero amount field"
  let amount ← readAmount hasAmount amountBytes
  return {
    amount := amount
    nonce := (bytes.drop nonceOffset).take nonceBytes
    payload := bytes.drop payloadHeaderBytes }

/-! ## The decoder -/

theorem throwIf_bind_eq_ok {α : Type} {c : Prop} [Decidable c] {message : String}
    {k : Unit → Except Thrown α} {a : α} :
    (throwIf c message >>= k) = .ok a ↔ ¬ c ∧ k () = .ok a := by
  unfold throwIf
  split
  · next h => exact ⟨nofun, fun hk => absurd h hk.1⟩
  · next h => exact ⟨fun hk => ⟨h, hk⟩, fun hk => hk.2⟩

/-- The envelope that a header denotes. -/
def envelopeOf (p : HeaderParts) : PayloadEnvelope :=
  ⟨p.amountOf.map I128.toInt, p.payload, p.nonce.val⟩

theorem getUint32_bytes (p : HeaderParts) :
    getUint32 p.bytes lengthOffset = .ok (decode [p.l0, p.l1, p.l2, p.l3]) := by
  have hfield : (p.bytes.drop lengthOffset).take 4 = [p.l0, p.l1, p.l2, p.l3] := by
    rw [p.drop_length]
    exact List.take_left' rfl
  rw [getUint32, hfield]
  rfl

theorem magic_bytes (p : HeaderParts) :
    (payloadMagic.zipIdx.all fun x => p.bytes[x.2]? = some x.1) = true ↔
      [p.m0, p.m1, p.m2, p.m3] = payloadMagic := by
  have h0 : p.bytes[0]? = some p.m0 := p.getElem?_head (by decide)
  have h1 : p.bytes[1]? = some p.m1 := p.getElem?_head (by decide)
  have h2 : p.bytes[2]? = some p.m2 := p.getElem?_head (by decide)
  have h3 : p.bytes[3]? = some p.m3 := p.getElem?_head (by decide)
  simp [payloadMagic, List.zipIdx, h0, h1, h2, h3]

/-- Reading the amount of a header. -/
theorem readAmount_bytes (p : HeaderParts) :
    readAmount (p.flags &&& flagAmount ≠ 0) p.amount.val = .ok (p.amountOf.map I128.toInt) := by
  unfold readAmount
  by_cases hflag : p.flags &&& flagAmount ≠ 0
  · rw [if_pos hflag, beBytesToI128_ok _ p.amount.property, HeaderParts.amountOf, if_pos hflag]
    rfl
  · rw [if_neg hflag, HeaderParts.amountOf, if_neg hflag]
    rfl

theorem bind_ok {α β : Type} (x : α) (k : α → Except Thrown β) : (Except.ok x >>= k) = k x := by
  simp only [bind, Except.bind]

theorem decodePayloadEnvelope_bytes (p : HeaderParts) {x : PayloadEnvelope} :
    decodePayloadEnvelope p.bytes = .ok x ↔ p.Valid ∧ x = envelopeOf p := by
  have hversion : p.bytes[versionOffset]? = some p.version := p.getElem?_head (by decide)
  have hflags : p.bytes[flagsOffset]? = some p.flags := p.getElem?_head (by decide)
  have hr0 : p.bytes[reservedOffset]? = some p.r0 := p.getElem?_head (by decide)
  have hr1 : p.bytes[reservedOffset + 1]? = some p.r1 := p.getElem?_head (by decide)
  have hamount : (p.bytes.drop amountOffset).take valueBytes = p.amount.val := p.take_amount
  have hnonce : (p.bytes.drop nonceOffset).take nonceBytes = p.nonce.val := p.take_nonce
  have hlength := p.length_bytes
  simp only [decodePayloadEnvelope, throwIf_bind_eq_ok, magic_bytes, hversion, hflags, hr0, hr1,
    getUint32_bytes, hamount, hnonce, p.drop_payload, bind_ok, not_not, not_or, not_lt,
    Option.some_inj, Option.getD_some]
  constructor
  · rintro ⟨-, hmagic, hversion, hflags, hreserved, hsize, hlen, hzero, hx⟩
    refine ⟨⟨hmagic, hversion, hflags, hreserved, by omega, by omega, fun h => ?_⟩, ?_⟩
    · simpa [h] using hzero
    · rw [readAmount_bytes] at hx
      exact (Except.ok.inj hx).symm
  · rintro ⟨hvalid, rfl⟩
    have hsize := hvalid.size
    have hlen := hvalid.length
    refine ⟨by omega, hvalid.magic, hvalid.version, hvalid.flags, hvalid.reserved, by omega,
      by omega, ?_, ?_⟩
    · rintro ⟨hno, hany⟩
      rw [hvalid.zero hno] at hany
      cases hany
    · rw [readAmount_bytes]
      rfl

/-- The decoder accepts the envelopes, and returns their parts. -/
theorem decodePayloadEnvelope_eq_ok {b : Bytes} {x : PayloadEnvelope} :
    decodePayloadEnvelope b = .ok x ↔
      ∃ amount, x.amount = amount.map I128.toInt ∧ IsEnvelope b amount x.nonce x.payload := by
  constructor
  · intro h
    have hlong : payloadHeaderBytes ≤ b.length := by
      unfold decodePayloadEnvelope at h
      rw [throwIf_bind_eq_ok, Nat.not_lt] at h
      exact h.1
    obtain ⟨p, rfl⟩ := exists_headerParts hlong
    obtain ⟨hvalid, rfl⟩ := (decodePayloadEnvelope_bytes p).mp h
    exact ⟨p.amountOf, rfl, hvalid.isEnvelope⟩
  · rintro ⟨amount, hamount, h⟩
    obtain ⟨p, hvalid, rfl, rfl, hnonce, hpayload⟩ := h.exists_parts
    refine (decodePayloadEnvelope_bytes p).mpr ⟨hvalid, ?_⟩
    obtain ⟨_, _, _⟩ := x
    rw [envelopeOf, PayloadEnvelope.mk.injEq]
    exact ⟨hamount, hpayload.symm, hnonce.symm⟩

/-! ## The encoder -/

/-- Writing behind a finished prefix extends the prefix. -/
theorem setBytes_zeros {pre bytes : Bytes} {offset n k : Nat} (hpre : pre.length = offset)
    (hn : n = bytes.length + k) :
    setBytes (pre ++ zeros n) offset bytes = pre ++ bytes ++ zeros k := by
  subst hpre hn
  have hdrop : (pre ++ zeros (bytes.length + k)).drop (pre.length + bytes.length) = zeros k := by
    rw [List.drop_length_add_append, zeros, List.drop_replicate, Nat.add_sub_cancel_left, zeros]
  rw [setBytes, List.take_left' rfl, hdrop]

theorem setAmount_zeros {pre : Bytes} {amount : Option I128} {k : Nat}
    (hpre : pre.length = amountOffset) :
    setAmount (pre ++ zeros (16 + k)) (amount.map I128.toInt) =
      .ok (pre ++ amountField amount ++ zeros k) := by
  cases amount with
  | none =>
    have hzeros : zeros (16 + k) = amountField none ++ zeros k := by
      simp [zeros, amountField, List.replicate_add]
    rw [Option.map_none, setAmount, hzeros, List.append_assoc]
  | some a =>
    have hlength : (toBeBytes a).length = 16 := length_toBeBytes a
    rw [Option.map_some, setAmount, i128ToBeBytes_toInt, bind_ok,
      setBytes_zeros hpre (by rw [hlength])]
    rfl

theorem assertEnvelopeInput_eq_ok {x : PayloadEnvelope} :
    assertEnvelopeInput x = .ok () ↔ x.nonce.length = 32 ∧
      x.payload.length ≤ maxApplicationPayloadBytes ∧
      ∃ amount : Option I128, x.amount = amount.map I128.toInt := by
  obtain ⟨amount, payload, nonce⟩ := x
  rw [assertEnvelopeInput, throwIf_bind_eq_ok, throwIf_bind_eq_ok, not_not, Nat.not_lt]
  refine and_congr_right' (and_congr_right' ?_)
  cases amount with
  | none => exact ⟨fun _ => ⟨none, rfl⟩, fun _ => rfl⟩
  | some value =>
    constructor
    · intro h
      change discard (i128ToBeBytes value) = .ok () at h
      cases hbytes : i128ToBeBytes value with
      | error e =>
        rw [hbytes] at h
        cases h
      | ok bytes =>
        obtain ⟨v, rfl, -⟩ := i128ToBeBytes_eq_ok.mp hbytes
        exact ⟨some v, rfl⟩
    · rintro ⟨amount, hamount⟩
      obtain ⟨v, -, hv⟩ := Option.map_eq_some_iff.mp hamount.symm
      dsimp only
      rw [← hv, i128ToBeBytes_toInt]
      rfl

/-- Writing the fields one after the other gives the envelope. -/
theorem encodePayloadEnvelope_ok {x : PayloadEnvelope} {amount : Option I128}
    (hamount : x.amount = amount.map I128.toInt) (hnonce : x.nonce.length = 32)
    (hpayload : x.payload.length ≤ maxApplicationPayloadBytes) :
    encodePayloadEnvelope x = .ok (envelopeBytes amount x.nonce x.payload) := by
  have hassert := assertEnvelopeInput_eq_ok.mpr ⟨hnonce, hpayload, amount, hamount⟩
  have hflag : (if x.amount = none then 0 else flagAmount) = flagField amount := by
    rw [hamount, flagField]
    cases amount <;> rfl
  have hmagic : setBytes (zeros (payloadHeaderBytes + x.payload.length)) 0 payloadMagic =
      payloadMagic ++ zeros (56 + x.payload.length) := by
    have hwrite : setBytes ([] ++ zeros (60 + x.payload.length)) 0 payloadMagic =
        [] ++ payloadMagic ++ zeros (56 + x.payload.length) := by
      refine setBytes_zeros rfl ?_
      show 60 + x.payload.length = 4 + _
      omega
    exact hwrite
  have hversion : ∀ pre : Bytes, pre.length = versionOffset →
      setBytes (pre ++ zeros (56 + x.payload.length)) versionOffset [payloadEnvelopeVersion] =
        pre ++ [payloadEnvelopeVersion] ++ zeros (55 + x.payload.length) :=
    fun pre hpre => setBytes_zeros hpre (by rw [List.length_singleton]; omega)
  have hflags : ∀ pre : Bytes, pre.length = flagsOffset →
      setBytes (pre ++ zeros (55 + x.payload.length)) flagsOffset [flagField amount] =
        pre ++ [flagField amount] ++ zeros (2 + (16 + (36 + x.payload.length))) :=
    fun pre hpre => setBytes_zeros hpre (by rw [List.length_singleton]; omega)
  have hreserved : ∀ (pre : Bytes) (k : Nat), pre ++ zeros (2 + k) = pre ++ [0, 0] ++ zeros k := by
    intro pre k
    simp [zeros, List.replicate_add]
  have hfieldNonce : ∀ pre : Bytes, pre.length = nonceOffset →
      setBytes (pre ++ zeros (36 + x.payload.length)) nonceOffset x.nonce =
        pre ++ x.nonce ++ zeros (4 + x.payload.length) :=
    fun pre hpre => setBytes_zeros hpre (by omega)
  have hfieldLength : ∀ pre : Bytes, pre.length = lengthOffset →
      setBytes (pre ++ zeros (4 + x.payload.length)) lengthOffset (encode 4 x.payload.length) =
        pre ++ encode 4 x.payload.length ++ zeros x.payload.length :=
    fun pre hpre => setBytes_zeros hpre (by rw [length_encode])
  have hfieldPayload : ∀ pre : Bytes, pre.length = payloadHeaderBytes →
      setBytes (pre ++ zeros x.payload.length) payloadHeaderBytes x.payload = pre ++ x.payload := by
    intro pre hpre
    rw [setBytes_zeros hpre (Nat.add_zero _).symm]
    exact List.append_nil _
  have hlengthNonce : (payloadMagic ++ [payloadEnvelopeVersion] ++ [flagField amount] ++ [0, 0] ++
      amountField amount).length = nonceOffset := by
    rw [List.length_append, length_amountField]
    rfl
  have hlengthLength : (payloadMagic ++ [payloadEnvelopeVersion] ++ [flagField amount] ++ [0, 0] ++
      amountField amount ++ x.nonce).length = lengthOffset := by
    rw [List.length_append, hlengthNonce, hnonce]
    rfl
  have hlengthPayload : (payloadMagic ++ [payloadEnvelopeVersion] ++ [flagField amount] ++ [0, 0] ++
      amountField amount ++ x.nonce ++ encode 4 x.payload.length).length = payloadHeaderBytes := by
    rw [List.length_append, hlengthLength, length_encode]
    rfl
  have hunfold : encodePayloadEnvelope x = (do
      assertEnvelopeInput x
      let out ← setAmount (setBytes (setBytes (setBytes
        (zeros (payloadHeaderBytes + x.payload.length)) 0 payloadMagic) versionOffset
        [payloadEnvelopeVersion]) flagsOffset [if x.amount = none then 0 else flagAmount]) x.amount
      return setBytes (setBytes (setBytes out nonceOffset x.nonce) lengthOffset
        (encode 4 x.payload.length)) payloadHeaderBytes x.payload) := rfl
  rw [hunfold, hassert, bind_ok, hflag, hamount, hmagic, hversion _ rfl, hflags _ rfl, hreserved,
    setAmount_zeros rfl, bind_ok, hfieldNonce _ hlengthNonce, hfieldLength _ hlengthLength,
    hfieldPayload _ hlengthPayload]
  simp [envelopeBytes, pure, Except.pure]

/-- The encoder produces the envelopes. -/
theorem encodePayloadEnvelope_eq_ok {x : PayloadEnvelope} {b : Bytes} :
    encodePayloadEnvelope x = .ok b ↔
      ∃ amount, x.amount = amount.map I128.toInt ∧ IsEnvelope b amount x.nonce x.payload := by
  constructor
  · intro h
    cases hassert : assertEnvelopeInput x with
    | error e =>
      rw [encodePayloadEnvelope, hassert] at h
      cases h
    | ok u =>
      obtain ⟨hnonce, hpayload, amount, hamount⟩ := assertEnvelopeInput_eq_ok.mp hassert
      rw [encodePayloadEnvelope_ok hamount hnonce hpayload] at h
      exact ⟨amount, hamount, hnonce, hpayload, (Except.ok.inj h).symm⟩
  · rintro ⟨amount, hamount, hnonce, hpayload, rfl⟩
    exact encodePayloadEnvelope_ok hamount hnonce hpayload

end SubRosa.Sdk
