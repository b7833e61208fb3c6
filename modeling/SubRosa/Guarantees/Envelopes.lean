import SubRosa.Sdk.Envelope

/-!
# One envelope format

The decoders of the contract and of the SDK accept the same byte strings and
read the same amount. Each accepted string is the encoding of what the SDK's
decoder returns, and every well-sized envelope survives the round trip.
-/

namespace SubRosa.Sdk

open MachineInt JavaScript

/-- The inputs of the encoder that are within its limits. -/
structure PayloadEnvelope.Encodable (x : PayloadEnvelope) : Prop where
  nonce : x.nonce.length = 32
  payload : x.payload.length ≤ 2048
  amount : ∀ a, x.amount = some a → -2 ^ 127 ≤ a ∧ a < 2 ^ 127

theorem PayloadEnvelope.Encodable.exists_amount {x : PayloadEnvelope} (h : x.Encodable) :
    ∃ amount : Option I128, x.amount = amount.map I128.toInt := by
  cases hx : x.amount with
  | none => exact ⟨none, rfl⟩
  | some a =>
    obtain ⟨hlower, hupper⟩ := h.amount a hx
    exact ⟨some ⟨a, hlower, hupper⟩, rfl⟩

theorem decode_encode_envelope {x : PayloadEnvelope} (h : x.Encodable) :
    ∃ b, encodePayloadEnvelope x = .ok b ∧ decodePayloadEnvelope b = .ok x := by
  obtain ⟨amount, hamount⟩ := h.exists_amount
  have henvelope : IsEnvelope (envelopeBytes amount x.nonce x.payload) amount x.nonce x.payload :=
    ⟨h.nonce, h.payload, rfl⟩
  exact ⟨_, encodePayloadEnvelope_eq_ok.mpr ⟨amount, hamount, henvelope⟩,
    decodePayloadEnvelope_eq_ok.mpr ⟨amount, hamount, henvelope⟩⟩

theorem encode_decode_envelope {b : Bytes} {x : PayloadEnvelope} :
    decodePayloadEnvelope b = .ok x ↔ encodePayloadEnvelope x = .ok b :=
  decodePayloadEnvelope_eq_ok.trans encodePayloadEnvelope_eq_ok.symm

/-- An envelope has one amount, read by either decoder. -/
theorem same_amount {b : Bytes} {d : DecodedPayload} {x : PayloadEnvelope}
    (hd : decodeEnvelope b = .ok d) (hx : decodePayloadEnvelope b = .ok x) :
    x.amount = d.amount.map I128.toInt := by
  obtain ⟨nonce, payload, henvelope⟩ := decodeEnvelope_eq_ok.mp hd
  have hread : decodePayloadEnvelope b = .ok ⟨d.amount.map I128.toInt, payload, nonce⟩ :=
    decodePayloadEnvelope_eq_ok.mpr ⟨d.amount, rfl, henvelope⟩
  rw [hx] at hread
  rw [Except.ok.inj hread]

theorem same_strings {b : Bytes} :
    (∃ d, decodeEnvelope b = .ok d) ↔ ∃ x, decodePayloadEnvelope b = .ok x := by
  constructor
  · rintro ⟨d, hd⟩
    obtain ⟨nonce, payload, henvelope⟩ := decodeEnvelope_eq_ok.mp hd
    exact ⟨⟨d.amount.map I128.toInt, payload, nonce⟩,
      decodePayloadEnvelope_eq_ok.mpr ⟨d.amount, rfl, henvelope⟩⟩
  · rintro ⟨x, hx⟩
    obtain ⟨amount, -, henvelope⟩ := decodePayloadEnvelope_eq_ok.mp hx
    exact ⟨⟨amount⟩, decodeEnvelope_eq_ok.mpr ⟨x.nonce, x.payload, henvelope⟩⟩

/-- **One envelope format in two languages.** -/
theorem one_envelope_format :
    (∀ b, (∃ d, decodeEnvelope b = .ok d) ↔ ∃ x, decodePayloadEnvelope b = .ok x) ∧
    (∀ b d x, decodeEnvelope b = .ok d → decodePayloadEnvelope b = .ok x →
      x.amount = d.amount.map I128.toInt) ∧
    (∀ x : PayloadEnvelope, x.Encodable →
      ∃ b, encodePayloadEnvelope x = .ok b ∧ decodePayloadEnvelope b = .ok x) ∧
    (∀ b x, decodePayloadEnvelope b = .ok x → encodePayloadEnvelope x = .ok b) ∧
    (∀ x y b, encodePayloadEnvelope x = .ok b → encodePayloadEnvelope y = .ok b → x = y) := by
  refine ⟨fun b => same_strings, fun b d x => same_amount, fun x => decode_encode_envelope,
    fun b x => encode_decode_envelope.mp, fun x y b hx hy => ?_⟩
  have hx := encode_decode_envelope.mpr hx
  have hy := encode_decode_envelope.mpr hy
  rw [hx] at hy
  exact Except.ok.inj hy

/-- An envelope with a negative amount. -/
def sampleEnvelope : PayloadEnvelope := ⟨some (-5), [1, 2, 3], List.replicate 32 7⟩

theorem one_envelope_format_sample :
    ∃ b, encodePayloadEnvelope sampleEnvelope = .ok b ∧
      decodePayloadEnvelope b = .ok sampleEnvelope := by
  refine one_envelope_format.2.2.1 sampleEnvelope ⟨rfl, by decide, ?_⟩
  intro a ha
  cases ha
  decide

end SubRosa.Sdk
