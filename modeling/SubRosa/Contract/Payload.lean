import SubRosa.Contract.Types
import SubRosa.Library.Invocation

/-!
# The payload envelope

`payload.rs`: strict validation of the canonical envelope. The contract reads
only the optional amount of an accepted envelope.
-/

namespace SubRosa

open MachineInt BigEndian

def payloadMagic : Bytes := [0x53, 0x52, 0x50, 0x00]
def flagAmount : UInt8 := 1
def supportedFlags : UInt8 := flagAmount
def versionOffset : Nat := 4
def flagsOffset : Nat := 5
def reservedOffset : Nat := 6
def amountOffset : Nat := 8
def nonceOffset : Nat := 24
def lengthOffset : Nat := 56
def payloadEnvelopeVersion : UInt8 := 1
def payloadHeaderBytes : Nat := 60
def maxApplicationPayloadBytes : Nat := 2048
def maxEnvelopeBytes : Nat := payloadHeaderBytes + maxApplicationPayloadBytes

structure DecodedPayload where
  amount : Option I128
  deriving DecidableEq

/-- The byte at an index, or `MalformedPayload`. -/
def byteAt (bytes : Bytes) (index : Nat) : Except Error UInt8 :=
  match bytes[index]? with
  | some b => .ok b
  | none => .error .MalformedPayload

/-- `Err(e)` when `c` holds. -/
def rejectIf (c : Prop) [Decidable c] (e : Error) : Except Error Unit :=
  if c then .error e else .ok ()

/-- The 16 amount bytes of a header. -/
def amountBytes (bytes : Bytes) : Except Error (BytesN 16) :=
  if h : ((bytes.drop amountOffset).take 16).length = 16 then .ok ⟨_, h⟩
  else .error .MalformedPayload

/-- The big-endian length field. -/
def payloadLen (bytes : Bytes) : Except Error Nat := do
  let b0 ← byteAt bytes lengthOffset
  let b1 ← byteAt bytes (lengthOffset + 1)
  let b2 ← byteAt bytes (lengthOffset + 2)
  let b3 ← byteAt bytes (lengthOffset + 3)
  return decode [b0, b1, b2, b3]

/-- Compare the leading bytes with the magic, in order. -/
def checkMagic (bytes : Bytes) : Except Error Unit :=
  (List.range 4).forM fun i => do
    let b ← byteAt bytes i
    rejectIf (b ≠ payloadMagic.getD i 0) .MalformedPayload

/-- Strictly validate an envelope. -/
def decodeEnvelope (bytes : Bytes) : Except Error DecodedPayload := do
  rejectIf (bytes.length < payloadHeaderBytes ∨ maxEnvelopeBytes < bytes.length) .MalformedPayload
  checkMagic bytes
  rejectIf ((← byteAt bytes versionOffset) ≠ payloadEnvelopeVersion) .UnsupportedVersion
  let flags ← byteAt bytes flagsOffset
  rejectIf (flags &&& ~~~supportedFlags ≠ 0) .MalformedPayload
  let reserved0 ← byteAt bytes reservedOffset
  rejectIf (reserved0 ≠ 0) .MalformedPayload
  let reserved1 ← byteAt bytes (reservedOffset + 1)
  rejectIf (reserved1 ≠ 0) .MalformedPayload
  let len ← payloadLen bytes
  rejectIf (maxApplicationPayloadBytes < len ∨ bytes.length ≠ payloadHeaderBytes + len)
    .MalformedPayload
  let hasAmount := flags &&& flagAmount ≠ 0
  let amount ← amountBytes bytes
  rejectIf (¬ hasAmount ∧ amount.val.any (· ≠ 0)) .MalformedPayload
  -- every byte of the nonce has to be there
  rejectIf (bytes.length < lengthOffset) .MalformedPayload
  return ⟨if hasAmount then some (fromBeBytes amount.val amount.property) else none⟩

end SubRosa
