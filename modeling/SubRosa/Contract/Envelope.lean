import SubRosa.Contract.Payload

/-!
# The wire format of an envelope

The one byte string for an optional amount, a nonce and a payload. The decoder
of the contract accepts these strings and no others.
-/

namespace SubRosa

open MachineInt BigEndian

/-- The amount field: zero without an amount. -/
def amountField (amount : Option I128) : Bytes :=
  match amount with
  | some a => toBeBytes a
  | none => List.replicate 16 0

theorem length_amountField (amount : Option I128) : (amountField amount).length = 16 := by
  cases amount with
  | none => rfl
  | some a => exact length_toBeBytes a

def flagField (amount : Option I128) : UInt8 := if amount.isSome then flagAmount else 0

/-- `magic ‖ version ‖ flags ‖ reserved ‖ amount ‖ nonce ‖ length ‖ payload`. -/
def envelopeBytes (amount : Option I128) (nonce payload : Bytes) : Bytes :=
  payloadMagic ++ [payloadEnvelopeVersion, flagField amount, 0, 0] ++ amountField amount ++ nonce ++
    encode 4 payload.length ++ payload

/-- The bytes `b` are the envelope of these parts, which have the right sizes. -/
structure IsEnvelope (b : Bytes) (amount : Option I128) (nonce payload : Bytes) : Prop where
  nonceSize : nonce.length = 32
  payloadSize : payload.length ≤ maxApplicationPayloadBytes
  bytes : b = envelopeBytes amount nonce payload

/-- The fields of a byte string that is long enough for a header. -/
@[ext]
structure HeaderParts where
  m0 : UInt8
  m1 : UInt8
  m2 : UInt8
  m3 : UInt8
  version : UInt8
  flags : UInt8
  r0 : UInt8
  r1 : UInt8
  amount : BytesN 16
  nonce : BytesN 32
  l0 : UInt8
  l1 : UInt8
  l2 : UInt8
  l3 : UInt8
  payload : Bytes

def HeaderParts.bytes (p : HeaderParts) : Bytes :=
  [p.m0, p.m1, p.m2, p.m3, p.version, p.flags, p.r0, p.r1] ++
    (p.amount.val ++ (p.nonce.val ++ ([p.l0, p.l1, p.l2, p.l3] ++ p.payload)))

theorem exists_four {α : Type} {l : List α} (h : 4 ≤ l.length) :
    ∃ a b c d t, l = a :: b :: c :: d :: t := by
  obtain ⟨a, l, rfl⟩ := List.exists_cons_of_length_pos (l := l) (by omega)
  rw [List.length_cons] at h
  obtain ⟨b, l, rfl⟩ := List.exists_cons_of_length_pos (l := l) (by omega)
  rw [List.length_cons] at h
  obtain ⟨c, l, rfl⟩ := List.exists_cons_of_length_pos (l := l) (by omega)
  rw [List.length_cons] at h
  obtain ⟨d, l, rfl⟩ := List.exists_cons_of_length_pos (l := l) (by omega)
  exact ⟨a, b, c, d, l, rfl⟩

/-- Cut a byte string at the offsets of the header. -/
theorem exists_headerParts {b : Bytes} (h : payloadHeaderBytes ≤ b.length) :
    ∃ p : HeaderParts, p.bytes = b := by
  have hheader : payloadHeaderBytes = 60 := rfl
  obtain ⟨m0, m1, m2, m3, rest, rfl⟩ := exists_four (l := b) (by omega)
  simp only [List.length_cons] at h
  obtain ⟨version, flags, r0, r1, rest, rfl⟩ := exists_four (l := rest) (by omega)
  simp only [List.length_cons] at h
  have ha : (rest.take 16).length = 16 := by
    rw [List.length_take]
    omega
  have hn : ((rest.drop 16).take 32).length = 32 := by
    rw [List.length_take, List.length_drop]
    omega
  obtain ⟨l0, l1, l2, l3, payload, hrest⟩ := exists_four (l := (rest.drop 16).drop 32) (by
    rw [List.length_drop, List.length_drop]
    omega)
  refine ⟨⟨m0, m1, m2, m3, version, flags, r0, r1, ⟨_, ha⟩, ⟨_, hn⟩, l0, l1, l2, l3, payload⟩, ?_⟩
  have hsplit : rest.take 16 ++ ((rest.drop 16).take 32 ++ (l0 :: l1 :: l2 :: l3 :: payload)) =
      rest := by
    rw [← hrest, List.take_append_drop, List.take_append_drop]
  simpa [HeaderParts.bytes] using hsplit

/-! ## Reading the fields -/

namespace HeaderParts

variable (p : HeaderParts)

theorem length_bytes : p.bytes.length = payloadHeaderBytes + p.payload.length := by
  have ha := p.amount.property
  have hn := p.nonce.property
  have hheader : payloadHeaderBytes = 60 := rfl
  simp only [bytes, List.length_append, List.length_cons, List.length_nil, ha, hn]
  omega

theorem take_amount : (p.bytes.drop amountOffset).take 16 = p.amount.val :=
  List.take_left' p.amount.property

theorem drop_nonce : p.bytes.drop nonceOffset =
    p.nonce.val ++ ([p.l0, p.l1, p.l2, p.l3] ++ p.payload) := List.drop_left' p.amount.property

theorem take_nonce : (p.bytes.drop nonceOffset).take 32 = p.nonce.val := by
  rw [drop_nonce]
  exact List.take_left' p.nonce.property

theorem drop_length : p.bytes.drop lengthOffset = [p.l0, p.l1, p.l2, p.l3] ++ p.payload := by
  have hoffset : lengthOffset = nonceOffset + 32 := rfl
  rw [hoffset, ← List.drop_drop, drop_nonce]
  exact List.drop_left' p.nonce.property

theorem drop_payload : p.bytes.drop payloadHeaderBytes = p.payload := by
  have hoffset : payloadHeaderBytes = lengthOffset + 4 := rfl
  rw [hoffset, ← List.drop_drop, drop_length]
  rfl

/-- The leading bytes. -/
theorem getElem?_head {i : Nat} (h : i < 8) : p.bytes[i]? =
    [p.m0, p.m1, p.m2, p.m3, p.version, p.flags, p.r0, p.r1][i]? := by
  rw [bytes, List.getElem?_append_left h]

/-- The bytes of the length field. -/
theorem getElem?_length {i : Nat} (h : i < 4) :
    p.bytes[lengthOffset + i]? = [p.l0, p.l1, p.l2, p.l3][i]? := by
  rw [← List.getElem?_drop, p.drop_length, List.getElem?_append_left h]

/-- The amount that a header denotes. -/
def amountOf : Option I128 :=
  if p.flags &&& flagAmount ≠ 0 then some (fromBeBytes p.amount.val p.amount.property) else none

/-- What a decoder has to check. -/
structure Valid : Prop where
  magic : [p.m0, p.m1, p.m2, p.m3] = payloadMagic
  version : p.version = payloadEnvelopeVersion
  flags : p.flags &&& ~~~supportedFlags = 0
  reserved : p.r0 = 0 ∧ p.r1 = 0
  size : p.payload.length ≤ maxApplicationPayloadBytes
  length : decode [p.l0, p.l1, p.l2, p.l3] = p.payload.length
  zero : p.flags &&& flagAmount = 0 → p.amount.val.any (· ≠ 0) = false

end HeaderParts

/-! ## The decoder of the contract -/

theorem rejectIf_bind_eq_ok {α : Type} {c : Prop} [Decidable c] {e : Error}
    {k : Unit → Except Error α} {a : α} :
    (rejectIf c e >>= k) = .ok a ↔ ¬ c ∧ k () = .ok a := by
  unfold rejectIf
  split
  · next h => exact ⟨nofun, fun hk => absurd h hk.1⟩
  · next h => exact ⟨fun hk => ⟨h, hk⟩, fun hk => hk.2⟩

theorem rejectIf_eq_ok {c : Prop} [Decidable c] {e : Error} : rejectIf c e = .ok () ↔ ¬ c := by
  unfold rejectIf
  split
  · next h => exact ⟨nofun, fun hc => absurd h hc⟩
  · next h => exact ⟨fun _ => h, fun _ => rfl⟩

theorem unit_bind_eq_ok {α : Type} {x : Except Error Unit} {k : Unit → Except Error α} {a : α} :
    (x >>= k) = .ok a ↔ x = .ok () ∧ k () = .ok a := by
  cases x with
  | error e => exact ⟨nofun, nofun⟩
  | ok u => exact ⟨fun h => ⟨rfl, h⟩, fun h => h.2⟩

theorem ok_bind {α β : Type} (x : α) (k : α → Except Error β) : (Except.ok x >>= k) = k x := by
  simp only [bind, Except.bind]

theorem byteAt_eq_ok {b : Bytes} {i : Nat} {x : UInt8} (h : b[i]? = some x) :
    byteAt b i = .ok x := by
  rw [byteAt, h]

theorem checkMagic_bytes (p : HeaderParts) :
    checkMagic p.bytes = .ok () ↔ [p.m0, p.m1, p.m2, p.m3] = payloadMagic := by
  have h0 : byteAt p.bytes 0 = .ok p.m0 := byteAt_eq_ok (p.getElem?_head (by decide))
  have h1 : byteAt p.bytes 1 = .ok p.m1 := byteAt_eq_ok (p.getElem?_head (by decide))
  have h2 : byteAt p.bytes 2 = .ok p.m2 := byteAt_eq_ok (p.getElem?_head (by decide))
  have h3 : byteAt p.bytes 3 = .ok p.m3 := byteAt_eq_ok (p.getElem?_head (by decide))
  have hbind : ∀ {x y : UInt8} {k : Unit → Except Error Unit},
      ((rejectIf (x ≠ y) .MalformedPayload >>= k) = .ok ()) ↔ x = y ∧ k () = .ok () := by
    intro x y k
    rw [rejectIf_bind_eq_ok, not_not]
  have hunfold : checkMagic p.bytes = (do
      rejectIf (p.m0 ≠ payloadMagic.getD 0 0) .MalformedPayload
      rejectIf (p.m1 ≠ payloadMagic.getD 1 0) .MalformedPayload
      rejectIf (p.m2 ≠ payloadMagic.getD 2 0) .MalformedPayload
      rejectIf (p.m3 ≠ payloadMagic.getD 3 0) .MalformedPayload
      pure ()) := by
    show (do
      (byteAt p.bytes 0 >>= fun b => rejectIf (b ≠ payloadMagic.getD 0 0) .MalformedPayload)
      (byteAt p.bytes 1 >>= fun b => rejectIf (b ≠ payloadMagic.getD 1 0) .MalformedPayload)
      (byteAt p.bytes 2 >>= fun b => rejectIf (b ≠ payloadMagic.getD 2 0) .MalformedPayload)
      (byteAt p.bytes 3 >>= fun b => rejectIf (b ≠ payloadMagic.getD 3 0) .MalformedPayload)
      pure ()) = _
    rw [h0, h1, h2, h3]
    rfl
  rw [hunfold, hbind, hbind, hbind, hbind]
  show _ ↔ [p.m0, p.m1, p.m2, p.m3] = [_, _, _, _]
  simp [payloadMagic, pure, Except.pure]

theorem payloadLen_bytes (p : HeaderParts) :
    payloadLen p.bytes = .ok (decode [p.l0, p.l1, p.l2, p.l3]) := by
  have h0 : byteAt p.bytes lengthOffset = .ok p.l0 :=
    byteAt_eq_ok (p.getElem?_length (i := 0) (by decide))
  have h1 : byteAt p.bytes (lengthOffset + 1) = .ok p.l1 :=
    byteAt_eq_ok (p.getElem?_length (by decide))
  have h2 : byteAt p.bytes (lengthOffset + 2) = .ok p.l2 :=
    byteAt_eq_ok (p.getElem?_length (by decide))
  have h3 : byteAt p.bytes (lengthOffset + 3) = .ok p.l3 :=
    byteAt_eq_ok (p.getElem?_length (by decide))
  rw [payloadLen, h0, h1, h2, h3]
  rfl

theorem amountBytes_bytes (p : HeaderParts) : amountBytes p.bytes = .ok p.amount := by
  unfold amountBytes
  have h := p.take_amount
  split
  · exact congrArg Except.ok (Subtype.ext h)
  · next hne => exact absurd (h ▸ p.amount.property) hne

theorem decodeEnvelope_bytes (p : HeaderParts) {d : DecodedPayload} :
    decodeEnvelope p.bytes = .ok d ↔ p.Valid ∧ d = ⟨p.amountOf⟩ := by
  have hversion : byteAt p.bytes versionOffset = .ok p.version :=
    byteAt_eq_ok (p.getElem?_head (by decide))
  have hflags : byteAt p.bytes flagsOffset = .ok p.flags :=
    byteAt_eq_ok (p.getElem?_head (by decide))
  have hr0 : byteAt p.bytes reservedOffset = .ok p.r0 :=
    byteAt_eq_ok (p.getElem?_head (by decide))
  have hr1 : byteAt p.bytes (reservedOffset + 1) = .ok p.r1 :=
    byteAt_eq_ok (p.getElem?_head (by decide))
  have hlength := p.length_bytes
  have hheader : payloadHeaderBytes = 60 := rfl
  have hmax : maxEnvelopeBytes = payloadHeaderBytes + maxApplicationPayloadBytes := rfl
  have hoffset : lengthOffset = 56 := rfl
  simp only [decodeEnvelope, unit_bind_eq_ok, rejectIf_eq_ok, checkMagic_bytes, hversion, hflags,
    hr0, hr1, payloadLen_bytes, amountBytes_bytes, ok_bind, not_not, not_or, not_lt]
  constructor
  · rintro ⟨⟨-, hsize⟩, hmagic, hversion, hflags, hr0, hr1, ⟨-, hlen⟩, hzero, -, hd⟩
    refine ⟨⟨hmagic, hversion, hflags, ⟨hr0, hr1⟩, by omega, by omega, fun h => ?_⟩, ?_⟩
    · simpa [h] using hzero
    · exact (Except.ok.inj hd).symm
  · rintro ⟨hvalid, rfl⟩
    have hsize := hvalid.size
    have hlen := hvalid.length
    refine ⟨⟨by omega, by omega⟩, hvalid.magic, hvalid.version, hvalid.flags, hvalid.reserved.1,
      hvalid.reserved.2, ⟨by omega, by omega⟩, ?_, by omega, rfl⟩
    rintro ⟨hno, hany⟩
    rw [hvalid.zero hno] at hany
    cases hany

/-! ## Accepted strings are envelopes -/

theorem flags_cases : ∀ flags : BitVec 8, flags &&& ~~~ 1 = 0 → flags = 0 ∨ flags = 1 := by
  decide

theorem supported_flags {flags : UInt8} (h : flags &&& ~~~supportedFlags = 0) :
    flags = 0 ∨ flags = flagAmount := by
  have hbits := congrArg UInt8.toBitVec h
  rcases flags_cases flags.toBitVec hbits with hz | ho
  · exact .inl (UInt8.toBitVec_inj.mp hz)
  · exact .inr (UInt8.toBitVec_inj.mp ho)

theorem flagField_none : flagField none &&& flagAmount = 0 := by decide

theorem flagField_some (a : I128) : flagField (some a) &&& flagAmount ≠ 0 := by
  have h : flagField (some a) = flagAmount := rfl
  rw [h]
  decide

theorem flagField_supported (amount : Option I128) :
    flagField amount &&& ~~~supportedFlags = 0 := by
  have h : flagField amount = 0 ∨ flagField amount = flagAmount := by
    cases amount with
    | none => exact .inl rfl
    | some a => exact .inr rfl
  rcases h with h | h
  · rw [h]; decide
  · rw [h]; decide

namespace HeaderParts

/-- The fields of an envelope. -/
def ofEnvelope (amount : Option I128) (nonce : BytesN 32) (payload : Bytes) : HeaderParts where
  m0 := 0x53
  m1 := 0x52
  m2 := 0x50
  m3 := 0x00
  version := payloadEnvelopeVersion
  flags := flagField amount
  r0 := 0
  r1 := 0
  amount := ⟨amountField amount, length_amountField amount⟩
  nonce := nonce
  l0 := UInt8.ofNat (payload.length / 256 ^ 3)
  l1 := UInt8.ofNat (payload.length / 256 ^ 2)
  l2 := UInt8.ofNat (payload.length / 256 ^ 1)
  l3 := UInt8.ofNat (payload.length / 256 ^ 0)
  payload := payload

theorem bytes_ofEnvelope (amount : Option I128) (nonce : BytesN 32) (payload : Bytes) :
    (ofEnvelope amount nonce payload).bytes = envelopeBytes amount nonce.val payload := by
  simp [ofEnvelope, bytes, envelopeBytes, payloadMagic, encode]

theorem amountOf_ofEnvelope (amount : Option I128) (nonce : BytesN 32) (payload : Bytes) :
    (ofEnvelope amount nonce payload).amountOf = amount := by
  cases amount with
  | none => exact if_neg (not_not.mpr flagField_none)
  | some a =>
    have hflag : (ofEnvelope (some a) nonce payload).flags &&& flagAmount ≠ 0 := flagField_some a
    have hfield : (ofEnvelope (some a) nonce payload).amount.val = toBeBytes a := rfl
    rw [amountOf, if_pos hflag, Option.some_inj, ← I128.toInt_inj, toInt_fromBeBytes, hfield]
    exact signed_toBeBytes a

theorem valid_ofEnvelope (amount : Option I128) (nonce : BytesN 32) {payload : Bytes}
    (h : payload.length ≤ maxApplicationPayloadBytes) :
    (ofEnvelope amount nonce payload).Valid where
  magic := rfl
  version := rfl
  flags := flagField_supported amount
  reserved := ⟨rfl, rfl⟩
  size := h
  length := by
    have hmax : maxApplicationPayloadBytes = 2048 := rfl
    have hdecode := decode_encode 4 payload.length
    rw [Nat.mod_eq_of_lt (by omega)] at hdecode
    exact hdecode
  zero := by
    cases amount with
    | none => exact fun _ => rfl
    | some a => exact fun hflag => absurd hflag (flagField_some a)

theorem zero_amount {p : HeaderParts} (h : p.amount.val.any (· ≠ 0) = false) :
    p.amount.val = List.replicate 16 0 := by
  rw [List.eq_replicate_iff]
  refine ⟨p.amount.property, fun b hb => ?_⟩
  have hzero := List.any_eq_false.mp h b hb
  simpa using hzero

/-- The checks leave one choice for every byte outside the nonce and the payload. -/
theorem Valid.eq_ofEnvelope {p : HeaderParts} (h : p.Valid) :
    p = ofEnvelope p.amountOf p.nonce p.payload := by
  have hmagic := h.magic
  rw [payloadMagic] at hmagic
  injection hmagic with h0 hmagic
  injection hmagic with h1 hmagic
  injection hmagic with h2 hmagic
  injection hmagic with h3 hmagic
  have hlength := encode_decode [p.l0, p.l1, p.l2, p.l3]
  rw [h.length] at hlength
  injection hlength with hl0 hlength
  injection hlength with hl1 hlength
  injection hlength with hl2 hlength
  injection hlength with hl3 hlength
  have hamount : p.flags = flagField p.amountOf ∧ p.amount.val = amountField p.amountOf := by
    rcases supported_flags h.flags with hflags | hflags
    · have hnone : p.amountOf = none := by rw [amountOf, hflags]; rfl
      rw [hnone]
      exact ⟨hflags, zero_amount (h.zero (by rw [hflags]; rfl))⟩
    · have hsome : p.amountOf = some (fromBeBytes p.amount.val p.amount.property) := by
        rw [amountOf, hflags]
        exact if_pos (by decide)
      rw [hsome]
      exact ⟨hflags, (toBeBytes_fromBeBytes p.amount.val p.amount.property).symm⟩
  obtain ⟨hr0, hr1⟩ := h.reserved
  have hversion := h.version
  obtain ⟨hflags, hfield⟩ := hamount
  refine HeaderParts.ext h0 h1 h2 h3 hversion hflags hr0 hr1 (Subtype.ext hfield) rfl hl0.symm
    hl1.symm hl2.symm hl3.symm rfl

theorem Valid.isEnvelope {p : HeaderParts} (h : p.Valid) :
    IsEnvelope p.bytes p.amountOf p.nonce.val p.payload := by
  refine ⟨p.nonce.property, h.size, ?_⟩
  rw [← bytes_ofEnvelope, ← h.eq_ofEnvelope]

end HeaderParts

theorem IsEnvelope.exists_parts {b : Bytes} {amount : Option I128} {nonce payload : Bytes}
    (h : IsEnvelope b amount nonce payload) : ∃ p : HeaderParts, p.Valid ∧ p.bytes = b ∧
      p.amountOf = amount ∧ p.nonce.val = nonce ∧ p.payload = payload := by
  refine ⟨.ofEnvelope amount ⟨nonce, h.nonceSize⟩ payload, HeaderParts.valid_ofEnvelope _ _
    h.payloadSize,
    ?_, HeaderParts.amountOf_ofEnvelope _ _ _, rfl, rfl⟩
  exact (HeaderParts.bytes_ofEnvelope _ _ _).trans h.bytes.symm

/-- The contract accepts the envelopes, and reads their amount. -/
theorem decodeEnvelope_eq_ok {b : Bytes} {d : DecodedPayload} :
    decodeEnvelope b = .ok d ↔ ∃ nonce payload, IsEnvelope b d.amount nonce payload := by
  constructor
  · intro h
    have hlong : payloadHeaderBytes ≤ b.length := by
      unfold decodeEnvelope at h
      rw [rejectIf_bind_eq_ok, not_or, Nat.not_lt] at h
      exact h.1.1
    obtain ⟨p, rfl⟩ := exists_headerParts hlong
    obtain ⟨hvalid, rfl⟩ := (decodeEnvelope_bytes p).mp h
    exact ⟨p.nonce.val, p.payload, hvalid.isEnvelope⟩
  · rintro ⟨nonce, payload, h⟩
    obtain ⟨p, hvalid, rfl, hamount, -⟩ := h.exists_parts
    exact (decodeEnvelope_bytes p).mpr ⟨hvalid, by rw [hamount]⟩

end SubRosa
