import SubRosa.Guarantees.Completeness

/-!
# Bid preimages

The SDK writes the bytes of an `i128` that Rust writes, and its two codecs
invert each other. A preimage belongs to one bid, and the keeper reveals with
the value and the nonce whose preimage it decrypted.
-/

namespace SubRosa

open Invocation MachineInt BigEndian Sdk

theorem beBytesToI128_toBeBytes (v : I128) : beBytesToI128 (toBeBytes v) = .ok v.toInt := by
  rw [beBytesToI128_ok _ (length_toBeBytes v), toInt_fromBeBytes, signed_toBeBytes]

/-- Every 16 bytes are those of the value they are read as. -/
theorem i128ToBeBytes_beBytesToI128 (b : BytesN 16) :
    ∃ v : I128, beBytesToI128 b.val = .ok v.toInt ∧ i128ToBeBytes v.toInt = .ok b.val := by
  refine ⟨fromBeBytes b.val b.property, beBytesToI128_ok _ b.property, ?_⟩
  rw [i128ToBeBytes_toInt, toBeBytes_fromBeBytes]

theorem length_bidPreimage (v : I128) (nonce : BytesN 32) : (bidPreimage v nonce).length = 48 := by
  rw [bidPreimage, List.length_append, length_toBeBytes, nonce.property]

theorem encodeBidPreimage_eq_ok {value : Int} {nonce x : Bytes} :
    encodeBidPreimage value nonce = .ok x ↔
      ∃ (v : I128) (n : BytesN 32), value = v.toInt ∧ nonce = n.val ∧ x = bidPreimage v n := by
  unfold encodeBidPreimage
  constructor
  · intro h
    split at h
    · cases h
    · next hlength =>
      obtain ⟨bytes, hbytes, hx⟩ := JavaScript.bind_eq_ok.mp h
      obtain ⟨v, hv, rfl⟩ := i128ToBeBytes_eq_ok.mp hbytes
      exact ⟨v, ⟨nonce, not_not.mp hlength⟩, hv.symm, rfl, (Except.ok.inj hx).symm⟩
  · rintro ⟨v, n, rfl, rfl, rfl⟩
    have hlength : ¬ n.val.length ≠ nonceBytes := not_not.mpr n.property
    rw [if_neg hlength, i128ToBeBytes_toInt]
    rfl

/-- What the keeper decodes, it decodes from the preimage of the decoded bid. -/
theorem encodeBidPreimage_decode {x : Bytes} {opened : Keeper.OpenedBid}
    (h : Keeper.decodeBidPreimage x = .ok opened) :
    encodeBidPreimage opened.value opened.nonce = .ok x := by
  obtain ⟨v, n, rfl, rfl⟩ := Keeper.decodeBidPreimage_eq_ok.mp h
  exact encodeBidPreimage_eq_ok.mpr ⟨v, n, rfl, rfl, rfl⟩

theorem decodeBidPreimage_encode {value : Int} {nonce x : Bytes}
    (h : encodeBidPreimage value nonce = .ok x) :
    Keeper.decodeBidPreimage x = .ok ⟨value, nonce⟩ := by
  obtain ⟨v, n, rfl, rfl, rfl⟩ := encodeBidPreimage_eq_ok.mp h
  exact Keeper.decodeBidPreimage_eq_ok.mpr ⟨v, n, rfl, rfl⟩

/-- Every 48 bytes decode. -/
theorem decodeBidPreimage_total (x : BytesN 48) :
    ∃ (v : I128) (n : BytesN 32), Keeper.decodeBidPreimage x.val = .ok ⟨v.toInt, n.val⟩ := by
  have hfirst : (x.val.take 16).length = 16 := by
    rw [List.length_take, x.property]
    rfl
  have hsecond : (x.val.drop 16).length = 32 := by
    rw [List.length_drop, x.property]
  refine ⟨fromBeBytes _ hfirst, ⟨_, hsecond⟩,
    Keeper.decodeBidPreimage_eq_ok.mpr ⟨fromBeBytes _ hfirst, ⟨_, hsecond⟩, ?_, rfl⟩⟩
  rw [bidPreimage, toBeBytes_fromBeBytes, List.take_append_drop]

/-- A reveal that succeeds hashed the preimage to the stored commitment. -/
theorem reveal_hashes {env : Env} {id : UInt64} {bidder : Address} {v : I128} {nonce : BytesN 32}
    {f f' : Frame} {u : Unit} (h : Yields (reveal id bidder v nonce) env f u f') :
    ∃ state, f.store.state id bidder = some state ∧
      env.sha256 (bidPreimage v nonce) = state.commitment := by
  have hread : (stateRecords id).read f.store = f.store.state id := rfl
  simp [reveal, getState, hread] at h
  obtain ⟨_, -, -, -, -, -, state, hstate, -, hhash, -⟩ := h
  exact ⟨state, hstate, hhash⟩

/-- The SDK's bytes of an `i128` are Rust's and both codecs are one-to-one: the
16 bytes of a value, and the 48 bytes of a value and a nonce. What decodes to a
bid is the one preimage the contract hashes when that bid is revealed. -/
theorem preimage_codec :
    (∀ v : I128, i128ToBeBytes v.toInt = .ok (toBeBytes v) ∧
      beBytesToI128 (toBeBytes v) = .ok v.toInt) ∧
    (∀ b : BytesN 16, ∃ v : I128, beBytesToI128 b.val = .ok v.toInt ∧
      i128ToBeBytes v.toInt = .ok b.val) ∧
    (∀ (v : I128) (nonce : BytesN 32), ∃ x : BytesN 48,
      encodeBidPreimage v.toInt nonce.val = .ok x.val ∧
      Keeper.decodeBidPreimage x.val = .ok ⟨v.toInt, nonce.val⟩) ∧
    (∀ x : BytesN 48, ∃ (v : I128) (nonce : BytesN 32),
      Keeper.decodeBidPreimage x.val = .ok ⟨v.toInt, nonce.val⟩ ∧
      encodeBidPreimage v.toInt nonce.val = .ok x.val) ∧
    (∀ (value value' : Int) (nonce nonce' x : Bytes), encodeBidPreimage value nonce = .ok x →
      encodeBidPreimage value' nonce' = .ok x → value = value' ∧ nonce = nonce') ∧
    (∀ (x : Bytes) (opened : Keeper.OpenedBid), Keeper.decodeBidPreimage x = .ok opened →
      ∃ (v : I128) (nonce : BytesN 32), opened = ⟨v.toInt, nonce.val⟩ ∧ bidPreimage v nonce = x ∧
      ∀ (env : Env) (id : UInt64) (bidder : Address) (f f' : Frame) (u : Unit),
        Yields (reveal id bidder v nonce) env f u f' →
        ∃ state, f.store.state id bidder = some state ∧ env.sha256 x = state.commitment) := by
  refine ⟨fun v => ⟨i128ToBeBytes_toInt v, beBytesToI128_toBeBytes v⟩, i128ToBeBytes_beBytesToI128,
    ?_, ?_, ?_, ?_⟩
  · intro v nonce
    have hencode := encodeBidPreimage_eq_ok.mpr ⟨v, nonce, rfl, rfl, rfl⟩
    exact ⟨⟨bidPreimage v nonce, length_bidPreimage v nonce⟩, hencode,
      decodeBidPreimage_encode hencode⟩
  · intro x
    obtain ⟨v, nonce, hdecode⟩ := decodeBidPreimage_total x
    exact ⟨v, nonce, hdecode, encodeBidPreimage_decode hdecode⟩
  · intro value value' nonce nonce' x h h'
    have hopened := (decodeBidPreimage_encode h).symm.trans (decodeBidPreimage_encode h')
    injection hopened with hopened
    injection hopened with hvalue hnonce
    exact ⟨hvalue, hnonce⟩
  · intro x opened h
    obtain ⟨v, nonce, rfl, rfl⟩ := Keeper.decodeBidPreimage_eq_ok.mp h
    exact ⟨v, nonce, rfl, rfl, fun env id bidder f f' u hreveal => reveal_hashes hreveal⟩

end SubRosa
