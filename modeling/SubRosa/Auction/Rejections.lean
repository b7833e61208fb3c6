import SubRosa.Auction.Frame

/-!
# Rejected reveals

The error that a reveal reports, by the state of the round and of the record. No
reveal traps.
-/

namespace SubRosa

open MachineInt Invocation

/-- What a reveal reports for the status of the round and the time. -/
inductive WindowError (status : Status) (t deadline : UInt64) : Error → Prop
  | settled : status = .Settled → WindowError status t deadline .AlreadySettled
  | voided : status = .Voided → WindowError status t deadline .RoundVoided
  | notOpen : status = .Open ∨ status = .Cleared → WindowError status t deadline .RevealNotOpen
  | closed : status = .Revealing → deadline < t → WindowError status t deadline .RevealWindowClosed

/-- What a reveal reports about the record of a bidder. -/
inductive BidError (host : Host) (value : I128) (nonce : BytesN 32) :
    Option BidState → Error → Prop
  | missing : BidError host value nonce none .BidNotFound
  | revealed {state : BidState} : state.revealedValue.isSome = true →
      BidError host value nonce (some state) .AlreadyRevealed
  | mismatch {state : BidState} : host.sha256 (bidPreimage value nonce) ≠ state.commitment →
      BidError host value nonce (some state) .HashMismatch
  | exceeds {state : BidState} : state.escrow < value →
      BidError host value nonce (some state) .BidExceedsEscrow

inductive SubmissionError (host : Host) (mode : RoundMode) (envelope : Bytes) :
    Option SubmissionStateV2 → Error → Prop
  | missing : SubmissionError host mode envelope none .BidNotFound
  | revealed {state : SubmissionStateV2} : state.revealedEnvelope.isSome = true →
      SubmissionError host mode envelope (some state) .AlreadyRevealed
  | mismatch {state : SubmissionStateV2} : host.sha256 envelope ≠ state.commitment →
      SubmissionError host mode envelope (some state) .HashMismatch
  | malformed {state : SubmissionStateV2} {e : Error} : decodeEnvelope envelope = .error e →
      SubmissionError host mode envelope (some state) e
  | noAmount {state : SubmissionStateV2} : mode = .Auction →
      SubmissionError host mode envelope (some state) .MalformedPayload
  | notPositive {state : SubmissionStateV2} : mode = .Auction →
      SubmissionError host mode envelope (some state) .InvalidAmount
  | exceeds {state : SubmissionStateV2} : mode = .Auction →
      SubmissionError host mode envelope (some state) .BidExceedsEscrow
  | escrowed {state : SubmissionStateV2} : mode = .ReceiptOnly → state.escrow ≠ 0 →
      SubmissionError host mode envelope (some state) .EscrowNotAllowed

/-- In a round that is being revealed only the deadline closes the window. -/
theorem WindowError.late {status : Status} {t deadline : UInt64} {e : Error}
    (h : WindowError status t deadline e) (hs : status = .Revealing) : deadline < t := by
  subst hs
  cases h with
  | settled hs => cases hs
  | voided hs => cases hs
  | notOpen hs => rcases hs with hs | hs <;> cases hs
  | closed _ hlate => exact hlate

section

variable {env : Env} {w : World} {id : UInt64}

theorem fails_reveal {round : Round} (hr : w.store.round id = some round) (b : Address)
    (value : I128) (nonce : BytesN 32) {f : Failure Error}
    (h : Fails (reveal id b value nonce) env w.frame f) :
    ∃ e, f = .error e ∧ (WindowError round.status env.timestamp round.revealDeadline e ∨
      (round.status = .Revealing ∧ env.timestamp ≤ round.revealDeadline ∧
        BidError env.toHost value nonce (w.store.state id b) e)) := by
  have hread : (stateRecords id).read w.store = w.store.state id := rfl
  cases hs : round.status with
  | Open =>
    simp [reveal, getRound, hr, hs] at h
    exact ⟨_, h, Or.inl (.notOpen (Or.inl rfl))⟩
  | Cleared =>
    simp [reveal, getRound, hr, hs] at h
    exact ⟨_, h, Or.inl (.notOpen (Or.inr rfl))⟩
  | Settled =>
    simp [reveal, getRound, hr, hs] at h
    exact ⟨_, h, Or.inl (.settled rfl)⟩
  | Voided =>
    simp [reveal, getRound, hr, hs] at h
    exact ⟨_, h, Or.inl (.voided rfl)⟩
  | Revealing =>
    simp [reveal, getRound, hr, hs, getState, setState, Records.getOrFail, Records.set,
      hread] at h
    rcases h with ⟨ht, hf⟩ | ⟨ht, h⟩
    · exact ⟨_, hf, Or.inl (.closed rfl ht)⟩
    · rcases h with ⟨hnone, hf⟩ | ⟨state, hstate, h⟩
      · exact ⟨_, hf, Or.inr ⟨rfl, ht, by rw [hnone]; exact .missing⟩⟩
      · rw [hstate]
        rcases h with ⟨hsome, hf⟩ | ⟨-, ⟨hash, hf⟩ | ⟨-, hexceeds, hf⟩⟩
        · exact ⟨_, hf, Or.inr ⟨rfl, ht, .revealed hsome⟩⟩
        · exact ⟨_, hf, Or.inr ⟨rfl, ht, .mismatch hash⟩⟩
        · exact ⟨_, hf, Or.inr ⟨rfl, ht, .exceeds hexceeds⟩⟩

theorem fails_decoded {envelope : Bytes} {f : Failure Error} {g : Frame} :
    Fails (decoded envelope) env g f ↔ ∃ e, decodeEnvelope envelope = .error e ∧ f = .error e := by
  unfold decoded
  split
  · next payload hok => simp [hok]
  · next e he => simp [he]

theorem fails_checkReveal {mode : RoundMode} {escrow : I128} {amount : Option I128}
    {f : Failure Error} {g : Frame} (h : Fails (checkReveal mode escrow amount) env g f) :
    (mode = .Auction ∧ (f = .error .MalformedPayload ∨ f = .error .InvalidAmount ∨
      f = .error .BidExceedsEscrow)) ∨
    (mode = .ReceiptOnly ∧ escrow ≠ 0 ∧ f = .error .EscrowNotAllowed) := by
  cases mode with
  | Auction =>
    refine Or.inl ⟨rfl, ?_⟩
    simp only [checkReveal, fails_bind, fails_okOr, fails_failIf] at h
    rcases h with ⟨-, hf⟩ | ⟨_, _, -, ⟨-, hf⟩ | ⟨_, _, -, -, hf⟩⟩
    · exact Or.inl hf
    · exact Or.inr (Or.inl hf)
    · exact Or.inr (Or.inr hf)
  | ReceiptOnly =>
    simp only [checkReveal, fails_failIf] at h
    exact Or.inr ⟨rfl, h⟩

theorem fails_revealV2 {round : RoundV2} (hr : w.store.roundV2 id = some round) (b : Address)
    (envelope : Bytes) {f : Failure Error}
    (h : Fails (revealV2 id b envelope) env w.frame f) :
    ∃ e, f = .error e ∧ (WindowError round.status env.timestamp round.revealDeadline e ∨
      (round.status = .Revealing ∧ env.timestamp ≤ round.revealDeadline ∧
        SubmissionError env.toHost round.mode envelope (w.store.submissionV2 id b) e)) := by
  have hread : (submissionRecords id).read w.store = w.store.submissionV2 id := rfl
  cases hs : round.status with
  | Open =>
    simp [revealV2, getRoundV2, hr, hs] at h
    exact ⟨_, h, Or.inl (.notOpen (Or.inl rfl))⟩
  | Cleared =>
    simp [revealV2, getRoundV2, hr, hs] at h
    exact ⟨_, h, Or.inl (.notOpen (Or.inr rfl))⟩
  | Settled =>
    simp [revealV2, getRoundV2, hr, hs] at h
    exact ⟨_, h, Or.inl (.settled rfl)⟩
  | Voided =>
    simp [revealV2, getRoundV2, hr, hs] at h
    exact ⟨_, h, Or.inl (.voided rfl)⟩
  | Revealing =>
    simp [revealV2, getRoundV2, hr, hs, getSubmissionV2, setSubmissionV2, Records.getOrFail,
      Records.set, hread] at h
    rcases h with ⟨ht, hf⟩ | ⟨ht, h⟩
    · exact ⟨_, hf, Or.inl (.closed rfl ht)⟩
    · suffices hrecord : ∃ e, f = .error e ∧
          SubmissionError env.toHost round.mode envelope (w.store.submissionV2 id b) e from
        hrecord.imp fun e he => ⟨he.1, Or.inr ⟨rfl, ht, he.2⟩⟩
      rcases h with ⟨hnone, hf⟩ | ⟨state, hstate, h⟩
      · exact ⟨_, hf, by rw [hnone]; exact .missing⟩
      · rw [hstate]
        rcases h with ⟨hsome, hf⟩ | ⟨-, ⟨hash, hf⟩ | ⟨-, hdecode | ⟨payload, _, -, hcheck⟩⟩⟩
        · exact ⟨_, hf, .revealed hsome⟩
        · exact ⟨_, hf, .mismatch hash⟩
        · obtain ⟨e, he, hf⟩ := fails_decoded.mp hdecode
          exact ⟨e, hf, .malformed he⟩
        · rcases fails_checkReveal hcheck with ⟨hm, hf | hf | hf⟩ | ⟨hm, hescrow, hf⟩
          · exact ⟨_, hf, .noAmount hm⟩
          · exact ⟨_, hf, .notPositive hm⟩
          · exact ⟨_, hf, .exceeds hm⟩
          · exact ⟨_, hf, .escrowed hm hescrow⟩

end

end SubRosa
