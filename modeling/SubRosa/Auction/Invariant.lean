import SubRosa.Auction.Model

/-!
# The invariant of a sealed round

`Sound` is what every reachable round satisfies whatever was called in which
order: the bidder list and the entries agree, every entry is consistent with
its own commitment and escrow, and the status says what is settled, who won
and where the clock stands. Creation establishes it and every step keeps it.
-/

namespace SubRosa

open MachineInt

/-- An entry agrees with its commitment, its escrow and the terms. -/
structure Entry.Sound (host : Host) (terms : Terms) (e : Entry) : Prop where
  escrow : terms.EscrowOk e.escrow
  unopened : e.opened = none → e.amount = none ∧ e.valid = false
  opened : ∀ x, e.opened = some x → host.sha256 x = e.commitment ∧
    terms.format.Reads x e.amount ∧ terms.Admits e.escrow e.amount ∧
    e.valid = terms.validates e.amount

/-- The state invariant; `now` is the latest ledger time. -/
structure SealedRound.Sound (host : Host) (config : GlobalConfig) (now : Nat)
    (r : SealedRound) : Prop where
  nodup : r.bidders.Nodup
  capacity : r.bidders.length ≤ r.terms.capacity
  entered : ∀ b, b ∈ r.bidders ↔ (r.entry b).isSome = true
  outsiders : ∀ b ∈ r.bidders, b ≠ host.currentContract
  operator : r.terms.operator ≠ host.currentContract
  lot : ∀ asset amount, r.terms.lot = some (asset, amount) → 0 < amount
  auction : r.terms.payment = none → r.terms.lot = none
  scheduled : r.terms.revealRound ≠ 0
  beforeDrand : (r.terms.commitDeadline : Int) < r.terms.drandTime config
  afterDrand : r.terms.drandTime config < r.terms.revealDeadline
  entries : ∀ b e, r.entry b = some e → e.Sound host r.terms
  live : r.Live → ∀ b e, r.entry b = some e → e.settled = false
  unopened : r.status = .Open → ∀ b e, r.entry b = some e → e.opened = none
  pending : r.status = .Open ∨ r.status = .Revealing ∨ r.status = .Voided →
    r.winner = none ∧ r.winningBid = 0
  cleared : r.status = .Cleared → r.terms.payment.isSome = true ∧
    ∃ w, r.winner = some w ∧ r.best = some (w, r.winningBid)
  settled : r.status = .Settled → (∀ b e, r.entry b = some e → e.settled = true) ∧
    match r.terms.payment with
    | some _ => ∃ w, r.winner = some w ∧ r.best = some (w, r.winningBid)
    | none => r.winner = none ∧ r.winningBid = 0
  voided : r.status = .Voided → r.terms.payment.isSome = true →
    ∀ b e, r.entry b = some e → e.settled = true
  opened : r.status ≠ .Open → r.terms.commitDeadline < now
  closed : r.status ≠ .Open → r.status ≠ .Revealing → r.terms.revealDeadline < now

section Facts

variable {host : Host} {config : GlobalConfig} {now : Nat} {r : SealedRound}

theorem Terms.EscrowOk.nonneg {terms : Terms} {n : Int} (h : terms.EscrowOk n) : 0 ≤ n := by
  unfold Terms.EscrowOk at h
  split at h <;> omega

theorem Entry.Sound.close {terms : Terms} {e : Entry} (h : e.Sound host terms) :
    e.close.Sound host terms := ⟨h.escrow, h.unopened, h.opened⟩

theorem Entry.Sound.fresh {terms : Terms} {n : Int} (h : terms.EscrowOk n)
    (commitment : BytesN 32) : (Entry.fresh commitment n).Sound host terms :=
  ⟨h, fun _ => ⟨rfl, rfl⟩, fun x hx => by simp [Entry.fresh] at hx⟩

/-- A valid amount of an auction is positive and covered by the escrow. -/
theorem Entry.Sound.validBid {terms : Terms} {e : Entry} (h : e.Sound host terms)
    (hp : terms.payment.isSome = true) {v : Int} (hv : e.validBid = some v) :
    e.amount = some v ∧ 0 < v ∧ v ≤ e.escrow := by
  unfold Entry.validBid at hv
  split at hv
  · next hvalid =>
    refine ⟨hv, ?_⟩
    cases ho : e.opened with
    | none =>
      rw [(h.unopened ho).2] at hvalid
      cases hvalid
    | some x =>
      obtain ⟨-, -, hadmits, hval⟩ := h.opened x ho
      obtain ⟨asset, ha⟩ := Option.isSome_iff_exists.mp hp
      simp only [Terms.Admits, ha, hv, Option.some_inj, exists_eq_left'] at hadmits
      refine ⟨?_, hadmits.1⟩
      cases hf : terms.format with
      | envelope => exact hadmits.2 hf
      | bid =>
        rw [hvalid, hv] at hval
        simpa [Terms.validates, hf] using hval.symm
  · cases hv

theorem SealedRound.Sound.validBid (h : r.Sound host config now)
    (hp : r.terms.payment.isSome = true) {b : Address} {v : Int} (hv : r.validBid b = some v) :
    ∃ e, r.entry b = some e ∧ e.amount = some v ∧ e.valid = true ∧ 0 < v ∧ v ≤ e.escrow := by
  obtain ⟨e, he, hev⟩ := Option.bind_eq_some_iff.mp hv
  obtain ⟨ha, h0, hle⟩ := (h.entries b e he).validBid hp hev
  refine ⟨e, he, ha, ?_, h0, hle⟩
  unfold Entry.validBid at hev
  split at hev
  · assumption
  · cases hev

theorem SealedRound.Sound.escrowOf_nonneg (h : r.Sound host config now) (b : Address) :
    0 ≤ r.escrowOf b := by
  unfold SealedRound.escrowOf
  cases he : r.entry b with
  | none => simp
  | some e => exact (h.entries b e he).escrow.nonneg

/-- The winner of a cleared auction is a bidder whose escrow covers the bid. -/
theorem SealedRound.Sound.winner_covered (h : r.Sound host config now)
    (hp : r.terms.payment.isSome = true) {w : Address} {v : Int} (hb : r.best = some (w, v)) :
    w ∈ r.bidders ∧ 0 < v ∧ v ≤ r.escrowOf w := by
  have hbest := FirstBest.scan_eq_some hb
  obtain ⟨e, he, -, -, h0, hle⟩ := h.validBid hp hbest.1
  exact ⟨hbest.mem, h0, by simpa [SealedRound.escrowOf, he] using hle⟩

/-- Later the same round is still sound. -/
theorem SealedRound.Sound.later (h : r.Sound host config now) {now' : Nat} (hn : now ≤ now') :
    r.Sound host config now' :=
  { h with
    opened := fun hs => lt_of_lt_of_le (h.opened hs) hn
    closed := fun h₁ h₂ => lt_of_lt_of_le (h.closed h₁ h₂) hn }

theorem Created.sound {t : Nat} (h : Created host config t r) : r.Sound host config t where
  nodup := by simp [h.bidders]
  capacity := by simp [h.bidders]
  entered := by simp [h.bidders, h.entry]
  outsiders := by simp [h.bidders]
  operator := h.operator
  lot := h.lot
  auction := h.auction
  scheduled := h.scheduled
  beforeDrand := h.beforeDrand
  afterDrand := h.afterDrand
  entries b e he := by simp [h.entry] at he
  live _ b e he := by simp [h.entry] at he
  unopened _ b e he := by simp [h.entry] at he
  pending _ := ⟨h.winner, h.winningBid⟩
  cleared hs := by simp [h.status] at hs
  settled hs := by simp [h.status] at hs
  voided hs := by simp [h.status] at hs
  opened hs := absurd h.status hs
  closed hs := absurd h.status hs

theorem SealedRound.close_best (status : Status) : (r.close status).best = r.best := by
  unfold SealedRound.best
  apply FirstBest.scan_congr
  intro b _
  show ((r.entry b).map Entry.close).bind Entry.validBid = _
  rw [Option.bind_map]
  rfl

end Facts

/-! ## Every step keeps the invariant -/

section Steps

variable {host : Host} {config : GlobalConfig} {now t : Nat} {r : SealedRound}

theorem SealedRound.Sound.commit (h : r.Sound host config t) (hs : r.status = .Open)
    {b : Address} (hb : b ≠ host.currentContract)
    (hroom : b ∈ r.bidders ∨ r.bidders.length < r.terms.capacity)
    {commitment : BytesN 32} {n : Int} (hn : r.terms.EscrowOk n) :
    (r.enter b (Entry.fresh commitment n)).Sound host config t := by
  have hentry : ∀ c e, (r.enter b (Entry.fresh commitment n)).entry c = some e →
      e = Entry.fresh commitment n ∨ r.entry c = some e := by
    intro c e he
    by_cases hc : c = b
    · subst hc
      left
      simpa [enter, eq_comm] using he
    · right
      simpa [enter, Function.update_of_ne hc] using he
  have hstatus : (r.enter b (Entry.fresh commitment n)).status = .Open := hs
  refine { h with
    nodup := ?_, capacity := ?_, entered := ?_, outsiders := ?_, entries := ?_, live := ?_,
    unopened := ?_, cleared := fun hc => ?_, settled := fun hc => ?_, voided := fun hc => ?_ }
  · show (if b ∈ r.bidders then r.bidders else r.bidders ++ [b]).Nodup
    split
    · exact h.nodup
    · next hnot => exact List.nodup_append.mpr ⟨h.nodup, by simp, by
        rintro c hc d hd rfl
        exact hnot (List.mem_singleton.mp hd ▸ hc)⟩
  · show (if b ∈ r.bidders then r.bidders else r.bidders ++ [b]).length ≤ r.terms.capacity
    split
    · exact h.capacity
    · next hnot =>
      have := hroom.resolve_left hnot
      rw [List.length_append, List.length_singleton]
      omega
  · intro c
    show c ∈ (if b ∈ r.bidders then r.bidders else r.bidders ++ [b]) ↔
      (Function.update r.entry b (some (Entry.fresh commitment n)) c).isSome = true
    by_cases hc : c = b
    · subst hc
      split <;> simp [*]
    · rw [Function.update_of_ne hc, ← h.entered c]
      split <;> simp [hc]
  · intro c hc
    have hc : c ∈ (if b ∈ r.bidders then r.bidders else r.bidders ++ [b]) := hc
    split at hc
    · exact h.outsiders c hc
    · rcases List.mem_append.mp hc with hc | hc
      · exact h.outsiders c hc
      · rw [List.mem_singleton.mp hc]
        exact hb
  · intro c e he
    rcases hentry c e he with rfl | he
    · exact Entry.Sound.fresh hn commitment
    · exact h.entries c e he
  · intro _ c e he
    rcases hentry c e he with rfl | he
    · rfl
    · exact h.live (Or.inl hs) c e he
  · intro _ c e he
    rcases hentry c e he with rfl | he
    · rfl
    · exact h.unopened hs c e he
  all_goals (rw [hstatus] at hc; cases hc)

theorem SealedRound.Sound.opening (h : r.Sound host config t) (hs : r.status = .Open)
    (ht : r.terms.commitDeadline < t) : (r.withStatus .Revealing).Sound host config t where
  __ := h
  live _ := h.live (Or.inl hs)
  unopened hc := by cases hc
  pending _ := h.pending (Or.inl hs)
  cleared hc := by cases hc
  settled hc := by cases hc
  voided hc := by cases hc
  opened _ := ht
  closed _ hc := absurd rfl hc

theorem SealedRound.Sound.reveal (h : r.Sound host config t) (hs : r.status = .Revealing)
    {b : Address} {e : Entry} (he : r.entry b = some e) {x : Bytes} {amount : Option Int}
    (hash : host.sha256 x = e.commitment) (reads : r.terms.format.Reads x amount)
    (admits : r.terms.Admits e.escrow amount) :
    (r.setEntry b { e with opened := some x, amount, valid := r.terms.validates amount }).Sound
      host config t := by
  have hentry : ∀ c d, (r.setEntry b
      { e with opened := some x, amount, valid := r.terms.validates amount }).entry c = some d →
      d = { e with opened := some x, amount, valid := r.terms.validates amount } ∨
        r.entry c = some d := by
    intro c d hd
    by_cases hc : c = b
    · subst hc
      left
      simpa [setEntry, eq_comm] using hd
    · right
      simpa [setEntry, Function.update_of_ne hc] using hd
  refine { h with
    entered := ?_, entries := ?_, live := ?_, unopened := fun hc => ?_,
    cleared := fun hc => ?_, settled := fun hc => ?_, voided := fun hc => ?_ }
  · intro c
    show c ∈ r.bidders ↔ (Function.update r.entry b (some _) c).isSome = true
    by_cases hc : c = b
    · subst hc
      simp [h.entered c, he]
    · rw [Function.update_of_ne hc]
      exact h.entered c
  · intro c d hd
    rcases hentry c d hd with rfl | hd
    · exact ⟨(h.entries b e he).escrow, fun hn => by simp at hn, fun y hy => by
        obtain rfl := Option.some_inj.mp hy
        exact ⟨hash, reads, admits, rfl⟩⟩
    · exact h.entries c d hd
  · intro _ c d hd
    have hlive := h.live (Or.inr (Or.inl hs))
    rcases hentry c d hd with rfl | hd
    · exact hlive b e he
    · exact hlive c d hd
  all_goals (have hc : r.status = _ := hc; rw [hs] at hc; cases hc)

theorem SealedRound.Sound.clear (h : r.Sound host config t) (hs : r.status = .Revealing)
    (ht : r.terms.revealDeadline < t) (hp : r.terms.payment.isSome = true)
    {w : Address} {v : Int} (hb : r.best = some (w, v)) :
    SealedRound.Sound host config t
      { r with winner := some w, winningBid := v, status := .Cleared } where
  __ := h
  live _ := h.live (Or.inr (Or.inl hs))
  unopened hc := by cases hc
  pending hc := by rcases hc with hc | hc | hc <;> cases hc
  cleared _ := ⟨hp, w, rfl, hb⟩
  settled hc := by cases hc
  voided hc := by cases hc
  opened _ := h.opened (by rw [hs]; simp)
  closed _ _ := ht

theorem SealedRound.close_entry {status : Status} {b : Address} {e : Entry}
    (he : (r.close status).entry b = some e) : ∃ d, r.entry b = some d ∧ e = d.close := by
  obtain ⟨d, hd, hde⟩ := Option.map_eq_some_iff.mp he
  exact ⟨d, hd, hde.symm⟩

/-- Closing keeps what does not depend on the status. -/
theorem SealedRound.Sound.close_entries (h : r.Sound host config t) (status : Status) :
    (∀ b, b ∈ r.bidders ↔ ((r.close status).entry b).isSome = true) ∧
    (∀ b e, (r.close status).entry b = some e → e.Sound host r.terms) ∧
    (∀ b e, (r.close status).entry b = some e → e.settled = true) := by
  refine ⟨fun b => by simp [SealedRound.close, h.entered b], fun b e he => ?_, fun b e he => ?_⟩
  · obtain ⟨d, hd, rfl⟩ := close_entry he
    exact (h.entries b d hd).close
  · obtain ⟨d, hd, rfl⟩ := close_entry he
    rfl

theorem SealedRound.Sound.voided_sound (h : r.Sound host config t)
    (hs : r.status = .Open ∨ r.status = .Revealing) (ht : r.terms.revealDeadline < t) :
    r.voided.Sound host config t := by
  have hw := h.pending (by rcases hs with hs | hs <;> simp [hs])
  have hdead := h.beforeDrand
  have hdead' := h.afterDrand
  unfold SealedRound.voided
  split
  · obtain ⟨hentered, hentries, hsettled⟩ := h.close_entries .Voided
    exact { h with
      entered := hentered, entries := hentries
      live := fun hc => by rcases hc with hc | hc | hc <;> cases hc
      unopened := fun hc => by cases hc
      pending := fun _ => hw
      cleared := fun hc => by cases hc
      settled := fun hc => by cases hc
      voided := fun _ _ => hsettled
      opened := fun _ => by show r.terms.commitDeadline < t; omega
      closed := fun _ _ => ht }
  · next hnone =>
    exact { h with
      live := fun hc => by rcases hc with hc | hc | hc <;> cases hc
      unopened := fun hc => by cases hc
      pending := fun _ => hw
      cleared := fun hc => by cases hc
      settled := fun hc => by cases hc
      voided := fun _ hp => by
        have hp : r.terms.payment.isSome = true := hp
        rw [hnone] at hp
        cases hp
      opened := fun _ => by show r.terms.commitDeadline < t; omega
      closed := fun _ _ => ht }

theorem SealedRound.Sound.settled_sound (h : r.Sound host config t)
    (hw : match r.terms.payment with
      | some _ => ∃ w, r.winner = some w ∧ r.best = some (w, r.winningBid)
      | none => r.winner = none ∧ r.winningBid = 0)
    (ht : r.terms.revealDeadline < t) : (r.close .Settled).Sound host config t := by
  obtain ⟨hentered, hentries, hsettled⟩ := h.close_entries .Settled
  have hdead := h.beforeDrand
  have hdead' := h.afterDrand
  refine { h with
    entered := hentered, entries := hentries
    live := fun hc => by rcases hc with hc | hc | hc <;> cases hc
    unopened := fun hc => by cases hc
    pending := fun hc => by rcases hc with hc | hc | hc <;> cases hc
    cleared := fun hc => by cases hc
    settled := fun _ => ⟨hsettled, ?_⟩
    voided := fun hc => by cases hc
    opened := fun _ => by show r.terms.commitDeadline < t; omega
    closed := fun _ _ => ht }
  show match r.terms.payment with
    | some _ => ∃ w, r.winner = some w ∧ (r.close .Settled).best = some (w, r.winningBid)
    | none => r.winner = none ∧ r.winningBid = 0
  rwa [SealedRound.close_best]

/-- **Step lemma.** -/
theorem Transition.sound {action : Action} {ts : List Transfer} {r' : SealedRound}
    (step : Transition host t r action ts r') (h : r.Sound host config t) :
    r'.Sound host config t := by
  cases step with
  | commit b commitment n hs _ hb hroom hn => exact h.commit hs hb hroom hn
  | opening hs ht => exact h.opening hs ht
  | reveal b e x amount hs _ he _ hash reads admits => exact h.reveal hs he hash reads admits
  | clear w v hs ht hp hb => exact h.clear hs ht hp hb
  | clearVoid hs ht _ _ => exact h.voided_sound (Or.inr hs) ht
  | finalize hs ht hp =>
    refine h.settled_sound ?_ ht
    rw [hp]
    exact h.pending (Or.inr (Or.inl hs))
  | settle w hs _ hp =>
    refine h.settled_sound ?_ (h.closed (by simp [hs]) (by simp [hs]))
    obtain ⟨asset, ha⟩ := Option.isSome_iff_exists.mp hp
    rw [ha]
    exact (h.cleared hs).2
  | void hs ht => exact h.voided_sound (Or.inl hs) (by omega)

end Steps

end SubRosa
