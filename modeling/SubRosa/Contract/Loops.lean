import SubRosa.Contract.RoundsV2

/-!
# What the bidder loops do

Every payout loop reads each bidder's record once, makes the transfers this
record calls for and marks it. On a list without repetitions whose records are
all there and unsettled, such a loop is one batch of transfers and one update
of the records; it fails exactly when the batch fails.
-/

namespace SubRosa

open MachineInt Invocation TokenLedger EscrowRecord

variable {S : Type}

/-- Records of the listed bidders changed by `mark`. -/
def Records.markAll (R : Records S) (mark : S → S) (bidders : List Address) (s : Store) : Store :=
  R.write s fun b => if b ∈ bidders then (R.read s b).map mark else R.read s b

/-- The transfers the records of the listed bidders call for, in list order. -/
def Records.batch (R : Records S) (pays : Address → S → List Transfer) (bidders : List Address)
    (s : Store) : List Transfer :=
  bidders.flatMap fun b => ((R.read s b).map (pays b)).getD []

section Batch

variable (R : Records S)

theorem Records.markAll_nil (mark : S → S) (s : Store) : R.markAll mark [] s = s := by
  simp [Records.markAll]

theorem Records.markAll_cons {mark : S → S} {b : Address} {l : List Address} (hb : b ∉ l)
    {s : Store} {st : S}
    (hst : R.read s b = some st) :
    R.markAll mark l (R.put s b (mark st)) = R.markAll mark (b :: l) s := by
  unfold Records.markAll Records.put
  rw [Records.write_write, Records.read_write]
  congr 1
  funext c
  by_cases hc : c = b
  · subst hc
    simp [hb, hst]
  · simp [hc]

theorem Records.batch_put {pays : Address → S → List Transfer} {b : Address} {l : List Address}
    (hb : b ∉ l) (s : Store) (st : S) :
    R.batch pays l (R.put s b st) = R.batch pays l s := by
  unfold Records.batch
  apply List.flatMap_congr
  intro c hc
  have hne : c ≠ b := by rintro rfl; exact hb hc
  rw [Records.read_put, Function.update_of_ne hne]

/-- **Loop rule.** -/
theorem yields_forM_records (body : Address → Contract Unit) (mark : S → S)
    (pays : Address → S → List Transfer) (ready : Address → S → Prop) (env : Env)
    (hbody : ∀ b st f f', R.read f.store b = some st → ready b st →
      (Yields (body b) env f ⟨⟩ f' ↔
        ∃ c, transferAll? env.accepts f.balances (pays b st) = some c ∧
          f' = (f.withStore (R.put f.store b (mark st))).paid c (pays b st)))
    {l : List Address} (hl : l.Nodup) {f : Frame}
    (hready : ∀ b ∈ l, ∃ st, R.read f.store b = some st ∧ ready b st) (f' : Frame) :
    Yields (forM l body) env f ⟨⟩ f' ↔
      ∃ c, transferAll? env.accepts f.balances (R.batch pays l f.store) = some c ∧
        f' = (f.withStore (R.markAll mark l f.store)).paid c (R.batch pays l f.store) := by
  induction l generalizing f with
  | nil =>
    rw [yields_forM_nil, Records.markAll_nil]
    simp [Records.batch]
  | cons b l ih =>
    obtain ⟨hb, hl⟩ := List.nodup_cons.mp hl
    obtain ⟨st, hst, hrd⟩ := hready b (by simp)
    have hbatch : R.batch pays (b :: l) f.store = pays b st ++ R.batch pays l f.store := by
      simp [Records.batch, hst]
    have hrest : ∀ c, ∀ d ∈ l, ∃ sd, R.read
        ((f.withStore (R.put f.store b (mark st))).paid c (pays b st)).store d = some sd ∧
          ready d sd := by
      intro c d hd
      obtain ⟨sd, hsd, hrd⟩ := hready d (by simp [hd])
      have hne : d ≠ b := by rintro rfl; exact hb hd
      exact ⟨sd, by simp [Function.update_of_ne hne, hsd], hrd⟩
    rw [yields_forM_cons, hbatch, transferAll?_append]
    constructor
    · rintro ⟨g, hg, hloop⟩
      obtain ⟨c, hc, rfl⟩ := (hbody b st f g hst hrd).mp hg
      obtain ⟨d, hd, rfl⟩ := (ih hl (hrest c)).mp hloop
      simp only [Frame.paid_store, Frame.withStore_store, Frame.paid_balances,
        R.batch_put hb, R.markAll_cons hb hst, Frame.paid_withStore, Frame.withStore_withStore,
        Frame.paid_paid] at hd ⊢
      exact ⟨d, by rw [hc, Option.bind_some, hd], rfl⟩
    · rintro ⟨d, hd, rfl⟩
      obtain ⟨c, hc, hd⟩ := Option.bind_eq_some_iff.mp hd
      refine ⟨_, (hbody b st f _ hst hrd).mpr ⟨c, hc, rfl⟩, (ih hl (hrest c)).mpr ⟨d, ?_⟩⟩
      simp only [Frame.paid_store, Frame.withStore_store, Frame.paid_balances,
        R.batch_put hb, R.markAll_cons hb hst, Frame.paid_withStore, Frame.withStore_withStore,
        Frame.paid_paid, and_true]
      exact hd

end Batch

/-! ## The loops of the contract -/

/-- A positive amount of one asset from the contract. -/
def payment (contract asset target : Address) (amount : I128) : List Transfer :=
  if 0 < amount then [⟨asset, contract, target, amount.toInt⟩] else []

theorem yields_payPositive (asset target : Address) (amount : I128) (env : Env) (f f' : Frame)
    (u : Unit) :
    Yields (payPositive asset target amount) env f u f' ↔
      ∃ c, transferAll? env.accepts f.balances
          (payment env.currentContract asset target amount) = some c ∧
        f' = f.paid c (payment env.currentContract asset target amount) := by
  unfold payPositive payment
  simp only [yields_bind, yields_read]
  split
  · simp [yields_transfer]
  · simp

section Payouts

variable [EscrowRecord S] (R : Records S) (env : Env)

/-- What settlement pays because of one record. -/
def settlement (contract asset operator winner : Address) (winningBid : I128) (b : Address)
    (st : S) : List Transfer :=
  if b = winner then
    ⟨asset, contract, operator, winningBid.toInt⟩ ::
      (if winningBid < escrow st then
        [⟨asset, contract, b, (escrow st).toInt - winningBid.toInt⟩] else [])
  else payment contract asset b (escrow st)

/-- The escrow less the bid, when the escrow covers it. -/
theorem yields_payBidder (asset operator winner : Address) {winningBid : I128}
    (h0 : 0 ≤ winningBid.toInt) {b : Address} {st : S}
    (hcover : b = winner → winningBid ≤ escrow st) (f f' : Frame) (u : Unit) :
    Yields (payBidder asset operator winner winningBid b st) env f u f' ↔
      ∃ c, transferAll? env.accepts f.balances
          (settlement env.currentContract asset operator winner winningBid b st) = some c ∧
        f' = f.paid c (settlement env.currentContract asset operator winner winningBid b st) := by
  unfold payBidder settlement
  simp only [yields_bind, yields_read]
  by_cases hb : b = winner
  · have hle := hcover hb
    obtain ⟨surplus, hs, hval⟩ := I128.checkedSub_of_nonneg (le_trans h0 hle) h0
    have hpay : payment env.currentContract asset b surplus =
        if winningBid < escrow st then
          [⟨asset, env.currentContract, b, (escrow st).toInt - winningBid.toInt⟩] else [] := by
      unfold payment
      simp only [I128.lt_def, hval, I128.toInt_zero, sub_pos]
    simp only [if_pos hb, yields_bind, yields_transfer, yields_okOrTrap, hs, yields_payPositive,
      ← hpay]
    rw [← List.singleton_append, transferAll?_append]
    constructor
    · rintro ⟨_, _, ⟨rfl, rfl⟩, _, _, ⟨-, c, hc, rfl⟩, _, _, ⟨heq, rfl⟩, d, hd, rfl⟩
      obtain rfl := Option.some_inj.mp heq
      exact ⟨d, by rw [hc, Option.bind_some]; exact hd, by rw [Frame.paid_paid]⟩
    · rintro ⟨d, hd, rfl⟩
      obtain ⟨c, hc, hd⟩ := Option.bind_eq_some_iff.mp hd
      exact ⟨env, f, ⟨rfl, rfl⟩, ⟨⟩, _, ⟨Or.inl rfl, c, hc, rfl⟩, surplus, _, ⟨rfl, rfl⟩, d,
        hd, by rw [Frame.paid_paid]⟩
  · simp [if_neg hb, yields_payPositive]

theorem yields_settleBidders (asset operator winner : Address) {winningBid : I128}
    (h0 : 0 ≤ winningBid.toInt) {l : List Address} (hl : l.Nodup) {f : Frame}
    (hready : ∀ b ∈ l, ∃ st, R.read f.store b = some st ∧ settled st = false ∧
      (b = winner → winningBid ≤ escrow st)) (f' : Frame) (u : Unit) :
    Yields (settleBidders R asset operator winner winningBid l) env f u f' ↔
      ∃ c, transferAll? env.accepts f.balances (R.batch
          (settlement env.currentContract asset operator winner winningBid) l f.store) = some c ∧
        f' = (f.withStore (R.markAll markSettled l f.store)).paid c (R.batch
          (settlement env.currentContract asset operator winner winningBid) l f.store) := by
  refine yields_forM_records R _ _ _ _ _ (fun b st f f' hst ⟨hs, hcover⟩ => ?_) hl hready f'
  simp [hst, hs, yields_payBidder env asset operator winner h0 hcover]

/-- The loop of the first generation leaves a record without escrow alone, so
its records all have some. -/
theorem yields_refundBidders (asset : Address) {l : List Address} (hl : l.Nodup) {f : Frame}
    (hready : ∀ b ∈ l, ∃ st, R.read f.store b = some st ∧ settled st = false ∧ 0 < escrow st)
    (f' : Frame) (u : Unit) :
    Yields (refundBidders R asset l) env f u f' ↔
      ∃ c, transferAll? env.accepts f.balances (R.batch
          (fun b st => payment env.currentContract asset b (escrow st)) l f.store) = some c ∧
        f' = (f.withStore (R.markAll markSettled l f.store)).paid c (R.batch
          (fun b st => payment env.currentContract asset b (escrow st)) l f.store) := by
  refine yields_forM_records R _ _ _ _ _ (fun b st f f' hst ⟨hs, hpos⟩ => ?_) hl hready f'
  simp [hst, hs, hpos, payment, yields_transfer]

theorem yields_refundBiddersV2 (asset : Address) {l : List Address} (hl : l.Nodup) {f : Frame}
    (hready : ∀ b ∈ l, ∃ st, R.read f.store b = some st ∧ settled st = false)
    (f' : Frame) (u : Unit) :
    Yields (refundBiddersV2 R asset l) env f u f' ↔
      ∃ c, transferAll? env.accepts f.balances (R.batch
          (fun b st => payment env.currentContract asset b (escrow st)) l f.store) = some c ∧
        f' = (f.withStore (R.markAll markSettled l f.store)).paid c (R.batch
          (fun b st => payment env.currentContract asset b (escrow st)) l f.store) := by
  refine yields_forM_records R _ _ _ _ _ (fun b st f f' hst hs => ?_) hl hready f'
  by_cases hpos : 0 < escrow st
  · simp [hst, hs, hpos, payment, yields_transfer]
  · simp [hst, hs, hpos, payment]

end Payouts

theorem yields_finalizeSubmissions (id : UInt64) {l : List Address} (hl : l.Nodup) {f : Frame}
    (env : Env) (hready : ∀ b ∈ l, ∃ st, f.store.submissionV2 id b = some st) (f' : Frame)
    (u : Unit) :
    Yields (finalizeSubmissions id l) env f u f' ↔
      f' = f.withStore ((submissionRecords id).markAll markSettled l f.store) := by
  have hloop : Yields (finalizeSubmissions id l) env f ⟨⟩ f' ↔ _ :=
    yields_forM_records (submissionRecords id) _ markSettled (fun _ _ => []) (fun _ _ => True) env
      (fun b st f f' (hst : _ = some st) _ => by
        simp [tryGetSubmissionV2, setSubmissionV2, hst, markSettled])
      hl (f := f) (fun b hb => by
        obtain ⟨st, hst⟩ := hready b hb
        exact ⟨st, hst, trivial⟩) f'
  have hnil : (submissionRecords id).batch (fun _ _ => []) l f.store = [] := by
    unfold Records.batch
    rw [List.flatMap_eq_nil_iff]
    intro b _
    cases (submissionRecords id).read f.store b <;> rfl
  simp only [hnil, transferAll?_nil, Option.some_inj, exists_eq_left',
    Frame.withStore_paid_nil] at hloop
  exact hloop

end SubRosa
