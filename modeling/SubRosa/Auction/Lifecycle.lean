import SubRosa.Auction.Chronicle
import SubRosa.Auction.Frame

/-!
# The life of a round

Where the status can go from where it is, and what a step leaves alone on the
way. Everything a round keeps for good is read off one step lemma.
-/

namespace SubRosa

open MachineInt

/-- The moves of the status; only a round without payment is finalized. -/
inductive SealedRound.Next (r : SealedRound) : Status → Status → Prop
  | opened : Next r .Open .Revealing
  | abandoned : Next r .Open .Voided
  | cleared : Next r .Revealing .Cleared
  | unsold : Next r .Revealing .Voided
  | finalized : r.terms.payment = none → Next r .Revealing .Settled
  | settled : Next r .Cleared .Settled

def Status.Terminal : Status → Prop
  | .Settled => True
  | .Voided => True
  | _ => False

/-- The commitment and the escrow of a bidder. -/
def SealedRound.pledge (r : SealedRound) (b : Address) : Option (BytesN 32 × Int) :=
  (r.entry b).map fun e => (e.commitment, e.escrow)

/-- What one step keeps. -/
structure SealedRound.Progress (r r' : SealedRound) : Prop where
  terms : r'.terms = r.terms
  status : r'.status = r.status ∨ r.Next r.status r'.status
  bidders : r.bidders <+: r'.bidders
  sealed : r.status ≠ .Open → r'.bidders = r.bidders ∧ r'.pledge = r.pledge
  outcome : r'.winner = r.winner ∧ r'.winningBid = r.winningBid ∨
    r.status = .Revealing ∧ r'.status = .Cleared

section

variable {host : Host} {config : GlobalConfig} {t : Nat} {r r' : SealedRound} {action : Action}
  {ts : List Transfer} {key : RoundKey} {c c' : Chain} {events : List Event}

theorem SealedRound.Progress.refl (r : SealedRound) : r.Progress r :=
  ⟨rfl, Or.inl rfl, List.prefix_rfl, fun _ => ⟨rfl, rfl⟩, Or.inl ⟨rfl, rfl⟩⟩

theorem SealedRound.pledge_close (r : SealedRound) (status : Status) :
    (r.close status).pledge = r.pledge := by
  funext b
  show ((r.entry b).map Entry.close).map _ = _
  rw [Option.map_map]
  rfl

/-- Closing a round moves nothing but its status. -/
theorem SealedRound.Progress.close {status : Status} (h : r.Next r.status status) :
    r.Progress (r.close status) :=
  ⟨rfl, Or.inr h, List.prefix_rfl, fun _ => ⟨rfl, r.pledge_close status⟩, Or.inl ⟨rfl, rfl⟩⟩

theorem SealedRound.Progress.voided (h : r.Next r.status .Voided) : r.Progress r.voided := by
  unfold SealedRound.voided
  split
  · exact SealedRound.Progress.close h
  · exact ⟨rfl, Or.inr h, List.prefix_rfl, fun _ => ⟨rfl, rfl⟩, Or.inl ⟨rfl, rfl⟩⟩

/-- **Step lemma.** -/
theorem Transition.progress (h : Transition host t r action ts r') : r.Progress r' := by
  cases h with
  | commit b commitment escrow hs =>
    refine ⟨rfl, Or.inl rfl, ?_, fun hnot => absurd hs hnot, Or.inl ⟨rfl, rfl⟩⟩
    show r.bidders <+: if b ∈ r.bidders then r.bidders else r.bidders ++ [b]
    split
    · exact List.prefix_rfl
    · exact List.prefix_append ..
  | opening hs =>
    exact ⟨rfl, Or.inr (hs ▸ SealedRound.Next.opened), List.prefix_rfl, fun _ => ⟨rfl, rfl⟩,
      Or.inl ⟨rfl, rfl⟩⟩
  | reveal b e x amount _ _ he =>
    refine ⟨rfl, Or.inl rfl, List.prefix_rfl, fun _ => ⟨rfl, ?_⟩, Or.inl ⟨rfl, rfl⟩⟩
    funext c
    by_cases hc : c = b
    · subst hc
      simp [SealedRound.pledge, SealedRound.setEntry, he]
    · simp [SealedRound.pledge, SealedRound.setEntry, Function.update_of_ne hc]
  | clear w bid hs =>
    exact ⟨rfl, Or.inr (hs ▸ SealedRound.Next.cleared), List.prefix_rfl, fun _ => ⟨rfl, rfl⟩,
      Or.inr ⟨hs, rfl⟩⟩
  | clearVoid hs => exact SealedRound.Progress.voided (hs ▸ SealedRound.Next.unsold)
  | finalize hs _ hp => exact SealedRound.Progress.close (hs ▸ SealedRound.Next.finalized hp)
  | settle w hs => exact SealedRound.Progress.close (hs ▸ SealedRound.Next.settled)
  | void hs => exact SealedRound.Progress.voided (hs ▸ SealedRound.Next.abandoned)

/-- No step starts from a terminal round. -/
theorem Transition.not_terminal (h : Transition host t r action ts r') :
    ¬ r.status.Terminal := by
  have hstatus : r.status = .Open ∨ r.status = .Revealing ∨ r.status = .Cleared := by
    cases h with
    | commit _ _ _ hs => exact Or.inl hs
    | opening hs => exact Or.inl hs
    | reveal _ _ _ _ hs => exact Or.inr (Or.inl hs)
    | clear _ _ hs => exact Or.inr (Or.inl hs)
    | clearVoid hs => exact Or.inr (Or.inl hs)
    | finalize hs => exact Or.inr (Or.inl hs)
    | settle _ hs => exact Or.inr (Or.inr hs)
    | void hs => exact Or.inl hs
  rcases hstatus with hs | hs | hs <;> simp [hs, Status.Terminal]

/-- The call behind an event. -/
theorem Step.call {tx : Transaction} {call : Call} {value : Value}
    (h : Step host c (.called tx call value ts) c') :
    c.now ≤ tx.timestamp ∧ tx.auths host.currentContract = false ∧ c'.now = tx.timestamp ∧
      ∃ o, invoke host tx call c.world = .ok o ∧ o.value = value ∧ o.transfers = ts ∧
        o.world = c'.world := by
  cases h with
  | called hnow hself hcall => exact ⟨hnow, hself, rfl, _, hcall, rfl, rfl, rfl⟩

/-- What a step on the chain does to a round that exists. -/
theorem Step.progress {e : Event} (h : Step host c e c') (hs : c.Sound host config)
    (hr : c.world.view key = some r) :
    ∃ r', c'.world.view key = some r' ∧ r.Progress r' := by
  have hmoves := Step.moves h hs key
  rw [hr] at hmoves
  generalize c'.world.view key = o at hmoves
  generalize e.movedFor key = ts at hmoves
  cases hmoves with
  | idle => exact ⟨r, rfl, SealedRound.Progress.refl r⟩
  | stepped _ _ _ htrans => exact ⟨_, rfl, htrans.progress⟩

/-- **Rule for what a round keeps along a run.** -/
theorem Run.keeps {I : SealedRound → Prop} (hkeep : ∀ q q', I q → q.Progress q' → I q')
    (h : Run host c events c') (hs : c.Sound host config) (hr : c.world.view key = some r)
    (h0 : I r) : ∃ r', c'.world.view key = some r' ∧ I r' := by
  refine Runs.Run.invariant_of (J := Chain.Sound host config)
    (I := fun d => ∃ q, d.world.view key = some q ∧ I q)
    (fun _ _ _ hc hstep => Step.sound hstep hc) (fun d e d' hd hold hstep => ?_) h hs ⟨r, hr, h0⟩
  obtain ⟨q, hq, hI⟩ := hold
  obtain ⟨q', hq', hprogress⟩ := Step.progress hstep hd hq
  exact ⟨q', hq', hkeep q q' hI hprogress⟩

/-- A set of statuses that no move leaves. -/
theorem SealedRound.Progress.stays {P : Status → Prop}
    (hP : ∀ (q : SealedRound) s s', P s → q.Next s s' → P s') (h : r.Progress r')
    (hr : P r.status) : P r'.status := by
  rcases h.status with heq | hnext
  · rwa [heq]
  · exact hP r _ _ hr hnext

theorem SealedRound.Next.not_open {s s' : Status} (h : r.Next s s') : s' ≠ .Open := by
  cases h <;> nofun

/-- The reveal window does not open again. -/
theorem SealedRound.Next.closed {s s' : Status} (h : r.Next s s')
    (hs : s ≠ .Open ∧ s ≠ .Revealing) : s' ≠ .Open ∧ s' ≠ .Revealing := by
  cases h <;> simp_all

/-! ## The stored record -/

/-- The stored round is an earlier one with another progress. -/
def Round.Continues (round round' : Round) : Prop :=
  ∃ status bidders winner winningBid, round' = { round with status, bidders, winner, winningBid }

def RoundV2.Continues (round round' : RoundV2) : Prop :=
  ∃ status bidders winner winningBid, round' = { round with status, bidders, winner, winningBid }

theorem Step.round {e : Event} (h : Step host c e c') (hs : c.Sound host config) {id : UInt64}
    {round : Round} (hr : c.world.store.round id = some round) :
    ∃ round', c'.world.store.round id = some round' ∧ round.Continues round' := by
  have hsame : ∃ round', c.world.store.round id = some round' ∧ round.Continues round' :=
    ⟨round, hr, _, _, _, _, rfl⟩
  cases h with
  | called hnow hself hcall =>
    have hw := hs.world.later (UInt64.le_iff_toNat_le.mp hnow)
    obtain ⟨key, -, href⟩ := invoke_refines hw hself hcall
    split at href
    · obtain ⟨status, bidders, winner, winningBid, hnew⟩ := href.evolves.progress id round hr
      exact ⟨_, hnew, status, bidders, winner, winningBid, rfl⟩
    · have hother : RoundKey.v1 id ≠ key := by
        rintro rfl
        have hunused := (hw.fresh href.grows).2.round
        simp [RoundKey.id, hr] at hunused
      obtain ⟨round', hround', hcontinues⟩ := hsame
      exact ⟨round', (href.grows.round id hother).trans hround', hcontinues⟩
  | failed => exact hsame
  | outside => exact hsame
  | revealStateLost => exact hsame

theorem Step.roundV2 {e : Event} (h : Step host c e c') (hs : c.Sound host config) {id : UInt64}
    {round : RoundV2} (hr : c.world.store.roundV2 id = some round) :
    ∃ round', c'.world.store.roundV2 id = some round' ∧ round.Continues round' := by
  have hsame : ∃ round', c.world.store.roundV2 id = some round' ∧ round.Continues round' :=
    ⟨round, hr, _, _, _, _, rfl⟩
  cases h with
  | called hnow hself hcall =>
    have hw := hs.world.later (UInt64.le_iff_toNat_le.mp hnow)
    obtain ⟨key, -, href⟩ := invoke_refines hw hself hcall
    split at href
    · obtain ⟨status, bidders, winner, winningBid, hnew⟩ := href.evolves.progressV2 id round hr
      exact ⟨_, hnew, status, bidders, winner, winningBid, rfl⟩
    · have hother : RoundKey.v2 id ≠ key := by
        rintro rfl
        have hunused := (hw.fresh href.grows).2.roundV2
        simp [RoundKey.id, hr] at hunused
      obtain ⟨round', hround', hcontinues⟩ := hsame
      exact ⟨round', (href.grows.roundV2 id hother).trans hround', hcontinues⟩
  | failed => exact hsame
  | outside => exact hsame
  | revealStateLost => exact hsame

theorem Run.round (h : Run host c events c') (hs : c.Sound host config) {id : UInt64}
    {round : Round} (hr : c.world.store.round id = some round) :
    ∃ round', c'.world.store.round id = some round' ∧ round.Continues round' := by
  refine Runs.Run.invariant_of (J := Chain.Sound host config)
    (I := fun d => ∃ round', d.world.store.round id = some round' ∧ round.Continues round')
    (fun _ _ _ hc hstep => Step.sound hstep hc) (fun d e d' hd hold hstep => ?_) h hs
    ⟨round, hr, _, _, _, _, rfl⟩
  obtain ⟨_, hq, _, _, _, _, rfl⟩ := hold
  obtain ⟨_, hq', _, _, _, _, rfl⟩ := Step.round hstep hd hq
  exact ⟨_, hq', _, _, _, _, rfl⟩

theorem Run.roundV2 (h : Run host c events c') (hs : c.Sound host config) {id : UInt64}
    {round : RoundV2} (hr : c.world.store.roundV2 id = some round) :
    ∃ round', c'.world.store.roundV2 id = some round' ∧ round.Continues round' := by
  refine Runs.Run.invariant_of (J := Chain.Sound host config)
    (I := fun d => ∃ round', d.world.store.roundV2 id = some round' ∧ round.Continues round')
    (fun _ _ _ hc hstep => Step.sound hstep hc) (fun d e d' hd hold hstep => ?_) h hs
    ⟨round, hr, _, _, _, _, rfl⟩
  obtain ⟨_, hq, _, _, _, _, rfl⟩ := hold
  obtain ⟨_, hq', _, _, _, _, rfl⟩ := Step.roundV2 hstep hd hq
  exact ⟨_, hq', _, _, _, _, rfl⟩

end

end SubRosa
