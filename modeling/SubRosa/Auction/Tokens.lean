import SubRosa.Auction.Frame

/-!
# Tokens of any kind

Runs in which token contracts do what they like with the balances they keep:
while a call of the contract reaches them, and between calls. Two things they
cannot do: re-enter the contract, and, while a call reaches them, move another
asset, one that they hold themselves included. That is an event outside the
calls. What the contract stores and which transfers it asks for does not depend
on more than whether transfers succeed.
-/

namespace SubRosa

open MachineInt Invocation TokenLedger

def World.withBalances (w : World) (b : Balances) : World := { w with balances := b }

/-- Only the balances of assets that these transfers name may differ. -/
def AgreeOutside (ts : List Transfer) (b b' : Balances) : Prop :=
  ∀ asset, (∀ t ∈ ts, t.asset ≠ asset) → b' asset = b asset

/-- A step with tokens of any kind. A token that a call reaches sets its
balances as it likes before and after the transfers, so that transfers can go
through without funds and move anything; with `accepts` it refuses what it
likes. It does not move another asset then. Outside the calls every balance can
change. -/
inductive LooseStep (host : Host) : Chain → Event → Chain → Prop
  | called {c : Chain} {tx : Transaction} {call : Call} {o : Outcome} {before after : Balances} :
      c.now ≤ tx.timestamp → tx.auths host.currentContract = false →
      invoke host tx call (c.world.withBalances before) = .ok o →
      AgreeOutside o.transfers c.world.balances before →
      AgreeOutside o.transfers o.world.balances after →
      LooseStep host c (.called tx call o.value o.transfers)
        ⟨o.world.withBalances after, tx.timestamp⟩
  | failed {c : Chain} {tx : Transaction} {call : Call} {before : Balances} {e : Failure Error} :
      c.now ≤ tx.timestamp → tx.auths host.currentContract = false →
      invoke host tx call (c.world.withBalances before) = .error e →
      LooseStep host c (.failed tx call) ⟨c.world, tx.timestamp⟩
  | outside {c : Chain} (t : Transfer) (b : Balances) :
      LooseStep host c (.outside t) ⟨c.world.withBalances b, c.now⟩
  | revealStateLost {c : Chain} (roundId : UInt64) :
      LooseStep host c (.revealStateLost roundId) ⟨c.world.loseRevealState roundId, c.now⟩

abbrev LooseRun (host : Host) := Runs.Run (LooseStep host)

section

variable {host : Host} {config : GlobalConfig} {c c' : Chain} {events : List Event} {w : World}
  {now t : Nat} {r r' : SealedRound} {action : Action} {ts : List Transfer}

@[simp] theorem World.withBalances_store (w : World) (b : Balances) :
    (w.withBalances b).store = w.store := rfl

@[simp] theorem World.withBalances_view (w : World) (b : Balances) (key : RoundKey) :
    (w.withBalances b).view key = w.view key := by
  cases key <;> rfl

theorem World.withBalances_self (w : World) : w.withBalances w.balances = w := rfl

/-- Honest tokens are tokens. -/
theorem Step.loose {e : Event} (h : Step host c e c') : LooseStep host c e c' := by
  cases h with
  | called hnow hself hcall =>
    rw [← World.withBalances_self c.world] at hcall
    exact LooseStep.called hnow hself hcall (fun _ _ => rfl) fun _ _ => rfl
  | failed hnow hself hcall =>
    rw [← World.withBalances_self c.world] at hcall
    exact LooseStep.failed hnow hself hcall
  | outside => exact LooseStep.outside _ _
  | revealStateLost id => exact LooseStep.revealStateLost id

theorem Run.loose (h : Run host c events c') : LooseRun host c events c' := by
  induction h with
  | nil => exact Runs.Run.nil
  | snoc _ hstep ih => exact ih.snoc hstep.loose

/-- The invariant of a world does not mention balances. -/
theorem World.Sound.withBalances (h : w.Sound host config now) (b : Balances) :
    (w.withBalances b).Sound host config now :=
  { h with }

theorem LooseStep.sound {e : Event} (h : LooseStep host c e c')
    (hs : c.world.Sound host config c.now.toNat) : c'.world.Sound host config c'.now.toNat := by
  cases h with
  | called hnow hself hcall =>
    have hw := (hs.later (UInt64.le_iff_toNat_le.mp hnow)).withBalances
    exact (invoke_sound (hw _) hself hcall).withBalances _
  | failed hnow => exact hs.later (UInt64.le_iff_toNat_le.mp hnow)
  | outside _ b => exact hs.withBalances b
  | revealStateLost id => exact hs.loseRevealState id

theorem LooseRun.sound (h : LooseRun host c events c')
    (hs : c.world.Sound host config c.now.toNat) : c'.world.Sound host config c'.now.toNat :=
  h.invariant (I := fun d => d.world.Sound host config d.now.toNat)
    (fun _ _ _ hd hstep => LooseStep.sound hstep hd) hs

/-! ## The assets of a round -/

/-- The round pays with this asset or sells it. -/
def SealedRound.Names (r : SealedRound) (asset : Address) : Prop :=
  r.terms.payment = some asset ∨ ∃ amount, r.terms.lot = some (asset, amount)

theorem SealedRound.names_pay {contract b : Address} {n : Int} {u : Transfer}
    (h : u ∈ r.pay contract b n) : r.Names u.asset := by
  unfold SealedRound.pay at h
  split at h
  · next asset hasset =>
    split at h
    · rw [List.mem_singleton.mp h]
      exact Or.inl hasset
    · cases h
  · cases h

theorem SealedRound.names_lock {contract b : Address} {n : Int} {u : Transfer}
    (h : u ∈ r.lock contract b n) : r.Names u.asset := by
  unfold SealedRound.lock at h
  split at h
  · next asset hasset =>
    rw [List.mem_singleton.mp h]
    exact Or.inl hasset
  · cases h

theorem SealedRound.names_lotTo {contract b : Address} {u : Transfer}
    (h : u ∈ r.lotTo contract b) : r.Names u.asset := by
  unfold SealedRound.lotTo at h
  split at h
  · next asset amount hlot =>
    rw [List.mem_singleton.mp h]
    exact Or.inr ⟨amount, hlot⟩
  · cases h

theorem SealedRound.names_lotFrom {contract b : Address} {u : Transfer}
    (h : u ∈ r.lotFrom contract b) : r.Names u.asset := by
  unfold SealedRound.lotFrom at h
  split at h
  · next asset amount hlot =>
    rw [List.mem_singleton.mp h]
    exact Or.inr ⟨amount, hlot⟩
  · cases h

theorem SealedRound.names_refunds {contract : Address} {u : Transfer}
    (h : u ∈ r.refunds contract) : r.Names u.asset := by
  rcases List.mem_append.mp h with h | h
  · obtain ⟨b, -, h⟩ := List.mem_flatMap.mp h
    exact SealedRound.names_pay h
  · exact SealedRound.names_lotTo h

theorem SealedRound.names_payouts {contract w : Address} {u : Transfer}
    (h : u ∈ r.payouts contract w) : r.Names u.asset := by
  rcases List.mem_append.mp h with h | h
  · obtain ⟨b, -, h⟩ := List.mem_flatMap.mp h
    unfold SealedRound.payoutOf at h
    split at h
    · next asset hasset =>
      split at h
      · rcases List.mem_cons.mp h with rfl | h
        · exact Or.inl hasset
        · exact SealedRound.names_pay h
      · exact SealedRound.names_pay h
    · cases h
  · exact SealedRound.names_lotTo h

/-- **A step moves the assets of its round only.** -/
theorem Transition.names (h : Transition host t r action ts r') {u : Transfer} (hu : u ∈ ts) :
    r.Names u.asset := by
  cases h with
  | commit =>
    rcases List.mem_append.mp hu with hu | hu
    · exact SealedRound.names_pay hu
    · exact SealedRound.names_lock hu
  | opening => cases hu
  | reveal => cases hu
  | clear => cases hu
  | clearVoid => exact SealedRound.names_refunds hu
  | finalize => cases hu
  | settle => exact SealedRound.names_payouts hu
  | void => exact SealedRound.names_refunds hu

end

end SubRosa
