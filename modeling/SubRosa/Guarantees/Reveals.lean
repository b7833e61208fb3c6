import SubRosa.Auction.Opening
import SubRosa.Auction.Script

/-!
# The reveal window

Nobody can be kept from the reveal: whatever happened before, an acceptable
preimage of the last commitment can be recorded at any time in the window, by
anybody, with at most two calls.
-/

namespace SubRosa

open MachineInt Invocation

section

variable {host : Host} {config : GlobalConfig} {tx : Transaction} {key : RoundKey}
  {r : SealedRound} {b : Address} {x : Bytes}

/-- **Nobody is locked out.** -/
theorem no_lockout {c₀ c : Chain} {events : List Event} (hd : Deployed config c₀)
    (h : Run host c₀ events c) (hkept : PolicyKept key.id events)
    (hr : c.world.view key = some r) {record : CommitRecord}
    (hlast : lastCommit b (commitsOn key events) = some record) {amount : Option Int}
    (hash : host.sha256 x = record.commitment) (hreads : r.terms.format.Reads x amount)
    (hadmits : r.terms.Admits record.escrow amount)
    (hfree : host.CollisionFree (x :: revealsOn key events)) (hnow : c.now ≤ tx.timestamp)
    (hself : tx.auths host.currentContract = false)
    (hfrom : r.terms.commitDeadline < tx.timestamp.toNat)
    (hto : tx.timestamp.toNat ≤ r.terms.revealDeadline) {round : UInt64}
    (hround : c.world.drandRound key = some round) {signature : BytesN 96}
    (hsig : host.Verifies config round signature)
    (hall : c.world.OpensForAll config tx.timestamp key) :
    ∃ calls w ts, (calls = [] ∨ ∃ call, RevealCall key b x call ∧
        (calls = [call] ∨ calls = [key.openReveal signature, call])) ∧
      invokeAll host tx calls c.world = some (w, ts) ∧ w.Recorded b x key := by
  have hs := h.sound hd.chain_sound
  have hw := hs.world.later (UInt64.le_iff_toNat_le.mp hnow)
  have hsound := hw.views key r hr
  obtain ⟨e, he, hcommitment, hescrow⟩ := ((Run.follows hd h key).2 r hr).commitment hlast
  rw [← hcommitment] at hash
  rw [← hescrow] at hadmits
  -- recording the preimage once the round is being revealed
  have hreveal : ∀ {w : World} {q : SealedRound}, w.Sound host config tx.timestamp.toNat →
      w.view key = some q → q.status = .Revealing → q.terms = r.terms → q.entry b = some e →
      e.opened = none → ∃ call o, RevealCall key b x call ∧ invoke host tx call w = .ok o ∧
        o.world.Recorded b x key := by
    intro w q hw hq hst hterms hentry hnone
    obtain ⟨call, o, hcall, ho⟩ := hw.can_reveal hq hst (by rw [hterms]; exact hto) hentry hnone
      hash (by rw [hterms]; exact hreads) (by rw [hterms]; exact hadmits)
    refine ⟨call, o, hcall, ho, ?_⟩
    obtain ⟨q', r', hq', hr', hstep⟩ := hw.invoke_step hself ho (hcall.on o.value).1
      (hcall.on o.value).2
    have hrecorded := (invoke_sound hw hself ho).recorded_iff (b := b) (x := x) hr'
    refine hrecorded.mpr ?_
    generalize o.transfers = ts at hstep
    cases hstep with
    | reveal => exact ⟨_, Function.update_self .., rfl⟩
  by_cases hopen : r.status = .Open
  · have hnone := hsound.unopened hopen b e he
    obtain ⟨o, ho⟩ := hw.can_open hr hopen hfrom hto hround hsig hall (Run.policed hd h hkept)
    obtain ⟨q, r', hq, hr', hstep⟩ :=
      hw.invoke_step hself ho (openReveal_on key signature o.value).1
      (openReveal_on key signature o.value).2
    obtain rfl : r = q := Option.some_inj.mp (hr.symm.trans hq)
    have hafter : r' = r.withStatus .Revealing := by
      generalize o.transfers = ts at hstep
      cases hstep with
      | opening => rfl
    subst hafter
    obtain ⟨call, o', hcall, ho', hrecorded⟩ := hreveal (invoke_sound hw hself ho) hr' rfl rfl he
      hnone
    exact ⟨_, _, _, Or.inr ⟨call, hcall, Or.inr rfl⟩, invokeAll_two ho ho', hrecorded⟩
  · have hrevealing : r.status = .Revealing := by
      by_contra hnot
      have := hsound.closed hopen hnot
      omega
    cases hopened : e.opened with
    | none =>
      obtain ⟨call, o, hcall, ho, hrecorded⟩ := hreveal hw hr hrevealing rfl he hopened
      exact ⟨_, _, _, Or.inr ⟨call, hcall, Or.inl rfl⟩, invokeAll_one ho, hrecorded⟩
    | some y =>
      -- somebody revealed already, and could only reveal this preimage
      have hstart : c₀.world.view key = none := by
        cases key <;> simp [World.view, hd.1, Store.empty]
      have hy : y ∈ revealsOn key events := by
        have hopenedBy : openedBy (c.world.view key) b = some y := by
          simp [openedBy, hr, he, hopened]
        exact (Run.opened h hd.chain_sound hopenedBy).resolve_left (by simp [hstart, openedBy])
      have heq : host.sha256 x = host.sha256 y :=
        hash.trans ((hsound.entries b e he).opened y hopened).1.symm
      obtain rfl : x = y := hfree x List.mem_cons_self y (List.mem_cons_of_mem _ hy) heq
      exact ⟨[], c.world, [], Or.inl rfl, rfl, (hw.recorded_iff hr).mpr ⟨e, he, hopened⟩⟩

/-- Bob gets the bid of Alice recorded. -/
theorem no_lockout_sample : ∃ c events calls w ts, Run Sample.host Sample.deployed events c ∧
    invokeAll Sample.host (Sample.tx Sample.bob 1060) calls c.world = some (w, ts) ∧
    w.Recorded Sample.alice (Sample.preimage 30) (.v1 1) := by
  obtain ⟨c, events, hrun, hvalue⟩ := Chain.exec_reaches Sample.host Sample.deployed
    [⟨Sample.tx Sample.operator 1000, .createRound Sample.args⟩, Sample.bid Sample.alice 1010 30]
    (fun c events => decide (
      commitsOn (.v1 1) events = [⟨Sample.alice, Sample.commitment 30, 50⟩] ∧
      revealsOn (.v1 1) events = [] ∧ c.now ≤ 1060 ∧
      c.world.drandRound (.v1 1) = some 3 ∧
      (c.world.view (.v1 1)).map (fun r => r.terms.commitDeadline) = some 1050 ∧
      (c.world.view (.v1 1)).map (fun r => r.terms.revealDeadline) = some 1100 ∧
      (c.world.view (.v1 1)).map (fun r => r.terms.format) = some .bid ∧
      (c.world.view (.v1 1)).map (fun r => r.terms.payment) = some (some Sample.config.usdc) ∧
      events.all (fun e => e.value.isSome) = true)) true (by decide +kernel)
  obtain ⟨hcommits, hreveals, hnow, hround, hcommit, hreveal, hformat, hpayment, hcalls⟩ :=
    of_decide_eq_true hvalue
  obtain ⟨r, hr, hcommit⟩ := Option.map_eq_some_iff.mp hcommit
  rw [hr, Option.map_some, Option.some_inj] at hreveal hformat hpayment
  have hkept : PolicyKept (RoundKey.v1 1).id events := by
    rintro e he rfl
    have hvalue := List.all_eq_true.mp hcalls _ he
    cases hvalue
  have hlast : lastCommit Sample.alice (commitsOn (.v1 1) events) =
      some ⟨Sample.alice, Sample.commitment 30, 50⟩ := by
    rw [hcommits]
    decide +kernel
  have hnow : c.now ≤ (Sample.tx Sample.bob 1060).timestamp := hnow
  obtain ⟨calls, w, ts, -, hinvoke, hrecorded⟩ := no_lockout Sample.deployed_ok hrun hkept hr hlast
    (show Sample.host.sha256 (Sample.preimage 30) = Sample.commitment 30 from rfl)
    (by rw [hformat]; exact ⟨Sample.amount 30, Sample.nonce, rfl, rfl⟩)
    (by rw [Terms.Admits, hpayment]; exact ⟨_, rfl, by decide +kernel, by simp [hformat]⟩)
    (by rw [hreveals]; simp [Host.CollisionFree]) hnow rfl
    (by rw [hcommit]; decide) (by rw [hreveal]; decide) hround
    (show Sample.host.Verifies Sample.config 3 (Sample.signature 3) from
      ⟨_, rfl, by decide +kernel⟩)
    (fun h => h.elim)
  exact ⟨c, events, calls, w, ts, hrun, hinvoke, hrecorded⟩

end

end SubRosa
