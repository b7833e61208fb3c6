import SubRosa.Auction.Enabled

/-!
# What a call leaves alone

Seen from the store: which records of which round a successful call can have
written. The frame conditions are read off the exact writes of every call.
-/

namespace SubRosa

open MachineInt Invocation

/-- The seals of a round, by bidder. -/
def World.seals (w : World) : RoundKey → Address → Option SealEntry
  | .v1 id => w.store.sealed id
  | .v2 id => w.store.sealedV2 id

/-- The sealed payload of a bidder, whatever its lifetime. -/
def World.sealOf (w : World) (key : RoundKey) (b : Address) : Option Seal :=
  (w.seals key b).map SealEntry.payload

section

variable {host : Host} {config : GlobalConfig} {tx : Transaction} {w : World} {key : RoundKey}
  {env : Env} {f' : Frame}

/-! ## Stored rounds across a call -/

/-- Behind a round of the second generation after a call stands one before it. -/
theorem World.Advances.roundV2_back {action : Action} (h : w.Advances env key action f')
    {id : UInt64} {round : RoundV2} (hr : f'.store.roundV2 id = some round) :
    ∃ old status bidders winner winningBid, w.store.roundV2 id = some old ∧
      round = { old with status, bidders, winner, winningBid } := by
  cases hold : w.store.roundV2 id with
  | some old =>
    obtain ⟨status, bidders, winner, winningBid, hnew⟩ := h.evolves.progressV2 id old hold
    rw [hnew, Option.some_inj] at hr
    exact ⟨old, status, bidders, winner, winningBid, rfl, hr.symm⟩
  | none =>
    by_cases hkey : RoundKey.v2 id = key
    · subst hkey
      obtain ⟨r, -, hview, -⟩ := h.step
      simp [World.view, hold] at hview
    · rw [h.evolves.roundV2 id hkey, hold] at hr
      cases hr

/-! ## Seals -/

/-- What an action does to the seals of a round. -/
def SealsAfter (env : Env) (deadline : UInt64) (bidders : List Address)
    (old new : Address → Option SealEntry) : Action → Prop
  | .commit b _ _ => ∃ payload, new = commitSeals env deadline old b payload
  | .opening => new = extendSeals env deadline old bidders
  | _ => new = old

/-! ## The writes of a call -/

/-- A call on a round of the first generation writes that round, its records
and its seals, and nothing else. -/
theorem World.Sound.writes_v1 (hw : w.Sound host config tx.timestamp.toNat)
    (hself : tx.auths host.currentContract = false) {call : Call} {o : Outcome}
    (h : invoke host tx call w = .ok o) {id : UInt64} (hkey : call.key o.value = some (.v1 id))
    {action : Action} (haction : call.action = some action) :
    ∃ round round' states seals, w.store.round id = some round ∧
      o.world.store = w.store.writeRound id round' states seals ∧
      SealsAfter ⟨host, tx⟩ round.revealDeadline round.bidders (w.store.sealed id) seals
      action := by
  obtain ⟨r, -, hr, -⟩ := hw.invoke_step hself h hkey haction
  obtain ⟨round, hround, -⟩ := hw.of_view_v1 hr
  have hy := invoke_eq_ok.mp h
  obtain ⟨value, w', ts⟩ := o
  cases call with
  | createRound => cases haction
  | createRoundV2 => cases haction
  | createPartnerRoundV2 => cases haction
  | createRoundV3 => cases haction
  | commit j b commitment ciphertext escrow blob =>
    obtain rfl : j = id := by simpa [Call.key] using hkey
    obtain rfl := Option.some_inj.mp haction
    obtain ⟨a, hy, -⟩ := (yields_map ..).mp hy
    obtain ⟨-, -, -, -, -, -, c, -, hf⟩ := (yields_commit (hw.env tx) hround ..).mp hy
    exact ⟨round, _, _, _, hround, congrArg (fun g : Frame => g.store) hf, _, rfl⟩
  | openReveal j signature =>
    obtain rfl : j = id := by simpa [Call.key] using hkey
    obtain rfl := Option.some_inj.mp haction
    obtain ⟨a, hy, -⟩ := (yields_map ..).mp hy
    obtain ⟨-, -, -, hf⟩ := (yields_openReveal (hw.env tx) hround ..).mp hy
    exact ⟨round, _, _, _, hround, congrArg (fun g : Frame => g.store) hf, rfl⟩
  | reveal j b v nonce =>
    obtain rfl : j = id := by simpa [Call.key] using hkey
    obtain rfl := Option.some_inj.mp haction
    obtain ⟨a, hy, -⟩ := (yields_map ..).mp hy
    obtain ⟨-, -, state, -, -, -, -, hf⟩ := (yields_reveal hround ..).mp hy
    exact ⟨round, _, _, _, hround, congrArg (fun g : Frame => g.store) hf, rfl⟩
  | clear j =>
    obtain rfl : j = id := by simpa [Call.key] using hkey
    obtain rfl := Option.some_inj.mp haction
    obtain ⟨a, hy, -⟩ := (yields_map ..).mp hy
    obtain ⟨-, -, hout⟩ := (yields_clear (hw.env tx) hround ..).mp hy
    split at hout
    · obtain ⟨-, c, -, hf⟩ := hout
      exact ⟨round, _, _, _, hround, congrArg (fun g : Frame => g.store) hf, rfl⟩
    · obtain ⟨-, bid, -, hf⟩ := hout
      exact ⟨round, _, _, _, hround, congrArg (fun g : Frame => g.store) hf, rfl⟩
  | settle j =>
    obtain rfl : j = id := by simpa [Call.key] using hkey
    obtain rfl := Option.some_inj.mp haction
    obtain ⟨a, hy, -⟩ := (yields_map ..).mp hy
    obtain ⟨-, winner, -, c, -, hf⟩ := (yields_settle (hw.env tx) hround ..).mp hy
    exact ⟨round, _, _, _, hround, congrArg (fun g : Frame => g.store) hf, rfl⟩
  | void j =>
    obtain rfl : j = id := by simpa [Call.key] using hkey
    obtain rfl := Option.some_inj.mp haction
    obtain ⟨a, hy, -⟩ := (yields_map ..).mp hy
    obtain ⟨-, -, c, -, hf⟩ := (yields_void (hw.env tx) hround ..).mp hy
    exact ⟨round, _, _, _, hround, congrArg (fun g : Frame => g.store) hf, rfl⟩
  | commitV2 => simp [Call.key] at hkey
  | openRevealV2 => simp [Call.key] at hkey
  | revealV2 => simp [Call.key] at hkey
  | clearV2 => simp [Call.key] at hkey
  | settleV2 => simp [Call.key] at hkey
  | voidV2 => simp [Call.key] at hkey

/-- A call on a round of the second or third generation; only an opening
touches the opening state. -/
theorem World.Sound.writes_v2 (hw : w.Sound host config tx.timestamp.toNat)
    (hself : tx.auths host.currentContract = false) {call : Call} {o : Outcome}
    (h : invoke host tx call w = .ok o) {id : UInt64} (hkey : call.key o.value = some (.v2 id))
    {action : Action} (haction : call.action = some action) :
    ∃ round round' submissions seals, w.store.roundV2 id = some round ∧
      o.world.store = w.store.writeRoundV2 id round' submissions seals
        (if action = .opening then round.openedAt tx.timestamp (w.store.revealV3 id)
          else w.store.revealV3 id) ∧
      SealsAfter ⟨host, tx⟩ round.revealDeadline round.bidders (w.store.sealedV2 id) seals
        action := by
  obtain ⟨r, -, hr, -⟩ := hw.invoke_step hself h hkey haction
  obtain ⟨round, hround, -⟩ := World.of_view_v2 hr
  have hy := invoke_eq_ok.mp h
  obtain ⟨value, w', ts⟩ := o
  cases call with
  | createRound => cases haction
  | createRoundV2 => cases haction
  | createPartnerRoundV2 => cases haction
  | createRoundV3 => cases haction
  | commitV2 j b commitment ciphertext escrow blob =>
    obtain rfl : j = id := by simpa [Call.key] using hkey
    obtain rfl := Option.some_inj.mp haction
    obtain ⟨a, hy, -⟩ := (yields_map ..).mp hy
    obtain ⟨-, -, -, -, -, -, -, c, -, hf⟩ := (yields_commitV2 (hw.env tx) hround ..).mp hy
    exact ⟨round, _, _, _, hround, congrArg (fun g : Frame => g.store) hf, _, rfl⟩
  | openRevealV2 j signature =>
    obtain rfl : j = id := by simpa [Call.key] using hkey
    obtain rfl := Option.some_inj.mp haction
    obtain ⟨a, hy, -⟩ := (yields_map ..).mp hy
    obtain ⟨-, -, -, -, hf⟩ := (yields_openRevealV2 (hw.env tx) hround ..).mp hy
    exact ⟨round, _, _, _, hround, congrArg (fun g : Frame => g.store) hf, rfl⟩
  | revealV2 j b envelope =>
    obtain rfl : j = id := by simpa [Call.key] using hkey
    obtain rfl := Option.some_inj.mp haction
    obtain ⟨a, hy, -⟩ := (yields_map ..).mp hy
    obtain ⟨-, -, state, payload, -, -, -, -, -, hf⟩ :=
      (yields_revealV2 (hw.env tx) hround ..).mp hy
    exact ⟨round, _, _, _, hround, congrArg (fun g : Frame => g.store) hf, rfl⟩
  | clearV2 j =>
    obtain rfl : j = id := by simpa [Call.key] using hkey
    obtain rfl := Option.some_inj.mp haction
    obtain ⟨a, hy, -⟩ := (yields_map ..).mp hy
    obtain ⟨-, -, hout⟩ := (yields_clearV2 (hw.env tx) hround ..).mp hy
    split at hout
    · obtain ⟨-, hf⟩ := hout
      exact ⟨round, _, _, _, hround, congrArg (fun g : Frame => g.store) hf, rfl⟩
    · split at hout
      · obtain ⟨-, c, -, hf⟩ := hout
        exact ⟨round, _, _, _, hround, congrArg (fun g : Frame => g.store) hf, rfl⟩
      · obtain ⟨-, bid, -, hf⟩ := hout
        exact ⟨round, _, _, _, hround, congrArg (fun g : Frame => g.store) hf, rfl⟩
  | settleV2 j =>
    obtain rfl : j = id := by simpa [Call.key] using hkey
    obtain rfl := Option.some_inj.mp haction
    obtain ⟨a, hy, -⟩ := (yields_map ..).mp hy
    obtain ⟨-, -, winner, -, c, -, hf⟩ := (yields_settleV2 (hw.env tx) hround ..).mp hy
    exact ⟨round, _, _, _, hround, congrArg (fun g : Frame => g.store) hf, rfl⟩
  | voidV2 j =>
    obtain rfl : j = id := by simpa [Call.key] using hkey
    obtain rfl := Option.some_inj.mp haction
    obtain ⟨a, hy, -⟩ := (yields_map ..).mp hy
    obtain ⟨-, -, c, -, hf⟩ := (yields_voidV2 (hw.env tx) hround ..).mp hy
    exact ⟨round, _, _, _, hround, congrArg (fun g : Frame => g.store) hf, rfl⟩
  | commit => simp [Call.key] at hkey
  | openReveal => simp [Call.key] at hkey
  | reveal => simp [Call.key] at hkey
  | clear => simp [Call.key] at hkey
  | settle => simp [Call.key] at hkey
  | void => simp [Call.key] at hkey

/-! ## The writes of a creation -/

/-- What the three structured creation entry points share. -/
structure Creation where
  args : RoundArgsV2
  settlement : SettlementConfig
  policy : Option RoundPolicyV2
  reveal : Option RevealPolicy

def Call.creation : Call → Option Creation
  | .createRoundV2 args settlement => some ⟨args, settlement, none, none⟩
  | .createPartnerRoundV2 args policy => some ⟨args, policy.settlement, some policy, none⟩
  | .createRoundV3 args policy =>
      some ⟨args, policy.partner.settlement, some policy.partner, some policy.reveal⟩
  | _ => none

/-- The round a creation stores; only one with an opening policy is of the
third version. -/
def Creation.round (creation : Creation) : RoundV2 :=
  match creation.reveal with
  | none => creation.args.newRound creation.settlement
  | some _ =>
      { creation.args.newRound creation.settlement with protocolVersion := revealPolicyVersion }

/-- What a structured creation checked and wrote. -/
structure Creation.Wrote (creation : Creation) (host : Host) (config : GlobalConfig)
    (tx : Transaction) (id : UInt64) (s s' : Store) : Prop where
  next : id.toNat = s.lastId + 1
  accepted : creation.args.Accepted creation.settlement creation.policy config ⟨host, tx⟩
  reveal : ∀ p, creation.reveal = some p →
    p.Valid (timeOfRound config creation.args.revealRound) creation.args.revealDeadline ∧
      creation.policy.isSome = true
  roundV2 : s'.roundV2 = Function.update s.roundV2 id (some creation.round)
  submissionV2 : s'.submissionV2 = s.submissionV2
  policyV2 : s'.policyV2 = Function.update s.policyV2 id (creation.policy <|> s.policyV2 id)
  revealV3 : s'.revealV3 = match creation.reveal with
    | none => s.revealV3
    | some p => Function.update s.revealV3 id (some ⟨p, none⟩)

theorem World.Sound.creation_writes {now : Nat} (hw : w.Sound host config now) {call : Call}
    {o : Outcome} (h : invoke host tx call w = .ok o) {creation : Creation}
    (hcall : call.creation = some creation) :
    ∃ id, o.value = .roundId id ∧ creation.Wrote host config tx id w.store o.world.store := by
  have hy := invoke_eq_ok.mp h
  obtain ⟨value, w', ts⟩ := o
  cases call <;> simp only [Call.creation, Option.some.injEq, reduceCtorEq] at hcall
  case createRoundV2 args settlement =>
    subst hcall
    obtain ⟨id, hy, hvalue⟩ := (yields_map ..).mp hy
    obtain ⟨hacc, hid, c, -, hf⟩ :=
      (yields_createRoundV2Impl (hw.env tx).configured args settlement none _).mp hy
    have hstore : w'.store = w.store.addRoundV2 id (args.newRound settlement) none :=
      congrArg (fun g : Frame => g.store) hf
    refine ⟨id, hvalue, hid, hacc, nofun, ?_, ?_, ?_, ?_⟩ <;> simp only [hstore] <;> rfl
  case createPartnerRoundV2 args policy =>
    subst hcall
    obtain ⟨id, hy, hvalue⟩ := (yields_map ..).mp hy
    obtain ⟨hacc, hid, c, -, hf⟩ := (yields_createRoundV2Impl (hw.env tx).configured args
      policy.settlement (some policy) _).mp hy
    have hstore : w'.store = w.store.addRoundV2 id (args.newRound policy.settlement)
      (some policy) := congrArg (fun g : Frame => g.store) hf
    refine ⟨id, hvalue, hid, hacc, nofun, ?_, ?_, ?_, ?_⟩ <;> simp only [hstore] <;> rfl
  case createRoundV3 args policy =>
    subst hcall
    obtain ⟨id, hy, hvalue⟩ := (yields_map ..).mp hy
    obtain ⟨hvalid, hacc, hid, c, -, hf⟩ :=
      (yields_createRoundV3 (hw.env tx).configured args policy _).mp hy
    have hstore := congrArg (fun g : Frame => g.store) hf
    refine ⟨id, hvalue, hid, hacc, ?_, ?_, ?_, ?_, ?_⟩
    · rintro p hp
      obtain rfl := Option.some_inj.mp hp
      exact ⟨hvalid, rfl⟩
    · exact (congrArg Store.roundV2 hstore).trans rfl
    · exact (congrArg Store.submissionV2 hstore).trans rfl
    · exact (congrArg Store.policyV2 hstore).trans rfl
    · exact (congrArg Store.revealV3 hstore).trans rfl

end

end SubRosa
