import SubRosa.Auction.Script
import SubRosa.Auction.Tokens

/-!
# Rounds are isolated

Two generations share one counter of ids and the balances of the contract, and
tokens may be of any kind. Nothing that is done to one round shows in another.
-/

namespace SubRosa

open MachineInt Invocation TokenLedger

/-- The same id in the other key space. -/
def RoundKey.twin : RoundKey → RoundKey
  | .v1 id => .v2 id
  | .v2 id => .v1 id

/-- Every record of the round under the key is the same in both worlds. -/
def World.KeepsRecords (w w' : World) : RoundKey → Prop
  | .v1 id => w'.store.round id = w.store.round id ∧ w'.store.state id = w.store.state id ∧
      w'.store.sealed id = w.store.sealed id
  | .v2 id => w'.store.roundV2 id = w.store.roundV2 id ∧
      w'.store.submissionV2 id = w.store.submissionV2 id ∧
      w'.store.sealedV2 id = w.store.sealedV2 id ∧
      w'.store.policyV2 id = w.store.policyV2 id ∧ w'.store.revealV3 id = w.store.revealV3 id

/-- The assets of the round under the key. -/
def World.assets (w : World) : RoundKey → List Address
  | .v1 _ => (w.store.config.map GlobalConfig.usdc).toList
  | .v2 id => ((w.store.roundV2 id).map fun round =>
      round.paymentAsset.toList ++ round.lotAsset.toList).getD []

/-- A round is stored under the key. -/
def World.Stores (w : World) : RoundKey → Prop
  | .v1 id => (w.store.round id).isSome = true
  | .v2 id => (w.store.roundV2 id).isSome = true

/-- The id that a creation returned. -/
def Event.created : Event → Option UInt64
  | .called _ call value _ =>
      if call.action = none then (call.key value).map RoundKey.id else none
  | _ => none

/-- The ids of the created rounds, in order. -/
def createdIds (events : List Event) : List UInt64 := events.filterMap Event.created

/-- The bidder whose authorisation a call requires before it looks at the round. -/
def Call.signer : Call → Option Address
  | .commit _ bidder _ _ _ _ => some bidder
  | .commitV2 _ bidder _ _ _ _ => some bidder
  | _ => none

/-- A round that takes neither payments nor a lot. -/
def World.Receipts (w : World) (key : RoundKey) : Prop :=
  ∀ r, w.view key = some r → r.terms.payment = none ∧ r.terms.lot = none

section

variable {host : Host} {config : GlobalConfig} {tx : Transaction} {w : World} {key : RoundKey}
  {r : SealedRound} {c₀ c c' : Chain} {events : List Event} {now : Nat}

theorem World.Sound.stores_iff (hw : w.Sound host config now) :
    w.Stores key ↔ ∃ r, w.view key = some r := by
  cases key with
  | v1 id => simp [World.Stores, hw.view_v1, Option.isSome_iff_exists]
  | v2 id => simp [World.Stores, World.view_v2, Option.isSome_iff_exists]

theorem World.Sound.assets_iff (hw : w.Sound host config now) (hr : w.view key = some r)
    (asset : Address) : asset ∈ w.assets key ↔ r.Names asset := by
  cases key with
  | v1 id =>
    obtain ⟨round, -, rfl⟩ := hw.of_view_v1 hr
    simp [World.assets, hw.configured, SealedRound.Names, Round.view, eq_comm]
  | v2 id =>
    obtain ⟨round, hround, rfl⟩ := World.of_view_v2 hr
    simp [World.assets, hround, SealedRound.Names, RoundV2.view]

/-! ## One call -/

/-- What a successful call does outside the round it works on. -/
theorem World.Sound.invoke_elsewhere (hw : w.Sound host config tx.timestamp.toNat)
    (hself : tx.auths host.currentContract = false) {call : Call} {o : Outcome}
    (h : invoke host tx call w = .ok o) :
    ∃ key, call.key o.value = some key ∧ o.world.Stores key ∧
      (∀ other, other ≠ key → w.KeepsRecords o.world other) ∧
      (∀ u ∈ o.transfers, u.asset ∈ o.world.assets key) := by
  obtain ⟨key, hkey, href⟩ := invoke_refines hw hself h
  have hw' := invoke_sound hw hself h
  refine ⟨key, hkey, ?_⟩
  split at href
  · obtain ⟨r, r', hr, hr', htrans⟩ := href.step
    refine ⟨hw'.stores_iff.mpr ⟨r', hr'⟩, fun other hne => ?_, fun u hu => ?_⟩
    · cases other with
      | v1 id =>
        exact ⟨href.evolves.round id hne, href.evolves.state id hne, href.evolves.sealed id hne⟩
      | v2 id =>
        exact ⟨href.evolves.roundV2 id hne, href.evolves.submissionV2 id hne,
          href.evolves.sealedV2 id hne, congrFun href.evolves.policyV2 id,
          href.evolves.revealV3 id hne⟩
    · refine (hw'.assets_iff hr' u.asset).mpr ?_
      unfold SealedRound.Names
      rw [htrans.terms]
      exact htrans.names hu
  · obtain ⟨r, hr, -, htransfers⟩ := href.created
    refine ⟨hw'.stores_iff.mpr ⟨r, hr⟩, fun other hne => ?_, fun u hu => ?_⟩
    · cases other with
      | v1 id =>
        exact ⟨href.grows.round id hne, congrFun href.grows.state id,
          congrFun href.grows.sealed id⟩
      | v2 id =>
        exact ⟨href.grows.roundV2 id hne, congrFun href.grows.submissionV2 id,
          congrFun href.grows.sealedV2 id, href.grows.policyV2 id hne,
          href.grows.revealV3 id hne⟩
    · have hu : u ∈ r.lotFrom host.currentContract r.terms.operator := htransfers ▸ hu
      exact (hw'.assets_iff hr u.asset).mpr (SealedRound.names_lotFrom hu)

/-- The transfers of a call are the only balances it changes. -/
theorem LooseStep.isolated {call : Call} {value : Value} {ts : List Transfer}
    (h : LooseStep host c (.called tx call value ts) c')
    (hs : c.world.Sound host config c.now.toNat) :
    ∃ key, call.key value = some key ∧
      (∀ other, other ≠ key → c.world.KeepsRecords c'.world other) ∧
      ∀ asset, asset ∉ c'.world.assets key →
        c'.world.balances asset = c.world.balances asset := by
  cases h with
  | @called _ _ o before after hnow hself hcall hbefore hafter =>
    have hw := (hs.later (UInt64.le_iff_toNat_le.mp hnow)).withBalances before
    obtain ⟨key, hkey, -, hothers, hassets⟩ := hw.invoke_elsewhere hself hcall
    refine ⟨key, hkey, fun other hne => ?_, fun asset hasset => ?_⟩
    · have hsame := hothers other hne
      cases other <;> exact hsame
    · have hnot : ∀ u ∈ o.transfers, u.asset ≠ asset := by
        rintro u hu rfl
        exact hasset (by cases key <;> exact hassets u hu)
      calc after asset = o.world.balances asset := hafter asset hnot
        _ = before asset := transferAll?_other (invoke_paid hw hself hcall) hnot
        _ = c.world.balances asset := hbefore asset hnot

/-! ## The wrong generation -/

/-- **Entry points of the other generation.** They do not find the round. -/
theorem World.Sound.wrong_generation (hw : w.Sound host config now) (hstores : w.Stores key.twin)
    {call : Call} (hkey : ∀ value, call.key value = some key) :
    invoke host tx call w = .error (if call.signer.all tx.auths = true
      then .error .RoundNotFound else .trap) := by
  have hk := hkey .unit
  have hread : Yields (read : Contract Env) ⟨host, tx⟩ w.frame ⟨host, tx⟩ w.frame :=
    (yields_read ..).mpr ⟨rfl, rfl⟩
  have hconfig : Yields getConfig ⟨host, tx⟩ w.frame config w.frame :=
    (yields_getConfig ..).mpr ⟨hw.configured, rfl⟩
  have hauth : ∀ {b : Address}, tx.auths b = true →
      Yields (requireAuth b) ⟨host, tx⟩ w.frame () w.frame := fun hb =>
    (yields_requireAuth ..).mpr ⟨hb, rfl⟩
  have hunauth : ∀ {b : Address}, tx.auths b ≠ true →
      Fails (requireAuth b) ⟨host, tx⟩ w.frame .trap := fun hb => by
    simp [requireAuth, hb]
  rw [invoke_eq_error]
  cases key with
  | v1 id =>
    have hnone : w.store.round id = none :=
      (hw.distinct id).resolve_right (Option.isSome_iff_ne_none.mp hstores)
    have hround : Fails (getRound id) ⟨host, tx⟩ w.frame (.error .RoundNotFound) := by
      simp [getRound, hnone]
    cases call <;>
      simp only [Call.key, Option.some.injEq, RoundKey.v1.injEq, reduceCtorEq] at hk <;>
      subst hk <;> refine (fails_map ..).mpr ?_
    case commit b _ _ _ _ =>
      by_cases hb : tx.auths b = true
      · rw [if_pos (by simpa [Call.signer] using hb)]
        exact hread.bind_fails ((hauth hb).bind_fails (hconfig.bind_fails (hround.bind _)))
      · rw [if_neg (by simpa [Call.signer] using hb)]
        exact hread.bind_fails ((hunauth hb).bind _)
    case openReveal => exact hread.bind_fails (hconfig.bind_fails (hround.bind _))
    case reveal => exact hread.bind_fails (hround.bind _)
    case clear => exact hread.bind_fails (hround.bind _)
    case settle => exact hconfig.bind_fails (hround.bind _)
    case void => exact hread.bind_fails (hround.bind _)
  | v2 id =>
    have hnone : w.store.roundV2 id = none :=
      (hw.distinct id).resolve_left (Option.isSome_iff_ne_none.mp hstores)
    have hround : Fails (getRoundV2 id) ⟨host, tx⟩ w.frame (.error .RoundNotFound) := by
      simp [getRoundV2, hnone]
    cases call <;>
      simp only [Call.key, Option.some.injEq, RoundKey.v2.injEq, reduceCtorEq] at hk <;>
      subst hk <;> refine (fails_map ..).mpr ?_
    case commitV2 b _ _ _ _ =>
      by_cases hb : tx.auths b = true
      · rw [if_pos (by simpa [Call.signer] using hb)]
        exact hread.bind_fails ((hauth hb).bind_fails (hconfig.bind_fails (hround.bind _)))
      · rw [if_neg (by simpa [Call.signer] using hb)]
        exact hread.bind_fails ((hunauth hb).bind _)
    case openRevealV2 => exact hread.bind_fails (hconfig.bind_fails (hround.bind _))
    case revealV2 => exact hread.bind_fails (hround.bind _)
    case clearV2 => exact hread.bind_fails (hround.bind _)
    case settleV2 => exact hread.bind_fails (hconfig.bind_fails (hround.bind _))
    case voidV2 => exact hread.bind_fails (hround.bind _)

/-! ## Along a run -/

/-- What a successful call does to the set of stored rounds. -/
theorem World.Sound.invoke_stores (hw : w.Sound host config tx.timestamp.toNat)
    (hself : tx.auths host.currentContract = false) {call : Call} {o : Outcome}
    (h : invoke host tx call w = .ok o) (hkey : call.key o.value = some key) :
    (∀ other, o.world.Stores other ↔ w.Stores other ∨ other = key) ∧
    (∀ other r, w.view other = some r → ∃ r', o.world.view other = some r' ∧
      r'.terms = r.terms) ∧
    if call.action = none then ¬ w.Stores key ∧ ¬ w.Stores key.twin ∧
      w.store.lastId < key.id.toNat ∧ o.world.store.lastId = key.id.toNat
    else w.Stores key ∧ o.world.store.lastId = w.store.lastId := by
  have hw' := invoke_sound hw hself h
  obtain ⟨key', hkey', href⟩ := invoke_refines hw hself h
  obtain rfl : key = key' := Option.some_inj.mp (hkey.symm.trans hkey')
  -- other rounds look the same, and the round under the key is there
  have hresult : ∀ {r' : SealedRound}, o.world.view key = some r' →
      (∀ other, other ≠ key → o.world.view other = w.view other) →
      ∀ other, o.world.Stores other ↔ w.Stores other ∨ other = key := by
    intro r' hr' hsame other
    rw [hw'.stores_iff, hw.stores_iff]
    by_cases hother : other = key
    · subst hother
      exact ⟨fun _ => Or.inr rfl, fun _ => ⟨r', hr'⟩⟩
    · rw [hsame other hother, or_iff_left hother]
  cases haction : call.action with
  | none =>
    rw [haction] at href
    obtain ⟨r, hr, -⟩ := href.created
    obtain ⟨hnone, hunused⟩ := hw.fresh href.grows
    have hsame : ∀ other, other ≠ key → o.world.view other = w.view other := fun other hne =>
      href.grows.view hne
    refine ⟨hresult hr hsame, fun other q hq => ⟨q, ?_, rfl⟩, ?_⟩
    · rw [hsame other (by rintro rfl; rw [hnone] at hq; cases hq), hq]
    · have hnext := href.grows.next
      rw [if_pos rfl]
      refine ⟨?_, ?_, by omega, ?_⟩
      · rw [hw.stores_iff, hnone]
        simp
      · cases key with
        | v1 id =>
          have hround : w.store.roundV2 id = none := hunused.roundV2
          simp [World.Stores, RoundKey.twin, hround]
        | v2 id =>
          have hround : w.store.round id = none := hunused.round
          simp [World.Stores, RoundKey.twin, hround]
      · show (o.world.store.roundCounter.getD 0).toNat = _
        rw [href.grows.roundCounter]
        rfl
  | some action =>
    rw [haction] at href
    obtain ⟨r, r', hr, hr', htrans⟩ := href.step
    have hsame : ∀ other, other ≠ key → o.world.view other = w.view other := fun other hne =>
      href.evolves.view hne
    refine ⟨hresult hr' hsame, fun other q hq => ?_, ?_⟩
    · by_cases hother : other = key
      · subst hother
        obtain rfl := Option.some_inj.mp (hr.symm.trans hq)
        exact ⟨r', hr', htrans.terms⟩
      · exact ⟨q, (hsame other hother).trans hq, rfl⟩
    · rw [if_neg nofun]
      refine ⟨hw.stores_iff.mpr ⟨r, hr⟩, ?_⟩
      show (o.world.store.roundCounter.getD 0).toNat = _
      rw [href.evolves.roundCounter]
      rfl

/-- The ids given out so far, the rounds stored under them, and what was moved
for rounds that take neither payments nor a lot. -/
structure Separated (events : List Event) (w : World) : Prop where
  increasing : (createdIds events).Pairwise (· < ·)
  used : ∀ id ∈ createdIds events, id.toNat ≤ w.store.lastId
  stored : ∀ id, id ∈ createdIds events ↔ w.Stores (.v1 id) ∨ w.Stores (.v2 id)
  worked : ∀ tx call value ts key, Event.called tx call value ts ∈ events →
    call.key value = some key → w.Stores key
  receipts : ∀ key, w.Receipts key → ∀ tx call value ts, Event.called tx call value ts ∈ events →
    call.key value = some key → ts = []

theorem createdIds_snoc (events : List Event) (e : Event) :
    createdIds (events ++ [e]) = createdIds events ++ e.created.toList := by
  unfold createdIds
  rw [List.filterMap_append]
  cases he : e.created <;> simp [he]

/-- An event that is no successful call and keeps the records in place. -/
theorem Separated.idle {w' : World} {e : Event} (h : Separated events w)
    (he : e.created = none) (hcalled : ∀ tx call value ts, e ≠ .called tx call value ts)
    (hlast : w'.store.lastId = w.store.lastId) (hstores : ∀ key, w'.Stores key ↔ w.Stores key)
    (hview : ∀ key, w'.view key = w.view key) : Separated (events ++ [e]) w' := by
  have hids : createdIds (events ++ [e]) = createdIds events := by
    rw [createdIds_snoc, he, Option.toList_none, List.append_nil]
  have hmem : ∀ {tx : Transaction} {call : Call} {value : Value} {ts : List Transfer},
      Event.called tx call value ts ∈ events ++ [e] → Event.called tx call value ts ∈ events := by
    intro tx call value ts hin
    rcases List.mem_append.mp hin with hin | hin
    · exact hin
    · exact absurd (List.mem_singleton.mp hin).symm (hcalled tx call value ts)
  refine ⟨hids ▸ h.increasing, fun id hid => ?_, fun id => ?_,
    fun tx call value ts key hin hkey => ?_,
    fun key hkey tx call value ts hin => ?_⟩
  · rw [hlast]
    exact h.used id (hids ▸ hid)
  · rw [hids, hstores, hstores]
    exact h.stored id
  · exact (hstores key).mpr (h.worked tx call value ts key (hmem hin) hkey)
  · refine h.receipts key (fun r hr => hkey r ?_) tx call value ts (hmem hin)
    rw [hview, hr]

theorem LooseStep.separated {e : Event} (h : LooseStep host c e c')
    (hs : c.world.Sound host config c.now.toNat) (hsep : Separated events c.world) :
    Separated (events ++ [e]) c'.world := by
  cases h with
  | failed =>
    exact hsep.idle rfl (fun _ _ _ _ hcall => nomatch hcall) rfl (fun _ => Iff.rfl) fun _ => rfl
  | outside _ b =>
    exact hsep.idle rfl (fun _ _ _ _ hcall => nomatch hcall) rfl
      (fun key => by cases key <;> exact Iff.rfl)
      fun key => c.world.withBalances_view b key
  | revealStateLost id =>
    exact hsep.idle rfl (fun _ _ _ _ hcall => nomatch hcall) rfl
      (fun key => by cases key <;> exact Iff.rfl)
      fun key => c.world.loseRevealState_view id key
  | @called tx call o before after hnow hself hcall =>
    have hw := (hs.later (UInt64.le_iff_toNat_le.mp hnow)).withBalances before
    have hw' := invoke_sound hw hself hcall
    obtain ⟨key, hkey, -, -, hassets⟩ := hw.invoke_elsewhere hself hcall
    obtain ⟨hstores, hterms, hkind⟩ := hw.invoke_stores hself hcall hkey
    have hstores : ∀ other, (o.world.withBalances after).Stores other ↔
        c.world.Stores other ∨ other = key := by
      intro other
      have := hstores other
      cases other <;> exact this
    have hmem : ∀ {tx' : Transaction} {call' : Call} {value : Value} {ts : List Transfer},
        Event.called tx' call' value ts ∈ events ++ [.called tx call o.value o.transfers] →
        Event.called tx' call' value ts ∈ events ∨
          call'.key value = some key ∧ ts = o.transfers := by
      intro tx' call' value ts hin
      rcases List.mem_append.mp hin with hin | hin
      · exact Or.inl hin
      · obtain ⟨rfl, rfl, rfl, rfl⟩ := Event.called.inj (List.mem_singleton.mp hin)
        exact Or.inr ⟨hkey, rfl⟩
    have hids : (∀ id ∈ createdIds events, id.toNat ≤ o.world.store.lastId) ∧
        (createdIds (events ++ [.called tx call o.value o.transfers]) = createdIds events ∧
          c.world.Stores key ∨
        createdIds (events ++ [.called tx call o.value o.transfers]) =
            createdIds events ++ [key.id] ∧ o.world.store.lastId = key.id.toNat ∧
          ∀ id ∈ createdIds events, id < key.id) := by
      rw [createdIds_snoc]
      by_cases haction : call.action = none
      · rw [if_pos haction] at hkind
        obtain ⟨-, -, hlt, hlast⟩ := hkind
        have hlt : c.world.store.lastId < key.id.toNat := hlt
        have hless : ∀ id ∈ createdIds events, id.toNat < key.id.toNat := fun id hid =>
          lt_of_le_of_lt (hsep.used id hid) hlt
        refine ⟨fun id hid => hlast ▸ (hless id hid).le, Or.inr ⟨?_, hlast, fun id hid =>
          UInt64.lt_iff_toNat_lt.mpr (hless id hid)⟩⟩
        simp [Event.created, haction, hkey]
      · rw [if_neg haction] at hkind
        obtain ⟨hstored, hlast⟩ := hkind
        refine ⟨fun id hid => hlast ▸ hsep.used id hid, Or.inl ⟨?_, ?_⟩⟩
        · simp [Event.created, haction]
        · cases key <;> exact hstored
    obtain ⟨hused, hids⟩ := hids
    refine ⟨?_, fun id hid => ?_, fun id => ?_, fun tx' call' value ts key' hin hkey' => ?_,
      fun key' hreceipts tx' call' value ts hin hkey' => ?_⟩
    · rcases hids with ⟨hids, -⟩ | ⟨hids, -, hless⟩
      · exact hids ▸ hsep.increasing
      · rw [hids]
        exact List.pairwise_append.mpr ⟨hsep.increasing, List.pairwise_singleton .., fun id hid id'
          hid' => List.mem_singleton.mp hid' ▸ hless id hid⟩
    · show id.toNat ≤ o.world.store.lastId
      rcases hids with ⟨hids, -⟩ | ⟨hids, hlast, -⟩
      · exact hused id (hids ▸ hid)
      · rw [hids] at hid
        rcases List.mem_append.mp hid with hid | hid
        · exact hused id hid
        · rw [hlast, List.mem_singleton.mp hid]
    · rw [hstores, hstores]
      rcases hids with ⟨hids, hstored⟩ | ⟨hids, -⟩
      · rw [hids, hsep.stored]
        constructor
        · exact Or.imp Or.inl Or.inl
        · rintro ((h | rfl) | (h | rfl))
          · exact Or.inl h
          · exact Or.inl hstored
          · exact Or.inr h
          · exact Or.inr hstored
      · rw [hids, List.mem_append, List.mem_singleton, hsep.stored]
        cases key <;> simp [RoundKey.id] <;> tauto
    · rcases hmem hin with hin | ⟨hk, -⟩
      · exact (hstores key').mpr (Or.inl (hsep.worked tx' call' value ts key' hin hkey'))
      · exact (hstores key').mpr (Or.inr (Option.some_inj.mp (hkey'.symm.trans hk)))
    · rcases hmem hin with hin | ⟨hk, rfl⟩
      · refine hsep.receipts key' (fun r hr => ?_) tx' call' value ts hin hkey'
        obtain ⟨r', hr', hsame⟩ := hterms key' r (by rwa [World.withBalances_view])
        rw [← hsame]
        exact hreceipts r' (by rwa [World.withBalances_view])
      · -- whatever the call moved would be an asset of the round
        obtain rfl : key' = key := Option.some_inj.mp (hkey'.symm.trans hk)
        refine List.eq_nil_iff_forall_not_mem.mpr fun u hu => ?_
        obtain ⟨r, hr⟩ := hw'.stores_iff.mp ((hstores key').mpr (Or.inr rfl))
        obtain ⟨hpayment, hlot⟩ := hreceipts r (by rwa [World.withBalances_view])
        rcases (hw'.assets_iff hr u.asset).mp (hassets u hu) with h | ⟨n, h⟩
        · rw [hpayment] at h
          cases h
        · rw [hlot] at h
          cases h

theorem LooseRun.separated (hd : Deployed config c₀) (h : LooseRun host c₀ events c) :
    Separated events c.world := by
  induction h with
  | nil =>
    have hnone : ∀ key, ¬ c₀.world.Stores key := by
      intro key
      cases key <;> simp [World.Stores, hd.1, Store.empty]
    exact ⟨List.Pairwise.nil, fun _ hin => (List.not_mem_nil hin).elim,
      fun id => ⟨fun hin => (List.not_mem_nil hin).elim,
        fun h => (h.elim (hnone _) (hnone _)).elim⟩,
      fun _ _ _ _ _ hin => (List.not_mem_nil hin).elim,
      fun _ _ _ _ _ _ hin => (List.not_mem_nil hin).elim⟩
  | snoc hrun hstep ih =>
    exact LooseStep.separated hstep (LooseRun.sound hrun hd.chain_sound.world) ih

/-- **Rounds are isolated**, whatever the tokens do. -/
theorem isolation (hd : Deployed config c₀) (h : LooseRun host c₀ events c) :
    (∀ tx call value ts c', LooseStep host c (.called tx call value ts) c' →
      ∃ key, call.key value = some key ∧
        (∀ other, other ≠ key → c.world.KeepsRecords c'.world other) ∧
        ∀ asset, asset ∉ c'.world.assets key →
          c'.world.balances asset = c.world.balances asset) ∧
    (createdIds events).Pairwise (· < ·) ∧
    (∀ id, id ∈ createdIds events ↔ c.world.Stores (.v1 id) ∨ c.world.Stores (.v2 id)) ∧
    (∀ key, c.world.Stores key → ¬ c.world.Stores key.twin) ∧
    (∀ key call tx b, c.world.Stores key.twin → (∀ value, call.key value = some key) →
      invoke host tx call (c.world.withBalances b) = .error (if call.signer.all tx.auths = true
        then .error .RoundNotFound else .trap)) ∧
    (∀ id round, c.world.store.roundV2 id = some round → round.mode = .ReceiptOnly →
      ∀ tx call value ts, Event.called tx call value ts ∈ events →
        call.key value = some (.v2 id) → ts = []) := by
  have hs := LooseRun.sound h hd.chain_sound.world
  have hsep := LooseRun.separated hd h
  refine ⟨fun tx call value ts c' hstep => hstep.isolated hs, hsep.increasing, hsep.stored,
    fun key hkey htwin => ?_, fun key call tx b hstores hkey => ?_,
    fun id round hround hmode => hsep.receipts (.v2 id) fun r hr => ?_⟩
  · cases key with
    | v1 id =>
      rcases hs.distinct id with hnone | hnone
      · simp [World.Stores, hnone] at hkey
      · simp [World.Stores, RoundKey.twin, hnone] at htwin
    | v2 id =>
      rcases hs.distinct id with hnone | hnone
      · simp [World.Stores, RoundKey.twin, hnone] at htwin
      · simp [World.Stores, hnone] at hkey
  · have htwin : (c.world.withBalances b).Stores key.twin := by
      cases key <;> exact hstores
    exact (hs.withBalances b).wrong_generation htwin hkey
  · obtain ⟨other, hother, rfl⟩ := World.of_view_v2 hr
    obtain rfl : round = other := Option.some_inj.mp (hround.symm.trans hother)
    obtain ⟨hpayment, hlot⟩ := (hs.consistent id round hround).receiptOnly hmode
    exact ⟨hpayment, by simp [RoundV2.view, hlot]⟩

/-- A round of each generation; clearing the second as one of the first fails. -/
theorem isolation_sample : ∃ c events, LooseRun Sample.host Sample.deployed events c ∧
    createdIds events = [1, 2] ∧ (createdIds events).Pairwise (· < ·) ∧
    ¬ c.world.Stores (.v1 2) ∧
    invoke Sample.host (Sample.tx Sample.bob 1101) (.clear 2) c.world =
      .error (.error .RoundNotFound) := by
  obtain ⟨c, events, hrun, hvalue⟩ := Chain.exec_reaches Sample.host Sample.deployed
    [⟨Sample.tx Sample.operator 1000, .createRound Sample.args⟩,
      ⟨Sample.tx Sample.operator 1000, .createRoundV3 Sample.saleArgs Sample.salePolicy⟩,
      Sample.bid Sample.alice 1010 30]
    (fun c events => (createdIds events, (c.world.store.roundV2 2).isSome)) ([1, 2], true)
    (by decide +kernel)
  obtain ⟨hids, hstored⟩ := Prod.mk.inj hvalue
  obtain ⟨-, hincreasing, -, hone, hwrong, -⟩ := isolation Sample.deployed_ok hrun.loose
  exact ⟨c, events, hrun.loose, hids, hincreasing, hone (.v2 2) hstored,
    hwrong (.v1 2) (.clear 2) (Sample.tx Sample.bob 1101) c.world.balances hstored fun _ => rfl⟩

/-- A commit that the bidder did not authorise fails before the round is read. -/
theorem wrong_generation_unauthorised : ∃ c events, Run Sample.host Sample.deployed events c ∧
    c.world.Stores (.v2 1) ∧
    invoke Sample.host (Sample.tx Sample.bob 1020) (Sample.bid Sample.alice 1020 30).call c.world ≠
      .error (.error .RoundNotFound) := by
  obtain ⟨c, events, hrun, hstored⟩ := Chain.exec_reaches Sample.host Sample.deployed Sample.sale
    (fun c _ => (c.world.store.roundV2 1).isSome) true (by decide +kernel)
  refine ⟨c, events, hrun, hstored, ?_⟩
  have hs := (Run.sound hrun Sample.deployed_ok.chain_sound).world
  have hkey : ∀ value, (Sample.bid Sample.alice 1020 30).call.key value = some (.v1 1) :=
    fun _ => rfl
  have hunauth : (Sample.bid Sample.alice 1020 30).call.signer.all
      (Sample.tx Sample.bob 1020).auths = false := by decide
  have hstored : c.world.Stores (RoundKey.v1 1).twin := hstored
  rw [hs.wrong_generation hstored hkey, hunauth]
  simp

end

end SubRosa
