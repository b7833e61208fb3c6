import SubRosa.Guarantees.Roster
import SubRosa.Sdk.Bidders

/-!
# The bidder index, page by page

Following the cursor through the pages of the contract shows every bidder once,
also while others commit; so does the generator of the client.
-/

namespace SubRosa

open Invocation JavaScript Paging Sdk Coroutine

/-- What `get_bidders_page` answers in a world. -/
def biddersPageAt (env : Env) (roundId : UInt64) (limit : UInt32) (w : World) (cursor : UInt32) :
    Option BiddersPage :=
  ((getBiddersPage roundId cursor limit env ⟨w, []⟩).toOption).map Prod.fst

/-- The pages that are read in these worlds, each from the cursor of the one before, together;
`none` if the last one is not reached. -/
def followCursor (roundId : UInt64) (limit : UInt32) :
    List (Env × World) → UInt32 → Option (List Address)
  | [], _ => none
  | (env, w) :: ws, cursor => do
    let page ← biddersPageAt env roundId limit w cursor
    if page.nextCursor = 0 then return page.data
    else return page.data ++ (← followCursor roundId limit ws page.nextCursor)

section

variable {host : Host} {config : GlobalConfig} {c₀ c c' : Chain} {events : List Event}
  {roundId : UInt64} {round : Round}

/-- The list of bidders grows at its end. -/
theorem Run.bidders_grow (hs : c.Sound host config) (h : Run host c events c')
    (hround : c.world.store.round roundId = some round) :
    ∃ round', c'.world.store.round roundId = some round' ∧ round.bidders <+: round'.bidders := by
  obtain ⟨round', hround', -⟩ := h.round hs hround
  refine ⟨round', hround', ?_⟩
  have hview : c.world.view (.v1 roundId) =
      some (round.view config (c.world.store.state roundId)) := hs.world.view_round hround
  obtain ⟨q, hq, hprefix⟩ := Run.keeps (I := fun q => round.bidders <+: q.bidders)
    (fun q q' hI hprogress => hI.trans hprogress.bidders) h hs hview (List.prefix_refl _)
  rw [(h.sound hs).world.view_v1, hround', Option.map_some, Option.some.injEq] at hq
  subst hq
  exact hprefix

/-- What a page shows in a world that holds the round. -/
theorem biddersPageAt_eq {env : Env} {limit cursor : UInt32} {w : World}
    (hlimit : 0 < limit.toNat) (hmax : limit.toNat ≤ maxPageSize)
    (hround : w.store.round roundId = some round) (hsmall : round.bidders.length ≤ maxBidders) :
    ∃ p, biddersPageAt env roundId limit w cursor = some p ∧
      p.data = (page limit.toNat round.bidders cursor.toNat).data ∧
      p.nextCursor.toNat = (page limit.toNat round.bidders cursor.toNat).next := by
  obtain ⟨p, hyields, hdata, hnext⟩ :=
    @yields_getBiddersPage _ cursor _ env ⟨w, []⟩ _ hround hsmall hlimit hmax
  refine ⟨p, ?_, hdata, hnext⟩
  have hok : getBiddersPage roundId cursor limit env ⟨w, []⟩ = .ok (p, ⟨w, []⟩) := hyields
  rw [biddersPageAt, hok]
  rfl

/-- The bidders of the round in a world. -/
def World.biddersOf (roundId : UInt64) (w : World) : List Address :=
  ((w.store.round roundId).map Round.bidders).getD []

/-- A reading of the lists of bidders is what the contract shows. -/
theorem followCursor_of_reading {limit : UInt32} (hlimit : 0 < limit.toNat)
    (hmax : limit.toNat ≤ maxPageSize) {ws : List (Env × World)}
    (hworlds : ∀ p ∈ ws, ∃ round, p.2.store.round roundId = some round ∧
      round.bidders.length ≤ maxBidders) :
    ∀ {cursor : UInt32} {out : List Address},
      Reading limit.toNat cursor.toNat (ws.map fun p => World.biddersOf roundId p.2) out →
      followCursor roundId limit ws cursor = some out := by
  induction ws with
  | nil =>
    intro cursor out h
    cases h
  | cons p ws ih =>
    obtain ⟨env, w⟩ := p
    intro cursor out h
    obtain ⟨round, hround, hsmall⟩ := hworlds _ List.mem_cons_self
    obtain ⟨p, hp, hdata, hnext⟩ :=
      @biddersPageAt_eq _ _ env _ cursor _ hlimit hmax hround hsmall
    have hlist : World.biddersOf roundId w = round.bidders := by
      rw [World.biddersOf, hround]
      rfl
    rw [followCursor, hp, Option.bind_eq_bind, Option.bind_some]
    rw [List.map_cons, hlist] at h
    generalize hls : ws.map (fun p => World.biddersOf roundId p.2) = ls at h
    cases h with
    | last hlast =>
      have hzero : p.nextCursor = 0 := UInt32.toNat_inj.mp (hnext.trans hlast)
      rw [if_pos hzero, hdata]
      rfl
    | more hmore hrest =>
      have hne : p.nextCursor ≠ 0 := by
        intro hzero
        rw [hzero] at hnext
        exact hmore hnext.symm
      rw [← hnext, ← hls] at hrest
      rw [if_neg hne, ih (fun w hw => hworlds w (List.mem_cons_of_mem _ hw)) hrest, hdata]
      rfl

/-- Worlds that follow each other on the chain. -/
def Successive (host : Host) (cs : Nat → Chain) : Prop :=
  ∀ i, ∃ events, Run host (cs i) events (cs (i + 1))

theorem Successive.run {cs : Nat → Chain} (h : Successive host cs) (i n : Nat) :
    ∃ events, Run host (cs i) events (cs (i + n)) := by
  induction n with
  | zero => exact ⟨[], .nil⟩
  | succ n ih =>
    obtain ⟨events, hrun⟩ := ih
    obtain ⟨events', hstep⟩ := h (i + n)
    exact ⟨events ++ events', hrun.append hstep⟩

/-- The list of bidders of a round is within its limit. -/
theorem Chain.Sound.bidders_fit (hs : c.Sound host config)
    (hround : c.world.store.round roundId = some round) :
    round.bidders.Nodup ∧ round.bidders.length ≤ maxBidders := by
  have hview : c.world.view (.v1 roundId) =
      some (round.view config (c.world.store.state roundId)) := hs.world.view_round hround
  have hsound := hs.world.views _ _ hview
  exact ⟨hsound.nodup, hsound.capacity⟩

/-- **Pages of the contract.** Whatever happens between them, they end and show the bidders at the
last of them. -/
theorem pages_show {envs : Nat → Env} {limit : UInt32} (hs : c.Sound host config)
    (hround : c.world.store.round roundId = some round) (hlimit : 0 < limit.toNat)
    (hmax : limit.toNat ≤ maxPageSize) {cs : Nat → Chain} (hfirst : cs 0 = c)
    (hnext : Successive host cs) :
    ∃ n final, followCursor roundId limit
        ((List.range (n + 1)).map fun i => (envs i, (cs i).world)) 0 = some final.bidders ∧
      (cs n).world.store.round roundId = some final := by
  have hreached : ∀ i, (cs i).Sound host config ∧
      ∃ r, (cs i).world.store.round roundId = some r := by
    intro i
    obtain ⟨events, hrun⟩ := hnext.run 0 i
    rw [hfirst, Nat.zero_add] at hrun
    obtain ⟨r, hr, -⟩ := Run.bidders_grow hs hrun hround
    exact ⟨hrun.sound hs, r, hr⟩
  have hlist : ∀ {i r}, (cs i).world.store.round roundId = some r →
      World.biddersOf roundId (cs i).world = r.bidders := by
    intro i r hr
    rw [World.biddersOf, hr]
    rfl
  have hbound : ∀ i, (World.biddersOf roundId (cs i).world).length ≤ maxBidders := by
    intro i
    obtain ⟨hsound, r, hr⟩ := hreached i
    rw [hlist hr]
    exact (hsound.bidders_fit hr).2
  have hgrow : ∀ i j, i < j →
      World.biddersOf roundId (cs i).world <+: World.biddersOf roundId (cs j).world := by
    intro i j hij
    obtain ⟨hsound, r, hr⟩ := hreached i
    obtain ⟨events, hrun⟩ := hnext.run i (j - i)
    rw [Nat.add_sub_of_le hij.le] at hrun
    obtain ⟨r', hr', hprefix⟩ := Run.bidders_grow hsound hrun hr
    rw [hlist hr, hlist hr']
    exact hprefix
  obtain ⟨n, out, -, hreading⟩ := exists_reading hlimit
    (fun i => World.biddersOf roundId (cs i).world) hbound 0 0
  rw [← List.range_eq_range'] at hreading
  obtain ⟨-, final, hfinal⟩ := hreached n
  have hout : out = final.bidders := by
    have hchain : ((List.range (n + 1)).map fun i => World.biddersOf roundId (cs i).world).IsChain
        (· <+: ·) :=
      List.isChain_iff_pairwise.mpr (List.pairwise_lt_range.map _ fun i j => hgrow i j)
    have hlast : ((List.range (n + 1)).map fun i => World.biddersOf roundId (cs i).world).getLast? =
        some final.bidders := by
      rw [List.range_succ, List.map_append, List.map_singleton, List.getLast?_concat, hlist hfinal]
    exact hreading.shows hlimit hchain hlast
  refine ⟨n, final, ?_, hfinal⟩
  subst hout
  refine followCursor_of_reading hlimit hmax ?_ ?_
  · intro w hw
    obtain ⟨i, -, rfl⟩ := List.mem_map.mp hw
    obtain ⟨hsound, r, hr⟩ := hreached i
    exact ⟨r, hr, (hsound.bidders_fit hr).2⟩
  · rw [List.map_map]
    exact hreading

/-! ## The generator -/

/-- The node answers with what the contract shows; before every answer others may act. -/
def PageAnswers (host : Host) (c : (ClientState × List Address) × Chain) (q : PageRequest)
    (a : Except ClientError q.Answer) (d : (ClientState × List Address) × Chain) : Prop :=
  d.1 = c.1 ∧ (∃ events, Run host c.2 events d.2) ∧ ∃ tx : Transaction,
    match q, a with
    | .validateContractNetwork, a => a = .ok ()
    | .getBiddersPage roundId cursor limit, a =>
      match getBiddersPage roundId cursor limit ⟨host, tx⟩ ⟨d.2.world, []⟩ with
      | .ok (p, _) => a = .ok p
      | .error _ => ∃ e, a = .error e

theorem roundId_of_toNat (client : SubRosaClient) (roundId : UInt64) :
    client.roundId (.bigint roundId.toNat) = .ok roundId :=
  bind_eq_ok.mpr ⟨roundId.toNat, rfl, encoded_eq_ok.mpr (client.encoder.u64_toNat roundId)⟩

/-- One page of the generator. -/
theorem getBiddersPage_answers {client : SubRosaClient} {cursor limit : UInt32}
    {s s' : ClientState × List Address} {r : Except ClientError BiddersPage}
    (hlimit : 0 < limit.toNat) (hmax : limit.toNat ≤ maxPageSize)
    (hs : c.Sound host config) (hround : c.world.store.round roundId = some round)
    (h : Ends (PageAnswers host)
      (client.getBiddersPage (.bigint roundId.toNat) cursor limit) (s, c) r
      (s', c')) :
    s'.2 = s.2 ∧ (∃ events, Run host c events c') ∧ ∃ p round', r = .ok p ∧
      c'.world.store.round roundId = some round' ∧
      p.data = (page limit.toNat round'.bidders cursor.toNat).data ∧
      p.nextCursor.toNat = (page limit.toNat round'.bidders cursor.toNat).next := by
  -- the read itself, with or without the validation before it
  have hread : ∀ {c s}, c.Sound host config → ∀ {round}, c.world.store.round roundId = some round →
      Ends (PageAnswers host) (Coroutine.done (client.roundId (.bigint roundId.toNat)) >>= fun id =>
        askPage (.getBiddersPage id cursor limit)) (s, c) r (s', c') →
      s'.2 = s.2 ∧ (∃ events, Run host c events c') ∧ ∃ p round', r = .ok p ∧
        c'.world.store.round roundId = some round' ∧
        p.data = (page limit.toNat round'.bidders cursor.toNat).data ∧
        p.nextCursor.toNat = (page limit.toNat round'.bidders cursor.toNat).next := by
    intro c s hs round hround h
    obtain ⟨id, hid, hrest⟩ := (ends_done_bind.mp h).resolve_right (by
      rintro ⟨e, he, -⟩
      rw [roundId_of_toNat] at he
      cases he)
    obtain rfl : id = roundId := Except.ok.inj (hid.symm.trans (roundId_of_toNat client roundId))
    obtain ⟨hsame, ⟨events, hrun⟩, tx, hanswer⟩ := ends_request.mp hrest
    obtain ⟨round', hround', -⟩ := Run.bidders_grow hs hrun hround
    obtain ⟨p, hyields, hdata, hnext⟩ := @yields_getBiddersPage _ cursor _ ⟨host, tx⟩
      ⟨c'.world, []⟩ _ hround' ((hrun.sound hs).bidders_fit hround').2 hlimit hmax
    have hok : getBiddersPage id cursor limit ⟨host, tx⟩ ⟨c'.world, []⟩ =
      .ok (p, ⟨c'.world, []⟩) := hyields
    dsimp only at hanswer
    rw [hok] at hanswer
    exact ⟨congrArg Prod.snd hsame, ⟨events, hrun⟩, p, round', hanswer, hround', hdata, hnext⟩
  unfold SubRosaClient.getBiddersPage at h
  rw [ends_inspect_bind] at h
  split at h
  · exact hread hs hround h
  · rcases ends_bind.mp h with ⟨_, ⟨s₁, c₁⟩, hask, h⟩ | ⟨e, -, hask⟩
    · obtain ⟨hsame, ⟨events, hrun⟩, -, -⟩ := ends_request.mp hask
      obtain ⟨round₁, hround₁, -⟩ := Run.bidders_grow hs hrun hround
      obtain rfl : s₁ = s := hsame
      have hrest : Ends (PageAnswers host)
          (Coroutine.change (fun s => (⟨true⟩, s.2)) >>= fun _ =>
            Coroutine.done (client.roundId (.bigint roundId.toNat)) >>= fun id =>
            askPage (.getBiddersPage id cursor limit)) (s₁, c₁) r (s', c') := by assumption
      rw [ends_change_bind] at hrest
      obtain ⟨hkeep, ⟨events', hrun'⟩, hpage⟩ := hread (hrun.sound hs) hround₁ hrest
      exact ⟨hkeep, ⟨_, hrun.append hrun'⟩, hpage⟩
    · obtain ⟨-, -, tx, hanswer⟩ := ends_request.mp hask
      cases hanswer

/-- **The loop of the generator.** -/
theorem biddersLoop_shows {client : SubRosaClient} {r : Except ClientError Bool}
    {s' : ClientState × List Address} {fuel : Nat} :
    ∀ {cursor : UInt32} {s : ClientState × List Address} {c : Chain} {round : Round},
      c.Sound host config → c.world.store.round roundId = some round →
      maxBidders - cursor.toNat < fuel →
      Ends (PageAnswers host) (client.biddersLoop (.bigint roundId.toNat) fuel cursor) (s, c) r
        (s', c') →
      r = .ok true ∧ (∃ events, Run host c events c') ∧ ∃ final,
        c'.world.store.round roundId = some final ∧
        s'.2 = s.2 ++ final.bidders.drop cursor.toNat := by
  have h100 : (100 : UInt32).toNat = 100 := rfl
  induction fuel with
  | zero =>
    intro cursor s c round _ _ hfuel
    exact absurd hfuel (Nat.not_lt_zero _)
  | succ fuel ih =>
    intro cursor s c round hs hround hfuel h
    rcases ends_bind.mp h with ⟨p, ⟨s₁, c₁⟩, hpage, h⟩ | ⟨e, -, hpage⟩
    · obtain ⟨hkeep, ⟨events, hrun⟩, p', round₁, hp, hround₁, hdata, hnext⟩ :=
        getBiddersPage_answers (by decide) (by decide) hs hround hpage
      obtain rfl : p = p' := Except.ok.inj hp
      have hs₁ := hrun.sound hs
      have hfit := (hs₁.bidders_fit hround₁).2
      rw [ends_change_bind] at h
      rw [h100] at hdata hnext
      split at h
      · next hmore =>
        have hne : (page 100 round₁.bidders cursor.toNat).next ≠ 0 := fun hzero =>
          hmore (UInt32.toNat_inj.mp (hnext.trans hzero))
        have hlt : cursor.toNat + 100 < round₁.bidders.length :=
          not_le.mp (mt (page_next_eq_zero (by decide)).mpr hne)
        rw [page_more hlt] at hdata hnext
        have hbound : round₁.bidders.length ≤ maxBidders := hfit
        obtain ⟨hr, ⟨events', hrun'⟩, final, hfinal, hyielded⟩ := ih hs₁ hround₁
          (by rw [hnext]; dsimp only; omega) h
        obtain ⟨round₂, hround₂, hprefix⟩ := Run.bidders_grow hs₁ hrun' hround₁
        obtain rfl : final = round₂ := Option.some.inj (hfinal.symm.trans hround₂)
        refine ⟨hr, ⟨_, hrun.append hrun'⟩, final, hfinal, ?_⟩
        rw [hyielded, hnext, hdata, hkeep, List.append_assoc,
          take_append_drop_of_prefix hprefix hlt.le]
      · next hlast =>
        have hzero : (page 100 round₁.bidders cursor.toNat).next = 0 := by
          rw [← hnext, not_not.mp hlast]
          rfl
        have hle := (page_next_eq_zero (by decide)).mp hzero
        obtain ⟨rfl, hend⟩ := ends_pure.mp h
        obtain ⟨hstate, hchain⟩ := Prod.mk.inj hend
        subst hchain
        refine ⟨rfl, ⟨events, hrun⟩, round₁, hround₁, ?_⟩
        rw [hstate, hdata, page_last hle, hkeep]
    · obtain ⟨-, -, p', round₁, hp, -⟩ :=
        getBiddersPage_answers (by decide) (by decide) hs hround hpage
      cases hp

/-- The generator always ends. -/
theorem bidders_ends (client : SubRosaClient) (roundId : Numeric) (fuel : Nat)
    (c : (ClientState × List Address) × Chain) :
    ∃ r d, Ends (PageAnswers host) (client.bidders roundId fuel) c r d := by
  let tx : Transaction := ⟨0, 0, fun _ => false, fun _ => true⟩
  have hanswer : ∀ (c : (ClientState × List Address) × Chain) (q : PageRequest), True →
      ∃ a d, PageAnswers host c q a d ∧ True := by
    intro c q _
    cases q with
    | validateContractNetwork => exact ⟨.ok (), c, ⟨rfl, ⟨[], .nil⟩, tx, rfl⟩, trivial⟩
    | getBiddersPage id cursor limit =>
      cases hpage : getBiddersPage id cursor limit ⟨host, tx⟩ ⟨c.2.world, []⟩ with
      | ok p =>
        refine ⟨.ok p.1, c, ⟨rfl, ⟨[], .nil⟩, tx, ?_⟩, trivial⟩
        dsimp only
        rw [hpage]
      | error e =>
        refine ⟨.error .network, c, ⟨rfl, ⟨[], .nil⟩, tx, ?_⟩, trivial⟩
        dsimp only
        rw [hpage]
        exact ⟨_, rfl⟩
  obtain ⟨r, d, h, -⟩ := exists_ends (fun _ _ _ => trivial) hanswer
    (client.bidders roundId fuel) (c := c) trivial
  exact ⟨r, d, h⟩

/-- **Pagination loses and repeats nobody**, neither of an unchanged round nor while others
commit, and the generator of the client yields what the pages show. -/
theorem bidders_paged (hd : Deployed config c₀) (h : Run host c₀ events c)
    (hround : c.world.store.round roundId = some round) :
    (∀ (limit : UInt32) (envs : Nat → Env), 1 ≤ limit.toNat → limit.toNat ≤ 100 →
      (∃ n, followCursor roundId limit ((List.range (n + 1)).map fun i => (envs i, c.world)) 0 =
        some round.bidders) ∧
      ∀ cs : Nat → Chain, cs 0 = c → Successive host cs → ∃ n final,
        followCursor roundId limit ((List.range (n + 1)).map fun i => (envs i, (cs i).world)) 0 =
          some final.bidders ∧
        (cs n).world.store.round roundId = some final ∧ final.bidders.Nodup ∧
        round.bidders <+: final.bidders ∧
        ∀ m, n ≤ m → ∃ later, (cs m).world.store.round roundId = some later ∧
          final.bidders <+: later.bidders) ∧
    (∀ (client : SubRosaClient) (state : ClientState) (fuel : Nat), 500 < fuel →
      (∃ r d, Ends (PageAnswers host) (client.bidders (.bigint roundId.toNat) fuel)
        ((state, []), c) r d) ∧
      ∀ r d, Ends (PageAnswers host) (client.bidders (.bigint roundId.toNat) fuel)
          ((state, []), c) r d →
        r = .ok true ∧ (∃ events, Run host c events d.2) ∧ ∃ final,
          d.2.world.store.round roundId = some final ∧ d.1.2 = final.bidders ∧
          final.bidders.Nodup ∧ round.bidders <+: final.bidders) := by
  have hs := h.sound hd.chain_sound
  refine ⟨fun limit envs hlimit hmax => ⟨?_, fun cs hfirst hnext => ?_⟩,
    fun client state fuel hfuel => ⟨bidders_ends client _ fuel _, ?_⟩⟩
  · obtain ⟨n, final, hpages, hfinal⟩ :=
      @pages_show host config c roundId round envs limit hs hround
      hlimit hmax (fun _ => c) rfl fun _ => ⟨[], .nil⟩
    obtain rfl : final = round := Option.some.inj (hfinal.symm.trans hround)
    exact ⟨n, hpages⟩
  · obtain ⟨n, final, hpages, hfinal⟩ :=
      @pages_show host config c roundId round envs limit hs hround hlimit hmax cs hfirst hnext
    obtain ⟨events₁, hrun₁⟩ := hnext.run 0 n
    rw [hfirst, Nat.zero_add] at hrun₁
    have hs₁ := hrun₁.sound hs
    obtain ⟨round₁, hround₁, hprefix⟩ := Run.bidders_grow hs hrun₁ hround
    obtain rfl : final = round₁ := Option.some.inj (hfinal.symm.trans hround₁)
    refine ⟨n, final, hpages, hfinal, (hs₁.bidders_fit hfinal).1, hprefix, fun m hm => ?_⟩
    obtain ⟨events₂, hrun₂⟩ := hnext.run n (m - n)
    rw [Nat.add_sub_of_le hm] at hrun₂
    exact Run.bidders_grow hs₁ hrun₂ hfinal
  · rintro r ⟨s', c'⟩ hends
    obtain ⟨hr, ⟨events', hrun⟩, final, hfinal, hyielded⟩ :=
      biddersLoop_shows hs hround (by simpa [maxBidders] using hfuel) hends
    obtain ⟨round', hround', hprefix⟩ := Run.bidders_grow hs hrun hround
    obtain rfl : final = round' := Option.some.inj (hfinal.symm.trans hround')
    exact ⟨hr, ⟨events', hrun⟩, final, hfinal, hyielded.trans (by simp),
      ((hrun.sound hs).bidders_fit hfinal).1, hprefix⟩

/-- Two bidders, in pages of one. -/
theorem bidders_paged_sample : ∃ c events round n, Run Sample.host Sample.deployed events c ∧
    c.world.store.round 1 = some round ∧ round.bidders = [Sample.alice, Sample.bob] ∧
    followCursor 1 1 ((List.range (n + 1)).map fun _ => (⟨Sample.host, Sample.tx Sample.bob 1001⟩,
      c.world)) 0 = some [Sample.alice, Sample.bob] := by
  obtain ⟨c, events, hrun, hvalue⟩ := Chain.exec_reaches Sample.host Sample.deployed Sample.auction
    (fun c _ => (c.world.store.round 1).map Round.bidders) (some [Sample.alice, Sample.bob])
    (by decide +kernel)
  obtain ⟨round, hround, hlist⟩ := Option.map_eq_some_iff.mp hvalue
  obtain ⟨n, hpages⟩ := ((bidders_paged Sample.deployed_ok hrun hround).1 1
    (fun _ => ⟨Sample.host, Sample.tx Sample.bob 1001⟩) (by decide) (by decide)).1
  exact ⟨c, events, round, n, hrun, hround, hlist, hlist ▸ hpages⟩

end

end SubRosa
