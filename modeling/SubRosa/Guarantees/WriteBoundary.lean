import SubRosa.Guarantees.Isolation
import SubRosa.Guarantees.Preflights
import SubRosa.Pollar.Client

/-!
# The write boundary of the receipt-only client

A session of method calls against a chain that everyone else uses as well.
Tokens may be of any kind. Whatever the session submits stays within the
boundary unless it calls one of the four first generation methods that the
client inherits, or changes the parameters of a creation or of a commit after
the adapter has checked them.
-/

namespace SubRosa.Pollar

open Invocation TokenLedger JavaScript Sdk Coroutine

/-- What the boundary forbids in every state. -/
def Forbidden : Call → Prop
  | .createRound _ | .commit _ _ _ _ _ _ | .clear _ | .settle _ | .void _ => True
  | .createRoundV2 _ settlement => settlement.mode = .Auction
  | .createPartnerRoundV2 _ policy => policy.settlement.mode = .Auction
  | .createRoundV3 _ policy => policy.partner.settlement.mode = .Auction
  | _ => False

/-- A transaction the client sent, with what its call returned and moved if it was executed. -/
structure Submission where
  call : Call
  executed : Option (Value × List Transfer)

/-- Nothing forbidden, and no second generation operation that moves tokens. -/
def Submission.Within (s : Submission) : Prop :=
  ¬ Forbidden s.call ∧ ∀ value ts, s.executed = some (value, ts) →
    (∃ id, s.call.key value = some (.v2 id)) → ts = []

/-- The chain with its history, and what the client submitted. -/
structure Ledger where
  chain : Chain
  events : List Event
  submitted : List Submission

/-- How the network answers: others act first, then a read sees the chain and a transaction is
executed or not. A simulation that fails counts as a transaction that is not executed. -/
inductive Answers (host : Host) : ClientState × Ledger → (q : ClientRequest) →
    Except ClientError q.Answer → ClientState × Ledger → Prop
  | fails {s : ClientState} {l : Ledger} {es : List Event} {c : Chain} {q : ClientRequest}
      (e : ClientError) : (∀ call, q ≠ .submit call) → LooseRun host l.chain es c →
      Answers host (s, l) q (.error e) (s, { l with chain := c, events := l.events ++ es })
  | validated {s : ClientState} {l : Ledger} {es : List Event} {c : Chain} :
      LooseRun host l.chain es c →
      Answers host (s, l) .validateContractNetwork (.ok ())
        (s, { l with chain := c, events := l.events ++ es })
  | simulated {s : ClientState} {l : Ledger} {es : List Event} {c : Chain} :
      LooseRun host l.chain es c →
      Answers host (s, l) .simulate (.ok ()) (s, { l with chain := c, events := l.events ++ es })
  | read {s : ClientState} {l : Ledger} {es : List Event} {c : Chain} {id : UInt64}
      {round : RoundV2} : LooseRun host l.chain es c → c.world.store.roundV2 id = some round →
      Answers host (s, l) (.getRoundV2 id) (.ok round)
        (s, { l with chain := c, events := l.events ++ es })
  | rejected {s : ClientState} {l : Ledger} {es : List Event} {c : Chain} {call : Call}
      (e : ClientError) : LooseRun host l.chain es c →
      Answers host (s, l) (.submit call) (.error e)
        (s, ⟨c, l.events ++ es, l.submitted ++ [⟨call, none⟩]⟩)
  | executed {s : ClientState} {l : Ledger} {es : List Event} {c c' : Chain} {tx : Transaction}
      {call : Call} {value : Value} {ts : List Transfer} (r : Except ClientError Value) :
      LooseRun host l.chain es c → LooseStep host c (.called tx call value ts) c' →
      Answers host (s, l) (.submit call) r
        (s, ⟨c', l.events ++ es ++ [.called tx call value ts],
          l.submitted ++ [⟨call, some (value, ts)⟩]⟩)

/-- A commit whose arguments pass the checks of the method and encode. -/
def Commits (client : SubRosaClient) (params : Mutable CommitParams) : Prop :=
  SubRosaClient.requireValidBlobs params.atCall.sealedBid = .ok () ∧
    CommitEncodes client params.atCall.bidder params.atBuild.roundId
      params.atBuild.sealedBid.commitment params.atBuild.escrow

/-- A structured commit that does not name an escrow when the adapter looks, and then one that
encodes to a positive amount. -/
def GainsEscrow (client : SubRosaClient) (params : Mutable CommitV2Params) : Prop :=
  params.atCall.escrow = 0 ∧ params.atCall.sealedPayload.version = 1 ∧
    SubRosaClient.requireValidBlobs params.atCall.sealedPayload.toSealedBid = .ok () ∧
    CommitEncodes client params.atCall.bidder params.atBuild.roundId
      params.atBuild.sealedPayload.commitment params.atBuild.escrow ∧
    ∀ escrow, client.encoder.i128 params.atBuild.escrow = some escrow → 0 < escrow.toInt

/-- The methods that make a transaction which the boundary forbids, with arguments that encode: the
inherited ones of the first generation, and those whose parameters pass the check of the adapter
and are others when the arguments are built. -/
def MethodCall.Unguarded (client : SubRosaClient) : MethodCall → Prop
  | .commit params => Commits client params
  | .clear n | .settle n | .void n => n.Encodes client.encoder
  | .createRoundV2 params =>
    params.atCall.mode = .ReceiptOnly ∧ params.atBuild.mode = .Auction ∧
      ∃ operator round settlement,
        client.addressOr params.atCall.operator "operator" = .ok operator ∧
        v2RoundArgs params.atBuild operator = .ok (round, settlement) ∧
        (round.encode client.encoder).toOption.isSome ∧
        (settlement.encode client.encoder).toOption.isSome
  | .createPartnerRoundV2 params =>
    (params.atCall.mode = .ReceiptOnly ∧ params.atCall.fixedEscrow = 0) ∧
      params.atBuild.mode = .Auction ∧
      ∃ operator round policy, client.addressOr params.atCall.operator "operator" = .ok operator ∧
        partnerV2RoundArgs params.atBuild operator = .ok (round, policy) ∧
        (round.encode client.encoder).toOption.isSome ∧
        (policy.encode client.encoder).toOption.isSome
  | .createRoundV3 params =>
    (params.atCall.mode = .ReceiptOnly ∧ params.atCall.fixedEscrow = 0) ∧
      params.atBuild.mode = .Auction ∧
      ∃ operator round partner reveal,
        client.addressOr params.atCall.operator "operator" = .ok operator ∧
        v3RoundArgs params.atBuild operator = .ok (round, partner, reveal) ∧
        (round.encode client.encoder).toOption.isSome ∧
        (partner.encode client.encoder).toOption.isSome
  | .commitV2 params | .submitV2 params => GainsEscrow client params
  | _ => False

/-- The caller leaves the parameters of the call alone. -/
def MethodCall.Settled : MethodCall → Prop
  | .createRoundV2 params => params.atBuild = params.atCall
  | .createPartnerRoundV2 params => params.atBuild = params.atCall
  | .createRoundV3 params => params.atBuild = params.atCall
  | .commitV2 params | .submitV2 params => params.atBuild = params.atCall
  | _ => True

/-- With parameters that stay as they are only the inherited methods are unguarded. -/
theorem MethodCall.Settled.unguarded {client : SubRosaClient} {call : MethodCall}
    (hsettled : call.Settled) (h : call.Unguarded client) :
    (∃ params, call = .commit params) ∨
      ∃ n, call = .clear n ∨ call = .settle n ∨ call = .void n := by
  have hturned : ∀ {before after : RoundMode}, after = before → before = .ReceiptOnly →
      after = .Auction → False := by
    rintro _ _ rfl rfl h
    cases h
  have hgained : ∀ {params : Mutable CommitV2Params}, params.atBuild = params.atCall →
      GainsEscrow client params → False := by
    rintro params hsame ⟨hzero, -, -, -, hpositive⟩
    have hencoded : client.encoder.i128 0 = some ⟨0, by decide, by decide⟩ :=
      client.encoder.i128_toInt ⟨0, by decide, by decide⟩
    rw [hsame, hzero] at hpositive
    exact absurd (hpositive _ hencoded) (lt_irrefl 0)
  cases call with
  | commit params => exact Or.inl ⟨params, rfl⟩
  | clear n => exact Or.inr ⟨n, Or.inl rfl⟩
  | settle n => exact Or.inr ⟨n, Or.inr (Or.inl rfl)⟩
  | void n => exact Or.inr ⟨n, Or.inr (Or.inr rfl)⟩
  | createRoundV2 params => exact (hturned (congrArg _ hsettled) h.1 h.2.1).elim
  | createPartnerRoundV2 params =>
    exact (hturned
      (congrArg (fun p : CreatePartnerRoundV2Params => p.mode) hsettled) h.1.1 h.2.1).elim
  | createRoundV3 params =>
    exact (hturned (congrArg (fun p : CreateRoundV3Params => p.mode) hsettled) h.1.1 h.2.1).elim
  | commitV2 params => exact (hgained hsettled h).elim
  | submitV2 params => exact (hgained hsettled h).elim
  | createRound | openReveal | openRevealV2 | reveal | revealV2 | clearV2 | settleV2 | voidV2
  | getRoundV2 | simulation => exact False.elim h

/-- In every later state of the chain the call keeps the boundary. -/
def Harmless (host : Host) (c : Chain) (call : Call) : Prop :=
  ¬ Forbidden call ∧ ∀ es d, LooseRun host c es d → ∀ tx value ts d',
    LooseStep host d (.called tx call value ts) d' → ts = []

/-- The chain has a history since deployment, and everything submitted is within the boundary. -/
structure Upheld (host : Host) (c₀ : Chain) (l : Ledger) : Prop where
  history : LooseRun host c₀ l.events l.chain
  submitted : ∀ s ∈ l.submitted, s.Within

section

variable {host : Host} {config : GlobalConfig} {c₀ c c' : Chain} {tx : Transaction} {call : Call}
  {value : Value} {ts : List Transfer} {key : RoundKey} {es : List Event} {w : World}

/-! ## Calls that move nothing -/

/-- A round is stored under the key and takes neither payments nor a lot. -/
def StoresReceipts (w : World) (key : RoundKey) : Prop :=
  ∃ r, w.view key = some r ∧ r.terms.payment = none ∧ r.terms.lot = none

theorem StoresReceipts.of_mode {now : Nat} (hw : w.Sound host config now) {id : UInt64}
    {round : RoundV2} (hround : w.store.roundV2 id = some round)
    (hmode : round.mode = .ReceiptOnly) :
    StoresReceipts w (.v2 id) := by
  obtain ⟨hpayment, hlot⟩ := (hw.consistent id round hround).receiptOnly hmode
  refine ⟨round.view (w.store.submissionV2 id), ?_, hpayment, ?_⟩
  · simp [World.view, hround]
  · simp [RoundV2.view, hlot]

theorem StoresReceipts.step {e : Event} (h : StoresReceipts c.world key)
    (hstep : LooseStep host c e c') (hs : c.world.Sound host config c.now.toNat) :
    StoresReceipts c'.world key := by
  obtain ⟨r, hr, hpayment, hlot⟩ := h
  cases hstep with
  | failed => exact ⟨r, hr, hpayment, hlot⟩
  | outside _ b => exact ⟨r, (c.world.withBalances_view b key).trans hr, hpayment, hlot⟩
  | revealStateLost id => exact ⟨r, (c.world.loseRevealState_view id key).trans hr, hpayment, hlot⟩
  | @called tx call o before after hnow hself hcall =>
    have hw := (hs.later (UInt64.le_iff_toNat_le.mp hnow)).withBalances before
    obtain ⟨key', hkey', -⟩ := hw.invoke_elsewhere hself hcall
    obtain ⟨-, hterms, -⟩ := hw.invoke_stores hself hcall hkey'
    obtain ⟨r', hr', hsame⟩ := hterms key r ((c.world.withBalances_view before key).trans hr)
    refine ⟨r', (o.world.withBalances_view after key).trans hr', ?_, ?_⟩
    · rw [hsame, hpayment]
    · rw [hsame, hlot]

theorem StoresReceipts.run (h : StoresReceipts c.world key) (hrun : LooseRun host c es c')
    (hs : c.world.Sound host config c.now.toNat) : StoresReceipts c'.world key :=
  hrun.invariant_of (J := fun d => d.world.Sound host config d.now.toNat)
    (I := fun d => StoresReceipts d.world key) (fun _ _ _ hd hstep => LooseStep.sound hstep hd)
    (fun _ _ _ hd h hstep => h.step hstep hd) hs h

/-- A call on a round whose step names no asset moves nothing. -/
theorem nothing_moved (hs : c.world.Sound host config c.now.toNat) {action : Action}
    (haction : call.action = some action) (hkey : call.key value = some key)
    (hstep : LooseStep host c (.called tx call value ts) c')
    (hnone : ∀ t r r', c.world.view key = some r → Transition host t r action ts r' → ts = []) :
    ts = [] := by
  cases hstep with
  | @called _ _ o before after hnow hself hcall =>
    have hw := (hs.later (UInt64.le_iff_toNat_le.mp hnow)).withBalances before
    obtain ⟨r, r', hr, -, htrans⟩ := hw.invoke_step hself hcall hkey haction
    rw [World.withBalances_view] at hr
    exact hnone tx.timestamp.toNat r r' hr htrans

/-- A step of a round without assets moves nothing. -/
theorem no_transfers {t : Nat} {r r' : SealedRound} {action : Action}
    (hpayment : r.terms.payment = none) (hlot : r.terms.lot = none)
    (h : Transition host t r action ts r') : ts = [] := by
  refine List.eq_nil_iff_forall_not_mem.mpr fun u hu => ?_
  rcases h.names hu with hname | ⟨n, hname⟩
  · rw [hpayment] at hname
    cases hname
  · rw [hlot] at hname
    cases hname

/-! ## Harmless calls -/

theorem Harmless.later (h : Harmless host c call) (hrun : LooseRun host c es c') :
    Harmless host c' call :=
  ⟨h.1, fun es' d hd => h.2 (es ++ es') d (hrun.append hd)⟩

/-- A call on a receipt-only round of the second generation. -/
theorem harmless_on_receipts (hs : c.world.Sound host config c.now.toNat) {id : UInt64}
    (hreceipts : StoresReceipts c.world (.v2 id)) {action : Action}
    (haction : call.action = some action) (hkey : ∀ value, call.key value = some (.v2 id))
    (hallowed : ¬ Forbidden call) : Harmless host c call := by
  refine ⟨hallowed, fun es d hrun tx value ts d' hstep => ?_⟩
  refine nothing_moved (LooseRun.sound hrun hs) haction (hkey value) hstep
    fun t r r' hr htrans => ?_
  obtain ⟨q, hq, hpayment, hlot⟩ := hreceipts.run hrun hs
  obtain rfl := Option.some_inj.mp (hr.symm.trans hq)
  exact no_transfers hpayment hlot htrans

/-- Opening and revealing never move anything. -/
theorem harmless_of_action (hs : c.world.Sound host config c.now.toNat) {action : Action}
    (haction : call.action = some action) (hkey : ∃ key, ∀ value, call.key value = some key)
    (hallowed : ¬ Forbidden call)
    (hnone : ∀ t r r' ts, Transition host t r action ts r' → ts = []) : Harmless host c call := by
  obtain ⟨key, hkey⟩ := hkey
  exact ⟨hallowed, fun es d hrun tx value ts d' hstep =>
    nothing_moved (LooseRun.sound hrun hs) haction (hkey value) hstep fun t r r' _ =>
      hnone t r r' ts⟩

/-- A commit without a positive escrow succeeds on receipt-only rounds only. -/
theorem harmless_commitV2 (hs : c.world.Sound host config c.now.toNat) {id : UInt64} {b : Address}
    {commitment : BytesN 32} {ciphertext blob : Bytes} {escrow : MachineInt.I128}
    (hzero : ¬ 0 < escrow.toInt) :
    Harmless host c (.commitV2 id b commitment ciphertext escrow blob) := by
  refine ⟨not_false, fun es d hrun tx value ts d' hstep => ?_⟩
  have hd := LooseRun.sound hrun hs
  refine nothing_moved hd rfl rfl hstep fun t r r' hr htrans => ?_
  cases htrans with
  | commit _ _ _ _ _ _ _ hescrow =>
    have hpayment : r.terms.payment = none := by
      unfold Terms.EscrowOk at hescrow
      split at hescrow
      · exact absurd hescrow hzero
      · assumption
    have hlot := (hd.views (.v2 id) r hr).auction hpayment
    exact no_transfers hpayment hlot (.commit b commitment escrow.toInt ‹_› ‹_› ‹_› ‹_› hescrow)

/-- A creation of a receipt-only round. -/
theorem harmless_creation (hs : c.world.Sound host config c.now.toNat) {creation : Creation}
    (hcall : call.creation = some creation) (hmode : creation.settlement.mode = .ReceiptOnly) :
    Harmless host c call := by
  have haction : call.action = none := by
    cases call <;> first | rfl | cases hcall
  refine ⟨?_, fun es d hrun tx value ts d' hstep => ?_⟩
  · have hnot : creation.settlement.mode ≠ .Auction := by
      rw [hmode]
      decide
    cases call <;> cases hcall <;> exact hnot
  · have hd := LooseRun.sound hrun hs
    cases hstep with
    | @called _ _ o before after hnow hself hinvoke =>
      have hw := (hd.later (UInt64.le_iff_toNat_le.mp hnow)).withBalances before
      have hw' := invoke_sound hw hself hinvoke
      obtain ⟨id, hvalue, hwrote⟩ := hw.creation_writes hinvoke hcall
      obtain ⟨key, hkey, href⟩ := invoke_refines hw hself hinvoke
      rw [haction] at href
      obtain ⟨r, hr, -, htransfers⟩ := href.created
      have hkey' : key = .v2 id := by
        rw [hvalue] at hkey
        cases call <;> cases hcall <;> exact (Option.some_inj.mp hkey).symm
      subst hkey'
      have hround : o.world.store.roundV2 id = some creation.round := by
        rw [hwrote.roundV2, Function.update_self]
      have hstored : creation.round.mode = .ReceiptOnly := by
        unfold Creation.round
        split <;> exact hmode
      obtain ⟨q, hq, -, hlot⟩ := StoresReceipts.of_mode hw' hround hstored
      obtain rfl := Option.some_inj.mp (hr.symm.trans hq)
      have hlotFrom : o.transfers = r.lotFrom host.currentContract r.terms.operator := htransfers
      rw [hlotFrom, SealedRound.lotFrom, hlot]

/-! ## Methods -/

variable {client : SubRosaClient} {s s' : ClientState} {l l' : Ledger} {α : Type}

/-- Others acted, the client submitted nothing. -/
def Watched (host : Host) (l l' : Ledger) : Prop :=
  ∃ es, LooseRun host l.chain es l'.chain ∧ l'.events = l.events ++ es ∧
    l'.submitted = l.submitted

theorem Watched.refl : Watched host l l := ⟨[], Runs.Run.nil, by simp, rfl⟩

theorem Watched.trans {m : Ledger} (h : Watched host l m) (h' : Watched host m l') :
    Watched host l l' := by
  obtain ⟨es, hrun, hevents, hsubmitted⟩ := h
  obtain ⟨es', hrun', hevents', hsubmitted'⟩ := h'
  exact ⟨es ++ es', hrun.append hrun', by rw [hevents', hevents, List.append_assoc],
    hsubmitted'.trans hsubmitted⟩

theorem Watched.upheld (h : Watched host l l') (hl : Upheld host c₀ l) : Upheld host c₀ l' := by
  obtain ⟨es, hrun, hevents, hsubmitted⟩ := h
  exact ⟨hevents ▸ hl.history.append hrun, fun s hs => hl.submitted s (hsubmitted ▸ hs)⟩

theorem Watched.harmless (h : Watched host l l') (hcall : Harmless host l.chain call) :
    Harmless host l'.chain call := by
  obtain ⟨es, hrun, -⟩ := h
  exact hcall.later hrun

/-- Every answer to a request that submits nothing. -/
theorem Answers.watched {q : ClientRequest} {a : Except ClientError q.Answer}
    (h : Answers host (s, l) q a (s', l')) (hq : ∀ call, q ≠ .submit call) :
    Watched host l l' := by
  cases h with
  | fails e _ hrun => exact ⟨_, hrun, rfl, rfl⟩
  | validated hrun => exact ⟨_, hrun, rfl, rfl⟩
  | simulated hrun => exact ⟨_, hrun, rfl, rfl⟩
  | read hrun => exact ⟨_, hrun, rfl, rfl⟩
  | rejected => exact absurd rfl (hq _)
  | executed => exact absurd rfl (hq _)

theorem validateNetwork_watched {r : Except ClientError Unit}
    (h : Ends (Answers host) validateNetwork (s, l) r (s', l')) : Watched host l l' := by
  unfold validateNetwork at h
  rw [ends_inspect_bind] at h
  split at h
  · obtain ⟨-, hc⟩ := ends_pure.mp h
    cases hc
    exact Watched.refl
  · have hnone : ∀ call, ClientRequest.validateContractNetwork ≠ .submit call := by simp
    rcases ends_bind.mp h with ⟨_, ⟨t, m⟩, hask, hchange⟩ | ⟨e, -, hask⟩
    · obtain ⟨-, hc⟩ := ends_change.mp hchange
      cases hc
      exact (ends_request.mp hask).watched hnone
    · exact (ends_request.mp hask).watched hnone

theorem simulation_watched {r : Except ClientError Unit}
    (h : Ends (Answers host) SubRosaClient.simulation (s, l) r (s', l')) : Watched host l l' := by
  unfold SubRosaClient.simulation at h
  have hnone : ∀ call, ClientRequest.simulate ≠ .submit call := by simp
  rcases ends_bind.mp h with ⟨_, ⟨t, m⟩, hnet, hask⟩ | ⟨e, -, hnet⟩
  · exact (validateNetwork_watched hnet).trans ((ends_request.mp hask).watched hnone)
  · exact validateNetwork_watched hnet

/-- **One submission.** A harmless call leaves the boundary upheld. -/
theorem Answers.upheld {a : Except ClientError Value}
    (h : Answers host (s, l) (.submit call) a (s', l')) (hl : Upheld host c₀ l)
    (hcall : Harmless host l.chain call) : Upheld host c₀ l' := by
  cases h with
  | fails e hq => exact absurd rfl (hq call)
  | rejected e hrun =>
    refine ⟨hl.history.append hrun, fun t ht => ?_⟩
    rcases List.mem_append.mp ht with ht | ht
    · exact hl.submitted t ht
    · rw [List.mem_singleton.mp ht]
      exact ⟨hcall.1, nofun⟩
  | executed _ hrun hstep =>
    refine ⟨(hl.history.append hrun).snoc hstep, fun t ht => ?_⟩
    rcases List.mem_append.mp ht with ht | ht
    · exact hl.submitted t ht
    · rw [List.mem_singleton.mp ht]
      refine ⟨hcall.1, fun value ts heq _ => ?_⟩
      obtain ⟨rfl, rfl⟩ := Prod.mk.inj (Option.some_inj.mp heq)
      exact hcall.2 _ _ hrun _ _ _ _ hstep

/-- A method that builds a harmless call and sends it. -/
theorem sendUnwrap_upheld {build : Except ClientError Call} {r : Except ClientError Value}
    (h : Ends (Answers host) (sendUnwrap build) (s, l) r (s', l')) (hl : Upheld host c₀ l)
    (hcall : ∀ call, build = .ok call → Harmless host l.chain call) : Upheld host c₀ l' := by
  unfold sendUnwrap at h
  rcases ends_bind.mp h with ⟨_, ⟨t, m⟩, hnet, h⟩ | ⟨e, -, hnet⟩
  · have hm := validateNetwork_watched hnet
    rcases ends_done_bind.mp h with ⟨call, hbuild, h⟩ | ⟨e, -, -, hc⟩
    · exact (ends_request.mp h).upheld (hm.upheld hl) (hm.harmless (hcall call hbuild))
    · cases hc
      exact hm.upheld hl
  · exact (validateNetwork_watched hnet).upheld hl

theorem getRoundV2_watched {n : Numeric} {r : Except ClientError RoundV2}
    (h : Ends (Answers host) (client.getRoundV2 n) (s, l) r (s', l')) :
    Watched host l l' ∧ ∀ round, r = .ok round → ∃ id, client.roundId n = .ok id ∧
      l'.chain.world.store.roundV2 id = some round := by
  unfold SubRosaClient.getRoundV2 at h
  rcases ends_bind.mp h with ⟨_, ⟨t, m⟩, hnet, h⟩ | ⟨e, rfl, hnet⟩
  · have hm := validateNetwork_watched hnet
    rcases ends_done_bind.mp h with ⟨id, hid, h⟩ | ⟨e, -, rfl, hc⟩
    · have hanswer := ends_request.mp h
      have hnone : ∀ call, ClientRequest.getRoundV2 id ≠ .submit call := by simp
      refine ⟨hm.trans (hanswer.watched hnone), fun round hr => ⟨id, hid, ?_⟩⟩
      subst hr
      cases hanswer with
      | read _ hround => exact hround
    · cases hc
      exact ⟨hm, fun _ hr => by cases hr⟩
  · exact ⟨validateNetwork_watched hnet, fun _ hr => by cases hr⟩

/-- What the check of the mode has established when it passes. -/
theorem assertReceiptOnlyRound_watched {n : Numeric} {r : Except ClientError Unit}
    (h : Ends (Answers host) (assertReceiptOnlyRound client n) (s, l) r (s', l')) :
    Watched host l l' ∧ (r = .ok () → ∃ id round, client.roundId n = .ok id ∧
      l'.chain.world.store.roundV2 id = some round ∧ round.mode = .ReceiptOnly) := by
  unfold assertReceiptOnlyRound at h
  rcases ends_bind.mp h with ⟨round, ⟨t, m⟩, hread, h⟩ | ⟨e, rfl, hread⟩
  · obtain ⟨hwatched, hstored⟩ := getRoundV2_watched hread
    obtain ⟨id, hid, hround⟩ := hstored round rfl
    obtain ⟨hr, hc⟩ := ends_done.mp h
    cases hc
    refine ⟨hwatched, fun hok => ⟨id, round, hid, hround, ?_⟩⟩
    by_contra hmode
    rw [hr, if_pos hmode] at hok
    cases hok
  · exact ⟨(getRoundV2_watched hread).1, nofun⟩

/-- A method behind the check of the mode. -/
theorem guarded_upheld (hd : Deployed config c₀) {n : Numeric} {build : Except ClientError Call}
    {r : Except ClientError Value}
    (h : Ends (Answers host) (assertReceiptOnlyRound client n >>= fun _ =>
    sendUnwrap build) (s, l) r
      (s', l')) (hl : Upheld host c₀ l)
    (hbuild : ∀ call, build = .ok call → ¬ Forbidden call ∧
      (∃ action, call.action = some action) ∧
      ∃ id, client.roundId n = .ok id ∧ ∀ value, call.key value = some (.v2 id)) :
    Upheld host c₀ l' := by
  rcases ends_bind.mp h with ⟨_, ⟨t, m⟩, hcheck, h⟩ | ⟨e, -, hcheck⟩
  · obtain ⟨hwatched, hstored⟩ := assertReceiptOnlyRound_watched hcheck
    have hm := hwatched.upheld hl
    obtain ⟨id, round, hid, hround, hmode⟩ := hstored rfl
    have hs := LooseRun.sound hm.history hd.chain_sound.world
    refine sendUnwrap_upheld h hm fun call hcall => ?_
    obtain ⟨hallowed, ⟨action, haction⟩, id', hid', hkey⟩ := hbuild call hcall
    obtain rfl := Except.ok.inj (hid.symm.trans hid')
    exact harmless_on_receipts hs (.of_mode hs hround hmode) haction hkey hallowed
  · exact (assertReceiptOnlyRound_watched hcheck).1.upheld hl

theorem receiptOnly_of_ne {mode : RoundMode} (h : mode ≠ .Auction) : mode = .ReceiptOnly := by
  cases mode with
  | Auction => exact absurd rfl h
  | ReceiptOnly => rfl

theorem isSome_of_ok {ε β : Type} {x : Except ε β} {a : β} (h : x = .ok a) :
    x.toOption.isSome := by
  rw [h]
  rfl

theorem version_of_ok {version : Number} {message : String} {u : Unit}
    (h : configErrorIf (version ≠ 1) message = .ok u) : version = 1 := by
  unfold configErrorIf at h
  split at h
  · cases h
  · next hversion => exact not_not.mp hversion

theorem creation_upheld (hd : Deployed config c₀) {o : Except ClientError Address}
    {build : Address → Except ClientError Call} {r : Except ClientError Value}
    (h : Ends (Answers host) (Coroutine.done o >>= fun operator => sendUnwrap (build operator))
      (s, l) r (s', l')) (hl : Upheld host c₀ l)
    (hbuild : ∀ operator call, o = .ok operator → build operator = .ok call → ∃ creation,
      call.creation = some creation ∧ creation.settlement.mode = .ReceiptOnly) :
    Upheld host c₀ l' := by
  rcases ends_done_bind.mp h with ⟨operator, hoperator, h⟩ | ⟨e, -, -, hc⟩
  · refine sendUnwrap_upheld h hl fun call hcall => ?_
    obtain ⟨creation, hcreation, hmode⟩ := hbuild operator call hoperator hcall
    exact harmless_creation (LooseRun.sound hl.history hd.chain_sound.world) hcreation hmode
  · cases hc
    exact hl

theorem createRoundV2_upheld (hd : Deployed config c₀) {params : Mutable CreateRoundV2Params}
    (hsafe : ¬ (MethodCall.createRoundV2 params).Unguarded client) {r : Except ClientError Value}
    (h : Ends (Answers host) (createRoundV2 client params) (s, l) r (s', l'))
    (hl : Upheld host c₀ l) : Upheld host c₀ l' := by
  unfold createRoundV2 at h
  split at h
  · obtain ⟨-, hc⟩ := ends_fail.mp h
    cases hc
    exact hl
  · next hmode =>
    refine creation_upheld hd h hl fun operator call hoperator hcall => ?_
    obtain ⟨⟨round, settlement⟩, hargs, hcall⟩ := bind_eq_ok.mp hcall
    obtain ⟨round', hround, hcall⟩ := bind_eq_ok.mp hcall
    obtain ⟨settlement', hsettlement, hcall⟩ := bind_eq_ok.mp hcall
    cases hcall
    refine ⟨_, rfl, ?_⟩
    rw [Settlement.encode_mode hsettlement, v2RoundArgs_mode hargs]
    exact receiptOnly_of_ne fun hauction => hsafe ⟨not_not.mp hmode, hauction, operator, round,
      settlement, hoperator, hargs, isSome_of_ok hround, isSome_of_ok hsettlement⟩

theorem createPartnerRoundV2_upheld (hd : Deployed config c₀)
    {params : Mutable CreatePartnerRoundV2Params}
    (hsafe : ¬ (MethodCall.createPartnerRoundV2 params).Unguarded client)
    {r : Except ClientError Value}
    (h : Ends (Answers host) (createPartnerRoundV2 client params) (s, l) r (s', l'))
    (hl : Upheld host c₀ l) : Upheld host c₀ l' := by
  unfold createPartnerRoundV2 at h
  split at h
  · obtain ⟨-, hc⟩ := ends_fail.mp h
    cases hc
    exact hl
  · next hchecked =>
    have hchecked := not_or.mp hchecked
    refine creation_upheld hd h hl fun operator call hoperator hcall => ?_
    obtain ⟨⟨round, policy⟩, hargs, hcall⟩ := bind_eq_ok.mp hcall
    obtain ⟨round', hround, hcall⟩ := bind_eq_ok.mp hcall
    obtain ⟨policy', hpolicy, hcall⟩ := bind_eq_ok.mp hcall
    cases hcall
    refine ⟨_, rfl, ?_⟩
    rw [PartnerPolicy.encode_mode hpolicy, partnerV2RoundArgs_mode hargs]
    exact receiptOnly_of_ne fun hauction => hsafe
      ⟨⟨not_not.mp hchecked.1, not_not.mp hchecked.2⟩, hauction, operator, round, policy, hoperator,
        hargs, isSome_of_ok hround, isSome_of_ok hpolicy⟩

theorem createRoundV3_upheld (hd : Deployed config c₀) {params : Mutable CreateRoundV3Params}
    (hsafe : ¬ (MethodCall.createRoundV3 params).Unguarded client) {r : Except ClientError Value}
    (h : Ends (Answers host) (createRoundV3 client params) (s, l) r (s', l'))
    (hl : Upheld host c₀ l) : Upheld host c₀ l' := by
  unfold createRoundV3 at h
  split at h
  · obtain ⟨-, hc⟩ := ends_fail.mp h
    cases hc
    exact hl
  · next hchecked =>
    have hchecked := not_or.mp hchecked
    refine creation_upheld hd h hl fun operator call hoperator hcall => ?_
    obtain ⟨⟨round, partner, reveal⟩, hargs, hcall⟩ := bind_eq_ok.mp hcall
    obtain ⟨round', hround, hcall⟩ := bind_eq_ok.mp hcall
    obtain ⟨partner', hpartner, hcall⟩ := bind_eq_ok.mp hcall
    cases hcall
    refine ⟨_, rfl, ?_⟩
    rw [PartnerPolicy.encode_mode hpartner, v3RoundArgs_mode hargs]
    exact receiptOnly_of_ne fun hauction => hsafe
      ⟨⟨not_not.mp hchecked.1, not_not.mp hchecked.2⟩, hauction, operator, round, partner, reveal,
        hoperator, hargs, isSome_of_ok hround, isSome_of_ok hpartner⟩

/-- What a commit has checked and encoded when it makes its call. -/
theorem commitEncodes_of_ok {bidder : Option Address} {address : Address} {roundId : Numeric}
    {id : UInt64} {commitment : Bytes} {commitment' : BytesN 32} {escrow : Int}
    {escrow' : MachineInt.I128} (hbidder : client.addressOr bidder "bidder" = .ok address)
    (hid : client.roundId roundId = .ok id)
    (hcommitment : encoded (client.encoder.bytesN 32 commitment) = .ok commitment')
    (hescrow : encoded (client.encoder.i128 escrow) = .ok escrow') :
    CommitEncodes client bidder roundId commitment escrow where
  bidder := addressOr_isSome.mp (isSome_of_ok hbidder)
  roundId := roundId_isSome.mp (isSome_of_ok hid)
  commitment := by rw [encoded_eq_ok.mp hcommitment]; rfl
  escrow := by rw [encoded_eq_ok.mp hescrow]; rfl

theorem commitV2_upheld (hd : Deployed config c₀) {params : Mutable CommitV2Params}
    (hsafe : ¬ GainsEscrow client params) {r : Except ClientError Value}
    (h : Ends (Answers host) (commitV2 client params) (s, l) r (s', l'))
    (hl : Upheld host c₀ l) : Upheld host c₀ l' := by
  unfold commitV2 at h
  split at h
  · obtain ⟨-, hc⟩ := ends_fail.mp h
    cases hc
    exact hl
  · next hzero =>
    rcases ends_done_bind.mp h with ⟨_, hversion, h⟩ | ⟨e, -, -, hc⟩
    rotate_left
    · cases hc
      exact hl
    rcases ends_done_bind.mp h with ⟨_, hblobs, h⟩ | ⟨e, -, -, hc⟩
    rotate_left
    · cases hc
      exact hl
    rcases ends_done_bind.mp h with ⟨bidder, hbidder, h⟩ | ⟨e, -, -, hc⟩
    rotate_left
    · cases hc
      exact hl
    refine sendUnwrap_upheld h hl fun call hcall => ?_
    obtain ⟨id, hid, hcall⟩ := bind_eq_ok.mp hcall
    obtain ⟨commitment, hcommitment, hcall⟩ := bind_eq_ok.mp hcall
    obtain ⟨escrow, hescrow, hcall⟩ := bind_eq_ok.mp hcall
    cases hcall
    refine harmless_commitV2 (LooseRun.sound hl.history hd.chain_sound.world) fun hpositive =>
      hsafe ⟨not_not.mp hzero, version_of_ok hversion, hblobs,
        commitEncodes_of_ok hbidder hid hcommitment hescrow, fun other hother => ?_⟩
    obtain rfl := Option.some_inj.mp ((encoded_eq_ok.mp hescrow).symm.trans hother)
    exact hpositive

/-- A commit that fails its checks sends nothing. -/
theorem commit_upheld {params : Mutable CommitParams} (hfails : ¬ Commits client params)
    {r : Except ClientError Value}
    (h : Ends (Answers host) (client.commit params) (s, l) r (s', l'))
    (hl : Upheld host c₀ l) : Upheld host c₀ l' := by
  rcases ends_done_bind.mp h with ⟨_, hblobs, h⟩ | ⟨e, -, -, hc⟩
  rotate_left
  · cases hc
    exact hl
  rcases ends_done_bind.mp h with ⟨bidder, hbidder, h⟩ | ⟨e, -, -, hc⟩
  rotate_left
  · cases hc
    exact hl
  refine sendUnwrap_upheld h hl fun call hcall => ?_
  obtain ⟨id, hid, hcall⟩ := bind_eq_ok.mp hcall
  obtain ⟨commitment, hcommitment, hcall⟩ := bind_eq_ok.mp hcall
  obtain ⟨escrow, hescrow, -⟩ := bind_eq_ok.mp hcall
  exact absurd ⟨hblobs, commitEncodes_of_ok hbidder hid hcommitment hescrow⟩ hfails

/-- A method without a round id that encodes sends nothing. -/
theorem onRound_upheld {call : UInt64 → Call} {n : Numeric} (hfails : ¬ n.Encodes client.encoder)
    {r : Except ClientError Value}
    (h : Ends (Answers host) (client.onRound call n) (s, l) r (s', l'))
    (hl : Upheld host c₀ l) : Upheld host c₀ l' :=
  sendUnwrap_upheld h hl fun _ hcall => by
    obtain ⟨id, hid, -⟩ := bind_eq_ok.mp hcall
    exact absurd (roundId_isSome.mp (isSome_of_ok hid)) hfails

/-- **One method call** that is guarded. -/
theorem call_upheld (hd : Deployed config c₀) {call : MethodCall} (hsafe : ¬ call.Unguarded client)
    {r : Except ClientError Unit} (h : Ends (Answers host) (call.run client) (s, l) r (s', l'))
    (hl : Upheld host c₀ l) : Upheld host c₀ l' := by
  have hs := LooseRun.sound hl.history hd.chain_sound.world
  have hdropped : ∀ {x : Method Value},
      Ends (Answers host) ((fun _ => ()) <$> x) (s, l) r (s', l') →
      ∃ o, Ends (Answers host) x (s, l) o (s', l') := fun h => by
    obtain ⟨o, -, h⟩ := ends_map.mp h
    exact ⟨o, h⟩
  cases call with
  | createRound params =>
    obtain ⟨o, h⟩ := hdropped h
    obtain ⟨-, hc⟩ := ends_fail.mp h
    cases hc
    exact hl
  | createRoundV2 params =>
    obtain ⟨o, h⟩ := hdropped h
    exact createRoundV2_upheld hd hsafe h hl
  | createPartnerRoundV2 params =>
    obtain ⟨o, h⟩ := hdropped h
    exact createPartnerRoundV2_upheld hd hsafe h hl
  | createRoundV3 params =>
    obtain ⟨o, h⟩ := hdropped h
    exact createRoundV3_upheld hd hsafe h hl
  | commit params =>
    obtain ⟨o, h⟩ := hdropped h
    exact commit_upheld hsafe h hl
  | commitV2 params =>
    obtain ⟨o, h⟩ := hdropped h
    exact commitV2_upheld hd hsafe h hl
  | submitV2 params =>
    obtain ⟨o, h⟩ := hdropped h
    exact commitV2_upheld hd hsafe h hl
  | openReveal n signature =>
    obtain ⟨o, h⟩ := hdropped h
    refine sendUnwrap_upheld h hl fun call hcall => ?_
    obtain ⟨id, -, hcall⟩ := bind_eq_ok.mp hcall
    obtain ⟨signature', -, hcall⟩ := bind_eq_ok.mp hcall
    cases hcall
    exact harmless_of_action hs rfl ⟨_, fun _ => rfl⟩ not_false fun _ _ _ _ ht => by
      cases ht
      rfl
  | openRevealV2 n signature =>
    obtain ⟨o, h⟩ := hdropped h
    refine guarded_upheld hd h hl fun call hcall => ?_
    obtain ⟨id, hid, hcall⟩ := bind_eq_ok.mp hcall
    obtain ⟨signature', -, hcall⟩ := bind_eq_ok.mp hcall
    cases hcall
    exact ⟨not_false, ⟨_, rfl⟩, id, hid, fun _ => rfl⟩
  | reveal params =>
    obtain ⟨o, h⟩ := hdropped h
    refine sendUnwrap_upheld h hl fun call hcall => ?_
    obtain ⟨id, -, hcall⟩ := bind_eq_ok.mp hcall
    obtain ⟨value, -, hcall⟩ := bind_eq_ok.mp hcall
    obtain ⟨nonce, -, hcall⟩ := bind_eq_ok.mp hcall
    cases hcall
    exact harmless_of_action hs rfl ⟨_, fun _ => rfl⟩ not_false fun _ _ _ _ ht => by
      cases ht
      rfl
  | revealV2 params =>
    -- the round that is revealed in need not be the one whose mode was checked
    obtain ⟨o, h⟩ := hdropped h
    rcases ends_bind.mp h with ⟨_, ⟨t, m⟩, hcheck, h⟩ | ⟨e, -, hcheck⟩
    · have hm := (assertReceiptOnlyRound_watched hcheck).1.upheld hl
      refine sendUnwrap_upheld h hm fun call hcall => ?_
      obtain ⟨id, -, hcall⟩ := bind_eq_ok.mp hcall
      obtain ⟨envelope, -, hcall⟩ := bind_eq_ok.mp hcall
      cases hcall
      exact harmless_of_action (LooseRun.sound hm.history hd.chain_sound.world) rfl
        ⟨_, fun _ => rfl⟩ not_false fun _ _ _ _ ht => by
          cases ht
          rfl
    · exact (assertReceiptOnlyRound_watched hcheck).1.upheld hl
  | clear n =>
    obtain ⟨o, h⟩ := hdropped h
    exact onRound_upheld hsafe h hl
  | clearV2 n =>
    obtain ⟨o, h⟩ := hdropped h
    refine guarded_upheld hd h hl fun call hcall => ?_
    obtain ⟨id, hid, hcall⟩ := bind_eq_ok.mp hcall
    cases hcall
    exact ⟨not_false, ⟨_, rfl⟩, id, hid, fun _ => rfl⟩
  | settle n =>
    obtain ⟨o, h⟩ := hdropped h
    exact onRound_upheld hsafe h hl
  | settleV2 n =>
    obtain ⟨o, h⟩ := hdropped h
    obtain ⟨-, hc⟩ := ends_fail.mp h
    cases hc
    exact hl
  | void n =>
    obtain ⟨o, h⟩ := hdropped h
    exact onRound_upheld hsafe h hl
  | voidV2 n =>
    obtain ⟨o, h⟩ := hdropped h
    refine guarded_upheld hd h hl fun call hcall => ?_
    obtain ⟨id, hid, hcall⟩ := bind_eq_ok.mp hcall
    cases hcall
    exact ⟨not_false, ⟨_, rfl⟩, id, hid, fun _ => rfl⟩
  | getRoundV2 n =>
    obtain ⟨o, -, h⟩ := ends_map.mp h
    exact (getRoundV2_watched h).1.upheld hl
  | simulation => exact (simulation_watched h).upheld hl

/-- **The write boundary.** A session without unguarded calls keeps it. -/
theorem write_boundary (hd : Deployed config c₀) {calls : List MethodCall}
    (hsafe : ∀ call ∈ calls, ¬ call.Unguarded client) {events : List Event}
    (hrun : LooseRun host c₀ events c) {r : Except ClientError Unit}
    (h : Ends (Answers host) (session client calls) (s, ⟨c, events, []⟩) r (s', l')) :
    ∀ submission ∈ l'.submitted, submission.Within := by
  have hl : Upheld host c₀ ⟨c, events, []⟩ := ⟨hrun, fun _ ht => by cases ht⟩
  suffices hupheld : ∀ {s : ClientState} {l : Ledger}, Upheld host c₀ l →
      Ends (Answers host) (session client calls) (s, l) r (s', l') → Upheld host c₀ l' from
    (hupheld hl h).submitted
  clear h hl
  intro s l hl h
  induction calls generalizing s l with
  | nil =>
    obtain ⟨-, hc⟩ := ends_pure.mp h
    cases hc
    exact hl
  | cons call calls ih =>
    rw [List.forall_mem_cons] at hsafe
    obtain ⟨o, ⟨t, m⟩, hcall, h⟩ := ends_attempt_bind.mp h
    exact ih hsafe.2 (call_upheld hd hsafe.1 hcall hl) h

end

/-! ## Sample sessions -/

namespace SampleSession

open Sample

def client (source : Address) : SubRosaClient := ⟨silentEngine, .strict, some source⟩

def receiptParams : CreateRoundV2Params where
  itemRef := (padded 32 []).val
  schemaRef := (padded 32 []).val
  mode := .ReceiptOnly
  paymentAsset := none
  lotAsset := none
  lotAmount := none
  revealRound := .bigint 3
  commitDeadline := .bigint 1050
  revealDeadline := .bigint 1100
  auditorPubkey := []
  maxParticipants := some 5
  clearingRule := none
  operator := none

def receiptSettlement : SettlementConfig := ⟨.ReceiptOnly, none, none, amount 0⟩

/-- What the same object says after the adapter has looked at it. -/
def auctionParams : CreateRoundV2Params :=
  { receiptParams with
    mode := .Auction, paymentAsset := some config.usdc, lotAsset := some lotAsset,
    lotAmount := some 7 }

def auctionSettlement : SettlementConfig :=
  ⟨.Auction, some config.usdc, some lotAsset, amount 7⟩

def commitParams : CommitParams where
  roundId := .bigint 1
  sealedBid := ⟨(commitment 30).val, [1], [1]⟩
  escrow := 50
  bidder := none

def commitCall : Call := .commit 1 alice (commitment 30) [1] (amount 50) [1]

end SampleSession

open SampleSession Sample

/-- A session whose only method sends a call that is executed. -/
theorem session_single {host : Host} {client : SubRosaClient} {call : MethodCall} {sent : Call}
    {build : Except ClientError Call} {c : Chain} {events : List Event} {tx : Transaction}
    {o : Outcome}
    (hrun : call.run client = (fun _ => ()) <$> sendUnwrap build) (hbuild : build = .ok sent)
    (hnow : c.now ≤ tx.timestamp) (hself : tx.auths host.currentContract = false)
    (h : invoke host tx sent c.world = .ok o) :
    ∃ l, Ends (Answers host) (session client [call]) (⟨true⟩, ⟨c, events, []⟩) (.ok ())
      (⟨true⟩, l) ∧ l.submitted = [⟨sent, some (o.value, o.transfers)⟩] := by
  have hanswer : Answers host (⟨true⟩, ⟨c, events, []⟩) (.submit sent) (.ok o.value)
      (⟨true⟩, ⟨⟨o.world, tx.timestamp⟩, events ++ [] ++ [.called tx sent o.value o.transfers],
        [⟨sent, some (o.value, o.transfers)⟩]⟩) :=
    .executed (.ok o.value) Runs.Run.nil (Step.called hnow hself h).loose
  refine ⟨⟨⟨o.world, tx.timestamp⟩, events ++ [] ++ [.called tx sent o.value o.transfers],
    [⟨sent, some (o.value, o.transfers)⟩]⟩,
    ends_attempt_bind.mpr ⟨.ok (), _, ?_, ends_pure.mpr ⟨rfl, rfl⟩⟩, rfl⟩
  rw [hrun, ends_map]
  refine ⟨.ok o.value, rfl, ends_bind.mpr
    (Or.inl ⟨(), (⟨true⟩, ⟨c, events, []⟩), ?_, ?_⟩)⟩
  · rw [validateNetwork, ends_inspect_bind]
    exact ends_pure.mpr ⟨rfl, rfl⟩
  · exact ends_done_bind.mpr (Or.inl ⟨sent, hbuild, ends_request.mpr hanswer⟩)

/-- A receipt-only round is created within the boundary. -/
theorem write_boundary_sample : ∃ l,
    Ends (Answers host) (session (client operator) [.createRoundV2 (.fixed receiptParams)])
      (⟨true⟩, ⟨deployed, [], []⟩) (.ok ()) (⟨true⟩, l) ∧
    l.submitted.length = 1 ∧ ∀ submission ∈ l.submitted, submission.Within := by
  obtain ⟨o, ho, -⟩ := @invoke_of_value host (tx operator 1000)
    (.createRoundV2 saleArgs receiptSettlement) deployed.world (.roundId 1) (by decide +kernel)
  obtain ⟨l, hends, hl⟩ := @session_single _ (client operator)
    (.createRoundV2 (.fixed receiptParams)) _ _ _ [] _ _ rfl rfl (by decide) (by decide) ho
  refine ⟨l, hends, by rw [hl]; rfl, write_boundary deployed_ok ?_ Runs.Run.nil hends⟩
  intro call hcall
  rw [List.mem_singleton.mp hcall]
  rintro ⟨-, hauction, -⟩
  cases hauction

/-- The inherited `commit` enters a bid in an auction of the first generation, and parameters that
change after the check create an auction of the second. -/
theorem write_boundary_passed :
    (∃ c events l, LooseRun host deployed events c ∧
      Ends (Answers host) (session (client alice) [.commit (.fixed commitParams)])
        (⟨true⟩, ⟨c, events, []⟩) (.ok ()) (⟨true⟩, l) ∧
      ¬ ∀ submission ∈ l.submitted, submission.Within) ∧
    ∃ l, Ends (Answers host)
        (session (client operator) [.createRoundV2 ⟨receiptParams, auctionParams⟩])
        (⟨true⟩, ⟨deployed, [], []⟩) (.ok ()) (⟨true⟩, l) ∧
      (∃ submission ∈ l.submitted, submission.executed.isSome) ∧
      ¬ ∀ submission ∈ l.submitted, submission.Within := by
  constructor
  · obtain ⟨c, events, hrun, hvalue⟩ := Chain.exec_reaches host deployed
      [⟨tx operator 1000, .createRound args⟩]
      (fun c _ => (decide (c.now ≤ 1010),
        (invoke host (tx alice 1010) commitCall c.world).toOption.map Outcome.value))
      (true, some .unit) (by decide +kernel)
    obtain ⟨hnow, hinvoke⟩ := Prod.mk.inj hvalue
    obtain ⟨o, ho, -⟩ := invoke_of_value hinvoke
    obtain ⟨l, hends, hl⟩ := @session_single _ (client alice) (.commit (.fixed commitParams)) _ _ _
      events _ _ rfl rfl (of_decide_eq_true hnow) (by decide) ho
    refine ⟨c, events, l, hrun.loose, hends, fun hwithin => ?_⟩
    rw [hl, List.forall_mem_singleton] at hwithin
    exact hwithin.1 trivial
  · obtain ⟨o, ho, -⟩ := @invoke_of_value host (tx operator 1000)
      (.createRoundV2 saleArgs auctionSettlement) deployed.world (.roundId 1) (by decide +kernel)
    obtain ⟨l, hends, hl⟩ := @session_single _ (client operator)
      (.createRoundV2 ⟨receiptParams, auctionParams⟩) _ _ _ [] _ _ rfl rfl (by decide)
      (by decide) ho
    refine ⟨l, hends, ⟨_, by rw [hl]; exact List.mem_singleton_self _, rfl⟩, fun hwithin => ?_⟩
    rw [hl, List.forall_mem_singleton] at hwithin
    exact hwithin.1 rfl

end SubRosa.Pollar
