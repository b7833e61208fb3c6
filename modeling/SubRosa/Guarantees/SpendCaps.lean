import SubRosa.Guarantees.Mandates

/-!
# The spend caps of a session

All runs of the bidder agent under one mandate, against an appraisal server
that answers what it likes. A payment authorises what the server demanded. The
agent compares the price in its mandate with itself, so that what it pays is
what it is asked to pay.
-/

namespace SubRosa.Agent

open JavaScript Sdk Coroutine

section

variable {Demand Payment : Type} (platform : Platform Demand Payment)

/-- A request and how it was answered; one that is never answered counts as one that failed. -/
abbrev Exchange (Demand Payment : Type) := Σ q : Request Demand Payment, Except Thrown q.Answer

/-- A payment authorises exactly what the server demanded. -/
def ExactSigning : (q : Request Demand Payment) → Except Thrown q.Answer → Prop
  | .createPaymentPayload demand, .ok payment =>
    platform.payments.authorised payment = platform.payments.demanded demand
  | _, _ => True

/-- Any answer, with a record of it. -/
def Records (c : Unit × List (Exchange Demand Payment)) (q : Request Demand Payment)
    (a : Except Thrown q.Answer) (d : Unit × List (Exchange Demand Payment)) : Prop :=
  d = ((), c.2 ++ [⟨q, a⟩]) ∧ ExactSigning platform q a

/-- A run of the agent under a mandate. -/
structure AgentRun (mandate : SessionMandate) where
  config : BidderAgentConfig
  under : config.mandate = mandate
  transcript : List (Exchange Demand Payment)
  result : Except Thrown BidderAgentResult
  ends : Ends (Records platform) (runBidderAgent platform config) ((), []) result
    ((), transcript)

/-- The amount that a request sends along. -/
def Exchange.payment : Exchange Demand Payment → Option Int
  | ⟨.fetch _ (some payment), _⟩ => some (platform.payments.authorised payment)
  | _ => none

/-- The payments of a transcript, in order. -/
def paymentsOf (t : List (Exchange Demand Payment)) : List Int :=
  t.filterMap (Exchange.payment platform)

/-- What a server demands of a run that gets to its payment: the session is in order at this
time, the round is open, and this first response is a readable 402. -/
def demandOf (config : BidderAgentConfig) (now : Int) (round : Round) (first : Response) :
    Except Thrown (Option Int) := do
  let (roundId, _) ← checkSession platform config now
  checkRound config roundId round
  if first.status = 402 then do
    let demand ←
      platform.payments.getPaymentRequiredResponse first.headers first.json.toOption
    return some (platform.payments.demanded demand)
  else return none

def Exchange.now? : Exchange Demand Payment → Option Int
  | ⟨.now, .ok now⟩ => some now
  | _ => none

def Exchange.round? : Exchange Demand Payment → Option Round
  | ⟨.getRound _, .ok round⟩ => some round
  | _ => none

def Exchange.first? : Exchange Demand Payment → Option Response
  | ⟨.fetch _ none, .ok first⟩ => some first
  | _ => none

def Exchange.signed : Exchange Demand Payment → Bool
  | ⟨.createPaymentPayload _, .ok _⟩ => true
  | _ => false

/-- The demand in the answers of a run: of the clock, the chain and the server, provided that the
payment was signed. -/
def demandIn (config : BidderAgentConfig) : List (Exchange Demand Payment) → Option Int
  | n :: g :: f :: p :: _ => do
    let now ← n.now?
    let round ← g.round?
    let first ← f.first?
    if p.signed then (demandOf platform config now round first).toOption.join else none
  | _ => none

/-- Each amount is within the price and their sum within the cap of the mandate. -/
def WithinCaps (mandate : SessionMandate) (amounts : List Int) : Prop :=
  ∀ price cap, bigIntOfText mandate.appraisalPriceStroops = .ok price →
    bigIntOfText mandate.maxAppraisalSpendStroops = .ok cap →
    (∀ amount ∈ amounts, amount ≤ price) ∧ amounts.sum ≤ cap

variable {platform} {config : BidderAgentConfig} {t t' : List (Exchange Demand Payment)}

/-! ## One request -/

theorem ends_ask {q : Request Demand Payment} {r : Except Thrown q.Answer}
    (h : Ends (Records platform) (ask q) ((), t) r ((), t')) :
    t' = t ++ [⟨q, r⟩] ∧ ExactSigning platform q r := by
  obtain ⟨hc, hsigned⟩ := ends_request.mp h
  exact ⟨congrArg Prod.snd hc, hsigned⟩

/-- An answered request first: either it fails and ends the task, or the task goes on. -/
theorem ends_ask_bind {α : Type} {q : Request Demand Payment} {f : q.Answer → Task Demand Payment α}
    {r : Except Thrown α}
    (h : Ends (Records platform) (ask q >>= f) ((), t) r ((), t')) :
    (∃ a, ExactSigning platform q (.ok a) ∧
      Ends (Records platform) (f a) ((), t ++ [⟨q, .ok a⟩]) r ((), t')) ∨
    ∃ e, t' = t ++ [⟨q, .error e⟩] := by
  rcases ends_bind.mp h with ⟨a, ⟨⟨⟩, m⟩, hask, h⟩ | ⟨e, -, hask⟩
  · obtain ⟨rfl, hsigned⟩ := ends_ask hask
    exact Or.inl ⟨a, hsigned, h⟩
  · exact Or.inr ⟨e, (ends_ask hask).1⟩

/-- A computed value first. -/
theorem ends_value_bind {α β : Type} {o : Except Thrown α} {f : α → Task Demand Payment β}
    {r : Except Thrown β}
    (h : Ends (Records platform) (Coroutine.done o >>= f) ((), t) r ((), t')) :
    (∃ a, o = .ok a ∧ Ends (Records platform) (f a) ((), t) r ((), t')) ∨
      (∃ e, o = .error e) ∧ t' = t := by
  rcases ends_done_bind.mp h with h | ⟨e, ho, -, hc⟩
  · exact Or.inl h
  · exact Or.inr ⟨⟨e, ho⟩, congrArg Prod.snd hc⟩

/-! ## The payments of a run -/

/-- What follows in a transcript pays nothing. -/
def Silent (platform : Platform Demand Payment) (t t' : List (Exchange Demand Payment)) : Prop :=
  ∃ es, t' = t ++ es ∧ paymentsOf platform es = []

theorem Silent.refl : Silent platform t t := ⟨[], by simp, rfl⟩

theorem Silent.ask {x : Exchange Demand Payment} (hx : x.payment platform = none)
    (h : Silent platform (t ++ [x]) t') : Silent platform t t' := by
  obtain ⟨es, rfl, hes⟩ := h
  refine ⟨x :: es, by simp, ?_⟩
  rw [paymentsOf, List.filterMap_cons_none hx]
  exact hes

/-- An unpaid request and a silent rest. -/
theorem Silent.ask_bind {α : Type} {q : Request Demand Payment}
    {f : q.Answer → Task Demand Payment α}
    {r : Except Thrown α} (h : Ends (Records platform) (Agent.ask q >>= f) ((), t) r ((), t'))
    (hq : ∀ a, Exchange.payment platform ⟨q, a⟩ = none)
    (hf : ∀ a t, Ends (Records platform) (f a) ((), t) r ((), t') → Silent platform t t') :
    Silent platform t t' := by
  rcases ends_ask_bind h with ⟨a, -, h⟩ | ⟨e, rfl⟩
  · exact .ask (hq _) (hf a _ h)
  · exact .ask (hq _) .refl

theorem Silent.value_bind {α β : Type} {o : Except Thrown α} {f : α → Task Demand Payment β}
    {r : Except Thrown β}
    (h : Ends (Records platform) (Coroutine.done o >>= f) ((), t) r ((), t'))
    (hf : ∀ a, Ends (Records platform) (f a) ((), t) r ((), t') → Silent platform t t') :
    Silent platform t t' := by
  rcases ends_value_bind h with ⟨a, -, h⟩ | ⟨-, rfl⟩
  · exact hf a h
  · exact .refl

theorem Silent.done {α : Type} {o r : Except Thrown α}
    (h : Ends (Records platform) (Coroutine.done o : Task Demand Payment α) ((), t) r ((), t')) :
    Silent platform t t' := by
  obtain rfl : t' = t := congrArg Prod.snd (ends_done.mp h).2
  exact .refl

/-- Sizing, sealing and committing pays nothing. -/
theorem placeBid_silent {roundId : Int} {publicKey : String} {paid : PaidResult}
    {r : Except Thrown BidderAgentResult}
    (h : Ends (Records platform) (placeBid platform config roundId publicKey paid) ((), t) r
      ((), t')) : Silent platform t t' := by
  refine .value_bind h fun ⟨appraisal, bidValue, escrow⟩ h => ?_
  refine .ask_bind h (fun _ => rfl) fun nonce t h => ?_
  refine .ask_bind h (fun _ => rfl) fun sealedBid t h => ?_
  refine .ask_bind h (fun _ => rfl) fun _ t h => ?_
  exact .value_bind h fun inputsHash h => .done h

/-- The exchanges of a paid fetch. -/
inductive Handshake (platform : Platform Demand Payment) (body : Json) :
    List (Exchange Demand Payment) → Prop
  | unanswered (e : Thrown) : Handshake platform body [⟨.fetch body none, .error e⟩]
  | unpaid (first : Response) : first.status ≠ 402 →
      Handshake platform body [⟨.fetch body none, .ok first⟩]
  | unreadable (first : Response) (e : Thrown) :
      platform.payments.getPaymentRequiredResponse first.headers first.json.toOption = .error e →
      Handshake platform body [⟨.fetch body none, .ok first⟩]
  | unsigned (first : Response) (demand : Demand) (e : Thrown) :
      Handshake platform body [⟨.fetch body none, .ok first⟩,
        ⟨.createPaymentPayload demand, .error e⟩]
  | paid (first : Response) (demand : Demand) (payment : Payment) (a : Except Thrown Response) :
      first.status = 402 →
      platform.payments.getPaymentRequiredResponse first.headers first.json.toOption = .ok demand →
      platform.payments.authorised payment = platform.payments.demanded demand →
      Handshake platform body [⟨.fetch body none, .ok first⟩,
        ⟨.createPaymentPayload demand, .ok payment⟩, ⟨.fetch body (some payment), a⟩]

theorem paidFetch_handshake {body : Json} {r : Except Thrown PaidResult}
    (h : Ends (Records platform) (paidFetch platform body) ((), t) r ((), t')) :
    ∃ xs, t' = t ++ xs ∧ Handshake platform body xs := by
  unfold paidFetch at h
  rcases ends_ask_bind h with ⟨first, -, h⟩ | ⟨e, rfl⟩
  rotate_left
  · exact ⟨_, rfl, .unanswered e⟩
  split at h
  · next hstatus =>
    have ht : t' = t ++ [⟨.fetch body none, .ok first⟩] := by
      rcases ends_value_bind h with ⟨body, -, h⟩ | ⟨-, ht⟩
      · exact congrArg Prod.snd (ends_pure.mp h).2
      · exact ht
    exact ⟨_, ht, .unpaid first hstatus⟩
  · next hstatus =>
    rcases ends_value_bind h with ⟨demand, hdemand, h⟩ | ⟨⟨e, he⟩, rfl⟩
    rotate_left
    · exact ⟨_, rfl, .unreadable first e he⟩
    rcases ends_ask_bind h with ⟨payment, hsigned, h⟩ | ⟨e, rfl⟩
    rotate_left
    · exact ⟨_, by rw [List.append_assoc]; rfl, .unsigned first demand e⟩
    have hpaid : ∃ a, t' = t ++ [⟨.fetch body none, .ok first⟩,
        ⟨.createPaymentPayload demand, .ok payment⟩, ⟨.fetch body (some payment), a⟩] := by
      rcases ends_ask_bind h with ⟨paid, -, h⟩ | ⟨e, rfl⟩
      · refine ⟨.ok paid, ?_⟩
        have ht : t' = t ++ [⟨.fetch body none, .ok first⟩] ++
            [⟨.createPaymentPayload demand, .ok payment⟩] ++
            [⟨.fetch body (some payment), .ok paid⟩] := by
          rcases ends_value_bind h with ⟨body, -, h⟩ | ⟨-, ht⟩
          · split at h
            · exact congrArg Prod.snd (ends_fail.mp h).2
            · rcases ends_value_bind h with ⟨settlement, -, h⟩ | ⟨-, ht⟩
              · exact congrArg Prod.snd (ends_pure.mp h).2
              · exact ht
          · exact ht
        rw [ht, List.append_assoc, List.append_assoc]
        rfl
      · refine ⟨.error e, ?_⟩
        rw [List.append_assoc, List.append_assoc]
        rfl
    obtain ⟨a, ht⟩ := hpaid
    exact ⟨_, ht, .paid first demand payment a (not_not.mp hstatus) hdemand hsigned⟩

theorem demandIn_none {now : Int} {round : Round} {first : Response}
    {n g f : Exchange Demand Payment} (hn : n.now? = some now) (hg : g.round? = some round)
    (hf : f.first? = some first)
    (h : (demandOf platform config now round first).toOption.join = none)
    (es : List (Exchange Demand Payment)) :
    demandIn platform config (n :: g :: f :: es) = none := by
  cases es with
  | nil => rfl
  | cons p es =>
    simp only [demandIn, hn, hg, hf, Option.bind_eq_bind, Option.bind_some, h]
    exact ite_self none

/-- **One run.** It pays what the server demands, and nothing if it does not get there. -/
theorem AgentRun.pays {mandate : SessionMandate} (run : AgentRun platform mandate) :
    paymentsOf platform run.transcript = (demandIn platform run.config run.transcript).toList := by
  obtain ⟨config, -, t, r, h⟩ := run
  show paymentsOf platform t = (demandIn platform config t).toList
  rcases ends_ask_bind h with ⟨now, -, h⟩ | ⟨e, rfl⟩
  rotate_left
  · rfl
  rcases ends_value_bind h with ⟨⟨roundId, publicKey⟩, hsession, h⟩ | ⟨-, rfl⟩
  rotate_left
  · rfl
  rcases ends_ask_bind h with ⟨round, -, h⟩ | ⟨e, rfl⟩
  rotate_left
  · rfl
  rcases ends_value_bind h with ⟨_, hround, h⟩ | ⟨-, rfl⟩
  rotate_left
  · rfl
  have hdemand : ∀ first : Response, demandOf platform config now round first =
      if first.status = 402 then do
        let demand ←
          platform.payments.getPaymentRequiredResponse first.headers first.json.toOption
        return some (platform.payments.demanded demand)
      else return none := by
    intro first
    unfold demandOf
    rw [hsession]
    show (checkRound config roundId round >>= fun _ => _) = _
    rw [hround]
    rfl
  obtain ⟨xs, hxs, es, ht, hes⟩ : ∃ xs, Handshake platform
      (appraisalRequest config.mandate config.attributes) xs ∧
      Silent platform ([⟨.now, .ok now⟩, ⟨.getRound roundId, .ok round⟩] ++ xs) t := by
    rcases ends_bind.mp h with ⟨paid, ⟨⟨⟩, m⟩, hpaid, h⟩ | ⟨e, -, hpaid⟩
    · obtain ⟨xs, rfl, hxs⟩ := paidFetch_handshake hpaid
      exact ⟨xs, hxs, placeBid_silent h⟩
    · obtain ⟨xs, rfl, hxs⟩ := paidFetch_handshake hpaid
      exact ⟨xs, hxs, .refl⟩
  subst ht
  have hpayments :
      paymentsOf platform ([⟨.now, .ok now⟩, ⟨.getRound roundId, .ok round⟩] ++ xs ++ es) =
      paymentsOf platform xs := by
    unfold paymentsOf at hes ⊢
    rw [List.filterMap_append, List.filterMap_append, hes, List.append_nil]
    rfl
  rw [hpayments]
  cases hxs with
  | unanswered e => cases es <;> rfl
  | unpaid first hstatus =>
    have hnone : (demandOf platform config now round first).toOption.join = none := by
      rw [hdemand, if_neg hstatus]
      rfl
    exact congrArg Option.toList (demandIn_none rfl rfl rfl hnone es).symm
  | unreadable first e he =>
    have hnone : (demandOf platform config now round first).toOption.join = none := by
      rw [hdemand, he]
      split <;> rfl
    exact congrArg Option.toList (demandIn_none rfl rfl rfl hnone es).symm
  | unsigned first demand e => rfl
  | paid first demand payment a hstatus hreadable hsigned =>
    have hsome : (demandOf platform config now round first).toOption.join =
        some (platform.payments.demanded demand) := by
      rw [hdemand, if_pos hstatus, hreadable]
      rfl
    have hin : demandIn platform config ([⟨.now, .ok now⟩, ⟨.getRound roundId, .ok round⟩] ++
        [⟨.fetch (appraisalRequest config.mandate config.attributes) none, .ok first⟩,
          ⟨.createPaymentPayload demand, .ok payment⟩,
          ⟨.fetch (appraisalRequest config.mandate config.attributes) (some payment), a⟩] ++ es) =
        some (platform.payments.demanded demand) := hsome
    rw [hin, ← hsigned]
    rfl

/-- The payments of all runs are the demands that they meet. -/
theorem session_pays {mandate : SessionMandate} (runs : List (AgentRun platform mandate)) :
    runs.flatMap (fun run => paymentsOf platform run.transcript) =
      runs.filterMap fun run => demandIn platform run.config run.transcript := by
  induction runs with
  | nil => rfl
  | cons run runs ih =>
    rw [List.flatMap_cons, ih, run.pays, List.filterMap_cons]
    cases demandIn platform run.config run.transcript <;> rfl

/-- **Session spend caps.** They hold when and only when the server keeps to them. -/
theorem session_within_caps_iff {mandate : SessionMandate}
    (runs : List (AgentRun platform mandate)) :
    WithinCaps mandate (runs.flatMap fun run => paymentsOf platform run.transcript) ↔
      WithinCaps mandate
        (runs.filterMap fun run => demandIn platform run.config run.transcript) := by
  rw [session_pays]

theorem answered {α : Type} {q : Request Demand Payment} {f : q.Answer → Task Demand Payment α}
    {r : Except Thrown α} {a : q.Answer} (hsigned : ExactSigning platform q (.ok a))
    (h : Ends (Records platform) (f a) ((), t ++ [⟨q, .ok a⟩]) r ((), t')) :
    Ends (Records platform) (Agent.ask q >>= f) ((), t) r ((), t') :=
  ends_bind.mpr (Or.inl ⟨a, _, ends_request.mpr ⟨rfl, hsigned⟩, h⟩)

theorem computed {α β : Type} {o : Except Thrown α} {a : α} {f : α → Task Demand Payment β}
    {r : Except Thrown β} (ho : o = .ok a)
    (h : Ends (Records platform) (f a) ((), t) r ((), t')) :
    Ends (Records platform) (Coroutine.done o >>= f) ((), t) r ((), t') :=
  ends_done_bind.mpr (Or.inl ⟨a, ho, h⟩)

end

/-! ## A server that asks for more -/

namespace SampleSession

open SampleMandate (config mandate round)

/-- A 402 response states the amount in a header. -/
def platform : Platform Int Int :=
  { SampleMandate.platform with
    payments := {
      getPaymentRequiredResponse := fun headers _ => bigIntOfText ((headers "amount").getD "")
      getPaymentSettleResponse := fun _ => .ok .null
      demanded := id
      authorised := id } }

/-- Fifty times the price of the mandate. -/
def demanding : Response := ⟨402, fun _ => some "50", .ok .null⟩

/-- The server keeps the payment and answers nothing readable. -/
def kept : Response := ⟨200, fun _ => none, .error (.native .syntaxError)⟩

def transcript : List (Exchange Int Int) :=
  let body := appraisalRequest (mandate 10) (.obj [])
  [⟨.now, .ok (1000 : Int)⟩, ⟨.getRound 1, .ok (round 3)⟩,
    ⟨.fetch body none, .ok demanding⟩, ⟨.createPaymentPayload (50 : Int), .ok (50 : Int)⟩,
    ⟨.fetch body (some (50 : Int)), .ok kept⟩]

theorem transcript_ends : Ends (Records platform) (runBidderAgent platform config) ((), [])
    (.error (.native .syntaxError)) ((), transcript) := by
  have hsession : checkSession platform config 1000 = .ok (1, "GS") := by rfl
  have hround : checkRound config 1 (round 3) = .ok () := by rfl
  have hdemand : platform.payments.getPaymentRequiredResponse demanding.headers
      demanding.json.toOption = .ok (50 : Int) := by rfl
  have hfetch : Ends (Records platform)
      (paidFetch platform (appraisalRequest config.mandate config.attributes))
      ((), [⟨.now, .ok (1000 : Int)⟩, ⟨.getRound 1, .ok (round 3)⟩])
      (.error (.native .syntaxError)) ((), transcript) := by
    refine answered (a := demanding) trivial ?_
    rw [if_neg (by decide)]
    refine computed hdemand (answered (a := (50 : Int)) rfl (answered (a := kept) trivial ?_))
    exact ends_done_bind.mpr (Or.inr ⟨_, rfl, rfl, rfl⟩)
  refine answered (a := (1000 : Int)) trivial (computed hsession ?_)
  refine answered (a := round 3) trivial (computed hround ?_)
  exact ends_bind.mpr (Or.inr ⟨_, rfl, hfetch⟩)

end SampleSession

open SampleSession in
/-- The agent pays fifty times the price that its mandate states. -/
theorem session_overspends : ∃ runs : List (AgentRun platform (SampleMandate.mandate 10)),
    ¬ WithinCaps (SampleMandate.mandate 10)
      (runs.flatMap fun run => paymentsOf platform run.transcript) := by
  refine ⟨[⟨SampleMandate.config, rfl, transcript, _, transcript_ends⟩], fun hwithin => ?_⟩
  have hcaps := hwithin 1 1 (by rfl) (by rfl)
  exact absurd hcaps.2 (by decide)

end SubRosa.Agent
