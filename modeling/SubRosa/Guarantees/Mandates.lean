import SubRosa.Agent.Bidder
import SubRosa.Agent.MandateObject
import SubRosa.Library.IntegerEngine

/-!
# What a signed mandate binds

An object that passes with the signature of a mandate is that mandate, and what
the agent commits under a mandate stays within its caps. The server, the chain
and the sealing answer the agent as they like.
-/

namespace SubRosa.Agent

open JavaScript Sdk Coroutine

/-! ## Signatures -/

/-- What verifies under a key has been signed with it, and one signature signs one message. -/
structure Keypairs.Unforgeable (keypairs : Keypairs) (signed : String → Bytes → Bytes → Prop) :
    Prop where
  forged : ∀ {key message signature}, keypairs.verify key message signature = .ok true →
    signed key message signature
  single : ∀ {key message message' signature}, signed key message signature →
    signed key message' signature → message = message'

section

variable {engine : Engine} {keypairs : Keypairs} {sha256 : Bytes → BytesN 32}
  {bufferFrom : JsValue → Except Thrown Bytes} {fields : List (String × Json)} {opts : Binding}

/-- The bytes under the signature of an object. -/
def signedText (engine : Engine) (fields : List (String × Json)) : Bytes :=
  (canonical engine (.obj (payloadOf fields))).toUTF8.toList

/-- An accepted object has a valid signature. -/
theorem verified_of_accepted {principal signature : String}
    (hprincipal : fieldOf fields "principal" = some (.str principal))
    (hsignature : fieldOf fields "signature" = some (.str signature))
    (h : verifySessionMandateObject engine keypairs sha256 bufferFrom fields opts = .ok ()) :
    keypairs.verify principal (sha256 (signedText engine fields)).val (base64Bytes signature) =
      .ok true := by
  have hread : ∀ {name : String} {v : Json}, fieldOf fields name = some v →
      property engine (.obj fields) name = some v := fun h => by
    rw [property, ownProperty, h]
  obtain ⟨_, h, -⟩ := bind_eq_ok.mp h
  unfold authenticate at h
  simp only [hread hprincipal, hread hsignature, publicKeyText, signatureBytes, bind_ok] at h
  split at h
  · obtain ⟨_, -, h⟩ := bind_eq_ok.mp h
    obtain ⟨_, h, -⟩ := bind_eq_ok.mp h
    cases h
  · obtain ⟨ok, hverify, h⟩ := bind_eq_ok.mp h
    cases ok with
    | true => exact hverify
    | false => cases h

theorem payloadOf_perm {signature : Json} (hnodup : (fields.map Prod.fst).Nodup)
    (h : fieldOf fields "signature" = some signature) :
    fields.Perm (("signature", signature) :: payloadOf fields) := by
  obtain ⟨p, hp, hvalue⟩ := Option.map_eq_some_iff.mp h
  have hname : p.1 = "signature" := by simpa using List.find?_some hp
  obtain ⟨before, after, rfl⟩ := List.append_of_mem (List.mem_of_find?_eq_some hp)
  obtain ⟨name, v⟩ := p
  obtain rfl : name = "signature" := hname
  obtain rfl : v = signature := hvalue
  rw [List.map_append, List.map_cons, List.nodup_middle, List.nodup_cons] at hnodup
  have hother : ∀ p ∈ before ++ after, p.1 ≠ "signature" := by
    intro p hp he
    have hmem : p.1 ∈ (before ++ after).map Prod.fst := List.mem_map_of_mem hp
    rw [he, List.map_append] at hmem
    exact hnodup.1 hmem
  have hpayload : payloadOf (before ++ ("signature", v) :: after) = before ++ after := by
    rw [payloadOf, List.filter_append, List.filter_cons_of_neg (by simp), ← List.filter_append]
    exact List.filter_eq_self.mpr fun p hp => decide_eq_true (hother p hp)
  rw [hpayload]
  exact List.perm_middle

/-- The signature is the same, so equal payloads make equal objects. -/
theorem same_of_payload {fields' : List (String × Json)} {signature : Json}
    (hnodup : (fields.map Prod.fst).Nodup) (hnodup' : (fields'.map Prod.fst).Nodup)
    (hsignature : fieldOf fields "signature" = some signature)
    (hsignature' : fieldOf fields' "signature" = some signature)
    (h : (Json.obj (payloadOf fields)).copy.sorted = (Json.obj (payloadOf fields')).copy.sorted) :
    (Json.obj fields).copy.Same (Json.obj fields').copy := by
  have hflat : ∀ l : List (String × Json), (Json.obj l).copy.sorted =
      .obj (sortEntries (l.map fun p => (p.1, p.2.copy.sorted))) := by
    intro l
    rw [Json.copy, Json.sorted, Json.copyFields_eq_map, Json.sortedFields_eq_map, List.map_map]
    rfl
  rw [hflat, hflat, Json.obj.injEq] at h
  refine Json.same_of_sorted ?_
  rw [hflat, hflat, Json.obj.injEq]
  have hpayload := (sortEntries_perm _).symm.trans ((List.Perm.of_eq h).trans (sortEntries_perm _))
  refine sortEntries_congr ?_ ?_
  · rw [List.map_map]
    exact hnodup
  · have hleft := (payloadOf_perm hnodup hsignature).map fun p => (p.1, p.2.copy.sorted)
    have hright := (payloadOf_perm hnodup' hsignature').map fun p => (p.1, p.2.copy.sorted)
    exact hleft.trans ((hpayload.cons _).trans hright.symm)

/-- **Tamper evidence.** -/
theorem accepted_same {m : SessionMandate} {signed : String → Bytes → Bytes → Prop}
    (hkeys : keypairs.Unforgeable signed)
    (hsigned : signed m.principal (mandateDigest engine sha256 m.toSessionMandatePayload)
      (base64Bytes m.signature))
    (hfree : ∀ x ∈ [signedText engine fields, signedText engine m.fields],
      ∀ y ∈ [signedText engine fields, signedText engine m.fields], sha256 x = sha256 y → x = y)
    (hm : m.json.Held engine) (hfields : (Json.obj fields).Held engine)
    (hprincipal : fieldOf fields "principal" = some (.str m.principal))
    (hsignature : fieldOf fields "signature" = some (.str m.signature))
    (h : verifySessionMandateObject engine keypairs sha256 bufferFrom fields opts = .ok ()) :
    (Json.obj fields).copy.Same m.json.copy := by
  have hverified := hkeys.forged (verified_of_accepted hprincipal hsignature h)
  have hdigest := hkeys.single hverified hsigned
  have htext : mandateDigest engine sha256 m.toSessionMandatePayload =
      (sha256 (signedText engine m.fields)).val := by
    rw [mandateDigest, signedText, m.payloadOf_fields]
  rw [htext] at hdigest
  have hbytes := hfree _ (by simp) _ (by simp) (Subtype.ext hdigest)
  have hpayload : ∀ {l : List (String × Json)}, (Json.obj l).Held engine →
      (Json.obj (payloadOf l)).Every engine.Prints List.Nodup := by
    rintro l (_ | _ | _ | _ | _ | ⟨hnames, hvalues⟩)
    refine .obj (hnames.nodup.sublist (List.filter_sublist.map Prod.fst)) fun p hp => ?_
    exact (hvalues p (List.mem_of_mem_filter hp)).imp (fun _ hn => hn) fun _ hl => hl.nodup
  have hsame := canonical_inj (hpayload hfields) (hpayload hm) (utf8_inj hbytes)
  have hdistinct : (Json.obj (payloadOf fields)).copy.Distinct :=
    (hpayload hfields).copy.imp (fun _ _ => trivial) fun _ hl => hl
  have hname : fieldOf m.fields "signature" = some (.str m.signature) := by
    obtain ⟨⟨version, principal, sessionKey, contractId, roundId, itemRef, basePriceUsdc,
      category, _⟩, _⟩ := m
    cases category <;> rfl
  have hnodup : ∀ {l : List (String × Json)}, (Json.obj l).Held engine →
      (l.map Prod.fst).Nodup := by
    rintro l (_ | _ | _ | _ | _ | ⟨hnames, -⟩)
    exact hnames.nodup
  rw [m.json_eq] at hm ⊢
  exact same_of_payload (hnodup hfields) (hnodup hm) hsignature hname (hsame.sorted hdistinct)

end

/-! ## Commits -/

section

variable {Demand Payment : Type} {platform : Platform Demand Payment} {config : BidderAgentConfig}
  {t t' : List (Σ q : Request Demand Payment, Except Thrown q.Answer)}

/-- An exchange that commits nothing. -/
def CommitsNothing (e : Σ q : Request Demand Payment, Except Thrown q.Answer) : Prop :=
  ∀ params, e.1 ≠ .commit params

/-- A task that commits nothing, whatever it is answered. -/
abbrev Quiet {α : Type} (x : Task Demand Payment α) : Prop := Makes CommitsNothing x

theorem quiet_ask {q : Request Demand Payment} (hq : ∀ params, q ≠ .commit params) :
    Quiet (Agent.ask q) :=
  makes_request fun _ => hq

theorem quiet_paidFetch (body : Json) : Quiet (paidFetch platform body) := by
  refine makes_bind (quiet_ask (by simp)) fun first => ?_
  split
  · exact makes_bind (makes_done _) fun body => makes_done _
  · refine makes_bind (makes_done _) fun paymentRequired => makes_bind (quiet_ask nofun)
      fun payload => makes_bind (quiet_ask nofun) fun paid => makes_bind (makes_done _)
      fun body => ?_
    split
    · exact makes_done _
    · exact makes_bind (makes_done _) fun settlement => makes_done _

/-- A commit that is not there before a quiet first part is made after it. -/
theorem commits_later {α β : Type} {x : Task Demand Payment α}
    {f : α → Task Demand Payment β} (hx : Quiet x) {r : Except Thrown β}
    (h : Ends Recorded (x >>= f) ((), t) r ((), t'))
    {e : Σ q : Request Demand Payment, Except Thrown q.Answer} (he : ¬ CommitsNothing e)
    (hnew : e ∉ t) (hmade : e ∈ t') :
    ∃ b t₁, Ends Recorded x ((), t) (.ok b) ((), t₁) ∧ Ends Recorded (f b) ((), t₁) r ((), t') ∧
      e ∉ t₁ := by
  have hkeeps : ∀ {t₁ : List (Σ q : Request Demand Payment, Except Thrown q.Answer)},
      Adds CommitsNothing t t₁ → e ∉ t₁ :=
    fun hadds hmem => (hadds.mem hmem).elim hnew he
  rcases ends_bind.mp h with ⟨b, ⟨⟨⟩, t₁⟩, h₁, h₂⟩ | ⟨error, -, h₁⟩
  · exact ⟨b, t₁, h₁, h₂, hkeeps (hx _ _ _ _ _ h₁)⟩
  · exact (hkeeps (hx _ _ _ _ _ h₁) hmade).elim

/-- What the agent has done by the time it commits. -/
structure Placed (platform : Platform Demand Payment) (config : BidderAgentConfig)
    (t : List (Σ q : Request Demand Payment, Except Thrown q.Answer)) (roundId : Int)
    (round : Round) (sealing : SealBidParams) (params : CommitParams) : Prop where
  session : ∃ now publicKey, checkSession platform config now = .ok (roundId, publicKey)
  read : ⟨.getRound roundId, .ok round⟩ ∈ t
  ready : checkRound config roundId round = .ok ()
  sized : ∃ paid appraisal,
    bidOf platform config paid = .ok (appraisal, sealing.value, params.escrow)
  made : ⟨.sealBid sealing, .ok params.sealedBid⟩ ∈ t
  timelocked : sealing.round = config.revealRound
  audited : sealing.auditorPublicKey = config.auditorPubkey
  round : params.roundId = .bigint roundId

/-- The commit of a placed bid. -/
theorem placeBid_places {roundId : Int} {publicKey : String} {paid : PaidResult}
    {r : Except Thrown BidderAgentResult} {params : CommitParams} {a : Except Thrown Unit}
    (h : Ends Recorded (placeBid platform config roundId publicKey paid) ((), t) r ((), t'))
    (hnew : ⟨.commit params, a⟩ ∉ t) (hmade : ⟨.commit params, a⟩ ∈ t') :
    t <+: t' ∧ ∃ sealing,
      (∃ appraisal, bidOf platform config paid = .ok (appraisal, sealing.value, params.escrow)) ∧
      ⟨.sealBid sealing, .ok params.sealedBid⟩ ∈ t' ∧ sealing.round = config.revealRound ∧
      sealing.auditorPublicKey = config.auditorPubkey ∧ params.roundId = .bigint roundId := by
  have hcommits : ¬ CommitsNothing
      (⟨.commit params, a⟩ : Σ q : Request Demand Payment, Except Thrown q.Answer) :=
    fun h => h params rfl
  obtain ⟨⟨appraisal, bidValue, escrow⟩, t₁, hsized, h₁, hnew⟩ :=
    commits_later (makes_done _) h hcommits hnew hmade
  obtain ⟨hbid, hsame⟩ := ends_done.mp hsized
  obtain rfl : t = t₁ := (congrArg Prod.snd hsame).symm
  obtain ⟨nonce, t₂, hnonce, h₂, hnew⟩ :=
    commits_later (quiet_ask (by rintro _ ⟨⟩)) h₁ hcommits hnew hmade
  obtain ⟨-, rfl⟩ := ends_recorded.mp hnonce
  obtain ⟨sealedBid, t₃, hsealed, h₃, hnew⟩ :=
    commits_later (quiet_ask (by rintro _ ⟨⟩)) h₂ hcommits hnew hmade
  obtain ⟨-, rfl⟩ := ends_recorded.mp hsealed
  let sealing : SealBidParams := ⟨bidValue, nonce, config.revealRound,
    ("agent:" ++ publicKey).toUTF8.toList, config.auditorPubkey⟩
  -- the request after the seal is the commit, and none follows
  have hlast : ∃ b es, t' = t ++ [⟨.generateNonce, .ok nonce⟩] ++
      [⟨.sealBid sealing, .ok sealedBid⟩] ++
      [⟨.commit ⟨.bigint roundId, sealedBid, escrow, none⟩, b⟩] ++ es ∧
      ∀ e ∈ es, CommitsNothing e := by
    rcases ends_recorded_bind.mp h₃ with ⟨_, h₄⟩ | ⟨e, -, -, rfl⟩
    · obtain ⟨es, ht, hes⟩ := makes_bind (makes_done _) (fun _ => makes_done _) _ _ _ _ _ h₄
      exact ⟨_, es, ht, hes⟩
    · exact ⟨.error e, [], (List.append_nil _).symm, by simp⟩
  obtain ⟨b, es, rfl, hes⟩ := hlast
  have hparams : params = ⟨.bigint roundId, sealedBid, escrow, none⟩ := by
    rcases List.mem_append.mp hmade with hmade | hmade
    · rcases List.mem_append.mp hmade with hmade | hmade
      · exact (hnew hmade).elim
      · cases List.mem_singleton.mp hmade
        rfl
    · exact (hcommits (hes _ hmade)).elim
  subst hparams
  refine ⟨?_, sealing, ⟨appraisal, hbid.symm⟩, by simp, rfl, rfl, rfl⟩
  rw [List.append_assoc, List.append_assoc, List.append_assoc]
  exact List.prefix_append _ _

/-- **Every commit of a run is prepared.** -/
theorem run_places {r : Except Thrown BidderAgentResult} {params : CommitParams}
    {a : Except Thrown Unit}
    (h : Ends Recorded (runBidderAgent platform config) ((), []) r ((), t))
    (hmade : ⟨.commit params, a⟩ ∈ t) :
    ∃ roundId round sealing, Placed platform config t roundId round sealing params := by
  have hcommits : ¬ CommitsNothing
      (⟨.commit params, a⟩ : Σ q : Request Demand Payment, Except Thrown q.Answer) :=
    fun h => h params rfl
  obtain ⟨now, t₁, hnow, h, hnew⟩ :=
    commits_later (quiet_ask (by simp)) h hcommits (by simp) hmade
  obtain ⟨⟨roundId, publicKey⟩, t₂, hsession, h, hnew⟩ :=
    commits_later (makes_done _) h hcommits hnew hmade
  obtain ⟨round, t₃, hround, h, hnew⟩ :=
    commits_later (quiet_ask (by simp)) h hcommits hnew hmade
  obtain ⟨_, t₄, hready, h, hnew⟩ := commits_later (makes_done _) h hcommits hnew hmade
  obtain ⟨paid, t₅, hpaid, h, hnew⟩ :=
    commits_later (quiet_paidFetch _) h hcommits hnew hmade
  obtain ⟨hadds, sealing, ⟨appraisal, hsized⟩, hsealed, htimelocked, haudited, hid⟩ :=
    placeBid_places h hnew hmade
  obtain ⟨-, rfl⟩ := ends_recorded.mp hround
  obtain ⟨hround, hsame⟩ := ends_done.mp hready
  obtain rfl : t₄ = _ := congrArg Prod.snd hsame
  refine ⟨roundId, round, sealing, ?_⟩
  exact {
    session := ⟨now, publicKey, (ends_done.mp hsession).1.symm⟩
    read := hadds.subset ((quiet_paidFetch _ _ _ _ _ _ hpaid).subset (by simp))
    ready := hround.symm
    sized := ⟨paid, appraisal, hsized⟩
    made := hsealed
    timelocked := htimelocked
    audited := haudited
    round := hid }

/-- A check that did not throw, and then the rest. -/
theorem refuse_eq_ok {α : Type} {c : Prop} [Decidable c] {e : Thrown} {k : Unit → Except Thrown α}
    {x : Except Thrown α} {a : α} :
    (if c then Except.error e >>= k else x) = .ok a ↔ ¬ c ∧ x = .ok a := by
  split
  · next hc =>
    have herror : (Except.error e >>= k) = .error e := rfl
    simp [herror, hc]
  · next hc => simp [hc]

/-- A bid that the mandate allows. -/
theorem assertBid_ok {mandate : SessionMandate} {bidValue escrow : Int}
    (h : assertBidWithinMandate mandate bidValue escrow = .ok ()) :
    0 < bidValue ∧ ∃ cap, bigIntOfText mandate.maxBidStroops = .ok cap ∧ bidValue ≤ cap := by
  obtain ⟨hpos, h⟩ := refuse_eq_ok.mp h
  obtain ⟨cap, hcap, h⟩ := bind_eq_ok.mp h
  obtain ⟨hwithin, -⟩ := refuse_eq_ok.mp h
  exact ⟨not_le.mp hpos, cap, hcap, not_lt.mp hwithin⟩

/-- The bid is as large as its escrow. -/
theorem bidOf_ok {paid : PaidResult} {appraisal : JsValue} {bidValue escrow : Int}
    (h : bidOf platform config paid = .ok (appraisal, bidValue, escrow)) :
    bidValue = escrow ∧ assertBidWithinMandate config.mandate bidValue escrow = .ok () := by
  obtain ⟨-, h⟩ := throwIf_bind_eq_ok.mp h
  obtain ⟨_, -, h⟩ := bind_eq_ok.mp h
  obtain ⟨-, h⟩ := throwIf_bind_eq_ok.mp h
  obtain ⟨_, -, h⟩ := bind_eq_ok.mp h
  obtain ⟨-, h⟩ := throwIf_bind_eq_ok.mp h
  obtain ⟨_, -, h⟩ := bind_eq_ok.mp h
  obtain ⟨suggested, -, h⟩ := bind_eq_ok.mp h
  obtain ⟨⟨value, cap⟩, hbid, h⟩ := bind_eq_ok.mp h
  obtain ⟨_, hwithin, h⟩ := bind_eq_ok.mp h
  obtain ⟨-, hpair⟩ := Prod.mk.inj (Except.ok.inj h)
  obtain ⟨rfl, rfl⟩ := Prod.mk.inj hpair
  refine ⟨?_, hwithin⟩
  unfold bidFromAppraisal at hbid
  obtain ⟨_, -, hbid⟩ := bind_eq_ok.mp hbid
  obtain ⟨_, -, hbid⟩ := bind_eq_ok.mp hbid
  obtain ⟨_, -, hbid⟩ := bind_eq_ok.mp hbid
  obtain ⟨_, -, hbid⟩ := bind_eq_ok.mp hbid
  obtain ⟨_, -, hbid⟩ := bind_eq_ok.mp hbid
  obtain ⟨hvalue, hescrow⟩ := Prod.mk.inj (Except.ok.inj hbid)
  exact hvalue.symm.trans hescrow

/-- The caps of a mandate that passes. -/
theorem verified_caps {engine : Engine} {keypairs : Keypairs} {sha256 : Bytes → BytesN 32}
    {mandate : SessionMandate} {opts : Binding}
    (h : verifySessionMandate engine keypairs sha256 mandate opts = .ok ()) :
    ∃ maxBid maxEscrow, bigIntOfText mandate.maxBidStroops = .ok maxBid ∧
      bigIntOfText mandate.maxEscrowStroops = .ok maxEscrow ∧ maxBid ≤ maxEscrow := by
  obtain ⟨-, h⟩ := refuse_eq_ok.mp h
  obtain ⟨ok, -, h⟩ := bind_eq_ok.mp h
  obtain ⟨-, h⟩ := refuse_eq_ok.mp h
  obtain ⟨-, h⟩ := refuse_eq_ok.mp h
  obtain ⟨-, h⟩ := refuse_eq_ok.mp h
  obtain ⟨-, h⟩ := refuse_eq_ok.mp h
  obtain ⟨-, h⟩ := refuse_eq_ok.mp h
  obtain ⟨maxBid, hmaxBid, h⟩ := bind_eq_ok.mp h
  obtain ⟨maxEscrow, hmaxEscrow, h⟩ := bind_eq_ok.mp h
  obtain ⟨hcaps, -⟩ := refuse_eq_ok.mp h
  exact ⟨maxBid, maxEscrow, hmaxBid, hmaxEscrow, not_lt.mp hcaps⟩

/-- **Bid caps.** -/
theorem Placed.within_caps {roundId : Int} {round : Round} {sealing : SealBidParams}
    {params : CommitParams} (h : Placed platform config t roundId round sealing params) :
    0 < sealing.value ∧ sealing.value = params.escrow ∧ ∃ maxBid maxEscrow,
      bigIntOfText config.mandate.maxBidStroops = .ok maxBid ∧
      bigIntOfText config.mandate.maxEscrowStroops = .ok maxEscrow ∧
      params.escrow ≤ maxBid ∧ maxBid ≤ maxEscrow := by
  obtain ⟨paid, appraisal, hsized⟩ := h.sized
  obtain ⟨heq, hwithin⟩ := bidOf_ok hsized
  obtain ⟨hpos, cap, hcap, hle⟩ := assertBid_ok hwithin
  obtain ⟨now, publicKey, hsession⟩ := h.session
  obtain ⟨id, -, hsession⟩ := bind_eq_ok.mp hsession
  obtain ⟨_, -, hsession⟩ := bind_eq_ok.mp hsession
  obtain ⟨-, hsession⟩ := throwIf_bind_eq_ok.mp hsession
  obtain ⟨_, hverified, -⟩ := bind_eq_ok.mp hsession
  obtain ⟨maxBid, maxEscrow, hmaxBid, hmaxEscrow, hcaps⟩ := verified_caps hverified
  obtain rfl : cap = maxBid := Except.ok.inj (hcap.symm.trans hmaxBid)
  exact ⟨hpos, heq, cap, maxEscrow, hmaxBid, hmaxEscrow, heq ▸ hle, hcaps⟩

end

/-- **What a mandate binds.** An object that passes with its signature is the mandate, an infinite
number being signed as `null`, and a run under it commits within its caps. -/
theorem mandate_binding {Demand Payment : Type} (platform : Platform Demand Payment)
    (bufferFrom : JsValue → Except Thrown Bytes) (m : SessionMandate) :
    (∀ (signed : String → Bytes → Bytes → Prop) (fields : List (String × Json)) (opts : Binding),
      platform.keypairs.Unforgeable signed →
      signed m.principal (mandateDigest platform.engine platform.sha256 m.toSessionMandatePayload)
        (base64Bytes m.signature) →
      (∀ x ∈ [signedText platform.engine fields, signedText platform.engine m.fields],
        ∀ y ∈ [signedText platform.engine fields, signedText platform.engine m.fields],
          platform.sha256 x = platform.sha256 y → x = y) →
      m.json.Held platform.engine → (Json.obj fields).Held platform.engine →
      fieldOf fields "principal" = some (.str m.principal) →
      fieldOf fields "signature" = some (.str m.signature) →
      verifySessionMandateObject platform.engine platform.keypairs platform.sha256 bufferFrom
        fields opts = .ok () →
      (Json.obj fields).copy.Same m.json.copy) ∧
    (∀ (config : BidderAgentConfig) (r : Except Thrown BidderAgentResult)
      (t : List (Σ q : Request Demand Payment, Except Thrown q.Answer)) (params : CommitParams)
      (a : Except Thrown Unit), config.mandate = m →
      Ends Recorded (runBidderAgent platform config) ((), []) r ((), t) →
      ⟨.commit params, a⟩ ∈ t →
      ∃ sealing maxBid maxEscrow, ⟨.sealBid sealing, .ok params.sealedBid⟩ ∈ t ∧
        bigIntOfText m.maxBidStroops = .ok maxBid ∧
        bigIntOfText m.maxEscrowStroops = .ok maxEscrow ∧
        0 < sealing.value ∧ sealing.value = params.escrow ∧ params.escrow ≤ maxBid ∧
        maxBid ≤ maxEscrow) := by
  refine ⟨fun signed fields opts hkeys hsigned hfree hm hfields hprincipal hsignature h =>
    accepted_same hkeys hsigned hfree hm hfields hprincipal hsignature h, ?_⟩
  rintro config r t params a rfl hrun hmade
  obtain ⟨roundId, round, sealing, hplaced⟩ := run_places hrun hmade
  obtain ⟨hpos, heq, maxBid, maxEscrow, hmaxBid, hmaxEscrow, hbid, hcaps⟩ := hplaced.within_caps
  exact ⟨sealing, maxBid, maxEscrow, hplaced.made, hmaxBid, hmaxEscrow, hpos, heq, hbid, hcaps⟩

/-! ## A signed mandate -/

namespace SampleMandate

/-- The signature of 32 zeros. -/
def signature : String := "AAAAAAAAAAAAAAAAAAAAAAAAAAAAAAAAAAAAAAAAAAA="

def mandate (basePriceUsdc : Number) : SessionMandate where
  version := 1
  principal := "GP"
  sessionKey := "GS"
  contractId := "C"
  roundId := "1"
  itemRef := "lot"
  basePriceUsdc
  category := none
  maxBidStroops := "9"
  maxEscrowStroops := "10"
  maxAppraisalSpendStroops := "1"
  appraisalPriceStroops := "1"
  commitDeadline := 1050
  issuedAt := 1000
  expiresAt := 1050
  signature

/-- Every key signs a message with the message. -/
def keypairs : Keypairs := ⟨.ok, fun _ message signature => .ok (message = signature)⟩

theorem unforgeable : keypairs.Unforgeable fun _ message signature => message = signature where
  forged h := of_decide_eq_true (Except.ok.inj h)
  single h h' := h.trans h'.symm

def platform : Platform Int Int where
  engine := integerEngine
  keypairs
  sha256 := fun _ => BytesN.fill 32 0
  payments := {
    getPaymentRequiredResponse := fun _ _ => .ok 0
    getPaymentSettleResponse := fun _ => .ok .null
    demanded := id
    authorised := id }
  timesTenMillion := id

def config : BidderAgentConfig := ⟨mandate 10, "GS", [], 3, .obj []⟩

def round (revealRound : UInt64) : Round where
  operator := .account 1
  itemRef := BytesN.fill 32 0
  revealRound
  clearingRule := .HighestBid
  commitDeadline := 1050
  revealDeadline := 1100
  auditorPubkey := []
  status := .Open
  bidders := []
  winner := none
  winningBid := 0

/-- An appraisal that nobody has to pay for. -/
def appraisal : Response := ⟨200, fun _ => none, .ok (.obj [("appraisal", .obj
  [("itemRef", .str "lot"), ("suggestedMaxBid", .num 20)])])⟩

def sealing : SealBidParams := ⟨9, [], 3, "agent:GS".toUTF8.toList, []⟩

def sealedBid : SealedBid := ⟨[], [], []⟩

def transcript (revealRound : UInt64) : List (Σ q : Request Int Int, Except Thrown q.Answer) :=
  [⟨.now, .ok (1000 : Int)⟩, ⟨.getRound 1, .ok (round revealRound)⟩,
    ⟨.fetch (appraisalRequest (mandate 10) (.obj [])) none, .ok appraisal⟩,
    ⟨.generateNonce, .ok ([] : Bytes)⟩, ⟨.sealBid sealing, .ok sealedBid⟩,
    ⟨.commit ⟨.bigint 1, sealedBid, 9, none⟩, .ok ()⟩]

/-- The names of the fields. -/
def names : List String :=
  ["version", "principal", "sessionKey", "contractId", "roundId", "itemRef", "basePriceUsdc",
    "maxBidStroops", "maxEscrowStroops", "maxAppraisalSpendStroops", "appraisalPriceStroops",
    "commitDeadline", "issuedAt", "expiresAt", "signature"]

theorem every_value {number : Number → Prop} {names : List String → Prop} {basePriceUsdc : Number}
    (hnumbers : ∀ n ∈ [1, 10, 1000, 1050], number (.finite (n : ℕ)))
    (hprice : number basePriceUsdc) :
    ∀ p ∈ (mandate basePriceUsdc).fields, p.2.Every number names := by
  have hnum : ∀ n ∈ [1, 10, 1000, 1050], Json.Every number names (.num (.finite (n : ℕ))) :=
    fun n hn => .num (hnumbers n hn)
  refine List.forall_mem_cons.mpr ⟨hnum 1 (by simp), ?_⟩
  refine List.forall_mem_cons.mpr ⟨.str _, List.forall_mem_cons.mpr ⟨.str _, ?_⟩⟩
  refine List.forall_mem_cons.mpr ⟨.str _, List.forall_mem_cons.mpr ⟨.str _, ?_⟩⟩
  refine List.forall_mem_cons.mpr ⟨.str _, List.forall_mem_cons.mpr ⟨.num hprice, ?_⟩⟩
  refine List.forall_mem_cons.mpr ⟨.str _, List.forall_mem_cons.mpr ⟨.str _, ?_⟩⟩
  refine List.forall_mem_cons.mpr ⟨.str _, List.forall_mem_cons.mpr ⟨.str _, ?_⟩⟩
  refine List.forall_mem_cons.mpr ⟨hnum 1050 (by simp), ?_⟩
  refine List.forall_mem_cons.mpr ⟨hnum 1000 (by simp), ?_⟩
  exact List.forall_mem_cons.mpr ⟨hnum 1050 (by simp), List.forall_mem_singleton.mpr (.str _)⟩

theorem held {basePriceUsdc : Number} (h : integerEngine.Prints basePriceUsdc) :
    (mandate basePriceUsdc).json.Held integerEngine :=
  .obj (show InOrder names by unfold InOrder; decide +kernel)
  (every_value (fun n _ => integerEngine_prints n) h)

/-- The same fields the other way round. -/
theorem held_reverse {basePriceUsdc : Number} (h : integerEngine.Prints basePriceUsdc) :
    (Json.obj (mandate basePriceUsdc).fields.reverse).Held integerEngine := by
  refine .obj ?_ fun p hp =>
    every_value (fun n _ => integerEngine_prints n) h p (List.mem_reverse.mp hp)
  show InOrder names.reverse
  unfold InOrder
  decide +kernel

theorem signedText_reverse {basePriceUsdc : Number} :
    signedText integerEngine (mandate basePriceUsdc).fields.reverse =
      signedText integerEngine (mandate basePriceUsdc).fields := by
  have hperm : ∀ l : List (String × Json), (payloadOf l.reverse).Perm (payloadOf l) := fun l =>
    (List.reverse_perm l).filter _
  have hsorted : (Json.obj (payloadOf (mandate basePriceUsdc).fields.reverse)).sorted =
      (Json.obj (payloadOf (mandate basePriceUsdc).fields)).sorted := by
    rw [Json.sorted, Json.sorted, Json.sortedFields_eq_map, Json.sortedFields_eq_map]
    refine congrArg Json.obj (sortEntries_congr ?_ ((hperm _).map _))
    rw [List.map_map]
    show (names.reverse.filter (· ≠ "signature")).Nodup
    decide +kernel
  have htext : ∀ v w : Json, v.sorted = w.sorted →
      canonical integerEngine v = canonical integerEngine w := by
    intro v w h
    apply String.toList_inj.mp
    rw [toList_canonical, toList_canonical, h]
  rw [signedText, signedText, htext _ _ hsorted]

theorem answered {α : Type} {t t' : List (Σ q : Request Int Int, Except Thrown q.Answer)}
    {q : Request Int Int} {f : q.Answer → Task Int Int α} {r : Except Thrown α} (a : q.Answer)
    (h : Ends Recorded (f a) ((), t ++ [⟨q, .ok a⟩]) r ((), t')) :
    Ends Recorded (Agent.ask q >>= f) ((), t) r ((), t') :=
  ends_bind.mpr (Or.inl ⟨a, _, ends_recorded.mpr ⟨rfl, rfl⟩, h⟩)

theorem computed {α β : Type} {t t' : List (Σ q : Request Int Int, Except Thrown q.Answer)}
    {o : Except Thrown α} {a : α} {f : α → Task Int Int β} {r : Except Thrown β} (ho : o = .ok a)
    (h : Ends Recorded (f a) ((), t) r ((), t')) :
    Ends Recorded (Coroutine.done o >>= f) ((), t) r ((), t') :=
  ends_done_bind.mpr (Or.inl ⟨a, ho, h⟩)

def suggestion : JsValue :=
  some (.obj [("itemRef", .str "lot"), ("suggestedMaxBid", .num 20)])

theorem transcript_ends (revealRound : UInt64) :
    Ends Recorded (runBidderAgent platform config) ((), [])
    (.ok ⟨"GS", 9, 9, [], suggestion, none, none⟩) ((), transcript revealRound) := by
  have hsession : checkSession platform config 1000 = .ok (1, "GS") := by rfl
  have hround : checkRound config 1 (round revealRound) = .ok () := by rfl
  have hbid : bidOf platform config ⟨200, .obj [("appraisal", .obj
      [("itemRef", .str "lot"), ("suggestedMaxBid", .num 20)])], none⟩ =
      .ok (suggestion, 9, 9) := by
    have hsuggested : usdcToStroops platform.timesTenMillion (some 20) = .ok 20 := by
      have hrounded : ⌊(20 : ℚ) + 1 / 2⌋ = 20 := by norm_num
      exact congrArg Except.ok hrounded
    have hbid :
        bidFromAppraisal platform.timesTenMillion (some 20) config.mandate = .ok (9, 9) := by
      rw [bidFromAppraisal, hsuggested]
      rfl
    show (bidFromAppraisal platform.timesTenMillion (some 20) config.mandate >>= fun p =>
      assertBidWithinMandate config.mandate p.1 p.2 >>= fun _ => .ok (suggestion, p.1, p.2)) = _
    rw [hbid]
    rfl
  have hfetch : Ends Recorded
      (paidFetch platform (appraisalRequest config.mandate config.attributes))
      ((), (transcript revealRound).take 2)
      (.ok ⟨200, .obj [("appraisal", .obj
        [("itemRef", .str "lot"), ("suggestedMaxBid", .num 20)])], none⟩)
      ((), (transcript revealRound).take 3) := by
    refine answered appraisal ?_
    rw [if_pos (by decide)]
    exact ends_done_bind.mpr (Or.inl ⟨_, rfl, ends_done.mpr ⟨rfl, rfl⟩⟩)
  refine answered (1000 : Int) (computed hsession
    (answered (round revealRound) (computed hround ?_)))
  refine ends_bind.mpr (Or.inl ⟨_, _, hfetch, computed hbid ?_⟩)
  refine answered ([] : Bytes) (answered sealedBid (answered () ?_))
  exact computed (by rfl) (ends_done.mpr ⟨rfl, rfl⟩)

theorem commit_mem (revealRound : UInt64) :
    ⟨.commit ⟨.bigint 1, sealedBid, 9, none⟩, .ok ()⟩ ∈ transcript revealRound :=
  List.mem_append_right [_, _, _, _, _] (List.mem_singleton_self _)

/-- The mandate that asks an infinite price, without its price. -/
def priceless : List (String × Json) :=
  (mandate (.infinite false)).fields.map fun p =>
    (p.1, if p.1 = "basePriceUsdc" then .null else p.2)

theorem priceless_distinct : (Json.obj priceless).Distinct := by
  refine .obj (show names.Nodup by decide +kernel) fun p hp => ?_
  obtain ⟨p, hprice, rfl⟩ := List.mem_map.mp hp
  dsimp only
  split
  · exact .null
  · exact every_value (fun _ _ => trivial) trivial p hprice

theorem priceless_price : ("basePriceUsdc", Json.null) ∈ priceless :=
  List.mem_map.mpr ⟨("basePriceUsdc", .num (.infinite false)),
    List.mem_append_left [_, _, _, _, _, _, _, _] (List.mem_append_right [_, _, _, _, _, _]
      (List.mem_singleton_self _)), rfl⟩

theorem price_of_mem {basePriceUsdc : Number} {p : String × Json}
    (hp : p ∈ (mandate basePriceUsdc).fields) (hname : p.1 = "basePriceUsdc") :
    p.2 = .num basePriceUsdc := by
  have hall : ∀ p ∈ (mandate basePriceUsdc).fields, p.1 = "basePriceUsdc" →
      p.2 = .num basePriceUsdc := by
    simp [SessionMandate.fields, SessionMandate.json, SessionMandatePayload.json, mandate]
  exact hall p hp hname

theorem signedText_priceless :
    signedText integerEngine priceless =
      signedText integerEngine (mandate (.infinite false)).fields := by
  have hcopy : (Json.obj (payloadOf priceless)).copy =
      (Json.obj (payloadOf (mandate (.infinite false)).fields)).copy := rfl
  have htext : ∀ v w : Json, v.copy = w.copy →
      canonical integerEngine v = canonical integerEngine w := by
    intro v w h
    apply String.toList_inj.mp
    rw [toList_canonical, toList_canonical, ← Json.chars_copy,
      ← Json.chars_copy integerEngine w.sorted,
      Json.copy_sorted, Json.copy_sorted, h]
  rw [signedText, signedText, htext _ _ hcopy]

end SampleMandate

/-- The mandate with its fields turned around passes, and a run under it commits 9. -/
theorem mandate_binding_sample :
    (Json.obj (SampleMandate.mandate 10).fields.reverse).copy.Same
      (SampleMandate.mandate 10).json.copy ∧
    ∃ sealing : SealBidParams, ∃ maxBid maxEscrow : Int,
      bigIntOfText (SampleMandate.mandate 10).maxBidStroops = .ok maxBid ∧
      bigIntOfText (SampleMandate.mandate 10).maxEscrowStroops = .ok maxEscrow ∧
      0 < sealing.value ∧ sealing.value = 9 ∧ 9 ≤ maxBid ∧ maxBid ≤ maxEscrow := by
  have hprints : integerEngine.Prints 10 := integerEngine_prints 10
  obtain ⟨hsame, hcaps⟩ := mandate_binding SampleMandate.platform (fun _ => .ok [])
    (SampleMandate.mandate 10)
  refine ⟨hsame _ _ ⟨none, none, 1000⟩ SampleMandate.unforgeable (by decide +kernel) ?_
    (SampleMandate.held hprints) (SampleMandate.held_reverse hprints) rfl rfl ?_, ?_⟩
  · have htext := @SampleMandate.signedText_reverse 10
    intro x hx y hy _
    have hone : ∀ z ∈ [signedText integerEngine (SampleMandate.mandate 10).fields.reverse,
        signedText integerEngine (SampleMandate.mandate 10).fields],
        z = signedText integerEngine (SampleMandate.mandate 10).fields := by
      simp [htext]
    rw [hone x hx, hone y hy]
  · rfl
  · obtain ⟨sealing, maxBid, maxEscrow, -, h⟩ := hcaps SampleMandate.config _ _
      ⟨.bigint 1, SampleMandate.sealedBid, 9, none⟩ (.ok ()) rfl (SampleMandate.transcript_ends 3)
      (SampleMandate.commit_mem 3)
    exact ⟨sealing, maxBid, maxEscrow, h⟩

/-- A mandate with the base price 1e999 is signed as one without a base price. -/
theorem infinite_price_signed_as_null :
    SampleMandate.keypairs.Unforgeable (fun _ message signature => message = signature) ∧
    ∃ fields : List (String × Json),
      fieldOf fields "principal" = some (.str "GP") ∧
      fieldOf fields "signature" = some (.str SampleMandate.signature) ∧
      signedText integerEngine fields =
        signedText integerEngine (SampleMandate.mandate (.infinite false)).fields ∧
      verifySessionMandateObject integerEngine SampleMandate.keypairs
        SampleMandate.platform.sha256 (fun _ => .ok []) fields ⟨none, none, 1000⟩ = .ok () ∧
      verifySessionMandate integerEngine SampleMandate.keypairs
        SampleMandate.platform.sha256 (SampleMandate.mandate (.infinite false))
        ⟨none, none, 1000⟩ = .ok () ∧
      ¬ (Json.obj fields).Same (SampleMandate.mandate (.infinite false)).json := by
  refine ⟨SampleMandate.unforgeable, SampleMandate.priceless, rfl, rfl,
    SampleMandate.signedText_priceless, rfl, rfl, ?_⟩
  intro hsame
  have hsorted := hsame.sorted SampleMandate.priceless_distinct
  rw [SessionMandate.json_eq, Json.sorted, Json.sorted, Json.sortedFields_eq_map,
    Json.sortedFields_eq_map, Json.obj.injEq] at hsorted
  have hmem : ("basePriceUsdc", Json.null) ∈ sortEntries
      (SampleMandate.priceless.map fun p => (p.1, p.2.sorted)) :=
    (sortEntries_perm _).mem_iff.mpr (List.mem_map_of_mem SampleMandate.priceless_price)
  rw [hsorted] at hmem
  obtain ⟨p, hp, he⟩ := List.mem_map.mp ((sortEntries_perm _).mem_iff.mp hmem)
  obtain ⟨hname, hvalue⟩ := Prod.mk.inj he
  rw [SampleMandate.price_of_mem hp hname] at hvalue
  have hnum : (Json.num (.infinite false)).sorted = .num (.infinite false) := rfl
  rw [hnum] at hvalue
  cases hvalue

end SubRosa.Agent
