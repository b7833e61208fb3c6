import Mathlib.Data.List.ReduceOption
import SubRosa.Auction.Opening
import SubRosa.Auction.Script
import SubRosa.Guarantees.Envelopes
import SubRosa.Guarantees.Proposals
import SubRosa.Web.Pilot

/-!
# Which rounds the pilot page loads

The contract records any payload in an envelope; the page has to decode all of
them as proposals when the round is no auction. It loads a round exactly when
it can.
-/

namespace SubRosa.Web

open JavaScript Sdk MachineInt Invocation

section

variable {engine : Engine} {timesTenMillion : Number → Number}
  {isValidEd25519PublicKey : String → Bool} {store : Store} {id : UInt64} {round : RoundV2}
  {page : PilotPage}

/-- The bidders of whom an envelope is recorded. -/
def revealedBidders (store : Store) (id : UInt64) (round : RoundV2) : List Address :=
  round.bidders.filter fun b =>
    (store.submissionV2 id b).any fun submission => submission.revealedEnvelope.isSome

/-- The page comes to show the round, with one view for each revealed submission. -/
def Loads (engine : Engine) (timesTenMillion : Number → Number)
    (isValidEd25519PublicKey : String → Bool) (page : PilotPage) (store : Store) (id : UInt64)
    (round : RoundV2) : Prop :=
  ∃ page', refresh engine timesTenMillion isValidEd25519PublicKey page store id = .ok page' ∧
    page'.round = some round ∧
    page'.revealedSubmissions.map PilotSubmissionView.bidder = revealedBidders store id round

/-- The payload of every recorded envelope is a proposal. -/
def RevealsProposals (engine : Engine) (timesTenMillion : Number → Number)
    (isValidEd25519PublicKey : String → Bool) (store : Store) (id : UInt64) (round : RoundV2) :
    Prop :=
  ∀ b ∈ round.bidders, ∀ submission bytes, store.submissionV2 id b = some submission →
    submission.revealedEnvelope = some bytes → ∀ x, decodePayloadEnvelope bytes = .ok x →
    ∃ proposal, decodeSealedProposal engine timesTenMillion isValidEd25519PublicKey x.payload =
      .ok proposal

/-! ## The parts of a refresh -/

theorem unwrap_eq_ok {α : Type} {found : Option α} {e : Error} {a : α} :
    unwrap found e = .ok a ↔ found = some a := by
  cases found with
  | none => simp [unwrap]
  | some b => simp [unwrap]

theorem mapM_eq_ok {α β : Type} {f : α → Except Thrown β} {l : List α} {r : List β} :
    l.mapM f = .ok r ↔ List.Forall₂ (fun a b => f a = .ok b) l r := by
  induction l generalizing r with
  | nil =>
    rw [List.mapM_nil, List.forall₂_nil_left_iff]
    exact ⟨fun h => (Except.ok.inj h).symm, fun h => h ▸ rfl⟩
  | cons a l ih =>
    rw [List.mapM_cons]
    simp only [bind_eq_ok, ih]
    constructor
    · rintro ⟨b, hb, bs, hbs, ⟨⟩⟩
      exact .cons hb hbs
    · rintro (_ | ⟨hb, hbs⟩)
      exact ⟨_, hb, _, hbs, rfl⟩

theorem exists_mapM {α β : Type} {f : α → Except Thrown β} {l : List α} :
    (∃ r, l.mapM f = .ok r) ↔ ∀ a ∈ l, ∃ b, f a = .ok b := by
  induction l with
  | nil => exact ⟨fun _ a ha => absurd ha List.not_mem_nil, fun _ => ⟨[], rfl⟩⟩
  | cons a l ih =>
    rw [List.forall_mem_cons, ← ih, List.mapM_cons]
    simp only [bind_eq_ok]
    constructor
    · rintro ⟨_, b, hb, bs, hbs, -⟩
      exact ⟨⟨b, hb⟩, bs, hbs⟩
    · rintro ⟨⟨b, hb⟩, bs, hbs⟩
      exact ⟨_, b, hb, bs, hbs, rfl⟩

theorem readRevealState_ok : (∃ state, readRevealState store id round = .ok state) ↔
    (round.protocolVersion = revealPolicyVersion → (store.revealV3 id).isSome = true) := by
  unfold readRevealState
  by_cases hversion : round.protocolVersion = revealPolicyVersion
  · rw [if_pos hversion]
    cases store.revealV3 id with
    | none => simp [unwrap, hversion, Functor.map, Except.map]
    | some state => exact iff_of_true ⟨_, rfl⟩ fun _ => rfl
  · rw [if_neg hversion]
    exact iff_of_true ⟨_, rfl⟩ fun h => absurd h hversion

/-- An envelope that the page can read. -/
theorem decodePilotSubmission_ok {bidder : Address} {mode : RoundMode} {bytes : Bytes}
    {valid : Bool} {x : PayloadEnvelope} (h : decodePayloadEnvelope bytes = .ok x) :
    (∃ view, decodePilotSubmission engine timesTenMillion isValidEd25519PublicKey bidder mode bytes
        valid = .ok view) ↔
      (mode = .ReceiptOnly → ∃ proposal, decodeSealedProposal engine timesTenMillion
        isValidEd25519PublicKey x.payload = .ok proposal) := by
  rw [decodePilotSubmission, h, bind_ok]
  cases mode with
  | Auction => exact iff_of_true ⟨_, rfl⟩ nofun
  | ReceiptOnly =>
    simp only [bind_eq_ok, true_implies]
    constructor
    · rintro ⟨_, proposal, hproposal, -⟩
      exact ⟨proposal, hproposal⟩
    · rintro ⟨proposal, hproposal⟩
      exact ⟨_, proposal, hproposal, rfl⟩

theorem decodePilotSubmission_bidder {bidder : Address} {mode : RoundMode} {bytes : Bytes}
    {valid : Bool} {view : PilotSubmissionView}
    (h : decodePilotSubmission engine timesTenMillion isValidEd25519PublicKey bidder mode bytes
      valid = .ok view) : view.bidder = bidder := by
  obtain ⟨x, -, hview⟩ := bind_eq_ok.mp h
  cases mode with
  | Auction => rw [← Except.ok.inj hview]
  | ReceiptOnly =>
    obtain ⟨proposal, -, hview⟩ := bind_eq_ok.mp hview
    rw [← Except.ok.inj hview]

theorem readSubmission_eq_ok {mode : RoundMode} {b : Address}
    {shown : Option PilotSubmissionView} {submission : SubmissionStateV2}
    (h : store.submissionV2 id b = some submission) :
    readSubmission engine timesTenMillion isValidEd25519PublicKey store id mode b = .ok shown ↔
      (submission.revealedEnvelope = none ∧ shown = none) ∨
      ∃ bytes view, submission.revealedEnvelope = some bytes ∧ shown = some view ∧
        decodePilotSubmission engine timesTenMillion isValidEd25519PublicKey b mode bytes
          submission.valid = .ok view := by
  rw [readSubmission, h, unwrap, bind_ok]
  cases submission.revealedEnvelope with
  | none => simp [pure, Except.pure, eq_comm]
  | some bytes =>
    simp only [bind_eq_ok, reduceCtorEq, false_and, false_or, Option.some.injEq, exists_and_left,
      exists_eq_left']
    constructor
    · rintro ⟨view, hview, ⟨⟩⟩
      exact ⟨view, rfl, hview⟩
    · rintro ⟨view, rfl, hview⟩
      exact ⟨view, hview, rfl⟩

/-- The views that are shown, in the order of the bidders. -/
theorem shown_bidders {mode : RoundMode} {bidders : List Address}
    {shown : List (Option PilotSubmissionView)}
    (h : List.Forall₂ (fun b view => readSubmission engine timesTenMillion isValidEd25519PublicKey
      store id mode b = .ok view) bidders shown) :
    shown.reduceOption.map PilotSubmissionView.bidder = bidders.filter fun b =>
      (store.submissionV2 id b).any fun submission => submission.revealedEnvelope.isSome := by
  induction h with
  | nil => rfl
  | @cons b view bidders shown hview _ ih =>
    obtain ⟨submission, hsubmission, -⟩ := bind_eq_ok.mp hview
    have hsubmission := unwrap_eq_ok.mp hsubmission
    rcases (readSubmission_eq_ok hsubmission).mp hview with
      ⟨hnone, rfl⟩ | ⟨bytes, v, hsome, rfl, hdecode⟩
    · rw [List.reduceOption_cons_of_none, ih, List.filter_cons_of_neg]
      simp [hsubmission, hnone]
    · rw [List.reduceOption_cons_of_some, List.map_cons, ih,
        decodePilotSubmission_bidder hdecode, List.filter_cons_of_pos]
      simp [hsubmission, hsome]

theorem refresh_eq_ok {page' : PilotPage} (hround : store.roundV2 id = some round)
    (h : refresh engine timesTenMillion isValidEd25519PublicKey page store id = .ok page') :
    page'.round = some round ∧
      page'.revealedSubmissions.map PilotSubmissionView.bidder =
        revealedBidders store id round := by
  rw [refresh, hround, unwrap, bind_ok, throwIf_bind_eq_ok] at h
  obtain ⟨-, h⟩ := h
  obtain ⟨nextReveal, -, h⟩ := bind_eq_ok.mp h
  obtain ⟨revealed, hrevealed, h⟩ := bind_eq_ok.mp h
  rw [← Except.ok.inj h]
  exact ⟨rfl, shown_bidders (mapM_eq_ok.mp hrevealed)⟩

/-- A refresh completes when every read and every decoding does. -/
theorem exists_refresh (hround : store.roundV2 id = some round)
    (hversion : round.protocolVersion = coreV2Version ∨
      round.protocolVersion = revealPolicyVersion) :
    (∃ page', refresh engine timesTenMillion isValidEd25519PublicKey page store id = .ok page') ↔
      (∃ state, readRevealState store id round = .ok state) ∧
      ∀ b ∈ round.bidders, ∃ view, readSubmission engine timesTenMillion isValidEd25519PublicKey
        store id round.mode b = .ok view := by
  have hsupported : ¬ (round.protocolVersion ≠ coreV2Version ∧
      round.protocolVersion ≠ revealPolicyVersion) := fun h => hversion.elim h.1 h.2
  rw [refresh, hround, unwrap, bind_ok, ← exists_mapM]
  constructor
  · rintro ⟨_, h⟩
    obtain ⟨-, h⟩ := throwIf_bind_eq_ok.mp h
    obtain ⟨state, hstate, h⟩ := bind_eq_ok.mp h
    obtain ⟨revealed, hrevealed, -⟩ := bind_eq_ok.mp h
    exact ⟨⟨state, hstate⟩, revealed, hrevealed⟩
  · rintro ⟨⟨state, hstate⟩, revealed, hrevealed⟩
    exact ⟨_, throwIf_bind_eq_ok.mpr ⟨hsupported,
      bind_eq_ok.mpr ⟨state, hstate, bind_eq_ok.mpr ⟨revealed, hrevealed, rfl⟩⟩⟩⟩

/-- The record of a bidder is read when its envelope, if any, can be shown. -/
theorem readSubmission_ok {mode : RoundMode} {b : Address} {submission : SubmissionStateV2}
    (h : store.submissionV2 id b = some submission)
    (henvelope : ∀ bytes, submission.revealedEnvelope = some bytes →
      ∃ x, decodePayloadEnvelope bytes = .ok x) :
    (∃ view, readSubmission engine timesTenMillion isValidEd25519PublicKey store id mode b =
        .ok view) ↔
      (mode = .ReceiptOnly → ∀ bytes, submission.revealedEnvelope = some bytes →
        ∀ x, decodePayloadEnvelope bytes = .ok x → ∃ proposal, decodeSealedProposal engine
          timesTenMillion isValidEd25519PublicKey x.payload = .ok proposal) := by
  simp only [readSubmission_eq_ok h]
  cases hbytes : submission.revealedEnvelope with
  | none => exact iff_of_true ⟨none, .inl ⟨rfl, rfl⟩⟩ fun _ _ h => by cases h
  | some bytes =>
    obtain ⟨x, hx⟩ := henvelope bytes hbytes
    constructor
    · rintro ⟨_, ⟨⟨⟩, -⟩ | ⟨_, view, ⟨⟩, rfl, hview⟩⟩ hmode _ ⟨⟩ x' hx'
      rw [hx] at hx'
      rw [← Except.ok.inj hx']
      exact (decodePilotSubmission_ok hx).mp ⟨view, hview⟩ hmode
    · intro hproposal
      have hshown := @decodePilotSubmission_ok engine timesTenMillion isValidEd25519PublicKey b mode
        bytes submission.valid x hx
      obtain ⟨view, hview⟩ := hshown.mpr fun hmode => hproposal hmode bytes rfl x hx
      exact ⟨some view, .inr ⟨bytes, view, rfl, rfl, hview⟩⟩

end

section

variable {host : Host} {config : GlobalConfig} {c : Chain}

/-- The envelopes that the contract has recorded can be decoded. -/
theorem recorded_decodes (hs : c.Sound host config) {id : UInt64} {round : RoundV2}
    (hround : c.world.store.roundV2 id = some round) {b : Address} (hb : b ∈ round.bidders) :
    ∃ submission, c.world.store.submissionV2 id b = some submission ∧
      ∀ bytes, submission.revealedEnvelope = some bytes →
        ∃ x, decodePayloadEnvelope bytes = .ok x := by
  have hsound := hs.world.views _ _ (World.view_roundV2 hround)
  obtain ⟨submission, hsubmission⟩ := RoundV2.entered hsound hb
  refine ⟨submission, hsubmission, fun bytes hbytes => ?_⟩
  have hentry : (round.view (c.world.store.submissionV2 id)).entry b = some submission.entry := by
    show (c.world.store.submissionV2 id b).map SubmissionStateV2.entry = _
    rw [hsubmission, Option.map_some]
  obtain ⟨d, hdecode, -⟩ := ((hsound.entries b _ hentry).opened bytes hbytes).2.1
  exact same_strings.mp ⟨d, hdecode⟩

/-- All submissions can be shown when, unless it is an auction, every payload is a proposal. -/
theorem shows_all_iff (hs : c.Sound host config) {engine : Engine}
    {timesTenMillion : Number → Number} {isValidEd25519PublicKey : String → Bool} {id : UInt64}
    {round : RoundV2} (hround : c.world.store.roundV2 id = some round) :
    (∀ b ∈ round.bidders, ∃ view, readSubmission engine timesTenMillion isValidEd25519PublicKey
        c.world.store id round.mode b = .ok view) ↔
      (round.mode = .ReceiptOnly → RevealsProposals engine timesTenMillion
        isValidEd25519PublicKey c.world.store id round) := by
  constructor
  · intro h hmode b hb submission bytes hsubmission hbytes
    obtain ⟨other, hother, henvelope⟩ := recorded_decodes hs hround hb
    rw [hsubmission] at hother
    obtain rfl := Option.some_inj.mp hother
    exact (readSubmission_ok hsubmission henvelope).mp (h b hb) hmode bytes hbytes
  · intro h b hb
    obtain ⟨submission, hsubmission, henvelope⟩ := recorded_decodes hs hround hb
    exact (readSubmission_ok hsubmission henvelope).mpr fun hmode bytes hbytes =>
      h hmode b hb submission bytes hsubmission hbytes

end

/-- **Loading a round.** In every reachable state the page loads a round exactly when its opening
policy is there, if it has one, and, unless it is an auction, every payload is a proposal. -/
theorem pilot_loads_iff {host : Host} {config : GlobalConfig} {c₀ c : Chain} {events : List Event}
    (hd : Deployed config c₀) (hrun : Run host c₀ events c) (engine : Engine)
    (timesTenMillion : Number → Number) (isValidEd25519PublicKey : String → Bool)
    (page : PilotPage) (id : UInt64) (round : RoundV2)
    (hround : c.world.store.roundV2 id = some round) :
    Loads engine timesTenMillion isValidEd25519PublicKey page c.world.store id round ↔
      (round.protocolVersion = revealPolicyVersion →
        (c.world.store.revealV3 id).isSome = true) ∧
      (round.mode = .ReceiptOnly → RevealsProposals engine timesTenMillion
        isValidEd25519PublicKey c.world.store id round) := by
  have hs := hrun.sound hd.chain_sound
  have hversion := (hs.world.consistent id round hround).version
  have hloads : Loads engine timesTenMillion isValidEd25519PublicKey page c.world.store id round ↔
      ∃ page', refresh engine timesTenMillion isValidEd25519PublicKey page c.world.store id =
        .ok page' :=
    exists_congr fun page' => and_iff_left_of_imp fun h => refresh_eq_ok hround h
  rw [hloads, exists_refresh hround hversion, readRevealState_ok, shows_all_iff hs hround]

namespace SamplePilot

/-- A round that only records what is revealed. -/
def receiptPolicy : RoundPolicyV3 where
  partner := {
    settlement := ⟨.ReceiptOnly, none, none, Sample.amount 0⟩
    fixedEscrow := Sample.amount 0
    eligibleParticipants := [] }
  reveal := .Timed

/-- An envelope without a payload. -/
def emptyEnvelope : Bytes := envelopeBytes none Sample.nonce.val []

/-- Alice seals the envelope, and Bob opens the round. -/
def sealedEmpty : List Attempt :=
  [⟨Sample.tx Sample.operator 1000, .createRoundV3 Sample.saleArgs receiptPolicy⟩,
    ⟨Sample.tx Sample.alice 1010, .commitV2 1 Sample.alice (Sample.host.sha256 emptyEnvelope) []
      (Sample.amount 0) []⟩,
    ⟨Sample.tx Sample.bob 1060, .openRevealV2 1 (Sample.signature 3)⟩]

/-- And he reveals the envelope. -/
def recorded : List Attempt :=
  sealedEmpty ++ [⟨Sample.tx Sample.bob 1070, .revealV2 1 Sample.alice emptyEnvelope⟩]

theorem decode_empty :
    decodePayloadEnvelope emptyEnvelope = .ok ⟨none, [], Sample.nonce.val⟩ :=
  decodePayloadEnvelope_eq_ok.mpr ⟨none, rfl, Sample.nonce.property, by decide, rfl⟩

/-- Nothing is no proposal. -/
theorem no_proposal (engine : Engine) (timesTenMillion : Number → Number)
    (isValidEd25519PublicKey : String → Bool) :
    decodeSealedProposal engine timesTenMillion isValidEd25519PublicKey [] =
      .error (.native .syntaxError) := by rfl

def page : PilotPage := ⟨none, none, none, "25000000000", .proposal, []⟩

end SamplePilot

open SamplePilot in
/-- A sale with a sealed bid loads. -/
theorem pilot_loads_sample : ∃ c events round, Run Sample.host Sample.deployed events c ∧
    c.world.store.roundV2 1 = some round ∧
    Loads silentEngine id (fun _ => true) page c.world.store 1 round := by
  obtain ⟨c, events, hrun, hvalue⟩ := Chain.exec_reaches Sample.host Sample.deployed Sample.sale
    (fun c _ => decide ((c.world.store.roundV2 1).map RoundV2.mode = some .Auction ∧
      (c.world.store.revealV3 1).isSome = true)) true (by decide +kernel)
  obtain ⟨hround, hreveal⟩ := of_decide_eq_true hvalue
  obtain ⟨round, hr, hmode⟩ := Option.map_eq_some_iff.mp hround
  refine ⟨c, events, round, hrun, hr, (pilot_loads_iff Sample.deployed_ok hrun silentEngine id
    (fun _ => true) page 1 round hr).mpr ⟨fun _ => hreveal, fun h => ?_⟩⟩
  rw [hmode] at h
  cases h

open SamplePilot in
/-- The round in which Alice's payload is empty does not load. -/
theorem pilot_load_fails :
    ¬ ∀ (c : Chain) (events : List Event) (round : RoundV2) (engine : Engine)
      (timesTenMillion : Number → Number) (isValidEd25519PublicKey : String → Bool)
      (page : PilotPage), Run Sample.host Sample.deployed events c →
      c.world.store.roundV2 1 = some round →
      Loads engine timesTenMillion isValidEd25519PublicKey page c.world.store 1 round := by
  intro hclaim
  obtain ⟨c, events, hrun, hvalue⟩ := Chain.exec_reaches Sample.host Sample.deployed recorded
    (fun c _ => decide (
      (c.world.store.roundV2 1).map (fun r => (r.mode, r.bidders)) =
        some (.ReceiptOnly, [Sample.alice]) ∧
      (c.world.store.submissionV2 1 Sample.alice).map SubmissionStateV2.revealedEnvelope =
        some (some emptyEnvelope))) true (by decide +kernel)
  obtain ⟨hround, hsubmission⟩ := of_decide_eq_true hvalue
  obtain ⟨round, hr, hmode, hbidders⟩ := exists_of_pair hround
  obtain ⟨submission, hs, henvelope⟩ := Option.map_eq_some_iff.mp hsubmission
  obtain ⟨page', hpage, -⟩ := hclaim c events round silentEngine id (fun _ => true) page hrun hr
  have hversion := ((hrun.sound Sample.deployed_ok.chain_sound).world.consistent 1 round hr).version
  obtain ⟨view, hview⟩ := ((exists_refresh hr hversion).mp ⟨page', hpage⟩).2 Sample.alice
    (by simp [hbidders])
  rcases (readSubmission_eq_ok hs).mp hview with ⟨hnone, -⟩ | ⟨bytes, v, hsome, -, hshown⟩
  · rw [henvelope] at hnone
    cases hnone
  · obtain rfl := Option.some_inj.mp (henvelope.symm.trans hsome)
    obtain ⟨proposal, hproposal⟩ := (decodePilotSubmission_ok decode_empty).mp ⟨v, hshown⟩ hmode
    rw [no_proposal] at hproposal
    cases hproposal

end SubRosa.Web
