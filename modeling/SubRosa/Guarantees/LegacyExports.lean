import SubRosa.Guarantees.Exports
import SubRosa.Guarantees.LegacyReceipts
import SubRosa.Guarantees.Preimages

/-!
# Receipts of first-generation rounds

Every first-generation round of a run can be exported. The verifier accepts the
export in every state of the round, provided that the bidders are accounts and
that the seals which can still be read are not empty.
-/

namespace SubRosa.Sdk

open JavaScript MachineInt Report

/-- What the verifier cannot take for granted of a first-generation round. -/
structure AttestableV1 (passphrase : String) (env : Env) (round : Round)
    (sealed : Address → Option SealEntry) : Prop where
  network : passphrase ≠ ""
  accounts : ∀ b ∈ round.bidders, ∃ key, b = .account key
  evidence : ∀ b ∈ round.bidders, ∀ found, readSeal env (sealed b) = some found →
    found.ciphertext ≠ [] ∧ found.auditorBlob ≠ []

section

variable {engine : Engine} {exporter : Exporter} {host : Host} {config : GlobalConfig} {now : Nat}
  {roundId : UInt64} {round : Round} {states : Address → Option BidState}
  {bids : List (String × Json)} {r : String → JsValue}

/-! ## The schema -/

theorem ReceiptReads.schema (hr : ReceiptReads exporter host roundId round bids r) :
    SchemaOk engine host.sha256 r ↔ exporter.networkPassphrase ≠ "" := by
  have hcontract : startsWith 'C' (r "contractId") = true := by
    rw [hr.contractId, startsWith, exporter.contract]
    rfl
  have hid : isString (r "roundId") = true := by rw [hr.roundId]; rfl
  have hparsed : parseBigInt engine (r "roundId") ≠ none := by
    rw [hr.roundId, parseBigInt_u64Json]
    exact Option.some_ne_none _
  have hrule : isOneOf ["HighestBid", "LowestBid"] (r "clearingRule") = true := by
    rw [hr.clearingRule]
    cases round.clearingRule <;> decide
  have hstatus : Textual engine (r "status") := by
    rw [hr.status]
    exact textual_str _
  constructor
  · intro hok
    obtain ⟨passphrase, hread, hne, -⟩ := hok.network
    rw [hr.network] at hread
    cases hread
    exact hne
  · intro hne
    exact ⟨⟨_, hr.network, hne, hr.networkFingerprint⟩, hcontract, ⟨hid, hparsed⟩, hrule, hstatus⟩

/-! ## Entries -/

/-- The entry that an export writes for a bidder. -/
def bidEntryJson (env : Env) (store : Store) (roundId : UInt64) (b : Address) : Json :=
  ((store.state roundId b).map fun state =>
    bidJson state (readSeal env (store.sealed roundId b))).getD .null

/-- The entry of a bidder in an exported receipt. -/
theorem bidEntry_named {env : Env} {store : Store}
    (hr : ReceiptReads exporter host roundId round
      (namedEntries exporter (bidEntryJson env store roundId) round.bidders) r)
    (hnodup : round.bidders.Nodup) {b : Address} (hb : b ∈ round.bidders) {state : BidState}
    (hstate : store.state roundId b = some state) :
    bidEntry engine r (addressJson exporter b) =
      some (property engine (bidJson state (readSeal env (store.sealed roundId b)))) := by
  have hentry : bidEntryJson env store roundId b =
      bidJson state (readSeal env (store.sealed roundId b)) := by
    rw [bidEntryJson, hstate]
    rfl
  have hfound : property engine (.obj (namedEntries exporter (bidEntryJson env store roundId)
      round.bidders)) (exporter.strkey.encode b) =
        some (bidJson state (readSeal env (store.sealed roundId b))) := by
    rw [property_obj (exporter.strkey.encode_notMem b), fieldOf_namedEntries _ hnodup hb, hentry]
  have hof : entryOf engine r (exporter.strkey.encode b) =
      .ok (some (bidJson state (readSeal env (store.sealed roundId b)))) := by
    have hread : getProperty engine (r "bids") (exporter.strkey.encode b) =
        .ok (some (bidJson state (readSeal env (store.sealed roundId b)))) := by
      rw [hr.bids]
      exact congrArg Except.ok hfound
    rw [entryOf, hread]
    rfl
  unfold addressJson bidEntry
  simp only [hof]

/-- A recorded value and its nonce hash to the commitment. -/
theorem BidReads.ok {state : BidState} {found : Option Seal} {terms : Terms}
    {entry : String → JsValue} (hs : BidReads engine state found entry)
    (hsound : state.entry.Sound host terms) (hformat : terms.format = .bid) :
    EntryOk engine host.sha256 entry ∧ competingValue engine entry = state.entry.validBid := by
  have hrevealed : isRevealed entry = state.revealedValue.isSome := by
    rw [isRevealed, hs.revealedValue]
    cases state.revealedValue <;> rfl
  have hnonce : hasNonce entry = state.revealedNonce.isSome := by
    rw [hasNonce, hs.nonce]
    cases state.revealedNonce <;> rfl
  have hvalue : ∀ v, state.revealedValue = some v →
      parseBigInt engine (entry "revealedValue") = some v.toInt := by
    intro v hv
    rw [hs.revealedValue, hv, Option.map_some, orNull, parseBigInt_i128Json]
  have hflag : truthy (entry "valid") = state.valid := by rw [hs.valid]; rfl
  have hcommitment : isHexOf 32 (entry "commitment") = true :=
    hs.commitment ▸ isHexOf_hexJson state.commitment
  have hescrow : isNonnegative (parseBigInt engine (entry "escrow")) = true := by
    rw [hs.escrow, parseBigInt_i128Json]
    exact decide_eq_true hsound.escrow.nonneg
  have hvalid : state.entry.validBid =
      if state.valid = true then state.revealedValue.map I128.toInt else none := rfl
  rcases state.recorded hsound hformat with ⟨hnone, hnoNonce, hclosed⟩ | ⟨v, n, hv, hn, hopened⟩
  · rw [hnone] at hrevealed
    rw [hnoNonce] at hnonce
    have hunflagged : state.valid = false := (hsound.unopened hclosed).2
    refine ⟨⟨hcommitment, hescrow, fun _ => hnonce, fun h => ?_, fun h => ?_⟩, ?_⟩
    · rw [hrevealed] at h
      cases h
    · rw [hrevealed] at h
      cases h
    · rw [competingValue, hrevealed, hvalid, hunflagged]
      rfl
  · rw [hv] at hrevealed
    refine ⟨⟨hcommitment, hescrow, fun h => ?_, fun _ => ⟨_, hvalue v hv⟩, fun _ _ => ?_⟩, ?_⟩
    · rw [hrevealed] at h
      cases h
    · have hread : fromHex engine (entry "nonce") = .ok n.val := by
        rw [hs.nonce, hn, Option.map_some, orNull, hexJson, fromHex, fromHexText_toHex]
      have hhash : Sdk.commitment host.sha256 v.toInt n.val = .ok state.commitment.val := by
        rw [Sdk.commitment, encodeBidPreimage_eq_ok.mpr ⟨v, n, rfl, rfl, rfl⟩, bind_ok]
        exact congrArg (fun h => Except.ok h.val) (hsound.opened _ hopened).1
      refine ⟨v.toInt, hvalue v hv, n.val, hread, n.property, _, hhash, ?_⟩
      rw [hs.commitment, toLowerCase_hexJson]
    · rw [competingValue, hrevealed, Option.isSome_some, Bool.true_and, hflag, hvalue v hv, hvalid,
        hv]
      rfl

/-- The evidence passes when it is missing or not empty. -/
theorem BidReads.evidence_ok {state : BidState} {found : Option Seal} {entry : String → JsValue}
    (hs : BidReads engine state found entry) : EvidenceOkV1 engine entry ↔
      ∀ s, found = some s → s.ciphertext ≠ [] ∧ s.auditorBlob ≠ [] := by
  have hhex : ∀ bytes : Bytes, HexOrNull engine (some (hexJson bytes)) ↔ bytes ≠ [] := by
    intro bytes
    constructor
    · rintro (hnull | ⟨shown, hshown, hne, -⟩)
      · cases hnull
      · obtain rfl : toHex bytes = shown := Except.ok.inj hshown
        rintro rfl
        exact hne rfl
    · intro hne
      refine .inr ⟨toHex bytes, rfl, fun hempty => hne ?_, isHexText_toHex bytes⟩
      have hback := fromHexText_toHex bytes
      rw [hempty] at hback
      exact (Except.ok.inj hback).symm
  have hnull : HexOrNull engine (some .null) := .inl rfl
  have hciphertext : property engine (evidenceJson found) "ciphertext" =
      some (orNull (found.map fun s => hexJson s.ciphertext)) := by
    rw [evidenceJson, property_obj (by simp [objectPrototype])]
    simp [fieldOf_cons]
  have hblob : property engine (evidenceJson found) "auditorBlob" =
      some (orNull (found.map fun s => hexJson s.auditorBlob)) := by
    rw [evidenceJson, property_obj (by simp [objectPrototype])]
    simp [fieldOf_cons]
  have htruthy : truthy (some (evidenceJson found)) = true := rfl
  simp only [EvidenceOkV1, hs.evidence, Option.some_inj, forall_eq', htruthy, true_implies,
    hciphertext, hblob]
  cases found with
  | none => simp [orNull, hnull]
  | some s => simp [orNull, hhex]

/-! ## The roster and the winner -/

theorem isAccountName_addressJson {b : Address} :
    IsAccountName (addressJson exporter b) ↔ ∃ key, b = .account key := by
  cases b with
  | account key => exact ⟨fun _ => ⟨key, rfl⟩, fun _ => ⟨_, rfl, exporter.strkey.account key⟩⟩
  | contract id =>
    constructor
    · rintro ⟨name, hname, hhead⟩
      rw [addressJson, Json.str.injEq] at hname
      rw [← hname, exporter.strkey.contract id] at hhead
      cases hhead
    · rintro ⟨key, hkey⟩
      cases hkey

section Entries

variable {env : Env} {store : Store}

theorem biddersOk_named
    (hr : ReceiptReads exporter host roundId round
      (namedEntries exporter (bidEntryJson env store roundId) round.bidders) r)
    (hnodup : round.bidders.Nodup) :
    BiddersOk engine r (round.bidders.map (addressJson exporter)) ↔
      ∀ b ∈ round.bidders, ∃ key, b = .account key := by
  constructor
  · intro hok b hb
    exact isAccountName_addressJson.mp (hok.account _ (List.mem_map_of_mem hb))
  · intro haccounts
    refine ⟨fun v hv => ?_, distinct_addresses hnodup,
      ⟨round.bidders.map exporter.strkey.encode, ?_, fun key hkey => ?_⟩, fun name hname => ?_⟩
    · obtain ⟨b, hb, rfl⟩ := List.mem_map.mp hv
      exact isAccountName_addressJson.mpr (haccounts b hb)
    · rw [hr.bids]
      exact congrArg Except.ok (names_namedEntries _ _)
    · obtain ⟨b, hb, rfl⟩ := List.mem_map.mp hkey
      rw [setOf_distinct (distinct_addresses hnodup)]
      exact (hasValue_addresses round.bidders b).trans (decide_eq_true hb)
    · obtain ⟨b, hb, hbname⟩ := List.mem_map.mp hname
      rw [addressJson, Json.str.injEq] at hbname
      have hfound : property engine (.obj (namedEntries exporter (bidEntryJson env store roundId)
          round.bidders)) name = some (bidEntryJson env store roundId b) := by
        rw [← hbname]
        exact (property_obj (exporter.strkey.encode_notMem b)).trans
          (fieldOf_namedEntries _ hnodup hb)
      rw [hr.bids, hasProperty, hfound]
      rfl

variable (hsound : (round.view config (store.state roundId)).Sound host config now)

include hsound

/-- Every bidder has a record. -/
theorem recorded_bidder {b : Address} (hb : b ∈ round.bidders) :
    ∃ state, store.state roundId b = some state ∧ state.entry.Sound host
      (round.view config (store.state roundId)).terms ∧
      (round.view config (store.state roundId)).entry b = some state.entry := by
  obtain ⟨state, hstate⟩ := Round.entered hsound hb
  have hentry : (round.view config (store.state roundId)).entry b = some state.entry := by
    show (store.state roundId b).map BidState.entry = some state.entry
    rw [hstate, Option.map_some]
  exact ⟨state, hstate, hsound.entries b _ hentry, hentry⟩

theorem leader_namedV1
    (hr : ReceiptReads exporter host roundId round
      (namedEntries exporter (bidEntryJson env store roundId) round.bidders) r) :
    (round.bidders.map (addressJson exporter)).foldl (afterEntry engine r) none =
      (round.view config (store.state roundId)).best.map
        fun p => (addressJson exporter p.1, p.2) := by
  have hrule : clearingRule? (r "clearingRule") = some round.clearingRule :=
    hr.clearingRule ▸ clearingRule_tag round.clearingRule
  have hnodup : round.bidders.Nodup := hsound.nodup
  refine foldl_named hrule fun b hb => ?_
  obtain ⟨state, hstate, hentry, hview⟩ := recorded_bidder hsound hb
  rw [bidEntry_named hr hnodup hb hstate, Option.bind_some, SealedRound.validBid, hview,
    Option.bind_some]
  exact ((bidJson_reads state _).ok hentry rfl).2

/-- The declared winner is the recomputed one or not declared yet. -/
theorem outcomeOk_named
    (hr : ReceiptReads exporter host roundId round
      (namedEntries exporter (bidEntryJson env store roundId) round.bidders) r) :
    OutcomeOk engine r
      ((round.bidders.map (addressJson exporter)).foldl (afterEntry engine r) none) := by
  rw [leader_namedV1 hsound hr]
  have hnull : round.winner = none → r "winner" = some .null := by
    intro hnone
    rw [hr.winner, hnone]
    rfl
  by_cases hclosed : round.status = .Cleared ∨ round.status = .Settled
  · obtain ⟨w, hwinner, hbest⟩ := best_outcome hsound rfl hclosed
    have hwinner : round.winner = some w := hwinner
    rw [hbest]
    refine .inr ?_
    rw [hr.winner, hwinner]
    exact (strictEq_addressJson w w).trans (decide_eq_true rfl)
  · have hpending : round.status = .Open ∨ round.status = .Revealing ∨ round.status = .Voided := by
      cases hstatus : round.status <;> simp [hstatus] at hclosed ⊢
    have hnone := hnull (hsound.pending hpending).1
    cases (round.view config (store.state roundId)).best with
    | none => exact .inl hnone
    | some p => exact .inl hnone

/-! ## Exported receipts -/

theorem exportReceipt_eq (hround : store.round roundId = some round)
    (hconfig : store.config = some config) :
    exportReceipt exporter host env store roundId = .ok (receiptJson exporter host roundId round
      (namedEntries exporter (bidEntryJson env store roundId) round.bidders)) := by
  have hread : ∀ b ∈ round.bidders,
      exportBid env store roundId b = .ok (bidEntryJson env store roundId b) := by
    intro b hb
    obtain ⟨state, hstate, -⟩ := recorded_bidder hsound hb
    rw [exportBid, bidEntryJson, hstate]
    rfl
  rw [exportReceipt, hround, unwrapResult, bind_ok, hconfig, unwrapResult, bind_ok,
    exportEntries_eq hread hsound.nodup]
  rfl

/-- **The verdict on an exported first-generation receipt.** -/
theorem exported_valid_iffV1 :
    (∃ result, verifyReceipt engine host.sha256 (receiptJson exporter host roundId round
        (namedEntries exporter (bidEntryJson env store roundId) round.bidders)) = .ok result ∧
          result.valid = true) ↔
      AttestableV1 exporter.networkPassphrase env round (store.sealed roundId) := by
  have hr := @receiptJson_reads engine exporter host roundId round
    (namedEntries exporter (bidEntryJson env store roundId) round.bidders)
  have hobject : receiptJson exporter host roundId round
      (namedEntries exporter (bidEntryJson env store roundId) round.bidders) ≠ .null :=
    Json.noConfusion
  rw [verifyReceipt, conclude_valid]
  simp only [passes_checkReceipt, hobject, ne_eq, not_false_eq_true, true_and]
  generalize property engine (receiptJson exporter host roundId round
    (namedEntries exporter (bidEntryJson env store roundId) round.bidders)) = r at hr ⊢
  have hnodup : round.bidders.Nodup := hsound.nodup
  have hroster := @biddersOk_named engine _ _ _ _ _ _ _ hr hnodup
  constructor
  · rintro ⟨leader, bidders, hbidders, hok⟩
    rw [hr.bidders, Option.some_inj, Json.arr.injEq] at hbidders
    subst hbidders
    refine ⟨hr.schema.mp hok.schema, hroster.mp hok.roster, fun b hb found hfound => ?_⟩
    obtain ⟨state, hstate, -⟩ := recorded_bidder hsound hb
    exact (bidJson_reads state _).evidence_ok.mp
      (hok.evidence _ (List.mem_map_of_mem hb) _ (bidEntry_named hr hnodup hb hstate)) found hfound
  · rintro ⟨hnetwork, haccounts, hevidence⟩
    have hentry : ∀ v ∈ round.bidders.map (addressJson exporter), ∀ entry,
        bidEntry engine r v = some entry →
          EntryOk engine host.sha256 entry ∧ EvidenceOkV1 engine entry := by
      intro v hv entry hentry
      obtain ⟨b, hb, rfl⟩ := List.mem_map.mp hv
      obtain ⟨state, hstate, hstored, -⟩ := recorded_bidder hsound hb
      rw [bidEntry_named hr hnodup hb hstate, Option.some_inj] at hentry
      subst hentry
      exact ⟨((bidJson_reads state _).ok hstored rfl).1,
        (bidJson_reads state _).evidence_ok.mpr (hevidence b hb)⟩
    exact ⟨_, _, hr.bidders, hr.version, hr.schema.mpr hnetwork, hroster.mpr haccounts,
      fun v hv entry h => (hentry v hv entry h).1, rfl, outcomeOk_named hsound hr,
      fun v hv entry h => (hentry v hv entry h).2⟩

end Entries

/-- **Exported receipts of first-generation rounds.** Every round of a run can be exported, and its
receipt verifies exactly when it is attestable. -/
theorem exported_legacy_receipts_verify {c₀ c : Chain} {events : List Event}
    (hd : Deployed config c₀) (h : Run host c₀ events c)
    (hround : c.world.store.round roundId = some round) (exporter : Exporter) (env : Env)
    (engine : Engine) :
    ∃ receipt, exportReceipt exporter host env c.world.store roundId = .ok receipt ∧
      ((∃ result, verifyReceipt engine host.sha256 receipt = .ok result ∧ result.valid = true) ↔
        AttestableV1 exporter.networkPassphrase env round (c.world.store.sealed roundId)) := by
  have hw := (h.sound hd.chain_sound).world
  have hview : c.world.view (.v1 roundId) =
      some (round.view config (c.world.store.state roundId)) := by
    simp [World.view, hw.configured, hround]
  have hsound := hw.views _ _ hview
  exact ⟨_, exportReceipt_eq hsound hround hw.configured, exported_valid_iffV1 hsound⟩

end

/-! ## Receipts of a small auction -/

namespace SampleExport

/-- Alice bids 30 with a seal. -/
def sealedBid (ciphertext auditorBlob : Bytes) : List Attempt :=
  [⟨Sample.tx Sample.operator 1000, .createRound Sample.args⟩,
    ⟨Sample.tx Sample.alice 1010,
      .commit 1 Sample.alice (Sample.commitment 30) ciphertext (Sample.amount 50) auditorBlob⟩]

/-- The bidders, and what is left of the seal of Alice. -/
def readable (c : Chain) : Option (List Address) × Option (Bytes × Bytes) :=
  ((c.world.store.round 1).map Round.bidders,
    (readSeal env (c.world.store.sealed 1 Sample.alice)).map fun s => (s.ciphertext, s.auditorBlob))

end SampleExport

open SampleExport in
/-- The receipt verifies with the seal still there, and not with an empty one. -/
theorem exported_legacy_receipts_sample :
    (∃ c events receipt result, Run Sample.host Sample.deployed events c ∧
      exportReceipt exporter Sample.host env c.world.store 1 = .ok receipt ∧
      verifyReceipt integerEngine Sample.host.sha256 receipt = .ok result ∧
      result.valid = true) ∧
    ∃ c events receipt, Run Sample.host Sample.deployed events c ∧
      exportReceipt exporter Sample.host env c.world.store 1 = .ok receipt ∧
      ∀ result, verifyReceipt integerEngine Sample.host.sha256 receipt = .ok result →
        result.valid = false := by
  constructor
  · obtain ⟨c, events, hrun, hvalue⟩ := Chain.exec_reaches Sample.host Sample.deployed
      (sealedBid [1] [2]) (fun c _ => readable c) (some [Sample.alice], some ([1], [2]))
      (by decide +kernel)
    obtain ⟨hround, hseal⟩ := Prod.mk.inj hvalue
    obtain ⟨round, hround, hbidders⟩ := Option.map_eq_some_iff.mp hround
    obtain ⟨receipt, hreceipt, hverify⟩ := exported_legacy_receipts_verify Sample.deployed_ok hrun
      hround exporter env integerEngine
    have halice : ∀ b ∈ round.bidders, b = Sample.alice := by
      rw [hbidders]
      exact fun b hb => List.mem_singleton.mp hb
    obtain ⟨result, hresult, hvalid⟩ := hverify.mpr ⟨by decide,
      fun b hb => ⟨2, halice b hb⟩, fun b hb found hfound => by
        rw [halice b hb] at hfound
        rw [hfound, Option.map_some, Option.some_inj, Prod.mk.injEq] at hseal
        rw [hseal.1, hseal.2]
        exact ⟨List.cons_ne_nil _ _, List.cons_ne_nil _ _⟩⟩
    exact ⟨c, events, receipt, result, hrun, hreceipt, hresult, hvalid⟩
  · obtain ⟨c, events, hrun, hvalue⟩ := Chain.exec_reaches Sample.host Sample.deployed
      (sealedBid [] [2]) (fun c _ => readable c) (some [Sample.alice], some ([], [2]))
      (by decide +kernel)
    obtain ⟨hround, hseal⟩ := Prod.mk.inj hvalue
    obtain ⟨round, hround, hbidders⟩ := Option.map_eq_some_iff.mp hround
    obtain ⟨found, hfound, hempty⟩ := Option.map_eq_some_iff.mp hseal
    obtain ⟨receipt, hreceipt, hverify⟩ := exported_legacy_receipts_verify Sample.deployed_ok hrun
      hround exporter env integerEngine
    refine ⟨c, events, receipt, hrun, hreceipt, fun result hresult => ?_⟩
    by_contra hvalid
    have hattestable := hverify.mp ⟨result, hresult, by simpa using hvalid⟩
    have halice : Sample.alice ∈ round.bidders := hbidders ▸ List.mem_singleton.mpr rfl
    exact (hattestable.evidence _ halice found hfound).1 (Prod.mk.inj hempty).1

end SubRosa.Sdk
