import SubRosa.Library.IntegerEngine
import SubRosa.Sdk.Templates

/-!
# Proposals read back

An encoded proposal is the text of its normal form, which the decoder accepts
and reads back. Normal forms do not depend on the order of metadata keys, and
the normal form of a normal form is itself.
-/

namespace SubRosa.Sdk

open JavaScript

section

variable {engine : Engine} {timesTenMillion : Number → Number}
  {isValidEd25519PublicKey : String → Bool}

/-! ## Fields -/

theorem fieldOf_optionalField (k key : String) (v : JsValue) :
    fieldOf (optionalField k v) key = if k = key then v else none := by
  cases v with
  | none => simp [optionalField, fieldOf]
  | some w =>
    by_cases h : k = key
    · simp [optionalField, fieldOf, h]
    · simp [optionalField, fieldOf, h]

/-- The fields of a milestone. -/
structure MilestoneFields (engine : Engine) (m : SealedProposalMilestone) : Prop where
  title : property engine m.json "title" = some (.str m.title)
  description : property engine m.json "description" = m.description.map .str
  amount : property engine m.json "amount" = some (.num m.amount)
  receiver : property engine m.json "receiver" = m.receiver.map .str
  delivery : property engine m.json "delivery" = m.delivery.map .str
  metadata : property engine m.json "metadata" = m.metadata

theorem SealedProposalMilestone.fields (m : SealedProposalMilestone) :
    MilestoneFields engine m := by
  constructor
  all_goals
    rw [SealedProposalMilestone.json, property_obj (by simp [objectPrototype])]
    simp [SealedProposalMilestone.entries, fieldOf_append, fieldOf_optionalField, fieldOf_cons]

/-- The fields of a proposal. -/
structure ProposalFields (engine : Engine) (p : SealedProposal) : Prop where
  version : property engine p.json "version" = some (.num proposalVersion)
  timelineDays : property engine p.json "timelineDays" = some (.num p.timelineDays)
  approach : property engine p.json "approach" = some (.str p.approach)
  totalAmount : property engine p.json "totalAmount" = p.totalAmount.map .num
  currency : property engine p.json "currency" = p.currency.map .str
  deliverables : property engine p.json "deliverables" =
    p.deliverables.map fun entries => .arr (entries.map .str)
  milestones : property engine p.json "milestones" =
    p.milestones.map fun ms => .arr (ms.map SealedProposalMilestone.json)
  metadata : property engine p.json "metadata" = p.metadata

theorem SealedProposal.fields (p : SealedProposal) : ProposalFields engine p := by
  constructor
  all_goals
    rw [SealedProposal.json, property_obj (by simp [objectPrototype])]
    simp [SealedProposal.entries, fieldOf_append, fieldOf_optionalField, fieldOf_cons]

/-! ## Normal forms -/

theorem trimText_trimText (s : String) : trimText (trimText s) = trimText s := by
  rw [trimText, trimText, String.toList_ofList, trim_trim]

theorem isBlank_trimText (s : String) : isBlank (trimText s) = isBlank s := by
  rw [isBlank, trimText_trimText, isBlank]

/-- Metadata as the language holds it. -/
def IsMetadata (v : JsValue) : Prop :=
  v = none ∨ ∃ fields, v = some (.obj fields) ∧ (fields.map Prod.fst).Nodup

/-- The same map, listed in another order. -/
def SameMetadata (v w : JsValue) : Prop :=
  v = w ∨ ∃ fields fields', v = some (.obj fields) ∧ w = some (.obj fields') ∧ fields.Perm fields'

theorem canonicalMetadata_obj (fields : List (String × Json)) :
    canonicalMetadata (some (.obj fields)) = some (.obj (fromEntries (sortEntries fields))) := rfl

/-- Metadata keep their entries. -/
theorem canonicalMetadata_same {v : JsValue} (h : IsMetadata v) :
    SameMetadata v (canonicalMetadata v) := by
  rcases h with rfl | ⟨fields, rfl, hnodup⟩
  · exact .inl rfl
  · refine .inr ⟨fields, _, rfl, rfl, ?_⟩
    have hsorted := sortEntries_perm fields
    have hnames : ((sortEntries fields).map Prod.fst).Nodup :=
      (hsorted.map Prod.fst).nodup_iff.mpr hnodup
    exact ((fromEntries_perm hnames).trans hsorted).symm

theorem canonicalMetadata_congr {v w : JsValue} (h : IsMetadata v) (hsame : SameMetadata v w) :
    canonicalMetadata v = canonicalMetadata w := by
  rcases hsame with rfl | ⟨fields, fields', rfl, rfl, hperm⟩
  · rfl
  · rcases h with h | ⟨_, h, hnodup⟩
    · cases h
    · cases h
      rw [canonicalMetadata_obj, canonicalMetadata_obj, sortEntries_congr hnodup hperm]

theorem IsMetadata.canonical {v : JsValue} (h : IsMetadata v) :
    canonicalMetadata (canonicalMetadata v) = canonicalMetadata v :=
  (canonicalMetadata_congr h (canonicalMetadata_same h)).symm

theorem SameMetadata.isMetadata {v w : JsValue} (hsame : SameMetadata v w) (h : IsMetadata v) :
    IsMetadata w := by
  rcases hsame with rfl | ⟨fields, fields', rfl, rfl, hperm⟩
  · exact h
  · rcases h with h | ⟨_, h, hnodup⟩
    · cases h
    · cases h
      exact .inr ⟨fields', rfl, (hperm.map Prod.fst).nodup_iff.mp hnodup⟩

theorem SameMetadata.hasOtherValue {v w : JsValue} (hsame : SameMetadata v w) :
    hasOtherValue v = hasOtherValue w := by
  rcases hsame with rfl | ⟨fields, fields', rfl, rfl, hperm⟩
  · rfl
  · show (true && fields.any _) = (true && fields'.any _)
    rw [hperm.any_eq]

/-- The milestone as it is written. -/
def SealedProposalMilestone.normalized (m : SealedProposalMilestone) : SealedProposalMilestone :=
  { m with
    title := trimText m.title
    description := m.description.map trimText
    delivery := m.delivery.map trimText
    metadata := canonicalMetadata m.metadata }

/-- The proposal as it is written: texts trimmed, metadata in canonical order. -/
def SealedProposal.normalized (p : SealedProposal) : SealedProposal :=
  { p with
    currency := p.currency.map trimText
    deliverables := p.deliverables.map (List.map trimText)
    milestones := p.milestones.map (List.map SealedProposalMilestone.normalized)
    metadata := canonicalMetadata p.metadata }

/-! ## What the checks accept -/

/-- The label only enters the text of the error. -/
theorem safeAmountUnits_label {v : JsValue} {label label' : String} {units : Int}
    (h : safeAmountUnits timesTenMillion v label = .ok units) :
    safeAmountUnits timesTenMillion v label' = .ok units := by
  unfold safeAmountUnits at h ⊢
  split at h
  · next q =>
    dsimp only
    by_cases hq : q ≤ 0
    · rw [if_pos hq] at h
      cases h
    · rw [if_neg hq] at h ⊢
      split at h
      · next x hx =>
        by_cases hsafe : (Number.finite (⌊x + 1 / 2⌋ : Int)).isSafeInteger = true
        · rw [if_pos hsafe] at h
          simpa only [hx, hsafe, if_true] using h
        · rw [if_neg hsafe] at h
          cases h
      · cases h
  · cases h

theorem throwIf_eq_ok {c : Prop} [Decidable c] {message : String} {u : Unit} :
    throwIf c message = .ok u ↔ ¬ c := by
  unfold throwIf
  split
  · next h => exact ⟨nofun, fun hn => absurd h hn⟩
  · next h => exact ⟨fun _ => h, fun _ => rfl⟩

/-- What is demanded of a milestone, whose amount has these units. -/
structure MilestoneOk (timesTenMillion : Number → Number) (isValidEd25519PublicKey : String → Bool)
    (m : SealedProposalMilestone) (units : Int) : Prop where
  title : isBlank m.title = false
  receiver : ∀ key, m.receiver = some key → isValidEd25519PublicKey key = true
  metadata : hasOtherValue m.metadata = false
  units : safeAmountUnits timesTenMillion (some (.num m.amount)) "" = .ok units

theorem optionalText_map (o : Option String) (message : String) :
    optionalText (o.map .str) message = .ok (o.map trimText) := by
  cases o <;> rfl

theorem milestoneReceiver_map {o : Option String} {message : String} {r : Option String} :
    milestoneReceiver isValidEd25519PublicKey (o.map .str) message = .ok r ↔
      (∀ key, o = some key → isValidEd25519PublicKey key = true) ∧ r = o := by
  cases o with
  | none =>
    constructor
    · rintro ⟨⟩
      exact ⟨nofun, rfl⟩
    · rintro ⟨-, rfl⟩
      rfl
  | some key =>
    show (if isValidEd25519PublicKey key = true then Except.ok (some key) else _) = .ok r ↔ _
    split
    · next hkey =>
      constructor
      · rintro ⟨⟩
        refine ⟨?_, rfl⟩
        rintro _ ⟨⟩
        exact hkey
      · rintro ⟨-, rfl⟩
        rfl
    · next hkey => exact ⟨nofun, fun h => absurd (h.1 key rfl) hkey⟩

theorem milestoneTitle_str {s message r : String} :
    milestoneTitle (some (.str s)) message = .ok r ↔ isBlank s = false ∧ r = trimText s := by
  show (if isBlank s = true then Except.error _ else Except.ok (trimText s)) = .ok r ↔ _
  split
  · next h => exact ⟨nofun, fun hr => by rw [h] at hr; cases hr.1⟩
  · next h =>
    constructor
    · rintro ⟨⟩
      exact ⟨by simpa using h, rfl⟩
    · rintro ⟨-, rfl⟩
      rfl

theorem normalizeMilestone_json {i : Nat} {m : SealedProposalMilestone}
    {r : SealedProposalMilestone × Int} :
    normalizeMilestone engine timesTenMillion isValidEd25519PublicKey i m.json = .ok r ↔
      MilestoneOk timesTenMillion isValidEd25519PublicKey m r.2 ∧ r.1 = m.normalized := by
  have hf := @SealedProposalMilestone.fields engine m
  have hobject : isObject (some m.json) = true := rfl
  simp only [normalizeMilestone, hf.title, hf.description, hf.amount, hf.receiver, hf.delivery,
    hf.metadata, hobject, not_true_eq_false, not_false_eq_true, true_and, bind_eq_ok,
    optionalText_map, milestoneReceiver_map, milestoneTitle_str, Except.ok.injEq, exists_eq_left',
    validateMetadata, throwIf_eq_ok, exists_const]
  constructor
  · rintro ⟨_, ⟨htitle, rfl⟩, _, ⟨hreceiver, rfl⟩, hmetadata, units, hunits, hr⟩
    rw [← Except.ok.inj hr]
    exact ⟨⟨htitle, hreceiver, by simpa using hmetadata, safeAmountUnits_label hunits⟩, rfl⟩
  · obtain ⟨made, units⟩ := r
    rintro ⟨hok, rfl⟩
    exact ⟨_, ⟨hok.title, rfl⟩, _, ⟨hok.receiver, rfl⟩, by simp [hok.metadata], units,
      safeAmountUnits_label hok.units, rfl⟩

theorem MilestoneOk.normalized {m : SealedProposalMilestone} {units : Int}
    (h : MilestoneOk timesTenMillion isValidEd25519PublicKey m units)
    (hmeta : IsMetadata m.metadata) :
    MilestoneOk timesTenMillion isValidEd25519PublicKey m.normalized units :=
  ⟨(isBlank_trimText m.title).trans h.title, h.receiver,
    (canonicalMetadata_same hmeta).hasOtherValue ▸ h.metadata, h.units⟩

theorem map_trimText (o : Option String) : (o.map trimText).map trimText = o.map trimText := by
  cases o with
  | none => rfl
  | some s => simp [trimText_trimText]

theorem normalized_milestone {m : SealedProposalMilestone} (h : IsMetadata m.metadata) :
    m.normalized.normalized = m.normalized := by
  simp only [SealedProposalMilestone.normalized, trimText_trimText, map_trimText, h.canonical]

/-! ## All milestones -/

/-- The entries of a list that a check with an index maps to one result each. -/
theorem mapM_zipIdx_eq_ok {α β γ : Type} {f : Nat → γ → Except Thrown β} {g : α → γ}
    {P : α → β → Prop} (hf : ∀ i a b, f i (g a) = .ok b ↔ P a b) {l : List α} {r : List β}
    (n : Nat) :
    ((l.map g).zipIdx n).mapM (fun p => f p.2 p.1) = .ok r ↔ List.Forall₂ P l r := by
  induction l generalizing r n with
  | nil =>
    rw [List.map_nil, List.zipIdx_nil, List.mapM_nil, List.forall₂_nil_left_iff]
    exact ⟨fun h => (Except.ok.inj h).symm, fun h => h ▸ rfl⟩
  | cons a l ih =>
    rw [List.map_cons, List.zipIdx_cons, List.mapM_cons]
    simp only [bind_eq_ok, hf, ih]
    constructor
    · rintro ⟨b, hb, bs, hbs, ⟨⟩⟩
      exact .cons hb hbs
    · rintro (_ | ⟨hb, hbs⟩)
      exact ⟨_, hb, _, hbs, rfl⟩

/-- Results whose second components are related, and whose first ones are computed. -/
theorem forall₂_pair {α β γ : Type} {P : α → γ → Prop} {g : α → β} {l : List α}
    {r : List (β × γ)} : List.Forall₂ (fun a p => P a p.2 ∧ p.1 = g a) l r ↔
      List.Forall₂ P l (r.map Prod.snd) ∧ r.map Prod.fst = l.map g := by
  induction l generalizing r with
  | nil => cases r <;> simp
  | cons a l ih =>
    cases r with
    | nil => simp
    | cons p r =>
      simp only [List.forall₂_cons, List.map_cons, List.cons.injEq, ih]
      tauto

/-- What is demanded of the milestones of a proposal with this total. -/
structure MilestonesOk (timesTenMillion : Number → Number) (isValidEd25519PublicKey : String → Bool)
    (ms : List SealedProposalMilestone) (totalAmount : Option Number) : Prop where
  length : 1 ≤ ms.length ∧ ms.length ≤ 10
  sum : ∃ total units, totalAmount = some total ∧
    List.Forall₂ (MilestoneOk timesTenMillion isValidEd25519PublicKey) ms units ∧
    safeAmountUnits timesTenMillion (some (.num total)) "" = .ok units.sum

theorem safeAmountUnits_join {totalAmount : Option (Option Number)} {label : String} {u : Int}
    (h : safeAmountUnits timesTenMillion (totalAmount.join.map .num) label = .ok u) :
    ∃ total, totalAmount = some (some total) := by
  rcases totalAmount with _ | _ | total
  · cases h
  · cases h
  · exact ⟨total, rfl⟩

theorem normalizeMilestones_json {ms : List SealedProposalMilestone}
    {totalAmount : Option (Option Number)} {r : Option (List SealedProposalMilestone)} :
    normalizeMilestones engine timesTenMillion isValidEd25519PublicKey
        (some (.arr (ms.map SealedProposalMilestone.json))) totalAmount = .ok r ↔
      MilestonesOk timesTenMillion isValidEd25519PublicKey ms totalAmount.join ∧
        r = some (ms.map SealedProposalMilestone.normalized) := by
  have hone : ∀ i m r, normalizeMilestone engine timesTenMillion isValidEd25519PublicKey i
      (SealedProposalMilestone.json m) = .ok r ↔
      MilestoneOk timesTenMillion isValidEd25519PublicKey m r.2 ∧ r.1 = m.normalized :=
    fun _ _ _ => normalizeMilestone_json
  have hlist : ∀ normalized, ((ms.map SealedProposalMilestone.json).zipIdx.mapM fun p =>
      normalizeMilestone engine timesTenMillion isValidEd25519PublicKey p.2 p.1) = .ok normalized ↔
      List.Forall₂ (fun m r => MilestoneOk timesTenMillion isValidEd25519PublicKey m r.2 ∧
        r.1 = m.normalized) ms normalized :=
    fun _ => mapM_zipIdx_eq_ok hone 0
  simp only [normalizeMilestones, bind_eq_ok, throwIf_eq_ok, exists_const, hlist, forall₂_pair,
    List.length_map]
  constructor
  · rintro ⟨hlength, -, units, hunits, normalized, ⟨hall, hmade⟩, hsum, ⟨⟩⟩
    obtain ⟨total, rfl⟩ := safeAmountUnits_join hunits
    rw [not_not] at hsum
    subst hsum
    exact ⟨⟨by omega, total, _, rfl, hall, safeAmountUnits_label hunits⟩, by rw [hmade]⟩
  · rintro ⟨⟨hlength, total, units, htotal, hall, hsum⟩, rfl⟩
    obtain ⟨hsome, hmap⟩ : totalAmount ≠ none ∧
        totalAmount.join.map Json.num = some (.num total) := by
      rw [htotal]
      exact ⟨(by rintro rfl; cases htotal), rfl⟩
    have hlen : ms.length = units.length := hall.length_eq
    have hfst : ((ms.map SealedProposalMilestone.normalized).zip units).map Prod.fst =
        ms.map SealedProposalMilestone.normalized :=
      List.map_fst_zip (by rw [List.length_map]; omega)
    have hsnd : ((ms.map SealedProposalMilestone.normalized).zip units).map Prod.snd = units :=
      List.map_snd_zip (by rw [List.length_map]; omega)
    rw [hmap]
    refine ⟨by omega, hsome, units.sum, safeAmountUnits_label hsum, _, ⟨?_, hfst⟩, ?_, ?_⟩
    · rw [hsnd]
      exact hall
    · rw [hsnd]
      exact not_not.mpr rfl
    · rw [hfst]
      rfl

/-- A fact about one milestone, for each of them. -/
theorem MilestonesOk.forall {ms : List SealedProposalMilestone} {totalAmount : Option Number}
    (h : MilestonesOk timesTenMillion isValidEd25519PublicKey ms totalAmount)
    {P : SealedProposalMilestone → Prop}
    (hP : ∀ m u, MilestoneOk timesTenMillion isValidEd25519PublicKey m u → P m) :
    ∀ m ∈ ms, P m := by
  obtain ⟨_, units, -, hall, -⟩ := h.sum
  intro m hm
  obtain ⟨i, hi, rfl⟩ := List.getElem_of_mem hm
  obtain ⟨hlength, hget⟩ := List.forall₂_iff_get.mp hall
  exact hP _ _ (hget i hi (hlength ▸ hi))

theorem MilestonesOk.normalized {ms : List SealedProposalMilestone} {totalAmount : Option Number}
    (h : MilestonesOk timesTenMillion isValidEd25519PublicKey ms totalAmount)
    (hmeta : ∀ m ∈ ms, IsMetadata m.metadata) :
    MilestonesOk timesTenMillion isValidEd25519PublicKey
      (ms.map SealedProposalMilestone.normalized) totalAmount := by
  obtain ⟨total, units, htotal, hall, hsum⟩ := h.sum
  refine ⟨by rw [List.length_map]; exact h.length, total, units, htotal, ?_, hsum⟩
  rw [List.forall₂_map_left_iff]
  exact ((List.forall₂_and_left ms units).mpr ⟨hmeta, hall⟩).imp fun m u hm => hm.2.normalized hm.1

/-- What is demanded of a proposal. -/
structure ProposalOk (timesTenMillion : Number → Number) (isValidEd25519PublicKey : String → Bool)
    (p : SealedProposal) : Prop where
  timelineDays : isDayCount p.timelineDays = true
  approach : isBlank p.approach = false
  totalAmount : ∀ total, p.totalAmount = some total →
    ∃ units, safeAmountUnits timesTenMillion (some (.num total)) "totalAmount" = .ok units
  currency : p.currency.any isBlank = false
  metadata : hasOtherValue p.metadata = false
  deliverables : ∀ entries, p.deliverables = some entries →
    entries.length ≤ 20 ∧ entries.any isBlank = false
  milestones : ∀ ms, p.milestones = some ms →
    MilestonesOk timesTenMillion isValidEd25519PublicKey ms p.totalAmount

theorem normalizeDeliverables_eq_ok {deliverables r : Option (List String)} :
    normalizeDeliverables deliverables = .ok r ↔
      (∀ entries, deliverables = some entries → entries.length ≤ 20 ∧ entries.any isBlank = false) ∧
        r = deliverables.map (List.map trimText) := by
  cases deliverables with
  | none =>
    constructor
    · rintro ⟨⟩
      exact ⟨nofun, rfl⟩
    · rintro ⟨-, rfl⟩
      rfl
  | some entries =>
    show (if 20 < entries.length ∨ entries.any isBlank = true then Except.error _
      else Except.ok (some (entries.map trimText))) = .ok r ↔ _
    split
    · next h =>
      refine ⟨nofun, fun hr => ?_⟩
      obtain ⟨hlength, hblank⟩ := hr.1 entries rfl
      rcases h with h | h
      · omega
      · rw [hblank] at h
        cases h
    · next h =>
      rw [not_or, Bool.not_eq_true, not_lt] at h
      constructor
      · rintro ⟨⟩
        refine ⟨?_, rfl⟩
        rintro _ ⟨⟩
        exact h
      · rintro ⟨-, rfl⟩
        rfl

theorem encodeSealedProposal_eq_ok {p : SealedProposal} {bytes : Bytes} :
    encodeSealedProposal engine timesTenMillion isValidEd25519PublicKey p = .ok bytes ↔
      ProposalOk timesTenMillion isValidEd25519PublicKey p ∧
        bytes = textEncode (jsonStringify engine p.normalized.json) := by
  have hmilestones : ∀ r, normalizeMilestones engine timesTenMillion isValidEd25519PublicKey
      (p.milestones.map fun ms => .arr (ms.map SealedProposalMilestone.json))
      (p.totalAmount.map some) = .ok r ↔
      (∀ ms, p.milestones = some ms →
        MilestonesOk timesTenMillion isValidEd25519PublicKey ms p.totalAmount) ∧
        r = p.milestones.map (List.map SealedProposalMilestone.normalized) := by
    intro r
    have hjoin : (p.totalAmount.map some).join = p.totalAmount := by cases p.totalAmount <;> rfl
    cases p.milestones with
    | none =>
      constructor
      · rintro ⟨⟩
        exact ⟨nofun, rfl⟩
      · rintro ⟨-, rfl⟩
        rfl
    | some ms =>
      rw [Option.map_some, normalizeMilestones_json, hjoin]
      simp
  have htotal : ∀ u, checkTotal timesTenMillion p.totalAmount = .ok u ↔
      ∀ total, p.totalAmount = some total →
        ∃ units, safeAmountUnits timesTenMillion (some (.num total)) "totalAmount" = .ok units := by
    intro u
    cases p.totalAmount with
    | none => exact ⟨fun _ => nofun, fun _ => rfl⟩
    | some total =>
      simp only [checkTotal, bind_eq_ok, Option.some.injEq, forall_eq']
      exact ⟨fun ⟨units, h, _⟩ => ⟨units, h⟩, fun ⟨units, h⟩ => ⟨units, h, rfl⟩⟩
  simp only [encodeSealedProposal, bind_eq_ok, throwIf_eq_ok, exists_const, htotal, hmilestones,
    normalizeDeliverables_eq_ok, validateMetadata]
  constructor
  · rintro ⟨hdays, happroach, hsum, hcurrency, hmeta, _, ⟨hdeliverables, rfl⟩, _,
      ⟨hms, rfl⟩, hbytes⟩
    exact ⟨⟨by simpa using hdays, by simpa using happroach, hsum, by simpa using hcurrency,
      by simpa using hmeta, hdeliverables, hms⟩, (Except.ok.inj hbytes).symm⟩
  · rintro ⟨hok, hbytes⟩
    exact ⟨by simp [hok.timelineDays], by simp [hok.approach], hok.totalAmount,
      by simpa using hok.currency, by simp [hok.metadata], _, ⟨hok.deliverables, rfl⟩, _,
      ⟨hok.milestones, rfl⟩, congrArg Except.ok hbytes.symm⟩

/-! ## Normal forms are accepted -/

/-- A proposal as the language holds it. -/
structure SealedProposal.Proper (p : SealedProposal) : Prop where
  metadata : IsMetadata p.metadata
  milestones : ∀ ms, p.milestones = some ms → ∀ m ∈ ms, IsMetadata m.metadata

theorem isBlank_map (entries : List String) :
    (entries.map trimText).any isBlank = entries.any isBlank := by
  rw [List.any_map]
  simp only [Function.comp_def, isBlank_trimText]

theorem ProposalOk.normalized {p : SealedProposal} (hproper : p.Proper)
    (h : ProposalOk timesTenMillion isValidEd25519PublicKey p) :
    ProposalOk timesTenMillion isValidEd25519PublicKey p.normalized := by
  refine ⟨h.timelineDays, h.approach, h.totalAmount, ?_, ?_, ?_, ?_⟩
  · have hcurrency := h.currency
    show (p.currency.map trimText).any isBlank = false
    cases hc : p.currency with
    | none => rfl
    | some s =>
      rw [hc] at hcurrency
      rw [Option.map_some, Option.any_some, isBlank_trimText]
      rwa [Option.any_some] at hcurrency
  · exact (canonicalMetadata_same hproper.metadata).hasOtherValue.symm.trans h.metadata
  · intro entries hentries
    obtain ⟨entries', h', rfl⟩ := Option.map_eq_some_iff.mp hentries
    rw [List.length_map, isBlank_map]
    exact h.deliverables entries' h'
  · intro ms hms
    obtain ⟨ms', h', rfl⟩ := Option.map_eq_some_iff.mp hms
    exact (h.milestones ms' h').normalized (hproper.milestones ms' h')

theorem normalized_proposal {p : SealedProposal} (h : p.Proper) :
    p.normalized.normalized = p.normalized := by
  have hdeliverables : (p.deliverables.map (List.map trimText)).map (List.map trimText) =
      p.deliverables.map (List.map trimText) := by
    cases p.deliverables with
    | none => rfl
    | some entries => simp [trimText_trimText]
  have hmilestones : (p.milestones.map (List.map SealedProposalMilestone.normalized)).map
      (List.map SealedProposalMilestone.normalized) =
      p.milestones.map (List.map SealedProposalMilestone.normalized) := by
    cases hms : p.milestones with
    | none => rfl
    | some ms =>
      rw [Option.map_some, Option.map_some, List.map_map]
      refine congrArg some (List.map_congr_left fun m hm => ?_)
      exact normalized_milestone (h.milestones ms hms m hm)
  simp only [SealedProposal.normalized, map_trimText, h.metadata.canonical, hdeliverables,
    hmilestones]

/-- The normal form is again one of the language. -/
theorem SealedProposal.Proper.normalized {p : SealedProposal} (h : p.Proper) :
    p.normalized.Proper := by
  refine ⟨(canonicalMetadata_same h.metadata).isMetadata h.metadata, fun ms hms m hm => ?_⟩
  obtain ⟨ms', h', rfl⟩ := Option.map_eq_some_iff.mp hms
  obtain ⟨m', hm', rfl⟩ := List.mem_map.mp hm
  have hmeta := h.milestones ms' h' m' hm'
  exact (canonicalMetadata_same hmeta).isMetadata hmeta

/-! ## The written value -/

/-- The numbers that are written for a proposal. -/
structure SealedProposal.Numbers (number : Number → Prop) (p : SealedProposal) : Prop where
  version : number proposalVersion
  timelineDays : number p.timelineDays
  totalAmount : ∀ n, p.totalAmount = some n → number n
  amounts : ∀ ms, p.milestones = some ms → ∀ m ∈ ms, number m.amount

/-- Names that are no indices stay in any order. -/
theorem inOrder_of_named {names : List String}
    (h : names.Nodup ∧ ∀ name ∈ names, indexName? name = none) : InOrder names := by
  refine h.1.imp_of_mem fun ha hb hne => ⟨hne, ?_⟩
  rw [precedes, h.2 _ hb]

theorem held_optionalField {number : Number → Prop} {key : String} {v : JsValue}
    (h : ∀ w, v = some w → w.Every number InOrder) :
    ∀ q ∈ optionalField key v, q.2.Every number InOrder := by
  cases v with
  | none => simp [optionalField]
  | some w => simpa [optionalField] using h w rfl

/-- Canonical metadata of texts. -/
theorem held_metadata {number : Number → Prop} {v : JsValue} (h : IsMetadata v)
    (htexts : hasOtherValue v = false) {w : Json} (hw : canonicalMetadata v = some w) :
    w.Every number InOrder := by
  rcases h with rfl | ⟨fields, rfl, -⟩
  · cases hw
  · rw [canonicalMetadata_obj] at hw
    cases hw
    refine .obj (fromEntries_names _) fun q hq => ?_
    have hmem := (sortEntries_perm fields).subset (mem_fromEntries hq)
    have hall : (fields.any fun p => !isString (some p.2)) = false := htexts
    have htext := List.any_eq_false.mp hall q hmem
    obtain ⟨key, v⟩ := q
    cases v with
    | str s => exact .str s
    | _ => simp [isString] at htext

theorem optionalField_names (key : String) (v : JsValue) :
    ((optionalField key v).map Prod.fst).Sublist [key] := by
  cases v with
  | none => exact List.nil_sublist _
  | some w => exact List.Sublist.refl _

theorem SealedProposalMilestone.inOrder (m : SealedProposalMilestone) :
    InOrder (m.entries.map Prod.fst) := by
  have hnames : (m.entries.map Prod.fst).Sublist
      (["title"] ++ ["description"] ++ ["amount"] ++ ["receiver"] ++ ["delivery"] ++
      ["metadata"]) := by
    simp only [SealedProposalMilestone.entries, List.map_append]
    exact (((((List.Sublist.refl _).append (optionalField_names _ _)).append
      (List.Sublist.refl _)).append (optionalField_names _ _)).append
      (optionalField_names _ _)).append (optionalField_names _ _)
  exact List.Pairwise.sublist hnames (inOrder_of_named (by decide))

theorem SealedProposal.inOrder (p : SealedProposal) : InOrder (p.entries.map Prod.fst) := by
  have hnames : (p.entries.map Prod.fst).Sublist
      (["version", "timelineDays", "approach"] ++ ["totalAmount"] ++ ["currency"] ++
        ["deliverables"] ++ ["milestones"] ++ ["metadata"]) := by
    simp only [SealedProposal.entries, List.map_append]
    exact (((((List.Sublist.refl _).append (optionalField_names _ _)).append
      (optionalField_names _ _)).append (optionalField_names _ _)).append
      (optionalField_names _ _)).append (optionalField_names _ _)
  exact List.Pairwise.sublist hnames (inOrder_of_named (by decide))

theorem SealedProposalMilestone.held {number : Number → Prop} {m : SealedProposalMilestone}
    (hmeta : IsMetadata m.metadata) (htexts : hasOtherValue m.metadata = false)
    (hamount : number m.amount) : m.normalized.json.Every number InOrder := by
  have htext : ∀ {o : Option String} {w : Json}, o.map Json.str = some w →
      w.Every number InOrder := by
    intro o w h
    obtain ⟨s, -, rfl⟩ := Option.map_eq_some_iff.mp h
    exact .str s
  refine .obj m.normalized.inOrder ?_
  simp only [SealedProposalMilestone.entries, List.mem_append, List.mem_singleton]
  rintro q (((((rfl | h) | rfl) | h) | h) | h)
  · exact .str _
  · exact held_optionalField (fun w hw => htext hw) q h
  · exact .num hamount
  · exact held_optionalField (fun w hw => htext hw) q h
  · exact held_optionalField (fun w hw => htext hw) q h
  · exact held_optionalField (fun w hw => held_metadata hmeta htexts hw) q h

theorem SealedProposal.held {number : Number → Prop} {p : SealedProposal} (hproper : p.Proper)
    (hok : ProposalOk timesTenMillion isValidEd25519PublicKey p) (hnumbers : p.Numbers number) :
    p.normalized.json.Every number InOrder := by
  refine .obj p.normalized.inOrder ?_
  simp only [SealedProposal.entries, List.mem_append, List.mem_cons, List.not_mem_nil, or_false]
  rintro q ((((((rfl | rfl | rfl) | h) | h) | h) | h) | h)
  · exact .num hnumbers.version
  · exact .num hnumbers.timelineDays
  · exact .str _
  · refine held_optionalField (fun w hw => ?_) q h
    obtain ⟨total, htotal, rfl⟩ := Option.map_eq_some_iff.mp hw
    exact .num (hnumbers.totalAmount total htotal)
  · refine held_optionalField (fun w hw => ?_) q h
    obtain ⟨s, -, rfl⟩ := Option.map_eq_some_iff.mp hw
    exact .str s
  · refine held_optionalField (fun w hw => ?_) q h
    obtain ⟨entries, -, rfl⟩ := Option.map_eq_some_iff.mp hw
    exact .arr (List.forall_mem_map.mpr fun s _ => .str s)
  · refine held_optionalField (fun w hw => ?_) q h
    obtain ⟨made, hmade, rfl⟩ := Option.map_eq_some_iff.mp hw
    obtain ⟨ms, hms, rfl⟩ := Option.map_eq_some_iff.mp hmade
    refine .arr ?_
    rw [List.map_map, List.forall_mem_map]
    intro m hm
    exact m.held (hproper.milestones ms hms m hm)
      ((hok.milestones ms hms).forall (fun _ _ h => h.metadata) m hm)
      (hnumbers.amounts ms hms m hm)
  · exact held_optionalField (fun w hw => held_metadata hproper.metadata hok.metadata hw) q h

/-- Accepted numbers are finite. -/
theorem ProposalOk.finite {p : SealedProposal}
    (h : ProposalOk timesTenMillion isValidEd25519PublicKey p) :
    p.Numbers fun n => ∃ q, n = .finite q := by
  have hunits : ∀ {n label units},
      safeAmountUnits timesTenMillion (some (.num n)) label = .ok units →
      ∃ q, n = .finite q := by
    intro n label units hn
    cases n with
    | finite q => exact ⟨q, rfl⟩
    | infinite b => cases hn
  refine ⟨⟨1, rfl⟩, ?_, fun n hn => ?_, fun ms hms m hm => ?_⟩
  · have hdays := h.timelineDays
    cases hn : p.timelineDays with
    | finite q => exact ⟨q, rfl⟩
    | infinite b =>
      rw [hn] at hdays
      cases hdays
  · obtain ⟨units, hn⟩ := h.totalAmount n hn
    exact hunits hn
  · exact (h.milestones ms hms).forall (fun m u hm => hunits hm.units) m hm

/-! ## Reading back -/

theorem readFilled_str {s message : String} (h : isBlank s = false) :
    readFilled message (some (.str s)) = .ok s := by
  show (if isBlank s = true then Except.error _ else Except.ok s) = .ok s
  rw [h, if_neg Bool.false_ne_true]

theorem readTotal_map {o : Option Number} (h : ∀ n, o = some n → ∃ q, n = .finite q) :
    readTotal (o.map .num) = .ok o := by
  cases o with
  | none => rfl
  | some n =>
    obtain ⟨q, rfl⟩ := h n rfl
    rfl

theorem readCurrency_map {o : Option String} (h : o.any isBlank = false) :
    readCurrency (o.map .str) = .ok o := by
  cases o with
  | none => rfl
  | some s =>
    rw [Option.any_some] at h
    simp only [Option.map_some, readCurrency, readFilled_str h, bind_ok]
    rfl

theorem readDeliverables_map {o : Option (List String)}
    (h : ∀ entries, o = some entries → entries.any isBlank = false) :
    readDeliverables (o.map fun entries => .arr (entries.map .str)) = .ok o := by
  cases o with
  | none => rfl
  | some entries =>
    have hread : ∀ s ∈ entries, readFilled "proposal deliverables are invalid" (some (.str s)) =
        .ok s := by
      intro s hs
      exact readFilled_str (by simpa using List.any_eq_false.mp (h entries rfl) s hs)
    have hlist : (entries.map Json.str).mapM (fun entry =>
        readFilled "proposal deliverables are invalid" (some entry)) = .ok entries := by
      have hmap := mapM_ok (g := fun s : String => s) hread
      rw [List.map_id'] at hmap
      rw [List.mapM_map]
      exact hmap
    simp only [Option.map_some, readDeliverables, hlist, bind_ok]
    rfl

theorem isRecord_of_metadata {v : JsValue} (h : IsMetadata v) (htexts : hasOtherValue v = false) :
    ¬ (v ≠ none ∧ ¬ isRecord v = true) := by
  rcases h with rfl | ⟨fields, rfl, -⟩
  · exact fun h => h.1 rfl
  · rintro ⟨-, hno⟩
    have hall : (fields.any fun p => !isString (some p.2)) = false := htexts
    refine hno (List.all_eq_true.mpr fun q hq => ?_)
    simpa using List.any_eq_false.mp hall q hq

/-- A written proposal that is accepted is read, if its milestones are in normal form. -/
theorem decode_json {q : SealedProposal} {payload : Bytes}
    (hok : ProposalOk timesTenMillion isValidEd25519PublicKey q) (hmeta : IsMetadata q.metadata)
    (hform : q.milestones.map (List.map SealedProposalMilestone.normalized) = q.milestones)
    (hread : jsonParse engine (textDecode payload) = .ok q.json) :
    decodeSealedProposal engine timesTenMillion isValidEd25519PublicKey payload = .ok q := by
  have hf := @SealedProposal.fields engine q
  have hdays : readDays (some (.num q.timelineDays)) = .ok q.timelineDays := by
    rw [readDays, hok.timelineDays, if_pos rfl]
  have harray :
      ¬ ((q.milestones.map fun ms => Json.arr (ms.map SealedProposalMilestone.json)) ≠ none ∧
      ¬ isArray (q.milestones.map
        fun ms => Json.arr (ms.map SealedProposalMilestone.json)) = true) := by
    cases q.milestones <;> simp [isArray]
  have hmilestones : normalizeMilestones engine timesTenMillion isValidEd25519PublicKey
      (q.milestones.map fun ms => .arr (ms.map SealedProposalMilestone.json)) (some q.totalAmount) =
      .ok q.milestones := by
    cases hms : q.milestones with
    | none => rfl
    | some ms =>
      rw [hms] at hform
      exact normalizeMilestones_json.mpr ⟨hok.milestones ms hms, hform.symm⟩
  simp only [decodeSealedProposal, bind_eq_ok, throwIf_eq_ok, exists_const]
  refine ⟨q.json, hread, by simp [SealedProposal.json, isObject], ?_⟩
  simp only [hf.version, hf.timelineDays, hf.approach, hf.totalAmount, hf.currency, hf.deliverables,
    hf.milestones, hf.metadata]
  exact ⟨by simp [strictEq], _, hdays, _, readFilled_str hok.approach, _,
    readTotal_map hok.finite.totalAmount, _,
    readCurrency_map hok.currency, _, readDeliverables_map fun entries h =>
    (hok.deliverables entries h).2,
    harray, isRecord_of_metadata hmeta hok.metadata, _, hmilestones, rfl⟩

/-- The text of a proposal reads back. -/
theorem parse_written {p : SealedProposal} (hproper : p.Proper)
    (hok : ProposalOk timesTenMillion isValidEd25519PublicKey p)
    (hnumbers : p.Numbers engine.Prints) :
    jsonParse engine (textDecode (textEncode (jsonStringify engine p.normalized.json))) =
      .ok p.normalized.json := by
  have hcopy : p.normalized.json.copy = p.normalized.json :=
    (SealedProposal.held hproper hok hok.finite).copy_eq
  rw [textDecode_encode, jsonParse_stringify (SealedProposal.held hproper hok hnumbers), hcopy]
  rw [jsonStringify, String.toList_ofList, SealedProposal.json, Json.chars]
  exact fun h => absurd (Option.some_inj.mp h) (by decide)

/-! ## The order of metadata -/

/-- The same milestone, up to the order of its metadata. -/
def SealedProposalMilestone.Reordered (m m' : SealedProposalMilestone) : Prop :=
  m' = { m with metadata := m'.metadata } ∧ SameMetadata m.metadata m'.metadata

/-- The same proposal, up to the order of all metadata. -/
structure SealedProposal.Reordered (p q : SealedProposal) : Prop where
  rest : q = { p with milestones := q.milestones, metadata := q.metadata }
  milestones : Option.Rel (List.Forall₂ SealedProposalMilestone.Reordered) p.milestones q.milestones
  metadata : SameMetadata p.metadata q.metadata

theorem SealedProposalMilestone.Reordered.normalized {m m' : SealedProposalMilestone}
    (h : m.Reordered m') (hmeta : IsMetadata m.metadata) : m'.normalized = m.normalized := by
  obtain ⟨hrest, hsame⟩ := h
  rw [hrest]
  simp only [SealedProposalMilestone.normalized, canonicalMetadata_congr hmeta hsame]

theorem MilestoneOk.reordered {m m' : SealedProposalMilestone} {units : Int} (h : m.Reordered m')
    (hok : MilestoneOk timesTenMillion isValidEd25519PublicKey m units) :
    MilestoneOk timesTenMillion isValidEd25519PublicKey m' units := by
  obtain ⟨hrest, hsame⟩ := h
  rw [hrest]
  exact ⟨hok.title, hok.receiver, hsame.hasOtherValue ▸ hok.metadata, hok.units⟩

/-- Related elements in the place of the first ones. -/
theorem forall₂_replace {α β γ : Type} {R : α → β → Prop} {S : α → γ → Prop} {T : β → γ → Prop}
    (hT : ∀ a b c, R a b → S a c → T b c) {l : List α} {l' : List β} {r : List γ}
    (hR : List.Forall₂ R l l') (hS : List.Forall₂ S l r) : List.Forall₂ T l' r := by
  induction hR generalizing r with
  | nil =>
    cases hS
    exact .nil
  | cons hab _ ih =>
    obtain _ | ⟨hac, hrest⟩ := hS
    exact .cons (hT _ _ _ hab hac) (ih hrest)

theorem SealedProposal.Reordered.normalized {p q : SealedProposal} (h : p.Reordered q)
    (hproper : p.Proper) : q.normalized = p.normalized := by
  have hmilestones : q.milestones.map (List.map SealedProposalMilestone.normalized) =
      p.milestones.map (List.map SealedProposalMilestone.normalized) := by
    have hrel := h.milestones
    have hmeta := hproper.milestones
    revert hrel hmeta
    generalize p.milestones = o
    generalize q.milestones = o'
    rintro (hall | _) hmeta
    · refine congrArg some ?_
      have hboth := (List.forall₂_and_left _ _).mpr ⟨hmeta _ rfl, hall⟩
      have heq := hboth.imp fun m m' hm => hm.2.normalized hm.1
      rw [← List.forall₂_eq_eq_eq, List.forall₂_map_left_iff, List.forall₂_map_right_iff]
      exact heq.flip
    · rfl
  rw [h.rest]
  simp only [SealedProposal.normalized, hmilestones, canonicalMetadata_congr hproper.metadata
    h.metadata]

theorem ProposalOk.reordered {p q : SealedProposal} (h : p.Reordered q)
    (hok : ProposalOk timesTenMillion isValidEd25519PublicKey p) :
    ProposalOk timesTenMillion isValidEd25519PublicKey q := by
  have hmilestones : ∀ ms, q.milestones = some ms →
      MilestonesOk timesTenMillion isValidEd25519PublicKey ms p.totalAmount := by
    have hrel := h.milestones
    have hms := hok.milestones
    revert hrel hms
    generalize p.milestones = o
    generalize q.milestones = o'
    rintro (hall | _) hms
    · rintro _ ⟨⟩
      obtain ⟨hlength, total, units, htotal, hunits, hsum⟩ := hms _ rfl
      exact ⟨hall.length_eq ▸ hlength, total, units, htotal,
        forall₂_replace (fun _ _ _ hm hu => hu.reordered hm) hall hunits, hsum⟩
    · nofun
  rw [h.rest]
  exact ⟨hok.timelineDays, hok.approach, hok.totalAmount, hok.currency,
    h.metadata.hasOtherValue ▸ hok.metadata, hok.deliverables, hmilestones⟩

/-- **Round trip.** An encoded proposal decodes to its normal form, whose metadata are the same
maps; proposals that differ in the order of metadata keys have one encoding, and so has the normal
form. -/
theorem proposals_round_trip {p : SealedProposal} {bytes : Bytes} (hproper : p.Proper)
    (hnumbers : p.Numbers engine.Prints)
    (hencode : encodeSealedProposal engine timesTenMillion isValidEd25519PublicKey p = .ok bytes) :
    decodeSealedProposal engine timesTenMillion isValidEd25519PublicKey bytes = .ok p.normalized ∧
    (SameMetadata p.metadata p.normalized.metadata ∧ ∀ ms, p.milestones = some ms → ∀ m ∈ ms,
      SameMetadata m.metadata m.normalized.metadata) ∧
    (∀ q, p.Reordered q →
      encodeSealedProposal engine timesTenMillion isValidEd25519PublicKey q = .ok bytes) ∧
    encodeSealedProposal engine timesTenMillion isValidEd25519PublicKey p.normalized =
    .ok bytes := by
  obtain ⟨hok, hbytes⟩ := encodeSealedProposal_eq_ok.mp hencode
  rw [hbytes]
  have hmeta : IsMetadata p.normalized.metadata := hproper.normalized.metadata
  have hform := congrArg SealedProposal.milestones (normalized_proposal hproper)
  refine ⟨decode_json (hok.normalized hproper) hmeta hform (parse_written hproper hok hnumbers),
    ⟨canonicalMetadata_same hproper.metadata, fun ms hms m hm =>
      canonicalMetadata_same (hproper.milestones ms hms m hm)⟩, fun q hq => ?_, ?_⟩
  · exact encodeSealedProposal_eq_ok.mpr ⟨hok.reordered hq, by rw [hq.normalized hproper]⟩
  · exact encodeSealedProposal_eq_ok.mpr
      ⟨hok.normalized hproper, by rw [normalized_proposal hproper]⟩

end

namespace SampleProposal

def timesTenMillion : Number → Number
  | .finite q => .finite (q * 10000000)
  | n => n

def isValidEd25519PublicKey (s : String) : Bool := s.toList.head? = some 'G'

def proposal : SealedProposal :=
  { timelineDays := 5, approach := "plan", totalAmount := some 3, currency := some " USDC ",
    deliverables := none,
    milestones := some [⟨" first ", none, 1, some "GA", none,
      some (.obj [("b", .str "1"), ("a", .str "2")])⟩, ⟨"second", none, 2, none, none, none⟩],
    metadata := some (.obj [("z", .str ""), ("k", .str "v")]) }

end SampleProposal

open SampleProposal in
theorem proposals_round_trip_sample :
    ∃ bytes, encodeSealedProposal integerEngine SampleProposal.timesTenMillion
        SampleProposal.isValidEd25519PublicKey proposal = .ok bytes ∧
      decodeSealedProposal integerEngine SampleProposal.timesTenMillion
        SampleProposal.isValidEd25519PublicKey bytes = .ok proposal.normalized := by
  have hsome : (encodeSealedProposal integerEngine SampleProposal.timesTenMillion
      SampleProposal.isValidEd25519PublicKey proposal).toOption.isSome = true := by decide +kernel
  obtain ⟨bytes, hencode⟩ : ∃ bytes, encodeSealedProposal integerEngine
      SampleProposal.timesTenMillion SampleProposal.isValidEd25519PublicKey proposal =
      .ok bytes := by
    cases h : encodeSealedProposal integerEngine SampleProposal.timesTenMillion
        SampleProposal.isValidEd25519PublicKey proposal with
    | ok bytes => exact ⟨bytes, rfl⟩
    | error e =>
      rw [h] at hsome
      cases hsome
  have hproper : proposal.Proper := by
    refine ⟨.inr ⟨_, rfl, by decide⟩, ?_⟩
    rintro _ ⟨⟩ m hm
    rcases List.mem_cons.mp hm with rfl | hm
    · exact .inr ⟨_, rfl, by decide⟩
    · rw [List.mem_singleton.mp hm]
      exact .inl rfl
  have hnumbers : proposal.Numbers integerEngine.Prints := by
    refine ⟨integerEngine_prints 1, integerEngine_prints 5, ?_, ?_⟩
    · rintro _ ⟨⟩
      exact integerEngine_prints 3
    · rintro _ ⟨⟩ m hm
      rcases List.mem_cons.mp hm with rfl | hm
      · exact integerEngine_prints 1
      · rw [List.mem_singleton.mp hm]
        exact integerEngine_prints 2
  exact ⟨bytes, hencode, (proposals_round_trip hproper hnumbers hencode).1⟩

end SubRosa.Sdk
