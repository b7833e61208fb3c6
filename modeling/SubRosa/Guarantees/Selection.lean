import SubRosa.Library.SortedHead
import SubRosa.OpenX402.Offers

/-!
# The lowest valid offer

What makes a revealed offer valid, and that the default policy picks the one of
the valid offers that comes first by amount, resource and bidder. Bidders are
distinct, so this is one offer, however the offers are listed.
-/

namespace SubRosa.OpenX402

open JavaScript Sdk SortedHead

/-- The quote as a big integer. -/
def OpenX402Offer.amount? (offer : OpenX402Offer) : Option Int :=
  bigIntText? offer.quotedAmountBaseUnits

/-- An offer a buyer can take: its resource was discovered as it stands, it asks for
an amount within the allowance, for what was discovered, and has not expired. -/
structure OpenX402Offer.Valid (resources : List OpenX402Resource) (maximum : Int)
    (now : Option Number) (offer : OpenX402Offer) : Prop where
  discovered : ∃ resource ∈ resources, resource.id = offer.resourceId ∧
    resource.resourceDigest = offer.resourceDigest ∧ resource.network = offer.network ∧
    resource.asset = offer.asset ∧ resource.payTo = offer.payTo
  allowed : ∃ amount, offer.amount? = some amount ∧ 0 < amount ∧ amount ≤ maximum
  unexpired : Number.lessEq offer.validUntil now = false

/-- `localeCompare` is a total order on the strings of a list. -/
structure ComparesTotally (localeCompare : String → String → Ordering) (names : List String) :
    Prop extends Compares localeCompare names where
  eq : ∀ a ∈ names, ∀ b ∈ names, localeCompare a b = .eq ↔ a = b

/-- The strings that the comparator of the policy looks at. -/
def comparedNames (offers : List OpenX402Offer) : List String :=
  offers.flatMap fun offer => [offer.resourceId, offer.bidder]

section

variable {localeCompare : String → String → Ordering} {resources : List OpenX402Resource}
  {maximumText : String} {maximum : Int} {now : Option Number} {offer : OpenX402Offer}
  {offers offers' : List OpenX402Offer}

/-! ## Validity -/

theorem find_resource (hresources : (resources.map OpenX402Resource.id).Nodup)
    {resource : OpenX402Resource} :
    (resources.find? fun candidate => candidate.id = offer.resourceId) = some resource ↔
      resource ∈ resources ∧ resource.id = offer.resourceId := by
  constructor
  · intro h
    exact ⟨List.mem_of_find?_eq_some h, by simpa using List.find?_some h⟩
  · rintro ⟨hmem, hid⟩
    cases hfind : resources.find? fun candidate => candidate.id = offer.resourceId with
    | none =>
      rw [List.find?_eq_none] at hfind
      exact absurd hid (by simpa using hfind resource hmem)
    | some other =>
      have hother : other.id = resource.id := by
        rw [hid]
        simpa using List.find?_some hfind
      rw [List.inj_on_of_nodup_map hresources (List.mem_of_find?_eq_some hfind) hmem hother]

theorem validateTerms_valid {resource : OpenX402Resource} :
    (validateTerms offer resource now).valid = true ↔ offer.network = resource.network ∧
      offer.asset = resource.asset ∧ offer.payTo = resource.payTo ∧
      Number.lessEq offer.validUntil now = false := by
  unfold validateTerms
  split_ifs <;> simp_all [invalid]

/-- With an allowance that is a number, a check returns, and it accepts what is valid. -/
theorem validate_spec (hresources : (resources.map OpenX402Resource.id).Nodup)
    (hmaximum : bigIntText? maximumText = some maximum) :
    ∃ validation, validateOpenX402Offer offer resources maximumText now = .ok validation ∧
      (validation.valid = true ↔ offer.Valid resources maximum now) := by
  have hread : bigIntOfText maximumText = .ok maximum := by rw [bigIntOfText, hmaximum]
  unfold validateOpenX402Offer
  cases hfind : resources.find? fun candidate => candidate.id = offer.resourceId with
  | none =>
    refine ⟨_, rfl, nofun, fun hvalid => ?_⟩
    obtain ⟨resource, hmem, hid, -⟩ := hvalid.discovered
    rw [(find_resource hresources).mpr ⟨hmem, hid⟩] at hfind
    cases hfind
  | some resource =>
    obtain ⟨hmem, hid⟩ := (find_resource hresources).mp hfind
    -- a valid offer is for this resource
    have honly : offer.Valid resources maximum now →
        resource.resourceDigest = offer.resourceDigest ∧ resource.network = offer.network ∧
          resource.asset = offer.asset ∧ resource.payTo = offer.payTo := by
      intro hvalid
      obtain ⟨other, hother, hotherId, hterms⟩ := hvalid.discovered
      have heq := (find_resource hresources).mpr ⟨hother, hotherId⟩
      rw [hfind, Option.some_inj] at heq
      rwa [← heq] at hterms
    dsimp only
    split
    · next hdigest => exact ⟨_, rfl, nofun, fun hvalid => absurd (honly hvalid).1 hdigest⟩
    · next hdigest =>
      cases hquoted : bigIntText? offer.quotedAmountBaseUnits with
      | none =>
        refine ⟨_, rfl, nofun, fun hvalid => ?_⟩
        obtain ⟨amount, hamount, -⟩ := hvalid.allowed
        rw [OpenX402Offer.amount?, hquoted] at hamount
        cases hamount
      | some amount =>
        -- a valid offer asks for this amount
        have hamount : offer.Valid resources maximum now → 0 < amount ∧ amount ≤ maximum := by
          intro hvalid
          obtain ⟨n, hn, hallowed⟩ := hvalid.allowed
          rw [OpenX402Offer.amount?, hquoted, Option.some_inj] at hn
          rwa [hn]
        dsimp only
        split
        · next hle =>
          exact ⟨_, rfl, nofun, fun hvalid => absurd (hamount hvalid).1 (not_lt.mpr hle)⟩
        · next hpos =>
          rw [hread, bind_ok]
          split
          · next hover =>
            exact ⟨_, rfl, nofun, fun hvalid => absurd (hamount hvalid).2 (not_le.mpr hover)⟩
          · next hunder =>
            refine ⟨_, rfl, ?_⟩
            rw [validateTerms_valid]
            constructor
            · rintro ⟨hnetwork, hasset, hpayTo, hexpiry⟩
              exact ⟨⟨resource, hmem, hid, not_not.mp hdigest, hnetwork.symm, hasset.symm,
                hpayTo.symm⟩, ⟨amount, hquoted, not_le.mp hpos, not_lt.mp hunder⟩, hexpiry⟩
            · intro hvalid
              obtain ⟨-, hnetwork, hasset, hpayTo⟩ := honly hvalid
              exact ⟨hnetwork.symm, hasset.symm, hpayTo.symm, hvalid.unexpired⟩

/-! ## The order of the policy -/

/-- An offer with the amount it is compared by. -/
def keyed (offer : EvaluatedOpenX402Offer) : Int × EvaluatedOpenX402Offer :=
  (offer.amount?.getD 0, offer)

/-- The policy's `left` does not come after `right`. -/
def notAfter (localeCompare : String → String → Ordering)
    (left right : Int × EvaluatedOpenX402Offer) : Bool :=
  compareOffers localeCompare left right ≠ .gt

theorem lowest_eq {evaluated : List EvaluatedOpenX402Offer}
    (hread : ∀ offer ∈ evaluated, offer.validation.valid = true → offer.amount?.isSome = true) :
    lowestValidOpenX402Offer localeCompare evaluated = .ok
      (((((evaluated.filter fun offer => offer.validation.valid).map keyed).mergeSort
        (notAfter localeCompare)).head?).map Prod.snd) := by
  have hread : ∀ offer ∈ evaluated.filter fun offer => offer.validation.valid,
      offer.amount?.isSome = true := by
    intro offer hoffer
    obtain ⟨hmem, hvalid⟩ := List.mem_filter.mp hoffer
    exact hread offer hmem hvalid
  unfold lowestValidOpenX402Offer
  generalize (evaluated.filter fun offer => offer.validation.valid) = valid at hread
  have hkeyed : (valid.mapM fun offer => do
      return (← bigIntOfText offer.quotedAmountBaseUnits, offer) :
        Except Thrown (List (Int × EvaluatedOpenX402Offer))) = .ok (valid.map keyed) := by
    refine mapM_ok fun offer hoffer => ?_
    obtain ⟨amount, hamount⟩ := Option.isSome_iff_exists.mp (hread offer hoffer)
    have hquoted : bigIntText? offer.quotedAmountBaseUnits = some amount := hamount
    rw [bigIntOfText, hquoted, keyed, hamount]
    rfl
  split
  · rw [List.map_nil, List.mergeSort_nil]
    rfl
  · rw [List.map_singleton, List.mergeSort_singleton]
    rfl
  · rw [hkeyed, bind_ok]
    rfl

/-- The policy orders offers of distinct bidders. -/
theorem policy_orders {valid : List EvaluatedOpenX402Offer}
    (hnames : ComparesTotally localeCompare
      (comparedNames (valid.map EvaluatedOpenX402Offer.toOpenX402Offer)))
    (hbidders : (valid.map fun offer => offer.bidder).Nodup) :
    Orders (notAfter localeCompare) (valid.map keyed) := by
  have hnamed : ∀ k ∈ valid.map keyed, k.2 ∈ valid := by
    intro k hk
    obtain ⟨offer, hoffer, rfl⟩ := List.mem_map.mp hk
    exact hoffer
  have hresource : ∀ k ∈ valid.map keyed, k.2.resourceId ∈
      comparedNames (valid.map EvaluatedOpenX402Offer.toOpenX402Offer) := fun k hk =>
    List.mem_flatMap.mpr ⟨_, List.mem_map_of_mem (hnamed k hk), by simp⟩
  have hbidder : ∀ k ∈ valid.map keyed, k.2.bidder ∈
      comparedNames (valid.map EvaluatedOpenX402Offer.toOpenX402Offer) := fun k hk =>
    List.mem_flatMap.mpr ⟨_, List.mem_map_of_mem (hnamed k hk), by simp⟩
  have hcompares : Compares (compareOffers localeCompare) (valid.map keyed) :=
    ((Compares.compare Prod.fst).then (hnames.toCompares.on hresource)).then
      (hnames.toCompares.on hbidder)
  refine hcompares.orders fun j hj k hk heq => ?_
  -- only the bidder can make the comparison a tie
  have hlast : localeCompare j.2.bidder k.2.bidder = .eq := by
    rw [compareOffers, Ordering.then_eq_eq] at heq
    exact heq.2
  have hsame := (hnames.eq _ (hbidder j hj) _ (hbidder k hk)).mp hlast
  have hoffer := List.inj_on_of_nodup_map hbidders (hnamed j hj) (hnamed k hk) hsame
  obtain ⟨offer, -, rfl⟩ := List.mem_map.mp hj
  obtain ⟨other, -, rfl⟩ := List.mem_map.mp hk
  exact congrArg keyed hoffer

/-! ## The selection -/

/-- An offer with the result of its checks. -/
def evaluate (resources : List OpenX402Resource) (maximumText : String) (now : Option Number)
    (offer : OpenX402Offer) : EvaluatedOpenX402Offer :=
  { offer with
    validation := (validateOpenX402Offer offer resources maximumText now).toOption.getD
      (invalid .invalidAmount "") }

theorem evaluate_spec (hresources : (resources.map OpenX402Resource.id).Nodup)
    (hmaximum : bigIntText? maximumText = some maximum) (offer : OpenX402Offer) :
    validateOpenX402Offer offer resources maximumText now =
      .ok (evaluate resources maximumText now offer).validation ∧
    ((evaluate resources maximumText now offer).validation.valid = true ↔
      offer.Valid resources maximum now) := by
  obtain ⟨validation, hvalidation, hvalid⟩ :=
    @validate_spec resources maximumText maximum now offer hresources hmaximum
  have heval : (evaluate resources maximumText now offer).validation = validation := by
    rw [evaluate, hvalidation]
    rfl
  rw [heval]
  exact ⟨hvalidation, hvalid⟩

/-- The valid offers, as the policy sorts them. -/
def candidates (resources : List OpenX402Resource) (maximumText : String) (now : Option Number)
    (offers : List OpenX402Offer) : List (Int × EvaluatedOpenX402Offer) :=
  ((offers.map (evaluate resources maximumText now)).filter
    fun offer => offer.validation.valid).map keyed

theorem mem_candidates (hresources : (resources.map OpenX402Resource.id).Nodup)
    (hmaximum : bigIntText? maximumText = some maximum) {k : Int × EvaluatedOpenX402Offer} :
    k ∈ candidates resources maximumText now offers ↔
      ∃ offer ∈ offers, offer.Valid resources maximum now ∧
        k = keyed (evaluate resources maximumText now offer) := by
  simp only [candidates, List.mem_map, List.mem_filter]
  constructor
  · rintro ⟨_, ⟨⟨offer, hoffer, rfl⟩, hvalid⟩, rfl⟩
    exact ⟨offer, hoffer, (evaluate_spec hresources hmaximum offer).2.mp hvalid, rfl⟩
  · rintro ⟨offer, hoffer, hvalid, rfl⟩
    exact ⟨_, ⟨⟨offer, hoffer, rfl⟩, (evaluate_spec hresources hmaximum offer).2.mpr hvalid⟩, rfl⟩

theorem select_eq (hresources : (resources.map OpenX402Resource.id).Nodup)
    (hmaximum : bigIntText? maximumText = some maximum) :
    evaluateAndSelectOpenX402Offer localeCompare offers resources maximumText now = .ok
      ⟨offers.map (evaluate resources maximumText now),
        ((candidates resources maximumText now offers).mergeSort
          (notAfter localeCompare)).head?.map Prod.snd, "lowest-valid-offer-v1"⟩ := by
  have hevaluated : (offers.mapM fun offer => do
      return ({ offer with
        validation := ← validateOpenX402Offer offer resources maximumText now } :
          EvaluatedOpenX402Offer) : Except Thrown (List EvaluatedOpenX402Offer)) =
      .ok (offers.map (evaluate resources maximumText now)) := by
    refine mapM_ok fun offer _ => ?_
    rw [(evaluate_spec hresources hmaximum offer).1]
    rfl
  have hread : ∀ offer ∈ offers.map (evaluate resources maximumText now),
      offer.validation.valid = true → offer.amount?.isSome = true := by
    intro evaluated hmem hvalid
    obtain ⟨offer, -, rfl⟩ := List.mem_map.mp hmem
    obtain ⟨amount, hamount, -⟩ :=
      ((evaluate_spec hresources hmaximum offer).2.mp hvalid).allowed
    exact Option.isSome_iff_exists.mpr ⟨amount, hamount⟩
  rw [evaluateAndSelectOpenX402Offer, hevaluated, bind_ok, lowest_eq hread, bind_ok]
  rfl

theorem ComparesTotally.of_subset {names names' : List String}
    (h : ComparesTotally localeCompare names) (hsub : ∀ a ∈ names', a ∈ names) :
    ComparesTotally localeCompare names' where
  swap a ha b hb := h.swap a (hsub a ha) b (hsub b hb)
  trans a ha b hb c hc := h.trans a (hsub a ha) b (hsub b hb) c (hsub c hc)
  eq a ha b hb := h.eq a (hsub a ha) b (hsub b hb)

theorem candidates_order (hbidders : (offers.map OpenX402Offer.bidder).Nodup)
    (hnames : ComparesTotally localeCompare (comparedNames offers)) :
    Orders (notAfter localeCompare) (candidates resources maximumText now offers) := by
  have hoffers : (offers.map (evaluate resources maximumText now)).map
      EvaluatedOpenX402Offer.toOpenX402Offer = offers := by
    rw [List.map_map]
    exact List.map_id offers
  have hsub := List.filter_sublist (p := fun offer : EvaluatedOpenX402Offer =>
      offer.validation.valid)
    (l := offers.map (evaluate resources maximumText now))
  refine policy_orders (hnames.of_subset fun name hname => ?_) ?_
  · obtain ⟨offer, hoffer, hname⟩ := List.mem_flatMap.mp hname
    have hmem := (hsub.map EvaluatedOpenX402Offer.toOpenX402Offer).subset hoffer
    rw [hoffers] at hmem
    exact List.mem_flatMap.mpr ⟨offer, hmem, hname⟩
  · refine List.Nodup.sublist (hsub.map fun offer => offer.bidder) ?_
    rw [List.map_map]
    exact hbidders

/-- **The lowest valid offer.** With distinct bidders and resources the default policy selects
nothing just when no offer is valid, and otherwise a valid offer that no valid one quotes below;
in every order of the offers it is the same. -/
theorem selection_minimal (localeCompare : String → String → Ordering)
    (offers : List OpenX402Offer) (resources : List OpenX402Resource) (maximumText : String)
    (maximum : Int) (now : Option Number)
    (hbidders : (offers.map OpenX402Offer.bidder).Nodup)
    (hresources : (resources.map OpenX402Resource.id).Nodup)
    (hmaximum : bigIntText? maximumText = some maximum)
    (hnames : ComparesTotally localeCompare (comparedNames offers)) :
    ∃ evaluated selected, evaluateAndSelectOpenX402Offer localeCompare offers resources
        maximumText now = .ok ⟨evaluated, selected, "lowest-valid-offer-v1"⟩ ∧
      (selected = none ↔ ∀ offer ∈ offers, ¬ offer.Valid resources maximum now) ∧
      (∀ best, selected = some best → best.toOpenX402Offer ∈ offers ∧
        best.validation.valid = true ∧ best.Valid resources maximum now ∧
        ∀ offer ∈ offers, offer.Valid resources maximum now →
          ∀ lowest amount, best.amount? = some lowest → offer.amount? = some amount →
            lowest ≤ amount) ∧
      ∀ offers', offers'.Perm offers → ∃ evaluated', evaluateAndSelectOpenX402Offer localeCompare
        offers' resources maximumText now =
          .ok ⟨evaluated', selected, "lowest-valid-offer-v1"⟩ := by
  have horder : Orders (notAfter localeCompare) (candidates resources maximumText now offers) :=
    candidates_order hbidders hnames
  refine ⟨_, _, select_eq hresources hmaximum, ?_, ?_, ?_⟩
  · rw [Option.map_eq_none_iff, List.head?_eq_none_iff, ← List.length_eq_zero_iff,
      List.length_mergeSort, List.length_eq_zero_iff, List.eq_nil_iff_forall_not_mem]
    constructor
    · intro hnone offer hoffer hvalid
      exact hnone _ ((mem_candidates hresources hmaximum).mpr ⟨offer, hoffer, hvalid, rfl⟩)
    · intro hnone k hk
      obtain ⟨offer, hoffer, hvalid, -⟩ := (mem_candidates hresources hmaximum).mp hk
      exact hnone offer hoffer hvalid
  · intro best hbest
    obtain ⟨k, hhead, rfl⟩ := Option.map_eq_some_iff.mp hbest
    obtain ⟨hk, hleast⟩ := horder.head?_eq_some.mp hhead
    obtain ⟨offer, hoffer, hvalid, rfl⟩ := (mem_candidates hresources hmaximum).mp hk
    refine ⟨hoffer, (evaluate_spec hresources hmaximum offer).2.mpr hvalid, hvalid, ?_⟩
    intro other hother hothervalid lowest amount hlowest hamount
    have hle := hleast _ ((mem_candidates hresources hmaximum).mpr
      ⟨other, hother, hothervalid, rfl⟩)
    simp only [notAfter, compareOffers, decide_eq_true_eq, then_ne_gt] at hle
    have hamounts := hle.1.1
    rw [ne_eq, compare_gt_iff_gt, not_lt] at hamounts
    have hfirst : (keyed (evaluate resources maximumText now offer)).1 = lowest :=
      congrArg (Option.getD · 0) hlowest
    have hsecond : (keyed (evaluate resources maximumText now other)).1 = amount :=
      congrArg (Option.getD · 0) hamount
    rwa [hfirst, hsecond] at hamounts
  · intro offers' hperm
    have hsame : ∀ k, k ∈ candidates resources maximumText now offers ↔
        k ∈ candidates resources maximumText now offers' := by
      intro k
      rw [mem_candidates hresources hmaximum, mem_candidates hresources hmaximum]
      simp only [hperm.mem_iff]
    rw [select_eq hresources hmaximum, horder.head?_congr hsame]
    exact ⟨_, rfl⟩

end

namespace SampleOffers

def resource : OpenX402Resource := ⟨"atlas", "Atlas", "testnet", "USDC", "payee", "m", "d"⟩

def offer (bidder amount : String) : OpenX402Offer :=
  ⟨bidder, "Atlas", "atlas", "d", amount, "testnet", "USDC", "payee", some 45, "terms", some 2000,
    some "m"⟩

/-- Orders texts by their length. -/
def localeCompare (a b : String) : Ordering := compare a.length b.length

end SampleOffers

open SampleOffers in
theorem selection_minimal_sample :
    ∃ evaluated selected, evaluateAndSelectOpenX402Offer SampleOffers.localeCompare
      [offer "GA" "0x20", offer "GAB" " 30", offer "G" "030"] [resource] "40" (some 1000) =
        .ok ⟨evaluated, selected, "lowest-valid-offer-v1"⟩ := by
  have hnames : ComparesTotally SampleOffers.localeCompare (comparedNames
      [offer "GA" "0x20", offer "GAB" " 30", offer "G" "030"]) :=
    ⟨⟨by decide, by decide⟩, by decide⟩
  obtain ⟨evaluated, selected, hselect, -⟩ := selection_minimal SampleOffers.localeCompare
    [offer "GA" "0x20", offer "GAB" " 30", offer "G" "030"] [resource] "40" 40 (some 1000)
    (by decide) (by decide) (by decide) hnames
  exact ⟨evaluated, selected, hselect⟩

end SubRosa.OpenX402
