import SubRosa.Sdk.Freshness
import SubRosa.Sdk.VerifyV2
import SubRosa.Auction.Script

/-!
# One Drand schedule

The SDK's schedule in doubles, the contract's in saturating `u64` and the
receipt verifier's in big integers agree wherever the SDK answers. The
contract's departs from the exact one for round zero and past `u64`, and no
round can be created there.
-/

namespace SubRosa

open Invocation MachineInt JavaScript Sdk

/-! ## In doubles -/

section

variable {round genesis period : ℤ}

theorem sub_one (hround : 1 ≤ round) (hsafe : round ≤ 2 ^ 53 - 1) :
    Number.sub (some (.finite round)) (some 1) = some (.finite (round - 1 : ℤ)) := by
  have hadd : Number.sub (some (.finite round)) (some 1) =
      some (Number.ofExact ((round : ℚ) + -((1 : ℕ) : ℚ))) := rfl
  have hcast : (round : ℚ) + -((1 : ℕ) : ℚ) = ((round - 1 : ℤ) : ℚ) := by
    push_cast
    ring
  have hsmall : |round - 1| ≤ 2 ^ 53 := abs_le.mpr ⟨by omega, by omega⟩
  rw [hadd, hcast, Number.ofExact_intCast hsmall]

/-- A schedule that is safe is exact. -/
theorem schedule_exact (hround : 1 ≤ round) (hsafe : round ≤ 2 ^ 53 - 1) (hgenesis : 0 ≤ genesis)
    (hperiod : 0 < period) (htime : genesis + period * (round - 1) ≤ 2 ^ 53 - 1) :
    Number.add (some (.finite genesis)) (Number.mul (some (.finite period))
      (Number.sub (some (.finite round)) (some 1))) =
        some (.finite (genesis + period * (round - 1) : ℤ)) := by
  have hproduct : 0 ≤ period * (round - 1) := mul_nonneg hperiod.le (by omega)
  have hsmall : |period * (round - 1)| ≤ 2 ^ 53 := abs_le.mpr ⟨by omega, by omega⟩
  have hsum : |genesis + period * (round - 1)| ≤ 2 ^ 53 := abs_le.mpr ⟨by omega, by omega⟩
  rw [sub_one hround hsafe, Number.mul, ← Int.cast_mul, Number.ofExact_intCast hsmall, Number.add,
    ← Int.cast_add, Number.ofExact_intCast hsum]

/-- A schedule past the safe integers is not safe in doubles either. -/
theorem schedule_unsafe (hround : 1 ≤ round) (hsafe : round ≤ 2 ^ 53 - 1) (hgenesis : 0 ≤ genesis)
    (hperiod : 0 < period) (htime : 2 ^ 53 - 1 < genesis + period * (round - 1)) :
    Number.isSafe (Number.add (some (.finite genesis)) (Number.mul (some (.finite period))
      (Number.sub (some (.finite round)) (some 1)))) = false := by
  have hproduct : 0 ≤ period * (round - 1) := mul_nonneg hperiod.le (by omega)
  have hgenesis : (0 : ℚ) ≤ genesis := by exact_mod_cast hgenesis
  rw [sub_one hround hsafe, Number.mul, ← Int.cast_mul]
  by_cases hsmall : period * (round - 1) ≤ 2 ^ 53
  · have hlarge : (2 : ℚ) ^ 53 ≤ (genesis + period * (round - 1) : ℤ) := by
      exact_mod_cast (by omega : (2 : ℤ) ^ 53 ≤ genesis + period * (round - 1))
    rw [Number.ofExact_intCast (abs_le.mpr ⟨by omega, hsmall⟩), Number.add, ← Int.cast_add]
    exact Number.isSafe_large hlarge
  · have hlarge : (2 : ℚ) ^ 53 ≤ (period * (round - 1) : ℤ) := by
      exact_mod_cast (by omega : (2 : ℤ) ^ 53 ≤ period * (round - 1))
    rcases Number.ofExact_large hlarge with hinf | ⟨r, hr, hr'⟩
    · rw [hinf]
      rfl
    · rw [hr, Number.add]
      exact Number.isSafe_large (by linarith)

end

/-- What `drandRoundTime` accepts, and what it returns for it. -/
theorem drandRoundTime_eq_ok {round : Option Number} {info : DrandRoundInfo} {t : Option Number} :
    drandRoundTime round info = .ok t ↔ ∃ R genesis period : ℤ,
      round = some (.finite R) ∧ info = ⟨some (.finite genesis), some (.finite period)⟩ ∧
      1 ≤ R ∧ R ≤ 2 ^ 53 - 1 ∧ 0 ≤ genesis ∧ genesis ≤ 2 ^ 53 - 1 ∧
      0 < period ∧ period ≤ 2 ^ 53 - 1 ∧
      genesis + period * (R - 1) ≤ 2 ^ 53 - 1 ∧
      t = some (.finite (genesis + period * (R - 1) : ℤ)) := by
  have hless : ∀ (m : ℤ) (n : ℕ), Number.less (some (.finite m)) (some (.finite n)) = true ↔
      m < n := by
    intro m n
    simp only [Number.less, Number.lt, decide_eq_true_eq]
    exact_mod_cast Iff.rfl
  have hless' : ∀ (m : ℤ) (n : ℕ), Number.less (some (.finite n)) (some (.finite m)) = true ↔
      (n : ℤ) < m := by
    intro m n
    simp only [Number.less, Number.lt, decide_eq_true_eq]
    exact_mod_cast Iff.rfl
  obtain ⟨genesisTime, periodTime⟩ := info
  unfold drandRoundTime
  simp only [throwIf_bind_eq_ok, not_or, not_not, Number.isSafe_iff]
  constructor
  · rintro ⟨⟨⟨R, rfl, hR⟩, hR1⟩, ⟨⟨genesis, rfl, hg⟩, hg0, ⟨period, rfl, hp⟩, hp0⟩, hsafe, ht⟩
    have hR1 : ¬ R < (1 : ℕ) := fun h => hR1 ((hless R 1).mpr h)
    have hg0 : ¬ genesis < (0 : ℕ) := fun h => hg0 ((hless genesis 0).mpr h)
    have hp0 : ((0 : ℕ) : ℤ) < period := (hless' period 0).mp hp0
    have hR := abs_le.mp hR
    have hg := abs_le.mp hg
    have hp := abs_le.mp hp
    have htime : genesis + period * (R - 1) ≤ 2 ^ 53 - 1 := by
      by_contra hlarge
      have hunsafe := schedule_unsafe (by omega) hR.2 (by omega) hp0 (not_le.mp hlarge)
      obtain ⟨n, hn, hsmall⟩ := hsafe
      rw [hn, (Number.isSafe_iff.mpr ⟨n, rfl, hsmall⟩)] at hunsafe
      cases hunsafe
    rw [schedule_exact (by omega) hR.2 (by omega) hp0 htime] at ht
    exact ⟨R, genesis, period, rfl, rfl, by omega, hR.2, by omega, hg.2, hp0, hp.2, htime,
      (Except.ok.inj ht).symm⟩
  · rintro ⟨R, genesis, period, rfl, hinfo, hR, hR', hg, hg', hp, hp', htime, rfl⟩
    injection hinfo with hgenesis hperiod
    subst hgenesis hperiod
    rw [schedule_exact hR hR' hg hp htime]
    have hproduct : 0 ≤ period * (R - 1) := mul_nonneg hp.le (by omega)
    refine ⟨⟨⟨R, rfl, abs_le.mpr ⟨by omega, hR'⟩⟩, fun h => ?_⟩,
      ⟨⟨genesis, rfl, abs_le.mpr ⟨by omega, hg'⟩⟩, fun h => ?_,
        ⟨period, rfl, abs_le.mpr ⟨by omega, hp'⟩⟩, (hless' period 0).mpr hp⟩,
      ⟨_, rfl, abs_le.mpr ⟨by omega, htime⟩⟩, rfl⟩
    · have hlt : R < (1 : ℕ) := (hless R 1).mp h
      omega
    · have hlt : genesis < (0 : ℕ) := (hless genesis 0).mp h
      omega

/-! ## On the ledger -/

section

variable {config : GlobalConfig} {R : UInt64}

/-- The round a creation schedules its reveal on. -/
def Call.createsFor : Call → Option UInt64
  | .createRound args => some args.revealRound
  | .createRoundV2 args _ => some args.revealRound
  | .createPartnerRoundV2 args _ => some args.revealRound
  | .createRoundV3 args _ => some args.revealRound
  | _ => none

/-- A creation that succeeds has the exact schedule. -/
theorem creation_exact {host : Host} {tx : Transaction} {w : World} {call : Call} {o : Outcome}
    (hc : w.store.config = some config) (hcall : call.createsFor = some R)
    (h : invoke host tx call w = .ok o) :
    R ≠ 0 ∧ ((timeOfRound config R).toNat : Int) = exactTimeOfRound config R := by
  have hy := invoke_eq_ok.mp h
  cases call <;> simp only [Call.createsFor, Option.some.injEq, reduceCtorEq] at hcall
  case createRound args =>
    subst hcall
    obtain ⟨id, hy, -⟩ := (yields_map ..).mp hy
    obtain ⟨-, hround, -, -, hdrand, -⟩ := (yields_createRound hc args _).mp hy
    exact ⟨hround, timeOfRound_exact hround hdrand⟩
  case createRoundV2 args settlement =>
    subst hcall
    obtain ⟨id, hy, -⟩ := (yields_map ..).mp hy
    have hacc := ((yields_createRoundV2Impl hc args settlement none _).mp hy).1
    exact ⟨hacc.revealRound, timeOfRound_exact hacc.revealRound hacc.afterDrand⟩
  case createPartnerRoundV2 args policy =>
    subst hcall
    obtain ⟨id, hy, -⟩ := (yields_map ..).mp hy
    have hacc := ((yields_createRoundV2Impl hc args policy.settlement (some policy) _).mp hy).1
    exact ⟨hacc.revealRound, timeOfRound_exact hacc.revealRound hacc.afterDrand⟩
  case createRoundV3 args policy =>
    subst hcall
    obtain ⟨id, hy, -⟩ := (yields_map ..).mp hy
    have hacc := ((yields_createRoundV3 hc args policy _).mp hy).2.1
    exact ⟨hacc.revealRound, timeOfRound_exact hacc.revealRound hacc.afterDrand⟩

/-- The contract and the verifier of receipts compute a schedule that fits. -/
theorem contract_schedule {round genesis period : ℤ} (hround : 1 ≤ round)
    (hround' : round ≤ 2 ^ 53 - 1) (hgenesis : 0 ≤ genesis) (hgenesis' : genesis ≤ 2 ^ 53 - 1)
    (hperiod : 0 < period) (hperiod' : period ≤ 2 ^ 53 - 1)
    (htime : genesis + period * (round - 1) ≤ 2 ^ 53 - 1) :
    ∃ R g p : UInt64, (R.toNat : ℤ) = round ∧ (g.toNat : ℤ) = genesis ∧ (p.toNat : ℤ) = period ∧
      ∀ config : GlobalConfig, config.drandGenesis = g → config.drandPeriod = p →
        ((timeOfRound config R).toNat : ℤ) = genesis + period * (round - 1) := by
  have hword : ∀ n : ℤ, 0 ≤ n → n ≤ 2 ^ 53 - 1 → ∃ u : UInt64, (u.toNat : ℤ) = n := by
    intro n h0 h1
    refine ⟨UInt64.ofNat n.toNat, ?_⟩
    rw [UInt64.toNat_ofNat_of_lt' (by show n.toNat < 2 ^ 64; omega)]
    exact Int.toNat_of_nonneg h0
  obtain ⟨R, hR⟩ := hword round (by omega) hround'
  obtain ⟨g, hg⟩ := hword genesis hgenesis hgenesis'
  obtain ⟨p, hp⟩ := hword period hperiod.le hperiod'
  refine ⟨R, g, p, hR, hg, hp, ?_⟩
  rintro config rfl rfl
  have hexact : exactTimeOfRound config R = genesis + period * (round - 1) := by
    rw [exactTimeOfRound, hR, hg, hp]
  have hne : R ≠ 0 := by
    rintro rfl
    rw [UInt64.toNat_zero] at hR
    omega
  rw [timeOfRound_eq hne (by omega), hexact]

theorem privacyTime_schedule {r : String → JsValue} {round genesis period : ℤ}
    (hround : 1 ≤ round) (hround' : round ≤ 2 ^ 53 - 1) (hgenesis : 0 ≤ genesis)
    (hperiod : 0 < period) (hg : decimal (r "drandGenesis") = some genesis)
    (hp : decimal (r "drandPeriod") = some period)
    (hr : r "revealRound" = some (.num (.finite round))) :
    privacyTime r = some (genesis + period * (round - 1)) := by
  have hsafe : isSafePositive (some (.num (.finite round))) = true := by
    have hlt : (0 : Number).lt (.finite round) = true := by
      show decide (((0 : ℕ) : ℚ) < round) = true
      rw [decide_eq_true_eq]
      exact_mod_cast hround
    rw [isSafePositive, hlt, (Number.isSafeInteger_intCast round).mpr (abs_le.mpr
      ⟨by omega, hround'⟩)]
    rfl
  rw [privacyTime, hg, hp, hr]
  dsimp only
  rw [if_pos ⟨hgenesis, hperiod, hsafe⟩]
  simp [Number.toInt]

end

/-- Where `drandRoundTime` answers, the contract and the verifier give the same
second, and it throws where the exact second is no safe integer. The contract's
second differs from the exact one only for round zero and from `2 ^ 64` on, and
no round is created there. -/
theorem one_schedule :
    (∀ (round : Option Number) (info : DrandRoundInfo) (t : Option Number),
      drandRoundTime round info = .ok t →
      ∃ R genesis period : UInt64,
        round = some (.finite R.toNat) ∧
        info = ⟨some (.finite genesis.toNat), some (.finite period.toNat)⟩ ∧
        (∀ config : GlobalConfig, config.drandGenesis = genesis → config.drandPeriod = period →
          t = some (.finite (timeOfRound config R).toNat)) ∧
        (∀ r : String → JsValue, decimal (r "drandGenesis") = some (genesis.toNat : Int) →
          decimal (r "drandPeriod") = some (period.toNat : Int) →
          r "revealRound" = some (.num (.finite R.toNat)) →
          ∃ n : Int, privacyTime r = some n ∧ t = some (.finite n))) ∧
    (∀ round genesis period : ℚ,
      (Number.finite (genesis + period * (round - 1))).isSafeInteger = false →
      ∃ e, drandRoundTime (some (.finite round))
        ⟨some (.finite genesis), some (.finite period)⟩ = .error e) ∧
    (∀ (config : GlobalConfig) (R : UInt64),
      ((timeOfRound config R).toNat : Int) ≠ exactTimeOfRound config R →
      (R = 0 ∨ 2 ^ 64 ≤ exactTimeOfRound config R) ∧
      ∀ (host : Host) (tx : Transaction) (w : World) (call : Call),
        w.store.config = some config → call.createsFor = some R →
        ∃ e, invoke host tx call w = .error e) := by
  refine ⟨?_, ?_, ?_⟩
  · intro round info t h
    obtain ⟨n, g, p, rfl, rfl, hn, hn', hg, hg', hp, hp', htime, rfl⟩ := drandRoundTime_eq_ok.mp h
    obtain ⟨R, genesis, period, rfl, rfl, rfl, hcontract⟩ :=
      contract_schedule hn hn' hg hg' hp hp' htime
    refine ⟨R, genesis, period, rfl, rfl, ?_, ?_⟩
    · intro config hgenesis hperiod
      rw [← hcontract config hgenesis hperiod]
      rfl
    · intro r hgenesis hperiod hround
      exact ⟨_, privacyTime_schedule hn hn' hg hp hgenesis hperiod hround, rfl⟩
  · intro round genesis period hunsafe
    cases h : drandRoundTime (some (.finite round))
      ⟨some (.finite genesis), some (.finite period)⟩ with
    | error e => exact ⟨e, rfl⟩
    | ok t =>
      obtain ⟨R, g, p, hround, hinfo, hR, hR', hg, hg', hp, hp', htime, ht⟩ :=
        drandRoundTime_eq_ok.mp h
      obtain rfl : round = R := by simpa using hround
      obtain ⟨rfl, rfl⟩ : genesis = g ∧ period = p := by simpa using hinfo
      have hproduct : 0 ≤ p * (R - 1) := mul_nonneg hp.le (by omega)
      have hsafe := (Number.isSafeInteger_intCast (g + p * (R - 1))).mpr
        (abs_le.mpr ⟨by omega, htime⟩)
      push_cast at hsafe
      rw [hsafe] at hunsafe
      cases hunsafe
  · intro config R hdiffers
    refine ⟨?_, ?_⟩
    · by_contra hnot
      rw [not_or, not_le] at hnot
      exact hdiffers (timeOfRound_eq hnot.1 hnot.2)
    · intro host tx w call hc hcall
      cases h : invoke host tx call w with
      | error e => exact ⟨e, rfl⟩
      | ok o => exact absurd (creation_exact hc hcall h).2 hdiffers

/-- Round 3 of the sample is released at second 1060, a round beyond the safe integers has no
time, and no round is created with round zero. -/
theorem one_schedule_sample :
    timeOfRound Sample.config 3 = 1060 ∧
    (∃ e, drandRoundTime (some (.finite (2 ^ 53))) ⟨some (.finite 1000), some (.finite 30)⟩ =
      .error e) ∧
    ∃ e, invoke Sample.host (Sample.tx Sample.operator 1000)
      (.createRound { Sample.args with revealRound := 0 }) Sample.deployed.world = .error e := by
  obtain ⟨hanswers, hunsafe, hdiffers⟩ := one_schedule
  refine ⟨?_, hunsafe _ _ _ (by decide +kernel), ?_⟩
  · obtain ⟨R, genesis, period, hround, hinfo, hcontract, -⟩ := hanswers (some (.finite (3 : ℕ)))
      ⟨some (.finite (1000 : ℕ)), some (.finite (30 : ℕ))⟩ (some (.finite (1060 : ℕ)))
      (by decide +kernel)
    have hword : ∀ {n : ℕ} {u : UInt64}, some (Number.finite (n : ℕ)) = some (.finite u.toNat) →
        u.toNat = n :=
      fun h => (Nat.cast_inj.mp (Number.finite.inj (Option.some_inj.mp h))).symm
    obtain ⟨hgenesis, hperiod⟩ := DrandRoundInfo.mk.inj hinfo
    obtain rfl : R = 3 := UInt64.toNat_inj.mp (hword hround)
    obtain rfl : genesis = 1000 := UInt64.toNat_inj.mp (hword hgenesis)
    obtain rfl : period = 30 := UInt64.toNat_inj.mp (hword hperiod)
    exact UInt64.toNat_inj.mp (hword (hcontract Sample.config rfl rfl))
  · exact (hdiffers Sample.config 0 (by decide)).2 _ _ _ _ rfl rfl

/-- Round zero is put at genesis, a period after its exact second. -/
theorem one_schedule_fails :
    ¬ ∀ (config : GlobalConfig) (R : UInt64),
      ((timeOfRound config R).toNat : Int) ≠ exactTimeOfRound config R →
      2 ^ 64 ≤ exactTimeOfRound config R := by
  intro h
  have hzero := h Sample.config 0 (by decide)
  revert hzero
  decide

end SubRosa
