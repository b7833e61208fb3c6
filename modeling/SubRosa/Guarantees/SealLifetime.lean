import SubRosa.Auction.Script

/-!
# How long a seal stays readable

`seal_ttl_for_reveal_deadline` against the lifetime it stands for, computed
over unbounded integers. The narrowing to 32 bits comes before the cap, so a
deadline some centuries away can leave a seal with any lifetime at all. Within
58 days the seal outlives the deadline.
-/

namespace SubRosa

open MachineInt

/-- The lifetime of a seal in ledgers, over unbounded integers. -/
def exactSealTtl (revealDeadline now : Nat) : Nat :=
  min (max ((revealDeadline - now + postRevealSealBufferSecs.toNat) / ledgerCloseSecs.toNat)
    tempThreshold.toNat) persistentBump.toNat

/-- The ledgers up to the end of the buffer, before they are narrowed to 32 bits. -/
def ledgersToBuffer (revealDeadline now : Nat) : Nat :=
  min (revealDeadline - now + postRevealSealBufferSecs.toNat) (2 ^ 64 - 1) / ledgerCloseSecs.toNat

/-- What the narrowing leaves of the ledgers is still cut off by the cap. -/
def SurvivesNarrowing (revealDeadline now : Nat) : Prop :=
  ledgersToBuffer revealDeadline now < 2 ^ 32 ∨
    persistentBump.toNat ≤ ledgersToBuffer revealDeadline now % 2 ^ 32

/-- With a ledger every five seconds, an entry held at `env` is readable in
every ledger that closes by `deadline`. -/
def SealEntry.LastsUntil (env : Env) (deadline : UInt64) (e : SealEntry) : Prop :=
  ∀ later : Env, later.timestamp.toNat = env.timestamp.toNat +
    ledgerCloseSecs.toNat * (later.sequence - env.sequence) →
    later.timestamp ≤ deadline → e.readable later

/-- 58 days in seconds. -/
def readableDays : Nat := 58 * 86400

section

variable {d d' now : UInt64}

theorem ledgersPerDay_eq : ledgersPerDay.toNat = 17280 := rfl
theorem ledgerCloseSecs_eq : ledgerCloseSecs.toNat = 5 := rfl
theorem buffer_eq : postRevealSealBufferSecs.toNat = 86400 := rfl
theorem persistentBump_eq : persistentBump.toNat = 1036800 := rfl
theorem tempThreshold_eq : tempThreshold.toNat = 34560 := rfl

theorem readableDays_eq : readableDays = 5011200 := rfl

theorem toNat_sealTtl (d now : UInt64) : (sealTtlForRevealDeadline d now).toNat =
    min (max (ledgersToBuffer d.toNat now.toNat) tempThreshold.toNat % 2 ^ 32)
      persistentBump.toNat := by
  simp only [sealTtlForRevealDeadline, UInt32.toNat_min, UInt64.toNat_toUInt32, UInt64.toNat_max,
    UInt64.toNat_div, saturatingAdd_toNat, saturatingSub_toNat, UInt32.toNat_toUInt64,
    ledgersToBuffer]

/-- The cap hides the saturation of the addition. -/
theorem exactSealTtl_eq (d now : Nat) : exactSealTtl d now =
    min (max (ledgersToBuffer d now) tempThreshold.toNat) persistentBump.toNat := by
  unfold exactSealTtl ledgersToBuffer
  rw [ledgerCloseSecs_eq, buffer_eq, persistentBump_eq, tempThreshold_eq]
  omega

theorem exactSealTtl_bounds (d now : Nat) :
    tempThreshold.toNat ≤ exactSealTtl d now ∧ exactSealTtl d now ≤ persistentBump.toNat := by
  unfold exactSealTtl
  rw [persistentBump_eq, tempThreshold_eq]
  omega

theorem exactSealTtl_mono {d d' : Nat} (h : d ≤ d') (now : Nat) :
    exactSealTtl d now ≤ exactSealTtl d' now := by
  unfold exactSealTtl
  rw [ledgerCloseSecs_eq, buffer_eq, persistentBump_eq, tempThreshold_eq]
  omega

theorem sealTtl_eq_iff : (sealTtlForRevealDeadline d now).toNat = exactSealTtl d.toNat now.toNat ↔
    SurvivesNarrowing d.toNat now.toNat := by
  rw [toNat_sealTtl, exactSealTtl_eq, SurvivesNarrowing, persistentBump_eq, tempThreshold_eq]
  generalize ledgersToBuffer d.toNat now.toNat = ledgers
  omega

/-- A deadline at most 58 days away survives the narrowing. -/
theorem survives_of_days (h : d.toNat ≤ now.toNat + readableDays) :
    SurvivesNarrowing d.toNat now.toNat := by
  refine Or.inl ?_
  unfold ledgersToBuffer
  unfold readableDays at h
  rw [ledgerCloseSecs_eq, buffer_eq]
  omega

/-- The threshold leaves at least a day less than the lifetime asked for. -/
theorem le_extendTtl (e : SealEntry) (sequence threshold extendTo : Nat) :
    min (threshold + 1) extendTo ≤
      (e.extendTtl sequence threshold extendTo).liveUntil - sequence := by
  unfold SealEntry.extendTtl
  split
  · show _ ≤ sequence + extendTo - sequence
    omega
  · next h =>
    rw [not_and_or] at h
    omega

theorem le_extendSealTtl (env : Env) (e : SealEntry) (d : UInt64) :
    min ((sealTtlForRevealDeadline d env.timestamp).toNat - ledgersPerDay.toNat + 1)
      (sealTtlForRevealDeadline d env.timestamp).toNat ≤
      (extendSealTtl env e d).liveUntil - env.sequence :=
  le_extendTtl e env.sequence _ _

/-- The day the threshold leaves off is the day of the buffer. -/
theorem reaches_of_lives {ledgers now liveUntil sequence : Nat} (hgap : now - sequence ≤ ledgers)
    (hcap : ledgers ≤ 1002240)
    (h : min (min (max (ledgers + 17280) 34560) 1036800 - 17280 + 1)
      (min (max (ledgers + 17280) 34560) 1036800) ≤ liveUntil - sequence) : now ≤ liveUntil := by
  have huncapped : min (max (ledgers + 17280) 34560) 1036800 = max (ledgers + 17280) 34560 := by
    omega
  rw [huncapped] at h
  omega

/-- A seal extended for a deadline at most 58 days away outlives it. -/
theorem extendSealTtl_lasts {env : Env} (e : SealEntry)
    (h : d.toNat ≤ env.timestamp.toNat + readableDays) :
    (extendSealTtl env e d).LastsUntil env d := by
  intro later hclock hdeadline
  have hbump := sealTtl_eq_iff.mpr (survives_of_days h)
  have hlives := le_extendSealTtl env e d
  have hdeadline : later.timestamp.toNat ≤ d.toNat := UInt64.le_iff_toNat_le.mp hdeadline
  rw [hbump] at hlives
  unfold exactSealTtl at hlives
  rw [ledgerCloseSecs_eq, buffer_eq, persistentBump_eq, tempThreshold_eq, ledgersPerDay_eq]
    at hlives
  rw [ledgerCloseSecs_eq] at hclock
  rw [readableDays_eq] at h
  -- the ledgers to the deadline, and a day more to the end of the buffer
  have hgap : later.sequence - env.sequence ≤ (d.toNat - env.timestamp.toNat) / 5 := by omega
  have hbuffer : (d.toNat - env.timestamp.toNat + 86400) / 5 =
      (d.toNat - env.timestamp.toNat) / 5 + 17280 := by omega
  have hcap : (d.toNat - env.timestamp.toNat) / 5 ≤ 1002240 := by omega
  rw [hbuffer] at hlives
  exact reaches_of_lives hgap hcap hlives

theorem extendSealTtl_readable {env : Env} {e : SealEntry} (h : e.readable env) :
    (extendSealTtl env e d).readable env := by
  unfold SealEntry.readable at h
  have hreach : env.sequence ≤ (extendSealTtl env e d).liveUntil := by
    unfold extendSealTtl SealEntry.extendTtl
    dsimp only
    split
    · show env.sequence ≤ env.sequence + _
      omega
    · exact h
  exact hreach

/-- The loop extends the readable seal of every listed bidder. -/
theorem extendSeals_lasts {env : Env} {b : Address} {bidders : List Address}
    {m : Address → Option SealEntry} {e : SealEntry} (hm : m b = some e) (hread : e.readable env)
    (h : d.toNat ≤ env.timestamp.toNat + readableDays)
    (hb : b ∈ bidders ∨ e.LastsUntil env d) :
    ∃ e', extendSeals env d m bidders b = some e' ∧ e'.LastsUntil env d := by
  induction bidders generalizing m e with
  | nil =>
    have hlasts : e.LastsUntil env d := hb.resolve_left (List.not_mem_nil)
    exact ⟨e, hm, hlasts⟩
  | cons a bidders ih =>
    rw [extendSeals, List.foldl_cons]
    by_cases hab : b = a
    · subst hab
      rw [hm]
      dsimp only
      rw [if_pos hread]
      exact ih (Function.update_self ..) (extendSealTtl_readable hread)
        (Or.inr (extendSealTtl_lasts e h))
    · have hrest : b ∈ bidders ∨ e.LastsUntil env d :=
        hb.imp_left fun hmem => (List.mem_cons.mp hmem).resolve_left hab
      cases ha : m a with
      | none => exact ih hm hread hrest
      | some other =>
        dsimp only
        split
        · exact ih (by rw [Function.update_of_ne hab, hm]) hread hrest
        · exact ih hm hread hrest

/-- The seals that are written, read, or extended when reveals open, outlive a
deadline at most 58 days away. -/
theorem seals_last {env : Env} (s : Store) (id : UInt64) (b : Address)
    (h : d.toNat ≤ env.timestamp.toNat + readableDays) :
    (∀ payload, ∃ e, (s.setSeal env id b payload d).sealed id b = some e ∧ e.LastsUntil env d) ∧
    (∀ payload, ∃ e, (s.setSealV2 env id b payload d).sealedV2 id b = some e ∧
      e.LastsUntil env d) ∧
    (∀ e, s.sealed id b = some e → e.readable env → ∃ s' e',
      s.getSeal env id b d = some (e.payload, s') ∧ s'.sealed id b = some e' ∧
        e'.LastsUntil env d) ∧
    (∀ e, s.sealedV2 id b = some e → e.readable env → ∃ s' e',
      s.getSealV2 env id b d = some (e.payload, s') ∧ s'.sealedV2 id b = some e' ∧
        e'.LastsUntil env d) ∧
    (∀ bidders e, b ∈ bidders → s.sealed id b = some e → e.readable env →
      ∃ e', (s.extendRoundSeals env id bidders d).sealed id b = some e' ∧
        e'.LastsUntil env d) ∧
    (∀ bidders e, b ∈ bidders → s.sealedV2 id b = some e → e.readable env →
      ∃ e', (s.extendRoundSealsV2 env id bidders d).sealedV2 id b = some e' ∧
        e'.LastsUntil env d) := by
  refine ⟨?_, ?_, ?_, ?_, ?_, ?_⟩
  · intro payload
    refine ⟨extendSealTtl env (writeSeal env (s.sealed id b) payload) d, ?_,
      extendSealTtl_lasts _ h⟩
    simp [Store.setSeal]
  · intro payload
    refine ⟨extendSealTtl env (writeSeal env (s.sealedV2 id b) payload) d, ?_,
      extendSealTtl_lasts _ h⟩
    simp [Store.setSealV2]
  · intro e he hread
    have hget : s.getSeal env id b d = some (e.payload, { s with
        sealed := Function.update s.sealed id (Function.update (s.sealed id) b
          (some (extendSealTtl env e d))) }) := by
      rw [Store.getSeal, he]
      exact if_pos hread
    exact ⟨_, _, hget, by simp, extendSealTtl_lasts e h⟩
  · intro e he hread
    have hget : s.getSealV2 env id b d = some (e.payload, { s with
        sealedV2 := Function.update s.sealedV2 id (Function.update (s.sealedV2 id) b
          (some (extendSealTtl env e d))) }) := by
      rw [Store.getSealV2, he]
      exact if_pos hread
    exact ⟨_, _, hget, by simp, extendSealTtl_lasts e h⟩
  · intro bidders e hb he hread
    obtain ⟨e', he', hlasts⟩ := extendSeals_lasts he hread h (Or.inl hb)
    exact ⟨e', by simp [Store.extendRoundSeals, he'], hlasts⟩
  · intro bidders e hb he hread
    obtain ⟨e', he', hlasts⟩ := extendSeals_lasts he hread h (Or.inl hb)
    exact ⟨e', by simp [Store.extendRoundSealsV2, he'], hlasts⟩

end

/-- The computed lifetime is the exact one just where the narrowing is
survived, and there it has its bounds and follows the deadline. A seal written,
read or extended within 58 days of the deadline is readable until it. -/
theorem seal_lifetime_iff (d now : UInt64) :
    (((sealTtlForRevealDeadline d now).toNat = exactSealTtl d.toNat now.toNat ∧
        tempThreshold ≤ sealTtlForRevealDeadline d now ∧
        sealTtlForRevealDeadline d now ≤ persistentBump) ↔
      SurvivesNarrowing d.toNat now.toNat) ∧
    (∀ d' : UInt64, SurvivesNarrowing d.toNat now.toNat →
      SurvivesNarrowing d'.toNat now.toNat → d ≤ d' →
      sealTtlForRevealDeadline d now ≤ sealTtlForRevealDeadline d' now) ∧
    (∀ (env : Env) (s : Store) (id : UInt64) (b : Address),
      d.toNat ≤ env.timestamp.toNat + readableDays →
      (∀ payload, ∃ e, (s.setSeal env id b payload d).sealed id b = some e ∧
        e.LastsUntil env d) ∧
      (∀ payload, ∃ e, (s.setSealV2 env id b payload d).sealedV2 id b = some e ∧
        e.LastsUntil env d) ∧
      (∀ e, s.sealed id b = some e → e.readable env → ∃ s' e',
        s.getSeal env id b d = some (e.payload, s') ∧ s'.sealed id b = some e' ∧
          e'.LastsUntil env d) ∧
      (∀ e, s.sealedV2 id b = some e → e.readable env → ∃ s' e',
        s.getSealV2 env id b d = some (e.payload, s') ∧ s'.sealedV2 id b = some e' ∧
          e'.LastsUntil env d) ∧
      (∀ bidders e, b ∈ bidders → s.sealed id b = some e → e.readable env →
        ∃ e', (s.extendRoundSeals env id bidders d).sealed id b = some e' ∧
          e'.LastsUntil env d) ∧
      (∀ bidders e, b ∈ bidders → s.sealedV2 id b = some e → e.readable env →
        ∃ e', (s.extendRoundSealsV2 env id bidders d).sealedV2 id b = some e' ∧
          e'.LastsUntil env d)) := by
  refine ⟨?_, ?_, fun env s id b h => seals_last s id b h⟩
  · rw [sealTtl_eq_iff.symm, UInt32.le_iff_toNat_le, UInt32.le_iff_toNat_le]
    constructor
    · exact And.left
    · intro heq
      rw [heq]
      exact ⟨rfl, exactSealTtl_bounds d.toNat now.toNat⟩
  · intro d' h h' hle
    rw [UInt32.le_iff_toNat_le, sealTtl_eq_iff.mpr h, sealTtl_eq_iff.mpr h']
    exact exactSealTtl_mono (UInt64.le_iff_toNat_le.mp hle) now.toNat

/-- A day and a half before the deadline a seal gets two and a half days. It gets no fewer
ledgers for a later deadline, and once it is written it can be read until the deadline. -/
theorem seal_lifetime_sample :
    (sealTtlForRevealDeadline 1129600 1000000).toNat = 43200 ∧
    sealTtlForRevealDeadline 1129600 1000000 ≤ sealTtlForRevealDeadline 5000000 1000000 ∧
    ∃ e, (Sample.deployed.world.store.setSeal ⟨Sample.host, Sample.tx Sample.alice 1000000⟩ 1
        Sample.alice ⟨[1], []⟩ 1129600).sealed 1 Sample.alice = some e ∧
      e.LastsUntil ⟨Sample.host, Sample.tx Sample.alice 1000000⟩ 1129600 := by
  have hsurvives : ∀ d : UInt64, d.toNat ≤ (1000000 : UInt64).toNat + readableDays →
      SurvivesNarrowing d.toNat (1000000 : UInt64).toNat := fun _ => survives_of_days
  obtain ⟨hexact, hmono, hlasts⟩ := seal_lifetime_iff 1129600 1000000
  refine ⟨(hexact.mpr (hsurvives _ (by decide))).1, ?_, ?_⟩
  · exact hmono _ (hsurvives _ (by decide)) (hsurvives _ (by decide)) (by decide)
  · exact (hlasts _ _ _ _ (by decide)).1 _

/-- `2 ^ 32` ledgers before the end of the buffer, the lifetime is none at all. -/
theorem seal_lifetime_fails :
    ¬ ∀ d now : UInt64,
      (sealTtlForRevealDeadline d now).toNat = exactSealTtl d.toNat now.toNat := by
  intro h
  have hnone : (sealTtlForRevealDeadline 21474750080 0).toNat = 0 := by decide
  have hfull : exactSealTtl (21474750080 : UInt64).toNat (0 : UInt64).toNat = 1036800 := by decide
  rw [h, hfull] at hnone
  cases hnone

end SubRosa
