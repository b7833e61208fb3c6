import SubRosa.Contract.Storage

/-!
# Drand rounds

`drand.rs`: the on-chain check of a round's threshold signature and the
scheduled time of a round.
-/

namespace SubRosa

open MachineInt Invocation BigEndian

/-- Check `e(sig, -g2) · e(H, pk) = 1` with `H` the hash of `sha256(be8(round))`. -/
def verifyRound (config : GlobalConfig) (round : UInt64) (signature : BytesN 96) :
    Contract Bool := do
  let env ← read
  let message := (env.sha256 (encode 8 round.toNat)).val
  let h ← okOrTrap (env.hashToG1 message config.dst)
  okOrTrap (env.pairingCheck [signature, h] [config.g2NegGenerator, config.drandPubkey])

/-- The signature passes the on-chain check for `round`. -/
def Host.Verifies (host : Host) (config : GlobalConfig) (round : UInt64)
    (signature : BytesN 96) : Prop :=
  ∃ h, host.hashToG1 (host.sha256 (encode 8 round.toNat)).val config.dst = some h ∧
    host.pairingCheck [signature, h] [config.g2NegGenerator, config.drandPubkey] = some true

/-- Scheduled second of a round. Round 1 is at genesis; an absurdly large
round clamps to the largest `u64`. -/
def timeOfRound (config : GlobalConfig) (round : UInt64) : UInt64 :=
  saturatingAdd config.drandGenesis
    (saturatingMul config.drandPeriod (saturatingSub round 1))

/-- The scheduled second without a bound on its size. -/
def exactTimeOfRound (config : GlobalConfig) (round : UInt64) : Int :=
  config.drandGenesis.toNat + config.drandPeriod.toNat * ((round.toNat : Int) - 1)

@[simp] theorem yields_verifyRound_true (config : GlobalConfig) (round : UInt64)
    (signature : BytesN 96) (env : Env) (f f' : Frame) :
    Yields (verifyRound config round signature) env f true f' ↔
      env.toHost.Verifies config round signature ∧ f' = f := by
  simp only [verifyRound, Host.Verifies, yields_bind, yields_read, yields_okOrTrap]
  constructor
  · rintro ⟨_, _, ⟨rfl, rfl⟩, h, _, ⟨hh, rfl⟩, hp, rfl⟩
    exact ⟨⟨h, hh, hp⟩, rfl⟩
  · rintro ⟨⟨h, hh, hp⟩, rfl⟩
    exact ⟨env, f', ⟨rfl, rfl⟩, h, f', ⟨hh, rfl⟩, hp, rfl⟩

theorem timeOfRound_toNat (config : GlobalConfig) (round : UInt64) :
    (timeOfRound config round).toNat =
      min (config.drandGenesis.toNat + config.drandPeriod.toNat * (round.toNat - 1))
        (2 ^ 64 - 1) := by
  have h1 : (1 : UInt64).toNat = 1 := rfl
  simp only [timeOfRound, saturatingAdd_toNat, saturatingMul_toNat, saturatingSub_toNat, h1]
  omega

theorem exactTimeOfRound_toNat {config : GlobalConfig} {round : UInt64} (hr : round ≠ 0) :
    exactTimeOfRound config round =
      ((config.drandGenesis.toNat + config.drandPeriod.toNat * (round.toNat - 1) : Nat) : Int) := by
  have h0 : round.toNat ≠ 0 := fun h => hr (UInt64.toNat_inj.mp h)
  unfold exactTimeOfRound
  rw [show ((round.toNat : Int) - 1) = ((round.toNat - 1 : Nat) : Int) by omega, ← Nat.cast_mul,
    ← Nat.cast_add]

/-- The clamp never moves a scheduled time later. -/
theorem timeOfRound_le {config : GlobalConfig} {round t : UInt64} (hr : round ≠ 0)
    (ht : exactTimeOfRound config round ≤ t.toNat) : timeOfRound config round ≤ t := by
  rw [exactTimeOfRound_toNat hr, Nat.cast_le] at ht
  rw [UInt64.le_iff_toNat_le, timeOfRound_toNat]
  omega

/-- **The clamp shows only past `u64`.** -/
theorem timeOfRound_eq {config : GlobalConfig} {round : UInt64} (hr : round ≠ 0)
    (hfits : exactTimeOfRound config round < 2 ^ 64) :
    ((timeOfRound config round).toNat : Int) = exactTimeOfRound config round := by
  rw [exactTimeOfRound_toNat hr] at hfits ⊢
  rw [Nat.cast_inj, timeOfRound_toNat]
  omega

/-- A scheduled time with something strictly above it in `u64` is the exact one. -/
theorem timeOfRound_exact {config : GlobalConfig} {round t : UInt64} (hr : round ≠ 0)
    (ht : timeOfRound config round < t) :
    ((timeOfRound config round).toNat : Int) = exactTimeOfRound config round := by
  have hlt := UInt64.lt_iff_toNat_lt.mp ht
  have htop := t.toNat_lt
  have hmin := timeOfRound_toNat config round
  rw [exactTimeOfRound_toNat hr, Nat.cast_inj]
  omega

/-- What the deadline checks of a creation say about the exact time. -/
theorem exactTimeOfRound_between {config : GlobalConfig}
    {round commitDeadline revealDeadline : UInt64}
    (hr : round ≠ 0) (hcommit : commitDeadline < timeOfRound config round)
    (hreveal : timeOfRound config round < revealDeadline) :
    (commitDeadline.toNat : Int) < exactTimeOfRound config round ∧
      exactTimeOfRound config round < revealDeadline.toNat := by
  have hexact := timeOfRound_exact hr hreveal
  have := UInt64.lt_iff_toNat_lt.mp hcommit
  have := UInt64.lt_iff_toNat_lt.mp hreveal
  omega

end SubRosa
