import SubRosa.Contract.Host

/-!
# Storage accessors

`storage.rs`. The per-bidder records of the two generations live under
different keys and are used the same way, so `Records` describes such a family
once: how it is read from the store, how it is written back, and the laws that
tie the two. The lifetime of persistent and instance entries is not modelled;
that of the temporary seals is.
-/

namespace SubRosa

open MachineInt Invocation

/-! ## Per-bidder records -/

/-- The records of one round: a part of the store, as a map from bidders. -/
structure Records (S : Type) where
  read : Store → Address → Option S
  write : Store → (Address → Option S) → Store
  read_write : ∀ s m, read (write s m) = m
  write_write : ∀ s m m', write (write s m) m' = write s m'
  write_read : ∀ s, write s (read s) = s

attribute [simp] Records.read_write Records.write_write Records.write_read

def stateRecords (roundId : UInt64) : Records BidState where
  read s := s.state roundId
  write s m := { s with state := Function.update s.state roundId m }
  read_write s m := by simp
  write_write s m m' := by simp
  write_read s := by simp

def submissionRecords (roundId : UInt64) : Records SubmissionStateV2 where
  read s := s.submissionV2 roundId
  write s m := { s with submissionV2 := Function.update s.submissionV2 roundId m }
  read_write s m := by simp
  write_write s m m' := by simp
  write_read s := by simp

section

variable {S : Type} (R : Records S)

def Records.tryGet (bidder : Address) : Contract (Option S) := do
  return R.read (← get).store bidder

def Records.getOrFail (bidder : Address) : Contract S := do
  okOr (R.read (← get).store bidder) .BidNotFound

/-- The store with one record replaced. -/
def Records.put (s : Store) (bidder : Address) (record : S) : Store :=
  R.write s (Function.update (R.read s) bidder (some record))

def Records.set (bidder : Address) (record : S) : Contract Unit :=
  modify fun f => f.withStore (R.put f.store bidder record)

@[simp] theorem Records.yields_tryGet (bidder : Address) (env : Env) (f f' : Frame)
    (o : Option S) :
    Yields (R.tryGet bidder) env f o f' ↔ o = R.read f.store bidder ∧ f' = f := by
  simp [Records.tryGet, and_comm]

@[simp] theorem Records.yields_getOrFail (bidder : Address) (env : Env) (f f' : Frame) (a : S) :
    Yields (R.getOrFail bidder) env f a f' ↔ R.read f.store bidder = some a ∧ f' = f := by
  simp [Records.getOrFail, and_comm]

@[simp] theorem Records.yields_set (bidder : Address) (a : S) (env : Env) (f f' : Frame)
    (u : Unit) :
    Yields (R.set bidder a) env f u f' ↔ f' = f.withStore (R.put f.store bidder a) := by
  simp [Records.set]

@[simp] theorem Records.read_put (s : Store) (bidder : Address) (a : S) :
    R.read (R.put s bidder a) = Function.update (R.read s) bidder (some a) := by
  simp [Records.put]

end

def getState (roundId : UInt64) (bidder : Address) : Contract BidState :=
  (stateRecords roundId).getOrFail bidder

def tryGetState (roundId : UInt64) (bidder : Address) : Contract (Option BidState) :=
  (stateRecords roundId).tryGet bidder

def setState (roundId : UInt64) (bidder : Address) (state : BidState) : Contract Unit :=
  (stateRecords roundId).set bidder state

def getSubmissionV2 (roundId : UInt64) (bidder : Address) : Contract SubmissionStateV2 :=
  (submissionRecords roundId).getOrFail bidder

def tryGetSubmissionV2 (roundId : UInt64) (bidder : Address) :
    Contract (Option SubmissionStateV2) :=
  (submissionRecords roundId).tryGet bidder

def setSubmissionV2 (roundId : UInt64) (bidder : Address) (state : SubmissionStateV2) :
    Contract Unit :=
  (submissionRecords roundId).set bidder state

/-! ## Configuration and rounds -/

def getConfig : Contract GlobalConfig := do
  okOr (← get).store.config .NotInitialized

def setConfig (config : GlobalConfig) : Contract Unit :=
  modify fun f => f.withStore { f.store with config := some config }

/-- Round ids count up from 1; the addition is checked. -/
def nextRoundId : Contract UInt64 := do
  let f ← get
  let next ← okOrTrap (checkedAdd (f.store.roundCounter.getD 0) 1)
  set (f.withStore { f.store with roundCounter := some next })
  return next

def Store.setRound (s : Store) (roundId : UInt64) (round : Round) : Store :=
  { s with round := Function.update s.round roundId (some round) }

def Store.setRoundV2 (s : Store) (roundId : UInt64) (round : RoundV2) : Store :=
  { s with roundV2 := Function.update s.roundV2 roundId (some round) }

def getRound (roundId : UInt64) : Contract Round := do
  okOr ((← get).store.round roundId) .RoundNotFound

def setRound (roundId : UInt64) (round : Round) : Contract Unit :=
  modify fun f => f.withStore (f.store.setRound roundId round)

def getRoundV2 (roundId : UInt64) : Contract RoundV2 := do
  okOr ((← get).store.roundV2 roundId) .RoundNotFound

def setRoundV2 (roundId : UInt64) (round : RoundV2) : Contract Unit :=
  modify fun f => f.withStore (f.store.setRoundV2 roundId round)

def getRoundPolicyV2 (roundId : UInt64) : Contract (Option RoundPolicyV2) := do
  return (← get).store.policyV2 roundId

def Store.setRoundPolicyV2 (s : Store) (roundId : UInt64) (policy : RoundPolicyV2) : Store :=
  { s with policyV2 := Function.update s.policyV2 roundId (some policy) }

def setRoundPolicyV2 (roundId : UInt64) (policy : RoundPolicyV2) : Contract Unit :=
  modify fun f => f.withStore (f.store.setRoundPolicyV2 roundId policy)

/-- A v3 round never infers `Timed` from a missing entry. -/
def getRevealStateV3 (roundId : UInt64) : Contract RevealStateV3 := do
  okOr ((← get).store.revealV3 roundId) .RevealPolicyMissing

def Store.setRevealStateV3 (s : Store) (roundId : UInt64) (state : RevealStateV3) : Store :=
  { s with revealV3 := Function.update s.revealV3 roundId (some state) }

def setRevealStateV3 (roundId : UInt64) (state : RevealStateV3) : Contract Unit :=
  modify fun f => f.withStore (f.store.setRevealStateV3 roundId state)

section

variable (env : Env) (f f' : Frame)

@[simp] theorem yields_getConfig (c : GlobalConfig) :
    Yields getConfig env f c f' ↔ f.store.config = some c ∧ f' = f := by simp [getConfig, and_comm]

@[simp] theorem yields_getRound (id : UInt64) (r : Round) :
    Yields (getRound id) env f r f' ↔ f.store.round id = some r ∧ f' = f := by
  simp [getRound, and_comm]

@[simp] theorem yields_setRound (id : UInt64) (r : Round) (u : Unit) :
    Yields (setRound id r) env f u f' ↔ f' = f.withStore (f.store.setRound id r) := by
  simp [setRound]

@[simp] theorem yields_getRoundV2 (id : UInt64) (r : RoundV2) :
    Yields (getRoundV2 id) env f r f' ↔ f.store.roundV2 id = some r ∧ f' = f := by
  simp [getRoundV2, and_comm]

@[simp] theorem yields_setRoundV2 (id : UInt64) (r : RoundV2) (u : Unit) :
    Yields (setRoundV2 id r) env f u f' ↔ f' = f.withStore (f.store.setRoundV2 id r) := by
  simp [setRoundV2]

@[simp] theorem yields_getRoundPolicyV2 (id : UInt64) (p : Option RoundPolicyV2) :
    Yields (getRoundPolicyV2 id) env f p f' ↔ p = f.store.policyV2 id ∧ f' = f := by
  simp [getRoundPolicyV2, and_comm]

@[simp] theorem yields_setRoundPolicyV2 (id : UInt64) (p : RoundPolicyV2) (u : Unit) :
    Yields (setRoundPolicyV2 id p) env f u f' ↔
      f' = f.withStore (f.store.setRoundPolicyV2 id p) := by
  simp [setRoundPolicyV2]

@[simp] theorem yields_getRevealStateV3 (id : UInt64) (s : RevealStateV3) :
    Yields (getRevealStateV3 id) env f s f' ↔ f.store.revealV3 id = some s ∧ f' = f := by
  simp [getRevealStateV3, and_comm]

@[simp] theorem yields_setRevealStateV3 (id : UInt64) (s : RevealStateV3) (u : Unit) :
    Yields (setRevealStateV3 id s) env f u f' ↔
      f' = f.withStore (f.store.setRevealStateV3 id s) := by
  simp [setRevealStateV3]

@[simp] theorem yields_nextRoundId (id : UInt64) :
    Yields nextRoundId env f id f' ↔
      id.toNat = (f.store.roundCounter.getD 0).toNat + 1 ∧
        f' = f.withStore { f.store with roundCounter := some id } := by
  simp only [nextRoundId, yields_bind, yields_get, yields_okOrTrap, yields_set, yields_pure]
  constructor
  · rintro ⟨_, _, ⟨rfl, rfl⟩, _, _, ⟨h, rfl⟩, _, _, rfl, rfl, rfl⟩
    exact ⟨checkedAdd_eq_some.mp h, rfl⟩
  · rintro ⟨h, rfl⟩
    exact ⟨f, f, ⟨rfl, rfl⟩, id, f, ⟨checkedAdd_eq_some.mpr h, rfl⟩, ⟨⟩, _, rfl, rfl, rfl⟩

end

/-! ## Temporary seals -/

def ledgersPerDay : UInt32 := 17280
def ledgerCloseSecs : UInt64 := 5
def postRevealSealBufferSecs : UInt64 := 86400
def persistentBump : UInt32 := 60 * ledgersPerDay
def tempThreshold : UInt32 := 2 * ledgersPerDay

/-- Ledgers from now until the seals should remain readable; the quotient is
narrowed to 32 bits before the cap. -/
def sealTtlForRevealDeadline (revealDeadline now : UInt64) : UInt32 :=
  let secs := saturatingAdd (saturatingSub revealDeadline now) postRevealSealBufferSecs
  let ledgers := (max (secs / ledgerCloseSecs) tempThreshold.toUInt64).toUInt32
  min ledgers persistentBump

/-- The host's `extend_ttl`: entries with more than `threshold` ledgers left
keep their lifetime. -/
def SealEntry.extendTtl (e : SealEntry) (sequence threshold extendTo : Nat) : SealEntry :=
  if e.liveUntil - sequence ≤ threshold ∧ e.liveUntil < sequence + extendTo then
    { e with liveUntil := sequence + extendTo }
  else e

def extendSealTtl (env : Env) (e : SealEntry) (revealDeadline : UInt64) : SealEntry :=
  let bump := sealTtlForRevealDeadline revealDeadline env.timestamp
  let threshold := bump.toNat - ledgersPerDay.toNat
  e.extendTtl env.sequence threshold bump.toNat

def SealEntry.readable (env : Env) (e : SealEntry) : Prop := env.sequence ≤ e.liveUntil

instance (env : Env) (e : SealEntry) : Decidable (e.readable env) :=
  inferInstanceAs (Decidable (_ ≤ _))

/-- Writing keeps the lifetime of a readable entry and otherwise starts the
minimum one. -/
def writeSeal (env : Env) (old : Option SealEntry) (payload : Seal) : SealEntry :=
  match old with
  | some e =>
      if e.readable env then { e with payload }
      else ⟨payload, env.sequence + env.minTemporaryTtl - 1⟩
  | none => ⟨payload, env.sequence + env.minTemporaryTtl - 1⟩

/-- Extend the readable seals of a list of bidders. -/
def extendSeals (env : Env) (revealDeadline : UInt64) (m : Address → Option SealEntry)
    (bidders : List Address) : Address → Option SealEntry :=
  bidders.foldl (fun m b =>
    match m b with
    | some e =>
        if e.readable env then Function.update m b (some (extendSealTtl env e revealDeadline))
        else m
    | none => m) m

def Store.setSeal (s : Store) (env : Env) (roundId : UInt64) (bidder : Address) (payload : Seal)
    (revealDeadline : UInt64) : Store :=
  { s with
    sealed := Function.update s.sealed roundId (Function.update (s.sealed roundId) bidder
      (some (extendSealTtl env (writeSeal env (s.sealed roundId bidder) payload) revealDeadline))) }

def Store.setSealV2 (s : Store) (env : Env) (roundId : UInt64) (bidder : Address) (payload : Seal)
    (revealDeadline : UInt64) : Store :=
  { s with
    sealedV2 := Function.update s.sealedV2 roundId (Function.update (s.sealedV2 roundId) bidder
      (some (extendSealTtl env (writeSeal env (s.sealedV2 roundId bidder) payload)
        revealDeadline))) }

/-- A seal that can be read is extended by the read. -/
def Store.getSeal (s : Store) (env : Env) (roundId : UInt64) (bidder : Address)
    (revealDeadline : UInt64) : Option (Seal × Store) :=
  match s.sealed roundId bidder with
  | some e =>
      if e.readable env then
        some (e.payload, { s with
          sealed := Function.update s.sealed roundId (Function.update (s.sealed roundId) bidder
            (some (extendSealTtl env e revealDeadline))) })
      else none
  | none => none

def Store.getSealV2 (s : Store) (env : Env) (roundId : UInt64) (bidder : Address)
    (revealDeadline : UInt64) : Option (Seal × Store) :=
  match s.sealedV2 roundId bidder with
  | some e =>
      if e.readable env then
        some (e.payload, { s with
          sealedV2 := Function.update s.sealedV2 roundId (Function.update (s.sealedV2 roundId)
            bidder (some (extendSealTtl env e revealDeadline))) })
      else none
  | none => none

def Store.extendRoundSeals (s : Store) (env : Env) (roundId : UInt64) (bidders : List Address)
    (revealDeadline : UInt64) : Store :=
  { s with
    sealed := Function.update s.sealed roundId
      (extendSeals env revealDeadline (s.sealed roundId) bidders) }

def Store.extendRoundSealsV2 (s : Store) (env : Env) (roundId : UInt64) (bidders : List Address)
    (revealDeadline : UInt64) : Store :=
  { s with
    sealedV2 := Function.update s.sealedV2 roundId
      (extendSeals env revealDeadline (s.sealedV2 roundId) bidders) }

def setSeal (roundId : UInt64) (bidder : Address) (payload : Seal) (revealDeadline : UInt64) :
    Contract Unit := do
  let env ← read
  modify fun f => f.withStore (f.store.setSeal env roundId bidder payload revealDeadline)

def setSealV2 (roundId : UInt64) (bidder : Address) (payload : Seal) (revealDeadline : UInt64) :
    Contract Unit := do
  let env ← read
  modify fun f => f.withStore (f.store.setSealV2 env roundId bidder payload revealDeadline)

def extendRoundSeals (roundId : UInt64) (bidders : List Address) (revealDeadline : UInt64) :
    Contract Unit := do
  let env ← read
  modify fun f => f.withStore (f.store.extendRoundSeals env roundId bidders revealDeadline)

def extendRoundSealsV2 (roundId : UInt64) (bidders : List Address) (revealDeadline : UInt64) :
    Contract Unit := do
  let env ← read
  modify fun f => f.withStore (f.store.extendRoundSealsV2 env roundId bidders revealDeadline)

section

variable (env : Env) (f f' : Frame) (id : UInt64) (bidder : Address) (payload : Seal)
  (bidders : List Address) (deadline : UInt64) (u : Unit)

@[simp] theorem yields_setSeal :
    Yields (setSeal id bidder payload deadline) env f u f' ↔
      f' = f.withStore (f.store.setSeal env id bidder payload deadline) := by simp [setSeal]

@[simp] theorem yields_setSealV2 :
    Yields (setSealV2 id bidder payload deadline) env f u f' ↔
      f' = f.withStore (f.store.setSealV2 env id bidder payload deadline) := by simp [setSealV2]

@[simp] theorem yields_extendRoundSeals :
    Yields (extendRoundSeals id bidders deadline) env f u f' ↔
      f' = f.withStore (f.store.extendRoundSeals env id bidders deadline) := by
  simp [extendRoundSeals]

@[simp] theorem yields_extendRoundSealsV2 :
    Yields (extendRoundSealsV2 id bidders deadline) env f u f' ↔
      f' = f.withStore (f.store.extendRoundSealsV2 env id bidders deadline) := by
  simp [extendRoundSealsV2]

end

end SubRosa
