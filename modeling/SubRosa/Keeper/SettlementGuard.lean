import Mathlib.Tactic

/-!
# The settlement guard

`settlement-guard.ts`: one entry per round id in memory. The time stamps of the
entries are left out; nothing reads them.
-/

namespace SubRosa.Keeper

inductive GuardStatus
  | pending
  | submitted
  | terminal
  deriving DecidableEq

structure GuardEntry where
  status : GuardStatus
  reason : String
  deriving DecidableEq

/-- The structured event of a suppressed duplicate. -/
structure DuplicateSkipEvent where
  roundId : Int
  skippedDuplicateReason : GuardStatus
  lastReason : String
  deriving DecidableEq

/-- The map of entries. -/
abbrev SettlementGuard := Int → Option GuardEntry

namespace SettlementGuard

def empty : SettlementGuard := fun _ => none

/-- The entry of a round; a round without one starts pending. -/
def entryOf (guard : SettlementGuard) (roundId : Int) : GuardEntry :=
  (guard roundId).getD ⟨.pending, "initial"⟩

def statusOf (guard : SettlementGuard) (roundId : Int) : GuardStatus :=
  (guard.entryOf roundId).status

def setEntry (guard : SettlementGuard) (roundId : Int) (entry : GuardEntry) : SettlementGuard :=
  Function.update guard roundId (some entry)

def getOrCreate (guard : SettlementGuard) (roundId : Int) : SettlementGuard :=
  guard.setEntry roundId (guard.entryOf roundId)

/-- `none` when settlement may proceed, else the event to log. -/
def canSettle (guard : SettlementGuard) (roundId : Int) : Option DuplicateSkipEvent :=
  let entry := guard.entryOf roundId
  if entry.status = .pending then none else some ⟨roundId, entry.status, entry.reason⟩

def markSubmitted (guard : SettlementGuard) (roundId : Int) : SettlementGuard :=
  guard.setEntry roundId ⟨.submitted, "settle tx dispatched"⟩

def markTerminal (guard : SettlementGuard) (roundId : Int) (reason : String) : SettlementGuard :=
  guard.setEntry roundId ⟨.terminal, reason⟩

def markRetryable (guard : SettlementGuard) (roundId : Int) (reason : String) : SettlementGuard :=
  guard.setEntry roundId ⟨.pending, s!"retryable: {reason}"⟩

theorem statusOf_setEntry (guard : SettlementGuard) (roundId : Int) (entry : GuardEntry)
    (id : Int) : (guard.setEntry roundId entry).statusOf id =
      if id = roundId then entry.status else guard.statusOf id := by
  unfold statusOf entryOf setEntry
  by_cases h : id = roundId
  · rw [h, Function.update_self, if_pos rfl]
    rfl
  · rw [Function.update_of_ne h, if_neg h]

@[simp] theorem statusOf_getOrCreate (guard : SettlementGuard) (roundId id : Int) :
    (guard.getOrCreate roundId).statusOf id = guard.statusOf id := by
  rw [getOrCreate, statusOf_setEntry]
  split
  · next h => rw [h, statusOf]
  · rfl

theorem canSettle_eq_none {guard : SettlementGuard} {roundId : Int} :
    guard.canSettle roundId = none ↔ guard.statusOf roundId = .pending := by
  unfold canSettle statusOf
  simp

end SettlementGuard

end SubRosa.Keeper
