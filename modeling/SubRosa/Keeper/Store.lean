import SubRosa.Library.JavaScript

/-!
# The persisted watch queue

`store.ts`: the rounds a keeper watches, kept in memory by each instance and
written to the file as a whole. The file is modelled by the data it holds.
-/

namespace SubRosa.Keeper

open JavaScript

inductive RoundIdInput
  | bigint (n : Int)
  | number (n : Number)
  | text (s : String)

def positiveId (value : Int) : Except Thrown Nat :=
  if value ≤ 0 then .error (.error s!"roundId must be a positive integer, got {value}")
  else .ok value.toNat

/-- The key of a round: its id in decimal. -/
def normalizeRoundId (engine : Engine) : RoundIdInput → Except Thrown Nat
  | .bigint n => positiveId n
  | .number n =>
    if n.isSafeInteger then positiveId n.toInt
    else .error (.error s!"roundId must be a positive integer, got {engine.numberToString n}")
  | .text s =>
    match digits? (trim s.toList) with
    | some n => positiveId n
    | none => .error (.error s!"roundId must be a positive integer, got {quote s}")

structure WatchedRound where
  roundId : Nat
  contractId : Option String
  network : Option String
  revealRound : Option String
  lastStatus : String
  retryCount : Nat
  lastError : Option String
  lastAction : Option String
  deriving DecidableEq

/-- `Partial<WatchedRound>`; a field can be given as `undefined`. -/
structure PartialRound where
  contractId : Option (Option String) := none
  network : Option (Option String) := none
  revealRound : Option (Option String) := none
  lastStatus : Option String := none
  retryCount : Option Nat := none
  lastError : Option (Option String) := none
  lastAction : Option (Option String) := none
  deriving DecidableEq

/-- `{ ...round, ...extra, roundId }`. -/
def WatchedRound.merge (round : WatchedRound) (extra : PartialRound) : WatchedRound where
  roundId := round.roundId
  contractId := extra.contractId.getD round.contractId
  network := extra.network.getD round.network
  revealRound := extra.revealRound.getD round.revealRound
  lastStatus := extra.lastStatus.getD round.lastStatus
  retryCount := extra.retryCount.getD round.retryCount
  lastError := extra.lastError.getD round.lastError
  lastAction := extra.lastAction.getD round.lastAction

/-! ## Entries by id -/

def entryOf (rounds : List WatchedRound) (id : Nat) : Option WatchedRound :=
  rounds.find? fun r => r.roundId = id

def setEntry (rounds : List WatchedRound) (round : WatchedRound) : List WatchedRound :=
  if (entryOf rounds round.roundId).isSome then
    rounds.map fun r => if r.roundId = round.roundId then round else r
  else rounds ++ [round]

theorem entryOf_cons (r : WatchedRound) (rounds : List WatchedRound) (id : Nat) :
    entryOf (r :: rounds) id = if r.roundId = id then some r else entryOf rounds id := by
  unfold entryOf
  rw [List.find?_cons]
  by_cases h : r.roundId = id <;> simp [h]

theorem roundId_of_entryOf {rounds : List WatchedRound} {id : Nat} {r : WatchedRound}
    (h : entryOf rounds id = some r) : r.roundId = id := by
  have := List.find?_some h
  simpa using this

theorem entryOf_map_set (rounds : List WatchedRound) (round : WatchedRound) (id : Nat) :
    entryOf (rounds.map fun r => if r.roundId = round.roundId then round else r) id =
      if id = round.roundId then (entryOf rounds id).map fun _ => round
      else entryOf rounds id := by
  induction rounds with
  | nil => simp [entryOf]
  | cons r rounds ih =>
    rw [List.map_cons, entryOf_cons, ih, entryOf_cons]
    by_cases hr : r.roundId = round.roundId
    · by_cases hid : id = round.roundId
      · simp [hr, hid]
      · simp [hr, hid, Ne.symm hid]
    · by_cases hid : id = round.roundId
      · simp [hr, hid]
      · simp [hr, hid]

theorem entryOf_setEntry (rounds : List WatchedRound) (round : WatchedRound) (id : Nat) :
    entryOf (setEntry rounds round) id =
      if id = round.roundId then some round else entryOf rounds id := by
  unfold setEntry
  split
  · next h =>
    rw [entryOf_map_set]
    by_cases hid : id = round.roundId
    · subst hid
      obtain ⟨r, hr⟩ := Option.isSome_iff_exists.mp h
      simp [hr]
    · simp [hid]
  · next h =>
    rw [Option.not_isSome_iff_eq_none] at h
    have happend : entryOf (rounds ++ [round]) id = (entryOf rounds id).or (entryOf [round] id) :=
      List.find?_append
    rw [happend, entryOf_cons]
    by_cases hid : id = round.roundId
    · subst hid
      simp [h]
    · simp [hid, Ne.symm hid, entryOf]

theorem entryOf_filter (rounds : List WatchedRound) (id id' : Nat) :
    entryOf (rounds.filter fun r => r.roundId ≠ id) id' =
      if id' = id then none else entryOf rounds id' := by
  induction rounds with
  | nil => simp [entryOf]
  | cons r rounds ih =>
    rw [List.filter_cons]
    by_cases hr : r.roundId = id
    · rw [if_neg (by simp [hr]), ih, entryOf_cons]
      by_cases hid : id' = id
      · simp [hid]
      · simp [hid, hr, Ne.symm hid]
    · rw [if_pos (by simp [hr]), entryOf_cons, ih, entryOf_cons]
      by_cases hid : id' = id
      · simp [hid, hr]
      · simp [hid]

theorem entryOf_eq_some {rounds : List WatchedRound}
    (h : (rounds.map WatchedRound.roundId).Nodup) {r : WatchedRound} :
    entryOf rounds r.roundId = some r ↔ r ∈ rounds := by
  constructor
  · exact List.mem_of_find?_eq_some
  · intro hr
    induction rounds with
    | nil => simp at hr
    | cons a rounds ih =>
      rw [List.map_cons, List.nodup_cons] at h
      rw [entryOf_cons]
      rcases List.mem_cons.mp hr with rfl | hr
      · simp
      · have hne : a.roundId ≠ r.roundId := fun he => h.1 (he ▸ List.mem_map_of_mem hr)
        rw [if_neg hne]
        exact ih h.2 hr

theorem nodup_setEntry {rounds : List WatchedRound}
    (h : (rounds.map WatchedRound.roundId).Nodup) (round : WatchedRound) :
    ((setEntry rounds round).map WatchedRound.roundId).Nodup := by
  unfold setEntry
  split
  · have hmap : (rounds.map fun r => if r.roundId = round.roundId then round else r).map
        WatchedRound.roundId = rounds.map WatchedRound.roundId := by
      rw [List.map_map]
      apply List.map_congr_left
      intro r _
      by_cases hr : r.roundId = round.roundId <;> simp [hr]
    rw [hmap]
    exact h
  · next hnone =>
    rw [List.map_append, List.nodup_append]
    refine ⟨h, by simp, ?_⟩
    intro a ha b hb hab
    rw [List.map_singleton, List.mem_singleton] at hb
    obtain ⟨r, hr, rfl⟩ := List.mem_map.mp ha
    apply hnone
    rw [← hb, ← hab, (entryOf_eq_some h).mpr hr]
    rfl

/-! ## The store -/

/-- One entry for each round id. -/
structure StoreData where
  rounds : List WatchedRound
  keyed : (rounds.map WatchedRound.roundId).Nodup

namespace StoreData

def empty : StoreData := ⟨[], List.nodup_nil⟩

def getRound (d : StoreData) (id : Nat) : Option WatchedRound := Keeper.entryOf d.rounds id

def setRound (d : StoreData) (round : WatchedRound) : StoreData :=
  ⟨setEntry d.rounds round, nodup_setEntry d.keyed round⟩

/-- A new entry of the queue. -/
def unknown (id : Nat) : WatchedRound := ⟨id, none, none, none, "Unknown", 0, none, none⟩

def addRound (d : StoreData) (id : Nat) (extra : PartialRound) : StoreData :=
  d.setRound (((d.getRound id).getD (unknown id)).merge extra)

def removeRound (d : StoreData) (id : Nat) : StoreData :=
  ⟨d.rounds.filter fun r => r.roundId ≠ id, d.keyed.sublist (List.filter_sublist.map _)⟩

def updateRound (d : StoreData) (id : Nat) (update : PartialRound) : StoreData :=
  match d.getRound id with
  | some round => d.setRound (round.merge update)
  | none => d

/-- The entries in the order of their ids. -/
def listRounds (d : StoreData) : List WatchedRound :=
  d.rounds.mergeSort fun a b => a.roundId ≤ b.roundId

theorem getRound_setRound (d : StoreData) (round : WatchedRound) (id : Nat) :
    (d.setRound round).getRound id = if id = round.roundId then some round else d.getRound id :=
  entryOf_setEntry d.rounds round id

theorem getRound_addRound (d : StoreData) (id : Nat) (extra : PartialRound) (id' : Nat) :
    (d.addRound id extra).getRound id' =
      if id' = id then some (((d.getRound id).getD (unknown id)).merge extra)
      else d.getRound id' := by
  have hid : (((d.getRound id).getD (unknown id)).merge extra).roundId = id := by
    cases h : d.getRound id with
    | none => rfl
    | some r =>
      have hr : r.roundId = id := roundId_of_entryOf h
      exact hr
  rw [addRound, getRound_setRound, hid]

theorem getRound_removeRound (d : StoreData) (id id' : Nat) :
    (d.removeRound id).getRound id' = if id' = id then none else d.getRound id' :=
  entryOf_filter d.rounds id id'

theorem getRound_updateRound (d : StoreData) (id : Nat) (update : PartialRound) (id' : Nat) :
    (d.updateRound id update).getRound id' =
      if id' = id then (d.getRound id).map fun r => r.merge update else d.getRound id' := by
  unfold updateRound
  cases h : d.getRound id with
  | none =>
    by_cases hid : id' = id
    · simp [hid, h]
    · simp [hid]
  | some r =>
    have hr : r.roundId = id := roundId_of_entryOf h
    have hmerge : (r.merge update).roundId = id := hr
    rw [getRound_setRound, hmerge]
    rfl

theorem mem_listRounds {d : StoreData} {r : WatchedRound} :
    r ∈ d.listRounds ↔ d.getRound r.roundId = some r :=
  List.mem_mergeSort.trans (entryOf_eq_some d.keyed).symm

end StoreData

/-! ## Operations -/

/-- The operations that change the queue. -/
inductive QueueOperation
  | addRound (id : Nat) (extra : PartialRound)
  | removeRound (id : Nat)
  | updateRound (id : Nat) (update : PartialRound)

namespace QueueOperation

def apply : QueueOperation → StoreData → StoreData
  | addRound id extra, d => d.addRound id extra
  | removeRound id, d => d.removeRound id
  | updateRound id update, d => d.updateRound id update

/-- `saveStore` is called; an operation on a round without an entry does nothing. -/
def saves : QueueOperation → StoreData → Bool
  | addRound _ _, _ => true
  | removeRound id, d | updateRound id _, d => (d.getRound id).isSome

end QueueOperation

end SubRosa.Keeper
