import SubRosa.Keeper.Passes

/-!
# The watch loop

`watch-loop.ts`: discover or list the rounds to watch, run a tick over each one
that is not finished, record what happened in the queue. A loop that runs until
it is stopped is modelled by its runs of any number of iterations.
-/

namespace SubRosa.Keeper

open JavaScript

structure RunWatchLoopParams where
  protocolVersion : ProtocolVersion
  contractId : String
  network : String
  /-- `WATCH_ROUND_IDS` or `ROUND_ID`, as parsed; `none` probes for rounds. -/
  roundIds : Option (Except Thrown (List Int))
  watchFrom : Int
  maxProbe : Nat
  engine : Engine

def RunWatchLoopParams.deps (params : RunWatchLoopParams) : KeeperDeps :=
  ⟨true, params.protocolVersion, 0, params.engine⟩

/-! ## Discovery -/

/-- Probe `n` ids in order; missing ids are gaps. -/
def discoverRoundIds (deps : KeeperDeps) (next : Int) : Nat → Pass (List Int)
  | 0 => return []
  | n + 1 => do
    let r ← (readKeeperRound deps next).attempt
    match r with
    | .ok _ => do
      let ids ← discoverRoundIds deps (next + 1) n
      return next :: ids
    | .error e =>
      if isOneOf e [.RoundNotFound] then discoverRoundIds deps (next + 1) n
      else .fail e

def resolveRoundIds (params : RunWatchLoopParams) : Pass (List Int) :=
  match params.roundIds with
  | some ids => lift params.deps ids
  | none => discoverRoundIds params.deps params.watchFrom params.maxProbe

/-- `{ contractId, network }`. -/
def RunWatchLoopParams.extra (params : RunWatchLoopParams) : PartialRound :=
  { contractId := some (some params.contractId), network := some (some params.network) }

/-- Add the discovered rounds in order, up to the first id that is no round id. -/
def addDiscovered (params : RunWatchLoopParams) : List Int → StoreData → StoreData
  | [], d => d
  | id :: ids, d =>
    match normalizeRoundId params.engine (.bigint id) with
    | .ok key => addDiscovered params ids (d.addRound key params.extra)
    | .error _ => d

/-- The rounds discovered in this iteration; none when discovery fails. -/
def discover (params : RunWatchLoopParams) : Pass (List Int) := do
  let r ← (call (resolveRoundIds params)).attempt
  match r with
  | .ok ids => do
    changeStore (addDiscovered params ids)
    return ids
  | .error _ => return []

/-! ## One iteration -/

/-- A field that names another deployment. -/
def differs (field : Option String) (current : String) : Bool :=
  match field with
  | some value => value ≠ "" && value ≠ current
  | none => false

/-- The filter of the loop. -/
def isActive (params : RunWatchLoopParams) (r : WatchedRound) : Bool :=
  if differs r.contractId params.contractId then false
  else if differs r.network params.network then false
  else r.lastStatus ≠ tag .Settled && r.lastStatus ≠ tag .Voided

def activeRounds (params : RunWatchLoopParams) (d : StoreData) : List WatchedRound :=
  d.listRounds.filter (isActive params)

def summarizeTick (t : WatchTickResult) : String :=
  ", ".intercalate ([tag t.finalStatus]
    ++ (if t.void.any VoidResult.voided then ["voided"] else [])
    ++ (if t.keep.any KeeperResult.openedReveal then ["opened"] else [])
    ++ (match t.keep with
      | some keep => if keep.revealed = [] then [] else [s!"revealed×{keep.revealed.length}"]
      | none => [])
    ++ (if t.close.any CloseResult.cleared then ["cleared"] else [])
    ++ (if t.close.any CloseResult.settled then ["settled"] else []))

def WatchTickResult.acted (t : WatchTickResult) : Bool :=
  t.void.any VoidResult.voided || t.keep.any KeeperResult.openedReveal ||
    t.keep.any (fun keep => keep.revealed ≠ []) || t.close.any CloseResult.cleared ||
    t.close.any CloseResult.settled

/-- What a tick records in the guard. -/
def markTick (deps : KeeperDeps) (roundId : Int) (tick : WatchTickResult) : Pass Unit :=
  if tick.close.any CloseResult.settled then
    changeGuard deps fun guard => guard.markTerminal roundId "settled on-chain"
  else if tick.close.any CloseResult.voided || tick.finalStatus = .Voided then
    changeGuard deps fun guard => guard.markTerminal roundId "voided on-chain"
  else pure ()

/-- What a tick records in the queue. -/
def tickUpdate (stored : WatchedRound) (tick : WatchTickResult) : PartialRound where
  lastStatus := some (tag tick.finalStatus)
  retryCount := some 0
  lastError := some none
  lastAction := some (if tick.acted then some (summarizeTick tick) else stored.lastAction)

/-- A failed tick counts as a retry. -/
def recordFailure (id : Nat) (e : Rejection) (d : StoreData) : StoreData :=
  d.updateRound id
    { retryCount := some (((d.getRound id).map WatchedRound.retryCount).getD 0 + 1)
      lastError := some (some (errorName e)) }

/-- One tick over a stored round. -/
def processRound (params : RunWatchLoopParams) (stored : WatchedRound) : Pass Unit := do
  let r ← (call (watchRound params.deps stored.roundId)).attempt
  match r with
  | .ok tick => do
    markTick params.deps stored.roundId tick
    changeStore fun d => d.updateRound stored.roundId (tickUpdate stored tick)
  | .error e => changeStore (recordFailure stored.roundId e)

/-- The ids it returns are those of the rounds it started a tick over. -/
def processRounds (params : RunWatchLoopParams) : List WatchedRound → Pass (List Nat)
  | [] => return []
  | stored :: rest => do
    let stop ← .inspect Memory.stopping
    if stop = true then return []
    else do
      processRound params stored
      let ids ← processRounds params rest
      return stored.roundId :: ids

/-- What an iteration discovered and what it processed. -/
structure Iteration where
  discovered : List Int
  processed : List Nat

def iterate (params : RunWatchLoopParams) : Pass Iteration := do
  let discovered ← discover params
  let active ← .inspect fun m => activeRounds params m.store
  let processed ← processRounds params active
  return ⟨discovered, processed⟩

/-- The runs of up to `n` iterations. -/
def runWatchLoop (params : RunWatchLoopParams) : Nat → Pass Unit
  | 0 => pure ()
  | n + 1 => do
    let stop ← .inspect Memory.stopping
    if stop = true then pure ()
    else do
      let _ ← iterate params
      let stop ← .inspect Memory.stopping
      if stop = true then pure ()
      else do
        ask .sleep
        runWatchLoop params n

end SubRosa.Keeper
