import SubRosa.Keeper.Store
import SubRosa.Library.JsonOrder

/-!
# The store and its file

`store.ts` with the records it keeps and the text it writes: entries are
objects with any fields, which are spread one over another, the file is parsed
and checked when a store is made and written as a whole after each change. A
file that cannot be read is moved away. The rounds that the store holds are
listed in the order of `Object.keys`.
-/

namespace SubRosa.Keeper

open JavaScript

/-- The value of a name of a record. -/
def valueAt {α : Type} (fields : List (String × α)) (key : String) : Option α :=
  (fields.find? fun p => p.1 = key).map Prod.snd

/-- An object; a field can be set to `undefined`. -/
abbrev Entry := List (String × JsValue)

/-- `{ ...entry, ...extra }`. -/
def Entry.spread (entry extra : Entry) : Entry :=
  extra.foldl (fun made p => setField made p.1 p.2) entry

/-- `{ ...entry, roundId: id }`. -/
def Entry.withRoundId (entry : Entry) (id : String) : Entry :=
  setField entry "roundId" (some (.str id))

abbrev Rounds := List (String × Entry)

/-! ## Loading -/

/-- `normalizeRoundId(stored.roundId ?? key)`; what is no text or number has no `trim`. -/
def storedRoundId (engine : Engine) (key : String) : JsValue → Except Thrown Nat
  | none | some .null => normalizeRoundId engine (.text key)
  | some (.str s) => normalizeRoundId engine (.text s)
  | some (.num n) => normalizeRoundId engine (.number n)
  | some _ => .error (.native .typeError)

/-- One entry of the parsed file. -/
def loadEntry (engine : Engine) (rounds : Rounds) (p : String × Json) : Except Thrown Rounds :=
  match p.2 with
  | .obj stored => do
    let id ← storedRoundId engine p.1 (property engine (.obj stored) "roundId")
    let entry := Entry.spread [] (stored.map fun q => (q.1, some q.2))
    return setField rounds (toString id) (entry.withRoundId (toString id))
  | _ => .error (.error s!"invalid stored round {p.1}")

/-- The rounds of a file; whatever is thrown is caught. -/
def readStore (engine : Engine) (content : String) : Except Thrown Rounds :=
  if trim content.toList = [] then .ok []
  else do
    let parsed ← jsonParse engine content
    match ← getProperty engine (some parsed) "rounds" with
    | some (.obj fields) => (entriesOf (.obj fields)).foldlM (loadEntry engine) []
    | some (.arr items) => (entriesOf (.arr items)).foldlM (loadEntry engine) []
    | _ => return []

/-- What a store holds, and the content of its file, when there is one. -/
structure KeeperStore where
  rounds : Rounds
  content : Option String

namespace KeeperStore

/-- `new KeeperStore(storePath)`. -/
def load (engine : Engine) (content : Option String) : KeeperStore :=
  match content with
  | none => ⟨[], none⟩
  | some text =>
    match readStore engine text with
    | .ok rounds => ⟨rounds, some text⟩
    | .error _ => ⟨[], none⟩

/-! ## Saving -/

/-- An entry as it is written. -/
def entryJson (entry : Entry) : Json :=
  .obj (entry.filterMap fun p => p.2.map fun v => (p.1, v))

/-- `this.data`. -/
def dataJson (rounds : Rounds) : Json :=
  .obj [("rounds", .obj (rounds.map fun p => (p.1, entryJson p.2)))]

def saveStore (engine : Engine) (rounds : Rounds) : KeeperStore :=
  ⟨rounds, some (jsonStringifyIndented engine (dataJson rounds))⟩

/-! ## Operations -/

variable (engine : Engine)

/-- `{ lastStatus: "Unknown", retryCount: 0 }`. -/
def unknownEntry : Entry := [("lastStatus", some (.str "Unknown")), ("retryCount", some (.num 0))]

def addRound (store : KeeperStore) (roundId : RoundIdInput) (extra : Entry) :
    Except Thrown KeeperStore := do
  let id := toString (← normalizeRoundId engine roundId)
  let entry := match valueAt store.rounds id with
    | none => unknownEntry.spread extra
    | some entry => (Entry.spread [] entry).spread extra
  return saveStore engine (setField store.rounds id (entry.withRoundId id))

def removeRound (store : KeeperStore) (roundId : RoundIdInput) : Except Thrown KeeperStore := do
  let id := toString (← normalizeRoundId engine roundId)
  match valueAt store.rounds id with
  | none => return store
  | some _ => return saveStore engine (store.rounds.filter fun p => p.1 ≠ id)

def updateRound (store : KeeperStore) (roundId : RoundIdInput) (update : Entry) :
    Except Thrown KeeperStore := do
  let id := toString (← normalizeRoundId engine roundId)
  match valueAt store.rounds id with
  | none => return store
  | some entry =>
    return saveStore engine
      (setField store.rounds id (((Entry.spread [] entry).spread update).withRoundId id))

/-- The comparator is called when there are two rounds. -/
def listRounds (store : KeeperStore) : Except Thrown (List Entry) :=
  match store.rounds.map Prod.snd with
  | [] => .ok []
  | [entry] => .ok [entry]
  | entries => do
    let keyed ← entries.mapM fun entry => do
      return (← bigInt engine (valueAt entry "roundId").join, entry)
    return (keyed.mergeSort fun a b => a.1 ≤ b.1).map Prod.snd

/-! ## Runs -/

inductive Operation
  | addRound (roundId : RoundIdInput) (extra : Entry)
  | removeRound (roundId : RoundIdInput)
  | updateRound (roundId : RoundIdInput) (update : Entry)
  | listRounds

/-- An operation that throws leaves the store as it is. -/
def after (store : KeeperStore) : Operation → KeeperStore
  | .addRound roundId extra => (store.addRound engine roundId extra).toOption.getD store
  | .removeRound roundId => (store.removeRound engine roundId).toOption.getD store
  | .updateRound roundId update => (store.updateRound engine roundId update).toOption.getD store
  | .listRounds => store

def run (store : KeeperStore) (ops : List Operation) : KeeperStore :=
  ops.foldl (after engine) store

end KeeperStore

end SubRosa.Keeper
