import SubRosa.Contract.Views
import SubRosa.Sdk.Client

/-!
# The generator of bidders

`getBiddersPage` and `bidders` of `client.ts`. What the generator has yielded is
part of the state; a loop that has run through its fuel says so.
-/

namespace SubRosa.Sdk

inductive PageRequest
  | validateContractNetwork
  | getBiddersPage (roundId : UInt64) (cursor limit : UInt32)

def PageRequest.Answer : PageRequest → Type
  | validateContractNetwork => Unit
  | getBiddersPage _ _ _ => BiddersPage

/-- An asynchronous generator of addresses. -/
abbrev Generator :=
  Coroutine (ClientState × List Address) PageRequest PageRequest.Answer ClientError

def askPage (q : PageRequest) : Generator q.Answer := Coroutine.request q

namespace SubRosaClient

variable (client : SubRosaClient)

def getBiddersPage (roundId : Numeric) (cursor limit : UInt32) : Generator BiddersPage := do
  let validated ← Coroutine.inspect fun s => s.1.networkValidated
  if validated then do
    let id ← .done (client.roundId roundId)
    askPage (.getBiddersPage id cursor limit)
  else do
    askPage .validateContractNetwork
    Coroutine.change fun s => (⟨true⟩, s.2)
    let id ← .done (client.roundId roundId)
    askPage (.getBiddersPage id cursor limit)

/-- The loop of `bidders`; the result tells whether it has reached the end. -/
def biddersLoop (roundId : Numeric) : Nat → UInt32 → Generator Bool
  | 0, _ => return false
  | fuel + 1, cursor => do
    let page ← client.getBiddersPage roundId cursor 100
    Coroutine.change fun s => (s.1, s.2 ++ page.data)
    if page.nextCursor ≠ 0 then biddersLoop roundId fuel page.nextCursor
    else return true

/-- Lazily page through all bidders of a round. -/
def bidders (roundId : Numeric) (fuel : Nat) : Generator Bool := client.biddersLoop roundId fuel 0

end SubRosaClient

end SubRosa.Sdk
