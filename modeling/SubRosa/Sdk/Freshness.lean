import SubRosa.Library.Double
import SubRosa.Sdk.Envelope

/-!
# The schedule of Drand rounds

`freshness.ts`: the second at which a round is due, computed in doubles and
refused where a double could be inexact.
-/

namespace SubRosa.Sdk

open JavaScript

structure DrandRoundInfo where
  genesisTime : Option Number
  period : Option Number

/-- Unix seconds at which a round is scheduled. Drand round 1 is at genesis. -/
def drandRoundTime (round : Option Number) (info : DrandRoundInfo) :
    Except Thrown (Option Number) := do
  throwIf (¬ Number.isSafe round ∨ Number.less round (some 1))
    "Drand round must be a positive safe integer"
  throwIf (¬ Number.isSafe info.genesisTime ∨ Number.less info.genesisTime (some 0) ∨
      ¬ Number.isSafe info.period ∨ ¬ Number.less (some 0) info.period)
    "Invalid Drand genesis or period"
  let time := Number.add info.genesisTime (Number.mul info.period (Number.sub round (some 1)))
  throwIf (¬ Number.isSafe time) "Drand round time exceeds safe integer range"
  return time

end SubRosa.Sdk
