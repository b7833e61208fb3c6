import SubRosa.Auction.Chronicle

/-!
# Scripted runs

Calls attempted one after the other by given transactions make a run that can
be computed. A sample deployment with toy host functions is at the end.
-/

namespace SubRosa

open MachineInt BigEndian

/-- A call with the transaction that makes it. -/
structure Attempt where
  tx : Transaction
  call : Call

/-- The chain after one attempt, when time and authorisation allow it. -/
def Chain.attempt (host : Host) (c : Chain) (a : Attempt) : Option (Chain × Event) :=
  if c.now ≤ a.tx.timestamp ∧ a.tx.auths host.currentContract = false then
    match invoke host a.tx a.call c.world with
    | .ok o => some (⟨o.world, a.tx.timestamp⟩, .called a.tx a.call o.value o.transfers)
    | .error _ => some (⟨c.world, a.tx.timestamp⟩, .failed a.tx a.call)
  else none

def Chain.exec (host : Host) (c : Chain) : List Attempt → Option (Chain × List Event)
  | [] => some (c, [])
  | a :: rest =>
    (c.attempt host a).bind fun p =>
      (p.1.exec host rest).map fun q => (q.1, p.2 :: q.2)

/-- What the call of an event returned, if it succeeded. -/
def Event.value : Event → Option Value
  | .called _ _ value _ => some value
  | _ => none

section

variable {host : Host}

theorem Chain.attempt_step {c : Chain} {a : Attempt} {p : Chain × Event}
    (h : c.attempt host a = some p) : Step host c p.2 p.1 := by
  unfold Chain.attempt at h
  split at h
  · next hguard =>
    split at h
    · next o ho =>
      rw [Option.some_inj] at h
      subst h
      exact Step.called hguard.1 hguard.2 ho
    · next e he =>
      rw [Option.some_inj] at h
      subst h
      exact Step.failed hguard.1 hguard.2 he
  · cases h

/-- A script that goes through is a run. -/
theorem Chain.exec_run {c : Chain} {script : List Attempt} {q : Chain × List Event}
    (h : c.exec host script = some q) : Run host c q.2 q.1 := by
  induction script generalizing c q with
  | nil =>
    obtain rfl := Option.some_inj.mp h
    exact Runs.Run.nil
  | cons a rest ih =>
    obtain ⟨p, hp, hrest⟩ := Option.bind_eq_some_iff.mp h
    obtain ⟨q', hq', rfl⟩ := Option.map_eq_some_iff.mp hrest
    exact Runs.Run.cons (Chain.attempt_step hp) (ih hq')

/-- What a script computes holds of some run. -/
theorem Chain.exec_reaches {α : Type} (host : Host) (c : Chain) (script : List Attempt)
    (value : Chain → List Event → α) (x : α)
    (h : (c.exec host script).map (fun q => value q.1 q.2) = some x) :
    ∃ c' events, Run host c events c' ∧ value c' events = x := by
  obtain ⟨q, hq, hx⟩ := Option.map_eq_some_iff.mp h
  exact ⟨q.1, q.2, Chain.exec_run hq, hx⟩

/-- The first call of a script succeeded when its event has a value. -/
theorem Chain.exec_reaches_first {α : Type} (host : Host) (c : Chain) (a : Attempt)
    (rest : List Attempt) (returned : Value) (value : Chain → List Event → α) (x : α)
    (h : (c.exec host (a :: rest)).map
      (fun q => (q.2.head?.bind Event.value, value q.1 q.2)) = some (some returned, x)) :
    ∃ c' events ts, Run host c events c' ∧ .called a.tx a.call returned ts ∈ events ∧
      value c' events = x := by
  obtain ⟨q, hq, hx⟩ := Option.map_eq_some_iff.mp h
  obtain ⟨hreturned, hvalue⟩ := Prod.mk.inj hx
  have hrun := Chain.exec_run hq
  obtain ⟨p, hp, hrest⟩ := Option.bind_eq_some_iff.mp hq
  obtain ⟨q', -, rfl⟩ := Option.map_eq_some_iff.mp hrest
  have hfirst : p.2.value = some returned := hreturned
  unfold Chain.attempt at hp
  split at hp
  · split at hp
    · next o _ =>
      obtain rfl := Option.some_inj.mp hp
      obtain rfl := Option.some_inj.mp hfirst
      exact ⟨_, _, o.transfers, hrun, List.mem_cons_self, hvalue⟩
    · obtain rfl := Option.some_inj.mp hp
      cases hfirst
  · cases hp

/-- A computed value is that of a successful call. -/
theorem invoke_of_value {tx : Transaction} {call : Call} {w : World} {value : Value}
    (h : (invoke host tx call w).toOption.map Outcome.value = some value) :
    ∃ o, invoke host tx call w = .ok o ∧ o.value = value := by
  cases hinvoke : invoke host tx call w with
  | ok o =>
    rw [hinvoke] at h
    exact ⟨o, rfl, Option.some_inj.mp h⟩
  | error e =>
    rw [hinvoke] at h
    cases h

/-- Two scripts after a common one are two runs from a common state. -/
theorem Chain.exec_fork {α : Type} (host : Host) (c : Chain) (script left right : List Attempt)
    (value : Chain → List Event → Chain → List Event → Chain → List Event → α) (x : α)
    (h : ((c.exec host script).bind fun p => (p.1.exec host left).bind fun q =>
      (p.1.exec host right).map fun s => value p.1 p.2 q.1 q.2 s.1 s.2) = some x) :
    ∃ d events c₁ events₁ c₂ events₂, Run host c events d ∧ Run host d events₁ c₁ ∧
      Run host d events₂ c₂ ∧ value d events c₁ events₁ c₂ events₂ = x := by
  obtain ⟨p, hp, hrest⟩ := Option.bind_eq_some_iff.mp h
  obtain ⟨q, hq, hlast⟩ := Option.bind_eq_some_iff.mp hrest
  obtain ⟨s, hs, hx⟩ := Option.map_eq_some_iff.mp hlast
  exact ⟨p.1, p.2, q.1, q.2, s.1, s.2, Chain.exec_run hp, Chain.exec_run hq, Chain.exec_run hs, hx⟩

end

/-- Two fields of a record that a computation shows together. -/
theorem exists_of_pair {α β γ : Type} {o : Option α} {f : α → β} {g : α → γ} {x : β} {y : γ}
    (h : o.map (fun a => (f a, g a)) = some (x, y)) : ∃ a, o = some a ∧ f a = x ∧ g a = y := by
  obtain ⟨a, ha, hfields⟩ := Option.map_eq_some_iff.mp h
  obtain ⟨hx, hy⟩ := Prod.mk.inj hfields
  exact ⟨a, ha, hx, hy⟩

/-- Three fields of a record that a computation shows together. -/
theorem exists_of_triple {α β γ δ : Type} {o : Option α} {f : α → β} {g : α → γ} {k : α → δ}
    {x : β} {y : γ} {z : δ} (h : o.map (fun a => (f a, g a, k a)) = some (x, y, z)) :
    ∃ a, o = some a ∧ f a = x ∧ g a = y ∧ k a = z := by
  obtain ⟨a, ha, hx, hrest⟩ := exists_of_pair h
  obtain ⟨hy, hz⟩ := Prod.mk.inj hrest
  exact ⟨a, ha, hx, hy, hz⟩

/-! ## A sample deployment -/

namespace Sample

/-- The first `n` bytes, filled up with zeros. -/
def padded (n : Nat) (x : Bytes) : BytesN n :=
  ⟨(x ++ List.replicate n 0).take n, by simp⟩

/-- Toy host functions: hashes pad, and the signature of a round is its point. -/
def host : Host where
  currentContract := .contract 0
  sha256 := padded 32
  hashToG1 := fun message _ => some (padded 96 message)
  pairingCheck := fun signatures _ =>
    match signatures with
    | [signature, point] => some (decide (signature = point))
    | _ => none
  minTemporaryTtl := 16

def config : GlobalConfig where
  drandPubkey := padded 192 []
  g2NegGenerator := padded 192 []
  dst := []
  drandGenesis := 1000
  drandPeriod := 30
  usdc := .contract 1

def lotAsset : Address := .contract 2
def operator : Address := .account 1
def alice : Address := .account 2
def bob : Address := .account 3

/-- Everybody but the contract starts with 1000 of every asset. -/
def deployed : Chain :=
  ⟨⟨{ Store.empty with config := some config },
    fun _ x => if x = host.currentContract then 0 else 1000⟩, 0⟩

theorem deployed_ok : Deployed config deployed :=
  ⟨rfl, fun _ x => by
    show 0 ≤ if x = host.currentContract then (0 : Int) else 1000
    split <;> decide⟩

/-- A transaction of `who` at a time, with every transfer accepted. -/
def tx (who : Address) (timestamp : UInt64) : Transaction :=
  ⟨timestamp, 0, fun a => decide (a = who), fun _ => true⟩

/-- The signature of a Drand round. -/
def signature (round : UInt64) : BytesN 96 :=
  padded 96 (padded 32 (encode 8 round.toNat)).val

def amount (n : Nat) : I128 := (I128.ofInt? n).getD 0

def nonce : BytesN 32 := padded 32 []

/-- The Drand round of the sample auctions, at second 1060. -/
def args : RoundArgs where
  operator := operator
  itemRef := padded 32 []
  revealRound := 3
  clearingRule := .HighestBid
  commitDeadline := 1050
  revealDeadline := 1100
  auditorPubkey := []

/-- The same auction with a reveal window that never ends. -/
def endlessArgs : RoundArgs := { args with revealDeadline := 18446744073709551615 }

def preimage (bid : Nat) : Bytes := bidPreimage (amount bid) nonce
def commitment (bid : Nat) : BytesN 32 := host.sha256 (preimage bid)

def bid (who : Address) (timestamp : UInt64) (value : Nat) : Attempt :=
  ⟨tx who timestamp, .commit 1 who (commitment value) [] (amount 50) []⟩

def openIt : Attempt := ⟨tx bob 1060, .openReveal 1 (signature 3)⟩

/-- Bob reveals a bid, his own or not. -/
def disclose (who : Address) (value : Nat) : Attempt :=
  ⟨tx bob 1070, .reveal 1 who (amount value) nonce⟩

/-- An auction of the first generation up to its opening: Alice bids 30 and
Bob 20, each with an escrow of 50. -/
def opened : List Attempt :=
  [⟨tx operator 1000, .createRound args⟩, bid alice 1010 30, bid bob 1020 20, openIt]

def reveals : List Attempt := [disclose alice 30, disclose bob 20]

/-- Up to the end of the reveal window. -/
def auction : List Attempt := opened ++ reveals

/-- Bob copies the commitment of Alice after his first commits, if any. -/
def copied (first revealed : List Attempt) : List Attempt :=
  ⟨tx operator 1000, .createRound args⟩ :: first ++
    [bid alice 1010 30, bid bob 1020 30, openIt] ++ revealed

/-- The preimages that are open so far. -/
structure Board where
  status : Status
  bids : List (Address × Option Bytes)
  deriving DecidableEq

def board (r : SealedRound) : Board :=
  ⟨r.status, r.bidders.map fun b => (b, openedBy (some r) b)⟩

/-- Alice locks 50 in the auction that never ends. -/
def endless : List Attempt :=
  [⟨tx operator 1000, .createRound endlessArgs⟩, bid alice 1010 30]

/-- The operator sells 7 of the lot asset in a round of the third generation,
with a fixed escrow of 50. -/
def saleArgs : RoundArgsV2 := { args with schemaRef := padded 32 [], maxParticipants := 5 }

def salePolicy : RoundPolicyV3 where
  partner := {
    settlement := ⟨.Auction, some config.usdc, some lotAsset, amount 7⟩
    fixedEscrow := amount 50
    eligibleParticipants := [] }
  reveal := .Timed

def sale : List Attempt :=
  [⟨tx operator 1000, .createRoundV3 saleArgs salePolicy⟩,
    ⟨tx alice 1010, .commitV2 1 alice (commitment 30) [] (amount 50) []⟩]

/-- A sale that its operator opens before the fallback. -/
def ownedArgs : RoundArgsV2 := { saleArgs with revealDeadline := 1500 }

def ownedPolicy : RoundPolicyV3 := { salePolicy with reveal := .OwnerTriggered 1200 }

def creation : Attempt := ⟨tx operator 1000, .createRoundV3 ownedArgs ownedPolicy⟩

def ownedOpening : List Attempt :=
  [⟨tx alice 1010, .commitV2 1 alice (commitment 30) [] (amount 50) []⟩,
    ⟨tx bob 1100, .openRevealV2 1 (signature 3)⟩,
    ⟨tx operator 1100, .openRevealV2 1 (signature 3)⟩]

def cleared : List Attempt := auction ++ [⟨tx bob 1101, .clear 1⟩]

def settled : List Attempt := cleared ++ [⟨tx bob 1102, .settle 1⟩]

end Sample

end SubRosa
