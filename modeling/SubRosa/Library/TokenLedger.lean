import Mathlib.Tactic
import Mathlib.Algebra.BigOperators.Group.List.Basic
import Mathlib.Algebra.Order.BigOperators.Group.List

/-!
# Balance maps and transfers

Token assets as balance maps. A transfer moves exactly its amount or fails
without effect: it fails when the amount is negative, when the source holds
less, or when `accepts` refuses it. `net` is what a list of transfers does to
one account in one asset; every balance statement goes through it.
-/

namespace TokenLedger

variable {Asset Account : Type} [DecidableEq Asset] [DecidableEq Account]

@[ext] structure Transfer (Asset Account : Type) where
  asset : Asset
  source : Account
  target : Account
  amount : Int
  deriving DecidableEq, Repr

abbrev Balances (Asset Account : Type) := Asset → Account → Int

/-- What one transfer adds to account `x` in asset `a`. -/
def Transfer.flow (t : Transfer Asset Account) (a : Asset) (x : Account) : Int :=
  if t.asset = a then
    (if t.target = x then t.amount else 0) - (if t.source = x then t.amount else 0)
  else 0

/-- What a list of transfers adds to account `x` in asset `a`. -/
def net (ts : List (Transfer Asset Account)) (a : Asset) (x : Account) : Int :=
  (ts.map fun t => t.flow a x).sum

def apply (b : Balances Asset Account) (t : Transfer Asset Account) : Balances Asset Account :=
  fun a x => b a x + t.flow a x

/-- One honest transfer. -/
def transfer? (accepts : Transfer Asset Account → Bool) (b : Balances Asset Account)
    (t : Transfer Asset Account) : Option (Balances Asset Account) :=
  if accepts t = true ∧ 0 ≤ t.amount ∧ t.amount ≤ b t.asset t.source then some (apply b t) else none

/-- A list of transfers in order; the first that fails fails the list. -/
def transferAll? (accepts : Transfer Asset Account → Bool) :
    Balances Asset Account → List (Transfer Asset Account) → Option (Balances Asset Account)
  | b, [] => some b
  | b, t :: ts => (transfer? accepts b t).bind fun b' => transferAll? accepts b' ts

@[simp] theorem net_nil (a : Asset) (x : Account) :
    net ([] : List (Transfer Asset Account)) a x = 0 := rfl

@[simp] theorem net_cons (t : Transfer Asset Account) (ts : List (Transfer Asset Account))
    (a : Asset) (x : Account) : net (t :: ts) a x = t.flow a x + net ts a x := rfl

@[simp] theorem net_append (ts us : List (Transfer Asset Account)) (a : Asset) (x : Account) :
    net (ts ++ us) a x = net ts a x + net us a x := by
  simp [net]

theorem transfer?_eq_some {accepts : Transfer Asset Account → Bool}
    {b b' : Balances Asset Account} {t : Transfer Asset Account} :
    transfer? accepts b t = some b' ↔
      (accepts t = true ∧ 0 ≤ t.amount ∧ t.amount ≤ b t.asset t.source) ∧ b' = apply b t := by
  unfold transfer?
  split
  · next h => rw [Option.some_inj]; exact ⟨fun e => ⟨h, e.symm⟩, fun e => e.2.symm⟩
  · next h => exact ⟨fun e => absurd e (by simp), fun e => absurd e.1 h⟩

@[simp] theorem transferAll?_nil (accepts : Transfer Asset Account → Bool)
    (b : Balances Asset Account) : transferAll? accepts b [] = some b := rfl

theorem transferAll?_cons (accepts : Transfer Asset Account → Bool) (b : Balances Asset Account)
    (t : Transfer Asset Account) (ts : List (Transfer Asset Account)) :
    transferAll? accepts b (t :: ts) =
      (transfer? accepts b t).bind fun b' => transferAll? accepts b' ts := rfl

theorem transferAll?_append (accepts : Transfer Asset Account → Bool) (b : Balances Asset Account)
    (ts us : List (Transfer Asset Account)) :
    transferAll? accepts b (ts ++ us) =
      (transferAll? accepts b ts).bind fun b' => transferAll? accepts b' us := by
  induction ts generalizing b with
  | nil => rfl
  | cons t ts ih =>
    simp only [List.cons_append, transferAll?_cons, Option.bind_assoc]
    cases transfer? accepts b t with
    | none => rfl
    | some b' => exact ih b'

/-- Transfers that all went through moved every balance by their net flow. -/
theorem transferAll?_balance {accepts : Transfer Asset Account → Bool}
    {b b' : Balances Asset Account} {ts : List (Transfer Asset Account)}
    (h : transferAll? accepts b ts = some b') (a : Asset) (x : Account) :
    b' a x = b a x + net ts a x := by
  induction ts generalizing b with
  | nil =>
    rw [transferAll?_nil, Option.some_inj] at h
    rw [← h, net_nil, add_zero]
  | cons t ts ih =>
    rw [transferAll?_cons] at h
    obtain ⟨c, hc, hrest⟩ := Option.bind_eq_some_iff.mp h
    obtain ⟨-, rfl⟩ := transfer?_eq_some.mp hc
    rw [ih hrest, net_cons, apply]
    omega

/-- Transfers do not move the assets they do not name. -/
theorem net_eq_zero {ts : List (Transfer Asset Account)} {a : Asset}
    (h : ∀ t ∈ ts, t.asset ≠ a) (x : Account) : net ts a x = 0 := by
  induction ts with
  | nil => rfl
  | cons t ts ih =>
    rw [net_cons, ih fun u hu => h u (List.mem_cons_of_mem _ hu), Transfer.flow,
      if_neg (h t List.mem_cons_self), add_zero]

theorem transferAll?_other {accepts : Transfer Asset Account → Bool}
    {b b' : Balances Asset Account} {ts : List (Transfer Asset Account)}
    (h : transferAll? accepts b ts = some b') {a : Asset} (ha : ∀ t ∈ ts, t.asset ≠ a) :
    b' a = b a := by
  funext x
  rw [transferAll?_balance h, net_eq_zero ha, add_zero]

theorem transferAll?_accepted {accepts : Transfer Asset Account → Bool}
    {b b' : Balances Asset Account} {ts : List (Transfer Asset Account)}
    (h : transferAll? accepts b ts = some b') :
    ∀ t ∈ ts, accepts t = true ∧ 0 ≤ t.amount := by
  induction ts generalizing b with
  | nil => simp
  | cons t ts ih =>
    rw [transferAll?_cons] at h
    obtain ⟨c, hc, hrest⟩ := Option.bind_eq_some_iff.mp h
    obtain ⟨⟨ha, h0, -⟩, -⟩ := transfer?_eq_some.mp hc
    intro u hu
    rcases List.mem_cons.mp hu with rfl | hu
    · exact ⟨ha, h0⟩
    · exact ih hrest u hu

theorem apply_nonneg {b : Balances Asset Account} {t : Transfer Asset Account}
    (hb : ∀ a x, 0 ≤ b a x) (h0 : 0 ≤ t.amount) (hle : t.amount ≤ b t.asset t.source)
    (a : Asset) (x : Account) : 0 ≤ apply b t a x := by
  have hx := hb a x
  unfold apply Transfer.flow
  by_cases ha : t.asset = a
  · subst ha
    by_cases hs : t.source = x
    · subst hs
      simp only [if_true]
      split <;> omega
    · simp only [if_true, if_neg hs]
      split <;> omega
  · simp only [if_neg ha]
    omega

/-- No balance ever becomes negative. -/
theorem transferAll?_nonneg {accepts : Transfer Asset Account → Bool}
    {b b' : Balances Asset Account} {ts : List (Transfer Asset Account)}
    (h : transferAll? accepts b ts = some b') (hb : ∀ a x, 0 ≤ b a x) : ∀ a x, 0 ≤ b' a x := by
  induction ts generalizing b with
  | nil =>
    rw [transferAll?_nil, Option.some_inj] at h
    rwa [← h]
  | cons t ts ih =>
    rw [transferAll?_cons] at h
    obtain ⟨c, hc, hrest⟩ := Option.bind_eq_some_iff.mp h
    obtain ⟨⟨-, h0, hle⟩, rfl⟩ := transfer?_eq_some.mp hc
    exact ih hrest (apply_nonneg hb h0 hle)

/-! ## Payouts from one holder -/

/-- The transfers leave `holder`, to others, with amounts that are not negative. -/
def PaidBy (holder : Account) (ts : List (Transfer Asset Account)) : Prop :=
  ∀ t ∈ ts, t.source = holder ∧ t.target ≠ holder ∧ 0 ≤ t.amount

theorem PaidBy.flow_nonpos {holder : Account} {t : Transfer Asset Account}
    (h : t.source = holder ∧ t.target ≠ holder ∧ 0 ≤ t.amount) (a : Asset) :
    t.flow a holder = if t.asset = a then -t.amount else 0 := by
  unfold Transfer.flow
  simp [h.1, h.2.1]

theorem PaidBy.net_nonpos {holder : Account} {ts : List (Transfer Asset Account)}
    (h : PaidBy holder ts) (a : Asset) : net ts a holder ≤ 0 := by
  induction ts with
  | nil => simp
  | cons t ts ih =>
    have ht := h t (by simp)
    have hrest := ih fun u hu => h u (by simp [hu])
    rw [net_cons, PaidBy.flow_nonpos ht]
    split <;> omega

/-- **Payouts go through.** A holder who has what the payouts take together
makes them all, when every one is accepted. -/
theorem PaidBy.transferAll? {accepts : Transfer Asset Account → Bool} {holder : Account}
    {b : Balances Asset Account} {ts : List (Transfer Asset Account)} (h : PaidBy holder ts)
    (hacc : ∀ t ∈ ts, accepts t = true) (hfunds : ∀ a, 0 ≤ b a holder + net ts a holder) :
    ∃ b', transferAll? accepts b ts = some b' := by
  induction ts generalizing b with
  | nil => exact ⟨b, rfl⟩
  | cons t ts ih =>
    have ht := h t (by simp)
    have hts : PaidBy holder ts := fun u hu => h u (by simp [hu])
    have hle : t.amount ≤ b t.asset t.source := by
      have hf := hfunds t.asset
      have hn := hts.net_nonpos t.asset
      rw [net_cons, PaidBy.flow_nonpos ht, if_pos rfl] at hf
      rw [ht.1]
      omega
    have hone : transfer? accepts b t = some (apply b t) :=
      transfer?_eq_some.mpr ⟨⟨hacc t (by simp), ht.2.2, hle⟩, rfl⟩
    obtain ⟨b', hb'⟩ := ih hts (fun u hu => hacc u (by simp [hu])) (b := apply b t) (by
      intro a
      have hf := hfunds a
      rw [net_cons] at hf
      rw [apply]
      omega)
    exact ⟨b', by rw [transferAll?_cons, hone]; exact hb'⟩

end TokenLedger
