import SubRosa.Contract.Storage
import SubRosa.Library.Paging

/-!
# Views

The paginated bidder index of `lib.rs`.
-/

namespace SubRosa

open Invocation Paging

/-- Maximum page size for paginated getters. -/
def maxPageSize : Nat := 100

/-- A page of bidders, with the cursor of the next page (0 if there is none). -/
structure BiddersPage where
  data : List Address
  nextCursor : UInt32
  total : UInt32

/-- The bidders from `cursor` on. The sum of `start` and `limit` is checked. -/
def getBiddersPage (roundId : UInt64) (cursor limit : UInt32) : Contract BiddersPage := do
  failIf (limit = 0 ∨ maxPageSize < limit.toNat) .InvalidLimit
  let round ← getRound roundId
  let total := round.bidders.length
  let start := min cursor.toNat total
  demand (start + limit.toNat < 2 ^ 32)
  let stop := min (start + limit.toNat) total
  let data ← okOrTrap ((List.range' start (stop - start)).mapM fun i => round.bidders[i]?)
  let nextCursor := if stop < total then stop else 0
  return ⟨data, UInt32.ofNat nextCursor, UInt32.ofNat total⟩

/-- The loop over the indices reads a part of the list. -/
theorem mapM_range'_getElem? {α : Type} (l : List α) {n : Nat} :
    ∀ {start : Nat}, start + n ≤ l.length →
      (List.range' start n).mapM (fun i => l[i]?) = some ((l.drop start).take n) := by
  induction n with
  | zero =>
    intro start _
    simp
  | succ n ih =>
    intro start h
    have hlt : start < l.length := by omega
    rw [List.range'_succ, List.mapM_cons, ih (by omega), List.getElem?_eq_getElem hlt,
      List.drop_eq_getElem_cons hlt, List.take_succ_cons]
    rfl

/-- **What a page shows.** -/
theorem yields_getBiddersPage {roundId : UInt64} {cursor limit : UInt32} {env : Env} {f : Frame}
    {round : Round} (hround : f.store.round roundId = some round)
    (hsmall : round.bidders.length ≤ maxBidders) (hlimit : 0 < limit.toNat)
    (hmax : limit.toNat ≤ maxPageSize) :
    ∃ p : BiddersPage, Yields (getBiddersPage roundId cursor limit) env f p f ∧
      p.data = (page limit.toNat round.bidders cursor.toNat).data ∧
      p.nextCursor.toNat = (page limit.toNat round.bidders cursor.toNat).next := by
  have hbound : round.bidders.length ≤ 500 := hsmall
  have hpage : limit.toNat ≤ 100 := hmax
  set start := min cursor.toNat round.bidders.length with hstart
  set stop := min (start + limit.toNat) round.bidders.length with hstop
  have hdata := @mapM_range'_getElem? _ round.bidders (stop - start) start (by omega)
  have hlimit0 : ¬ (limit = 0 ∨ maxPageSize < limit.toNat) := by
    rintro (rfl | h)
    · exact absurd hlimit (by decide)
    · exact absurd hmax (not_le.mpr h)
  refine ⟨⟨(round.bidders.drop start).take (stop - start),
    UInt32.ofNat (if stop < round.bidders.length then stop else 0),
    UInt32.ofNat round.bidders.length⟩, ?_, rfl, ?_⟩
  · unfold getBiddersPage getRound
    simp only [yields_bind, yields_failIf, yields_get, yields_okOr, yields_demand, yields_okOrTrap,
      yields_pure]
    refine ⟨(), f, ⟨hlimit0, rfl⟩, round, f, ⟨f, f, ⟨rfl, rfl⟩, hround, rfl⟩, (), f,
      ⟨by omega, rfl⟩, _, f, ⟨hdata, rfl⟩, rfl, rfl⟩
  · show (UInt32.ofNat _).toNat = if stop < round.bidders.length then stop else 0
    exact UInt32.toNat_ofNat_of_lt' (by show _ < 2 ^ 32; split <;> omega)

end SubRosa
