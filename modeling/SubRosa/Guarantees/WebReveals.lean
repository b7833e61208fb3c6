import SubRosa.Guarantees.Completeness
import SubRosa.Guarantees.Permanence
import SubRosa.Guarantees.PilotLoads
import SubRosa.Web.Reveal

/-!
# What the web client reveals

The reveal loops of the web client go through the cohort in the order of the
index, inside one `try`. A submission that nobody can open stops the loop, and
nothing behind it is revealed; the loops differ in what they make of a seal
that is gone. Both are followed with the same rule. The round is loaded again
inside the `try`, which the pilot page may fail to do.
-/

namespace SubRosa.Web

open JavaScript Keeper

/-! ## The network of a wallet -/

/-- The text names the error `AlreadyRevealed` exactly when that is the error reported. -/
def Worded (r : Rejection) : Prop :=
  ∀ e, Reports r e → (isSubmissionAlreadyRevealed r = true ↔ e = .AlreadyRevealed)

/-- An answer to the web client. -/
def Answers (n : Network) (c : Scene) (q : Request) (a : Except Rejection q.Answer) (d : Scene) :
    Prop :=
  n.Answers c q a d ∧ ((n.call q).isSome = true → ∀ r, a = .error r → Worded r)

/-- The network works, and nobody else calls the contract for this round. Seals can expire. -/
structure Quiet (n : Network) (key : RoundKey) (deadline : UInt64) : Prop where
  undisturbed : ∀ c d, n.elapses c d → Undisturbed n.host key deadline c d
  elapse : ∀ c, c.2.now ≤ deadline → ∃ d, n.elapses c d
  published : ∀ c round, ∃ b, n.published c round b
  relays : ∀ c round, ∃ a, n.relays c round a

/-- The opening policy of the round does not lapse while the client waits. -/
def KeepsPolicy (n : Network) (id : UInt64) : Prop :=
  ∀ c d, n.elapses c d →
    (d.2.world.store.revealV3 id).isSome = (c.2.world.store.revealV3 id).isSome

/-- The same network with seals that do not expire. -/
def lasting (n : Network) : Network := { n with expired := fun _ _ _ => False }

/-! ## A loop over a cohort -/

/-- The records `S` that a loop reads, and what it makes of them. -/
structure RevealLoop (S : Type) where
  network : Network
  isRevealed : S → Bool
  Accepts : S → Bytes → Prop
  /-- What the contract makes of a record when it accepts the bytes. -/
  Records : S → Bytes → S → Prop
  /-- What a read of the seal can show. -/
  MayShow : Address → Option Seal → Prop
  ciphertext : Address → Option Seal → Option Bytes
  /-- The loop goes on without a ciphertext. -/
  skips : Prop

namespace RevealLoop

variable {S : Type} (L : RevealLoop S)

/-- The seal opens to something that the contract accepts. -/
def Opens (b : Address) (stored : Option Seal) (state : S) : Prop :=
  ∃ t x, L.ciphertext b stored = some t ∧ L.network.tlock t = .ok x ∧ L.Accepts state x

/-- A record is revealed afterwards when it was before or `opens` holds. It then holds what its seal
opens to, and otherwise stays. -/
structure Turns (b : Address) (stored : Option Seal) (state state' : S) (opens : Prop) : Prop where
  revealed : L.isRevealed state' = true ↔ L.isRevealed state = true ∨ opens
  change : state' = state ∨ ∃ t x, L.ciphertext b stored = some t ∧ L.network.tlock t = .ok x ∧
    L.Records state x state'

/-- The loop cannot go past this record. -/
structure Blocks (b : Address) (stored : Option Seal) (state : S) : Prop where
  unrevealed : L.isRevealed state = false
  present : L.skips → L.ciphertext b stored ≠ none
  closed : ¬ L.Opens b stored state

/-- The loop has gone past this bidder. -/
def Passed (old new : Address → Option S) (b : Address) : Prop :=
  ∃ stored state state', L.MayShow b stored ∧ old b = some state ∧ new b = some state' ∧
    ¬ L.Blocks b stored state ∧ L.Turns b stored state state' (L.Opens b stored state)

/-- The loop has stopped at this bidder. -/
def Stopped (old new : Address → Option S) (b : Address) : Prop :=
  ∃ stored state, L.MayShow b stored ∧ old b = some state ∧ new b = some state ∧
    L.Blocks b stored state

/-- A record is revealed afterwards when it was before, or when its seal opens and no earlier one
blocks. -/
def RevealsUpTo (seen : Address → Option Seal) (old new : Address → Option S)
    (l : List Address) : Prop :=
  ∀ earlier b later, l = earlier ++ b :: later → ∃ state state',
    old b = some state ∧ new b = some state' ∧
    L.Turns b (seen b) state state' (L.Opens b (seen b) state ∧
      ∀ b' ∈ earlier, ∀ s, old b' = some s → ¬ L.Blocks b' (seen b') s)

/-- Nobody blocks the loop. -/
def Free (seen : Address → Option Seal) (old : Address → Option S) (l : List Address) : Prop :=
  ∀ b ∈ l, ∀ s, old b = some s → ¬ L.Blocks b (seen b) s

variable {L} {old new : Address → Option S} {l : List Address}

theorem Turns.congr {b : Address} {stored : Option Seal} {state state' : S} {p q : Prop}
    (h : L.Turns b stored state state' p) (hpq : p ↔ q) : L.Turns b stored state state' q :=
  ⟨h.revealed.trans (or_congr_right hpq), h.change⟩

theorem Turns.stays {b : Address} {stored : Option Seal} {state : S} {p : Prop}
    (h : p → L.isRevealed state = true) : L.Turns b stored state state p :=
  ⟨(or_iff_left_of_imp h).symm, Or.inl rfl⟩

/-- The reads behind the records that the loop has gone past. -/
theorem exists_seen {done : List Address} (h : ∀ b ∈ done, L.Passed old new b)
    (hmay : ∀ b, ∃ stored, L.MayShow b stored) :
    ∃ seen : Address → Option Seal, ∀ b, L.MayShow b (seen b) ∧ (b ∈ done → ∃ state state',
      old b = some state ∧ new b = some state' ∧ ¬ L.Blocks b (seen b) state ∧
      L.Turns b (seen b) state state' (L.Opens b (seen b) state)) := by
  have hseen : ∀ b, ∃ stored, L.MayShow b stored ∧ (b ∈ done → ∃ state state',
      old b = some state ∧ new b = some state' ∧ ¬ L.Blocks b stored state ∧
      L.Turns b stored state state' (L.Opens b stored state)) := by
    intro b
    by_cases hb : b ∈ done
    · obtain ⟨stored, state, state', hstored, hrest⟩ := h b hb
      exact ⟨stored, hstored, fun _ => ⟨state, state', hrest⟩⟩
    · obtain ⟨stored, hstored⟩ := hmay b
      exact ⟨stored, hstored, fun hb' => absurd hb' hb⟩
  choose seen hseen using hseen
  exact ⟨seen, hseen⟩

/-- A loop that has gone past everybody. -/
theorem reveals_all (h : ∀ b ∈ l, L.Passed old new b) (hmay : ∀ b, ∃ stored, L.MayShow b stored) :
    ∃ seen, (∀ b, L.MayShow b (seen b)) ∧ L.Free seen old l ∧ L.RevealsUpTo seen old new l := by
  obtain ⟨seen, hseen⟩ := exists_seen h hmay
  have hfree : L.Free seen old l := by
    intro b hb s hs
    obtain ⟨state, -, hold, -, hnot, -⟩ := (hseen b).2 hb
    rwa [Option.some_inj.mp (hs.symm.trans hold)]
  refine ⟨seen, fun b => (hseen b).1, hfree, ?_⟩
  rintro earlier b later rfl
  obtain ⟨state, state', hold, hnew, -, hturns⟩ := (hseen b).2 (by simp)
  refine ⟨state, state', hold, hnew, hturns.congr ?_⟩
  have hearlier : ∀ b' ∈ earlier, ∀ s, old b' = some s → ¬ L.Blocks b' (seen b') s :=
    fun b' hb' => hfree b' (by simp [hb'])
  exact ⟨fun hopens => ⟨hopens, hearlier⟩, And.left⟩

/-- A loop that has stopped at `a`. -/
theorem reveals_until {done rest : List Address} {a : Address}
    (hnodup : (done ++ a :: rest).Nodup) (hdone : ∀ b ∈ done, L.Passed old new b)
    (hstop : L.Stopped old new a) (hrest : ∀ b ∈ rest, new b = old b ∧ ∃ s, old b = some s)
    (hmay : ∀ b, ∃ stored, L.MayShow b stored) :
    ∃ seen, (∀ b, L.MayShow b (seen b)) ∧ ¬ L.Free seen old (done ++ a :: rest) ∧
      L.RevealsUpTo seen old new (done ++ a :: rest) := by
  obtain ⟨before, hbefore⟩ := exists_seen hdone hmay
  obtain ⟨stored, state, hstored, hold, hnew, hblocks⟩ := hstop
  have hout : a ∉ done := fun ha => (List.nodup_append.mp hnodup).2.2 a ha a (by simp) rfl
  -- what was read of the bidder that stops the loop
  let seen := Function.update before a stored
  have hself : seen a = stored := Function.update_self ..
  have hother : ∀ b ∈ done, seen b = before b := by
    intro b hb
    have hba : b ≠ a := fun hba => hout (hba ▸ hb)
    exact Function.update_of_ne hba ..
  have hblocked : L.Blocks a (seen a) state := hself ▸ hblocks
  have hpassed : ∀ b ∈ done, ∃ state state', old b = some state ∧ new b = some state' ∧
      ¬ L.Blocks b (seen b) state ∧
      L.Turns b (seen b) state state' (L.Opens b (seen b) state) := by
    intro b hb
    rw [hother b hb]
    exact (hbefore b).2 hb
  have hstuck : ∀ free : Prop, ∃ s s', old a = some s ∧ new a = some s' ∧
      L.Turns a (seen a) s s' (L.Opens a (seen a) s ∧ free) := by
    intro free
    exact ⟨state, state, hold, hnew, Turns.stays fun h => absurd h.1 hblocked.closed⟩
  refine ⟨seen, fun b => ?_, fun hfree => ?_, ?_⟩
  · by_cases hb : b = a
    · rw [hb, hself]
      exact hstored
    · rw [show seen b = before b from Function.update_of_ne hb ..]
      exact (hbefore b).1
  · exact hfree a (by simp) state hold hblocked
  · intro earlier b later hsplit
    rcases List.append_eq_append_iff.mp hsplit with ⟨more, rfl, hmore⟩ | ⟨more, rfl, hmore⟩
    · cases more with
      | nil =>
        obtain ⟨rfl, -⟩ := List.cons.inj hmore
        exact hstuck _
      | cons a' more =>
        obtain ⟨rfl, rfl⟩ := List.cons.inj hmore
        obtain ⟨hsame, s, hs⟩ := hrest b (by simp)
        refine ⟨s, s, hs, hsame.trans hs, Turns.stays ?_⟩
        rintro ⟨-, hfree⟩
        exact absurd hblocked (hfree a (by simp) state hold)
    · cases more with
      | nil =>
        obtain ⟨rfl, -⟩ := List.cons.inj hmore
        exact hstuck _
      | cons b' more =>
        obtain ⟨rfl, -⟩ := List.cons.inj hmore
        obtain ⟨s, s', hs, hs', -, hturns⟩ := hpassed b (by simp)
        refine ⟨s, s', hs, hs', hturns.congr ⟨fun hopens => ⟨hopens, ?_⟩, And.left⟩⟩
        intro x hx t ht
        obtain ⟨state', -, hold', -, hnot, -⟩ := hpassed x (by simp [hx])
        rwa [Option.some_inj.mp (ht.symm.trans hold')]

theorem passed_before {b : Address} {stored : Option Seal} {state : S} (hmay : L.MayShow b stored)
    (hold : old b = some state) (hnew : new b = some state) (h : L.isRevealed state = true) :
    L.Passed old new b := by
  refine ⟨stored, state, state, hmay, hold, hnew, fun hblocks => ?_, Turns.stays fun _ => h⟩
  exact Bool.false_ne_true (hblocks.unrevealed.symm.trans h)

theorem passed_opened {b : Address} {stored : Option Seal} {state state' : S} {t x : Bytes}
    (hmay : L.MayShow b stored) (hold : old b = some state) (hnew : new b = some state')
    (ht : L.ciphertext b stored = some t) (hx : L.network.tlock t = .ok x)
    (haccepts : L.Accepts state x) (hrecords : L.Records state x state')
    (h : L.isRevealed state' = true) : L.Passed old new b := by
  have hopens : L.Opens b stored state := ⟨t, x, ht, hx, haccepts⟩
  exact ⟨stored, state, state', hmay, hold, hnew, fun hblocks => hblocks.closed hopens,
    iff_of_true h (Or.inr hopens), Or.inr ⟨t, x, ht, hx, hrecords⟩⟩

theorem passed_skipped {b : Address} {stored : Option Seal} {state : S}
    (hmay : L.MayShow b stored) (hold : old b = some state) (hnew : new b = some state)
    (hskips : L.skips) (hnone : L.ciphertext b stored = none) : L.Passed old new b := by
  refine ⟨stored, state, state, hmay, hold, hnew, fun hblocks => hblocks.present hskips hnone,
    Turns.stays ?_⟩
  rintro ⟨t, x, ht, -⟩
  cases hnone.symm.trans ht

theorem Passed.congr {new' : Address → Option S} {b : Address} (h : L.Passed old new b)
    (hsame : new' b = new b) : L.Passed old new' b := by
  obtain ⟨stored, state, state', hstored, hold, hnew, hrest⟩ := h
  exact ⟨stored, state, state', hstored, hold, hsame.trans hnew, hrest⟩

/-- One round of a loop over `l`: it goes past the bidder or stops there, and writes no other
record. -/
def Rounds {β : Type} (L : RevealLoop S) (l : List Address) (P : β → Scene → Prop)
    (records : Scene → Address → Option S) (old : Address → Option S)
    (f : β → Address → Pass β) : Prop :=
  ∀ acc c b r d, b ∈ l → P acc c → records c b = old b →
    (f acc b).Ends (Answers L.network) c r d →
    ((∃ acc', r = .ok acc' ∧ P acc' d) ∧ L.Passed old (records d) b ∨
      (∃ e, r = .error e) ∧ L.Stopped old (records d) b) ∧
    ∀ other, other ≠ b → records d other = records c other

/-- **The rule of the two loops.** -/
theorem Rounds.ends {β : Type} {P : β → Scene → Prop} {records : Scene → Address → Option S}
    {f : β → Address → Pass β} {c d : Scene} (hround : L.Rounds l P records (records c) f)
    (hnodup : l.Nodup) (hrecorded : ∀ b ∈ l, ∃ s, records c b = some s)
    (hmay : ∀ b, ∃ stored, L.MayShow b stored) {acc : β} {r : Except Rejection β} (hP : P acc c)
    (hends : (l.foldlM f acc).Ends (Answers L.network) c r d) :
    (∀ b, b ∉ l → records d b = records c b) ∧
    ∃ seen, (∀ b, L.MayShow b (seen b)) ∧
      L.RevealsUpTo seen (records c) (records d) l ∧
      ((∃ acc', r = .ok acc' ∧ P acc' d) ∧ L.Free seen (records c) l ∨
        (∃ e, r = .error e) ∧ ¬ L.Free seen (records c) l) := by
  obtain ⟨houtside, hcase⟩ := Coroutine.ends_foldlM_stop
    (T := fun b e => records e b = records c b)
    (D := fun b e => L.Passed (records c) (records e) b)
    (S := fun b e => L.Stopped (records c) (records e) b)
    (fun acc b e r e' hb he htodo hends => by
      obtain ⟨hitem, hothers⟩ := hround acc e b r e' hb he htodo hends
      refine ⟨hitem, fun other hne => ⟨(hothers other hne).trans, ?_⟩⟩
      exact fun h => h.congr (hothers other hne))
    hnodup hP (fun _ _ => rfl) hends
  refine ⟨fun b hb => (houtside b hb).1 rfl, ?_⟩
  rcases hcase with ⟨hr, hall⟩ | ⟨done, a, rest, hr, rfl, hdone, hstop, hrest⟩
  · obtain ⟨seen, hseen, hfree, hreveals⟩ := reveals_all hall hmay
    exact ⟨seen, hseen, hreveals, Or.inl ⟨hr, hfree⟩⟩
  · have hlater : ∀ b ∈ rest, records d b = records c b ∧ ∃ s, records c b = some s :=
      fun b hb => ⟨hrest b hb, hrecorded b (by simp [hb])⟩
    obtain ⟨seen, hseen, hfree, hreveals⟩ := reveals_until hnodup hdone hstop hlater hmay
    exact ⟨seen, hseen, hreveals, Or.inr ⟨hr, hfree⟩⟩

/-! ### Only the pending ones -/

/-- The bidder has an unrevealed record. -/
def isPending (L : RevealLoop S) (old : Address → Option S) (b : Address) : Bool :=
  (old b).any fun s => !L.isRevealed s

theorem isPending_iff {b : Address} {s : S} (hs : old b = some s) :
    L.isPending old b = true ↔ L.isRevealed s = false := by
  simp [isPending, hs]

theorem not_blocks {b : Address} {stored : Option Seal} {s : S} (hs : old b = some s)
    (hp : ¬ L.isPending old b = true) : ¬ L.Blocks b stored s :=
  fun hblocks => hp ((isPending_iff hs).mpr hblocks.unrevealed)

theorem free_filter {seen : Address → Option Seal} :
    L.Free seen old (l.filter (L.isPending old)) ↔ L.Free seen old l := by
  constructor
  · intro hfree b hb s hs
    by_cases hp : L.isPending old b = true
    · exact hfree b (List.mem_filter.mpr ⟨hb, hp⟩) s hs
    · exact not_blocks hs hp
  · exact fun hfree b hb => hfree b (List.mem_filter.mp hb).1

/-- A loop over the pending ones reveals of all what it reveals of them. -/
theorem RevealsUpTo.of_pending {seen : Address → Option Seal}
    (hreveals : L.RevealsUpTo seen old new (l.filter (L.isPending old)))
    (hrecorded : ∀ b ∈ l, ∃ s, old b = some s)
    (hothers : ∀ b, b ∉ l.filter (L.isPending old) → new b = old b) :
    L.RevealsUpTo seen old new l := by
  rintro earlier b later rfl
  obtain ⟨s, hs⟩ := hrecorded b (by simp)
  by_cases hp : L.isPending old b = true
  · obtain ⟨state, state', hold, hnew, hturns⟩ :=
      hreveals (earlier.filter (L.isPending old)) b (later.filter (L.isPending old)) (by simp [hp])
    exact ⟨state, state', hold, hnew, hturns.congr (and_congr_right fun _ => free_filter)⟩
  · have hrevealed : L.isRevealed s = true := by
      simpa using mt (isPending_iff hs).mpr hp
    have hout : b ∉ (earlier ++ b :: later).filter (L.isPending old) :=
      fun hb => hp (List.mem_filter.mp hb).2
    exact ⟨s, s, hs, (hothers b hout).trans hs, Turns.stays fun _ => hrevealed⟩

/-- Some record is revealed that was not before. -/
def RevealsSome (L : RevealLoop S) (old new : Address → Option S) : Prop :=
  ∃ b s s', old b = some s ∧ new b = some s' ∧ L.isRevealed s = false ∧ L.isRevealed s' = true

theorem not_revealsSome (old : Address → Option S) : ¬ L.RevealsSome old old := by
  rintro ⟨b, s, s', hs, hs', hnot, hrevealed⟩
  obtain rfl : s = s' := Option.some_inj.mp (hs.symm.trans hs')
  exact Bool.false_ne_true (hnot.symm.trans hrevealed)

end RevealLoop

/-! ## The answers -/

open RevealLoop

section

variable {config : GlobalConfig} {c d : Scene} {key : RoundKey} {deadline : UInt64} {n : Network}
  {w : World}

/-- How a simulation shows a contract error is worded. -/
theorem worded_code (e : Error) : Worded ⟨codeCause e, []⟩ := by
  intro e' h
  obtain rfl := (reports_codeCause e).unique h
  cases e' <;> decide +kernel

/-- A call that can be answered can be answered in such words. -/
theorem exists_worded {α : Type} {call : Option Call} {f : Value → α} {a : Except Rejection α}
    (h : n.Submits c call f a d) : ∃ a', n.Submits c call f a' d ∧
      (call.isSome = true → ∀ r, a' = .error r → Worded r) := by
  cases call with
  | none => exact ⟨a, h, fun hcall => absurd hcall Bool.false_ne_true⟩
  | some call =>
    obtain ⟨tx, htime, hself, h⟩ := h
    cases hinvoke : invoke n.host tx call c.2.world with
    | ok o =>
      rw [hinvoke] at h
      refine ⟨a, ⟨tx, htime, hself, by rw [hinvoke]; exact h⟩, fun _ r hr => ?_⟩
      cases h.1.symm.trans hr
    | error failure =>
      rw [hinvoke] at h
      obtain ⟨e, he⟩ : ∃ e : Error, ∀ e', failure = .error e' → Reports ⟨codeCause e, []⟩ e' := by
        cases failure with
        | error e =>
          refine ⟨e, fun e' he => ?_⟩
          cases he
          exact reports_codeCause e
        | trap =>
          refine ⟨.AlreadyRevealed, fun e' he => ?_⟩
          cases he
      refine ⟨.error ⟨codeCause e, []⟩, ⟨tx, htime, hself, ?_⟩, fun _ r hr => ?_⟩
      · rw [hinvoke]
        exact ⟨h.1, _, rfl, he⟩
      · obtain rfl := Except.error.inj hr
        exact worded_code e

theorem serves_worded {q : Request} {a : Except Rejection q.Answer} (h : n.Serves c q a d) :
    ∃ a', n.Serves c q a' d ∧ ((n.call q).isSome = true → ∀ r, a' = .error r → Worded r) := by
  cases q with
  | openReveal => exact exists_worded (f := fun _ => ()) h
  | openRevealV2 => exact exists_worded (f := fun _ => ()) h
  | reveal => exact exists_worded (f := fun _ => ()) h
  | revealV2 => exact exists_worded (f := fun _ => ()) h
  | clear => exact exists_worded h
  | clearV2 => exact exists_worded h
  | settle => exact exists_worded (f := fun _ => ()) h
  | settleV2 => exact exists_worded (f := fun _ => ()) h
  | void => exact exists_worded (f := fun _ => ()) h
  | voidV2 => exact exists_worded (f := fun _ => ()) h
  | _ => exact ⟨a, h, fun hcall => absurd hcall Bool.false_ne_true⟩

/-- Whatever the web client asks for, it comes to an end. -/
theorem Quiet.exists_ends (hn : Quiet n key deadline) (hbefore : c.2.now ≤ deadline) {α : Type}
    (x : Pass α) : ∃ r d, x.Ends (Answers n) c r d := by
  have hanswer : ∀ c q, c.2.now ≤ deadline → ∃ a d, Answers n c q a d ∧ d.2.now ≤ deadline := by
    intro c q hc
    obtain ⟨c', helapses⟩ := hn.elapse c hc
    obtain ⟨a, d, hserves, hnow⟩ := exists_serves hn.published hn.relays c' q
    obtain ⟨_, _, -, -, -, -, hto⟩ := hn.undisturbed c c' helapses
    obtain ⟨a', hserves', hworded⟩ := serves_worded hserves
    exact ⟨a', d, ⟨⟨c', helapses, hserves'⟩, hworded⟩, hnow ▸ hto⟩
  obtain ⟨r, d, hends, -⟩ := Coroutine.exists_ends (P := fun c : Scene => c.2.now ≤ deadline)
    (fun _ _ hc => hc) hanswer x hbefore
  exact ⟨r, d, hends⟩

theorem Quiet.works (hn : Quiet n key deadline) : (lasting n).Works key deadline where
  undisturbed := hn.undisturbed
  present _ _ := id
  elapse := hn.elapse
  published := hn.published
  relays := hn.relays

theorem Quiet.elapsed (hn : Quiet n key deadline) (h : Window n config key deadline w c)
    (helapses : n.elapses c d) :
    Window n config key deadline w d ∧ SameStates c.2.world d.2.world key := by
  have h' : Window (lasting n) config key deadline w c := ⟨h.sound, h.same, h.before⟩
  obtain ⟨hd, hsame⟩ := h'.elapse hn.works helapses
  exact ⟨⟨hd.sound, hd.same, hd.before⟩, hsame⟩

theorem Quiet.answer (hn : Quiet n key deadline) (h : Window n config key deadline w c)
    {q : Request} {a : Except Rejection q.Answer} (ha : n.Answers c q a d) :
    ∃ c', Window n config key deadline w c' ∧ SameStates c.2.world c'.2.world key ∧
      n.Serves c' q a d := by
  obtain ⟨c', helapses, hserves⟩ := ha
  obtain ⟨hc', hsame⟩ := hn.elapsed h helapses
  exact ⟨c', hc', hsame, hserves⟩

/-- What a read of a seal can show in the window. -/
def MayShow (n : Network) (w : World) (key : RoundKey) (b : Address) (stored : Option Seal) :
    Prop :=
  stored = w.sealOf key b ∨ stored = none ∧ ∃ c, n.expired c key b

theorem exists_mayShow (n : Network) (w : World) (key : RoundKey) (b : Address) :
    ∃ stored, MayShow n w key b stored := ⟨_, Or.inl rfl⟩

theorem shows_seal (h : Window n config key deadline w c) {f : Int → Option RoundKey} {i : Int}
    (hkey : f i = some key) {b : Address} {a : Except Rejection (Option Seal)}
    (hshows : n.Shows c f i b a) : ∃ stored, a = .ok stored ∧ MayShow n w key b stored := by
  unfold Network.Shows at hshows
  rw [hkey] at hshows
  rcases hshows with rfl | ⟨hexpired, rfl⟩
  · exact ⟨_, rfl, Or.inl (h.same.sealOf b)⟩
  · exact ⟨none, rfl, Or.inr ⟨rfl, c, hexpired⟩⟩

/-- Opening a seal returns what its plaintext decodes to, or throws when there is nothing. -/
theorem Quiet.opens {X : Type} {decode : Bytes → Except Thrown X} {deps : KeeperDeps}
    (hn : Quiet n key deadline) (h : Window n config key deadline w c) {ciphertext : Bytes}
    {o : Except Rejection X}
    (hends : (call (do
      let plaintext ← ask (.timelockDecrypt ciphertext)
      lift deps (decode plaintext))).Ends n.Answers c o d) :
    Window n config key deadline w d ∧ SameStates c.2.world d.2.world key ∧
      ((∃ x y, n.tlock ciphertext = .ok x ∧ decode x = .ok y ∧ o = .ok y) ∨
        (∃ e, o = .error e) ∧ ∀ x y, n.tlock ciphertext = .ok x → decode x ≠ .ok y) := by
  obtain ⟨d', hopen, helapses⟩ := ends_call.mp hends
  rcases Coroutine.ends_bind.mp hopen with ⟨plaintext, d₁, hask, hlift⟩ | ⟨e, rfl, hask⟩
  · obtain ⟨c₁, hc₁, hsame₁, rfl, htlock⟩ := hn.answer h (ends_ask.mp hask)
    obtain ⟨rfl, rfl⟩ := ends_lift.mp hlift
    obtain ⟨hd, hsame⟩ := hn.elapsed hc₁ helapses
    refine ⟨hd, hsame₁.trans hsame, ?_⟩
    cases hdecode : decode plaintext with
    | ok y => exact Or.inl ⟨plaintext, y, htlock.symm, hdecode, rfl⟩
    | error thrown =>
      refine Or.inr ⟨⟨_, rfl⟩, fun x y hx => ?_⟩
      obtain rfl := Except.ok.inj (htlock.trans hx)
      simp [hdecode]
  · obtain ⟨c₁, hc₁, hsame₁, rfl, htlock⟩ := hn.answer h (ends_ask.mp hask)
    obtain ⟨hd, hsame⟩ := hn.elapsed hc₁ helapses
    refine ⟨hd, hsame₁.trans hsame, Or.inr ⟨⟨e, rfl⟩, fun x y hx => ?_⟩⟩
    cases htlock.trans hx

/-- Open a ciphertext and go on with what it decodes to. -/
def openThen {X β : Type} (deps : KeeperDeps) (decode : Bytes → Except Thrown X)
    (ciphertext : Option Bytes) (missing : Pass β) (conclude : X → Pass β) : Pass β :=
  match ciphertext with
  | none => missing
  | some t => do
    let y ← call (do
      let plaintext ← ask (.timelockDecrypt t)
      lift deps (decode plaintext))
    conclude y

/-- The rest of a round of the loop, once the seal of an unrevealed bidder has been read. -/
theorem openThen_ends {S X β : Type} (L : RevealLoop S) (P : β → Scene → Prop)
    (records : Scene → Address → Option S) {old : Address → Option S} {b : Address}
    {stored : Option Seal} {state : S} {deps : KeeperDeps} {decode : Bytes → Except Thrown X}
    {missing : Pass β} {conclude : X → Pass β} {r : Except Rejection β}
    (hn : Quiet L.network key deadline)
    (hrecords : ∀ {c d : Scene}, SameStates c.2.world d.2.world key → records d = records c)
    (hc : Window L.network config key deadline w c) (hmay : L.MayShow b stored)
    (hold : old b = some state) (hstate : records c b = some state)
    (hnot : L.isRevealed state = false) (hdecodes : ∀ {x}, L.Accepts state x →
      ∃ y, decode x = .ok y)
    (hmissing : ∀ {r d}, missing.Ends (Answers L.network) c r d →
      d = c ∧ ((∃ acc, r = .ok acc ∧ P acc c) ∧ L.skips ∨ (∃ e, r = .error e) ∧ ¬ L.skips))
    (hconclude : ∀ {x y e r d}, Window L.network config key deadline w e →
      records e = records c → decode x = .ok y → (conclude y).Ends (Answers L.network) e r d →
      ((∃ acc, r = .ok acc ∧ P acc d) ∧ L.Accepts state x ∧ ∃ state',
        L.isRevealed state' = true ∧ L.Records state x state' ∧
        records d = Function.update (records c) b (some state')) ∨
      ((∃ e, r = .error e) ∧ ¬ L.Accepts state x ∧ records d = records c))
    (hends : (openThen deps decode (L.ciphertext b stored) missing conclude).Ends
      (Answers L.network) c r d) :
    ((∃ acc, r = .ok acc ∧ P acc d) ∧ L.Passed old (records d) b ∨
      (∃ e, r = .error e) ∧ L.Stopped old (records d) b) ∧
    ∀ other, other ≠ b → records d other = records c other := by
  have hstopped : ∀ {e : Scene}, records e = records c →
      (L.skips → L.ciphertext b stored ≠ none) → ¬ L.Opens b stored state →
      L.Stopped old (records e) b := by
    intro e hsame hpresent hclosed
    exact ⟨stored, state, hmay, hold, by rw [hsame, hstate], hnot, hpresent, hclosed⟩
  rcases Option.eq_none_or_eq_some (L.ciphertext b stored) with hnone | ⟨t, ht⟩
  · rw [hnone] at hends
    obtain ⟨rfl, hcase⟩ := hmissing hends
    refine ⟨hcase.imp ?_ ?_, fun _ _ => rfl⟩
    · rintro ⟨hok, hskips⟩
      exact ⟨hok, passed_skipped hmay hold hstate hskips hnone⟩
    · rintro ⟨herror, hskips⟩
      refine ⟨herror, hstopped rfl (fun h => absurd h hskips) ?_⟩
      rintro ⟨t, x, ht, -⟩
      cases hnone.symm.trans ht
  · have hpresent : L.skips → L.ciphertext b stored ≠ none := by simp [ht]
    rw [ht] at hends
    rcases Coroutine.ends_bind.mp hends with ⟨y, c₁, hcall, hends⟩ | ⟨e, rfl, hcall⟩
    · obtain ⟨hc₁, hsame, ⟨x, y', hx, hdecode, hy⟩ | ⟨⟨e, he⟩, -⟩⟩ :=
        hn.opens hc (hcall.mono fun _ _ _ _ h => h.1)
      · obtain rfl : y = y' := Except.ok.inj hy
        have hsame := hrecords hsame
        rcases hconclude hc₁ hsame hdecode hends with
          ⟨hok, haccepts, state', hrevealed, hmarks, hupdate⟩ | ⟨herror, hrejects, hkept⟩
        · have hnew : records d b = some state' := by rw [hupdate, Function.update_self]
          refine ⟨Or.inl ⟨hok, passed_opened hmay hold hnew ht hx haccepts hmarks hrevealed⟩,
            fun other hne => ?_⟩
          rw [hupdate, Function.update_of_ne hne]
        · refine ⟨Or.inr ⟨herror, hstopped hkept hpresent ?_⟩, fun _ _ => by rw [hkept]⟩
          rintro ⟨t', x', ht', hx', haccepts⟩
          obtain rfl : t = t' := Option.some_inj.mp (ht.symm.trans ht')
          obtain rfl : x = x' := Except.ok.inj (hx.symm.trans hx')
          exact hrejects haccepts
      · cases he
    · obtain ⟨-, hsame, ⟨x, y, -, -, hy⟩ | ⟨-, hclosed⟩⟩ :=
        hn.opens hc (hcall.mono fun _ _ _ _ h => h.1)
      · cases hy
      · have hsame := hrecords hsame
        refine ⟨Or.inr ⟨⟨e, rfl⟩, hstopped hsame hpresent ?_⟩, fun _ _ => by rw [hsame]⟩
        rintro ⟨t', x, ht', hx, haccepts⟩
        obtain rfl : t = t' := Option.some_inj.mp (ht.symm.trans ht')
        obtain ⟨y, hdecode⟩ := hdecodes haccepts
        exact hclosed x y hx hdecode

end

/-! ## The pilot page -/

/-- The loop of `revealAll`. -/
def pilotLoop (n : Network) (w : World) (id : UInt64) (mode : RoundMode) :
    RevealLoop SubmissionStateV2 where
  network := n
  isRevealed state := state.revealedEnvelope.isSome
  Accepts := AcceptsEnvelope n.host mode
  Records := MarksEnvelope
  MayShow := MayShow n w (.v2 id)
  ciphertext _ stored := stored.map Seal.ciphertext
  skips := False

section

variable {config : GlobalConfig} {c d : Scene} {id : UInt64} {n : Network} {w : World}
  {round : RoundV2} {b : Address} {state : SubmissionStateV2} {client : RevealClient}

/-- The contract does not take an unrevealed submission for a revealed one. -/
theorem refusedV2 (h : Window n config (.v2 id) round.revealDeadline w c)
    (hr : w.store.roundV2 id = some round) (hst : round.status = .Revealing)
    (hstate : c.2.world.store.submissionV2 id b = some state)
    (hnone : state.revealedEnvelope = none) {e : Bytes} {x : Sdk.PayloadEnvelope}
    (hdecode : Sdk.decodePayloadEnvelope e = .ok x) {r : Rejection}
    (ha : n.Serves c (.revealV2 id.toNat b e) (.error r) d) :
    ∃ error, Reports r error ∧ error ≠ .AlreadyRevealed := by
  have ha := serves_revealV2.mp ha
  rw [call_revealV2] at ha
  obtain ⟨tx, htime, -, ha⟩ := ha
  have hstored : c.2.world.store.roundV2 id = some round := h.same.1.trans hr
  split at ha
  · cases ha.1
  · next f hf =>
    obtain ⟨-, r', hr', hreports⟩ := ha
    obtain rfl := Except.error.inj hr'
    have hfails : Invocation.Fails (revealV2 id b e) ⟨n.host, tx⟩ c.2.world.frame f :=
      (Invocation.fails_map ..).mp (invoke_eq_error.mp hf)
    obtain ⟨error, rfl, hwindow | ⟨-, -, hrecord⟩⟩ := fails_revealV2 hstored b e hfails
    · have hto : tx.timestamp ≤ round.revealDeadline := htime ▸ h.before
      exact absurd hto (UInt64.not_le.mpr (hwindow.late hst))
    · refine ⟨error, hreports error rfl, ?_⟩
      rintro rfl
      rw [hstate] at hrecord
      cases hrecord with
      | revealed hrevealed => simp [hnone] at hrevealed
      | malformed he =>
        obtain ⟨payload, hpayload⟩ := Sdk.same_strings.mpr ⟨x, hdecode⟩
        rw [hpayload] at he
        cases he

/-- The reveal of an opened envelope: recorded, or an error that stops the loop. -/
def concludeV2 (client : RevealClient) (roundId : Int) (counts : RevealClient.RevealCounts)
    (bidder : Address) (envelope : Sdk.PayloadEnvelope) : Pass RevealClient.RevealCounts := do
  let r ← (sdkRevealV2 client.deps roundId bidder envelope).attempt
  match r with
  | .ok _ => return { counts with revealedCount := counts.revealedCount + 1 }
  | .error e =>
    if isSubmissionAlreadyRevealed e then
      return { counts with alreadyRevealedCount := counts.alreadyRevealedCount + 1 }
    else .fail e

theorem concludeV2_ends (hn : Quiet n (.v2 id) round.revealDeadline)
    (hr : w.store.roundV2 id = some round) (hst : round.status = .Revealing)
    (hc : Window n config (.v2 id) round.revealDeadline w c)
    (hstate : c.2.world.store.submissionV2 id b = some state)
    (hnone : state.revealedEnvelope = none) {x : Bytes} {y : Sdk.PayloadEnvelope}
    (hdecode : Sdk.decodePayloadEnvelope x = .ok y) {counts : RevealClient.RevealCounts}
    {r : Except Rejection RevealClient.RevealCounts}
    (hends : (concludeV2 client id.toNat counts b y).Ends (Answers n) c r d) :
    ((∃ acc, r = .ok acc ∧ Window n config (.v2 id) round.revealDeadline w d) ∧
      AcceptsEnvelope n.host round.mode state x ∧ ∃ state' : SubmissionStateV2,
        state'.revealedEnvelope.isSome = true ∧ MarksEnvelope state x state' ∧
        d.2.world.store.submissionV2 id =
          Function.update (c.2.world.store.submissionV2 id) b (some state')) ∨
    ((∃ e, r = .error e) ∧ ¬ AcceptsEnvelope n.host round.mode state x ∧
      d.2.world.store.submissionV2 id = c.2.world.store.submissionV2 id) := by
  have hbytes : sdkRevealV2 client.deps id.toNat b y = ask (.revealV2 id.toNat b x) := by
    rw [sdkRevealV2, Sdk.encode_decode_envelope.mp hdecode]
    rfl
  unfold concludeV2 at hends
  rw [hbytes] at hends
  obtain ⟨a, d', hask, hends⟩ := Coroutine.ends_attempt_bind.mp hends
  obtain ⟨hanswer, hworded⟩ := Coroutine.ends_request.mp hask
  obtain ⟨c', hc', hkept, hserves⟩ := hn.answer hc hanswer
  have hkept : c'.2.world.store.submissionV2 id = c.2.world.store.submissionV2 id := hkept
  have hstate' : c'.2.world.store.submissionV2 id b = some state := hkept ▸ hstate
  obtain ⟨hd, ⟨haccepts, rfl, _, ⟨amount, rfl⟩, hupdate⟩ |
    ⟨hrejects, hsame, r', error, rfl, -⟩⟩ := hc'.revealsV2 hr hst hstate' hnone hdecode hserves
  · obtain ⟨rfl, rfl⟩ := Coroutine.ends_pure.mp hends
    exact Or.inl ⟨⟨_, rfl, hd⟩, haccepts, _, rfl, ⟨amount, rfl⟩, by rw [hupdate, hkept]⟩
  · obtain ⟨error', hreports, hne⟩ := refusedV2 hc' hr hst hstate' hnone hdecode hserves
    have hcalled : (n.call (.revealV2 id.toNat b x)).isSome = true := by
      rw [call_revealV2]
      rfl
    have htext : ¬ isSubmissionAlreadyRevealed r' = true :=
      fun htext => hne ((hworded hcalled r' rfl error' hreports).mp htext)
    dsimp only at hends
    rw [if_neg htext] at hends
    obtain ⟨rfl, rfl⟩ := Coroutine.ends_fail.mp hends
    exact Or.inr ⟨⟨_, rfl⟩, hrejects, hsame.trans hkept⟩

theorem readSubmission_ends (hn : Quiet n (.v2 id) round.revealDeadline)
    (hc : Window n config (.v2 id) round.revealDeadline w c)
    (hstate : c.2.world.store.submissionV2 id b = some state)
    {r : Except Rejection SubmissionStateV2}
    (hends : (ask (.getSubmissionV2 id.toNat b)).Ends (Answers n) c r d) :
    r = .ok state ∧ Window n config (.v2 id) round.revealDeadline w d ∧
      d.2.world.store.submissionV2 id = c.2.world.store.submissionV2 id := by
  obtain ⟨c', hc', hkept, rfl, hread⟩ := hn.answer hc (Coroutine.ends_request.mp hends).1
  have hkept : d.2.world.store.submissionV2 id = c.2.world.store.submissionV2 id := hkept
  rw [n.encoder.u64_toNat, Option.bind_some, hkept, hstate] at hread
  exact ⟨hread.some, hc', hkept⟩

theorem readSealV2_ends (hn : Quiet n (.v2 id) round.revealDeadline)
    (hc : Window n config (.v2 id) round.revealDeadline w c) {r : Except Rejection (Option Seal)}
    (hends : (ask (.getSealV2 id.toNat b)).Ends (Answers n) c r d) :
    ∃ stored, r = .ok stored ∧ MayShow n w (.v2 id) b stored ∧
      Window n config (.v2 id) round.revealDeadline w d ∧
      d.2.world.store.submissionV2 id = c.2.world.store.submissionV2 id := by
  obtain ⟨c', hc', hkept, rfl, hshows⟩ := hn.answer hc (Coroutine.ends_request.mp hends).1
  obtain ⟨stored, hstored, hmay⟩ := shows_seal hc' (n.encoder.u64_map id RoundKey.v2) hshows
  exact ⟨stored, hstored, hmay, hc', hkept⟩

/-- One round of the loop of the pilot page. -/
theorem revealSubmission_rounds (hn : Quiet n (.v2 id) round.revealDeadline)
    (hr : w.store.roundV2 id = some round) (hst : round.status = .Revealing)
    {l : List Address} {old : Address → Option SubmissionStateV2}
    (hentered : ∀ b ∈ l, ∃ state, old b = some state) :
    (pilotLoop n w id round.mode).Rounds l
      (fun _ : RevealClient.RevealCounts => Window n config (.v2 id) round.revealDeadline w)
      (fun c => c.2.world.store.submissionV2 id) old
      (client.revealSubmission id.toNat) := by
  intro counts c b r d hb h hsame hends
  obtain ⟨state, hold⟩ := hentered b hb
  have hstate : c.2.world.store.submissionV2 id b = some state := hsame.trans hold
  rcases Coroutine.ends_bind.mp hends with ⟨shown, c₁, hread, hends⟩ | ⟨e, -, hread⟩
  · obtain ⟨hshown, hc₁, hkept₁⟩ := readSubmission_ends hn h hstate hread
    obtain rfl : shown = state := Except.ok.inj hshown
    rw [← hkept₁] at hstate
    split at hends
    · next hrevealed =>
      obtain ⟨rfl, rfl⟩ := Coroutine.ends_pure.mp hends
      exact ⟨Or.inl ⟨⟨_, rfl, hc₁⟩, passed_before (Or.inl rfl) hold hstate hrevealed⟩,
        fun other _ => congrFun hkept₁ other⟩
    · next hrevealed =>
      have hnot : shown.revealedEnvelope.isSome = false := Bool.eq_false_iff.mpr hrevealed
      have hnone : shown.revealedEnvelope = none :=
        Option.isNone_iff_eq_none.mp (Option.isSome_eq_false_iff.mp hnot)
      rcases Coroutine.ends_bind.mp hends with ⟨stored, c₂, hread, hends⟩ | ⟨e, -, hread⟩
      · obtain ⟨stored', hstored, hmay, hc₂, hkept₂⟩ := readSealV2_ends hn hc₁ hread
        obtain rfl : stored = stored' := Except.ok.inj hstored
        rw [← hkept₂] at hstate
        let short := RevealClient.shortAddress (client.strkey.encode b)
        let gone : Pass RevealClient.RevealCounts :=
          client.throwNew s!"Encrypted submission is unavailable for {short}"
        have hends : (openThen client.deps Sdk.decodePayloadEnvelope
            ((pilotLoop n w id round.mode).ciphertext b stored) gone
            (concludeV2 client id.toNat counts b)).Ends (Answers n) c₂ r d := by
          cases stored <;> exact hends
        obtain ⟨hcase, hothers⟩ := openThen_ends (pilotLoop n w id round.mode)
          (fun _ => Window n config (.v2 id) round.revealDeadline w)
          (fun c => c.2.world.store.submissionV2 id) hn (fun h => h) hc₂ hmay hold hstate
          hnot (fun haccepts => haccepts.imp fun _ h => h.1)
          (fun hends => by
            obtain ⟨rfl, rfl⟩ := Coroutine.ends_fail.mp hends
            exact ⟨rfl, Or.inr ⟨⟨_, rfl⟩, fun h => h⟩⟩)
          (fun he hsame hdecode hends => by
            have hconclude := concludeV2_ends hn hr hst he (congrFun hsame b |>.trans hstate)
              hnone hdecode hends
            rwa [show _ = _ from hsame] at hconclude) hends
        exact ⟨hcase, fun other hne => (hothers other hne).trans
          ((congrFun hkept₂ other).trans (congrFun hkept₁ other))⟩
      · obtain ⟨_, hstored, -⟩ := readSealV2_ends hn hc₁ hread
        cases hstored
  · cases (readSubmission_ends hn h hstate hread).1

theorem readRoundV2_ends (hn : Quiet n (.v2 id) round.revealDeadline)
    (hc : Window n config (.v2 id) round.revealDeadline w c)
    (hr : w.store.roundV2 id = some round) {r : Except Rejection RoundV2}
    (hends : (ask (.getRoundV2 id.toNat)).Ends (Answers n) c r d) :
    Window n config (.v2 id) round.revealDeadline w d ∧
      d.2.world.store.submissionV2 id = c.2.world.store.submissionV2 id ∧ r = .ok round := by
  obtain ⟨c', hc', hkept, rfl, hread⟩ := hn.answer hc (Coroutine.ends_request.mp hends).1
  rw [n.encoder.u64_toNat, Option.bind_some, hc'.same.1.trans hr] at hread
  exact ⟨hc', hkept, hread.some⟩

theorem readBiddersV2_ends (hn : Quiet n (.v2 id) round.revealDeadline)
    (hc : Window n config (.v2 id) round.revealDeadline w c)
    (hr : w.store.roundV2 id = some round) {r : Except Rejection (List Address)}
    (hends : (ask (.getBiddersV2 id.toNat)).Ends (Answers n) c r d) :
    Window n config (.v2 id) round.revealDeadline w d ∧
      d.2.world.store.submissionV2 id = c.2.world.store.submissionV2 id ∧
      r = .ok round.bidders := by
  obtain ⟨c', hc', hkept, rfl, hread⟩ := hn.answer hc (Coroutine.ends_request.mp hends).1
  rw [n.encoder.u64_toNat, Option.bind_some, hc'.same.1.trans hr, Option.map_some] at hread
  exact ⟨hc', hkept, hread.some⟩

/-- Whether the opening policy is there does not change. -/
theorem KeepsPolicy.stable {deadline : UInt64} (hk : KeepsPolicy n id)
    (hn : Quiet n (.v2 id) deadline) (kept : Bool) :
    Coroutine.Stable (Answers n) fun c : Scene => c.2.Sound n.host config ∧
      (∃ r, c.2.world.view (.v2 id) = some r) ∧
      (c.2.world.store.revealV3 id).isSome = kept where
  answer := by
    rintro c q a d ⟨hs, ⟨r, hr⟩, hkept⟩ ⟨⟨c', helapses, hserves⟩, -⟩
    obtain ⟨events, e, hrun, -, hworld, hnow, -⟩ := hn.undisturbed _ _ helapses
    have he := Run.sound hrun hs
    have hs' : c'.2.Sound n.host config := by
      refine ⟨?_, ?_⟩
      · rw [hworld]
        exact he.world.later (UInt64.le_iff_toNat_le.mp hnow)
      · rw [hworld]
        exact he.funds
    obtain ⟨r', hr', -⟩ := Run.terms hrun hs hr
    rw [← hworld] at hr'
    obtain ⟨own, hown, hunlost⟩ := @Network.Serves.run c' d id n q a hserves
    obtain ⟨r'', hr'', -⟩ := Run.terms hown hs' hr'
    have hsame := congrArg Option.isSome ((Run.policies hown hs' hr').2 hunlost)
    rw [Option.isSome_map, Option.isSome_map] at hsame
    exact ⟨Run.sound hown hs', ⟨r'', hr''⟩, (hsame.trans (hk c c' helapses)).trans hkept⟩
  change h _ := h

/-- One submission is shown when the page can read it. -/
theorem showSubmission_ends {store : Store} (hn : Quiet n (.v2 id) round.revealDeadline)
    (hc : Window n config (.v2 id) round.revealDeadline w c)
    (hstate : c.2.world.store.submissionV2 id b = some state)
    (hstore : store.submissionV2 id b = some state) {mode : RoundMode}
    {shown : List PilotSubmissionView} {r : Except Rejection (List PilotSubmissionView)}
    (hends : (client.showSubmission id.toNat mode shown b).Ends (Answers n) c r d) :
    Window n config (.v2 id) round.revealDeadline w d ∧
      d.2.world.store.submissionV2 id = c.2.world.store.submissionV2 id ∧
      ((∃ shown', r = .ok shown') ↔ ∃ view, readSubmission client.engine client.timesTenMillion
        client.isValidEd25519PublicKey store id mode b = .ok view) := by
  simp only [readSubmission_eq_ok hstore]
  rcases Coroutine.ends_bind.mp hends with ⟨submission, c₁, hread, hends⟩ | ⟨e, -, hread⟩
  · obtain ⟨hsubmission, hc₁, hkept⟩ := readSubmission_ends hn hc hstate hread
    obtain rfl : submission = state := Except.ok.inj hsubmission
    split at hends
    · next hnone =>
      obtain ⟨rfl, rfl⟩ := Coroutine.ends_pure.mp hends
      exact ⟨hc₁, hkept, iff_of_true ⟨_, rfl⟩ ⟨none, Or.inl ⟨hnone, rfl⟩⟩⟩
    · next envelope hsome =>
      rcases Coroutine.ends_bind.mp hends with ⟨view, c₂, hlift, hrest⟩ | ⟨e, rfl, hlift⟩
      · obtain ⟨hview, rfl⟩ := ends_lift.mp (hlift.mono fun _ _ _ _ h => h.1)
        obtain ⟨rfl, rfl⟩ := Coroutine.ends_pure.mp hrest
        exact ⟨hc₁, hkept, iff_of_true ⟨_, rfl⟩
          ⟨some view, Or.inr ⟨envelope, view, hsome, rfl, mapError_eq_ok.mp hview.symm⟩⟩⟩
      · obtain ⟨hview, rfl⟩ := ends_lift.mp (hlift.mono fun _ _ _ _ h => h.1)
        refine ⟨hc₁, hkept, iff_of_false ?_ ?_⟩
        · rintro ⟨shown', hok⟩
          cases hok
        · rintro ⟨_, ⟨hnone, -⟩ | ⟨bytes, view, hbytes, -, hdecode⟩⟩
          · rw [hsome] at hnone
            cases hnone
          · obtain rfl := Option.some_inj.mp (hsome.symm.trans hbytes)
            rw [hdecode] at hview
            cases hview
  · cases (readSubmission_ends hn hc hstate hread).1

/-- The submissions are shown when the page can read all of them. -/
theorem showSubmissions_ends {store : Store} (hn : Quiet n (.v2 id) round.revealDeadline)
    {mode : RoundMode} {l : List Address}
    (hentered : ∀ b ∈ l, ∃ state, store.submissionV2 id b = some state)
    (hc : Window n config (.v2 id) round.revealDeadline w c)
    (hsame : c.2.world.store.submissionV2 id = store.submissionV2 id)
    {shown : List PilotSubmissionView} {r : Except Rejection (List PilotSubmissionView)}
    (hends : (l.foldlM (client.showSubmission id.toNat mode) shown).Ends (Answers n) c r d) :
    d.2.world.store.submissionV2 id = store.submissionV2 id ∧
      ((∃ shown', r = .ok shown') ↔ ∀ b ∈ l, ∃ view, readSubmission client.engine
        client.timesTenMillion client.isValidEd25519PublicKey store id mode b = .ok view) := by
  induction l generalizing c shown with
  | nil =>
    obtain ⟨rfl, rfl⟩ := Coroutine.ends_pure.mp hends
    exact ⟨hsame, iff_of_true ⟨_, rfl⟩ fun b hb => absurd hb List.not_mem_nil⟩
  | cons b l ih =>
    obtain ⟨state, hstore⟩ := hentered b List.mem_cons_self
    have hstate : c.2.world.store.submissionV2 id b = some state := hsame ▸ hstore
    rw [List.foldlM_cons] at hends
    rw [List.forall_mem_cons]
    rcases Coroutine.ends_bind.mp hends with ⟨shown', c₁, hfirst, hends⟩ | ⟨e, rfl, hfirst⟩
    · obtain ⟨hc₁, hkept, hiff⟩ := showSubmission_ends hn hc hstate hstore hfirst
      obtain ⟨hd, hrest⟩ := ih (fun x hx => hentered x (List.mem_cons_of_mem _ hx)) hc₁
        (hkept.trans hsame) hends
      exact ⟨hd, hrest.trans (and_iff_right (hiff.mp ⟨shown', rfl⟩)).symm⟩
    · obtain ⟨-, hkept, hiff⟩ := showSubmission_ends hn hc hstate hstore hfirst
      refine ⟨hkept.trans hsame, iff_of_false ?_ fun h => ?_⟩
      · rintro ⟨shown', hok⟩
        cases hok
      · obtain ⟨shown', hok⟩ := hiff.mpr h.1
        cases hok

/-- The opening policy of the round is there, if it has one. -/
def HasPolicy (store : Store) (id : UInt64) (round : RoundV2) : Prop :=
  round.protocolVersion = revealPolicyVersion → (store.revealV3 id).isSome = true

/-- The page can show the submissions: unless it is an auction, every payload is a proposal. -/
def RevealClient.CanShow (client : RevealClient) (store : Store) (id : UInt64) (round : RoundV2) :
    Prop :=
  round.mode = .ReceiptOnly → RevealsProposals client.engine client.timesTenMillion
    client.isValidEd25519PublicKey store id round

theorem RevealClient.CanShow.congr {store store' : Store} (h : client.CanShow store id round)
    (hsame : store'.submissionV2 id = store.submissionV2 id) : client.CanShow store' id round := by
  intro hmode b hb submission bytes hsubmission
  rw [hsame] at hsubmission
  exact h hmode b hb submission bytes hsubmission

/-- The answer to the read of the opening policy. -/
theorem readPolicy_ends (hn : Quiet n (.v2 id) round.revealDeadline) (hk : KeepsPolicy n id)
    (hc : Window n config (.v2 id) round.revealDeadline w c)
    (hr : w.store.roundV2 id = some round) {r : Except Rejection RevealStateV3}
    (hends : (ask (.getRevealStateV3 id.toNat)).Ends (Answers n) c r d) :
    Window n config (.v2 id) round.revealDeadline w d ∧
      d.2.world.store.submissionV2 id = c.2.world.store.submissionV2 id ∧
      ((∃ state, r = .ok state) ↔ (c.2.world.store.revealV3 id).isSome = true) := by
  have hview := World.view_roundV2 (hc.same.1.trans hr)
  obtain ⟨-, -, hpolicy⟩ := (hk.stable hn _).ends ⟨hc.sound, ⟨_, hview⟩, rfl⟩ hends
  obtain ⟨c', hc', hkept, rfl, hread⟩ := hn.answer hc (Coroutine.ends_request.mp hends).1
  rw [n.encoder.u64_toNat, Option.bind_some] at hread
  refine ⟨hc', hkept, ?_⟩
  rw [← hpolicy]
  cases hstate : d.2.world.store.revealV3 id with
  | none =>
    rw [hstate] at hread
    obtain ⟨e, rfl⟩ := hread
    refine iff_of_false ?_ Bool.false_ne_true
    rintro ⟨state, hok⟩
    cases hok
  | some state =>
    rw [hstate] at hread
    exact iff_of_true ⟨state, hread.some⟩ rfl

/-- **Loading the round again.** It fails without the opening policy or with a payload that is no
proposal. -/
theorem refreshPage_ends (hn : Quiet n (.v2 id) round.revealDeadline) (hk : KeepsPolicy n id)
    (hc : Window n config (.v2 id) round.revealDeadline w c)
    (hr : w.store.roundV2 id = some round) {r : Except Rejection (List PilotSubmissionView)}
    (hends : (client.refreshPage id.toNat).Ends (Answers n) c r d) :
    d.2.world.store.submissionV2 id = c.2.world.store.submissionV2 id ∧
      ((∃ views, r = .ok views) ↔ HasPolicy c.2.world.store id round ∧
        client.CanShow c.2.world.store id round) := by
  have hround := hc.same.1.trans hr
  have hversion := (hc.sound.world.consistent id round hround).version
  have hshows := @shows_all_iff n.host config c.2 hc.sound client.engine client.timesTenMillion
    client.isValidEd25519PublicKey id round hround
  have hentered : ∀ b ∈ round.bidders, ∃ state, c.2.world.store.submissionV2 id b = some state :=
    fun b hb => (recorded_decodes hc.sound hround hb).imp fun _ h => h.1
  rcases Coroutine.ends_bind.mp hends with ⟨nextRound, c₁, hread, hends⟩ | ⟨e, -, hread⟩
  · obtain ⟨hc₁, hkept₁, hnext⟩ := readRoundV2_ends hn hc hr hread
    obtain rfl : nextRound = round := Except.ok.inj hnext
    obtain ⟨-, -, hpolicy⟩ := (hk.stable hn _).ends
      ⟨hc.sound, ⟨_, World.view_roundV2 hround⟩, rfl⟩ hread
    rw [if_neg fun h => hversion.elim h.1 h.2] at hends
    split at hends
    · next hthree =>
      have hhas : HasPolicy c.2.world.store id nextRound ↔
          (c.2.world.store.revealV3 id).isSome = true := ⟨fun h => h hthree, fun h _ => h⟩
      rw [hhas]
      rcases Coroutine.ends_bind.mp hends with ⟨state, c₂, hread, hends⟩ | ⟨e, rfl, hread⟩
      · obtain ⟨hc₂, hkept₂, hstate⟩ := readPolicy_ends hn hk hc₁ hr hread
        obtain ⟨hd, hiff⟩ := showSubmissions_ends hn hentered hc₂ (hkept₂.trans hkept₁) hends
        have hfound : (c.2.world.store.revealV3 id).isSome = true :=
          hpolicy ▸ hstate.mp ⟨state, rfl⟩
        exact ⟨hd, hiff.trans (hshows.trans (and_iff_right hfound).symm)⟩
      · obtain ⟨-, hkept₂, hstate⟩ := readPolicy_ends hn hk hc₁ hr hread
        refine ⟨hkept₂.trans hkept₁, iff_of_false ?_ fun h => ?_⟩
        · rintro ⟨views, hok⟩
          cases hok
        · obtain ⟨state, hok⟩ := hstate.mpr (hpolicy ▸ h.1)
          cases hok
    · next htwo =>
      obtain ⟨hd, hiff⟩ := showSubmissions_ends hn hentered hc₁ hkept₁ hends
      have hhas : HasPolicy c.2.world.store id nextRound := fun h => absurd h htwo
      exact ⟨hd, hiff.trans (hshows.trans (and_iff_right hhas).symm)⟩
  · cases (readRoundV2_ends hn hc hr hread).2.2

/-- **The pilot page.** -/
theorem revealAll_ends (hs : c.2.Sound n.host config) (hr : c.2.world.store.roundV2 id = some round)
    (hst : round.status = .Revealing) (hbefore : c.2.now ≤ round.revealDeadline)
    (hn : Quiet n (.v2 id) round.revealDeadline) (hk : KeepsPolicy n id)
    {r : Except Rejection Notice}
    (hends : (client.revealAll id.toNat).Ends (Answers n) c r d) :
    ∃ seen, (∀ b, MayShow n c.2.world (.v2 id) b (seen b)) ∧
      (pilotLoop n c.2.world id round.mode).RevealsUpTo seen (c.2.world.store.submissionV2 id)
        (d.2.world.store.submissionV2 id) round.bidders ∧
      ((∃ notice, r = .ok notice) ↔ (pilotLoop n c.2.world id round.mode).Free seen
          (c.2.world.store.submissionV2 id) round.bidders ∧
        HasPolicy c.2.world.store id round ∧ client.CanShow d.2.world.store id round) := by
  have h : Window n config (.v2 id) round.revealDeadline c.2.world c :=
    ⟨hs, SameRound.refl .., hbefore⟩
  have hsound := hs.world.views _ _ (World.view_roundV2 hr)
  have hentered : ∀ b ∈ round.bidders, ∃ state, c.2.world.store.submissionV2 id b = some state :=
    fun _ => RoundV2.entered hsound
  have hstable := @KeepsPolicy.stable config id n _ hk hn (c.2.world.store.revealV3 id).isSome
  have hviewed : ∃ q, c.2.world.view (.v2 id) = some q := ⟨_, World.view_roundV2 hr⟩
  rcases Coroutine.ends_bind.mp hends with ⟨current, c₁, hread, hends⟩ | ⟨e, -, hread⟩
  · obtain ⟨hc₁, hkept₁, hcurrent⟩ := readRoundV2_ends hn h hr hread
    have hpolicy₁ := hstable.ends ⟨hs, hviewed, rfl⟩ hread
    obtain rfl : current = round := Except.ok.inj hcurrent
    rw [if_neg (by simp [hst]), if_pos hst] at hends
    rcases Coroutine.ends_bind.mp hends with ⟨bidders, c₂, hread, hends⟩ | ⟨e, -, hread⟩
    · obtain ⟨hc₂, hkept₂, hbidders⟩ := readBiddersV2_ends hn hc₁ hr hread
      have hpolicy₂ := hstable.ends hpolicy₁ hread
      obtain rfl : bidders = current.bidders := Except.ok.inj hbidders
      have hkept₂ := hkept₂.trans hkept₁
      rw [← hkept₂] at hentered ⊢
      have hround := @revealSubmission_rounds config id n c.2.world current client hn hr hst
        current.bidders _ hentered
      rcases Coroutine.ends_bind.mp hends with ⟨counts, c₃, hloop, hends⟩ | ⟨e, rfl, hloop⟩
      · obtain ⟨-, -, hpolicy₃⟩ := hstable.ends hpolicy₂ hloop
        obtain ⟨-, seen, hseen, hreveals, ⟨⟨_, -, hc₃⟩, hfree⟩ | ⟨⟨e, he⟩, -⟩⟩ :=
          hround.ends hsound.nodup hentered (exists_mayShow _ _ _) hc₂ hloop
        · have hhas : HasPolicy c₃.2.world.store id current ↔
              HasPolicy c.2.world.store id current := by
            unfold HasPolicy
            rw [hpolicy₃]
          rcases Coroutine.ends_bind.mp hends with ⟨views, c₄, hload, hends⟩ | ⟨e, rfl, hload⟩
          · obtain ⟨hkept₄, hiff⟩ := refreshPage_ends hn hk hc₃ hr hload
            obtain ⟨hloaded, hshown⟩ := hiff.mp ⟨views, rfl⟩
            have hok : (∃ notice, r = .ok notice) ∧ d = c₄ := by
              split at hends
              · obtain ⟨rfl, rfl⟩ := Coroutine.ends_pure.mp hends
                exact ⟨⟨_, rfl⟩, rfl⟩
              · obtain ⟨rfl, rfl⟩ := Coroutine.ends_pure.mp hends
                exact ⟨⟨_, rfl⟩, rfl⟩
            obtain ⟨hok, rfl⟩ := hok
            refine ⟨seen, hseen, ?_, iff_of_true hok ⟨hfree, hhas.mp hloaded, ?_⟩⟩
            · rw [hkept₄]
              exact hreveals
            · exact hshown.congr hkept₄
          · obtain ⟨hkept₄, hiff⟩ := refreshPage_ends hn hk hc₃ hr hload
            refine ⟨seen, hseen, ?_, iff_of_false ?_ ?_⟩
            · rw [hkept₄]
              exact hreveals
            · rintro ⟨notice, hok⟩
              cases hok
            · rintro ⟨-, hloaded, hshown⟩
              obtain ⟨views, hok⟩ := hiff.mpr ⟨hhas.mpr hloaded, hshown.congr hkept₄.symm⟩
              cases hok
        · cases he
      · obtain ⟨-, seen, hseen, hreveals, ⟨⟨_, hok, -⟩, -⟩ | ⟨-, hstuck⟩⟩ :=
          hround.ends hsound.nodup hentered (exists_mayShow _ _ _) hc₂ hloop
        · cases hok
        · refine ⟨seen, hseen, hreveals, iff_of_false ?_ fun h => hstuck h.1⟩
          rintro ⟨notice, hok⟩
          cases hok
    · cases (readBiddersV2_ends hn hc₁ hr hread).2.2
  · cases (readRoundV2_ends hn h hr hread).2.2

end

/-! ## The session of a use case -/

/-- The loop of `openAndReveal`. -/
def sessionLoop (client : RevealClient) (n : Network) (w : World) (id : UInt64) :
    RevealLoop BidState where
  network := n
  isRevealed state := state.revealedValue.isSome
  Accepts := AcceptsPreimage n.host
  Records := MarksPreimage
  MayShow := MayShow n w (.v1 id)
  ciphertext := client.ciphertextOf
  skips := True

section

variable {config : GlobalConfig} {c d : Scene} {id : UInt64} {n : Network} {w : World}
  {round : Round} {b : Address} {state : BidState} {client : RevealClient}

theorem readRound_ends (hn : Quiet n (.v1 id) round.revealDeadline)
    (hc : Window n config (.v1 id) round.revealDeadline w c)
    (hr : w.store.round id = some round) {r : Except Rejection Round}
    (hends : (ask (.getRound id.toNat)).Ends (Answers n) c r d) :
    Window n config (.v1 id) round.revealDeadline w d ∧
      d.2.world.store.state id = c.2.world.store.state id ∧ r = .ok round := by
  obtain ⟨c', hc', hkept, rfl, hread⟩ := hn.answer hc (Coroutine.ends_request.mp hends).1
  rw [n.encoder.u64_toNat, Option.bind_some, hc'.same.1.trans hr] at hread
  exact ⟨hc', hkept, hread.some⟩

theorem readBidders_ends (hn : Quiet n (.v1 id) round.revealDeadline)
    (hc : Window n config (.v1 id) round.revealDeadline w c)
    (hr : w.store.round id = some round) {r : Except Rejection (List Address)}
    (hends : (ask (.bidders id.toNat)).Ends (Answers n) c r d) :
    Window n config (.v1 id) round.revealDeadline w d ∧
      d.2.world.store.state id = c.2.world.store.state id ∧ r = .ok round.bidders := by
  obtain ⟨c', hc', hkept, rfl, hread⟩ := hn.answer hc (Coroutine.ends_request.mp hends).1
  rw [n.encoder.u64_toNat, Option.bind_some, hc'.same.1.trans hr, Option.map_some] at hread
  exact ⟨hc', hkept, hread.some⟩

theorem readBid_ends (hn : Quiet n (.v1 id) round.revealDeadline)
    (hc : Window n config (.v1 id) round.revealDeadline w c)
    (hstate : c.2.world.store.state id b = some state) {r : Except Rejection BidState}
    (hends : (ask (.getBidState id.toNat b)).Ends (Answers n) c r d) :
    Window n config (.v1 id) round.revealDeadline w d ∧
      d.2.world.store.state id = c.2.world.store.state id ∧ r = .ok state := by
  obtain ⟨c', hc', hkept, rfl, hread⟩ := hn.answer hc (Coroutine.ends_request.mp hends).1
  have hkept : d.2.world.store.state id = c.2.world.store.state id := hkept
  rw [n.encoder.u64_toNat, Option.bind_some, hkept, hstate] at hread
  exact ⟨hc', hkept, hread.some⟩

theorem readSeal_ends (hn : Quiet n (.v1 id) round.revealDeadline)
    (hc : Window n config (.v1 id) round.revealDeadline w c) {r : Except Rejection (Option Seal)}
    (hends : (ask (.getSeal id.toNat b)).Ends (Answers n) c r d) :
    ∃ stored, r = .ok stored ∧ MayShow n w (.v1 id) b stored ∧
      Window n config (.v1 id) round.revealDeadline w d ∧
      d.2.world.store.state id = c.2.world.store.state id := by
  obtain ⟨c', hc', hkept, rfl, hshows⟩ := hn.answer hc (Coroutine.ends_request.mp hends).1
  obtain ⟨stored, hstored, hmay⟩ := shows_seal hc' (n.encoder.u64_map id RoundKey.v1) hshows
  exact ⟨stored, hstored, hmay, hc', hkept⟩

/-- The pending bids are those without a revealed value, in the order of the index. -/
theorem pendingBids_ends (client : RevealClient) (hn : Quiet n (.v1 id) round.revealDeadline)
    {l : List Address}
    (hc : Window n config (.v1 id) round.revealDeadline w c)
    (hentered : ∀ b ∈ l, ∃ state, c.2.world.store.state id b = some state)
    {pending : List Address} {r : Except Rejection (List Address)}
    (hends : (l.foldlM (RevealClient.pendingBid id.toNat) pending).Ends (Answers n) c r d) :
    Window n config (.v1 id) round.revealDeadline w d ∧
      d.2.world.store.state id = c.2.world.store.state id ∧
      r = .ok (pending ++
        l.filter ((sessionLoop client n w id).isPending (c.2.world.store.state id))) := by
  induction l generalizing pending c with
  | nil =>
    obtain ⟨rfl, rfl⟩ := Coroutine.ends_pure.mp hends
    exact ⟨hc, rfl, by simp⟩
  | cons b l ih =>
    obtain ⟨state, hstate⟩ := hentered b (by simp)
    rw [List.foldlM_cons] at hends
    rcases Coroutine.ends_bind.mp hends with ⟨pending', c₁, hfirst, hends⟩ | ⟨e, -, hfirst⟩
    · rcases Coroutine.ends_bind.mp hfirst with ⟨shown, c₂, hread, hfirst⟩ | ⟨e, -, hread⟩
      · obtain ⟨hc₂, hkept, hshown⟩ := readBid_ends hn hc hstate hread
        obtain rfl : shown = state := Except.ok.inj hshown
        obtain ⟨hpending', rfl⟩ := Coroutine.ends_pure.mp hfirst
        have hpending' := Except.ok.inj hpending'
        have hlater : ∀ b ∈ l, ∃ state, c₁.2.world.store.state id b = some state := by
          intro b hb
          rw [hkept]
          exact hentered b (List.mem_cons_of_mem _ hb)
        obtain ⟨hd, hkept', hr⟩ := ih hc₂ hlater hends
        refine ⟨hd, hkept'.trans hkept, hr.trans (congrArg Except.ok ?_)⟩
        have hiff := isPending_iff (L := sessionLoop client n w id) hstate
        rw [hkept, hpending']
        cases hrevealed : shown.revealedValue.isSome with
        | true =>
          have hout := mt hiff.mp (by simp [sessionLoop, hrevealed])
          rw [List.filter_cons_of_neg hout, if_pos rfl]
        | false =>
          rw [List.filter_cons_of_pos (hiff.mpr hrevealed), if_neg Bool.false_ne_true,
            List.append_assoc, List.singleton_append]
      · cases (readBid_ends hn hc hstate hread).2.2
    · rcases Coroutine.ends_bind.mp hfirst with ⟨shown, c₂, hread, hfirst⟩ | ⟨e, -, hread⟩
      · cases (Coroutine.ends_pure.mp hfirst).1
      · cases (readBid_ends hn hc hstate hread).2.2

/-- The reveal of an opened bid. Whatever error it meets stops the loop. -/
def concludeBid (roundId : Int) (progress : RevealClient.RevealProgress) (bidder : Address)
    (opened : OpenedBid) : Pass RevealClient.RevealProgress := do
  ask (.reveal roundId bidder opened.value opened.nonce)
  return { progress with revealed := progress.revealed + 1 }

theorem concludeBid_ends (hn : Quiet n (.v1 id) round.revealDeadline)
    (hr : w.store.round id = some round) (hst : round.status = .Revealing)
    (hc : Window n config (.v1 id) round.revealDeadline w c)
    (hstate : c.2.world.store.state id b = some state) (hnone : state.revealedValue = none)
    {x : Bytes} {y : OpenedBid} (hdecode : decodeBidPreimage x = .ok y)
    {progress : RevealClient.RevealProgress} {r : Except Rejection RevealClient.RevealProgress}
    (hends : (concludeBid id.toNat progress b y).Ends (Answers n) c r d) :
    (r = .ok { progress with revealed := progress.revealed + 1 } ∧
      Window n config (.v1 id) round.revealDeadline w d ∧ AcceptsPreimage n.host state x ∧
      ∃ state' : BidState, state'.revealedValue.isSome = true ∧ MarksPreimage state x state' ∧
        d.2.world.store.state id =
          Function.update (c.2.world.store.state id) b (some state')) ∨
    ((∃ e, r = .error e) ∧ ¬ AcceptsPreimage n.host state x ∧
      d.2.world.store.state id = c.2.world.store.state id) := by
  obtain ⟨value, nonce, rfl, rfl⟩ := decodeBidPreimage_eq_ok.mp hdecode
  have hreveals : ∀ {a : Except Rejection Unit} {e : Scene},
      (ask (.reveal id.toNat b value.toInt nonce.val)).Ends (Answers n) c a e →
      Window n config (.v1 id) round.revealDeadline w e ∧
      ((a = .ok () ∧ AcceptsPreimage n.host state (bidPreimage value nonce) ∧
        ∃ state' : BidState, state'.revealedValue.isSome = true ∧
          MarksPreimage state (bidPreimage value nonce) state' ∧ e.2.world.store.state id =
            Function.update (c.2.world.store.state id) b (some state')) ∨
      ((∃ x, a = .error x) ∧ ¬ AcceptsPreimage n.host state (bidPreimage value nonce) ∧
        e.2.world.store.state id = c.2.world.store.state id)) := by
    intro a e hask
    obtain ⟨c', hc', hkept, hserves⟩ := hn.answer hc (Coroutine.ends_request.mp hask).1
    have hkept : c'.2.world.store.state id = c.2.world.store.state id := hkept
    obtain ⟨he, ⟨haccepts, rfl, _, ⟨v, s, hpreimage, rfl⟩, hupdate⟩ |
      ⟨hrejects, hsame, x, -, rfl, -⟩⟩ := hc'.reveals hr hst (hkept ▸ hstate) hnone hserves
    · exact ⟨he, Or.inl ⟨rfl, haccepts, _, rfl, ⟨v, s, hpreimage, rfl⟩, by rw [hupdate, hkept]⟩⟩
    · exact ⟨he, Or.inr ⟨⟨x, rfl⟩, hrejects, hsame.trans hkept⟩⟩
  rcases Coroutine.ends_bind.mp hends with ⟨⟨⟩, d', hask, hends⟩ | ⟨e, rfl, hask⟩
  · obtain ⟨rfl, rfl⟩ := Coroutine.ends_pure.mp hends
    obtain ⟨hd, ⟨-, haccepts, hstate'⟩ | ⟨⟨x, hx⟩, -⟩⟩ := hreveals hask
    · exact Or.inl ⟨rfl, hd, haccepts, hstate'⟩
    · cases hx
  · obtain ⟨-, ⟨hok, -⟩ | ⟨-, hrejects, hsame⟩⟩ := hreveals hask
    · cases hok
    · exact Or.inr ⟨⟨e, rfl⟩, hrejects, hsame⟩

/-- One round of the loop of a session, which counts what it reveals. -/
theorem revealPending_rounds (hn : Quiet n (.v1 id) round.revealDeadline)
    (hr : w.store.round id = some round) (hst : round.status = .Revealing)
    {l : List Address} {old : Address → Option BidState}
    (hpending : ∀ b ∈ l, ∃ state, old b = some state ∧ state.revealedValue = none) :
    (sessionLoop client n w id).Rounds l
      (fun progress c => Window n config (.v1 id) round.revealDeadline w c ∧
        (0 < progress.revealed ↔
          (sessionLoop client n w id).RevealsSome old (c.2.world.store.state id)))
      (fun c => c.2.world.store.state id) old (client.revealPending id.toNat) := by
  rintro progress c b r d hb ⟨h, hcount⟩ hsame hends
  obtain ⟨state, hold, hnone⟩ := hpending b hb
  have hstate : c.2.world.store.state id b = some state := hsame.trans hold
  have hnot : state.revealedValue.isSome = false := by rw [hnone]; rfl
  rcases Coroutine.ends_bind.mp hends with ⟨stored, c₁, hread, hends⟩ | ⟨e, -, hread⟩
  · obtain ⟨stored', hstored, hmay, hc₁, hkept₁⟩ := readSeal_ends hn h hread
    obtain rfl : stored = stored' := Except.ok.inj hstored
    rw [← hkept₁] at hstate hcount
    let short := RevealClient.shortAddr (client.strkey.encode b)
    let missing : Pass RevealClient.RevealProgress := return { progress with
      skipped := progress.skipped ++ [s!"{short}: seal expired or missing"] }
    have hends : (openThen client.deps decodeBidPreimage (client.ciphertextOf b stored) missing
        (concludeBid id.toNat progress b)).Ends (Answers n) c₁ r d := by
      revert hends
      dsimp only
      cases client.ciphertextOf b stored <;> exact fun h => h
    obtain ⟨hcase, hothers⟩ := openThen_ends (sessionLoop client n w id)
      (fun progress c => Window n config (.v1 id) round.revealDeadline w c ∧
        (0 < progress.revealed ↔
          (sessionLoop client n w id).RevealsSome old (c.2.world.store.state id)))
      (fun c => c.2.world.store.state id) hn (fun h => h) hc₁ hmay hold hstate hnot
      (by
        rintro x ⟨value, nonce, hx, -⟩
        exact ⟨_, decodeBidPreimage_eq_ok.mpr ⟨value, nonce, hx, rfl⟩⟩)
      (fun hends => by
        obtain ⟨rfl, rfl⟩ := Coroutine.ends_pure.mp hends
        exact ⟨rfl, Or.inl ⟨⟨_, rfl, hc₁, hcount⟩, trivial⟩⟩)
      (fun he hsame hdecode hends => by
        rcases concludeBid_ends hn hr hst he ((congrFun hsame b).trans hstate) hnone hdecode
          hends with ⟨rfl, hd, haccepts, state', hrevealed, hmarks, hupdate⟩ |
            ⟨herror, hrejects, hkept⟩
        · rw [show _ = _ from hsame] at hupdate
          refine Or.inl ⟨⟨_, rfl, hd, iff_of_true (Nat.succ_pos _) ?_⟩, haccepts, state',
            hrevealed, hmarks, hupdate⟩
          exact ⟨b, state, state', hold, by rw [hupdate, Function.update_self], hnot, hrevealed⟩
        · exact Or.inr ⟨herror, hrejects, hkept.trans hsame⟩) hends
    exact ⟨hcase, fun other hne => (hothers other hne).trans (congrFun hkept₁ other)⟩
  · obtain ⟨_, hstored, -⟩ := readSeal_ends hn h hread
    cases hstored

/-- The bids of the index are read one by one. -/
theorem readBidStates_ends (hn : Quiet n (.v1 id) round.revealDeadline) {l : List Address}
    (hentered : ∀ b ∈ l, ∃ state, c.2.world.store.state id b = some state)
    (hc : Window n config (.v1 id) round.revealDeadline w c) {read : List (Address × BidState)}
    {r : Except Rejection (List (Address × BidState))}
    (hends : (l.foldlM (RevealClient.readBidState id.toNat) read).Ends (Answers n) c r d) :
    d.2.world.store.state id = c.2.world.store.state id ∧ ∃ bidStates, r = .ok bidStates := by
  induction l generalizing read c with
  | nil =>
    obtain ⟨rfl, rfl⟩ := Coroutine.ends_pure.mp hends
    exact ⟨rfl, _, rfl⟩
  | cons b l ih =>
    obtain ⟨state, hstate⟩ := hentered b List.mem_cons_self
    rw [List.foldlM_cons] at hends
    rcases Coroutine.ends_bind.mp hends with ⟨read', c₁, hfirst, hrest⟩ | ⟨e, -, hfirst⟩
    · rcases Coroutine.ends_bind.mp hfirst with ⟨shown, c₂, hread, hadd⟩ | ⟨e, -, hread⟩
      · obtain ⟨hc₂, hkept, -⟩ := readBid_ends hn hc hstate hread
        obtain ⟨-, rfl⟩ := Coroutine.ends_pure.mp hadd
        obtain ⟨hd, hr⟩ := ih (fun x hx => hkept ▸ hentered x (List.mem_cons_of_mem _ hx)) hc₂ hrest
        exact ⟨hd.trans hkept, hr⟩
      · cases (readBid_ends hn hc hstate hread).2.2
    · rcases Coroutine.ends_bind.mp hfirst with ⟨shown, c₂, hread, hadd⟩ | ⟨e, -, hread⟩
      · cases (Coroutine.ends_pure.mp hadd).1
      · cases (readBid_ends hn hc hstate hread).2.2

/-- **Loading the round again** always succeeds here. -/
theorem refreshSession_ends (hn : Quiet n (.v1 id) round.revealDeadline)
    (hc : Window n config (.v1 id) round.revealDeadline w c) (hr : w.store.round id = some round)
    {r : Except Rejection RevealClient.LiveRound}
    (hends : (RevealClient.refreshSession id.toNat).Ends (Answers n) c r d) :
    d.2.world.store.state id = c.2.world.store.state id ∧ ∃ live, r = .ok live := by
  have hround := hc.same.1.trans hr
  have hsound := hc.sound.world.views _ _ (hc.sound.world.view_round hround)
  rcases Coroutine.ends_bind.mp hends with ⟨shown, c₁, hread, hrest⟩ | ⟨e, -, hread⟩
  · obtain ⟨hc₁, hkept₁, -⟩ := readRound_ends hn hc hr hread
    rcases Coroutine.ends_bind.mp hrest with ⟨bidders, c₂, hread, hrest⟩ | ⟨e, -, hread⟩
    · obtain ⟨hc₂, hkept₂, hbidders⟩ := readBidders_ends hn hc₁ hr hread
      obtain rfl : bidders = round.bidders := Except.ok.inj hbidders
      have hkept : c₂.2.world.store.state id = c.2.world.store.state id := hkept₂.trans hkept₁
      have hentered : ∀ b ∈ round.bidders, ∃ state, c₂.2.world.store.state id b = some state :=
        fun b hb => hkept ▸ Round.entered hsound hb
      rcases Coroutine.ends_bind.mp hrest with ⟨bidStates, c₃, hloop, hdone⟩ | ⟨e, -, hloop⟩
      · obtain ⟨hkept₃, -⟩ := readBidStates_ends hn hentered hc₂ hloop
        obtain ⟨rfl, rfl⟩ := Coroutine.ends_pure.mp hdone
        exact ⟨hkept₃.trans hkept, _, rfl⟩
      · obtain ⟨-, _, hok⟩ := readBidStates_ends hn hentered hc₂ hloop
        cases hok
    · cases (readBidders_ends hn hc₁ hr hread).2.2
  · cases (readRound_ends hn hc hr hread).2.2

/-- A session that has read which bids are pending, and then shows what it has revealed. -/
theorem revealPending_ends (hn : Quiet n (.v1 id) round.revealDeadline)
    (hr : w.store.round id = some round) (hst : round.status = .Revealing)
    (hc : Window n config (.v1 id) round.revealDeadline w c) {l : List Address} (hnodup : l.Nodup)
    (hentered : ∀ b ∈ l, ∃ state, c.2.world.store.state id b = some state)
    {finish : RevealClient.RevealProgress → Pass Notice}
    (hfinish : ∀ {progress r c d}, Window n config (.v1 id) round.revealDeadline w c →
      (finish progress).Ends (Answers n) c r d →
      d.2.world.store.state id = c.2.world.store.state id ∧
        ((∃ notice, r = .ok notice) ↔ 0 < progress.revealed))
    {r : Except Rejection Notice} (hends : Coroutine.Ends (Answers n) (do
      let progress ← (l.filter ((sessionLoop client n w id).isPending
        (c.2.world.store.state id))).foldlM (client.revealPending id.toNat) ⟨0, []⟩
      finish progress) c r d) :
    ∃ seen, (∀ b, MayShow n w (.v1 id) b (seen b)) ∧
      (sessionLoop client n w id).RevealsUpTo seen (c.2.world.store.state id)
        (d.2.world.store.state id) l ∧
      ((∃ notice, r = .ok notice) ↔
        (sessionLoop client n w id).Free seen (c.2.world.store.state id) l ∧
        (sessionLoop client n w id).RevealsSome (c.2.world.store.state id)
          (d.2.world.store.state id)) := by
  have hpending : ∀ b ∈ l.filter ((sessionLoop client n w id).isPending
      (c.2.world.store.state id)), ∃ state, c.2.world.store.state id b = some state ∧
      state.revealedValue = none := by
    intro b hb
    obtain ⟨hb, hp⟩ := List.mem_filter.mp hb
    obtain ⟨state, hstate⟩ := hentered b hb
    have hnot : state.revealedValue.isSome = false := (isPending_iff hstate).mp hp
    exact ⟨state, hstate, Option.isNone_iff_eq_none.mp (Option.isSome_eq_false_iff.mp hnot)⟩
  have hround := @revealPending_rounds config id n w round client hn hr hst _ _ hpending
  have hloop := fun {r d} => @Rounds.ends _ _ _ _ _ _ _ c d hround (hnodup.filter _)
    (fun b hb => (hpending b hb).imp fun _ h => h.1) (exists_mayShow _ _ _) ⟨0, []⟩ r
    ⟨hc, iff_of_false (Nat.lt_irrefl 0) (not_revealsSome _)⟩
  rcases Coroutine.ends_bind.mp hends with ⟨progress, c', hrun, hends⟩ | ⟨e, rfl, hrun⟩
  · obtain ⟨houtside, seen, hseen, hreveals,
      ⟨⟨progress', hp, hc', hcount⟩, hfree⟩ | ⟨⟨e, he⟩, -⟩⟩ :=
      hloop hrun
    · obtain rfl : progress = progress' := Except.ok.inj hp
      obtain ⟨hkept, hok⟩ := hfinish hc' hends
      rw [hkept]
      refine ⟨seen, hseen, hreveals.of_pending hentered houtside, ?_⟩
      rw [hok, hcount]
      exact (and_iff_right (free_filter.mp hfree)).symm
    · cases he
  · obtain ⟨houtside, seen, hseen, hreveals, ⟨⟨_, hok, -⟩, -⟩ | ⟨-, hstuck⟩⟩ := hloop hrun
    · cases hok
    · refine ⟨seen, hseen, hreveals.of_pending hentered houtside, iff_of_false ?_ ?_⟩
      · rintro ⟨notice, hok⟩
        cases hok
      · exact fun h => hstuck (free_filter.mpr h.1)

/-- **The session of a use case.** -/
theorem openAndReveal_ends (hs : c.2.Sound n.host config)
    (hr : c.2.world.store.round id = some round) (hst : round.status = .Revealing)
    (hbefore : c.2.now ≤ round.revealDeadline) (hn : Quiet n (.v1 id) round.revealDeadline)
    {r : Except Rejection Notice} (hends : (client.openAndReveal id.toNat).Ends (Answers n) c r d) :
    ∃ seen, (∀ b, MayShow n c.2.world (.v1 id) b (seen b)) ∧
      (sessionLoop client n c.2.world id).RevealsUpTo seen (c.2.world.store.state id)
        (d.2.world.store.state id) round.bidders ∧
      ((∃ notice, r = .ok notice) ↔
        (sessionLoop client n c.2.world id).Free seen (c.2.world.store.state id) round.bidders ∧
        (sessionLoop client n c.2.world id).RevealsSome (c.2.world.store.state id)
          (d.2.world.store.state id)) := by
  have h : Window n config (.v1 id) round.revealDeadline c.2.world c :=
    ⟨hs, SameRound.refl .., hbefore⟩
  have hsound := hs.world.views _ _ (hs.world.view_round hr)
  have hentered : ∀ b ∈ round.bidders, ∃ state, c.2.world.store.state id b = some state :=
    fun _ => Round.entered hsound
  rcases Coroutine.ends_bind.mp hends with ⟨current, c₁, hread, hends⟩ | ⟨e, -, hread⟩
  · obtain ⟨hc₁, hkept₁, hcurrent⟩ := readRound_ends hn h hr hread
    obtain rfl : current = round := Except.ok.inj hcurrent
    rw [if_neg (by simp [hst]), RevealClient.revealBids, if_neg (by simp [hst])] at hends
    rcases Coroutine.ends_bind.mp hends with ⟨bidders, c₂, hread, hends⟩ | ⟨e, -, hread⟩
    · obtain ⟨hc₂, hkept₂, hbidders⟩ := readBidders_ends hn hc₁ hr hread
      obtain rfl : bidders = current.bidders := Except.ok.inj hbidders
      have hkept₂ := hkept₂.trans hkept₁
      rw [← hkept₂] at hentered ⊢
      rcases Coroutine.ends_bind.mp hends with ⟨pending, c₃, hread, hends⟩ | ⟨e, -, hread⟩
      · obtain ⟨hc₃, hkept₃, hpending⟩ :=
          pendingBids_ends client hn hc₂ hentered hread
        obtain rfl := (Except.ok.inj hpending).trans (List.nil_append _)
        rw [← hkept₃] at hentered hends ⊢
        split at hends
        · next hempty =>
          obtain ⟨rfl, rfl⟩ := Coroutine.ends_fail.mp hends
          have hnil : current.bidders = [] := List.eq_nil_of_length_eq_zero hempty.2
          obtain ⟨seen, hseen, -, hreveals⟩ := reveals_all
            (L := sessionLoop client n c.2.world id) (l := []) (by simp) (exists_mayShow _ _ _)
          refine ⟨seen, hseen, hnil ▸ hreveals, iff_of_false ?_ fun h => not_revealsSome _ h.2⟩
          rintro ⟨notice, hok⟩
          cases hok
        · refine revealPending_ends hn hr hst hc₃ hsound.nodup hentered (fun hc hfinish => ?_) hends
          split at hfinish
          · next hzero =>
            obtain ⟨rfl, rfl⟩ := Coroutine.ends_fail.mp hfinish
            refine ⟨rfl, iff_of_false ?_ (by simp [hzero])⟩
            rintro ⟨notice, hok⟩
            cases hok
          · next hpos =>
            rcases Coroutine.ends_bind.mp hfinish with ⟨live, c₄, hload, hdone⟩ | ⟨e, -, hload⟩
            · obtain ⟨hkept, -⟩ := refreshSession_ends hn hc hr hload
              obtain ⟨rfl, rfl⟩ := Coroutine.ends_pure.mp hdone
              exact ⟨hkept, iff_of_true ⟨_, rfl⟩ (Nat.pos_of_ne_zero hpos)⟩
            · obtain ⟨-, _, hok⟩ := refreshSession_ends hn hc hr hload
              cases hok
      · cases (pendingBids_ends client hn hc₂ hentered hread).2.2
    · cases (readBidders_ends hn hc₁ hr hread).2.2
  · cases (readRound_ends hn h hr hread).2.2

end

/-! ## Both -/

section

variable {config : GlobalConfig} {n : Network}

/-- **What the web client reveals.** In the reveal window a loop over the cohort reveals exactly
the submissions that open with no blocked one before them. The pilot page succeeds when nobody
blocks it and it can load the round afterwards, a session when nobody blocks it and it has revealed
something. -/
theorem web_reveals {c₀ x : Chain} {events : List Event} (hd : Deployed config c₀)
    (hrun : Run n.host c₀ events x) (client : RevealClient) (m : Memory) (id : UInt64) :
    (∀ round, x.world.store.roundV2 id = some round → round.status = .Revealing →
      x.now ≤ round.revealDeadline → Quiet n (.v2 id) round.revealDeadline → KeepsPolicy n id →
      (∃ r d, (client.revealAll id.toNat).Ends (Answers n) (m, x) r d) ∧
      ∀ r d, (client.revealAll id.toNat).Ends (Answers n) (m, x) r d →
        ∃ seen, (∀ b, MayShow n x.world (.v2 id) b (seen b)) ∧
          (pilotLoop n x.world id round.mode).RevealsUpTo seen (x.world.store.submissionV2 id)
            (d.2.world.store.submissionV2 id) round.bidders ∧
          ((∃ notice, r = .ok notice) ↔ (pilotLoop n x.world id round.mode).Free seen
              (x.world.store.submissionV2 id) round.bidders ∧
            HasPolicy x.world.store id round ∧ client.CanShow d.2.world.store id round)) ∧
    (∀ round, x.world.store.round id = some round → round.status = .Revealing →
      x.now ≤ round.revealDeadline → Quiet n (.v1 id) round.revealDeadline →
      (∃ r d, (client.openAndReveal id.toNat).Ends (Answers n) (m, x) r d) ∧
      ∀ r d, (client.openAndReveal id.toNat).Ends (Answers n) (m, x) r d →
        ∃ seen, (∀ b, MayShow n x.world (.v1 id) b (seen b)) ∧
          (sessionLoop client n x.world id).RevealsUpTo seen (x.world.store.state id)
            (d.2.world.store.state id) round.bidders ∧
          ((∃ notice, r = .ok notice) ↔
            (sessionLoop client n x.world id).Free seen (x.world.store.state id) round.bidders ∧
            (sessionLoop client n x.world id).RevealsSome (x.world.store.state id)
              (d.2.world.store.state id))) := by
  have hs := hrun.sound hd.chain_sound
  refine ⟨fun round hr hst hbefore hn hk => ⟨hn.exists_ends hbefore _, fun r d hends => ?_⟩,
    fun round hr hst hbefore hn => ⟨hn.exists_ends hbefore _, fun r d hends => ?_⟩⟩
  · exact revealAll_ends hs hr hst hbefore hn hk hends
  · exact openAndReveal_ends hs hr hst hbefore hn hends

/-- No seal expires there. -/
theorem sealedNetwork_shows {tlock : Bytes → Except Rejection Bytes} {w : World} {key : RoundKey}
    {b : Address} {stored : Option Seal} (h : MayShow (sealedNetwork tlock) w key b stored) :
    stored = w.sealOf key b := by
  rcases h with h | ⟨-, _, hexpired⟩
  · exact h
  · exact hexpired.elim

theorem sealedNetwork_quiet (tlock : Bytes → Except Rejection Bytes) (key : RoundKey) :
    Quiet (sealedNetwork tlock) key 1100 where
  undisturbed := (sealedNetwork_works tlock key).undisturbed
  elapse := (sealedNetwork_works tlock key).elapse
  published := (sealedNetwork_works tlock key).published
  relays := (sealedNetwork_works tlock key).relays

/-- The seal of Alice opens to something else than she has committed to. Every session stops at
her, and the bid of Bob stays unrevealed although his seal opens. The pilot page reveals an envelope
without a payload, and then shows an error as it is no proposal. -/
theorem web_reveals_sample :
    (∃ c events, Run Sample.host Sample.deployed events c ∧
      ∀ (client : RevealClient) r d,
        (client.openAndReveal 1).Ends (Answers (sampleNetwork (Sample.preimage 20)))
          (sampleMemory, c) r d →
        (¬ ∃ notice, r = .ok notice) ∧ ∃ state state',
          c.world.store.state 1 Sample.bob = some state ∧
          AcceptsPreimage Sample.host state (Sample.preimage 20) ∧
          d.2.world.store.state 1 Sample.bob = some state' ∧ state'.revealedValue = none) ∧
    ∃ c events, Run Sample.host Sample.deployed events c ∧
      ∀ (client : RevealClient) r d,
        (client.revealAll 1).Ends (Answers (sampleNetwork SamplePilot.emptyEnvelope))
          (sampleMemory, c) r d →
        (¬ ∃ notice, r = .ok notice) ∧ ∃ state, d.2.world.store.submissionV2 1 Sample.alice =
          some state ∧ state.revealedEnvelope.isSome = true := by
  constructor
  · obtain ⟨c, events, hrun, hvalue⟩ := Chain.exec_reaches Sample.host Sample.deployed Sample.opened
      (fun c _ => decide (
        (c.world.store.round 1).map (fun r => (r.status, r.bidders, r.revealDeadline)) =
          some (.Revealing, [Sample.alice, Sample.bob], 1100) ∧ c.now ≤ 1100 ∧
        (c.world.store.state 1 Sample.alice).map (fun s => (s.commitment, s.revealedValue)) =
          some (Sample.commitment 30, none) ∧
        (c.world.store.state 1 Sample.bob).map (fun s =>
        (s.commitment, s.escrow, s.revealedValue)) =
          some (Sample.commitment 20, Sample.amount 50, none) ∧
        c.world.sealOf (.v1 1) Sample.alice = some ⟨[], []⟩)) true (by decide +kernel)
    obtain ⟨hround, hnow, halice, hbob, hsealed⟩ := of_decide_eq_true hvalue
    obtain ⟨round, hr, hst, hbidders, hdeadline⟩ := exists_of_triple hround
    obtain ⟨first, hfirst, hcommitment, hunrevealed⟩ := exists_of_pair halice
    obtain ⟨second, hsecond, hcommitment', hescrow, hnone⟩ := exists_of_triple hbob
    refine ⟨c, events, hrun, fun client r d h => ?_⟩
    obtain ⟨-, hends⟩ := (web_reveals (n := sampleNetwork (Sample.preimage 20)) Sample.deployed_ok
      hrun client sampleMemory 1).2 round hr hst (hdeadline ▸ hnow)
      (hdeadline ▸ sealedNetwork_quiet _ _)
    obtain ⟨seen, hseen, hreveals, hok⟩ := hends r d h
    have hshown : seen Sample.alice = some ⟨[], []⟩ :=
      (sealedNetwork_shows (hseen Sample.alice)).trans hsealed
    have hblocked : (sessionLoop client (sampleNetwork (Sample.preimage 20)) c.world 1).Blocks
        Sample.alice (seen Sample.alice) first := by
      refine ⟨?_, fun _ hmissing => ?_, ?_⟩
      · simp [sessionLoop, hunrevealed]
      · rw [hshown] at hmissing
        cases hmissing
      · rintro ⟨t, x, -, hx, _, _, -, hash, -⟩
        obtain rfl : Sample.preimage 20 = x := Except.ok.inj hx
        rw [hcommitment] at hash
        exact absurd hash (by decide +kernel)
    refine ⟨fun hsuccess => ?_, second, ?_⟩
    · exact (hok.mp hsuccess).1 Sample.alice (by simp [hbidders]) first hfirst hblocked
    · obtain ⟨state, state', hold, hnew, hturns⟩ := hreveals [Sample.alice] Sample.bob [] hbidders
      obtain rfl : second = state := Option.some_inj.mp (hsecond.symm.trans hold)
      refine ⟨state', hold, ?_, hnew, ?_⟩
      · refine ⟨Sample.amount 20, Sample.nonce, rfl, hcommitment'.symm, ?_⟩
        rw [hescrow]
        decide +kernel
      · have hnot : ¬ state'.revealedValue.isSome = true := by
          intro hrevealed
          rcases hturns.revealed.mp hrevealed with hbefore | ⟨-, hfree⟩
          · simp [sessionLoop, hnone] at hbefore
          · exact hfree Sample.alice (by simp) first hfirst hblocked
        simpa using hnot
  · obtain ⟨c, events, hrun, hvalue⟩ := Chain.exec_reaches Sample.host Sample.deployed
      SamplePilot.sealedEmpty
      (fun c _ => decide (
        (c.world.store.roundV2 1).map (fun r => (r.status, r.bidders, r.revealDeadline)) =
          some (.Revealing, [Sample.alice], 1100) ∧ c.now ≤ 1100 ∧
        (c.world.store.roundV2 1).map RoundV2.mode = some .ReceiptOnly ∧
        (c.world.store.submissionV2 1 Sample.alice).map
          (fun s => (s.commitment, s.revealedEnvelope)) =
          some (Sample.host.sha256 SamplePilot.emptyEnvelope, none) ∧
        c.world.sealOf (.v2 1) Sample.alice = some ⟨[], []⟩)) true (by decide +kernel)
    obtain ⟨hround, hnow, hmode, halice, hsealed⟩ := of_decide_eq_true hvalue
    obtain ⟨round, hr, hst, hbidders, hdeadline⟩ := exists_of_triple hround
    rw [hr, Option.map_some, Option.some_inj] at hmode
    obtain ⟨first, hfirst, hcommitment, hnone⟩ := exists_of_pair halice
    refine ⟨c, events, hrun, fun client r d h => ?_⟩
    obtain ⟨-, hends⟩ := (web_reveals (n := sampleNetwork SamplePilot.emptyEnvelope)
      Sample.deployed_ok hrun client sampleMemory 1).1 round hr hst (hdeadline ▸ hnow)
      (hdeadline ▸ sealedNetwork_quiet _ _) (by
        rintro c d ⟨rfl, -⟩
        rfl)
    obtain ⟨seen, hseen, hreveals, hok⟩ := hends r d h
    have hshown : seen Sample.alice = some ⟨[], []⟩ :=
      (sealedNetwork_shows (hseen Sample.alice)).trans hsealed
    obtain ⟨state, state', hold, hnew, hturns⟩ := hreveals [] Sample.alice [] hbidders
    obtain rfl : first = state := Option.some_inj.mp (hfirst.symm.trans hold)
    have hrevealed : state'.revealedEnvelope.isSome = true := by
      refine hturns.revealed.mpr (Or.inr ⟨⟨[], SamplePilot.emptyEnvelope, ?_, rfl, ?_⟩, by simp⟩)
      · rw [hshown]
        rfl
      · refine ⟨_, SamplePilot.decode_empty, hcommitment.symm, fun hauction => ?_⟩
        rw [hmode] at hauction
        cases hauction
    refine ⟨fun hsuccess => ?_, state', hnew, hrevealed⟩
    obtain ⟨-, -, hshows⟩ := hok.mp hsuccess
    have hrecorded : state'.revealedEnvelope = some SamplePilot.emptyEnvelope := by
      rcases hturns.change with rfl | ⟨t, x, -, hx, amount, rfl⟩
      · simp [hnone] at hrevealed
      · obtain rfl : SamplePilot.emptyEnvelope = x := Except.ok.inj hx
        rfl
    obtain ⟨proposal, hproposal⟩ := hshows hmode Sample.alice (by simp [hbidders]) state' _ hnew
      hrecorded _ SamplePilot.decode_empty
    rw [SamplePilot.no_proposal] at hproposal
    cases hproposal

end

end SubRosa.Web
