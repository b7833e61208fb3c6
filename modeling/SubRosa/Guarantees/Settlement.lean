import SubRosa.Keeper.Discipline

/-!
# Settlement under a shared guard

Any number of passes over any rounds take turns in any order. They settle a
round one at a time, and a round that nobody settles and nobody marked terminal
can be attempted. A terminal mark stays as long as no attempt fails while the
round is marked.
-/

namespace SubRosa.Keeper

open Coroutine

/-! ## Pools of passes -/

/-- A pass whose result nobody reads. -/
def detached {α : Type} (x : Pass α) : Pass Unit := x >>= fun _ => pure ()

/-- The passes that share the guard. -/
inductive Started : Pass Unit → Prop
  | keepRound (deps : KeeperDeps) (id : Int) : Started (detached (keepRound deps id))
  | keepRoundV2 (deps : KeeperDeps) (id : Int) : Started (detached (keepRoundV2 deps id))
  | voidIfStale (deps : KeeperDeps) (id : Int) : Started (detached (voidIfStale deps id))
  | closeRound (deps : KeeperDeps) (id : Int) : deps.settlementGuard = true →
      Started (detached (closeRound deps id))
  | closeRoundV2 (deps : KeeperDeps) (id : Int) : deps.settlementGuard = true →
      Started (detached (closeRoundV2 deps id))
  | watchRound (deps : KeeperDeps) (id : Int) : deps.settlementGuard = true →
      Started (detached (watchRound deps id))
  | runWatchLoop (params : RunWatchLoopParams) (n : Nat) : Started (runWatchLoop params n)

/-- Between two turns the clock, the stop flag and the queue change, the guard does not. -/
def Outside (m m' : Memory) : Prop := m'.guard = m.guard

abbrev KeeperPool := Pool Memory Request Request.Answer Rejection

abbrev KeeperTurn := Turn Request Request.Answer Rejection

abbrev KeeperStep : KeeperPool → KeeperTurn → KeeperPool → Prop := Pool.Step Started Outside

theorem Guarding.started {G : Type} {p : Protocol Memory Request Request.Answer Rejection G}
    (h : Guarding p) {x : Pass Unit} (hx : Started x) : Obeys p x := by
  cases hx with
  | keepRound deps id => exact (h.keepRound deps id).bind fun _ => obeys_pure _
  | keepRoundV2 deps id => exact (h.keepRoundV2 deps id).bind fun _ => obeys_pure _
  | voidIfStale deps id => exact (h.voidIfStale deps id).bind fun _ => obeys_pure _
  | closeRound deps id hdeps => exact (h.closeRound hdeps id).bind fun _ => obeys_pure _
  | closeRoundV2 deps id hdeps => exact (h.closeRoundV2 hdeps id).bind fun _ => obeys_pure _
  | watchRound deps id hdeps => exact (h.watchRound hdeps id).bind fun _ => obeys_pure _
  | runWatchLoop params n => exact h.runWatchLoop params n

/-! ## Sample passes -/

namespace SampleRun

def deps : KeeperDeps := ⟨true, .v1, 0, JavaScript.silentEngine⟩

def roundWith (status : Status) : Round where
  operator := .account 1
  itemRef := BytesN.fill 32 0
  revealRound := 3
  clearingRule := .HighestBid
  commitDeadline := 1050
  revealDeadline := 2000
  auditorPubkey := []
  status := status
  bidders := [.account 2]
  winner := some (.account 2)
  winningBid := (MachineInt.I128.ofInt? 30).getD 0

def memory : Memory := ⟨2100, false, SettlementGuard.empty, StoreData.empty⟩

theorem start : Runs.Run KeeperStep ⟨memory, []⟩ [] ⟨memory, []⟩ := .nil

end SampleRun

/-! ## At most one settlement in flight -/

/-- A round is free while its entry is pending and taken while it is submitted. -/
def settlementLock : Lock Memory Request Int where
  free m id := m.guard.statusOf id = .pending
  taken m id := m.guard.statusOf id = .submitted
  holds := settles

/-- The settle calls of a round that are dispatched and not finished. -/
def inFlight (p : KeeperPool) (id : Int) : Nat := settlementLock.holders p id

/-- A change of one entry that takes the round, keeps it or gives it back. -/
theorem lockChange_setEntry {own own' : Option Int} {m : Memory} {id : Int} {entry : GuardEntry}
    (hfrees : own ≠ some id → m.guard.statusOf id ≠ .pending → entry.status ≠ .pending)
    (hother : ∀ c, c ≠ id → own ≠ some c ∧ own' ≠ some c)
    (htakes : own' = some id → (own = some id ∨ m.guard.statusOf id = .pending) ∧
      entry.status ≠ .pending)
    (hleaves : entry.status = .submitted →
      own' = some id ∨ (own ≠ some id ∧ m.guard.statusOf id = .submitted)) :
    settlementLock.Change own m { m with guard := m.guard.setEntry id entry } own' where
  frees c hown hfree := by
    simp only [settlementLock, SettlementGuard.statusOf_setEntry] at hfree ⊢
    by_cases hc : c = id
    · subst hc
      rw [if_pos rfl]
      exact hfrees hown hfree
    · rw [if_neg hc]
      exact hfree
  takes c hown := by
    by_cases hc : c = id
    · subst hc
      exact (htakes hown).1
    · exact absurd hown (hother c hc).2
  keeps c hown := by
    simp only [settlementLock, SettlementGuard.statusOf_setEntry]
    by_cases hc : c = id
    · subst hc
      rw [if_pos rfl]
      exact (htakes hown).2
    · exact absurd hown (hother c hc).2
  leaves c htaken := by
    simp only [settlementLock, SettlementGuard.statusOf_setEntry] at htaken ⊢
    by_cases hc : c = id
    · subst hc
      rw [if_pos rfl] at htaken
      exact hleaves htaken
    · rw [if_neg hc] at htaken
      exact Or.inr ⟨(hother c hc).1, htaken⟩

theorem settlementLock_guarding :
    Guarding (settlementLock.protocol : Protocol Memory Request Request.Answer Rejection _) where
  refl m := Lock.Change.same (fun _ hc => hc) (fun _ hc => hc)
  store m f _ := Lock.Change.same (fun _ hc => hc) (fun _ hc => hc)
  asks q hq := hq
  create m id := by
    refine Lock.Change.same (fun c hc => ?_) (fun c hc => ?_)
    · simpa [settlementLock] using hc
    · simpa [settlementLock] using hc
  terminal m id reason := by
    apply lockChange_setEntry
    · exact fun _ _ h => by cases h
    · exact fun c _ => ⟨by simp [Lock.protocol], by simp [Lock.protocol]⟩
    · exact fun h => by cases h
    · exact fun h => by cases h
  reserve m id q hq hpending := by
    have hne : ∀ c, c ≠ id → some id ≠ some c := fun c hc h => hc (Option.some_inj.mp h).symm
    refine ⟨some id, ?_, hq, fun r m' hheld => ⟨fun _ => ?_, fun e _ => ?_⟩⟩
    · apply lockChange_setEntry
      · exact fun _ h => absurd hpending h
      · exact fun c hc => ⟨by simp [Lock.protocol], hne c hc⟩
      · exact fun _ => ⟨Or.inr hpending, by simp⟩
      · exact fun _ => Or.inl rfl
    · apply lockChange_setEntry
      · exact fun h => absurd rfl h
      · exact fun c hc => ⟨hne c hc, by simp [Lock.protocol]⟩
      · exact fun h => by cases h
      · exact fun h => by cases h
    · apply lockChange_setEntry
      · exact fun h => absurd rfl h
      · exact fun c hc => ⟨hne c hc, by simp [Lock.protocol]⟩
      · exact fun h => by cases h
      · exact fun h => by cases h

/-- **At most one settlement in flight.** In any order of turns and with any answers, a round has
at most one settle call in flight, and a round without one that is not marked terminal can be
attempted (again). -/
theorem settlement_exclusive {m : Memory} (hm : m.guard = SettlementGuard.empty)
    {turns : List KeeperTurn} {p : KeeperPool} (hrun : Runs.Run KeeperStep ⟨m, []⟩ turns p)
    (id : Int) :
    inFlight p id ≤ 1 ∧
      (inFlight p id = 0 → p.shared.guard.statusOf id ≠ .terminal →
        p.shared.guard.canSettle id = none) := by
  have hstart : settlementLock.Sound (⟨m, []⟩ : KeeperPool) := by
    refine Lock.Sound.empty fun c hc => ?_
    simp only [settlementLock, hm] at hc
    cases hc
  have hsound : settlementLock.Sound p := by
    refine hrun.invariant (fun p turn p' hp hstep => ?_) hstart
    refine hp.step (fun x hx => (settlementLock_guarding.started hx).follows) ?_ hstep
    intro s s' hs c
    simp only [settlementLock, show s'.guard = s.guard from hs]
    exact ⟨fun h => h, fun h => h⟩
  refine ⟨hsound.atMostOne id, fun hnone hterminal => ?_⟩
  rw [SettlementGuard.canSettle_eq_none]
  cases hstatus : p.shared.guard.statusOf id with
  | pending => rfl
  | terminal => exact absurd hstatus hterminal
  | submitted =>
    have hone := hsound.taken id hstatus
    rw [← inFlight, hnone] at hone
    cases hone

open SampleRun in
/-- Two passes read the cleared round; the second finds the settlement of the first in flight. -/
theorem settlement_exclusive_sample :
    ∃ p : KeeperPool, Runs.Run KeeperStep ⟨memory, []⟩
      [.start, .start, .answer 0 (.getRound 1) (.ok (roundWith .Cleared)),
        .answer 1 (.getRound 1) (.ok (roundWith .Cleared))] p ∧
      inFlight p 1 ≤ 1 ∧
        (inFlight p 1 = 0 → p.shared.guard.statusOf 1 ≠ .terminal →
          p.shared.guard.canSettle 1 = none) := by
  have hrun := ((start.snoc
    (.start (.closeRound deps 1 rfl))).snoc (.start (.closeRound deps 1 rfl))).snoc
    (.answer (i := 0) (q := .getRound 1) (.ok (roundWith .Cleared)) rfl) |>.snoc
    (.answer (i := 1) (q := .getRound 1) (.ok (roundWith .Cleared)) rfl)
  exact ⟨_, hrun, settlement_exclusive rfl hrun 1⟩

/-! ## Terminal marks -/

/-- A settle attempt of the round that ends with an error finds no terminal mark, and its error is
not that the round is already settled. -/
def CleanAnswer (id : Int) (q : Request) (r : Except Rejection q.Answer) (m : Memory) : Prop :=
  settles q = some id → ∀ e, r = .error e →
    m.guard.statusOf id ≠ .terminal ∧ isOneOf e [.AlreadySettled] = false

def CleanStep (id : Int) (p : KeeperPool) (turn : KeeperTurn) (p' : KeeperPool) : Prop :=
  KeeperStep p turn p' ∧ turn.Brings (CleanAnswer id) p.shared

/-- The entry of the round is marked terminal, or an attempt has failed because the contract
reported that the round is already settled. -/
def Closed (id : Int) (turns : List KeeperTurn) (p : KeeperPool) : Prop :=
  p.shared.guard.statusOf id = .terminal ∨
    ∃ i q r e, .answer i q r ∈ turns ∧ settles q = some id ∧ r = .error e ∧
      isOneOf e [.AlreadySettled] = true

def Marked (id : Int) (m : Memory) : Prop := m.guard.statusOf id = .terminal

/-- A change of the entry of a round, under a mark of a round. -/
theorem marked_setEntry {id id' : Int} {m : Memory} {entry : GuardEntry}
    (h : id' = id → entry.status = .terminal ∨ ¬ Marked id m) (hm : Marked id m) :
    Marked id { m with guard := m.guard.setEntry id' entry } := by
  unfold Marked at hm ⊢
  rw [SettlementGuard.statusOf_setEntry]
  split
  · next heq => exact (h heq.symm).resolve_right (not_not.mpr hm)
  · exact hm

theorem marked_guarding (id : Int) : Guarding (staying (Marked id) (CleanAnswer id)) where
  refl m hm := hm
  store m f _ hm := hm
  asks q hq := trivial
  create m id' hm := by
    unfold Marked at hm ⊢
    simpa using hm
  terminal m id' reason hm := marked_setEntry (fun _ => Or.inl rfl) hm
  reserve m id' q hq hpending := by
    refine ⟨(), fun hm => ?_, trivial, fun r m' hr => ⟨fun _ hm => ?_, fun e he hm => ?_⟩⟩
    · refine marked_setEntry (fun heq => Or.inr ?_) hm
      subst heq
      rw [Marked, hpending]
      simp
    · exact marked_setEntry (fun _ => Or.inl rfl) hm
    · refine marked_setEntry (fun heq => Or.inr ?_) hm
      subst heq
      exact (hr hq e he).1

/-- **Terminal is absorbing** in a run whose failing attempts find no terminal mark and do not
report a settled round: once the round is closed, no state allows its settlement. -/
theorem terminal_absorbing {m : Memory} {id : Int} {before after : List KeeperTurn}
    {p p' : KeeperPool} (hbefore : Runs.Run (CleanStep id) ⟨m, []⟩ before p)
    (hafter : Runs.Run (CleanStep id) p after p') (hclosed : Closed id before p) :
    (p'.shared.guard.canSettle id).isSome = true := by
  have hstep : ∀ p turn p', p.Stays (Marked id) (CleanAnswer id) → CleanStep id p turn p' →
      p'.Stays (Marked id) (CleanAnswer id) ∧ (Marked id p.shared → Marked id p'.shared) := by
    intro p turn p' hp h
    refine hp.step (fun x hx => ((marked_guarding id).started hx).follows) ?_ h.2 h.1
    intro s s' hs hm
    unfold Marked at hm ⊢
    rwa [show s'.guard = s.guard from hs]
  have hstays : p.Stays (Marked id) (CleanAnswer id) :=
    hbefore.invariant (fun p turn p' hp h => (hstep p turn p' hp h).1)
      (fun x hx => by simp at hx)
  have hmarked : Marked id p.shared := by
    rcases hclosed with h | ⟨i, q, r, e, hmem, hq, rfl, he⟩
    · exact h
    · obtain ⟨_, _, u, v, -, -, h, -⟩ := hbefore.mem_step hmem
      rw [(h.2 hq e rfl).2] at he
      cases he
  have hlast : Marked id p'.shared :=
    hafter.invariant_of (fun p turn p' hp h => (hstep p turn p' hp h).1)
      (fun p turn p' hp hm h => (hstep p turn p' hp h).2 hm) hstays hmarked
  rw [Option.isSome_iff_ne_none, Ne, SettlementGuard.canSettle_eq_none, hlast]
  simp

namespace SampleRun

def alreadySettled : Rejection := ⟨⟨"HostError: Error(Contract, #19)", some "{}"⟩, []⟩

/-- The memory after a tick that found the round settled. -/
def watched : KeeperPool :=
  ⟨{ memory with guard := SettlementGuard.empty.markTerminal 1 "Settled on-chain" },
    [.done (.ok ())]⟩

theorem watched_run : Runs.Run (CleanStep 1) ⟨memory, []⟩
    [.start, .answer 0 (.getRound 1) (.ok (roundWith .Settled)), .answer 0 .turn (.ok ()),
      .answer 0 (.getRound 1) (.ok (roundWith .Settled))] watched := by
  have hrun := ((((Runs.Run.nil : Runs.Run (CleanStep 1) ⟨memory, []⟩ [] _).snoc
    ⟨.start (.watchRound deps 1 rfl), trivial⟩).snoc
    ⟨.answer (i := 0) (q := .getRound 1) (.ok (roundWith .Settled)) rfl, fun h => by cases h⟩).snoc
    ⟨.answer (i := 0) (q := .turn) (.ok ()) rfl, fun h => by cases h⟩).snoc
    ⟨.answer (i := 0) (q := .getRound 1) (.ok (roundWith .Settled)) rfl, fun h => by cases h⟩
  exact hrun

end SampleRun

open SampleRun in
theorem terminal_absorbing_sample :
    ∃ p : KeeperPool,
      Runs.Run (CleanStep 1) watched
        [.start, .answer 1 (.getRound 1) (.ok (roundWith .Cleared))] p ∧
      (p.shared.guard.canSettle 1).isSome = true := by
  have hrun := ((Runs.Run.nil : Runs.Run (CleanStep 1) watched [] _).snoc
    ⟨.start (.closeRound deps 1 rfl), trivial⟩).snoc
    ⟨.answer (i := 1) (q := .getRound 1) (.ok (roundWith .Cleared)) rfl, fun h => by cases h⟩
  exact ⟨_, hrun, terminal_absorbing watched_run hrun (Or.inl rfl)⟩

open SampleRun in
/-- A tick marks the round terminal while a settlement is in flight; the settlement fails and
releases the mark. -/
theorem terminal_not_absorbing :
    ∃ (p p' : KeeperPool) (before after : List KeeperTurn),
      Runs.Run KeeperStep ⟨memory, []⟩ before p ∧ Runs.Run KeeperStep p after p' ∧
        Closed 1 before p ∧ p'.shared.guard.canSettle 1 = none := by
  have hbefore := (((((start.snoc
    (.start (.closeRound deps 1 rfl))).snoc
    (.answer (i := 0) (q := .getRound 1) (.ok (roundWith .Cleared)) rfl)).snoc
    (.start (.watchRound deps 1 rfl))).snoc
    (.answer (i := 1) (q := .getRound 1) (.ok (roundWith .Settled)) rfl)).snoc
    (.answer (i := 1) (q := .turn) (.ok ()) rfl)).snoc
    (.answer (i := 1) (q := .getRound 1) (.ok (roundWith .Settled)) rfl)
  refine ⟨_, _, _, _, hbefore, Runs.Run.nil.snoc
    (.answer (i := 0) (q := .settle 1) (.error alreadySettled) rfl), Or.inl rfl, rfl⟩

end SubRosa.Keeper
