import SubRosa.Contract.Calls
import SubRosa.Keeper.Discipline
import SubRosa.Library.Runs

/-!
# Which rounds an iteration processes

An iteration of the watch loop processes the entries of the queue that its
filter lets through. The queue is keyed by the round id alone, so what another
deployment left in an entry decides about a round of this one.
-/

namespace SubRosa.Keeper

open Coroutine

/-- While a pass waits, the clock runs, other passes use the guard and a stop can be requested;
nobody else changes the queue. -/
def Elsewhere (c : Memory × Unit) (q : Request) (_ : Except Rejection q.Answer)
    (d : Memory × Unit) : Prop := d.1.store = c.1.store

section

variable {α : Type} {c c' : Memory × Unit}

/-! ## The parts of an iteration -/

theorem elsewhere_ask {q : Request} {r : Except Rejection q.Answer} :
    (ask q).Ends Elsewhere c r c' ↔ Elsewhere c q r c' := ends_request

theorem ends_changeGuard {deps : KeeperDeps} {f : SettlementGuard → SettlementGuard}
    {r : Except Rejection Unit} (h : (changeGuard deps f).Ends Elsewhere c r c') : r = .ok () := by
  unfold changeGuard at h
  split at h
  · exact (ends_change.mp h).1
  · exact (ends_pure.mp h).1

theorem ends_changeStore {f : StoreData → StoreData} {r : Except Rejection Unit} :
    (changeStore f).Ends Elsewhere c r c' ↔
      r = .ok () ∧ c' = ({ c.1 with store := f c.1.store }, c.2) := ends_change

/-- A tick never makes the loop fail. -/
theorem ends_processRound {params : RunWatchLoopParams} {stored : WatchedRound}
    {r : Except Rejection Unit} (h : (processRound params stored).Ends Elsewhere c r c') :
    r = .ok () := by
  obtain ⟨o, d, -, h⟩ := ends_attempt_bind.mp h
  cases o with
  | error e => exact (ends_changeStore.mp h).1
  | ok tick =>
    have hmark : ∀ {d' : Memory × Unit} {r' : Except Rejection Unit},
        (markTick params.deps stored.roundId tick).Ends Elsewhere d r' d' → r' = .ok () := by
      intro d' r' hm
      unfold markTick at hm
      split at hm
      · exact ends_changeGuard hm
      · split at hm
        · exact ends_changeGuard hm
        · exact (ends_pure.mp hm).1
    rcases ends_bind.mp h with ⟨_, _, -, hstore⟩ | ⟨e, -, hm⟩
    · exact (ends_changeStore.mp hstore).1
    · cases hmark hm

/-- Without a stop request every round of the list is processed. -/
theorem ends_processRounds {params : RunWatchLoopParams} {active : List WatchedRound}
    {r : Except Rejection (List Nat)} (h : (processRounds params active).Ends Elsewhere c r c')
    (hstop : c'.1.stopping = false) : r = .ok (active.map WatchedRound.roundId) := by
  induction active generalizing c r with
  | nil => exact (ends_pure.mp h).1
  | cons stored rest ih =>
    have h := ends_inspect_bind.mp h
    split at h
    · next hs =>
      obtain ⟨-, rfl⟩ := ends_pure.mp h
      rw [hs] at hstop
      cases hstop
    · rcases ends_bind.mp h with ⟨_, d, -, h⟩ | ⟨e, -, h⟩
      · rcases ends_bind.mp h with ⟨ids, d', hrest, h⟩ | ⟨e, -, hrest⟩
        · obtain ⟨rfl, rfl⟩ := ends_pure.mp h
          have hids := ih hrest
          rw [Except.ok.injEq] at hids
          rw [hids]
          rfl
        · cases ih hrest
      · cases ends_processRound h

/-- A read of the chain leaves the queue alone. -/
theorem ends_readKeeperRound {deps : KeeperDeps} {id : Int} {r : Except Rejection KeeperRound}
    (h : (readKeeperRound deps id).Ends Elsewhere c r c') : c'.1.store = c.1.store := by
  unfold readKeeperRound at h
  split at h
  · obtain ⟨o, -, h⟩ := ends_map.mp h
    exact elsewhere_ask.mp h
  · obtain ⟨o, -, h⟩ := ends_map.mp h
    exact elsewhere_ask.mp h

theorem ends_discoverRoundIds {deps : KeeperDeps} {next : Int} {n : Nat}
    {r : Except Rejection (List Int)}
    (h : (discoverRoundIds deps next n).Ends Elsewhere c r c') : c'.1.store = c.1.store := by
  induction n generalizing c r next with
  | zero =>
    obtain ⟨-, rfl⟩ := ends_pure.mp h
    rfl
  | succ n ih =>
    obtain ⟨o, d, hread, h⟩ := ends_attempt_bind.mp h
    rw [← ends_readKeeperRound hread]
    cases o with
    | ok _ =>
      rcases ends_bind.mp h with ⟨ids, d', hrest, hp⟩ | ⟨e, -, hrest⟩
      · obtain ⟨-, rfl⟩ := ends_pure.mp hp
        exact ih hrest
      · exact ih hrest
    | error e =>
      dsimp only at h
      split at h
      · exact ih h
      · obtain ⟨-, rfl⟩ := ends_fail.mp h
        rfl

theorem ends_resolveRoundIds {params : RunWatchLoopParams} {r : Except Rejection (List Int)}
    (h : (resolveRoundIds params).Ends Elsewhere c r c') : c'.1.store = c.1.store := by
  unfold resolveRoundIds at h
  split at h
  · unfold lift at h
    split at h
    · obtain ⟨-, rfl⟩ := ends_pure.mp h
      rfl
    · obtain ⟨-, rfl⟩ := ends_fail.mp h
      rfl
  · exact ends_discoverRoundIds h

/-- An awaited function leaves the queue as it does alone. -/
theorem elsewhere_call {x : Pass α} {r : Except Rejection α} (h : (call x).Ends Elsewhere c r c') :
    ∃ o d, x.Ends Elsewhere c o d ∧ d.1.store = c'.1.store := by
  obtain ⟨o, d, hx, h⟩ := ends_attempt_bind.mp h
  refine ⟨o, d, hx, ?_⟩
  rcases ends_bind.mp h with ⟨_, d', hturn, hp⟩ | ⟨e, -, hturn⟩
  · obtain ⟨-, rfl⟩ := ends_done.mp hp
    exact (elsewhere_ask.mp hturn).symm
  · exact (elsewhere_ask.mp hturn).symm

theorem ends_discover {params : RunWatchLoopParams} {r : Except Rejection (List Int)}
    (h : (discover params).Ends Elsewhere c r c') :
    ∃ ids, r = .ok ids ∧ c'.1.store = addDiscovered params ids c.1.store := by
  obtain ⟨o, d, hresolve, h⟩ := ends_attempt_bind.mp h
  obtain ⟨_, d', hresolve, hstore⟩ := elsewhere_call hresolve
  rw [ends_resolveRoundIds hresolve] at hstore
  cases o with
  | ok ids =>
    have h := ends_change_bind.mp h
    obtain ⟨rfl, rfl⟩ := ends_pure.mp h
    exact ⟨ids, rfl, by rw [hstore]⟩
  | error e =>
    obtain ⟨rfl, rfl⟩ := ends_pure.mp h
    exact ⟨[], rfl, hstore.symm⟩

/-- **One iteration**, unless it is stopped. -/
theorem ends_iterate {params : RunWatchLoopParams} {r : Except Rejection Iteration}
    (h : (iterate params).Ends Elsewhere c r c') (hstop : c'.1.stopping = false) :
    ∃ it, r = .ok it ∧ it.processed =
      (activeRounds params (addDiscovered params it.discovered c.1.store)).map
        WatchedRound.roundId := by
  rcases ends_bind.mp h with ⟨ids, d, hdiscover, h⟩ | ⟨e, -, hdiscover⟩
  · obtain ⟨ids', hids, hstore⟩ := ends_discover hdiscover
    cases hids
    have h := ends_inspect_bind.mp h
    rcases ends_bind.mp h with ⟨processed, d', hprocess, hp⟩ | ⟨e, -, hprocess⟩
    · obtain ⟨rfl, rfl⟩ := ends_pure.mp hp
      have hall := ends_processRounds hprocess hstop
      rw [Except.ok.injEq] at hall
      exact ⟨_, rfl, by rw [hall, hstore]⟩
    · cases ends_processRounds hprocess hstop
  · obtain ⟨_, hids, -⟩ := ends_discover hdiscover
    cases hids

/-! ## Entries stay until they are removed -/

/-- No entry of the queue is dropped. -/
def entriesStay : Protocol Memory Request Request.Answer Rejection Unit where
  idle := ()
  change _ m m' _ := ∀ id, (m.store.getRound id).isSome = true →
    (m'.store.getRound id).isSome = true
  asks _ _ := True
  answers _ _ _ _ := True

theorem guarding_entriesStay : Guarding entriesStay where
  refl _ _ hid := hid
  store m _ hf := hf m.store
  asks _ _ := trivial
  create _ _ _ hid := hid
  terminal _ _ _ _ hid := hid
  reserve _ _ _ _ _ :=
    ⟨(), fun _ hid => hid, trivial, fun _ _ _ => ⟨fun _ _ hid => hid, fun _ _ _ hid => hid⟩⟩

theorem ends_keeps {x : Pass α} {r : Except Rejection α} (hx : Obeys entriesStay x)
    (h : x.Ends Elsewhere c r c') {id : Nat} (hid : (c.1.store.getRound id).isSome = true) :
    (c'.1.store.getRound id).isSome = true := by
  have hstay := Follows.ends (p := entriesStay)
    (I := fun m m' => ∀ id, (m.store.getRound id).isSome = true →
      (m'.store.getRound id).isSome = true)
    (fun _ _ h => h) (fun _ _ _ h₁ h₂ id hid => h₂ id (h₁ id hid)) (fun _ _ _ _ hc => hc)
    (fun _ _ _ _ _ _ henv => ⟨trivial, fun id hid => by rw [henv]; exact hid⟩) (hx.follows _) h
  exact hstay id hid

end

/-! ## The filter -/

section

variable {params : RunWatchLoopParams} {before : StoreData} {it : Iteration} {id : Nat}

/-- The round is added to the queue: no id before it in the list fails to be a round id. -/
def Added (ids : List Int) (id : Nat) : Prop := (id : Int) ∈ ids.takeWhile fun n => 0 < n

instance (ids : List Int) : Decidable (Added ids id) :=
  inferInstanceAs (Decidable ((id : Int) ∈ ids.takeWhile fun n => 0 < n))

theorem added_cons {next : Int} {ids : List Int} :
    Added (next :: ids) id ↔ 0 < next ∧ ((id : Int) = next ∨ Added ids id) := by
  unfold Added
  by_cases hpos : 0 < next
  · rw [List.takeWhile_cons_of_pos (by simpa using hpos), List.mem_cons]
    simp [hpos]
  · rw [List.takeWhile_cons_of_neg (by simpa using hpos)]
    simp [hpos]

/-- The entry records the end of the round. -/
def Finished (d : StoreData) (id : Nat) : Prop :=
  ∃ r, d.getRound id = some r ∧ (r.lastStatus = tag .Settled ∨ r.lastStatus = tag .Voided)

/-- The entry names another deployment. -/
def Foreign (params : RunWatchLoopParams) (d : StoreData) (id : Nat) : Prop :=
  ∃ r, d.getRound id = some r ∧
    (differs r.contractId params.contractId = true ∨ differs r.network params.network = true)

theorem isActive_iff {r : WatchedRound} : isActive params r = true ↔
    ¬ (r.lastStatus = tag .Settled ∨ r.lastStatus = tag .Voided) ∧
      ¬ (differs r.contractId params.contractId = true ∨
        differs r.network params.network = true) := by
  unfold isActive
  cases differs r.contractId params.contractId <;> cases differs r.network params.network <;> simp

theorem mem_activeRounds {d : StoreData} :
    id ∈ (activeRounds params d).map WatchedRound.roundId ↔
      ∃ r, d.getRound id = some r ∧ isActive params r = true := by
  unfold activeRounds
  rw [List.mem_map]
  constructor
  · rintro ⟨r, hr, rfl⟩
    obtain ⟨hmem, hactive⟩ := List.mem_filter.mp hr
    exact ⟨r, StoreData.mem_listRounds.mp hmem, hactive⟩
  · rintro ⟨r, hr, hactive⟩
    have hid : r.roundId = id := roundId_of_entryOf hr
    subst hid
    exact ⟨r, List.mem_filter.mpr ⟨StoreData.mem_listRounds.mpr hr, hactive⟩, rfl⟩

/-- An added round keeps what its entry recorded and takes the current deployment. -/
theorem getRound_addDiscovered (ids : List Int) (d : StoreData) :
    (addDiscovered params ids d).getRound id =
      if Added ids id then
        some (((d.getRound id).getD (StoreData.unknown id)).merge params.extra)
      else d.getRound id := by
  induction ids generalizing d with
  | nil => rfl
  | cons next ids ih =>
    unfold addDiscovered
    by_cases hpos : 0 < next
    · have hkey : normalizeRoundId params.engine (.bigint next) = .ok next.toNat :=
        if_neg (by omega)
      rw [hkey]
      dsimp only
      rw [ih, StoreData.getRound_addRound]
      by_cases hid : id = next.toNat
      · have hnext : Added (next :: ids) id := added_cons.mpr ⟨hpos, Or.inl (by omega)⟩
        rw [if_pos hid, if_pos hnext, ← hid]
        split
        · rfl
        · rfl
      · have hnext : Added (next :: ids) id ↔ Added ids id := by
          rw [added_cons]
          have hne : (id : Int) ≠ next := by omega
          simp [hpos, hne]
        rw [if_neg hid, if_congr hnext rfl rfl]
    · have hkey : ∃ e, normalizeRoundId params.engine (.bigint next) = .error e :=
        ⟨_, if_pos (by omega)⟩
      obtain ⟨e, hkey⟩ := hkey
      rw [hkey, if_neg fun h => hpos (added_cons.mp h).1]

theorem differs_self (s : String) : differs (some s) s = false := by simp [differs]

/-- What decides whether an iteration processes a round. -/
theorem processed_iff (hprocessed : it.processed =
      (activeRounds params (addDiscovered params it.discovered before)).map
        WatchedRound.roundId) :
    id ∈ it.processed ↔ ¬ Finished before id ∧
      (Added it.discovered id ∨
        ((before.getRound id).isSome = true ∧ ¬ Foreign params before id)) := by
  rw [hprocessed, mem_activeRounds, getRound_addDiscovered]
  by_cases hadded : Added it.discovered id
  · rw [if_pos hadded]
    have hown : ∀ r : WatchedRound, isActive params (r.merge params.extra) = true ↔
        ¬ (r.lastStatus = tag .Settled ∨ r.lastStatus = tag .Voided) := by
      intro r
      rw [isActive_iff]
      simp [WatchedRound.merge, RunWatchLoopParams.extra, differs_self]
    simp only [Option.some.injEq, exists_eq_left', hown, hadded, true_or, and_true]
    cases hentry : before.getRound id with
    | none =>
      refine iff_of_true ?_ (fun hfinished => ?_)
      · simp only [Option.getD_none, StoreData.unknown]
        decide
      · obtain ⟨r, hr, -⟩ := hfinished
        rw [hentry] at hr
        cases hr
    | some r => simp [Finished, hentry]
  · rw [if_neg hadded]
    cases hentry : before.getRound id with
    | none => simp [hadded]
    | some r => simp [isActive_iff, Finished, Foreign, hentry, hadded]

theorem iterate_adds {c c' : Memory × Unit} {r : Except Rejection Iteration}
    (h : (iterate params).Ends Elsewhere c r c') (hr : r = .ok it)
    (hadded : Added it.discovered id) :
    (c'.1.store.getRound id).isSome = true := by
  rcases ends_bind.mp h with ⟨ids, d, hdiscover, h⟩ | ⟨e, rfl, -⟩
  · obtain ⟨ids', hids, hstore⟩ := ends_discover hdiscover
    cases hids
    have h := ends_inspect_bind.mp h
    rcases ends_bind.mp h with ⟨processed, d', hprocess, hp⟩ | ⟨e, rfl, -⟩
    · obtain ⟨rfl, rfl⟩ := ends_pure.mp hp
      cases hr
      apply ends_keeps (guarding_entriesStay.processRounds params _) hprocess
      rw [hstore, getRound_addDiscovered, if_pos hadded]
      rfl
    · cases hr
  · cases hr

end

/-! ## Runs over one queue file -/

/-- What processes do to the file, one after another. -/
inductive QueueAction
  | operation (op : QueueOperation)
  /-- An iteration that found the queue as `before`. -/
  | iteration (params : RunWatchLoopParams) (before : StoreData) (it : Iteration) (stopped : Bool)

inductive QueueStep : StoreData → QueueAction → StoreData → Prop
  | operation {d : StoreData} (op : QueueOperation) : QueueStep d (.operation op) (op.apply d)
  | iteration {params : RunWatchLoopParams} {c c' : Memory × Unit} {it : Iteration} :
      (iterate params).Ends Elsewhere c (.ok it) c' →
      QueueStep c.1.store (.iteration params c.1.store it c'.1.stopping) c'.1.store

/-- The action queues the round for the deployment. -/
def QueueAction.Queues (params : RunWatchLoopParams) (id : Nat) : QueueAction → Prop
  | .operation (.addRound id' extra) => id' = id ∧
    extra.contractId = some (some params.contractId) ∧ extra.network = some (some params.network)
  | .operation _ => False
  | .iteration other _ it _ =>
    other.contractId = params.contractId ∧ other.network = params.network ∧ Added it.discovered id

/-- The round was queued for the deployment and not removed since. -/
def QueuedFor (params : RunWatchLoopParams) (history : List QueueAction) (id : Nat) : Prop :=
  ∃ pre action post, history = pre ++ action :: post ∧ action.Queues params id ∧
    .operation (.removeRound id) ∉ post

section

variable {d d' : StoreData} {action : QueueAction} {id : Nat}

/-- **Step lemma.** Only a removal drops an entry. -/
theorem QueueStep.keeps (h : QueueStep d action d')
    (hremove : action ≠ .operation (.removeRound id))
    (hid : (d.getRound id).isSome = true) : (d'.getRound id).isSome = true := by
  cases h with
  | @operation _ op =>
    cases op with
    | addRound id' extra => exact StoreData.isSome_addRound extra hid
    | removeRound id' =>
      have hne : id ≠ id' := fun he => hremove (by rw [he])
      rw [QueueOperation.apply, StoreData.getRound_removeRound, if_neg hne]
      exact hid
    | updateRound id' update => exact updateRound_keeps id' (fun _ => update) d id hid
  | iteration hends => exact ends_keeps (guarding_entriesStay.iterate _) hends hid

theorem QueueStep.adds {params : RunWatchLoopParams} (h : QueueStep d action d')
    (hqueues : action.Queues params id) : (d'.getRound id).isSome = true := by
  cases h with
  | @operation _ op =>
    cases op with
    | addRound id' extra =>
      obtain ⟨rfl, -⟩ := hqueues
      rw [QueueOperation.apply, StoreData.getRound_addRound, if_pos rfl]
      rfl
    | removeRound id' => exact hqueues.elim
    | updateRound id' update => exact hqueues.elim
  | iteration hends => exact iterate_adds hends rfl hqueues.2.2

theorem run_keeps {actions : List QueueAction} (h : Runs.Run QueueStep d actions d')
    (hremove : .operation (.removeRound id) ∉ actions)
    (hid : (d.getRound id).isSome = true) : (d'.getRound id).isSome = true := by
  induction h with
  | nil => exact hid
  | snoc _ hstep ih =>
    rw [List.mem_append, List.mem_singleton, not_or] at hremove
    exact hstep.keeps (fun he => hremove.2 he.symm) (ih hremove.1)

/-- A round that was queued and not removed has an entry. -/
theorem queued_isSome {params : RunWatchLoopParams} {history : List QueueAction}
    (h : Runs.Run QueueStep d history d') (hqueued : QueuedFor params history id) :
    (d'.getRound id).isSome = true := by
  obtain ⟨pre, action, post, rfl, hqueues, hremove⟩ := hqueued
  obtain ⟨u, v, -, hstep, hpost⟩ := h.middle
  exact run_keeps hpost hremove (hstep.adds hqueues)

/-- What decides about a round the iteration should process: its entry does not record an end,
and names no other deployment unless the iteration has just added it. A round behind an id that
is no round id has an entry from before. -/
structure KeepsWanted (params : RunWatchLoopParams) (history : List QueueAction)
    (before : StoreData)
    (it : Iteration) (id : Nat) : Prop where
  unfinished : ¬ Finished before id
  own : Added it.discovered id ∨ ¬ Foreign params before id
  listed : Added it.discovered id ∨ QueuedFor params history id ∨ (before.getRound id).isSome = true

/-- The round was discovered by the iteration or queued for the deployment. -/
def Wanted (params : RunWatchLoopParams) (history : List QueueAction) (it : Iteration)
    (id : Nat) : Prop := (id : Int) ∈ it.discovered ∨ QueuedFor params history id

/-- What an iteration processes, by the entries from before. -/
theorem processed_iff_keeps {history rest : List QueueAction} {params : RunWatchLoopParams}
    {before : StoreData} {it : Iteration} (h : Runs.Run QueueStep .empty
      (history ++ .iteration params before it false :: rest) d) {id : Nat} :
    id ∈ it.processed ↔ KeepsWanted params history before it id := by
  obtain ⟨u, v, hhistory, hstep, -⟩ := h.middle
  generalize haction : QueueAction.iteration params before it false = action at hstep
  cases hstep with
  | operation op => cases haction
  | @iteration _ c c' _ hends =>
    injection haction with hparams hbefore hit hstop
    subst hparams hbefore hit
    obtain ⟨_, hok, hprocessed⟩ := ends_iterate hends hstop.symm
    cases hok
    rw [processed_iff hprocessed]
    constructor
    · rintro ⟨hunfinished, hadded | ⟨hlisted, hown⟩⟩
      · exact ⟨hunfinished, Or.inl hadded, Or.inl hadded⟩
      · exact ⟨hunfinished, Or.inr hown, Or.inr (Or.inr hlisted)⟩
    · rintro ⟨hunfinished, hown, hlisted⟩
      refine ⟨hunfinished, ?_⟩
      rcases hown with hadded | hown
      · exact Or.inl hadded
      · rcases hlisted with hadded | hqueued | hlisted
        · exact Or.inl hadded
        · exact Or.inr ⟨queued_isSome hhistory hqueued, hown⟩
        · exact Or.inr ⟨hlisted, hown⟩

/-- **No live round is dropped from the watch queue.** In every run over one queue file every
iteration that is not stopped processes every round it discovered, or that is queued for its
deployment, and that is live on its contract, if and only if the entry of every such round
neither records an end nor, unless it has just been added, names another deployment. -/
theorem live_rounds_processed_iff (live : List QueueAction → RunWatchLoopParams → Nat → Prop)
    {actions : List QueueAction} {d : StoreData} (h : Runs.Run QueueStep .empty actions d) :
    (∀ history params before it rest,
        actions = history ++ .iteration params before it false :: rest →
        ∀ id, Wanted params history it id → live history params id → id ∈ it.processed) ↔
      ∀ history params before it rest,
        actions = history ++ .iteration params before it false :: rest →
        ∀ id, Wanted params history it id → live history params id →
          KeepsWanted params history before it id := by
  refine forall_congr' fun history => forall_congr' fun params => forall_congr' fun before =>
    forall_congr' fun it => forall_congr' fun rest => forall_congr' fun hactions =>
    forall_congr' fun id => forall_congr' fun _ => forall_congr' fun _ => ?_
  subst hactions
  exact processed_iff_keeps h

/-- The status of a round on a contract. -/
def statusOn (w : World) (id : UInt64) : ProtocolVersion → Option Status
  | .v1 => (w.store.round id).map Round.status
  | .v2 => (w.store.roundV2 id).map RoundV2.status

/-- The round is neither settled nor voided on the contract. -/
def LiveOn (w : World) (version : ProtocolVersion) (id : Nat) : Prop :=
  ∀ key : UInt64, key.toNat = id →
    statusOn w key version ≠ some .Settled ∧ statusOn w key version ≠ some .Voided

/-- **Rounds that have not ended on their contract**, each contract being in some state when the
iteration runs: all are processed just when their entries let them through. -/
theorem unfinished_rounds_processed (world : List QueueAction → RunWatchLoopParams → World)
    {actions : List QueueAction} {d : StoreData} (h : Runs.Run QueueStep .empty actions d) :
    (∀ history params before it rest,
        actions = history ++ .iteration params before it false :: rest → ∀ id,
          Wanted params history it id → LiveOn (world history params) params.protocolVersion id →
            id ∈ it.processed) ↔
      ∀ history params before it rest,
        actions = history ++ .iteration params before it false :: rest → ∀ id,
          Wanted params history it id → LiveOn (world history params) params.protocolVersion id →
            KeepsWanted params history before it id := by
  refine forall_congr' fun history => forall_congr' fun params => forall_congr' fun before =>
    forall_congr' fun it => forall_congr' fun rest => forall_congr' fun hactions =>
    forall_congr' fun id => forall_congr' fun _ => forall_congr' fun _ => ?_
  subst hactions
  exact processed_iff_keeps h

end

/-! ## Two deployments, one file -/

namespace SampleQueue

def params : RunWatchLoopParams where
  protocolVersion := .v2
  contractId := "B"
  network := "Testnet"
  roundIds := some (.ok [5])
  watchFrom := 1
  maxProbe := 64
  engine := JavaScript.silentEngine

/-- Round 5 of contract A is queued and ends. -/
def history : List QueueAction :=
  [.operation (.addRound 5 { contractId := some (some "A"), network := some (some "Testnet") }),
    .operation (.updateRound 5 { lastStatus := some "Settled" })]

def before : StoreData :=
  (StoreData.empty.addRound 5
    { contractId := some (some "A"), network := some (some "Testnet") }).updateRound 5
    { lastStatus := some "Settled" }

def after : StoreData := addDiscovered params [5] before

def memory (d : StoreData) : Memory := ⟨0, false, SettlementGuard.empty, d⟩

theorem iterates :
    (iterate params).Ends Elsewhere (memory before, ()) (.ok ⟨[5], []⟩) (memory after, ()) := by
  have hresolve : (call (resolveRoundIds params)).Ends Elsewhere (memory before, ()) (.ok [5])
      (memory before, ()) :=
    ends_attempt_bind.mpr ⟨.ok [5], (memory before, ()), ends_pure.mpr ⟨rfl, rfl⟩,
      ends_bind.mpr (Or.inl
        ⟨(), (memory before, ()), elsewhere_ask.mpr rfl, ends_done.mpr ⟨rfl, rfl⟩⟩)⟩
  have hdiscover : (discover params).Ends Elsewhere (memory before, ()) (.ok [5])
      (memory after, ()) :=
    ends_attempt_bind.mpr ⟨.ok [5], _, hresolve, ends_change_bind.mpr (ends_pure.mpr ⟨rfl, rfl⟩)⟩
  have hrounds : after.rounds = [⟨5, some "B", some "Testnet", none, "Settled", 0, none, none⟩] :=
    rfl
  have hactive : activeRounds params after = [] := by
    rw [activeRounds, StoreData.listRounds, hrounds, List.mergeSort_singleton]
    decide
  refine ends_bind.mpr (Or.inl ⟨[5], _, hdiscover, ends_inspect_bind.mpr ?_⟩)
  refine ends_bind.mpr (Or.inl ⟨[], (memory after, ()), ?_, ends_pure.mpr ⟨rfl, rfl⟩⟩)
  have hnone : (processRounds params []).Ends Elsewhere (memory after, ()) (.ok [])
      (memory after, ()) := ends_pure.mpr ⟨rfl, rfl⟩
  rw [← hactive] at hnone
  exact hnone

theorem run : Runs.Run QueueStep .empty (history ++ [.iteration params before ⟨[5], []⟩ false])
    after := by
  have hhistory := (@Runs.Run.nil _ _ QueueStep StoreData.empty).snoc
    (.operation (.addRound 5 { contractId := some (some "A"), network := some (some "Testnet") }))
  have hhistory := hhistory.snoc (.operation (.updateRound 5 { lastStatus := some "Settled" }))
  exact hhistory.snoc (.iteration iterates)

end SampleQueue

open SampleQueue in
/-- The run below, where the iteration drops the round it discovered. -/
theorem live_rounds_processed_iff_sample :
    (∀ history' params' before' it' rest',
        history ++ [.iteration params before ⟨[5], []⟩ false] =
          history' ++ .iteration params' before' it' false :: rest' →
        ∀ id, Wanted params' history' it' id → True → id ∈ it'.processed) ↔
      ∀ history' params' before' it' rest',
        history ++ [.iteration params before ⟨[5], []⟩ false] =
          history' ++ .iteration params' before' it' false :: rest' →
        ∀ id, Wanted params' history' it' id → True → KeepsWanted params' history' before' it' id :=
  live_rounds_processed_iff (fun _ _ _ => True) run

open SampleQueue in
/-- Round 5 of contract A has ended; the loop of contract B discovers its own round 5 and does not
process it. -/
theorem live_round_dropped :
    Runs.Run QueueStep .empty (history ++ [.iteration params before ⟨[5], []⟩ false]) after ∧
      params.contractId = "B" ∧ Wanted params history ⟨[5], []⟩ 5 ∧
      5 ∉ (⟨[5], []⟩ : Iteration).processed :=
  ⟨run, rfl, Or.inl (by decide), by decide⟩

end SubRosa.Keeper
