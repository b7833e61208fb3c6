import SubRosa.Keeper.Store

/-!
# The queue file under several instances

Every instance loads the file once, works on its own copy and writes the whole
copy back. The file lists what was asked for as long as each instance works on
an up-to-date copy, and from the first operation on a stale copy it does not.
-/

namespace SubRosa.Keeper

/-- What the file should list after the operation. -/
def QueueOperation.wanted : QueueOperation → (Nat → Bool) → Nat → Bool
  | .addRound id _, listed => Function.update listed id true
  | .removeRound id, listed => Function.update listed id false
  | .updateRound _ _, listed => listed

/-- The file, absent at first, and the copy of each instance. -/
structure QueueFile (ι : Type) where
  file : Option StoreData
  memory : ι → StoreData

inductive QueueEvent (ι : Type)
  /-- `new KeeperStore()`. -/
  | construct (i : ι)
  | operation (i : ι) (op : QueueOperation)

namespace QueueFile

variable {ι : Type} [DecidableEq ι]

def loadStore (s : QueueFile ι) : StoreData := s.file.getD .empty

def after (s : QueueFile ι) : QueueEvent ι → QueueFile ι
  | .construct i => { s with memory := Function.update s.memory i s.loadStore }
  | .operation i op =>
    let d := op.apply (s.memory i)
    { file := if op.saves (s.memory i) then some d else s.file
      memory := Function.update s.memory i d }

def run (s : QueueFile ι) (events : List (QueueEvent ι)) : QueueFile ι := events.foldl after s

/-- The rounds in the file. -/
def listed (s : QueueFile ι) (id : Nat) : Bool := (s.loadStore.getRound id).isSome

def wantedAfter (listed : Nat → Bool) : QueueEvent ι → Nat → Bool
  | .construct _ => listed
  | .operation _ op => op.wanted listed

/-- The rounds that were added and not removed afterwards by anyone, or were there at the start
and never removed. -/
def wanted (listed : Nat → Bool) (events : List (QueueEvent ι)) : Nat → Bool :=
  events.foldl wantedAfter listed

/-- The instance works on a copy that lists the rounds of the file. What the operation sets
anyway does not count, and nothing counts when it does not write. -/
def Current (s : QueueFile ι) : QueueEvent ι → Prop
  | .construct _ => True
  | .operation i (.addRound id _) =>
    ∀ j, j ≠ id → ((s.memory i).getRound j).isSome = s.listed j
  | .operation i (.removeRound id) =>
    if ((s.memory i).getRound id).isSome then
      ∀ j, j ≠ id → ((s.memory i).getRound j).isSome = s.listed j
    else s.listed id = false
  | .operation i (.updateRound id _) =>
    ((s.memory i).getRound id).isSome = true →
      ∀ j, ((s.memory i).getRound j).isSome = s.listed j

theorem listed_save {s : QueueFile ι} {i : ι} (op : QueueOperation)
    (h : op.saves (s.memory i) = true) (j : Nat) :
    (s.after (.operation i op)).listed j = ((op.apply (s.memory i)).getRound j).isSome := by
  simp [listed, loadStore, after, h]

theorem listed_keep {s : QueueFile ι} {i : ι} (op : QueueOperation)
    (h : op.saves (s.memory i) = false) (j : Nat) :
    (s.after (.operation i op)).listed j = s.listed j := by
  simp [listed, loadStore, after, h]

/-- Two maps that agree at one place agree everywhere when they agree elsewhere. -/
theorem forall_update_iff {f g : Nat → Bool} {id : Nat} {b : Bool} (h : f id = b) :
    (∀ j, f j = Function.update g id b j) ↔ ∀ j, j ≠ id → f j = g j := by
  constructor
  · intro hall j hj
    rw [hall j, Function.update_of_ne hj]
  · intro hall j
    by_cases hj : j = id
    · rw [hj, Function.update_self, h]
    · rw [hall j hj, Function.update_of_ne hj]

/-- **One operation.** It leaves the file as wanted exactly when the copy is up to date. -/
theorem after_listed_iff (s : QueueFile ι) (e : QueueEvent ι) :
    (∀ j, (s.after e).listed j = wantedAfter s.listed e j) ↔ s.Current e := by
  cases e with
  | construct i => exact ⟨fun _ => trivial, fun _ _ => rfl⟩
  | operation i op =>
    cases op with
    | addRound id extra =>
      have hadd : ∀ j, (((s.memory i).addRound id extra).getRound j).isSome =
          Function.update (fun j => ((s.memory i).getRound j).isSome) id true j := by
        intro j
        rw [StoreData.getRound_addRound]
        by_cases hj : j = id
        · simp [hj]
        · simp [hj]
      simp only [listed_save (.addRound id extra) rfl, QueueOperation.apply, hadd,
        wantedAfter, QueueOperation.wanted]
      rw [forall_update_iff (Function.update_self ..)]
      refine forall_congr' fun j => forall_congr' fun hj => ?_
      rw [Function.update_of_ne hj]
    | removeRound id =>
      by_cases hmem : ((s.memory i).getRound id).isSome = true
      · have hremove : ∀ j, (((s.memory i).removeRound id).getRound j).isSome =
            Function.update (fun j => ((s.memory i).getRound j).isSome) id false j := by
          intro j
          rw [StoreData.getRound_removeRound]
          by_cases hj : j = id
          · simp [hj]
          · simp [hj]
        simp only [listed_save (.removeRound id) hmem, QueueOperation.apply, hremove,
          wantedAfter, QueueOperation.wanted, Current, hmem, if_true]
        rw [forall_update_iff (Function.update_self ..)]
        refine forall_congr' fun j => forall_congr' fun hj => ?_
        rw [Function.update_of_ne hj]
      · have hsave : QueueOperation.saves (.removeRound id) (s.memory i) = false := by
          simpa [QueueOperation.saves] using hmem
        simp only [listed_keep _ hsave, wantedAfter, QueueOperation.wanted, Current, hmem]
        constructor
        · intro hall
          rw [if_neg (by simp), hall id, Function.update_self]
        · intro hid j
          rw [if_neg (by simp)] at hid
          exact (forall_update_iff hid).mpr (fun _ _ => rfl) j
    | updateRound id update =>
      by_cases hmem : ((s.memory i).getRound id).isSome = true
      · have hupdate : ∀ j, (((s.memory i).updateRound id update).getRound j).isSome =
            ((s.memory i).getRound j).isSome := by
          intro j
          rw [StoreData.getRound_updateRound]
          by_cases hj : j = id
          · simp [hj]
          · simp [hj]
        simp only [listed_save (.updateRound id update) hmem, QueueOperation.apply, hupdate,
          wantedAfter, QueueOperation.wanted, Current, hmem, forall_const]
      · have hsave : QueueOperation.saves (.updateRound id update) (s.memory i) = false := by
          simpa [QueueOperation.saves] using hmem
        simp only [listed_keep _ hsave, wantedAfter, QueueOperation.wanted, Current, hmem]
        simp

/-- A fact about every prefix, event by event. -/
theorem forall_prefix_cons {α : Type} {e : α} {events : List α} {P : List α → Prop} :
    (∀ pre, pre <+: e :: events → P pre) ↔ P [] ∧ ∀ pre, pre <+: events → P (e :: pre) := by
  constructor
  · intro h
    exact ⟨h [] List.nil_prefix, fun pre hpre => h _ ((List.prefix_cons_inj e).mpr hpre)⟩
  · rintro ⟨hnil, hcons⟩ pre hpre
    cases pre with
    | nil => exact hnil
    | cons a pre =>
      obtain ⟨rfl, hrest⟩ := List.cons_prefix_cons.mp hpre
      exact hcons pre hrest

/-- The operations of a run, each with an up-to-date copy. -/
def AllCurrent (s : QueueFile ι) : List (QueueEvent ι) → Prop
  | [] => True
  | e :: events => s.Current e ∧ (s.after e).AllCurrent events

/-- **No lost update.** After every prefix of a run the file lists the rounds that were added and
not removed afterwards, and no others, if and only if every operation of the run works on an
up-to-date copy. -/
theorem queue_exact_iff (s : QueueFile ι) (events : List (QueueEvent ι)) :
    (∀ pre, pre <+: events → ∀ id, (s.run pre).listed id = wanted s.listed pre id) ↔
      s.AllCurrent events := by
  induction events generalizing s with
  | nil =>
    refine ⟨fun _ => trivial, fun _ pre hpre => ?_⟩
    rw [List.prefix_nil.mp hpre]
    exact fun _ => rfl
  | cons e events ih =>
    rw [forall_prefix_cons]
    constructor
    · rintro ⟨-, hrest⟩
      have hone := hrest [] List.nil_prefix
      have heq : (s.after e).listed = wantedAfter s.listed e := funext hone
      refine ⟨(after_listed_iff s e).mp hone, (ih (s.after e)).mp fun pre hpre => ?_⟩
      rw [heq]
      exact hrest pre hpre
    · rintro ⟨hcurrent, hall⟩
      have heq : (s.after e).listed = wantedAfter s.listed e :=
        funext ((after_listed_iff s e).mpr hcurrent)
      refine ⟨fun _ => rfl, fun pre hpre => ?_⟩
      have hrest := (ih (s.after e)).mpr hall pre hpre
      rw [heq] at hrest
      exact hrest

/-- The queue command adds a round while a watch loop runs; the loop's next update writes its own
copy over it. -/
theorem queue_update_lost :
    ∃ (s : QueueFile Bool) (events : List (QueueEvent Bool)) (id : Nat),
      s.file = none ∧
      events = [.construct true, .operation true (.addRound 1 {}), .construct false,
        .operation false (.addRound 2 {}),
        .operation true (.updateRound 1 { lastStatus := some "Open" })] ∧
      wanted s.listed events id = true ∧ (s.run events).listed id = false :=
  ⟨⟨none, fun _ => .empty⟩, _, 2, rfl, rfl, by decide, by decide⟩

end QueueFile

end SubRosa.Keeper
