import SubRosa.Keeper.StoreFile
import SubRosa.Library.DecimalText
import SubRosa.Library.IntegerEngine

/-!
# What the store holds, and what its file does

Every entry of a store stands under the decimal of its own id, whatever is
spread over it and whatever was in the file at the start. The rounds are listed
by their ids, and a new store on the file holds them again, up to fields that
are `undefined` and numbers that the file holds as `null`.
-/

namespace SubRosa.Keeper

open JavaScript

/-! ## Fields of records -/

section

variable {α : Type} {fields : List (String × α)} {key : String}

theorem valueAt_cons (p : String × α) (fields : List (String × α)) (key : String) :
    valueAt (p :: fields) key = if p.1 = key then some p.2 else valueAt fields key := by
  unfold valueAt
  by_cases h : p.1 = key <;> simp [h]

theorem valueAt_append (fields fields' : List (String × α)) (key : String) :
    valueAt (fields ++ fields') key = (valueAt fields key).or (valueAt fields' key) := by
  rw [valueAt, valueAt, valueAt, List.find?_append, Option.map_or]

theorem valueAt_eq_none : valueAt fields key = none ↔ key ∉ fields.map Prod.fst := by
  rw [valueAt, Option.map_eq_none_iff, List.find?_eq_none, List.mem_map]
  constructor
  · rintro h ⟨p, hp, rfl⟩
    exact h p hp (decide_eq_true rfl)
  · intro h p hp hkey
    exact h ⟨p, hp, of_decide_eq_true hkey⟩

theorem mem_of_valueAt {v : α} (h : valueAt fields key = some v) : (key, v) ∈ fields := by
  obtain ⟨p, hp, rfl⟩ := Option.map_eq_some_iff.mp h
  have hkey : p.1 = key := by simpa using List.find?_some hp
  rw [← hkey]
  exact List.mem_of_find?_eq_some hp

theorem valueAt_of_mem (h : (fields.map Prod.fst).Nodup) {v : α} (hmem : (key, v) ∈ fields) :
    valueAt fields key = some v := by
  cases hvalue : valueAt fields key with
  | none => exact absurd (List.mem_map_of_mem hmem) (valueAt_eq_none.mp hvalue)
  | some w =>
    have hpair := List.inj_on_of_nodup_map h (mem_of_valueAt hvalue) hmem rfl
    rw [(Prod.mk.inj hpair).2]

theorem valueAt_overwritten (fields : List (String × α)) (key : String) (v : α) (name : String) :
    valueAt (fields.map fun p => if p.1 = key then (key, v) else p) name =
      if name = key then (valueAt fields key).map fun _ => v else valueAt fields name := by
  induction fields with
  | nil => simp [valueAt]
  | cons p fields ih =>
    rw [List.map_cons, valueAt_cons, ih, valueAt_cons, valueAt_cons]
    by_cases hp : p.1 = key
    · by_cases hname : name = key
      · simp [hp, hname]
      · simp [hp, hname, Ne.symm hname]
    · by_cases hname : name = key
      · simp [hp, hname]
      · simp [hp, hname]

theorem valueAt_setField (fields : List (String × α)) (key : String) (v : α) (name : String) :
    valueAt (setField fields key v) name = if name = key then some v else valueAt fields name := by
  unfold setField
  split
  · next hany =>
    obtain ⟨p, hp, hpkey⟩ := List.any_eq_true.mp hany
    have hsome : valueAt fields key ≠ none := fun hnone =>
      valueAt_eq_none.mp hnone (of_decide_eq_true hpkey ▸ List.mem_map_of_mem hp)
    obtain ⟨w, hw⟩ := Option.ne_none_iff_exists'.mp hsome
    rw [valueAt_overwritten, hw, Option.map_some]
  · next hnew =>
    have hnone : valueAt fields key = none := by
      rw [valueAt_eq_none, List.mem_map]
      rintro ⟨p, hp, rfl⟩
      exact hnew (List.any_eq_true.mpr ⟨p, hp, decide_eq_true rfl⟩)
    have hsplit := List.takeWhile_append_dropWhile (p := fun p : String × α => !precedes key p.1)
      (l := fields)
    rw [valueAt_append, valueAt_cons]
    by_cases hname : name = key
    · subst hname
      rw [← hsplit, valueAt_append, Option.or_eq_none_iff] at hnone
      rw [hnone.1, if_pos rfl, if_pos rfl]
      rfl
    · rw [if_neg (Ne.symm hname), if_neg hname, ← valueAt_append, hsplit]

/-- Setting a field to what it is changes nothing. -/
theorem setField_same (h : (fields.map Prod.fst).Nodup) {v : α} (hmem : (key, v) ∈ fields) :
    setField fields key v = fields := by
  have hany : (fields.any fun p => p.1 = key) = true :=
    List.any_eq_true.mpr ⟨_, hmem, decide_eq_true rfl⟩
  rw [setField, if_pos hany]
  refine map_eq_self_iff.mpr fun p hp => ?_
  split
  · next hkey => exact (List.inj_on_of_nodup_map h hmem hp hkey.symm)
  · rfl

end

/-! ## Ids -/

variable {engine : Engine}

theorem positiveId_eq_ok {value : Int} {n : Nat} :
    positiveId value = .ok n ↔ 0 < n ∧ value = n := by
  unfold positiveId
  split
  · next hle =>
    refine ⟨nofun, fun h => ?_⟩
    omega
  · next hgt =>
    rw [Except.ok.injEq]
    omega

theorem normalizeRoundId_pos {input : RoundIdInput} {n : Nat}
    (h : normalizeRoundId engine input = .ok n) : 0 < n := by
  unfold normalizeRoundId at h
  split at h
  · exact (positiveId_eq_ok.mp h).1
  · split at h
    · exact (positiveId_eq_ok.mp h).1
    · cases h
  · split at h
    · exact (positiveId_eq_ok.mp h).1
    · cases h

/-- The decimal of a positive id is normal. -/
theorem normalizeRoundId_text {n : Nat} (h : 0 < n) :
    normalizeRoundId engine (.text (toString n)) = .ok n := by
  have htext : (toString n).toList = Nat.toDigits 10 n := Nat.toList_repr
  have hdigits := digits_toDigits n
  rw [normalizeRoundId, htext, trim_digits hdigits, digits?_digits hdigits, digitsValue_toDigits]
  exact positiveId_eq_ok.mpr ⟨h, rfl⟩

theorem storedRoundId_pos {key : String} {v : JsValue} {n : Nat}
    (h : storedRoundId engine key v = .ok n) : 0 < n := by
  unfold storedRoundId at h
  split at h
  · exact normalizeRoundId_pos h
  · exact normalizeRoundId_pos h
  · exact normalizeRoundId_pos h
  · exact normalizeRoundId_pos h
  · cases h

/-- The entry has the id, as a text. -/
def Entry.HasRoundId (entry : Entry) (id : String) : Prop :=
  valueAt entry "roundId" = some (some (.str id))

theorem hasRoundId_withRoundId (entry : Entry) (id : String) :
    (entry.withRoundId id).HasRoundId id := by
  rw [Entry.HasRoundId, Entry.withRoundId, valueAt_setField, if_pos rfl]

/-- The rounds are in order, and each stands under the decimal of its positive id. -/
structure Keyed (rounds : Rounds) : Prop where
  inOrder : InOrder (rounds.map Prod.fst)
  entry : ∀ id entry, (id, entry) ∈ rounds →
    ∃ n : Nat, 0 < n ∧ id = toString n ∧ entry.HasRoundId id

theorem keyed_nil : Keyed [] := ⟨List.Pairwise.nil, fun _ _ h => by cases h⟩

theorem Keyed.setField {rounds : Rounds} (h : Keyed rounds) {n : Nat} (hn : 0 < n)
    (entry : Entry) :
    Keyed (JavaScript.setField rounds (toString n) (entry.withRoundId (toString n))) := by
  refine ⟨setField_names rounds _ _ h.inOrder, fun id e hmem => ?_⟩
  rcases mem_setField hmem with hold | hnew
  · exact h.entry id e hold
  · obtain ⟨rfl, rfl⟩ := Prod.mk.inj hnew
    exact ⟨n, hn, rfl, hasRoundId_withRoundId entry _⟩

theorem Keyed.filter {rounds : Rounds} (h : Keyed rounds) (p : String × Entry → Bool) :
    Keyed (rounds.filter p) :=
  ⟨h.inOrder.sublist (List.filter_sublist.map Prod.fst),
    fun id entry hmem => h.entry id entry (List.mem_of_mem_filter hmem)⟩

/-! ## Values that the language holds -/

/-- The fields of an entry are in order, and their values are held. -/
structure Entry.Held (engine : Engine) (entry : Entry) : Prop where
  inOrder : InOrder (entry.map Prod.fst)
  value : ∀ key v, (key, some v) ∈ entry → v.Held engine

theorem held_nil : Entry.Held engine [] := ⟨List.Pairwise.nil, fun _ _ h => by cases h⟩

theorem Entry.Held.setField {entry : Entry} (h : entry.Held engine) (key : String) {v : JsValue}
    (hv : ∀ w, v = some w → w.Held engine) : Entry.Held engine (setField entry key v) := by
  refine ⟨setField_names entry key v h.inOrder, fun name w hmem => ?_⟩
  rcases mem_setField hmem with hold | hnew
  · exact h.value name w hold
  · exact hv w (Prod.mk.inj hnew).2.symm

theorem Entry.Held.spread {entry extra : Entry} (h : entry.Held engine)
    (hextra : ∀ key v, (key, some v) ∈ extra → v.Held engine) :
    (entry.spread extra).Held engine := by
  unfold Entry.spread
  induction extra generalizing entry with
  | nil => exact h
  | cons p extra ih =>
    obtain ⟨key, v⟩ := p
    refine ih (h.setField key fun w hw => ?_) fun key w hmem =>
      hextra key w (List.mem_cons_of_mem _ hmem)
    subst hw
    exact hextra key w List.mem_cons_self

theorem Entry.Held.withRoundId {entry : Entry} (h : entry.Held engine) (id : String) :
    (entry.withRoundId id).Held engine := by
  refine h.setField "roundId" ?_
  rintro _ ⟨⟩
  exact .str id

/-- Every entry is held. -/
def Rounds.Held (engine : Engine) (rounds : Rounds) : Prop :=
  ∀ id entry, (id, entry) ∈ rounds → Entry.Held engine entry

theorem Rounds.Held.setField {rounds : Rounds} (h : Rounds.Held engine rounds) (id : String)
    {entry : Entry} (hentry : entry.Held engine) :
    Rounds.Held engine (JavaScript.setField rounds id entry) := by
  intro id' entry' hmem
  rcases mem_setField hmem with hold | hnew
  · exact h id' entry' hold
  · rw [(Prod.mk.inj hnew).2]
    exact hentry

/-! ## Reading the file -/

theorem loadEntry_eq_ok {rounds made : Rounds} {p : String × Json}
    (h : loadEntry engine rounds p = .ok made) :
    ∃ stored n, p.2 = .obj stored ∧ 0 < n ∧ made = setField rounds (toString n)
      ((Entry.spread [] (stored.map fun q => (q.1, some q.2))).withRoundId (toString n)) := by
  unfold loadEntry at h
  split at h
  · next stored hstored =>
    obtain ⟨n, hn, hmade⟩ := bind_eq_ok.mp h
    exact ⟨stored, n, hstored, storedRoundId_pos hn, (Except.ok.inj hmade).symm⟩
  · cases h

/-- The fields of a parsed object, spread. -/
theorem held_stored {stored : List (String × Json)} (h : ∀ q ∈ stored, q.2.Held engine) :
    Entry.Held engine (Entry.spread [] (stored.map fun q => (q.1, some q.2))) := by
  refine held_nil.spread fun key v hmem => ?_
  obtain ⟨q, hq, hpair⟩ := List.mem_map.mp hmem
  obtain rfl : q.2 = v := Option.some_inj.mp (Prod.mk.inj hpair).2
  exact h q hq

theorem loadEntries_ok {entries : List (String × Json)} {rounds made : Rounds}
    (h : entries.foldlM (loadEntry engine) rounds = .ok made) (hkeyed : Keyed rounds)
    (hheld : Rounds.Held engine rounds) (hentries : ∀ p ∈ entries, p.2.Held engine) :
    Keyed made ∧ Rounds.Held engine made := by
  induction entries generalizing rounds with
  | nil =>
    obtain rfl := Except.ok.inj h
    exact ⟨hkeyed, hheld⟩
  | cons p entries ih =>
    rw [List.foldlM_cons, bind_eq_ok] at h
    obtain ⟨next, hnext, hrest⟩ := h
    obtain ⟨stored, n, hstored, hn, rfl⟩ := loadEntry_eq_ok hnext
    have hp := hentries p List.mem_cons_self
    rw [hstored] at hp
    cases hp with
    | obj _ hfields =>
      exact ih hrest (hkeyed.setField hn _)
        (hheld.setField _ ((held_stored hfields).withRoundId _))
        fun q hq => hentries q (List.mem_cons_of_mem _ hq)

theorem held_property {v w : Json} (h : v.Held engine) {key : String} (hkey : key ≠ "length")
    (hw : property engine v key = some w) : w.Held engine := by
  unfold property at hw
  split at hw
  · next u hown =>
    obtain rfl := Option.some_inj.mp hw
    cases h with
    | null => cases hown
    | bool => cases hown
    | num => cases hown
    | str s =>
      rw [ownProperty, if_neg hkey] at hown
      obtain ⟨i, -, hchar⟩ := Option.bind_eq_some_iff.mp hown
      obtain ⟨c, -, rfl⟩ := Option.map_eq_some_iff.mp hchar
      exact .str _
    | arr hitems =>
      rw [ownProperty, if_neg hkey] at hown
      obtain ⟨i, -, hitem⟩ := Option.bind_eq_some_iff.mp hown
      exact hitems u (List.mem_of_getElem? hitem)
    | obj _ hfields =>
      obtain ⟨p, hp, rfl⟩ := Option.map_eq_some_iff.mp hown
      exact hfields p (List.mem_of_find?_eq_some hp)
  · split at hw
    · obtain rfl := Option.some_inj.mp hw
      exact .obj List.Pairwise.nil (List.forall_mem_nil _)
    · cases hw

theorem readStore_ok (hengine : ∀ n, engine.Denoted n → engine.Prints n) {content : String}
    {rounds : Rounds} (h : readStore engine content = .ok rounds) :
    Keyed rounds ∧ Rounds.Held engine rounds := by
  have hnone : Keyed [] ∧ Rounds.Held engine [] := ⟨keyed_nil, fun _ _ h => by cases h⟩
  unfold readStore at h
  split at h
  · obtain rfl := Except.ok.inj h
    exact hnone
  · obtain ⟨parsed, hparsed, h⟩ := bind_eq_ok.mp h
    obtain ⟨v, hv, h⟩ := bind_eq_ok.mp h
    have hheld := held_of_jsonParse hengine hparsed
    have hvalue : ∀ w, v = some w → w.Held engine := by
      rintro w rfl
      refine @held_property engine _ w hheld "rounds" (by decide) ?_
      cases parsed with
      | null => cases hv
      | _ => exact Except.ok.inj hv
    split at h
    · next fields =>
      cases hvalue _ rfl with
      | obj _ hfields => exact loadEntries_ok h hnone.1 hnone.2 hfields
    · next items =>
      cases hvalue _ rfl with
      | arr hitems =>
        refine loadEntries_ok h hnone.1 hnone.2 fun p hp => ?_
        obtain ⟨q, hq, rfl⟩ := List.mem_map.mp hp
        have hmem : q.1 ∈ items := by
          rw [(List.mem_zipIdx hq).2.2]
          exact List.getElem_mem _
        exact hitems q.1 hmem
    · obtain rfl := Except.ok.inj h
      exact hnone

/-! ## What is written -/

/-- The fields of an entry that the file holds, as it holds them. -/
def Entry.written (entry : Entry) : Entry :=
  entry.filterMap fun p => p.2.map fun v => (p.1, some v.copy)

def Rounds.written (rounds : Rounds) : Rounds := rounds.map fun p => (p.1, Entry.written p.2)

theorem Json.copy_copy (v : Json) : v.copy.copy = v.copy := by
  induction v using Json.induct with
  | null => rfl
  | bool b => rfl
  | num n => cases n <;> rfl
  | str s => rfl
  | arr items ih =>
    rw [Json.copy, Json.copy, Json.copyItems_eq_map, Json.copyItems_eq_map, List.map_map]
    exact congrArg Json.arr (List.map_congr_left ih)
  | obj fields ih =>
    rw [Json.copy, Json.copy, Json.copyFields_eq_map, Json.copyFields_eq_map, List.map_map]
    exact congrArg Json.obj (List.map_congr_left fun p hp => Prod.ext rfl (ih p hp))

theorem Entry.written_written (entry : Entry) : entry.written.written = entry.written := by
  rw [Entry.written, Entry.written, List.filterMap_filterMap]
  congr 1
  funext p
  cases p.2 with
  | none => rfl
  | some v =>
    show some (p.1, some v.copy.copy) = some (p.1, some v.copy)
    rw [Json.copy_copy]

theorem Rounds.written_written (rounds : Rounds) : rounds.written.written = rounds.written := by
  rw [Rounds.written, Rounds.written, List.map_map]
  exact List.map_congr_left fun p _ => Prod.ext rfl (Entry.written_written p.2)

/-- The fields of the file, as the reader of the file sees them. -/
theorem written_eq (entry : Entry) : entry.written =
    (Json.copyFields (entry.filterMap fun p => p.2.map fun v => (p.1, v))).map
      fun q => (q.1, some q.2) := by
  rw [Entry.written, Json.copyFields_eq_map, List.map_map, List.map_filterMap]
  congr 1
  funext p
  cases p.2 <;> rfl

theorem written_names (entry : Entry) :
    (entry.written.map Prod.fst).Sublist (entry.map Prod.fst) := by
  rw [Entry.written]
  induction entry with
  | nil => exact List.Sublist.slnil
  | cons p entry ih =>
    rw [List.filterMap_cons]
    cases hp : p.2 with
    | none => exact ih.cons p.1
    | some v => exact ih.cons_cons p.1

theorem held_written {entry : Entry} (h : entry.Held engine) :
    (KeeperStore.entryJson entry).Held engine := by
  have hnames := written_names entry
  rw [written_eq, Json.copyFields_eq_map, List.map_map, List.map_map] at hnames
  refine .obj (h.inOrder.sublist hnames) fun q hq => ?_
  obtain ⟨p, hp, hpair⟩ := List.mem_filterMap.mp hq
  obtain ⟨v, hv, rfl⟩ := Option.map_eq_some_iff.mp hpair
  refine h.value p.1 v ?_
  rw [← hv]
  exact hp

theorem valueAt_written {entry : Entry} (h : entry.Held engine) (key : String) :
    valueAt entry.written key = (valueAt entry key).join.map fun v => some v.copy := by
  cases hvalue : valueAt entry key with
  | none =>
    rw [valueAt_eq_none] at hvalue
    exact valueAt_eq_none.mpr fun hmem => hvalue ((written_names entry).subset hmem)
  | some v =>
    have hmem := mem_of_valueAt hvalue
    cases v with
    | none =>
      refine valueAt_eq_none.mpr fun hname => ?_
      obtain ⟨q, hq, hqkey⟩ := List.mem_map.mp hname
      obtain ⟨p, hp, hpair⟩ := List.mem_filterMap.mp hq
      obtain ⟨w, hw, rfl⟩ := Option.map_eq_some_iff.mp hpair
      have hsame := List.inj_on_of_nodup_map h.inOrder.nodup hp hmem hqkey
      rw [hsame] at hw
      cases hw
    | some v =>
      refine valueAt_of_mem (h.inOrder.nodup.sublist (written_names entry)) ?_
      exact List.mem_filterMap.mpr ⟨_, hmem, rfl⟩

theorem valueAt_map {α β : Type} (g : α → β) (fields : List (String × α)) (key : String) :
    valueAt (fields.map fun p => (p.1, g p.2)) key = (valueAt fields key).map g := by
  induction fields with
  | nil => rfl
  | cons p fields ih =>
    rw [List.map_cons, valueAt_cons, valueAt_cons, ih]
    split <;> rfl

/-- A saved entry is loaded as it was written. -/
theorem loadEntry_saved {id : String} {entry : Entry} (hheld : entry.Held engine) {n : Nat}
    (hn : 0 < n) (hid : id = toString n) (hentry : entry.HasRoundId id) (rounds : Rounds) :
    loadEntry engine rounds (id, (KeeperStore.entryJson entry).copy) =
      .ok (setField rounds id entry.written) := by
  have hwritten : entry.written.HasRoundId id := by
    rw [Entry.HasRoundId, valueAt_written hheld, hentry]
    rfl
  have hspread : Entry.spread [] entry.written = entry.written :=
    fromEntries_inOrder (hheld.inOrder.sublist (written_names entry))
  have hsame : entry.written.withRoundId id = entry.written :=
    setField_same (hheld.inOrder.nodup.sublist (written_names entry)) (mem_of_valueAt hwritten)
  rw [written_eq] at hwritten hspread hsame ⊢
  rw [KeeperStore.entryJson, Json.copy]
  generalize Json.copyFields _ = stored at hwritten hspread hsame ⊢
  rw [Entry.HasRoundId, valueAt_map] at hwritten
  have hfield : ownProperty (.obj stored) "roundId" = some (.str id) :=
    Option.map_injective (Option.some_injective _) hwritten
  have hstored : storedRoundId engine id (property engine (.obj stored) "roundId") = .ok n := by
    rw [property, hfield, hid]
    exact @normalizeRoundId_text engine n hn
  rw [loadEntry]
  show (storedRoundId engine id (property engine (.obj stored) "roundId") >>= _) = _
  rw [hstored]
  show Except.ok (setField rounds (toString n)
    (Entry.withRoundId (Entry.spread [] _) (toString n))) = _
  rw [← hid, hspread, hsame]

theorem loadEntries_saved {rounds : Rounds}
    (hrounds : ∀ id entry, (id, entry) ∈ rounds →
      ∃ n : Nat, 0 < n ∧ id = toString n ∧ entry.HasRoundId id)
    (hheld : Rounds.Held engine rounds) (made : Rounds) :
    (rounds.map fun p => (p.1, (KeeperStore.entryJson p.2).copy)).foldlM (loadEntry engine) made =
      .ok (rounds.written.foldl (fun made p => setField made p.1 p.2) made) := by
  induction rounds generalizing made with
  | nil => rfl
  | cons p rounds ih =>
    obtain ⟨id, entry⟩ := p
    obtain ⟨n, hn, hid, hentry⟩ := hrounds id entry List.mem_cons_self
    rw [List.map_cons, List.foldlM_cons,
      loadEntry_saved (hheld id entry List.mem_cons_self) hn hid hentry]
    exact ih (fun id' entry' hmem => hrounds id' entry' (List.mem_cons_of_mem _ hmem))
      (fun id' entry' hmem => hheld id' entry' (List.mem_cons_of_mem _ hmem)) _

theorem held_dataJson {rounds : Rounds} (h : Keyed rounds) (hheld : Rounds.Held engine rounds) :
    (KeeperStore.dataJson rounds).Held engine := by
  refine .obj (List.pairwise_singleton _ _) (List.forall_mem_singleton.mpr (.obj ?_ ?_))
  · rw [List.map_map]
    exact h.inOrder
  · intro q hq
    obtain ⟨p, hp, rfl⟩ := List.mem_map.mp hq
    exact held_written (hheld p.1 p.2 hp)

/-- The text that is saved is not blank. -/
theorem saved_black (v : List (String × Json)) :
    trim (jsonStringifyIndented engine (.obj v)).toList ≠ [] := by
  have hbrace : '\x7b' ∈ (jsonStringifyIndented engine (.obj v)).toList := by
    rw [jsonStringifyIndented, String.toList_ofList, Json.laidOut, Layout.enclose]
    split <;> exact List.mem_cons_self
  exact List.ne_nil_of_mem (mem_trim hbrace (by decide))

/-- **What is saved loads again**, as it was written. -/
theorem readStore_saved {rounds : Rounds} (h : Keyed rounds) (hheld : Rounds.Held engine rounds) :
    readStore engine (jsonStringifyIndented engine (KeeperStore.dataJson rounds)) =
      .ok rounds.written := by
  have hcopy : (KeeperStore.dataJson rounds).copy = .obj [("rounds",
      .obj (rounds.map fun p => (p.1, (KeeperStore.entryJson p.2).copy)))] := by
    rw [KeeperStore.dataJson, Json.copy, Json.copyFields, Json.copyFields, Json.copy,
      Json.copyFields_eq_map, List.map_map]
    rfl
  have hwritten : fromEntries rounds.written = rounds.written := by
    refine fromEntries_inOrder ?_
    rw [Rounds.written, List.map_map]
    exact h.inOrder
  have hblack : trim (jsonStringifyIndented engine (KeeperStore.dataJson rounds)).toList ≠ [] :=
    saved_black _
  rw [readStore, if_neg hblack, jsonParse_indented (held_dataJson h hheld), hcopy]
  exact (loadEntries_saved h.entry hheld []).trans (congrArg Except.ok hwritten)

/-! ## Runs -/

namespace KeeperStore

/-- What every operation keeps: the entries stand under their ids, and the file holds the rounds as
they are written. -/
structure Sound (engine : Engine) (store : KeeperStore) : Prop where
  keyed : Keyed store.rounds
  held : Rounds.Held engine store.rounds
  kept : (load engine store.content).rounds.written = store.rounds.written

theorem sound_load (hengine : ∀ n, engine.Denoted n → engine.Prints n) (content : Option String) :
    (load engine content).Sound engine := by
  have hnone : Sound engine ⟨[], none⟩ :=
    ⟨keyed_nil, fun _ _ hmem => absurd hmem List.not_mem_nil, rfl⟩
  cases content with
  | none => exact hnone
  | some text =>
    cases hread : readStore engine text with
    | ok rounds =>
      have hload : load engine (some text) = ⟨rounds, some text⟩ := by
        rw [load, hread]
      obtain ⟨hkeyed, hheld⟩ := readStore_ok hengine hread
      rw [hload]
      exact ⟨hkeyed, hheld, congrArg (fun store => store.rounds.written) hload⟩
    | error e =>
      have hload : load engine (some text) = ⟨[], none⟩ := by
        rw [load, hread]
      rw [hload]
      exact hnone

theorem sound_save {rounds : Rounds} (h : Keyed rounds) (hheld : Rounds.Held engine rounds) :
    (saveStore engine rounds).Sound engine := by
  refine ⟨h, hheld, ?_⟩
  have hload : load engine (saveStore engine rounds).content =
      ⟨rounds.written, (saveStore engine rounds).content⟩ := by
    rw [saveStore, load, readStore_saved h hheld]
  rw [hload]
  exact rounds.written_written

/-- The values of the argument of an operation are ones the language holds. -/
def Operation.Held (engine : Engine) : Operation → Prop
  | .addRound _ extra => Entry.Held engine extra
  | .updateRound _ update => Entry.Held engine update
  | .removeRound _ | .listRounds => True

theorem Sound.addRound {store made : KeeperStore} (h : store.Sound engine)
    (hzero : engine.Prints 0) {roundId : RoundIdInput} {extra : Entry}
    (hextra : Entry.Held engine extra) (hmade : store.addRound engine roundId extra = .ok made) :
    made.Sound engine := by
  obtain ⟨n, hn, hmade⟩ := bind_eq_ok.mp hmade
  obtain rfl := Except.ok.inj hmade
  have hunknown : Entry.Held engine unknownEntry := by
    refine ⟨by unfold InOrder; decide, fun key v hmem => ?_⟩
    rcases List.mem_cons.mp hmem with h | hmem
    · cases h
      exact .str _
    · cases List.mem_singleton.mp hmem
      exact .num hzero
  refine sound_save (h.keyed.setField (normalizeRoundId_pos hn) _)
    (h.held.setField _ (Entry.Held.withRoundId ?_ _))
  split
  · exact hunknown.spread hextra.value
  · next entry hentry =>
    exact (held_nil.spread (h.held _ _ (mem_of_valueAt hentry)).value).spread hextra.value

theorem Sound.removeRound {store made : KeeperStore} (h : store.Sound engine)
    {roundId : RoundIdInput} (hmade : store.removeRound engine roundId = .ok made) :
    made.Sound engine := by
  obtain ⟨n, -, hmade⟩ := bind_eq_ok.mp hmade
  dsimp only at hmade
  split at hmade
  · obtain rfl := Except.ok.inj hmade
    exact h
  · obtain rfl := Except.ok.inj hmade
    exact sound_save (h.keyed.filter _) fun id entry hmem =>
      h.held id entry (List.mem_of_mem_filter hmem)

theorem Sound.updateRound {store made : KeeperStore} (h : store.Sound engine)
    {roundId : RoundIdInput} {update : Entry} (hupdate : Entry.Held engine update)
    (hmade : store.updateRound engine roundId update = .ok made) : made.Sound engine := by
  obtain ⟨n, hn, hmade⟩ := bind_eq_ok.mp hmade
  dsimp only at hmade
  split at hmade
  · obtain rfl := Except.ok.inj hmade
    exact h
  · next entry hentry =>
    obtain rfl := Except.ok.inj hmade
    refine sound_save (h.keyed.setField (normalizeRoundId_pos hn) _)
      (h.held.setField _ (Entry.Held.withRoundId ?_ _))
    exact (held_nil.spread (h.held _ _ (mem_of_valueAt hentry)).value).spread hupdate.value

theorem Sound.after {store : KeeperStore} (h : store.Sound engine) (hzero : engine.Prints 0)
    {op : Operation} (hop : op.Held engine) : (store.after engine op).Sound engine := by
  have hkeep : ∀ {r : Except Thrown KeeperStore}, (∀ made, r = .ok made → made.Sound engine) →
      (r.toOption.getD store).Sound engine := by
    intro r hr
    cases r with
    | ok made => exact hr made rfl
    | error e => exact h
  cases op with
  | addRound roundId extra => exact hkeep fun made hmade => h.addRound hzero hop hmade
  | removeRound roundId => exact hkeep fun made hmade => h.removeRound hmade
  | updateRound roundId update => exact hkeep fun made hmade => h.updateRound hop hmade
  | listRounds => exact h

theorem Sound.run {store : KeeperStore} (h : store.Sound engine) (hzero : engine.Prints 0)
    {ops : List Operation} (hops : ∀ op ∈ ops, op.Held engine) :
    (store.run engine ops).Sound engine := by
  induction ops generalizing store with
  | nil => exact h
  | cons op ops ih =>
    obtain ⟨hop, hops⟩ := List.forall_mem_cons.mp hops
    exact ih (h.after hzero hop) hops

/-! ## The list of rounds -/

theorem exists_numbered {rounds : Rounds} (h : ∀ id entry, (id, entry) ∈ rounds →
      ∃ n : Nat, 0 < n ∧ id = toString n ∧ entry.HasRoundId id) :
    ∃ l : List (Nat × Entry), rounds = l.map (fun p => (toString p.1, p.2)) ∧
      ∀ p ∈ l, p.2.HasRoundId (toString p.1) := by
  induction rounds with
  | nil => exact ⟨[], rfl, List.forall_mem_nil _⟩
  | cons p rounds ih =>
    obtain ⟨id, entry⟩ := p
    obtain ⟨n, -, rfl, hentry⟩ := h id entry List.mem_cons_self
    obtain ⟨l, rfl, hl⟩ := ih fun id' entry' hmem => h id' entry' (List.mem_cons_of_mem _ hmem)
    exact ⟨(n, entry) :: l, rfl, List.forall_mem_cons.mpr ⟨hentry, hl⟩⟩

theorem bigInt_roundId {entry : Entry} {n : Nat} (h : entry.HasRoundId (toString n)) :
    bigInt engine (valueAt entry "roundId").join = .ok (n : Int) := by
  have hdigits : Digits (toString n).toList := by
    rw [show (toString n).toList = Nat.toDigits 10 n from Nat.toList_repr]
    exact digits_toDigits n
  have hvalue : digitsValue (toString n).toList = n := by
    rw [show (toString n).toList = Nat.toDigits 10 n from Nat.toList_repr, digitsValue_toDigits]
  rw [h]
  show bigIntOfText (toString n) = _
  rw [bigIntOfText, bigIntText_digits hdigits, hvalue]

theorem toString_inj {n m : Nat} (h : toString n = toString m) : n = m := by
  have hdigits : Nat.toDigits 10 n = Nat.toDigits 10 m := by
    rw [← Nat.toList_repr, ← Nat.toList_repr]
    exact congrArg String.toList h
  rw [← digitsValue_toDigits n, hdigits, digitsValue_toDigits]

/-- The list of numbered rounds, sorted by their numbers. -/
theorem listRounds_numbered {store : KeeperStore} {l : List (Nat × Entry)}
    (hrounds : store.rounds = l.map fun p => (toString p.1, p.2))
    (hl : ∀ p ∈ l, p.2.HasRoundId (toString p.1)) :
    store.listRounds engine = .ok ((l.mergeSort fun a b => a.1 ≤ b.1).map Prod.snd) := by
  have hentries : store.rounds.map Prod.snd = l.map Prod.snd := by
    rw [hrounds, List.map_map]
    rfl
  have hkeyed : (l.map Prod.snd).mapM (fun entry => do
      return (← bigInt engine (valueAt entry "roundId").join, entry)) =
        .ok (l.map fun p => ((p.1 : Int), p.2)) := by
    clear hrounds hentries
    induction l with
    | nil => rfl
    | cons p l ih =>
      obtain ⟨hp, hrest⟩ := List.forall_mem_cons.mp hl
      rw [List.map_cons, List.mapM_cons, bigInt_roundId hp, ih hrest]
      rfl
  have hsorted : ((l.map fun p => ((p.1 : Int), p.2)).mergeSort fun a b => a.1 ≤ b.1).map
      Prod.snd = (l.mergeSort fun a b => a.1 ≤ b.1).map Prod.snd := by
    have hmap := List.map_mergeSort (f := fun p : Nat × Entry => ((p.1 : Int), p.2)) (l := l)
      (r := fun a b => decide (a.1 ≤ b.1)) (s := fun a b => decide (a.1 ≤ b.1))
      fun a _ b _ => by simp
    rw [← hmap, List.map_map]
    rfl
  unfold listRounds
  rw [hentries]
  split
  · next hnil =>
    rw [List.map_eq_nil_iff.mp hnil, List.mergeSort_nil]
    rfl
  · next entry hone =>
    obtain ⟨p, rfl, rfl⟩ := List.map_eq_singleton_iff.mp hone
    rw [List.mergeSort_singleton]
    rfl
  · rw [hkeyed]
    exact congrArg Except.ok hsorted

theorem listRounds_ok {store : KeeperStore} (h : Keyed store.rounds) :
    ∃ l : List (Nat × Entry), store.listRounds engine = .ok (l.map Prod.snd) ∧
      (l.map Prod.fst).Pairwise (· < ·) ∧
      ∀ n entry, (n, entry) ∈ l ↔ valueAt store.rounds (toString n) = some entry := by
  obtain ⟨l, hrounds, hl⟩ := exists_numbered h.entry
  have hkeys : (store.rounds.map Prod.fst).Nodup := h.inOrder.nodup
  have hnodup : (l.map Prod.fst).Nodup := by
    rw [hrounds, List.map_map] at hkeys
    refine List.Nodup.of_map (toString : Nat → String) ?_
    rwa [List.map_map]
  refine ⟨_, listRounds_numbered hrounds hl, ?_, fun n entry => ?_⟩
  · have hsorted : (l.mergeSort fun a b => a.1 ≤ b.1).Pairwise fun a b => a.1 ≤ b.1 := by
      have hpairs := @List.pairwise_mergeSort _ (fun a b : Nat × Entry => decide (a.1 ≤ b.1))
        (fun a b c hab hbc => by
          rw [decide_eq_true_eq] at hab hbc ⊢
          exact hab.trans hbc)
        (fun a b => by
          rw [Bool.or_eq_true, decide_eq_true_eq, decide_eq_true_eq]
          exact le_total _ _) l
      exact hpairs.imp of_decide_eq_true
    have hdistinct : ((l.mergeSort fun a b => a.1 ≤ b.1).map Prod.fst).Nodup :=
      ((List.mergeSort_perm l _).map Prod.fst).nodup_iff.mpr hnodup
    rw [List.pairwise_map]
    exact (hsorted.and (List.pairwise_map.mp hdistinct)).imp fun h => lt_of_le_of_ne h.1 h.2
  · rw [List.mem_mergeSort]
    constructor
    · intro hmem
      refine valueAt_of_mem hkeys ?_
      rw [hrounds]
      exact List.mem_map_of_mem hmem
    · intro hvalue
      have hmem := mem_of_valueAt hvalue
      rw [hrounds] at hmem
      obtain ⟨p, hp, hpair⟩ := List.mem_map.mp hmem
      obtain ⟨hid, hentry⟩ := Prod.mk.inj hpair
      rwa [← toString_inj hid, ← hentry]

end KeeperStore

/-- After any run every entry stands under the decimal of its positive id, the list of rounds is
strictly ascending and complete, and a new store on the file holds the same rounds, as a file can
hold them. -/
theorem store_represented {engine : Engine} (hengine : ∀ n, engine.Denoted n → engine.Prints n)
    (hzero : engine.Prints 0) (content : Option String) (ops : List KeeperStore.Operation)
    (hops : ∀ op ∈ ops, op.Held engine) (store : KeeperStore)
    (hstore : store = (KeeperStore.load engine content).run engine ops) :
    (store.rounds.map Prod.fst).Nodup ∧
    (∀ id entry, (id, entry) ∈ store.rounds →
      ∃ n : Nat, 0 < n ∧ id = toString n ∧ valueAt entry "roundId" = some (some (.str id))) ∧
    (∃ l : List (Nat × Entry), store.listRounds engine = .ok (l.map Prod.snd) ∧
      (l.map Prod.fst).Pairwise (· < ·) ∧
      ∀ n entry, (n, entry) ∈ l ↔ valueAt store.rounds (toString n) = some entry) ∧
    (KeeperStore.load engine store.content).rounds.written = store.rounds.written := by
  subst hstore
  have hsound := (KeeperStore.sound_load hengine content).run hzero hops
  exact ⟨hsound.keyed.inOrder.nodup, hsound.keyed.entry, KeeperStore.listRounds_ok hsound.keyed,
    hsound.kept⟩

namespace SampleStore

/-- An argument with a number that no file holds. -/
def retries : Entry := [("retryCount", some (.num (.infinite false)))]

theorem retries_held : Entry.Held integerEngine retries := by
  refine ⟨by unfold InOrder; decide, fun key v hmem => ?_⟩
  cases List.mem_singleton.mp hmem
  exact .num trivial

def settled : Entry := [("lastStatus", some (.str "Settled"))]

theorem settled_held : Entry.Held integerEngine settled := by
  refine ⟨by unfold InOrder; decide, fun key v hmem => ?_⟩
  cases List.mem_singleton.mp hmem
  exact .str _

/-- Rounds are added out of order, one of them ends, one is removed, and one id is refused. -/
def ops : List KeeperStore.Operation :=
  [.addRound (.bigint 12) settled, .addRound (.bigint 7) retries, .listRounds,
    .addRound (.bigint 9) retries, .updateRound (.bigint 7) settled, .removeRound (.bigint 9),
    .addRound (.bigint 0) settled]

theorem ops_held : ∀ op ∈ ops, op.Held integerEngine := by
  refine List.forall_mem_cons.mpr ⟨settled_held, List.forall_mem_cons.mpr ⟨retries_held, ?_⟩⟩
  refine List.forall_mem_cons.mpr ⟨trivial, List.forall_mem_cons.mpr ⟨retries_held, ?_⟩⟩
  refine List.forall_mem_cons.mpr ⟨settled_held, List.forall_mem_cons.mpr ⟨trivial, ?_⟩⟩
  exact List.forall_mem_singleton.mpr settled_held

theorem zero_prints : integerEngine.Prints 0 := integerEngine_prints 0

theorem denoted_prints (n : Number) (h : integerEngine.Denoted n) : integerEngine.Prints n := by
  obtain ⟨s, hs⟩ := h
  exact integerEngine_prints_read hs

def store : KeeperStore := (KeeperStore.load integerEngine none).run integerEngine ops

end SampleStore

open SampleStore in
theorem store_represented_sample :
    store.rounds.map Prod.fst = ["7", "12"] ∧ (store.rounds.map Prod.fst).Nodup ∧
    (∀ id entry, (id, entry) ∈ store.rounds →
      ∃ n : Nat, 0 < n ∧ id = toString n ∧ valueAt entry "roundId" = some (some (.str id))) ∧
    (∃ l : List (Nat × Entry), store.listRounds integerEngine = .ok (l.map Prod.snd) ∧
      (l.map Prod.fst).Pairwise (· < ·) ∧
      ∀ n entry, (n, entry) ∈ l ↔ valueAt store.rounds (toString n) = some entry) ∧
    (KeeperStore.load integerEngine store.content).rounds.written = store.rounds.written :=
  ⟨rfl, store_represented denoted_prints zero_prints none ops ops_held store rfl⟩

/-- The fields of an entry that are not `undefined`. -/
def Entry.defined (entry : Entry) : Entry := entry.filter fun p => p.2.isSome

open SampleStore in
theorem store_represented_fails :
    ¬ ∀ (engine : Engine) (content : Option String) (ops : List KeeperStore.Operation)
      (store : KeeperStore), (∀ n, engine.Denoted n → engine.Prints n) → engine.Prints 0 →
      (∀ op ∈ ops, op.Held engine) → store = (KeeperStore.load engine content).run engine ops →
      (KeeperStore.load engine store.content).rounds.map (fun p => (p.1, p.2.defined)) =
        store.rounds.map fun p => (p.1, p.2.defined) := by
  intro hclaim
  have hsame := hclaim integerEngine none ops store denoted_prints zero_prints ops_held rfl
  have hsound : store.Sound integerEngine :=
    (KeeperStore.sound_load denoted_prints none).run zero_prints ops_held
  have hcontent : store.content =
      some (jsonStringifyIndented integerEngine (KeeperStore.dataJson store.rounds)) := rfl
  have hload : (KeeperStore.load integerEngine store.content).rounds = store.rounds.written := by
    rw [hcontent, KeeperStore.load, readStore_saved hsound.keyed hsound.held]
  rw [hload] at hsame
  have hentry := congrArg (fun rounds => rounds.map fun p => valueAt p.2 "retryCount") hsame
  have hnull : [some (some Json.null), some (some (Json.num 0))] =
    [some (some (Json.num (.infinite false))), some (some (Json.num 0))] := hentry
  cases hnull

end SubRosa.Keeper
