import SubRosa.Auction.Refinement

/-!
# What a round remembers of its run

The bidder list is the list of committers in the order of their first commits,
every entry carries the last commit of its bidder, and every opened preimage
was offered by a successful reveal.
-/

namespace SubRosa

open MachineInt

/-- One successful commit. -/
structure CommitRecord where
  bidder : Address
  commitment : BytesN 32
  escrow : Int
  deriving DecidableEq

def Action.commitRecord : Action → Option CommitRecord
  | .commit bidder commitment escrow => some ⟨bidder, commitment, escrow⟩
  | _ => none

/-- The successful commits on a round, in order. -/
def commitsOn (key : RoundKey) (events : List Event) : List CommitRecord :=
  events.filterMap fun e => (e.actionOn key).bind Action.commitRecord

def lastCommit (b : Address) (commits : List CommitRecord) : Option CommitRecord :=
  (commits.filter fun c => c.bidder = b).getLast?

def Action.preimage : Action → Option Bytes
  | .reveal _ preimage => some preimage
  | _ => none

/-- The preimages of the successful reveals on a round, in order. -/
def revealsOn (key : RoundKey) (events : List Event) : List Bytes :=
  events.filterMap fun e => (e.actionOn key).bind Action.preimage

/-- No two of these byte strings have the same hash. -/
def Host.CollisionFree (host : Host) (preimages : List Bytes) : Prop :=
  ∀ x ∈ preimages, ∀ y ∈ preimages, host.sha256 x = host.sha256 y → x = y

/-- The first commit of `a` comes before every commit of `b`. -/
def EnteredBefore (a b : Address) (commits : List CommitRecord) : Prop :=
  ∃ pre record post, commits = pre ++ record :: post ∧ record.bidder = a ∧
    ∀ q ∈ pre, q.bidder ≠ b

/-- The list and the entries are those the commits leave. -/
structure SealedRound.Follows (r : SealedRound) (commits : List CommitRecord) : Prop where
  bidders : r.bidders = (commits.map CommitRecord.bidder).eraseDups
  entries : ∀ b, (r.entry b).map (fun e => (e.commitment, e.escrow)) =
    (lastCommit b commits).map fun c => (c.commitment, c.escrow)

/-- The preimage recorded for a bidder. -/
def openedBy (o : Option SealedRound) (b : Address) : Option Bytes :=
  (o.bind fun r => r.entry b).bind Entry.opened

section

variable {host : Host} {config : GlobalConfig} {t : Nat} {r r' : SealedRound} {action : Action}
  {ts : List Transfer} {key : RoundKey} {c c' : Chain} {events : List Event}

theorem commitsOn_snoc (key : RoundKey) (events : List Event) (e : Event) :
    commitsOn key (events ++ [e]) =
      commitsOn key events ++ ((e.actionOn key).bind Action.commitRecord).toList := by
  unfold commitsOn
  rw [List.filterMap_append]
  cases h : (e.actionOn key).bind Action.commitRecord <;> simp [h]

theorem lastCommit_snoc (b : Address) (commits : List CommitRecord) (record : CommitRecord) :
    lastCommit b (commits ++ [record]) =
      if record.bidder = b then some record else lastCommit b commits := by
  unfold lastCommit
  rw [List.filter_append]
  by_cases h : record.bidder = b <;> simp [h]

theorem eraseDups_snoc (l : List Address) (b : Address) :
    (l ++ [b]).eraseDups = if b ∈ l then l.eraseDups else l.eraseDups ++ [b] := by
  rw [List.eraseDups_append]
  by_cases h : b ∈ l <;> simp [List.removeAll, h, List.eraseDups_cons]

/-- The first occurrences keep their order. -/
theorem idxOf_eraseDups_lt {pre post : List Address} {a b : Address} (hab : a ≠ b)
    (hb : b ∉ pre) :
    (pre ++ a :: post).eraseDups.idxOf a < (pre ++ a :: post).eraseDups.idxOf b := by
  have hbpre : b ∉ pre.eraseDups := by rwa [List.mem_eraseDups]
  rw [List.eraseDups_append, List.idxOf_append, List.idxOf_append, if_neg hbpre]
  split
  · next ha =>
    have := List.idxOf_lt_length_of_mem ha
    omega
  · next ha =>
    rw [List.mem_eraseDups] at ha
    have hrest : (a :: post).removeAll pre = a :: post.removeAll pre := by
      simp [List.removeAll, ha]
    rw [hrest, List.eraseDups_cons, List.idxOf_cons_self, List.idxOf_cons_ne _ hab]
    omega

/-! ## Commits -/

theorem SealedRound.Follows.enter {commits : List CommitRecord} (h : r.Follows commits)
    (b : Address) (commitment : BytesN 32) (escrow : Int) :
    (r.enter b (Entry.fresh commitment escrow)).Follows
      (commits ++ [⟨b, commitment, escrow⟩]) where
  bidders := by
    have hmem : b ∈ commits.map CommitRecord.bidder ↔ b ∈ r.bidders := by
      rw [h.bidders, List.mem_eraseDups]
    rw [List.map_append, List.map_singleton, eraseDups_snoc, ← h.bidders]
    show (if b ∈ r.bidders then r.bidders else r.bidders ++ [b]) =
      if b ∈ commits.map CommitRecord.bidder then r.bidders else r.bidders ++ [b]
    simp only [hmem]
  entries c := by
    rw [lastCommit_snoc]
    by_cases hc : b = c
    · subst hc
      simp [SealedRound.enter, Entry.fresh]
    · have hentry : (r.enter b (Entry.fresh commitment escrow)).entry c = r.entry c :=
        Function.update_of_ne (Ne.symm hc) ..
      rw [hentry, if_neg hc]
      exact h.entries c

theorem SealedRound.Follows.entered_before {commits : List CommitRecord} (h : r.Follows commits)
    {a b : Address} (hab : a ≠ b) (hfirst : EnteredBefore a b commits) :
    r.bidders.idxOf a < r.bidders.idxOf b := by
  obtain ⟨pre, record, post, rfl, rfl, hpre⟩ := hfirst
  rw [h.bidders, List.map_append, List.map_cons]
  apply idxOf_eraseDups_lt hab
  intro hmem
  obtain ⟨q, hq, hbidder⟩ := List.mem_map.mp hmem
  exact hpre q hq hbidder

/-- The commitment stored for a bidder is that of the last commit. -/
theorem SealedRound.Follows.commitment {commits : List CommitRecord} (h : r.Follows commits)
    {b : Address} {record : CommitRecord} (hlast : lastCommit b commits = some record) :
    ∃ e, r.entry b = some e ∧ e.commitment = record.commitment ∧ e.escrow = record.escrow := by
  have hentry := h.entries b
  rw [hlast, Option.map_some] at hentry
  obtain ⟨e, he, heq⟩ := Option.map_eq_some_iff.mp hentry
  exact ⟨e, he, (Prod.mk.inj heq).1, (Prod.mk.inj heq).2⟩

/-- Nothing but a commit changes the list, a commitment or an escrow. -/
theorem SealedRound.Follows.same {commits : List CommitRecord} (h : r.Follows commits)
    (hbidders : r'.bidders = r.bidders)
    (hentries : ∀ b, (r'.entry b).map (fun e => (e.commitment, e.escrow)) =
      (r.entry b).map fun e => (e.commitment, e.escrow)) : r'.Follows commits :=
  ⟨hbidders.trans h.bidders, fun b => (hentries b).trans (h.entries b)⟩

theorem SealedRound.Follows.close {commits : List CommitRecord} (h : r.Follows commits)
    (status : Status) : (r.close status).Follows commits := by
  refine h.same rfl fun b => ?_
  show ((r.entry b).map Entry.close).map _ = _
  rw [Option.map_map]
  rfl

theorem SealedRound.Follows.voided {commits : List CommitRecord} (h : r.Follows commits) :
    r.voided.Follows commits := by
  unfold SealedRound.voided
  split
  · exact h.close .Voided
  · exact h.same rfl fun _ => rfl

theorem Transition.follows (h : Transition host t r action ts r') {commits : List CommitRecord}
    (hf : r.Follows commits) : r'.Follows (commits ++ action.commitRecord.toList) := by
  cases h with
  | commit b commitment escrow => exact hf.enter b commitment escrow
  | reveal b e x amount _ _ he =>
    have hnil : commits ++ (Action.reveal b x).commitRecord.toList = commits :=
      List.append_nil commits
    rw [hnil]
    refine hf.same rfl fun c => ?_
    by_cases hc : c = b
    · subst hc
      simp [SealedRound.setEntry, he]
    · simp [SealedRound.setEntry, Function.update_of_ne hc]
  | opening => exact (List.append_nil commits).symm ▸ hf.same rfl fun _ => rfl
  | clear => exact (List.append_nil commits).symm ▸ hf.same rfl fun _ => rfl
  | clearVoid => exact (List.append_nil commits).symm ▸ hf.voided
  | finalize => exact (List.append_nil commits).symm ▸ hf.close .Settled
  | settle => exact (List.append_nil commits).symm ▸ hf.close .Settled
  | void => exact (List.append_nil commits).symm ▸ hf.voided

/-- **The commits of a run.** -/
theorem Run.follows {c₀ : Chain} (hd : Deployed config c₀) (h : Run host c₀ events c)
    (key : RoundKey) :
    (c.world.view key = none → commitsOn key events = []) ∧
    ∀ r, c.world.view key = some r → r.Follows (commitsOn key events) := by
  induction h with
  | nil =>
    refine ⟨fun _ => rfl, fun r hr => ?_⟩
    cases key <;> simp [World.view, hd.1, Store.empty] at hr
  | @snoc events d e d' hrun hstep ih =>
    have hmoves := Step.moves hstep (Run.sound hrun hd.chain_sound) key
    rw [commitsOn_snoc]
    generalize d.world.view key = o at hmoves ih
    generalize d'.world.view key = o' at hmoves
    generalize e.movedFor key = ts at hmoves
    cases hmoves with
    | idle _ _ hnone => simpa [hnone] using ih
    | @created tx call value r _ _ haction hcreated =>
      have hon : (Event.called tx call value (r.lotFrom host.currentContract
          r.terms.operator)).actionOn key = none := by
        simp [Event.actionOn, haction]
      rw [hon, ih.1 rfl]
      refine ⟨by simp, fun q hq => ?_⟩
      obtain rfl := Option.some_inj.mp hq
      exact ⟨hcreated.bidders, fun b => by simp [hcreated.entry b, lastCommit]⟩
    | @stepped tx call value action r r' ts _ hkey haction htrans =>
      have hon : (Event.called tx call value ts).actionOn key = some action := by
        simp [Event.actionOn, hkey, haction]
      rw [hon]
      refine ⟨by simp, fun q hq => ?_⟩
      obtain rfl := Option.some_inj.mp hq
      exact htrans.follows (ih.2 r rfl)

/-! ## Reveals -/

theorem mem_revealsOn_snoc {key : RoundKey} {events : List Event} {e : Event} {x : Bytes} :
    x ∈ revealsOn key (events ++ [e]) ↔
      x ∈ revealsOn key events ∨ ∃ b, e.actionOn key = some (.reveal b x) := by
  unfold revealsOn
  rw [List.filterMap_append, List.mem_append]
  refine or_congr_right ?_
  cases haction : e.actionOn key with
  | none => simp [haction]
  | some action => cases action <;> simp [haction, Action.preimage, eq_comm]

theorem openedBy_close (status : Status) (b : Address) :
    openedBy (some (r.close status)) b = openedBy (some r) b := by
  show ((r.entry b).map Entry.close).bind Entry.opened = (r.entry b).bind Entry.opened
  rw [Option.bind_map]
  rfl

theorem Transition.opened (h : Transition host t r action ts r') {b : Address} {x : Bytes}
    (hx : openedBy (some r') b = some x) :
    openedBy (some r) b = some x ∨ action = .reveal b x := by
  cases h with
  | commit a commitment escrow =>
    by_cases hb : b = a
    · subst hb
      simp [openedBy, SealedRound.enter, Entry.fresh] at hx
    · left
      simpa [openedBy, SealedRound.enter, Function.update_of_ne hb] using hx
  | reveal a e y amount =>
    by_cases hb : b = a
    · subst hb
      right
      have hx : y = x := by simpa [openedBy, SealedRound.setEntry] using hx
      rw [hx]
    · left
      simpa [openedBy, SealedRound.setEntry, Function.update_of_ne hb] using hx
  | opening => exact Or.inl hx
  | clear => exact Or.inl hx
  | finalize => exact Or.inl (by rwa [openedBy_close] at hx)
  | settle => exact Or.inl (by rwa [openedBy_close] at hx)
  | clearVoid =>
    left
    unfold SealedRound.voided at hx
    split at hx
    · rwa [openedBy_close] at hx
    · exact hx
  | void =>
    left
    unfold SealedRound.voided at hx
    split at hx
    · rwa [openedBy_close] at hx
    · exact hx

/-- **The reveals of a run.** -/
theorem Run.opened (h : Run host c events c') (hs : c.Sound host config) {b : Address} {x : Bytes}
    (hx : openedBy (c'.world.view key) b = some x) :
    openedBy (c.world.view key) b = some x ∨ x ∈ revealsOn key events := by
  induction h with
  | nil => exact Or.inl hx
  | @snoc events d e d' hrun hstep ih =>
    have hmoves := Step.moves hstep (Run.sound hrun hs) key
    have hback : openedBy (d.world.view key) b = some x →
        openedBy (c.world.view key) b = some x ∨ x ∈ revealsOn key (events ++ [e]) :=
      fun h => (ih h).imp_right fun hin => mem_revealsOn_snoc.mpr (Or.inl hin)
    generalize d.world.view key = o at hmoves hback
    generalize d'.world.view key = o' at hmoves hx
    generalize e.movedFor key = ts at hmoves
    cases hmoves with
    | idle => exact hback hx
    | created _ _ _ hcreated => simp [openedBy, hcreated.entry b] at hx
    | @stepped tx call value action r r' ts _ hkey haction htrans =>
      rcases htrans.opened hx with hx | rfl
      · exact hback hx
      · exact Or.inr (mem_revealsOn_snoc.mpr (Or.inr ⟨b, by
          simp [Event.actionOn, hkey, haction]⟩))

/-! ## The reveal window -/

theorem Transition.not_open (h : Transition host t r action ts r') (hs : r.status ≠ .Open) :
    r'.status ≠ .Open := by
  have hvoided : r.voided.status ≠ .Open := by
    unfold SealedRound.voided
    split <;> simp [SealedRound.close, SealedRound.withStatus]
  cases h with
  | commit _ _ _ hopen => exact absurd hopen hs
  | opening hopen => exact absurd hopen hs
  | reveal => exact hs
  | clear => simp
  | clearVoid => exact hvoided
  | finalize => simp [SealedRound.close]
  | settle => simp [SealedRound.close]
  | void => exact hvoided

/-- A round that was opened stays so. -/
theorem Run.not_open (h : Run host c events c') (hs : c.Sound host config)
    (hr : c.world.view key = some r) (hopen : r.status ≠ .Open) :
    ∃ q, c'.world.view key = some q ∧ q.status ≠ .Open := by
  refine Runs.Run.invariant_of (J := Chain.Sound host config)
    (I := fun d => ∃ q, d.world.view key = some q ∧ q.status ≠ .Open)
    (fun _ _ _ hc hstep => Step.sound hstep hc) (fun d e d' hd hold hstep => ?_) h hs
    ⟨r, hr, hopen⟩
  obtain ⟨q, hq, hnot⟩ := hold
  have hmoves := hstep.moves hd key
  rw [hq] at hmoves
  generalize d'.world.view key = o at hmoves
  generalize e.movedFor key = ts at hmoves
  cases hmoves with
  | idle => exact ⟨q, rfl, hnot⟩
  | stepped _ _ _ htrans => exact ⟨_, rfl, htrans.not_open hnot⟩

/-- The entry `e` with the preimage `x` recorded. -/
def Entry.open (terms : Terms) (e : Entry) (x : Bytes) (amount : Option Int) : Entry :=
  { e with opened := some x, amount, valid := terms.validates amount }

/-- While a round is being revealed, entries only get their preimage. -/
theorem Run.revealing (h : Run host c events c') (hs : c.Sound host config)
    (hr : c.world.view key = some r) (hopen : r.status ≠ .Open)
    (hr' : c'.world.view key = some r') (hs' : r'.status = .Revealing) :
    r.status = .Revealing ∧ r'.bidders = r.bidders ∧ ∀ b, r'.entry b = r.entry b ∨
      ∃ e x amount, r.entry b = some e ∧ e.opened = none ∧ x ∈ revealsOn key events ∧
        r'.entry b = some (e.open r.terms x amount) := by
  induction h generalizing r' with
  | nil =>
    obtain rfl : r = r' := Option.some_inj.mp (hr.symm.trans hr')
    exact ⟨hs', rfl, fun b => Or.inl rfl⟩
  | @snoc events d e d' hrun hstep ih =>
    obtain ⟨q, hq, hnot⟩ := Run.not_open hrun hs hr hopen
    obtain ⟨q', hq', hterms⟩ := Run.terms hrun hs hr
    obtain rfl : q = q' := Option.some_inj.mp (hq.symm.trans hq')
    have hmoves := Step.moves hstep (Run.sound hrun hs) key
    -- what held before the step, with the reveals up to the step
    have hbefore : q.status = .Revealing → r.status = .Revealing ∧ q.bidders = r.bidders ∧
        ∀ b, q.entry b = r.entry b ∨ ∃ e' x amount, r.entry b = some e' ∧ e'.opened = none ∧
          x ∈ revealsOn key (events ++ [e]) ∧ q.entry b = some (e'.open r.terms x amount) := by
      intro hrevealing
      obtain ⟨hstatus, hbidders, hentries⟩ := ih hq hrevealing
      refine ⟨hstatus, hbidders, fun b => (hentries b).imp_right ?_⟩
      rintro ⟨e', x, amount, he, hnone, hx, hentry⟩
      exact ⟨e', x, amount, he, hnone, mem_revealsOn_snoc.mpr (Or.inl hx), hentry⟩
    rw [hq, hr'] at hmoves
    generalize e.movedFor key = ts at hmoves
    cases hmoves with
    | idle => exact hbefore hs'
    | @stepped tx call value action _ _ ts _ hkey haction htrans =>
      cases htrans with
      | opening hst => exact absurd hst hnot
      | commit _ _ _ hst => exact absurd hst hnot
      | void hst => exact absurd hst hnot
      | clear => simp at hs'
      | finalize => simp [SealedRound.close] at hs'
      | settle => simp [SealedRound.close] at hs'
      | clearVoid =>
        unfold SealedRound.voided at hs'
        split at hs' <;> simp [SealedRound.close, SealedRound.withStatus] at hs'
      | reveal b e' x amount hst _ he hnone =>
        obtain ⟨hstatus, hbidders, hentries⟩ := hbefore hst
        refine ⟨hstatus, hbidders, fun a => ?_⟩
        by_cases ha : a = b
        · subst ha
          right
          have hsame : q.entry a = r.entry a := by
            rcases hentries a with hsame | ⟨e'', y, amount', -, -, -, hopened⟩
            · exact hsame
            · rw [he, Option.some_inj] at hopened
              rw [hopened] at hnone
              cases hnone
          refine ⟨e', x, amount, by rw [← hsame, he], hnone,
            mem_revealsOn_snoc.mpr (Or.inr ⟨a, ?_⟩), ?_⟩
          · simp [Event.actionOn, hkey, haction]
          · rw [← hterms]
            exact Function.update_self ..
        · have hother : (q.setEntry b { e' with
              opened := some x, amount, valid := q.terms.validates amount }).entry a =
              q.entry a := Function.update_of_ne ha ..
          rw [hother]
          exact hentries a

end

end SubRosa
