import SubRosa.Agent.Mandate

/-!
# A mandate as it arrives

`verifySessionMandate` is given a JSON object that is taken for a mandate. On
the object of a mandate it does what it does on the mandate.
-/

namespace SubRosa.Agent

open JavaScript Sdk

/-- The object of a mandate. -/
def SessionMandate.json (mandate : SessionMandate) : Json :=
  match mandate.toSessionMandatePayload.json with
  | .obj fields => .obj (fields ++ [("signature", .str mandate.signature)])
  | v => v

section

variable (engine : Engine) (keypairs : Keypairs) (sha256 : Bytes → BytesN 32)
  (bufferFrom : JsValue → Except Thrown Bytes)

/-- `Buffer.from(signature, "base64")`; `bufferFrom` is for what is no text. -/
def signatureBytes : JsValue → Except Thrown Bytes
  | some (.str text) => .ok (base64Bytes text)
  | v => bufferFrom v

/-- A public key is read from a text only. -/
def publicKeyText : JsValue → Except Thrown String
  | some (.str text) => .ok text
  | _ => .error (.native .typeError)

/-- The fields but the signature. -/
def payloadOf (fields : List (String × Json)) : List (String × Json) :=
  fields.filter fun p => p.1 ≠ "signature"

/-- `BigInt(a) > BigInt(b)`. -/
def exceeds (a b : JsValue) : Except Thrown Bool := do
  return (← bigInt engine a) > (← bigInt engine b)

/-- The version and the signature. -/
def authenticate (fields : List (String × Json)) : Except Thrown Unit := do
  let mandate := property engine (.obj fields)
  if !strictEq (mandate "version") (some (.num mandateVersion)) then
    let shown ← text engine (mandate "version")
    .error (.error s!"unsupported mandate version {shown}")
  let digest := (sha256 (canonical engine (.obj (payloadOf fields))).toUTF8.toList).val
  let principal ← publicKeyText (mandate "principal")
  let signature ← signatureBytes bufferFrom (mandate "signature")
  let ok ← keypairs.verify principal digest signature
  if !ok then .error (.error "invalid mandate signature")

/-- Expiry, round binding and the caps. -/
def checkTerms (mandate : String → JsValue) (opts : Binding) : Except Thrown Unit := do
  let now := Number.finite opts.now
  if lessThan (← toNumber engine (mandate "expiresAt")) (some now) then
    .error (.error "mandate expired")
  if lessThan (← toNumber engine (mandate "commitDeadline")) (some now) then
    .error (.error "commit deadline passed")
  if opts.contractId.getD "" ≠ "" ∧
      !strictEq (mandate "contractId") (opts.contractId.map Json.str) then
    .error (.error "mandate contractId mismatch")
  if opts.roundId.any fun roundId =>
      !strictEq (mandate "roundId") (some (.str (toString roundId))) then
    .error (.error "mandate roundId mismatch")
  if ← exceeds engine (mandate "maxBidStroops") (mandate "maxEscrowStroops") then
    .error (.error "maxBidStroops cannot exceed maxEscrowStroops")
  if ← exceeds engine (mandate "appraisalPriceStroops") (mandate "maxAppraisalSpendStroops") then
    .error (.error "appraisal price exceeds maxAppraisalSpend")

/-- `verifySessionMandate` on the fields of an object. -/
def verifySessionMandateObject (fields : List (String × Json)) (opts : Binding) :
    Except Thrown Unit := do
  authenticate engine keypairs sha256 bufferFrom fields
  checkTerms engine (property engine (.obj fields)) opts

end

/-! ## The object of a mandate -/

section

variable {engine : Engine} {keypairs : Keypairs} {sha256 : Bytes → BytesN 32}
  {bufferFrom : JsValue → Except Thrown Bytes}

/-- The fields of the payload. -/
def SessionMandate.fields (m : SessionMandate) : List (String × Json) :=
  match m.json with
  | .obj fields => fields
  | _ => []

theorem SessionMandate.json_eq (m : SessionMandate) : m.json = .obj m.fields := rfl

theorem SessionMandate.payloadOf_fields (m : SessionMandate) :
    Json.obj (payloadOf m.fields) = m.toSessionMandatePayload.json := by
  obtain ⟨⟨version, principal, sessionKey, contractId, roundId, itemRef, basePriceUsdc, category,
      _⟩, _⟩ := m
  cases category <;> rfl

theorem SessionMandate.object (m : SessionMandate) (opts : Binding) :
    verifySessionMandateObject engine keypairs sha256 bufferFrom m.fields opts =
      verifySessionMandate engine keypairs sha256 m opts := by
  have hpayload := m.payloadOf_fields
  have hread : ∀ (name : String) (v : Json), fieldOf m.fields name = some v →
      property engine (.obj m.fields) name = some v := by
    intro name v h
    rw [property, ownProperty, h]
  have hfields : fieldOf m.fields "version" = some (.num m.version) ∧
      fieldOf m.fields "principal" = some (.str m.principal) ∧
      fieldOf m.fields "signature" = some (.str m.signature) ∧
      fieldOf m.fields "expiresAt" = some (.num m.expiresAt) ∧
      fieldOf m.fields "commitDeadline" = some (.num m.commitDeadline) ∧
      fieldOf m.fields "contractId" = some (.str m.contractId) ∧
      fieldOf m.fields "roundId" = some (.str m.roundId) ∧
      fieldOf m.fields "maxBidStroops" = some (.str m.maxBidStroops) ∧
      fieldOf m.fields "maxEscrowStroops" = some (.str m.maxEscrowStroops) ∧
      fieldOf m.fields "appraisalPriceStroops" = some (.str m.appraisalPriceStroops) ∧
      fieldOf m.fields "maxAppraisalSpendStroops" = some (.str m.maxAppraisalSpendStroops) := by
    obtain ⟨⟨version, principal, sessionKey, contractId, roundId, itemRef, basePriceUsdc,
      category, _⟩, _⟩ := m
    cases category <;> exact ⟨rfl, rfl, rfl, rfl, rfl, rfl, rfl, rfl, rfl, rfl, rfl⟩
  obtain ⟨h1, h2, h3, h4, h5, h6, h7, h8, h9, h10, h11⟩ := hfields
  unfold verifySessionMandateObject authenticate checkTerms verifySessionMandate mandateDigest
    exceeds
  have hcontract : (opts.contractId.getD "" ≠ "" ∧
      (!strictEq (some (.str m.contractId)) (opts.contractId.map Json.str)) = true) ↔
      (opts.contractId.getD "" ≠ "" ∧ some m.contractId ≠ opts.contractId) := by
    cases opts.contractId <;> simp [strictEq]
  have hround : (opts.roundId.any fun roundId =>
      !strictEq (some (.str m.roundId)) (some (.str (toString roundId)))) =
      opts.roundId.any fun roundId => m.roundId ≠ toString roundId := by
    cases opts.roundId <;> simp [strictEq]
  have hversion : (!strictEq (some (.num m.version)) (some (.num mandateVersion))) = true ↔
      m.version ≠ mandateVersion := by simp [strictEq]
  simp only [hread _ _ h1, hread _ _ h2, hread _ _ h3, hread _ _ h4, hread _ _ h5, hread _ _ h6,
    hread _ _ h7, hread _ _ h8, hread _ _ h9, hread _ _ h10, hread _ _ h11, hpayload, hcontract,
    hround, hversion]
  simp only [publicKeyText, signatureBytes, toNumber, lessThan, bigInt, JavaScript.text, Json.text,
    bind_ok, decide_eq_true_eq, bind_assoc, pure_bind]
  by_cases hv : m.version ≠ mandateVersion
  · rw [if_pos hv, if_pos hv]
    rfl
  · rw [if_neg hv, if_neg hv, bind_assoc]
    refine bind_congr fun ok => ?_
    cases ok <;> rfl

end

/-! ## The signed text -/

section

variable {engine : Engine} {v w : Json}

/-- The signed text of a value is that of the value with its fields sorted. -/
theorem toList_canonical (v : Json) : (canonical engine v).toList = v.sorted.chars engine := by
  have hquote : ∀ s : String, (quote s).toList = quoted s := fun s => by
    rw [quote, String.toList_ofList]
    rfl
  induction v using Json.induct with
  | null => simp [canonical, Json.sorted, Json.chars]
  | bool b => cases b <;> simp [canonical, Json.sorted, Json.chars]
  | num n => cases n <;> simp [canonical, numberText, Json.sorted, Json.chars, numeral]
  | str s =>
    rw [canonical]
    exact hquote s
  | arr items ih =>
    have hitems : (canonicalItems engine items).map String.toList =
        Json.itemChars engine (Json.sortedItems items) := by
      induction items with
      | nil => rfl
      | cons item items ihs =>
        rw [canonicalItems, Json.sortedItems, Json.itemChars, List.map_cons,
          ih item List.mem_cons_self, ihs fun v hv => ih v (List.mem_cons_of_mem _ hv)]
    rw [canonical, String.toList_append, String.toList_append, String.toList_intercalate, hitems]
    rfl
  | obj fields ih =>
    have hfields : (canonicalFields engine fields).map (fun p => (p.1, p.2.toList)) =
        (Json.sortedFields fields).map fun p => (p.1, p.2.chars engine) := by
      induction fields with
      | nil => rfl
      | cons p fields ihs =>
        obtain ⟨key, v⟩ := p
        rw [canonicalFields, Json.sortedFields, List.map_cons, List.map_cons,
          ih (key, v) List.mem_cons_self, ihs fun q hq => ih q (List.mem_cons_of_mem _ hq)]
    have hsorted := sortEntries_map String.toList (canonicalFields engine fields)
    rw [hfields, ← sortEntries_map] at hsorted
    have hwritten : ∀ l : List (String × Json), Json.fieldChars engine l =
        (l.map fun p => (p.1, p.2.chars engine)).map fun p => quoted p.1 ++ ':' :: p.2 := by
      intro l
      induction l with
      | nil => rfl
      | cons p l ihl =>
        obtain ⟨key, v⟩ := p
        rw [Json.fieldChars, ihl]
        rfl
    have hentries : ((sortEntries (canonicalFields engine fields)).map
        fun entry => quote entry.1 ++ ":" ++ entry.2).map String.toList =
        Json.fieldChars engine (sortEntries (Json.sortedFields fields)) := by
      rw [hwritten, ← hsorted, List.map_map, List.map_map]
      refine List.map_congr_left fun p _ => ?_
      show (quote p.1 ++ ":" ++ p.2).toList = quoted p.1 ++ ':' :: p.2.toList
      rw [String.toList_append, String.toList_append, hquote, List.append_assoc]
      rfl
    rw [canonical]
    show ("\x7b" ++ ",".intercalate ((sortEntries (canonicalFields engine fields)).map
      fun entry => quote entry.1 ++ ":" ++ entry.2) ++ "\x7d").toList = _
    rw [String.toList_append, String.toList_append, String.toList_intercalate, hentries]
    rfl

/-- What is signed with one text is one value, up to the order of fields and infinite numbers. -/
theorem canonical_inj (hv : v.Every engine.Prints List.Nodup)
    (hw : w.Every engine.Prints List.Nodup)
    (h : canonical engine v = canonical engine w) : v.copy.Same w.copy := by
  have hchars := congrArg String.toList h
  rw [toList_canonical, toList_canonical] at hchars
  have hperm : ∀ l l' : List String, l.Perm l' → l.Nodup → l'.Nodup := fun _ _ hl => hl.nodup_iff.mp
  have hcopy := Json.chars_inj (hv.sorted hperm) (hw.sorted hperm) hchars
  rw [Json.copy_sorted, Json.copy_sorted] at hcopy
  exact Json.same_of_sorted hcopy

theorem toList_byteArray (bs : ByteArray) : bs.toList = bs.data.toList := by
  have hloop : ∀ i r, ByteArray.toList.loop bs i r = r.reverse ++ bs.data.toList.drop i := by
    intro i r
    fun_induction ByteArray.toList.loop bs i r with
    | case1 i r h ih =>
      have hget : bs.data.toList.drop i = bs.get! i :: bs.data.toList.drop (i + 1) := by
        rw [List.drop_eq_getElem_cons (by simpa using h)]
        congr 1
        exact (getElem!_pos bs.data i h).symm
      rw [ih, hget, List.reverse_cons, List.append_assoc]
      rfl
    | case2 i r h =>
      rw [List.drop_eq_nil_of_le (by simpa using h), List.append_nil]
  exact hloop 0 []

theorem utf8_inj {s t : String} (h : s.toUTF8.toList = t.toUTF8.toList) : s = t := by
  rw [toList_byteArray, toList_byteArray] at h
  have hbytes : s.toUTF8 = t.toUTF8 := ByteArray.ext (Array.toList_inj.mp h)
  exact String.toByteArray_inj.mp hbytes

end

end SubRosa.Agent
