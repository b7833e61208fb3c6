import SubRosa.Sdk.VerifyV2

/-!
# The verifier of first-generation receipts

`verifyReceipt`, section by section in the order of the source. It accepts
entries whose nonce was not kept, and some mismatches are warnings only.
-/

namespace SubRosa.Sdk

open JavaScript Report

section

variable (engine : Engine) (sha256 : Bytes → BytesN 32) (r : String → JsValue)

def parseBigInt (v : JsValue) : Option Int := (bigInt engine v).toOption

/-- `fromHex(v)` of any value. Where `v` is no text, only an empty array gets through: the text of
a longer one has a comma in it. -/
def fromHex (v : JsValue) : Except Thrown Bytes :=
  match v with
  | some (.str s) => fromHexText s
  | some (.arr items) => do
    let shown ← text engine (some (.arr items))
    let clean := if hasHexPrefix shown then items.drop 2 else items
    if clean.length % 2 ≠ 0 then .error (.error "odd hex length")
    else if clean ≠ [] then .error (.error "invalid hex characters")
    else .ok []
  | _ => .error (.error "odd hex length")

def validStatuses : List String := ["Open", "Revealing", "Cleared", "Settled", "Voided"]

def isOneOf (names : List String) : JsValue → Bool
  | some (.str s) => s ∈ names
  | _ => false

def checkSchema : Check Unit := do
  if isString (r "network") ∧ truthy (r "network") then
    let passphrase ← lift (text engine (r "network"))
    addIf (¬ strictEq (r "networkFingerprint") (some (.str (networkFingerprint sha256 passphrase))))
      (issueAt "network_mismatch" "networkFingerprint does not match sha256 of network passphrase"
        "networkFingerprint")
  else add (issueAt "missing_network" "network is missing or empty" "network")
  addIf (¬ startsWith 'C' (r "contractId"))
    (issueAt "invalid_contract_id" "contractId must start with C" "contractId")
  addIf (¬ isString (r "roundId") ∨ parseBigInt engine (r "roundId") = none)
    (issueAt "invalid_round_id" "roundId must be a decimal bigint string" "roundId")
  if isOneOf ["HighestBid", "LowestBid"] (r "clearingRule") then pure ()
  else
    let rule ← lift (text engine (r "clearingRule"))
    add (issueAt "invalid_clearing_rule"
      s!"clearingRule must be HighestBid or LowestBid, got {rule}"
      "clearingRule")
  if isOneOf validStatuses (r "status") then pure ()
  else
    let status ← lift (text engine (r "status"))
    add (warning "unknown_status" s!"unrecognised status: {status}" (some "status"))

/-! ## Bidders -/

variable (bidders : List Json)

/-- The text of a bidder; `startsWith` is no function of anything else. -/
def bidderName : Json → Except Thrown String
  | .str s => .ok s
  | _ => .error (.native .typeError)

def visitBidderV1 (seen : List Json) (bidder : Json) : Check (List Json) := do
  let name ← lift (bidderName bidder)
  addIf (name.toList.head? ≠ some 'G')
    (issueAt "invalid_bidder" s!"bidder address must start with G: {name}" "bidders")
  addIf (hasValue seen bidder) (issueAt "duplicate_bidder" s!"duplicate bidder: {name}" "bidders")
  return insertValue seen bidder

def checkBidders : Check Unit := do
  let _ ← bidders.foldlM visitBidderV1 []
  let bidKeys ← lift (keys (r "bids"))
  forM bidKeys fun key =>
    addIf (¬ hasValue (setOf bidders) (.str key))
      (issueAt "orphan_bid_entry" s!"bid entry for {key} not in bidders array" s!"bids.{key}")
  forM bidders fun bidder => do
    let name ← lift (bidderName bidder)
    let present ← lift (hasProperty engine (r "bids") name)
    addIf (¬ present) (issueAt "missing_bid_entry" s!"no bid entry for {name}" s!"bidders.{name}")

/-! ## Entries -/

/-- A flagged entry competes. -/
def candidate (bidder : Json) (entry : String → JsValue) (value : Int) (leader : Leader) : Leader :=
  if truthy (entry "valid") then
    FirstBest.keep (ranksOver (r "clearingRule")) leader bidder value
  else leader

/-- A value with its nonce is bound to the commitment. -/
def checkReveal (path : String) (bidder : Json) (entry : String → JsValue) (leader : Leader) :
    Check Leader :=
  match parseBigInt engine (entry "revealedValue") with
  | none => do
    add (issueAt "invalid_revealed_value" "revealedValue must be a decimal bigint string"
      (path ++ ".revealedValue"))
    return leader
  | some value =>
    match fromHex engine (entry "nonce") with
    | .error _ => do
      add (issueAt "invalid_nonce" "nonce must be valid hex" (path ++ ".nonce"))
      return leader
    | .ok nonce =>
      if nonce.length ≠ 32 then do
        add (issueAt "invalid_nonce_length" s!"nonce must be 32 bytes, got {nonce.length}"
          (path ++ ".nonce"))
        return leader
      else do
        let hash ← lift (commitment sha256 value nonce)
        let recomputed := toHex hash
        let declared ← lift (toLowerCase (entry "commitment"))
        if recomputed ≠ declared then
          let shown ← lift (text engine (entry "commitment"))
          add (issueAt "commitment_mismatch"
            s!"sha256(be16({value}) || nonce) = {recomputed}, expected {shown}"
            (path ++ ".commitment"))
        return candidate r bidder entry value leader

/-- The contract verified a value that comes without its nonce. -/
def checkValue (path : String) (bidder : Json) (entry : String → JsValue) (leader : Leader) :
    Check Leader :=
  match parseBigInt engine (entry "revealedValue") with
  | none => do
    add (issueAt "invalid_revealed_value" "revealedValue must be a decimal bigint string"
      (path ++ ".revealedValue"))
    return leader
  | some value => return candidate r bidder entry value leader

def checkEntry (path : String) (bidder : Json) (entry : String → JsValue) (leader : Leader) :
    Check Leader := do
  addIf (¬ isHexOf 32 (entry "commitment"))
    (issueAt "invalid_commitment" "commitment must be 64 hex chars" (path ++ ".commitment"))
  addIf (¬ isNonnegative (parseBigInt engine (entry "escrow")))
    (issueAt "invalid_escrow" "escrow must be a non-negative decimal bigint string"
      (path ++ ".escrow"))
  if ¬ strictEq (entry "revealedValue") (some .null) then
    if ¬ strictEq (entry "nonce") (some .null) then
      checkReveal engine sha256 r path bidder entry leader
    else checkValue engine r path bidder entry leader
  else do
    addIf (¬ strictEq (entry "nonce") (some .null))
      (issueAt "partial_reveal" "nonce is set but revealedValue is null" path)
    return leader

/-- `receipt.bids[bidder]` when it is there. -/
def entryOf (name : String) : Except Thrown (Option Json) := do
  let entry ← getProperty engine (r "bids") name
  return if truthy entry then entry else none

def visitEntry (leader : Leader) (bidder : Json) : Check Leader := do
  let name ← lift (bidderName bidder)
  match ← lift (entryOf engine r name) with
  | some entry =>
    checkEntry engine sha256 r ("bids." ++ name) bidder (property engine entry) leader
  | none => return leader

/-! ## Winner and evidence -/

def checkOutcome (leader : Leader) : Check Unit :=
  match leader with
  | some (winner, value) =>
    if strictEq (r "winner") (some .null) then do
      let name ← lift (text engine (some winner))
      add (warning "winner_not_declared"
        s!"receipt declares no winner but computed winner is {name} ({value})" (some "winner"))
    else if ¬ strictEq (some winner) (r "winner") then do
      let name ← lift (text engine (some winner))
      let declared ← lift (text engine (r "winner"))
      add (issueAt "winner_mismatch"
        s!"computed winner is {name} ({value}), declared winner is {declared}" "winner")
    else pure ()
  | none =>
    if strictEq (r "winner") (some .null) then pure ()
    else do
      let declared ← lift (text engine (r "winner"))
      add (warning "winner_not_computed"
        s!"receipt declares winner {declared} but no valid revealed bids found" (some "winner"))

/-- `v !== null` has to match `/^[0-9a-f]+$/i`. -/
def checkHex (field path : String) (v : JsValue) : Check Unit :=
  if strictEq v (some .null) then pure ()
  else do
    let shown ← lift (text engine v)
    addIf (¬ (shown ≠ "" ∧ isHexText shown))
      (issueAt "invalid_evidence_hex" s!"{field} is not valid hex" s!"{path}.evidence.{field}")

def checkEntryEvidence (bidder : Json) : Check Unit := do
  let name ← lift (bidderName bidder)
  match ← lift (entryOf engine r name) with
  | some entry =>
    match property engine entry "evidence" with
    | some evidence =>
      if truthy (some evidence) then do
        checkHex engine "ciphertext" ("bids." ++ name) (property engine evidence "ciphertext")
        checkHex engine "auditorBlob" ("bids." ++ name) (property engine evidence "auditorBlob")
      else pure ()
    | none => pure ()
  | none => pure ()

end

def checkReceipt (engine : Engine) (sha256 : Bytes → BytesN 32) (receipt : Json) :
    Check Leader := do
  let version ← lift (getProperty engine (some receipt) "version")
  let r := property engine receipt
  if ¬ strictEq version (some (.num 1)) then
    let shown ← lift (text engine version)
    add (issue "unsupported_version" s!"version {shown} is not supported")
    stop
  else
    checkSchema engine sha256 r
    match r "bidders" with
    | some (.arr bidders) => do
      checkBidders engine r bidders
      let leader ← bidders.foldlM (visitEntry engine sha256 r) none
      checkOutcome engine r leader
      forM bidders (checkEntryEvidence engine r)
      return leader
    | _ => do
      add (issueAt "missing_bidders" "bidders must be an array" "bidders")
      stop

def verifyReceipt (engine : Engine) (sha256 : Bytes → BytesN 32) (receipt : Json) :
    Except Thrown VerificationResult :=
  conclude (checkReceipt engine sha256 receipt)

end SubRosa.Sdk
