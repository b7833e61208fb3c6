import SubRosa.Library.Report
import SubRosa.Sdk.Envelope

/-!
# What the receipt verifiers share

The issues a verifier reports, its result, and the readers of `verify.ts` and
`receipt-v2.ts` that take a text of a receipt apart. A receipt is any JSON
value: nothing checks its shape before the verifier does.
-/

namespace SubRosa.Sdk

open JavaScript

inductive Severity
  | error
  | warning
  deriving DecidableEq

structure VerificationIssue where
  severity : Severity
  code : String
  message : String
  path : Option String
  deriving DecidableEq

structure VerificationResult where
  valid : Bool
  issues : List VerificationIssue
  /-- The recomputed winner, `null` without one. -/
  address : Json
  value : Option Int

/-- A check of a verifier. -/
abbrev Check := Report Thrown VerificationIssue

def VerificationIssue.Bad (i : VerificationIssue) : Prop := i.severity = .error

def issue (code message : String) : VerificationIssue := ⟨.error, code, message, none⟩

def issueAt (code message path : String) : VerificationIssue := ⟨.error, code, message, some path⟩

def warning (code message : String) (path : Option String) : VerificationIssue :=
  ⟨.warning, code, message, path⟩

/-- The best bid so far: its bidder and its amount. -/
abbrev Leader := Option (Json × Int)

/-- The result of a verifier; a verifier that stops early does not accept. -/
def conclude (check : Check Leader) : Except Thrown VerificationResult :=
  match check with
  | .error e => .error e
  | .ok (issues, none) => .ok ⟨false, issues, .null, none⟩
  | .ok (issues, some leader) =>
    .ok ⟨issues.all fun i => i.severity ≠ .error, issues, (leader.map Prod.fst).getD .null,
      leader.map Prod.snd⟩

/-- The check runs through without an error. -/
abbrev Passes {α : Type} (check : Check α) (a : α) : Prop :=
  Report.Clean VerificationIssue.Bad check a

/-- `sha256(utf8(passphrase))` in hex. -/
def networkFingerprint (sha256 : Bytes → BytesN 32) (passphrase : String) : String :=
  toHex (sha256 passphrase.toUTF8.data.toList).val

def decimal : JsValue → Option Int
  | some (.str s) => decimalText? s
  | _ => none

/-- `isHex` without a length. -/
def isHexValue : JsValue → Bool
  | some (.str s) => isHexText s && (codeUnits s).length % 2 = 0
  | _ => false

/-- `isHex(v, bytes)`. -/
def isHexOf (bytes : Nat) : JsValue → Bool
  | some (.str s) => isHexText s && (codeUnits s).length = bytes * 2
  | _ => false

/-- `v.toLowerCase()`. -/
def toLowerCase : JsValue → Except Thrown String
  | some (.str s) => .ok s.toLower
  | _ => .error (.native .typeError)

/-- `v?.[key]`. -/
def optionalGet (engine : Engine) (v : JsValue) (key : String) : JsValue :=
  match v with
  | none | some .null => none
  | some w => property engine w key

def isString : JsValue → Bool
  | some (.str _) => true
  | _ => false

/-- `typeof v === "string" && v.startsWith(start)`, for a start of one letter. -/
def startsWith (start : Char) : JsValue → Bool
  | some (.str s) => s.toList.head? = some start
  | _ => false

theorem conclude_valid {check : Check Leader} :
    (∃ result, conclude check = .ok result ∧ result.valid = true) ↔
    ∃ leader, Passes check leader := by
  rcases check with e | ⟨issues, _ | leader⟩
  · constructor
    · rintro ⟨_, h, -⟩
      cases h
    · rintro ⟨_, _, h, -⟩
      cases h
  · constructor
    · rintro ⟨_, h, hvalid⟩
      cases h
      cases hvalid
    · rintro ⟨_, _, h, -⟩
      cases h
  · have hbad : (issues.all fun i => i.severity ≠ .error) = true ↔ ∀ i ∈ issues, ¬ i.Bad := by
      simp [VerificationIssue.Bad]
    constructor
    · rintro ⟨_, h, hvalid⟩
      cases h
      exact ⟨leader, issues, rfl, hbad.mp hvalid⟩
    · rintro ⟨_, _, h, hclean⟩
      cases h
      exact ⟨_, rfl, hbad.mpr hclean⟩

@[simp] theorem issue_bad (code message : String) : (issue code message).Bad := rfl

@[simp] theorem issueAt_bad (code message path : String) : (issueAt code message path).Bad := rfl

@[simp] theorem warning_not_bad (code message : String) (path : Option String) :
    ¬ (warning code message path).Bad := nofun

end SubRosa.Sdk
