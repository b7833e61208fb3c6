import SubRosa.Contract.Types
import SubRosa.Library.JavaScript

/-!
# How the keeper recognises an error

A failed call rejects with a chain of errors, each the cause of the one before.
The keeper looks in their texts for the name of a contract error or for its
numeric code, which the bindings translate.
-/

namespace SubRosa

/-- The code of `types.rs`. -/
def Error.code : Error → Nat
  | .NotInitialized => 1
  | .AlreadyInitialized => 2
  | .RoundNotFound => 3
  | .BidNotFound => 4
  | .CommitClosed => 10
  | .CommitNotClosed => 11
  | .CommitDeadlineAfterReveal => 12
  | .RevealNotOpen => 13
  | .RevealAlreadyOpen => 14
  | .RevealWindowClosed => 15
  | .RevealStillOpen => 16
  | .NotCleared => 17
  | .AlreadyCleared => 18
  | .AlreadySettled => 19
  | .RoundVoided => 20
  | .NotVoidable => 21
  | .WrongStatus => 22
  | .InvalidDrandSignature => 30
  | .HashMismatch => 31
  | .AlreadyRevealed => 32
  | .PayloadTooLarge => 33
  | .InvalidAmount => 34
  | .BidExceedsEscrow => 35
  | .DeadlineInPast => 36
  | .NoValidBids => 37
  | .RoundFull => 38
  | .InvalidLimit => 39
  | .UnsupportedVersion => 40
  | .MalformedPayload => 41
  | .EscrowNotAllowed => 42
  | .RoundDurationTooLong => 43
  | .ParticipantNotEligible => 44
  | .EscrowPolicyMismatch => 45
  | .InvalidRevealPolicy => 46
  | .RevealPolicyMissing => 47

def Error.name : Error → String
  | .NotInitialized => "NotInitialized"
  | .AlreadyInitialized => "AlreadyInitialized"
  | .RoundNotFound => "RoundNotFound"
  | .BidNotFound => "BidNotFound"
  | .CommitClosed => "CommitClosed"
  | .CommitNotClosed => "CommitNotClosed"
  | .CommitDeadlineAfterReveal => "CommitDeadlineAfterReveal"
  | .RevealNotOpen => "RevealNotOpen"
  | .RevealAlreadyOpen => "RevealAlreadyOpen"
  | .RevealWindowClosed => "RevealWindowClosed"
  | .RevealStillOpen => "RevealStillOpen"
  | .NotCleared => "NotCleared"
  | .AlreadyCleared => "AlreadyCleared"
  | .AlreadySettled => "AlreadySettled"
  | .RoundVoided => "RoundVoided"
  | .NotVoidable => "NotVoidable"
  | .WrongStatus => "WrongStatus"
  | .InvalidDrandSignature => "InvalidDrandSignature"
  | .HashMismatch => "HashMismatch"
  | .AlreadyRevealed => "AlreadyRevealed"
  | .PayloadTooLarge => "PayloadTooLarge"
  | .InvalidAmount => "InvalidAmount"
  | .BidExceedsEscrow => "BidExceedsEscrow"
  | .DeadlineInPast => "DeadlineInPast"
  | .NoValidBids => "NoValidBids"
  | .RoundFull => "RoundFull"
  | .InvalidLimit => "InvalidLimit"
  | .UnsupportedVersion => "UnsupportedVersion"
  | .MalformedPayload => "MalformedPayload"
  | .EscrowNotAllowed => "EscrowNotAllowed"
  | .RoundDurationTooLong => "RoundDurationTooLong"
  | .ParticipantNotEligible => "ParticipantNotEligible"
  | .EscrowPolicyMismatch => "EscrowPolicyMismatch"
  | .InvalidRevealPolicy => "InvalidRevealPolicy"
  | .RevealPolicyMissing => "RevealPolicyMissing"

/-- The table `Errors` of the bindings. -/
def contractErrors : List Error :=
  [.NotInitialized, .AlreadyInitialized, .RoundNotFound, .BidNotFound, .CommitClosed,
    .CommitNotClosed, .CommitDeadlineAfterReveal, .RevealNotOpen, .RevealAlreadyOpen,
    .RevealWindowClosed, .RevealStillOpen, .NotCleared, .AlreadyCleared, .AlreadySettled,
    .RoundVoided, .NotVoidable, .WrongStatus, .InvalidDrandSignature, .HashMismatch,
    .AlreadyRevealed, .PayloadTooLarge, .InvalidAmount, .BidExceedsEscrow, .DeadlineInPast,
    .NoValidBids, .RoundFull, .InvalidLimit, .UnsupportedVersion, .MalformedPayload,
    .EscrowNotAllowed, .RoundDurationTooLong, .ParticipantNotEligible, .EscrowPolicyMismatch,
    .InvalidRevealPolicy, .RevealPolicyMissing]

/-- `RoundErrors[code]?.message`. -/
def roundErrors (code : Nat) : Option String :=
  (contractErrors.find? fun e => e.code = code).map Error.name

end SubRosa

namespace SubRosa.Keeper

open JavaScript

/-- One error of a chain of causes: its `errorName`, and its `JSON.stringify` unless that throws. -/
structure Cause where
  name : String
  json : Option String
  deriving DecidableEq

/-- The error a promise rejects with, and its causes in order. -/
structure Rejection where
  error : Cause
  causes : List Cause
  deriving DecidableEq

def errorName (e : Rejection) : String := e.error.name

def Cause.blob (c : Cause) : String :=
  match c.json with
  | some json => c.name ++ " " ++ json
  | none => c.name

/-- `blob.includes(name)`. -/
def includes (blob name : String) : Bool := decide (name.toList <:+: blob.toList)

/-- The code at the start of a text of the form `Error(Contract, #code)`. -/
def codeAt (cs : List Char) : Option Nat :=
  let start := "Error(Contract,".toList
  if start.isPrefixOf cs then
    match (cs.drop start.length).dropWhile isWhiteSpace with
    | '#' :: rest =>
      let code := rest.takeWhile isDecimalDigit
      if (rest.drop code.length).head? = some ')' then digits? code else none
    | _ => none
  else none

/-- The first match of `/Error\(Contract,\s*#(\d+)\)/`. -/
def contractCode : List Char → Option Nat
  | [] => none
  | c :: cs =>
    match codeAt (c :: cs) with
    | some code => some code
    | none => contractCode cs

def Cause.matches (c : Cause) (names : List String) : Bool :=
  names.any (includes c.blob) ||
    ((contractCode c.blob.toList).bind roundErrors).any fun name => names.contains name

/-- Some error of the chain names one of `names`, in its text or by its code. -/
def errorMatches (e : Rejection) (names : List String) : Bool :=
  (e.error :: e.causes).any fun c => c.matches names

/-- The rejection of an error thrown without a cause. -/
def Rejection.ofThrown (engine : Engine) (e : Thrown) : Rejection :=
  ⟨⟨e.text engine, some "{}"⟩, []⟩

/-! ## Which error a rejection reports -/

/-- The rejection names this contract error, by its name or its code, and no other. -/
structure Reports (r : Rejection) (e : Error) : Prop where
  named : ∃ c ∈ r.error :: r.causes,
    includes c.blob e.name = true ∨ contractCode c.blob.toList = some e.code
  only : ∀ c ∈ r.error :: r.causes, ∀ e', includes c.blob (Error.name e') = true → e' = e
  code : ∀ c ∈ r.error :: r.causes, ∀ n, contractCode c.blob.toList = some n → n = e.code

theorem roundErrors_code (e : Error) : roundErrors e.code = some e.name := by cases e <;> rfl

theorem name_injective : Function.Injective Error.name := by
  intro e e' h
  have hcode : (contractErrors.find? fun x => x.name = e.name) =
      contractErrors.find? fun x => x.name = e'.name := by rw [h]
  have hfind : ∀ x : Error, (contractErrors.find? fun y => y.name = x.name) = some x := by
    intro x
    cases x <;> decide
  rw [hfind, hfind, Option.some_inj] at hcode
  exact hcode

/-- On names of contract errors a match is membership. -/
theorem Reports.errorMatches_iff {r : Rejection} {e : Error} (h : Reports r e) {es : List Error} :
    errorMatches r (es.map Error.name) = true ↔ e ∈ es := by
  rw [errorMatches, List.any_eq_true]
  constructor
  · rintro ⟨c, hc, hmatch⟩
    rw [Cause.matches, Bool.or_eq_true] at hmatch
    rcases hmatch with hmatch | hmatch
    · obtain ⟨name, hname, hincludes⟩ := List.any_eq_true.mp hmatch
      obtain ⟨e', he', rfl⟩ := List.mem_map.mp hname
      rwa [← h.only c hc e' hincludes]
    · obtain ⟨name, hname, hcontains⟩ := Option.any_eq_true _ _ |>.mp hmatch
      obtain ⟨code, hcode, hround⟩ := Option.bind_eq_some_iff.mp hname
      rw [h.code c hc code hcode, roundErrors_code, Option.some_inj] at hround
      subst hround
      obtain ⟨e', he', hname'⟩ := List.mem_map.mp (List.contains_iff_mem.mp hcontains)
      rwa [← name_injective hname']
  · intro he
    obtain ⟨c, hc, hnamed⟩ := h.named
    refine ⟨c, hc, ?_⟩
    have hmem : e.name ∈ es.map Error.name := List.mem_map_of_mem he
    rw [Cause.matches, Bool.or_eq_true]
    rcases hnamed with hname | hcode
    · exact Or.inl (List.any_eq_true.mpr ⟨e.name, hmem, hname⟩)
    · refine Or.inr ?_
      rw [hcode, Option.bind_some, roundErrors_code, Option.any_some]
      exact List.contains_iff_mem.mpr hmem

/-- How a simulation shows a contract error. -/
def codeChars (code : Nat) : List Char :=
  ['E', 'r', 'r', 'o', 'r', '(', 'C', 'o', 'n', 't', 'r', 'a', 'c', 't', ',', ' ', '#'] ++
    Nat.toDigits 10 code ++ [')']

def codeCause (e : Error) : Cause := ⟨String.ofList (codeChars e.code), none⟩

/-- The characters of such a text, whatever the code. -/
def plainChars : List Char :=
  ['E', 'r', 'o', '(', 'C', 'n', 't', 'a', 'c', ',', ' ', '#', ')', '0', '1', '2', '3', '4', '5',
    '6', '7', '8', '9']

theorem codeCause_blob (e : Error) : (codeCause e).blob.toList = codeChars e.code :=
  String.toList_ofList ..

theorem codeChars_plain (e : Error) : ∀ c ∈ codeChars e.code, c ∈ plainChars := by
  have hall : (codeChars e.code).all (fun c => plainChars.contains c) = true := by
    cases e <;> decide
  intro c hc
  exact List.contains_iff_mem.mp (List.all_eq_true.mp hall c hc)

theorem name_chars (e : Error) : ∃ c ∈ e.name.toList, c ∉ plainChars := by
  have hany : e.name.toList.any (fun c => !plainChars.contains c) = true := by
    cases e <;> decide
  obtain ⟨c, hc, hnot⟩ := List.any_eq_true.mp hany
  refine ⟨c, hc, fun hmem => ?_⟩
  rw [List.contains_iff_mem.mpr hmem] at hnot
  cases hnot

theorem contractCode_chars (e : Error) : contractCode (codeChars e.code) = some e.code := by
  cases e <;> rfl

theorem reports_codeCause (e : Error) : Reports ⟨codeCause e, []⟩ e := by
  have hcode : contractCode (codeCause e).blob.toList = some e.code := by
    rw [codeCause_blob, contractCode_chars]
  refine ⟨⟨_, List.mem_cons_self, Or.inr hcode⟩, ?_, ?_⟩
  · intro c hc e' h
    obtain rfl := List.mem_singleton.mp hc
    obtain ⟨x, hx, hnot⟩ := name_chars e'
    have hmem := (of_decide_eq_true h).subset hx
    rw [codeCause_blob] at hmem
    exact absurd (codeChars_plain e x hmem) hnot
  · intro c hc n h
    obtain rfl := List.mem_singleton.mp hc
    exact (Option.some_inj.mp (hcode.symm.trans h)).symm

/-- Every contract error has a rejection that reports it. -/
theorem exists_reports (e : Error) : ∃ r, Reports r e := ⟨_, reports_codeCause e⟩

/-- A rejection reports one error only. -/
theorem Reports.unique {r : Rejection} {e e' : Error} (h : Reports r e) (h' : Reports r e') :
    e' = e := by
  have hmatch : errorMatches r ([e].map Error.name) = true :=
    h.errorMatches_iff.mpr (List.mem_singleton_self e)
  exact List.mem_singleton.mp (h'.errorMatches_iff.mp hmatch)

end SubRosa.Keeper
