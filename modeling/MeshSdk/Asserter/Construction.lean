import MeshSdk.Asserter.Ordering

/-!
# The asserter: construction responses and errors

The checks of `asserter/construction.go`: the construction API's responses, and the signature
checks that `Signatures` runs; and `Asserter.Error` of `asserter/error.go`.

`BytesArrayZero`, `AccountArray`, `AssertUniqueAmounts` and the package's structural `Error`
check are not among the repository's files; they are the parameters `bytesArrayZero`,
`accountArray`, `assertUniqueAmounts` and `errorCheck`.

* `signatures_eq_ok`: `Signatures` passes exactly when the list is non-empty and every
  signature passes one iteration of its loop.
* `constructionParseResponse_eq_ok`: what `ConstructionParseResponse` checks; and
  `constructionParseResponse_certified`: **a parsed transaction is a non-empty list of present
  operations in order, none with a status, with signers exactly when it is signed**.
* `Asserter.error_eq_ok`: in lenient mode only the structural check is made; in strict mode the
  code must be in the catalogue with the same message and retriable flag.
-/

namespace MeshSdk.Asserter

open Types

section Signatures

variable (bytesArrayZero : List UInt8 → Bool)

/-- `SignatureType`. -/
def signatureType (signature : String) : Check :=
  if signature ∈ signatureTypes then pure () else fail .signatureTypeNotSupported

/-- `CurveType`. -/
def curveType (curve : String) : Check :=
  if curve ∈ curveTypes then pure () else fail .curveTypeNotSupported

/-- `PublicKey`. -/
def publicKey : Option PublicKey → Check
  | none => fail .publicKeyIsNil
  | some k =>
    if k.bytes.length = 0 then fail .publicKeyBytesEmpty
    else if bytesArrayZero k.bytes then fail .publicKeyBytesZero
    else curveType k.curveType

/-- `SigningPayload`; the signature type is checked only when it is set. -/
def signingPayload : Option SigningPayload → Check
  | none => fail .signingPayloadIsNil
  | some p => do
    accountIdentifier p.accountIdentifier
    if p.bytes.length = 0 then fail .signingPayloadBytesEmpty
    else if bytesArrayZero p.bytes then fail .signingPayloadBytesZero
    else if p.signatureType.length = 0 then pure ()
    else signatureType p.signatureType

/-- The requested signature type, if set, is the returned one (the comparison of `Signatures`,
made once the payload is known to be present). -/
def signatureTypeMatch (requested returned : String) : Check :=
  if requested.length > 0 ∧ requested ≠ returned then fail .signaturesReturnedSigMismatch
  else pure ()

/-- One iteration of the loop of `Signatures`. -/
def signature : Option Signature → Check
  | none => crash .nilDereference
  | some s => do
    signingPayload bytesArrayZero s.signingPayload
    publicKey bytesArrayZero s.publicKey
    signatureType s.signatureType
    match s.signingPayload with
    | none => crash .nilDereference
    | some p => do
      signatureTypeMatch p.signatureType s.signatureType
      if s.bytes.length = 0 then fail .signatureBytesEmpty
      else if bytesArrayZero s.bytes then fail .signatureBytesZero
      else pure ()

/-- `Signatures`. -/
def signatures (sigs : List (Option Signature)) : Check :=
  if sigs.length = 0 then fail .signaturesEmpty else checkEach (signature bytesArrayZero) sigs

theorem signatures_eq_ok {sigs : List (Option Signature)} :
    signatures bytesArrayZero sigs = .ok () ↔
      sigs ≠ [] ∧ ∀ s ∈ sigs, signature bytesArrayZero s = .ok () := by
  unfold signatures
  split_ifs <;> simp_all

end Signatures

/-! ## Construction responses -/

section Responses

variable (bytesArrayZero : List UInt8 → Bool)
  (accountArray : String → List (Option AccountIdentifier) → Check)
  (assertUniqueAmounts : List (Option Amount) → Check)

/-- `Asserter.ConstructionParseResponse`: the operations, checked by `Operations` in
construction, then the signers, present exactly when the transaction is signed. -/
def constructionParseResponse (a : Asserter) (response : Option ConstructionParseResponse)
    (signed : Bool) : Check :=
  match response with
  | none => fail .constructionParseResponseIsNil
  | some r =>
    if r.operations.length = 0 then fail .constructionParseResponseOperationsEmpty
    else do
      a.operations r.operations true
      if signed ∧ r.accountIdentifierSigners.length = 0 then
        fail .constructionParseResponseSignersEmptyOnSignedTx
      else if !signed ∧ r.accountIdentifierSigners.length > 0 then
        fail .constructionParseResponseSignersNonEmptyOnUnsignedTx
      else do
        checkEach accountIdentifier r.accountIdentifierSigners
        if r.accountIdentifierSigners.length > 0 then
          accountArray "signers" r.accountIdentifierSigners
        else pure ()

theorem constructionParseResponse_eq_ok {a : Asserter}
    {response : Option ConstructionParseResponse} {signed : Bool} :
    a.constructionParseResponse accountArray response signed = .ok () ↔ ∃ r, response = some r ∧
      r.operations ≠ [] ∧ a.operations r.operations true = .ok () ∧
      (r.accountIdentifierSigners ≠ [] ↔ signed = true) ∧
      (∀ s ∈ r.accountIdentifierSigners, accountIdentifier s = .ok ()) ∧
      (r.accountIdentifierSigners ≠ [] →
        accountArray "signers" r.accountIdentifierSigners = .ok ()) := by
  rcases response with _ | r
  · simp [constructionParseResponse]
  · unfold constructionParseResponse
    by_cases hOps : r.operations = []
    · simp [hOps]
    · rcases hSigners : r.accountIdentifierSigners with _ | ⟨s, ss⟩ <;> cases signed <;>
        simp [hOps, hSigners]

/-- **What a parsed transaction is.**  If `ConstructionParseResponse` passes, the response holds
a non-empty list of present operations, the one at position `i` with identifier index `i`,
related operations before it and no status; it has signers exactly when the transaction is
signed, each a valid account identifier. -/
theorem constructionParseResponse_certified {a : Asserter}
    {response : Option ConstructionParseResponse} {signed : Bool}
    (h : a.constructionParseResponse accountArray response signed = .ok ()) :
    ∃ r, response = some r ∧ r.operations ≠ [] ∧
      (∀ i (hi : i < r.operations.length), ∃ o, r.operations[i] = some o ∧ o.OrderedAt i ∧
        o.status.getD "" = "") ∧
      (r.accountIdentifierSigners ≠ [] ↔ signed = true) ∧
      ∀ s ∈ r.accountIdentifierSigners, ∃ acc, s = some acc ∧ acc.Valid := by
  obtain ⟨r, rfl, hOps, hOperations, hSigned, hSigners, -⟩ :=
    (constructionParseResponse_eq_ok accountArray).mp h
  obtain ⟨-, t, hLoop, -⟩ := operations_eq_ok.mp hOperations
  refine ⟨r, rfl, hOps, fun i hi => ?_, hSigned,
    fun s hs => accountIdentifier_eq_ok.mp (hSigners s hs)⟩
  simpa using operationsLoop_ok
    (P := fun i op => ∃ o, op = some o ∧ o.OrderedAt i ∧ o.status.getD "" = "")
    (fun _ _ _ _ hStep => by
      obtain ⟨o, rfl, hOrdered⟩ := operationsStep_orderedAt hStep
      obtain ⟨_, -, hOp, -⟩ := operationsStep_eq_ok.mp hStep
      obtain ⟨_, ho, -, -, hStatus, -⟩ := operation_eq_ok.mp hOp
      cases ho
      exact ⟨o, rfl, hOrdered, by simpa using operationStatus_eq_ok.mp hStatus⟩) hLoop i hi

end Responses

/-- A signed transfer as a construction API parses it: a debit of 5 at index `0`, without a
status, and its signer. -/
def parsedTransfer : ConstructionParseResponse where
  operations :=
    [some { operationIdentifier := some {}, type := "TRANSFER", account := some { address := "alice" }
            amount := some { value := "-5", currency := some { symbol := "ETH", decimals := 18 } } }]
  accountIdentifierSigners := [some { address := "alice" }]

/-- The signed transfer passes a lenient asserter, and is certified. -/
theorem constructionParseResponse_certified_signed :
    ({ ignoreRosettaSpecValidation := true } : Asserter).constructionParseResponse
        (fun _ _ => pure ()) (some parsedTransfer) true = .ok () ∧
      ∃ r, some parsedTransfer = some r ∧ r.operations ≠ [] ∧
        (∀ i (hi : i < r.operations.length), ∃ o, r.operations[i] = some o ∧ o.OrderedAt i ∧
          o.status.getD "" = "") ∧
        (r.accountIdentifierSigners ≠ [] ↔ true = true) ∧
        ∀ s ∈ r.accountIdentifierSigners, ∃ acc, s = some acc ∧ acc.Valid :=
  have h : ({ ignoreRosettaSpecValidation := true } : Asserter).constructionParseResponse
      (fun _ _ => pure ()) (some parsedTransfer) true = .ok () := rfl
  ⟨h, constructionParseResponse_certified _ h⟩

section Error

variable (errorCheck : Option Types.Error → Check)

/-- `Asserter.Error`: the structural check, then, in strict mode, the catalogue entry for the
code, whose message and retriable flag must be the error's. -/
def error (a : Asserter) (err : Option Types.Error) : Check := do
  errorCheck err
  if a.ignoreRosettaSpecValidation then pure ()
  else match err with
    | none => crash .nilDereference
    | some e =>
      match a.errorTypeMap.lookup e.code with
      | none => fail .errorUnexpectedCode
      | some val =>
        if val.message ≠ e.message then fail .errorMessageMismatch
        else if val.retriable ≠ e.retriable then fail .errorRetriableMismatch
        else pure ()

theorem error_eq_ok {a : Asserter} {err : Option Types.Error} :
    a.error errorCheck err = .ok () ↔ errorCheck err = .ok () ∧
      (a.ignoreRosettaSpecValidation = false → ∃ e, err = some e ∧
        ∃ val, a.errorTypeMap.lookup e.code = some val ∧
          val.message = e.message ∧ val.retriable = e.retriable) := by
  unfold error
  rcases hIgnore : a.ignoreRosettaSpecValidation
  · rcases err with _ | e
    · simp
    · rcases hVal : a.errorTypeMap.lookup e.code with _ | val
      · simp [hVal]
      · by_cases hm : val.message = e.message <;> by_cases hr : val.retriable = e.retriable <;>
          simp [hVal, hm, hr]
  · simp

end Error

end MeshSdk.Asserter
