import MeshSdk.Types

/-!
# The asserter: its configuration and the checks of single records

`asserter/block.go` checks records one at a time before `Operations`, `Transaction` and `Block`
compose the checks.  This file models the configuration those checks read and the checks of
single records, each followed by the lemma saying exactly when it passes:

* `currency_eq_ok`, `amount_eq_ok`, `accountIdentifier_eq_ok`, `blockIdentifier_eq_ok`,
  `transactionIdentifier_eq_ok`: these checks pass exactly on the records that are `Valid`.
* `operationIdentifier_eq_ok`: the identifier is present, has the expected index and a
  non-negative network index.
* `Asserter.operationType_eq_ok`, `Asserter.operationStatus_eq_ok`: the catalogue checks, which
  the lenient mode (`ignoreRosettaSpecValidation`) skips.
* `timestamp_eq_ok`, `direction_eq_ok`, `coinChange_eq_ok`.

An error is the sentinel the Go code wraps with `%w` (what `errors.Is` finds); the wrapping
texts print records with `types.PrintStruct`, which is not in the repository, and are left out.
The asserter itself is never `nil` here, so the `a == nil` branches are left out too.
-/

namespace MeshSdk

open Types

namespace Asserter

/-- The asserter's sentinel errors that the modelled functions return. -/
inductive AssertError where
  | amountCurrencyIsNil
  | amountCurrencySymbolEmpty
  | amountCurrencyHasNegDecimals
  | amountValueMissing
  | amountIsNotInt
  | operationIdentifierIndexIsNil
  | operationIdentifierIndexOutOfOrder
  | operationIdentifierNetworkIndexInvalid
  | accountIsNil
  | accountAddrMissing
  | accountSubAccountAddrMissing
  | operationStatusMissing
  | operationStatusNotEmptyForConstruction
  | operationStatusInvalid
  | operationTypeInvalid
  | operationIsNil
  | coinIdentifierIsNil
  | coinActionInvalid
  | blockIdentifierIsNil
  | blockIdentifierHashMissing
  | blockIdentifierIndexIsNeg
  | partialBlockIdentifierIsNil
  | partialBlockIdentifierHashIsEmpty
  | partialBlockIdentifierIndexIsNegative
  | txIdentifierIsNil
  | txIdentifierHashMissing
  | noOperationsForConstruction
  | relatedOperationInFeeNotAllowed
  /-- The error `types.BigInt` returns on a value that is not an integer. -/
  | notAnInteger
  | feeAmountNotNegative
  | relatedOperationIndexOutOfOrder
  | relatedOperationIndexDuplicate
  | relatedOperationMissing
  | paymentCountMismatch
  | paymentAmountNotBalancing
  | feeCountMismatch
  | txIsNil
  | duplicateRelatedTransaction
  | invalidDirection
  | timestampBeforeMin
  | timestampAfterMax
  | blockIsNil
  | blockHashEqualsParentBlockHash
  | blockIndexPrecedesParentBlockIndex
  | errorUnexpectedCode
  | errorMessageMismatch
  | errorRetriableMismatch
  | signaturesEmpty
  | signaturesReturnedSigMismatch
  | signatureBytesEmpty
  | signatureBytesZero
  | signatureTypeNotSupported
  | signingPayloadIsNil
  | signingPayloadBytesEmpty
  | signingPayloadBytesZero
  | publicKeyIsNil
  | publicKeyBytesEmpty
  | publicKeyBytesZero
  | curveTypeNotSupported
  | constructionPreprocessResponseIsNil
  | constructionMetadataResponseIsNil
  | constructionMetadataResponseMetadataMissing
  | txIdentifierResponseIsNil
  | constructionCombineResponseIsNil
  | signedTxEmpty
  | constructionDeriveResponseIsNil
  | constructionParseResponseIsNil
  | constructionParseResponseOperationsEmpty
  | constructionParseResponseSignersEmptyOnSignedTx
  | constructionParseResponseSignersNonEmptyOnUnsignedTx
  | constructionPayloadsResponseIsNil
  | constructionPayloadsResponseUnsignedTxEmpty
  | constructionPayloadsResponsePayloadsEmpty
  deriving DecidableEq, Repr

/-- A Go check `func(...) error`: `nil`, an error, or a panic. -/
abbrev Check := Except (Fault AssertError) Unit

/-! ## Configuration -/

/-- The count and balance constraint of a payment or fee rule; a count of `-1` is any count. -/
structure RuleOperation where
  count : Int := 0
  shouldBalance : Bool := false
  deriving DecidableEq, Repr

/-- A payment or fee rule: the operation type it applies to and its constraint. -/
structure ValidationOperation where
  name : String := ""
  operation : RuleOperation := {}
  deriving DecidableEq, Repr

/-- The payment and fee profile `validations`. -/
structure Validations where
  enabled : Bool := false
  relatedOpsExists : Bool := false
  chainType : String := ""
  payment : ValidationOperation := {}
  fee : ValidationOperation := {}
  deriving DecidableEq, Repr

/-- The chain type `Account`, for which payments and fees are balanced. -/
def account : String := "account"

end Asserter

/-- The `Asserter` fields the modelled methods read.  Of `operationStatusMap` only the keys are
read (whether a status is known), not whether it counts as successful. -/
structure Asserter where
  operationTypes : List String := []
  operationStatusMap : List String := []
  errorTypeMap : List (Int × Types.Error) := []
  genesisBlock : Option BlockIdentifier := none
  timestampStartIndex : Int := 0
  validations : Asserter.Validations := {}
  ignoreRosettaSpecValidation : Bool := false
  deriving DecidableEq, Repr


/-! ## What the checks accept -/

namespace Types

/-- A currency as `Currency` accepts it. -/
@[mk_iff] structure Currency.Valid (c : Currency) : Prop where
  symbol_ne : c.symbol ≠ ""
  decimals_nonneg : 0 ≤ c.decimals

/-- An amount as `Amount` accepts it: an integer value and a valid currency. -/
@[mk_iff] structure Amount.Valid (a : Amount) : Prop where
  value_isInt : (parseBigInt a.value).isSome
  currency_valid : ∃ c, a.currency = some c ∧ c.Valid

/-- An account as `AccountIdentifier` accepts it. -/
@[mk_iff] structure AccountIdentifier.Valid (a : AccountIdentifier) : Prop where
  address_ne : a.address ≠ ""
  subAccount_address_ne : ∀ s, a.subAccount = some s → s.address ≠ ""

/-- A block identifier as `BlockIdentifier` accepts it. -/
@[mk_iff] structure BlockIdentifier.Valid (b : BlockIdentifier) : Prop where
  hash_ne : b.hash ≠ ""
  index_nonneg : 0 ≤ b.index

end Types

namespace Asserter

/-! ## Currencies, amounts and identifiers -/

/-- `Currency`. -/
def currency : Option Currency → Check
  | none => fail .amountCurrencyIsNil
  | some c =>
    if c.symbol = "" then fail .amountCurrencySymbolEmpty
    else if c.decimals < 0 then fail .amountCurrencyHasNegDecimals
    else pure ()

theorem currency_eq_ok {c : Option Currency} :
    currency c = .ok () ↔ ∃ x, c = some x ∧ x.Valid := by
  rcases c with _ | x
  · simp [currency]
  · simp only [currency, Currency.valid_iff]
    split_ifs <;> simp_all

/-- `Amount`: a non-empty value that is a base-10 integer, and a valid currency. -/
def amount : Option Amount → Check
  | none => fail .amountValueMissing
  | some a =>
    if a.value = "" then fail .amountValueMissing
    else if (parseBigInt a.value).isNone then fail .amountIsNotInt
    else currency a.currency

theorem amount_eq_ok {a : Option Amount} : amount a = .ok () ↔ ∃ x, a = some x ∧ x.Valid := by
  rcases a with _ | x
  · simp [amount]
  · simp only [amount, Amount.valid_iff, ← currency_eq_ok]
    split_ifs with hEmpty hInt
    · simp [hEmpty, parseBigInt_empty]
    · simp_all
    · simp_all [Option.isSome_iff_ne_none]

/-- `OperationIdentifier`: the identifier is present, carries the expected `index`, and its
network index, if any, is not negative. -/
def operationIdentifier (identifier : Option OperationIdentifier) (index : Int) : Check :=
  match identifier with
  | none => fail .operationIdentifierIndexIsNil
  | some id =>
    if id.index ≠ index then fail .operationIdentifierIndexOutOfOrder
    else if ∃ n, id.networkIndex = some n ∧ n < 0 then
      fail .operationIdentifierNetworkIndexInvalid
    else pure ()

theorem operationIdentifier_eq_ok {identifier : Option OperationIdentifier} {index : Int} :
    operationIdentifier identifier index = .ok () ↔ ∃ id, identifier = some id ∧
      id.index = index ∧ ∀ n, id.networkIndex = some n → 0 ≤ n := by
  rcases identifier with _ | id
  · simp [operationIdentifier]
  · simp only [operationIdentifier]
    split_ifs <;> simp_all

/-- `AccountIdentifier`. -/
def accountIdentifier : Option AccountIdentifier → Check
  | none => fail .accountIsNil
  | some a =>
    if a.address = "" then fail .accountAddrMissing
    else match a.subAccount with
      | none => pure ()
      | some s => if s.address = "" then fail .accountSubAccountAddrMissing else pure ()

theorem accountIdentifier_eq_ok {a : Option AccountIdentifier} :
    accountIdentifier a = .ok () ↔ ∃ x, a = some x ∧ x.Valid := by
  rcases a with _ | ⟨address, _ | sub⟩
  · simp [accountIdentifier]
  · by_cases h : address = "" <;> simp [accountIdentifier, AccountIdentifier.valid_iff, h]
  · by_cases h : address = "" <;> by_cases h' : sub.address = "" <;>
      simp [accountIdentifier, AccountIdentifier.valid_iff, h, h']

/-! ## Catalogue checks -/

/-- `containsString` and `containsInt64`: Go's linear search of `valid` for `value`. -/
def linearContains {α : Type} [DecidableEq α] : List α → α → Bool
  | [], _ => false
  | v :: valid, value => if v = value then true else linearContains valid value

@[simp] theorem linearContains_eq_true {α : Type} [DecidableEq α] {valid : List α} {value : α} :
    linearContains valid value = true ↔ value ∈ valid := by
  induction valid with
  | nil => simp [linearContains]
  | cons v valid ih =>
    by_cases h : v = value
    · simp [linearContains, h]
    · simp [linearContains, h, ih, Ne.symm h]

@[simp] theorem linearContains_eq_false {α : Type} [DecidableEq α] {valid : List α}
    {value : α} : linearContains valid value = false ↔ value ∉ valid := by
  rw [← linearContains_eq_true, Bool.not_eq_true]

/-- `containsString`. -/
def containsString (valid : List String) (value : String) : Bool := linearContains valid value

/-- `containsInt64`. -/
def containsInt64 (valid : List Int) (value : Int) : Bool := linearContains valid value

/-- `Asserter.OperationStatus`.  A nil or empty status is right only in construction, where the
field is deprecated; otherwise a status must be given, and be known unless the asserter is
lenient. -/
def operationStatus (a : Asserter) (status : Option String) (construction : Bool) : Check :=
  if status.getD "" = "" then
    if construction then pure () else fail .operationStatusMissing
  else if construction then fail .operationStatusNotEmptyForConstruction
  else if !a.ignoreRosettaSpecValidation ∧ status.getD "" ∉ a.operationStatusMap then
    fail .operationStatusInvalid
  else pure ()

theorem operationStatus_eq_ok {a : Asserter} {status : Option String} {construction : Bool} :
    a.operationStatus status construction = .ok () ↔
      if construction then status.getD "" = ""
      else status.getD "" ≠ "" ∧
        (a.ignoreRosettaSpecValidation = false → status.getD "" ∈ a.operationStatusMap) := by
  unfold operationStatus
  split_ifs <;> simp_all

/-- `Asserter.OperationType`: a type is given, and known unless the asserter is lenient. -/
def operationType (a : Asserter) (t : String) : Check :=
  if t = "" ∨ (!a.ignoreRosettaSpecValidation ∧ !containsString a.operationTypes t) then
    fail .operationTypeInvalid
  else pure ()

theorem operationType_eq_ok {a : Asserter} {t : String} :
    a.operationType t = .ok () ↔
      t ≠ "" ∧ (a.ignoreRosettaSpecValidation = false → t ∈ a.operationTypes) := by
  unfold operationType containsString
  split_ifs with h
  · simpa [or_iff_not_imp_left] using h
  · simp_all

/-! ## Blocks, transactions, timestamps and directions -/

/-- `BlockIdentifier`. -/
def blockIdentifier : Option BlockIdentifier → Check
  | none => fail .blockIdentifierIsNil
  | some b =>
    if b.hash = "" then fail .blockIdentifierHashMissing
    else if b.index < 0 then fail .blockIdentifierIndexIsNeg
    else pure ()

theorem blockIdentifier_eq_ok {b : Option BlockIdentifier} :
    blockIdentifier b = .ok () ↔ ∃ x, b = some x ∧ x.Valid := by
  rcases b with _ | x
  · simp [blockIdentifier]
  · simp only [blockIdentifier, BlockIdentifier.valid_iff]
    split_ifs <;> simp_all

/-- `PartialBlockIdentifier`. -/
def partialBlockIdentifier : Option PartialBlockIdentifier → Check
  | none => fail .partialBlockIdentifierIsNil
  | some b =>
    if b.hash = some "" then fail .partialBlockIdentifierHashIsEmpty
    else if ∃ i, b.index = some i ∧ i < 0 then fail .partialBlockIdentifierIndexIsNegative
    else pure ()

/-- `TransactionIdentifier`. -/
def transactionIdentifier : Option TransactionIdentifier → Check
  | none => fail .txIdentifierIsNil
  | some t => if t.hash = "" then fail .txIdentifierHashMissing else pure ()

theorem transactionIdentifier_eq_ok {t : Option TransactionIdentifier} :
    transactionIdentifier t = .ok () ↔ ∃ x, t = some x ∧ x.hash ≠ "" := by
  rcases t with _ | x
  · simp [transactionIdentifier]
  · by_cases h : x.hash = "" <;> simp [transactionIdentifier, h]

/-- `MinUnixEpoch`: 01/01/2000 at 12:00:00 AM, in milliseconds. -/
def minUnixEpoch : Int := 946713600000

/-- `MaxUnixEpoch`: 01/01/2040 at 12:00:00 AM, in milliseconds. -/
def maxUnixEpoch : Int := 2209017600000

/-- `Timestamp`. -/
def timestamp (t : Int) : Check :=
  if t < minUnixEpoch then fail .timestampBeforeMin
  else if t > maxUnixEpoch then fail .timestampAfterMax
  else pure ()

theorem timestamp_eq_ok {t : Int} :
    timestamp t = .ok () ↔ minUnixEpoch ≤ t ∧ t ≤ maxUnixEpoch := by
  unfold timestamp
  split_ifs <;> simp_all

/-- `Asserter.Direction`, which reads nothing of the asserter. -/
def direction (d : String) : Check :=
  if d ≠ forward ∧ d ≠ backward then fail .invalidDirection else pure ()

theorem direction_eq_ok {d : String} : direction d = .ok () ↔ d = forward ∨ d = backward := by
  by_cases hf : d = forward <;> by_cases hb : d = backward <;> simp [direction, hf, hb]

/-- Modelled from the spec: the asserter's `CoinChange` check, which `Operation` calls, is not in
the repository.  A coin change names a coin and carries one of the two coin actions, create or
spend. -/
def coinChange (change : CoinChange) : Check :=
  match change.coinIdentifier with
  | none => fail .coinIdentifierIsNil
  | some _ =>
    if change.coinAction ≠ coinCreated ∧ change.coinAction ≠ coinSpent then
      fail .coinActionInvalid
    else pure ()

end Asserter
end MeshSdk
