import MeshSdk.Go

/-!
# The data records

The records of the `types` package that the asserter and the parser read, as the data model of
spec §3 gives them.  Go's records carry more than that model: metadata maps, an error's
description and details, the options of the construction responses.  Those fields are left
out.  The code compares currencies and related transactions by `types.Hash`, a serialization
of the whole record; here that comparison is the parameter `hash`, a function of the record as
modelled, so two records that differ only in a left-out field are one record to it.

A Go pointer or an optional field is an `Option`, `none` being `nil`; each field's default is
Go's zero value, so `{ type := "TRANSFER" }` is the operation with only its type set.
A slice whose `nil`-ness the code tests (`op.RelatedOperations != nil`) is an `Option` of a
list; slices the code only ranges over are lists, a `nil` element being `none`.
Integers (`int64`, `int32`) are `Int`: the code only compares them and adds them as `big.Int`.

`types.AmountValue` and `types.BigInt` are not among the repository's files; they are given
here from what the spec says of amounts.
-/

namespace MeshSdk.Types

/-- `types.Currency`, as spec §3 gives it: `{symbol, decimals}`, without Go's metadata. -/
structure Currency where
  symbol : String := ""
  decimals : Int := 0
  deriving DecidableEq, Repr

/-- `types.Amount`. -/
structure Amount where
  value : String := ""
  currency : Option Currency := none
  deriving DecidableEq, Repr

/-- A `reflect.Kind`, Go's unsigned code of the kind of a dynamic value. -/
structure Kind where
  code : Nat
  deriving DecidableEq, Repr

/-- A `map[string]interface{}` metadata object.  A value is given by what the parser reads of
it, its kind: `none` is a JSON `null`, the nil interface, which has no kind. -/
abbrev Metadata := List (String × Option Kind)

/-- `types.SubAccountIdentifier`. -/
structure SubAccountIdentifier where
  address : String := ""
  metadata : Metadata := []
  deriving DecidableEq, Repr

/-- `types.AccountIdentifier`, as spec §3 gives it: an address and an optional sub-account,
without Go's metadata. -/
structure AccountIdentifier where
  address : String := ""
  subAccount : Option SubAccountIdentifier := none
  deriving DecidableEq, Repr

/-- `types.OperationIdentifier`. -/
structure OperationIdentifier where
  index : Int := 0
  networkIndex : Option Int := none
  deriving DecidableEq, Repr

/-- `types.CoinIdentifier`. -/
structure CoinIdentifier where
  identifier : String := ""
  deriving DecidableEq, Repr

/-- `types.CoinChange`; the action is a `types.CoinAction` string. -/
structure CoinChange where
  coinIdentifier : Option CoinIdentifier := none
  coinAction : String := ""
  deriving DecidableEq, Repr

/-- `types.Operation`. -/
structure Operation where
  operationIdentifier : Option OperationIdentifier := none
  relatedOperations : Option (List (Option OperationIdentifier)) := none
  type : String := ""
  status : Option String := none
  account : Option AccountIdentifier := none
  amount : Option Amount := none
  coinChange : Option CoinChange := none
  metadata : Metadata := []
  deriving DecidableEq, Repr

/-- `types.TransactionIdentifier`. -/
structure TransactionIdentifier where
  hash : String := ""
  deriving DecidableEq, Repr

/-- `types.SubNetworkIdentifier`, its network only: spec §3 does not detail a related
transaction's network identifier, and Go's metadata is left out. -/
structure SubNetworkIdentifier where
  network : String := ""
  deriving DecidableEq, Repr

/-- `types.NetworkIdentifier`. -/
structure NetworkIdentifier where
  blockchain : String := ""
  network : String := ""
  subNetworkIdentifier : Option SubNetworkIdentifier := none
  deriving DecidableEq, Repr

/-- `types.RelatedTransaction`; the direction is a `types.Direction` string. -/
structure RelatedTransaction where
  networkIdentifier : Option NetworkIdentifier := none
  transactionIdentifier : Option TransactionIdentifier := none
  direction : String := ""
  deriving DecidableEq, Repr

/-- `types.Transaction`, as spec §3 gives it, without Go's metadata. -/
structure Transaction where
  transactionIdentifier : Option TransactionIdentifier := none
  operations : List (Option Operation) := []
  relatedTransactions : List (Option RelatedTransaction) := []
  deriving DecidableEq, Repr

/-- `types.BlockIdentifier`. -/
structure BlockIdentifier where
  index : Int := 0
  hash : String := ""
  deriving DecidableEq, Repr

/-- `types.PartialBlockIdentifier`. -/
structure PartialBlockIdentifier where
  index : Option Int := none
  hash : Option String := none
  deriving DecidableEq, Repr

/-- `types.Block`, as spec §3 gives it, without Go's metadata; the timestamp is in
milliseconds. -/
structure Block where
  blockIdentifier : Option BlockIdentifier := none
  parentBlockIdentifier : Option BlockIdentifier := none
  timestamp : Int := 0
  transactions : List (Option Transaction) := []
  deriving DecidableEq, Repr

/-- `types.Error`, as spec §3 gives it: `{code, message, retriable}`. -/
structure Error where
  code : Int := 0
  message : String := ""
  retriable : Bool := false
  deriving DecidableEq, Repr

/-- `types.PublicKey`; the curve is a `types.CurveType` string. -/
structure PublicKey where
  bytes : List UInt8 := []
  curveType : String := ""
  deriving DecidableEq, Repr

/-- `types.SigningPayload`; the signature type is a `types.SignatureType` string. -/
structure SigningPayload where
  accountIdentifier : Option AccountIdentifier := none
  bytes : List UInt8 := []
  signatureType : String := ""
  deriving DecidableEq, Repr

/-- `types.Signature`. -/
structure Signature where
  signingPayload : Option SigningPayload := none
  publicKey : Option PublicKey := none
  signatureType : String := ""
  bytes : List UInt8 := []
  deriving DecidableEq, Repr

/-! ## Construction responses -/

/-- `types.ConstructionParseResponse`, without its metadata. -/
structure ConstructionParseResponse where
  operations : List (Option Operation) := []
  accountIdentifierSigners : List (Option AccountIdentifier) := []
  deriving DecidableEq, Repr

/-- `types.Forward`. -/
def forward : String := "forward"
/-- `types.Backward`. -/
def backward : String := "backward"
/-- `types.CoinCreated`. -/
def coinCreated : String := "coin_created"
/-- `types.CoinSpent`. -/
def coinSpent : String := "coin_spent"

/-- The `types.SignatureType` values: `Ecdsa`, `EcdsaRecovery`, `Ed25519`, `Schnorr1`,
`SchnorrPoseidon`. -/
def signatureTypes : List String :=
  ["ecdsa", "ecdsa_recovery", "ed25519", "schnorr_1", "schnorr_poseidon"]

/-- The `types.CurveType` values: `Secp256k1`, `Secp256r1`, `Edwards25519`, `Tweedle`,
`Pallas`. -/
def curveTypes : List String := ["secp256k1", "secp256r1", "edwards25519", "tweedle", "pallas"]

/-! ## Amounts -/

/-- Modelled from the spec: `types.BigInt` is not in the repository.  An amount's value string
must parse as a base-10 integer (`big.Int.SetString`). -/
def bigInt (value : String) : Option Int := parseBigInt value

/-- Modelled from the spec: `types.AmountValue` is not in the repository.  The integer of an
amount, failing on a nil amount and on a value that is not a base-10 integer. -/
def amountValue : Option Amount → Option Int
  | none => none
  | some amount => parseBigInt amount.value

@[simp] theorem amountValue_none : amountValue none = none := rfl

@[simp] theorem amountValue_some (amount : Amount) :
    amountValue (some amount) = parseBigInt amount.value := rfl

end MeshSdk.Types
