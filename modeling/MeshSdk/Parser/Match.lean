import MeshSdk.Types

/-!
# The operation matcher

`parser/match_operations.go` as the code runs it.  `matchOperations` makes one left-to-right
pass over the operations (`matchLoop`); each operation is offered to the descriptions in order
by `operationMatch`, which skips a description already matched unless it allows repeats and
stops at the first one whose field checks all pass.  After the pass, every description that is
not optional must have a match (`matchedCheck`), and the group constraints are checked on the
groups (`comparisonMatch`).

Two places read `nil`: `metadataMatch` asks the kind of a metadata value, which panics on a
JSON `null`, and a negative group index reaches `matches[index]` past `matchIndexValid`.  Both
are `crash` here, as are the dereferences the code makes after a check has excluded `nil`.

`types.Hash` on currencies is not in the repository; it is the parameter `hash`, into any type of
keys.  The description pointers and the `Descriptions` pointer are never `nil` here.
-/

namespace MeshSdk.Parser

open Types

/-- The parser's errors: its sentinels, the two errors that carry the position they report, the
opposites-length error that has no sentinel, and the error of `types.AmountValue`. -/
inductive ParserError where
  | metadataMatchKeyNotFound
  | metadataMatchKeyValueMismatch
  | accountMatchAccountMissing
  | accountMatchSubAccountMissing
  | accountMatchSubAccountPopulated
  | accountMatchUnexpectedSubAccountAddr
  | amountMatchAmountMissing
  | amountMatchAmountPopulated
  | amountMatchUnexpectedSign
  | amountMatchUnexpectedCurrency
  | coinActionMatchCoinChangeIsNil
  | coinActionMatchUnexpectedCoinAction
  | equalAmountsNoOperations
  | equalAmountsNotEqual
  | equalAddressesTooFewOperations
  | equalAddressesAccountIsNil
  | equalAddressesAddrMismatch
  | oppositeAmountsSameSign
  | oppositeAmountsAbsValMismatch
  | matchIndexValidIndexOutOfRange
  | matchIndexValidIndexIsNil
  | matchOperationsNoOperations
  | matchOperationsDescriptionsMissing
  | matchOperationsMatchNotFound (index : Nat)
  | matchOperationsDescriptionNotMatched (index : Nat)
  | oppositesLength (length : Nat)
  | amountValue
  deriving DecidableEq, Repr

/-- A parser function returning `error`. -/
abbrev ParserCheck := Except (Fault ParserError) Unit

/-! ## Descriptions -/

/-- `AmountSign`, an `int`. -/
structure AmountSign where
  code : Int
  deriving DecidableEq, Repr

/-- `AnyAmountSign`. -/
def anyAmountSign : AmountSign := ⟨0⟩
/-- `NegativeAmountSign`. -/
def negativeAmountSign : AmountSign := ⟨1⟩
/-- `PositiveAmountSign`. -/
def positiveAmountSign : AmountSign := ⟨2⟩
/-- `PositiveOrZeroAmountSign`. -/
def positiveOrZeroAmountSign : AmountSign := ⟨3⟩
/-- `NegativeOrZeroAmountSign`. -/
def negativeOrZeroAmountSign : AmountSign := ⟨4⟩

/-- `AmountSign.Match` (`match` is a Lean keyword).  `len(numeric.Bits()) == 0` is
`numeric = 0`. -/
def AmountSign.matches (s : AmountSign) (amount : Option Amount) : Bool :=
  if s = anyAmountSign then true
  else match amountValue amount with
    | none => false
    | some v =>
      if s = negativeAmountSign ∧ v.sign = -1 then true
      else if s = positiveAmountSign ∧ v.sign = 1 then true
      else if s = positiveOrZeroAmountSign ∧ (v.sign = 1 ∨ v = 0) then true
      else if s = negativeOrZeroAmountSign ∧ (v.sign = -1 ∨ v = 0) then true
      else false

/-- `MetadataDescription`. -/
structure MetadataDescription where
  key : String := ""
  valueKind : Kind := ⟨0⟩
  deriving DecidableEq, Repr

/-- `AccountDescription`. -/
structure AccountDescription where
  «exists» : Bool := false
  subAccountOptional : Bool := false
  subAccountExists : Bool := false
  subAccountAddress : String := ""
  subAccountMetadataKeys : List MetadataDescription := []
  deriving DecidableEq, Repr

/-- `AmountDescription`. -/
structure AmountDescription where
  «exists» : Bool := false
  sign : AmountSign := anyAmountSign
  currency : Option Currency := none
  deriving DecidableEq, Repr

/-- `OperationDescription`. -/
structure OperationDescription where
  account : Option AccountDescription := none
  amount : Option AmountDescription := none
  metadata : List MetadataDescription := []
  type : String := ""
  allowRepeats : Bool := false
  optional : Bool := false
  coinAction : String := ""
  deriving DecidableEq, Repr

/-- `Descriptions`. -/
structure Descriptions where
  operationDescriptions : List OperationDescription := []
  equalAmounts : List (List Int) := []
  oppositeAmounts : List (List Int) := []
  oppositeOrZeroAmounts : List (List Int) := []
  equalAddresses : List (List Int) := []
  errUnmatched : Bool := false
  deriving DecidableEq, Repr

/-- `Match`: the operations matched to one description and their parsed amounts. -/
structure Match where
  operations : List Operation := []
  amounts : List (Option Int) := []
  deriving DecidableEq, Repr

/-- Append an operation and its parsed amount to a match. -/
def Match.push (m : Match) (op : Operation) (amount : Option Int) : Match :=
  { operations := m.operations ++ [op], amounts := m.amounts ++ [amount] }

@[simp] theorem Match.push_operations (m : Match) (op : Operation) (amount : Option Int) :
    (m.push op amount).operations = m.operations ++ [op] := rfl

@[simp] theorem Match.push_amounts (m : Match) (op : Operation) (amount : Option Int) :
    (m.push op amount).amounts = m.amounts ++ [amount] := rfl

/-! ## The field checks -/

/-- `metadataMatch`; the early return on no requirements is the empty loop.  A key present with
a JSON `null` value has no kind: `reflect.TypeOf(nil).Kind()` panics. -/
def metadataMatch (reqs : List MetadataDescription) (metadata : Metadata) : ParserCheck :=
  match reqs with
  | [] => pure ()
  | req :: rest =>
    match metadata.lookup req.key with
    | none => fail .metadataMatchKeyNotFound
    | some none => crash .nilDereference
    | some (some kind) =>
      if kind ≠ req.valueKind then fail .metadataMatchKeyValueMismatch
      else metadataMatch rest metadata

/-- `verifySubAccountAddress`. -/
def verifySubAccountAddress (subAccountAddress : String) (subAccount : SubAccountIdentifier) :
    ParserCheck :=
  if subAccountAddress.length > 0 ∧ subAccount.address ≠ subAccountAddress then
    fail .accountMatchUnexpectedSubAccountAddr
  else pure ()

/-- `accountMatch`. -/
def accountMatch (req : Option AccountDescription) (account : Option AccountIdentifier) :
    ParserCheck :=
  match req, account with
  | none, _ => pure ()
  | some req, none => if req.exists then fail .accountMatchAccountMissing else pure ()
  | some req, some account =>
    if req.subAccountOptional then
      match account.subAccount with
      | none => pure ()
      | some sub => verifySubAccountAddress req.subAccountAddress sub
    else
      match account.subAccount with
      | none => if req.subAccountExists then fail .accountMatchSubAccountMissing else pure ()
      | some sub =>
        if !req.subAccountExists then fail .accountMatchSubAccountPopulated
        else do
          verifySubAccountAddress req.subAccountAddress sub
          metadataMatch req.subAccountMetadataKeys sub.metadata

section Hash

variable {κ : Type} [DecidableEq κ] (hash : Currency → κ)

/-- `amountMatch`; currencies are compared by their keys under `types.Hash`. -/
def amountMatch (req : Option AmountDescription) (amount : Option Amount) : ParserCheck :=
  match req, amount with
  | none, _ => pure ()
  | some req, none => if req.exists then fail .amountMatchAmountMissing else pure ()
  | some req, some amt =>
    if !req.exists then fail .amountMatchAmountPopulated
    else if !req.sign.matches (some amt) then fail .amountMatchUnexpectedSign
    else match req.currency, amt.currency with
      | none, _ => pure ()
      | some _, none => fail .amountMatchUnexpectedCurrency
      | some cur, some c =>
        if hash c ≠ hash cur then fail .amountMatchUnexpectedCurrency else pure ()

end Hash

/-- `coinActionMatch`. -/
def coinActionMatch (requiredAction : String) (coinChange : Option CoinChange) : ParserCheck :=
  if requiredAction.length = 0 then pure ()
  else match coinChange with
    | none => fail .coinActionMatchCoinChangeIsNil
    | some c => if c.coinAction ≠ requiredAction then fail .coinActionMatchUnexpectedCoinAction
      else pure ()

/-! ## Matching one operation -/

/-- Go's `if err := check; err != nil { continue }` in the loop of `operationMatch`: an error
moves on to the next description (`next`), a panic runs through, and a pass goes on with
`rest`. -/
def orContinue {β : Type} (check : ParserCheck) (next rest : Except Panic β) : Except Panic β :=
  match check with
  | .ok () => rest
  | .error (.err _) => next
  | .error (.panic p) => .error p

section Hash

variable {κ : Type} [DecidableEq κ] (hash : Currency → κ)

/-- `operationMatch`: the descriptions and the matches `ms` (Go's `matches`) are scanned
together, `ms[i]` being the match of description `i`.  A description passing every field check
gets a `Match` allocated before the operation's amount is parsed; when the parse fails the scan
goes on, leaving that match allocated but without the operation.  A nil operation panics at the
first description that reads it. -/
def operationMatch (operation : Option Operation) :
    List OperationDescription → List (Option Match) → Except Panic (Bool × List (Option Match))
  | [], ms => pure (false, ms)
  | _ :: _, [] => .error .indexOutOfRange
  | des :: descriptions, m :: ms =>
    let next : Except Panic (Bool × List (Option Match)) := do
      let (found, ms) ← operationMatch operation descriptions ms
      pure (found, m :: ms)
    if m.isSome ∧ !des.allowRepeats then next
    else match operation with
      | none => .error .nilDereference
      | some op =>
        if des.type.length > 0 ∧ des.type ≠ op.type then next
        else
          orContinue (accountMatch des.account op.account) next <|
          orContinue (amountMatch hash des.amount op.amount) next <|
          orContinue (metadataMatch des.metadata op.metadata) next <|
          orContinue (coinActionMatch des.coinAction op.coinChange) next <|
          let allocated := m.getD {}
          match op.amount with
          | none => pure (true, some (allocated.push op none) :: ms)
          | some amt =>
            match amountValue (some amt) with
            | none => do
              let (found, ms) ← operationMatch operation descriptions ms
              pure (found, some allocated :: ms)
            | some v => pure (true, some (allocated.push op (some v)) :: ms)

/-- The loop of `MatchOperations` over the operations, from position `i` on. -/
def matchLoop (descriptions : Descriptions) :
    Nat → List (Option Match) → List (Option Operation) →
      Except (Fault ParserError) (List (Option Match))
  | _, ms, [] => pure ms
  | i, ms, op :: ops =>
    match operationMatch hash op descriptions.operationDescriptions ms with
    | .error p => crash p
    | .ok (found, ms) =>
      if !found ∧ descriptions.errUnmatched then fail (.matchOperationsMatchNotFound i)
      else matchLoop descriptions (i + 1) ms ops

end Hash

/-- One iteration of the check after the loop: a description without a match must be
optional. -/
def descriptionMatched (descriptions : List OperationDescription) (i : Nat) (m : Option Match) :
    ParserCheck :=
  match m with
  | some _ => pure ()
  | none => do
    let des ← sliceGet descriptions i
    if !des.optional then fail (.matchOperationsDescriptionNotMatched i) else pure ()

/-- The check after the loop of `MatchOperations`, from position `i` on. -/
def matchedCheck (descriptions : List OperationDescription) :
    Nat → List (Option Match) → ParserCheck
  | _, [] => pure ()
  | i, m :: ms => do
    descriptionMatched descriptions i m
    matchedCheck descriptions (i + 1) ms

/-! ## Group constraints -/

/-- `equalAmounts`. -/
def equalAmounts (ops : List Operation) : ParserCheck :=
  match ops with
  | [] => fail .equalAmountsNoOperations
  | first :: _ =>
    match amountValue first.amount with
    | none => fail .amountValue
    | some val => checkEach (fun op =>
        match amountValue op.amount with
        | none => fail .amountValue
        | some other => if val ≠ other then fail .equalAmountsNotEqual else pure ()) ops

/-- The loop of `equalAddresses` with the address `base` taken so far; an empty `base` takes the
next operation's address. -/
def equalAddressesFrom (base : String) : List Operation → ParserCheck
  | [] => pure ()
  | op :: rest =>
    match op.account with
    | none => fail .equalAddressesAccountIsNil
    | some account =>
      if base.length = 0 then equalAddressesFrom account.address rest
      else if base ≠ account.address then fail .equalAddressesAddrMismatch
      else equalAddressesFrom base rest

/-- `equalAddresses`. -/
def equalAddresses (ops : List Operation) : ParserCheck :=
  if ops.length ≤ 1 then fail .equalAddressesTooFewOperations else equalAddressesFrom "" ops

/-- The sign and magnitude comparison of `oppositeAmounts`, `CmpAbs` being `natAbs`. -/
def oppositeValues (a b : Int) : ParserCheck :=
  if a.sign = b.sign then fail .oppositeAmountsSameSign
  else if a.natAbs ≠ b.natAbs then fail .oppositeAmountsAbsValMismatch
  else pure ()

/-- `oppositeAmounts`. -/
def oppositeAmounts (a b : Operation) : ParserCheck :=
  match amountValue a.amount, amountValue b.amount with
  | some x, some y => oppositeValues x y
  | _, _ => fail .amountValue

/-- `oppositeOrZeroAmounts`. -/
def oppositeOrZeroAmounts (a b : Operation) : ParserCheck :=
  match amountValue a.amount, amountValue b.amount with
  | some x, some y => if x = 0 ∧ y = 0 then pure () else oppositeValues x y
  | _, _ => fail .amountValue

/-- `matchIndexValid`.  Only indices at or past the end are rejected: a negative index reaches
`matches[index]`, which panics. -/
def matchIndexValid (ms : List (Option Match)) (index : Int) : ParserCheck :=
  if index ≥ ms.length then fail .matchIndexValidIndexOutOfRange
  else do
    let m ← sliceGet ms index
    if m.isNone then fail .matchIndexValidIndexIsNil else pure ()

/-- The group at a checked index, `matches[index].Operations`. -/
def operationsAt (ms : List (Option Match)) (index : Int) :
    Except (Fault ParserError) (List Operation) := do
  let m ← sliceGet ms index
  match m with
  | none => crash .nilDereference
  | some m => pure m.operations

/-- The operations of one batch of `checkOps`, gathered group after group. -/
def batchOps (ms : List (Option Match)) :
    List Int → Except (Fault ParserError) (List Operation)
  | [] => pure []
  | reqIndex :: rest => do
    matchIndexValid ms reqIndex
    let ops ← operationsAt ms reqIndex
    let more ← batchOps ms rest
    pure (ops ++ more)

/-- `checkOps`. -/
def checkOps (requests : List (List Int)) (ms : List (Option Match))
    (valid : List Operation → ParserCheck) : ParserCheck :=
  checkEach (fun batch => do valid (← batchOps ms batch)) requests

/-- One pair of `compareOppositeMatches`: both groups have equal amounts, and their first
operations pass `amountChecker`. -/
def oppositePair (ms : List (Option Match))
    (amountChecker : Operation → Operation → ParserCheck) : List Int → ParserCheck
  | [i₀, i₁] => do
    matchIndexValid ms i₀
    matchIndexValid ms i₁
    let ops₀ ← operationsAt ms i₀
    let ops₁ ← operationsAt ms i₁
    equalAmounts ops₀
    equalAmounts ops₁
    match ops₀, ops₁ with
    | o₀ :: _, o₁ :: _ => amountChecker o₀ o₁
    | _, _ => crash .indexOutOfRange
  | pair => fail (.oppositesLength pair.length)

/-- `compareOppositeMatches`. -/
def compareOppositeMatches (amountPairs : List (List Int)) (ms : List (Option Match))
    (amountChecker : Operation → Operation → ParserCheck) : ParserCheck :=
  checkEach (oppositePair ms amountChecker) amountPairs

/-- `comparisonMatch`. -/
def comparisonMatch (descriptions : Descriptions) (ms : List (Option Match)) : ParserCheck := do
  checkOps descriptions.equalAmounts ms equalAmounts
  checkOps descriptions.equalAddresses ms equalAddresses
  compareOppositeMatches descriptions.oppositeAmounts ms oppositeAmounts
  compareOppositeMatches descriptions.oppositeOrZeroAmounts ms oppositeOrZeroAmounts

/-! ## `MatchOperations` -/

section Hash

variable {κ : Type} [DecidableEq κ] (hash : Currency → κ)

/-- `MatchOperations`. -/
def matchOperations (descriptions : Descriptions) (operations : List (Option Operation)) :
    Except (Fault ParserError) (List (Option Match)) :=
  if operations.length = 0 then fail .matchOperationsNoOperations
  else if descriptions.operationDescriptions.length = 0 then
    fail .matchOperationsDescriptionsMissing
  else do
    let ms ← matchLoop hash descriptions 0
      (List.replicate descriptions.operationDescriptions.length none) operations
    matchedCheck descriptions.operationDescriptions 0 ms
    comparisonMatch descriptions ms
    pure ms

end Hash

/-- `Match.First`: the first operation and its amount, `(nil, nil)` for a nil or empty match. -/
def Match.first : Option Match → Except Panic (Option Operation × Option Int)
  | none => pure (none, none)
  | some m =>
    match m.operations with
    | [] => pure (none, none)
    | op :: _ =>
      match m.amounts with
      | [] => .error .indexOutOfRange
      | amount :: _ => pure (some op, amount)

end MeshSdk.Parser
