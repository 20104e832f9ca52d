import MeshSdk.Asserter.Basic

/-!
# The asserter: operations, transactions and blocks

The composite checks of `asserter/block.go`, as the code runs them:

* `Asserter.operation`: identifier, type and status, then, only for an operation with an amount,
  its account, its amount and its coin change.
* `Asserter.operations`: the loop over an operation list.  One iteration (`operationsStep`) runs
  `operation` at the loop index, the payment and fee accounting (`paymentAndFee`) when
  validations are enabled, and the related-operations loop (`relatedOperations`); after the
  loop come the related-operation requirement and `validatePaymentAndFee`.
* `Asserter.relatedTransactions`, `Asserter.transaction`, `Asserter.block`.

`types.Hash` and the asserter's `NetworkIdentifier` check are not among the repository's files;
they are the parameters `hash` and `networkIdentifier`.

Each function is followed by the lemma that takes a successful run apart
(`operation_eq_ok`, `operationsStep_eq_ok`, `operationsLoop_ok`, ...), so that the files
after this one never unfold the code.
-/

namespace MeshSdk.Asserter

open Types

/-! ## One operation -/

/-- `Asserter.Operation`. -/
def operation (a : Asserter) (op : Option Operation) (index : Int) (construction : Bool) :
    Check :=
  match op with
  | none => fail .operationIsNil
  | some o => do
    operationIdentifier o.operationIdentifier index
    a.operationType o.type
    a.operationStatus o.status construction
    match o.amount with
    | none => pure ()
    | some _ => do
      accountIdentifier o.account
      amount o.amount
      match o.coinChange with
      | none => pure ()
      | some c => coinChange c

/-- What `Operation` checks of an amount-bearing operation. -/
def AmountChecked (o : Operation) : Prop :=
  ∀ amt, o.amount = some amt → accountIdentifier o.account = .ok () ∧
    amount o.amount = .ok () ∧ ∀ c, o.coinChange = some c → coinChange c = .ok ()

theorem operation_eq_ok {a : Asserter} {op : Option Operation} {index : Int}
    {construction : Bool} :
    a.operation op index construction = .ok () ↔ ∃ o, op = some o ∧
      operationIdentifier o.operationIdentifier index = .ok () ∧
      a.operationType o.type = .ok () ∧ a.operationStatus o.status construction = .ok () ∧
      AmountChecked o := by
  rcases op with _ | o
  · simp [operation]
  · rcases hAmount : o.amount with _ | amt <;> rcases hCoin : o.coinChange with _ | c <;>
      simp [operation, AmountChecked, hAmount, hCoin]

/-! ## The loop of `Operations` -/

/-- The running totals of the loop of `Operations`. -/
structure Totals where
  paymentTotal : Int := 0
  feeTotal : Int := 0
  paymentCount : Int := 0
  feeCount : Int := 0
  relatedOpsExists : Bool := false
  deriving DecidableEq, Repr

/-- `op.Amount.Value`: a nil dereference on an operation without an amount. -/
def amountValueOf (o : Operation) : Except (Fault AssertError) String :=
  match o.amount with
  | none => crash .nilDereference
  | some amt => pure amt.value

/-- The payment accounting of one iteration.  `SetString` here ignores its `ok`, so an
unparsable value would reach `Add` as a nil `*big.Int` and panic there. -/
def addPayment (a : Asserter) (t : Totals) (o : Operation) : Except (Fault AssertError) Totals :=
  if o.type = a.validations.payment.name then do
    let value ← amountValueOf o
    match parseBigInt value with
    | none => crash .nilDereference
    | some v =>
      pure { t with paymentTotal := t.paymentTotal + v, paymentCount := t.paymentCount + 1 }
  else pure t

/-- The fee accounting of one iteration. -/
def addFee (a : Asserter) (t : Totals) (o : Operation) : Except (Fault AssertError) Totals :=
  if o.type = a.validations.fee.name then
    if o.relatedOperations.isSome then fail .relatedOperationInFeeNotAllowed
    else do
      let value ← amountValueOf o
      match bigInt value with
      | none => fail .notAnInteger
      | some v =>
        if v.sign ≠ -1 then fail .feeAmountNotNegative
        else pure { t with feeTotal := t.feeTotal + v, feeCount := t.feeCount + 1 }
  else pure t

/-- The payment and fee accounting of one iteration, run when validations are enabled. -/
def paymentAndFee (a : Asserter) (t : Totals) (o : Operation) :
    Except (Fault AssertError) Totals := do
  let t ← a.addPayment t o
  a.addFee t o

/-- The related-operations loop of one iteration: each related operation has an index below the
operation's own and differs from the ones before it, `relatedIndexes`. -/
def relatedOperations (opIdentifier : Option OperationIdentifier) (relatedIndexes : List Int) :
    List (Option OperationIdentifier) → Check
  | [] => pure ()
  | none :: _ => crash .nilDereference
  | some r :: rest =>
    match opIdentifier with
    | none => crash .nilDereference
    | some id =>
      if r.index ≥ id.index then fail .relatedOperationIndexOutOfOrder
      else if containsInt64 relatedIndexes r.index then fail .relatedOperationIndexDuplicate
      else relatedOperations opIdentifier (relatedIndexes ++ [r.index]) rest

/-- One iteration of the loop of `Operations`, at loop index `i`.  After `operation` passes the
operation is not nil, so the `none` branch, Go's dereference of a nil `op`, is never taken. -/
def operationsStep (a : Asserter) (construction : Bool) (i : Nat) (t : Totals)
    (op : Option Operation) : Except (Fault AssertError) Totals := do
  a.operation op i construction
  match op with
  | none => crash .nilDereference
  | some o => do
    let t ← if a.validations.enabled then a.paymentAndFee t o else pure t
    let related := o.relatedOperations.getD []
    relatedOperations o.operationIdentifier [] related
    pure { t with relatedOpsExists := t.relatedOpsExists || !related.isEmpty }

/-- **What a passed related-operations loop checked**: every related operation is present, has an
index below the operation's own, and the indices are pairwise distinct and not among `seen`. -/
theorem relatedOperations_ok {opIdentifier : Option OperationIdentifier} {seen : List Int}
    {rs : List (Option OperationIdentifier)}
    (h : relatedOperations opIdentifier seen rs = .ok ()) :
    ∃ rs' : List OperationIdentifier, rs = rs'.map some ∧
      (∀ r ∈ rs', ∃ id, opIdentifier = some id ∧ r.index < id.index) ∧
      (rs'.map (·.index)).Nodup ∧ ∀ r ∈ rs', r.index ∉ seen := by
  induction rs generalizing seen with
  | nil => exact ⟨[], rfl, by simp, by simp, by simp⟩
  | cons r rest ih =>
    rcases r with _ | r
    · simp [relatedOperations] at h
    rcases opIdentifier with _ | id
    · simp [relatedOperations] at h
    simp only [relatedOperations, containsInt64] at h
    split_ifs at h with hLt hDup
    · simp at h
    · simp at h
    obtain ⟨rs', rfl, hBelow, hNodup, hFresh⟩ := ih h
    have hNew : r.index ∉ seen := by simpa using hDup
    refine ⟨r :: rs', rfl, ?_, ?_, ?_⟩
    · simp only [List.mem_cons, forall_eq_or_imp]
      exact ⟨⟨id, rfl, by omega⟩, hBelow⟩
    · simp only [List.map_cons, List.nodup_cons, List.mem_map, not_exists, not_and]
      exact ⟨fun r' hr' hEq => hFresh r' hr' (by simp [hEq]), hNodup⟩
    · simp only [List.mem_cons, forall_eq_or_imp]
      exact ⟨hNew, fun r' hr' hMem => hFresh r' hr' (List.mem_append_left _ hMem)⟩

theorem operationsStep_eq_ok {a : Asserter} {construction : Bool} {i : Nat} {t t' : Totals}
    {op : Option Operation} :
    a.operationsStep construction i t op = .ok t' ↔ ∃ o, op = some o ∧
      a.operation op i construction = .ok () ∧
      ∃ t₁, (if a.validations.enabled then a.paymentAndFee t o else pure t) = .ok t₁ ∧
        relatedOperations o.operationIdentifier [] (o.relatedOperations.getD []) = .ok () ∧
        { t₁ with relatedOpsExists :=
          t₁.relatedOpsExists || !(o.relatedOperations.getD []).isEmpty } = t' := by
  rcases op with _ | o
  · simp [operationsStep, operation]
  · rcases hEnabled : a.validations.enabled <;> simp [operationsStep, hEnabled]

/-- The loop of `Operations` from loop index `i` on. -/
def operationsLoop (a : Asserter) (construction : Bool) :
    Nat → Totals → List (Option Operation) → Except (Fault AssertError) Totals
  | _, t, [] => pure t
  | i, t, op :: ops => do
    let t ← a.operationsStep construction i t op
    a.operationsLoop construction (i + 1) t ops

/-- **A passed loop passed every iteration**: a property of each operation that a passed
iteration at index `i` establishes holds of every operation, at its position. -/
theorem operationsLoop_ok {a : Asserter} {construction : Bool}
    {P : Nat → Option Operation → Prop}
    (hStep : ∀ i t op t', a.operationsStep construction i t op = .ok t' → P i op) :
    ∀ {ops : List (Option Operation)} {i : Nat} {t t' : Totals},
      a.operationsLoop construction i t ops = .ok t' →
      ∀ j (hj : j < ops.length), P (i + j) ops[j]
  | [], _, _, _, _, j, hj => absurd hj (Nat.not_lt_zero j)
  | op :: ops, i, t, t', h, j, hj => by
    obtain ⟨t₁, hFirst, hRest⟩ := bind_eq_ok.mp h
    cases j with
    | zero => exact hStep i t op t₁ hFirst
    | succ j =>
      have := operationsLoop_ok hStep hRest j (by simpa using hj)
      simpa [Nat.add_assoc, Nat.add_comm 1 j] using this

/-- `Asserter.ValidatePaymentAndFee`.  An unbalanced fee total is reported as
`ErrPaymentAmountNotBalancing`, as in the code. -/
def validatePaymentAndFee (a : Asserter) (paymentTotal paymentCount feeTotal feeCount : Int) :
    Check :=
  if a.validations.payment.operation.count ≠ -1 ∧
      a.validations.payment.operation.count ≠ paymentCount then fail .paymentCountMismatch
  else if a.validations.payment.operation.shouldBalance ∧ paymentTotal ≠ 0 then
    fail .paymentAmountNotBalancing
  else if a.validations.fee.operation.count ≠ -1 ∧
      a.validations.fee.operation.count ≠ feeCount then fail .feeCountMismatch
  else if a.validations.fee.operation.shouldBalance ∧ feeTotal ≠ 0 then
    fail .paymentAmountNotBalancing
  else pure ()

/-- `Asserter.Operations`. -/
def operations (a : Asserter) (ops : List (Option Operation)) (construction : Bool) : Check :=
  if ops.length = 0 ∧ construction then fail .noOperationsForConstruction
  else do
    let t ← a.operationsLoop construction 0 {} ops
    if !t.relatedOpsExists ∧ a.validations.enabled ∧ a.validations.relatedOpsExists then
      fail .relatedOperationMissing
    else if a.validations.enabled ∧ a.validations.chainType = account then
      a.validatePaymentAndFee t.paymentTotal t.paymentCount t.feeTotal t.feeCount
    else pure ()

theorem operations_eq_ok {a : Asserter} {ops : List (Option Operation)} {construction : Bool} :
    a.operations ops construction = .ok () ↔ ¬ (ops.length = 0 ∧ construction = true) ∧
      ∃ t, a.operationsLoop construction 0 {} ops = .ok t ∧
        (a.validations.enabled = true → a.validations.relatedOpsExists = true →
          t.relatedOpsExists = true) ∧
        (a.validations.enabled = true → a.validations.chainType = account →
          a.validatePaymentAndFee t.paymentTotal t.paymentCount t.feeTotal t.feeCount =
            .ok ()) := by
  unfold operations
  by_cases h0 : ops.length = 0 ∧ construction = true
  · simp [h0]
  · simp only [h0, if_false, not_false_eq_true, true_and, bind_eq_ok]
    refine exists_congr fun t => and_congr_right fun _ => ?_
    rcases t with ⟨_, _, _, _, _ | _⟩ <;> cases a.validations.enabled <;>
      cases a.validations.relatedOpsExists <;> by_cases hC : a.validations.chainType = account <;>
      simp [hC]

/-! ## Related transactions, transactions and blocks -/

section Transactions

variable {κ : Type} [DecidableEq κ] (hash : Option RelatedTransaction → κ)
  (networkIdentifier : NetworkIdentifier → Check)

/-- The loop of `DuplicateRelatedTransaction`; `seen` holds the keys of the items scanned.  The
result is the returned pointer: the first item whose key was seen, `none` when there is none
(and also when that item is itself nil). -/
def duplicateRelatedTransactionFrom (seen : List κ) :
    List (Option RelatedTransaction) → Option RelatedTransaction
  | [] => none
  | item :: items =>
    if hash item ∈ seen then item else duplicateRelatedTransactionFrom (hash item :: seen) items

/-- `DuplicateRelatedTransaction`. -/
def duplicateRelatedTransaction (items : List (Option RelatedTransaction)) :
    Option RelatedTransaction :=
  duplicateRelatedTransactionFrom hash [] items

omit [DecidableEq κ] in
/-- Past one item, "no key repeats and none was seen" reads on the rest with that item's key
seen. -/
theorem nodup_fresh_cons {seen : List κ} {item : Option RelatedTransaction}
    {items : List (Option RelatedTransaction)} :
    (((item :: items).map hash).Nodup ∧ ∀ x ∈ item :: items, hash x ∉ seen) ↔
      hash item ∉ seen ∧ (items.map hash).Nodup ∧ ∀ x ∈ items, hash x ∉ hash item :: seen := by
  simp only [List.map_cons, List.nodup_cons, List.mem_map, List.mem_cons, not_exists, not_and,
    not_or, imp_and, forall_and, forall_eq_or_imp]
  tauto

/-- **No duplicate among present items**: when the scan finds nothing and every item is present,
the items' keys are pairwise distinct and none was seen before. -/
theorem duplicateRelatedTransactionFrom_eq_none {seen : List κ}
    {items : List (Option RelatedTransaction)}
    (h : duplicateRelatedTransactionFrom hash seen items = none)
    (hSome : ∀ x ∈ items, x.isSome) :
    (items.map hash).Nodup ∧ ∀ x ∈ items, hash x ∉ seen := by
  induction items generalizing seen with
  | nil => simp
  | cons item items ih =>
    simp only [duplicateRelatedTransactionFrom] at h
    split_ifs at h with hSeen
    · obtain ⟨r, rfl⟩ := Option.isSome_iff_exists.mp (hSome item (List.mem_cons_self _ _))
      cases h
    exact (nodup_fresh_cons hash).mpr
      ⟨hSeen, ih h fun x hx => hSome x (List.mem_cons_of_mem _ hx)⟩

/-- One iteration of the loop of `RelatedTransactions`. -/
def relatedTransaction : Option RelatedTransaction → Check
  | none => crash .nilDereference
  | some rt => do
    match rt.networkIdentifier with
    | none => pure ()
    | some n => networkIdentifier n
    transactionIdentifier rt.transactionIdentifier
    direction rt.direction

theorem relatedTransaction_eq_ok {rt : Option RelatedTransaction} :
    relatedTransaction networkIdentifier rt = .ok () ↔ ∃ r, rt = some r ∧
      (∀ n, r.networkIdentifier = some n → networkIdentifier n = .ok ()) ∧
      transactionIdentifier r.transactionIdentifier = .ok () ∧
      direction r.direction = .ok () := by
  rcases rt with _ | r
  · simp [relatedTransaction]
  · rcases hNetwork : r.networkIdentifier with _ | n <;> simp [relatedTransaction, hNetwork]

/-- `Asserter.RelatedTransactions`, which reads nothing of the asserter. -/
def relatedTransactions (rts : List (Option RelatedTransaction)) : Check :=
  match duplicateRelatedTransaction hash rts with
  | some _ => fail .duplicateRelatedTransaction
  | none => checkEach (relatedTransaction networkIdentifier) rts

theorem relatedTransactions_eq_ok {rts : List (Option RelatedTransaction)} :
    relatedTransactions hash networkIdentifier rts = .ok () ↔
      duplicateRelatedTransaction hash rts = none ∧
      ∀ rt ∈ rts, relatedTransaction networkIdentifier rt = .ok () := by
  unfold relatedTransactions
  split <;> simp_all

/-- `Asserter.Transaction`. -/
def transaction (a : Asserter) : Option Transaction → Check
  | none => fail .txIsNil
  | some tx => do
    transactionIdentifier tx.transactionIdentifier
    a.operations tx.operations false
    relatedTransactions hash networkIdentifier tx.relatedTransactions

theorem transaction_eq_ok {a : Asserter} {tx : Option Transaction} :
    a.transaction hash networkIdentifier tx = .ok () ↔ ∃ t, tx = some t ∧
      transactionIdentifier t.transactionIdentifier = .ok () ∧
      a.operations t.operations false = .ok () ∧
      relatedTransactions hash networkIdentifier t.relatedTransactions = .ok () := by
  rcases tx with _ | t <;> simp [transaction]

/-- The parent comparison of `Block`: the block's hash differs from its parent's and its index
is greater, checked unless the asserter's genesis block has the block's index. -/
def parentCheck (a : Asserter) (bid pid : BlockIdentifier) : Check :=
  if a.genesisBlock.map (·.index) ≠ some bid.index then
    if bid.hash = pid.hash then fail .blockHashEqualsParentBlockHash
    else if bid.index ≤ pid.index then fail .blockIndexPrecedesParentBlockIndex
    else pure ()
  else pure ()

theorem parentCheck_eq_ok {a : Asserter} {bid pid : BlockIdentifier} :
    a.parentCheck bid pid = .ok () ↔
      (a.genesisBlock.map (·.index) ≠ some bid.index →
        bid.hash ≠ pid.hash ∧ pid.index < bid.index) := by
  unfold parentCheck
  split_ifs <;> simp_all

/-- The timestamp check of `Block`, made in strict mode from `timestampStartIndex` on. -/
def timestampCheck (a : Asserter) (bid : BlockIdentifier) (ts : Int) : Check :=
  if !a.ignoreRosettaSpecValidation ∧ a.timestampStartIndex ≤ bid.index then timestamp ts
  else pure ()

theorem timestampCheck_eq_ok {a : Asserter} {bid : BlockIdentifier} {ts : Int} :
    a.timestampCheck bid ts = .ok () ↔ (a.ignoreRosettaSpecValidation = false →
      a.timestampStartIndex ≤ bid.index → timestamp ts = .ok ()) := by
  unfold timestampCheck
  split_ifs <;> simp_all

/-- `Asserter.Block`.  After the two identifier checks both identifiers are present, so the
`crash` branch, Go's dereference of a nil identifier, is never taken. -/
def block (a : Asserter) : Option Block → Check
  | none => fail .blockIsNil
  | some b => do
    blockIdentifier b.blockIdentifier
    blockIdentifier b.parentBlockIdentifier
    match b.blockIdentifier, b.parentBlockIdentifier with
    | some bid, some pid => do
      a.parentCheck bid pid
      a.timestampCheck bid b.timestamp
      checkEach (a.transaction hash networkIdentifier) b.transactions
    | _, _ => crash .nilDereference

theorem block_eq_ok {a : Asserter} {blk : Option Block} :
    a.block hash networkIdentifier blk = .ok () ↔ ∃ b bid pid, blk = some b ∧
      b.blockIdentifier = some bid ∧ b.parentBlockIdentifier = some pid ∧
      bid.Valid ∧ pid.Valid ∧
      (a.genesisBlock.map (·.index) ≠ some bid.index →
        bid.hash ≠ pid.hash ∧ pid.index < bid.index) ∧
      (a.ignoreRosettaSpecValidation = false → a.timestampStartIndex ≤ bid.index →
        timestamp b.timestamp = .ok ()) ∧
      ∀ tx ∈ b.transactions, a.transaction hash networkIdentifier tx = .ok () := by
  rcases blk with _ | b
  · simp [block]
  rcases hBid : b.blockIdentifier with _ | bid
  · simp only [block, blockIdentifier, hBid, fail_bind, fail_ne_ok, false_iff, not_exists,
      not_and]
    rintro _ _ _ ⟨⟩ hb
    simp [hb] at hBid
  rcases hPid : b.parentBlockIdentifier with _ | pid
  · simp only [block, blockIdentifier, hBid, hPid, fail_bind, bind_eq_ok, fail_ne_ok, false_iff,
      not_exists, not_and, and_false, exists_const]
    rintro _ _ _ ⟨⟩ _ hp
    simp [hp] at hPid
  simp only [block, hBid, hPid, bind_eq_ok, checkEach_eq_ok, exists_and_right, exists_unit_eq_ok,
    timestampCheck_eq_ok, parentCheck_eq_ok, blockIdentifier_eq_ok, Option.some.injEq,
    exists_eq_left', exists_and_left]

end Transactions

end MeshSdk.Asserter
