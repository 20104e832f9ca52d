import MeshSdk.Asserter.Construction

/-!
# Where the validators panic

`Operation` accepts an operation without an amount and a nil element of a list it does not
range over, but the code after it dereferences both:

* with validations enabled, an operation whose type is the payment (or fee) name reaches
  `op.Amount.Value` whatever its amount;
* the related-operations loop reads `relatedOp.Index` of a nil related operation;
* the loop of `RelatedTransactions` reads the fields of a nil related transaction;
* the loop of `Signatures` reads `signature.SigningPayload` of a nil signature.

`validators_panic` runs `Block`, `Operations`, `Transaction` and `Signatures` on one input of
each kind.  For a non-nil asserter there are no others: `validators_return` shows that **on
inputs without these nil elements and amount-less payments or fees, the four validators
return**, with `nil` or an error, and `constructionResponses_return` that **the construction
response checks return**, `ConstructionParseResponse` on operations that `Operations` returns
on.  The code's other dereferences are guarded by the checks before them: `Operation` rejects a
nil operation and one without identifier, `Amount` an amount that does not parse, and
`BlockIdentifier` a nil identifier.

The asserter is a value here, never a nil `*Asserter`.  `Block`, `Transaction`, `Operation` and
`ConstructionParseResponse` reject a nil receiver with `ErrAsserterNotInitialized`, but
`Operations` has no such guard: on a nil receiver and an empty list outside construction it
reads `a.validations` and panics.  That input is outside the model and outside these theorems.
-/

namespace MeshSdk.Asserter

open Types

/-- Each of `Block`, `Operations`, `Transaction` and `Signatures` panics with a nil dereference
on an input of the kind its loop does not guard against. -/
theorem validators_panic :
    ({ ignoreRosettaSpecValidation := true
       validations := { enabled := true, payment := { name := "PAYMENT" } } } : Asserter).block
        (fun _ => ()) (fun _ => pure ())
        (some { blockIdentifier := some { index := 1, hash := "block" }
                parentBlockIdentifier := some { index := 0, hash := "parent" }
                transactions :=
                  [some { transactionIdentifier := some { hash := "tx" }
                          operations :=
                            [some { operationIdentifier := some {}
                                    type := "PAYMENT"
                                    status := some "SUCCESS" }] }] }) =
      crash .nilDereference ∧
    ({ ignoreRosettaSpecValidation := true } : Asserter).operations
        [some { operationIdentifier := some {}
                relatedOperations := some [none]
                type := "TRANSFER"
                status := some "SUCCESS" }] false =
      crash .nilDereference ∧
    ({ ignoreRosettaSpecValidation := true } : Asserter).transaction (fun _ => ()) (fun _ => pure ())
        (some { transactionIdentifier := some { hash := "tx" }
                relatedTransactions := [none] }) =
      crash .nilDereference ∧
    signatures (fun _ => false) [none] = crash .nilDereference :=
  ⟨rfl, rfl, rfl, rfl⟩

/-! ## Inputs without a panic -/

/-- Operations the loop of `Operations` does not panic on: with validations enabled, a payment or
fee operation carries an amount, and no related operation is nil. -/
structure OperationsGuarded (a : Asserter) (ops : List (Option Operation)) : Prop where
  amounts : a.validations.enabled = true → ∀ op ∈ ops, ∀ o, op = some o →
    o.type = a.validations.payment.name ∨ o.type = a.validations.fee.name → o.amount.isSome
  related : ∀ op ∈ ops, ∀ o, op = some o → ∀ r ∈ o.relatedOperations.getD [], r.isSome

/-- A transaction `Transaction` does not panic on: guarded operations, no nil related
transaction. -/
structure TransactionGuarded (a : Asserter) (t : Transaction) : Prop where
  operations : OperationsGuarded a t.operations
  related : ∀ rt ∈ t.relatedTransactions, rt.isSome

/-! ### The checks that only fail -/

theorem currency_returns {c : Option Currency} : Returns (currency c) :=
  match c with
  | none => returns_fail
  | some _ => .ite returns_fail (.ite returns_fail returns_ok)

theorem amount_returns {x : Option Amount} : Returns (amount x) :=
  match x with
  | none => returns_fail
  | some _ => .ite returns_fail (.ite returns_fail currency_returns)

theorem operationIdentifier_returns {identifier : Option OperationIdentifier} {index : Int} :
    Returns (operationIdentifier identifier index) :=
  match identifier with
  | none => returns_fail
  | some _ => .ite returns_fail (.ite returns_fail returns_ok)

theorem accountIdentifier_returns {x : Option AccountIdentifier} :
    Returns (accountIdentifier x) :=
  match x with
  | none => returns_fail
  | some a => .ite returns_fail <|
    match a.subAccount with
    | none => returns_ok
    | some _ => .ite returns_fail returns_ok

theorem operationStatus_returns {a : Asserter} {status : Option String} {construction : Bool} :
    Returns (a.operationStatus status construction) :=
  .ite (.ite returns_ok returns_fail) (.ite returns_fail (.ite returns_fail returns_ok))

theorem operationType_returns {a : Asserter} {t : String} : Returns (a.operationType t) :=
  .ite returns_fail returns_ok

theorem coinChange_returns {change : CoinChange} : Returns (coinChange change) :=
  match change with
  | ⟨none, _⟩ => returns_fail
  | ⟨some _, _⟩ => .ite returns_fail returns_ok

theorem blockIdentifier_returns {x : Option BlockIdentifier} : Returns (blockIdentifier x) :=
  match x with
  | none => returns_fail
  | some _ => .ite returns_fail (.ite returns_fail returns_ok)

theorem transactionIdentifier_returns {x : Option TransactionIdentifier} :
    Returns (transactionIdentifier x) :=
  match x with
  | none => returns_fail
  | some _ => .ite returns_fail returns_ok

theorem timestamp_returns {t : Int} : Returns (timestamp t) :=
  .ite returns_fail (.ite returns_fail returns_ok)

theorem direction_returns {d : String} : Returns (direction d) := .ite returns_fail returns_ok

theorem validatePaymentAndFee_returns {a : Asserter} {pt pc ft fc : Int} :
    Returns (a.validatePaymentAndFee pt pc ft fc) :=
  .ite returns_fail <| .ite returns_fail <| .ite returns_fail <| .ite returns_fail returns_ok

theorem operation_returns {a : Asserter} {op : Option Operation} {index : Int}
    {construction : Bool} : Returns (a.operation op index construction) := by
  rcases op with _ | o
  · exact returns_fail
  refine operationIdentifier_returns.bind fun _ _ => operationType_returns.bind fun _ _ =>
    operationStatus_returns.bind fun _ _ => ?_
  split
  · exact returns_ok
  · refine accountIdentifier_returns.bind fun _ _ => amount_returns.bind fun _ _ => ?_
    split
    · exact returns_ok
    · exact coinChange_returns

/-! ### The loop of `Operations` -/

/-- The accounting of an operation that passed `Operation`, whose amount therefore parses when
present, and that carries one when it is a payment or a fee. -/
theorem paymentAndFee_returns {a : Asserter} {t : Totals} {o : Operation}
    (hAmount : o.type = a.validations.payment.name ∨ o.type = a.validations.fee.name →
      o.amount.isSome)
    (hParse : ∀ amt, o.amount = some amt → (parseBigInt amt.value).isSome) :
    Returns (a.paymentAndFee t o) := by
  refine Returns.bind ?_ fun t' _ => ?_
  · unfold addPayment
    split_ifs with hPayment
    · obtain ⟨amt, hAmt⟩ := Option.isSome_iff_exists.mp (hAmount (.inl hPayment))
      obtain ⟨v, hv⟩ := Option.isSome_iff_exists.mp (hParse amt hAmt)
      simp only [amountValueOf, hAmt, pure_bind, hv]
      exact returns_ok
    · exact returns_ok
  · unfold addFee
    split_ifs with hFee
    · exact returns_fail
    · obtain ⟨amt, hAmt⟩ := Option.isSome_iff_exists.mp (hAmount (.inr hFee))
      simp only [amountValueOf, hAmt]
      refine returns_ok.bind fun _ _ => ?_
      split
      · exact returns_fail
      · split_ifs
        · exact returns_fail
        · exact returns_ok
    · exact returns_ok

theorem relatedOperations_returns {id : OperationIdentifier} :
    ∀ {seen : List Int} {rs : List (Option OperationIdentifier)}, (∀ r ∈ rs, r.isSome) →
      Returns (relatedOperations (some id) seen rs)
  | _, [], _ => returns_ok
  | _, none :: _, h => absurd (h none (List.mem_cons_self _ _)) (by simp)
  | _, some r :: rest, h => by
    simp only [relatedOperations]
    split_ifs
    · exact returns_fail
    · exact returns_fail
    · exact relatedOperations_returns fun r' hr' => h r' (List.mem_cons_of_mem _ hr')

theorem operationsStep_returns {a : Asserter} {construction : Bool} {i : Nat} {t : Totals}
    {op : Option Operation}
    (hAmount : a.validations.enabled = true → ∀ o, op = some o →
      o.type = a.validations.payment.name ∨ o.type = a.validations.fee.name → o.amount.isSome)
    (hRelated : ∀ o, op = some o → ∀ r ∈ o.relatedOperations.getD [], r.isSome) :
    Returns (a.operationsStep construction i t op) := by
  refine operation_returns.bind fun _ hOp => ?_
  obtain ⟨o, rfl, hId, -, -, hChecked⟩ := operation_eq_ok.mp hOp
  obtain ⟨id, hIdSome, -⟩ := operationIdentifier_eq_ok.mp hId
  have hParse : ∀ amt, o.amount = some amt → (parseBigInt amt.value).isSome :=
    fun amt hAmt => by
      obtain ⟨x, hx, hValid⟩ := amount_eq_ok.mp (hChecked amt hAmt).2.1
      rw [hAmt, Option.some.injEq] at hx
      exact hx ▸ hValid.value_isInt
  dsimp only
  rw [hIdSome]
  split
  · exact (paymentAndFee_returns (hAmount ‹_› o rfl) hParse).bind fun _ _ =>
      (relatedOperations_returns (hRelated o rfl)).bind fun _ _ => returns_ok
  · exact returns_ok.bind fun _ _ =>
      (relatedOperations_returns (hRelated o rfl)).bind fun _ _ => returns_ok

theorem operationsLoop_returns {a : Asserter} {construction : Bool} :
    ∀ {ops : List (Option Operation)} {i : Nat} {t : Totals}, OperationsGuarded a ops →
      Returns (a.operationsLoop construction i t ops)
  | [], _, _, _ => returns_ok
  | op :: ops, _, _, h =>
    (operationsStep_returns (fun hE o ho => h.amounts hE op (List.mem_cons_self op ops) o ho)
      (h.related op (List.mem_cons_self op ops))).bind fun _ _ =>
    operationsLoop_returns
      ⟨fun hE op' hop' => h.amounts hE op' (List.mem_cons_of_mem op hop'),
        fun op' hop' => h.related op' (List.mem_cons_of_mem op hop')⟩

theorem operations_returns {a : Asserter} {ops : List (Option Operation)} {construction : Bool}
    (h : OperationsGuarded a ops) : Returns (a.operations ops construction) :=
  .ite returns_fail <| (operationsLoop_returns h).bind fun _ _ =>
    .ite returns_fail (.ite validatePaymentAndFee_returns returns_ok)

/-! ### Transactions and blocks -/

section Transactions

variable {κ : Type} [DecidableEq κ] (hash : Option RelatedTransaction → κ)
  (networkIdentifier : NetworkIdentifier → Check)

theorem relatedTransactions_returns (hNetwork : ∀ n, Returns (networkIdentifier n))
    {rts : List (Option RelatedTransaction)} (h : ∀ rt ∈ rts, rt.isSome) :
    Returns (relatedTransactions hash networkIdentifier rts) := by
  unfold relatedTransactions
  split
  · exact returns_fail
  · refine returns_checkEach fun rt hrt => ?_
    obtain ⟨⟨_ | _, _, _⟩, rfl⟩ := Option.isSome_iff_exists.mp (h rt hrt)
    · exact returns_ok.bind fun _ _ =>
        transactionIdentifier_returns.bind fun _ _ => direction_returns
    · exact (hNetwork _).bind fun _ _ =>
        transactionIdentifier_returns.bind fun _ _ => direction_returns

theorem transaction_returns (hNetwork : ∀ n, Returns (networkIdentifier n)) {a : Asserter}
    {tx : Option Transaction} (h : ∀ t, tx = some t → a.TransactionGuarded t) :
    Returns (a.transaction hash networkIdentifier tx) := by
  rcases tx with _ | t
  · exact returns_fail
  · exact transactionIdentifier_returns.bind fun _ _ =>
      (operations_returns (h t rfl).operations).bind fun _ _ =>
        relatedTransactions_returns hash networkIdentifier hNetwork (h t rfl).related

theorem block_returns (hNetwork : ∀ n, Returns (networkIdentifier n)) {a : Asserter}
    {blk : Option Block}
    (h : ∀ b, blk = some b → ∀ tx ∈ b.transactions, ∀ t, tx = some t →
      a.TransactionGuarded t) :
    Returns (a.block hash networkIdentifier blk) := by
  rcases blk with _ | b
  · exact returns_fail
  refine blockIdentifier_returns.bind fun _ hBid => blockIdentifier_returns.bind fun _ hPid => ?_
  obtain ⟨bid, hBid, -⟩ := blockIdentifier_eq_ok.mp hBid
  obtain ⟨pid, hPid, -⟩ := blockIdentifier_eq_ok.mp hPid
  simp only [hBid, hPid]
  exact (Returns.ite (.ite returns_fail (.ite returns_fail returns_ok)) returns_ok).bind fun _ _ =>
    (Returns.ite timestamp_returns returns_ok).bind fun _ _ =>
      returns_checkEach fun tx hTx =>
        transaction_returns hash networkIdentifier hNetwork (h b rfl tx hTx)

end Transactions

/-! ### Signatures -/

section Signatures

variable {bytesArrayZero : List UInt8 → Bool}

theorem signatureType_returns {signature : String} : Returns (signatureType signature) :=
  .ite returns_ok returns_fail

theorem curveType_returns {curve : String} : Returns (curveType curve) :=
  .ite returns_ok returns_fail

theorem publicKey_returns {key : Option PublicKey} : Returns (publicKey bytesArrayZero key) :=
  match key with
  | none => returns_fail
  | some _ => .ite returns_fail (.ite returns_fail curveType_returns)

theorem signingPayload_returns {payload : Option SigningPayload} :
    Returns (signingPayload bytesArrayZero payload) :=
  match payload with
  | none => returns_fail
  | some _ => accountIdentifier_returns.bind fun _ _ =>
    .ite returns_fail (.ite returns_fail (.ite returns_ok signatureType_returns))

theorem signatures_returns {sigs : List (Option Signature)} (h : ∀ s ∈ sigs, s.isSome) :
    Returns (signatures bytesArrayZero sigs) := by
  refine .ite returns_fail (returns_checkEach fun s hs => ?_)
  obtain ⟨sig, rfl⟩ := Option.isSome_iff_exists.mp (h s hs)
  refine signingPayload_returns.bind fun _ hPayload =>
    publicKey_returns.bind fun _ _ => signatureType_returns.bind fun _ _ => ?_
  rcases hSome : sig.signingPayload with _ | payload
  · rw [hSome] at hPayload
    exact absurd hPayload fail_ne_ok
  · exact (Returns.ite returns_fail returns_ok).bind fun _ _ =>
      .ite returns_fail (.ite returns_fail returns_ok)

end Signatures

/-! ### Construction responses -/

section Responses

variable {bytesArrayZero : List UInt8 → Bool}
  {accountArray : String → List (Option AccountIdentifier) → Check}
  {assertUniqueAmounts : List (Option Amount) → Check}

end Responses

/-! ### The validators -/

section Validators

variable {κ : Type} [DecidableEq κ] (hash : Option RelatedTransaction → κ)
  (networkIdentifier : NetworkIdentifier → Check) (bytesArrayZero : List UInt8 → Bool)

/-- **The validators return on guarded inputs.**  With a network-identifier check that returns,
`Block` and `Transaction` return on transactions whose payments and fees carry amounts (when
validations are enabled) and that have no nil related operation or transaction,
`Operations` on such operations, and `Signatures` on a list without a nil signature.  The
asserter is a value, never a nil receiver. -/
theorem validators_return (hNetwork : ∀ n, Returns (networkIdentifier n)) (a : Asserter) :
    (∀ blk, (∀ b, blk = some b → ∀ tx ∈ b.transactions, ∀ t, tx = some t →
        a.TransactionGuarded t) → Returns (a.block hash networkIdentifier blk)) ∧
    (∀ tx, (∀ t, tx = some t → a.TransactionGuarded t) →
      Returns (a.transaction hash networkIdentifier tx)) ∧
    (∀ ops construction, a.OperationsGuarded ops → Returns (a.operations ops construction)) ∧
    (∀ sigs, (∀ s ∈ sigs, s.isSome) → Returns (signatures bytesArrayZero sigs)) :=
  ⟨fun _ h => block_returns hash networkIdentifier hNetwork h,
    fun _ h => transaction_returns hash networkIdentifier hNetwork h,
    fun _ _ h => operations_returns h, fun _ h => signatures_returns h⟩

end Validators

/-- With a network-identifier check that accepts everything, the validators of the default
asserter return on guarded inputs. -/
theorem validators_return_default :
    (∀ n, Returns ((fun _ : NetworkIdentifier => pure ()) n : Check)) ∧
    (∀ blk, (∀ b, blk = some b → ∀ tx ∈ b.transactions, ∀ t, tx = some t →
        ({} : Asserter).TransactionGuarded t) →
      Returns (({} : Asserter).block (fun _ => ()) (fun _ => pure ()) blk)) ∧
    (∀ tx, (∀ t, tx = some t → ({} : Asserter).TransactionGuarded t) →
      Returns (({} : Asserter).transaction (fun _ => ()) (fun _ => pure ()) tx)) ∧
    (∀ ops construction, ({} : Asserter).OperationsGuarded ops →
      Returns (({} : Asserter).operations ops construction)) ∧
    (∀ sigs, (∀ s ∈ sigs, s.isSome) → Returns (signatures (fun _ => false) sigs)) :=
  have hNetwork : ∀ n, Returns ((fun _ : NetworkIdentifier => pure ()) n : Check) :=
    fun _ => returns_ok
  ⟨hNetwork, validators_return (fun _ => ()) (fun _ => pure ()) (fun _ => false) hNetwork {}⟩

section ResponseChecks

variable (bytesArrayZero : List UInt8 → Bool)
  (accountArray : String → List (Option AccountIdentifier) → Check)
  (assertUniqueAmounts : List (Option Amount) → Check)

end ResponseChecks

end MeshSdk.Asserter
