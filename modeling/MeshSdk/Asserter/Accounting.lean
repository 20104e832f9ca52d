import MeshSdk.Asserter.Block

/-!
# The payment and fee accounting of `Operations`

With validations enabled, the loop of `Operations` keeps running totals (`Totals`): the sum and
the number of the payment operations, the same for the fee operations, and whether a related
operation was seen.  After the loop, `ValidatePaymentAndFee` checks the totals against the
payment and fee rules on account-based chains.

* `totalsOf v os`: the totals of the operations `os`, said directly: sums and counts over the
  operations each rule applies to (`ValidationOperation.operationsOf`).
* `paymentAndFee_eq_ok`: one iteration's accounting passes exactly on an `Accountable` operation,
  and adds that operation's totals.
* `operationsLoop_totals`: **the accumulator invariant**: a loop that passed over `os` has added
  `totalsOf os` to the totals it started from.
* `operations_accounting`: **what a passed `Operations` says of payments and fees**.
-/

namespace MeshSdk.Asserter

open Types

/-! ## Totals of a list of operations -/

/-- Two sets of totals added up: sums and counts add, and a related operation is seen in either. -/
def Totals.add (t u : Totals) : Totals where
  paymentTotal := t.paymentTotal + u.paymentTotal
  feeTotal := t.feeTotal + u.feeTotal
  paymentCount := t.paymentCount + u.paymentCount
  feeCount := t.feeCount + u.feeCount
  relatedOpsExists := t.relatedOpsExists || u.relatedOpsExists

theorem Totals.add_assoc (t u w : Totals) : (t.add u).add w = t.add (u.add w) := by
  simp only [Totals.add, Int.add_assoc, Bool.or_assoc]

/-- The operations a payment or fee rule applies to: those whose type is its name. -/
def ValidationOperation.operationsOf (rule : ValidationOperation) (os : List Operation) :
    List Operation :=
  os.filter (·.type = rule.name)

/-- The sum of the integer amounts of `os`, an operation without one adding nothing. -/
def amountSum : List Operation → Int
  | [] => 0
  | o :: os => (amountValue o.amount).getD 0 + amountSum os

/-- The totals the loop of `Operations` reaches over the operations `os` from zero totals. -/
def totalsOf (v : Validations) (os : List Operation) : Totals where
  paymentTotal := amountSum (v.payment.operationsOf os)
  feeTotal := amountSum (v.fee.operationsOf os)
  paymentCount := (v.payment.operationsOf os).length
  feeCount := (v.fee.operationsOf os).length
  relatedOpsExists := os.any fun o => !(o.relatedOperations.getD []).isEmpty

@[simp] theorem amountSum_nil : amountSum [] = 0 := rfl

@[simp] theorem amountSum_cons (o : Operation) (os : List Operation) :
    amountSum (o :: os) = (amountValue o.amount).getD 0 + amountSum os := rfl

theorem Totals.add_totalsOf_nil (v : Validations) (t : Totals) : t.add (totalsOf v []) = t := by
  simp [Totals.add, totalsOf, ValidationOperation.operationsOf]

theorem totalsOf_cons (v : Validations) (o : Operation) (os : List Operation) :
    totalsOf v (o :: os) = (totalsOf v [o]).add (totalsOf v os) := by
  simp only [totalsOf, Totals.add, ValidationOperation.operationsOf, List.filter_cons,
    List.filter_nil, List.any_cons, List.any_nil, Bool.or_false]
  split_ifs <;> simp [Int.add_comm]

/-! ## One iteration -/

/-- What the payment and fee accounting of `Operations` asks of one operation: a payment
operation has an integer amount, and a fee operation has no related operations (`nil`, not only
empty) and a negative integer amount. -/
structure Accountable (v : Validations) (o : Operation) : Prop where
  payment : o.type = v.payment.name → (amountValue o.amount).isSome
  feeRelated : o.type = v.fee.name → o.relatedOperations = none
  feeNegative : o.type = v.fee.name → ∃ x, amountValue o.amount = some x ∧ x < 0

theorem addPayment_eq_ok {a : Asserter} {t t' : Totals} {o : Operation} :
    a.addPayment t o = .ok t' ↔
      (o.type = a.validations.payment.name → (amountValue o.amount).isSome) ∧
      { t with
        paymentTotal := t.paymentTotal + amountSum (a.validations.payment.operationsOf [o])
        paymentCount := t.paymentCount + (a.validations.payment.operationsOf [o]).length } =
        t' := by
  unfold addPayment
  by_cases hType : o.type = a.validations.payment.name
  · rcases hAmount : o.amount with _ | amt
    · simp [hType, hAmount, amountValueOf]
    · rcases hv : parseBigInt amt.value with _ | x <;>
        simp [hType, hAmount, hv, amountValueOf, ValidationOperation.operationsOf]
  · simp [hType, ValidationOperation.operationsOf]

theorem addFee_eq_ok {a : Asserter} {t t' : Totals} {o : Operation} :
    a.addFee t o = .ok t' ↔
      (o.type = a.validations.fee.name → o.relatedOperations = none ∧
        ∃ x, amountValue o.amount = some x ∧ x < 0) ∧
      { t with
        feeTotal := t.feeTotal + amountSum (a.validations.fee.operationsOf [o])
        feeCount := t.feeCount + (a.validations.fee.operationsOf [o]).length } = t' := by
  unfold addFee
  by_cases hType : o.type = a.validations.fee.name
  · rcases hRelated : o.relatedOperations with _ | rs
    · rcases hAmount : o.amount with _ | amt
      · simp [hType, hRelated, hAmount, amountValueOf]
      · rcases hv : parseBigInt amt.value with _ | x
        · simp [hType, hRelated, hAmount, hv, amountValueOf, bigInt]
        · by_cases hNeg : x < 0
          · simp [hType, hRelated, hAmount, hv, hNeg, amountValueOf, bigInt,
              Int.sign_eq_neg_one_of_neg hNeg, ValidationOperation.operationsOf]
          · have hSign : x.sign ≠ -1 := fun h => hNeg (Int.sign_eq_neg_one_iff_neg.mp h)
            simp [hType, hRelated, hAmount, hv, hNeg, hSign, amountValueOf, bigInt]
    · simp [hType, hRelated]
  · simp [hType, ValidationOperation.operationsOf]

/-- **One iteration's accounting**: it passes exactly on an `Accountable` operation, and adds the
operation's payment and fee totals. -/
theorem paymentAndFee_eq_ok {a : Asserter} {t t' : Totals} {o : Operation} :
    a.paymentAndFee t o = .ok t' ↔ Accountable a.validations o ∧
      t.add { totalsOf a.validations [o] with relatedOpsExists := false } = t' := by
  simp only [paymentAndFee, bind_eq_ok, addPayment_eq_ok, addFee_eq_ok]
  constructor
  · rintro ⟨_, ⟨hPayment, rfl⟩, hFee, rfl⟩
    exact ⟨⟨hPayment, fun h => (hFee h).1, fun h => (hFee h).2⟩, by simp [Totals.add, totalsOf]⟩
  · rintro ⟨hAcc, rfl⟩
    exact ⟨_, ⟨hAcc.payment, rfl⟩, fun h => ⟨hAcc.feeRelated h, hAcc.feeNegative h⟩,
      by simp [Totals.add, totalsOf]⟩

theorem operationsStep_totals {a : Asserter} (hEnabled : a.validations.enabled = true)
    {construction : Bool} {i : Nat} {t t' : Totals} {op : Option Operation}
    (h : a.operationsStep construction i t op = .ok t') :
    ∃ o, op = some o ∧ Accountable a.validations o ∧ t' = t.add (totalsOf a.validations [o]) := by
  obtain ⟨o, rfl, -, t₁, hAcc, -, rfl⟩ := operationsStep_eq_ok.mp h
  rw [if_pos hEnabled, paymentAndFee_eq_ok] at hAcc
  obtain ⟨hAcc, rfl⟩ := hAcc
  exact ⟨o, rfl, hAcc, by simp [Totals.add, totalsOf]⟩

/-! ## The loop -/

/-- **The accumulator invariant of `Operations`**: a loop that passed over the operations `os`
has added their totals, `totalsOf os`, to the totals it started from, and every operation was
`Accountable`. -/
theorem operationsLoop_totals {a : Asserter} (hEnabled : a.validations.enabled = true)
    {construction : Bool} :
    ∀ {ops : List (Option Operation)} {i : Nat} {t t' : Totals},
      a.operationsLoop construction i t ops = .ok t' →
      ∃ os : List Operation, ops = os.map some ∧ (∀ o ∈ os, Accountable a.validations o) ∧
        t' = t.add (totalsOf a.validations os)
  | [], _, t, t', h => ⟨[], rfl, by simp, by
      rw [Totals.add_totalsOf_nil]; exact (pure_eq_ok.mp h).symm⟩
  | op :: ops, i, t, t', h => by
    obtain ⟨t₁, hFirst, hRest⟩ := bind_eq_ok.mp h
    obtain ⟨o, rfl, hAcc, rfl⟩ := operationsStep_totals hEnabled hFirst
    obtain ⟨os, rfl, hAccs, rfl⟩ := operationsLoop_totals hEnabled hRest
    refine ⟨o :: os, rfl, ?_, by rw [totalsOf_cons _ o os, Totals.add_assoc]⟩
    simpa using ⟨hAcc, hAccs⟩

/-! ## After the loop -/

/-- What `ValidatePaymentAndFee` asks of one rule, over the operations it applies to: their
number is the rule's count unless that is `-1`, and their amounts sum to zero when the rule
balances. -/
def ValidationOperation.Satisfied (rule : ValidationOperation) (os : List Operation) : Prop :=
  (rule.operation.count = -1 ∨ ((rule.operationsOf os).length : Int) = rule.operation.count) ∧
  (rule.operation.shouldBalance = true → amountSum (rule.operationsOf os) = 0)

theorem validatePaymentAndFee_eq_ok {a : Asserter} {pt pc ft fc : Int} :
    a.validatePaymentAndFee pt pc ft fc = .ok () ↔
      (a.validations.payment.operation.count = -1 ∨ pc = a.validations.payment.operation.count) ∧
      (a.validations.payment.operation.shouldBalance = true → pt = 0) ∧
      (a.validations.fee.operation.count = -1 ∨ fc = a.validations.fee.operation.count) ∧
      (a.validations.fee.operation.shouldBalance = true → ft = 0) := by
  unfold validatePaymentAndFee
  split_ifs with h₁ h₂ h₃ h₄ <;> simp only [fail_ne_ok, pure_eq_ok, false_iff, true_iff]
  · exact fun h => by omega
  · exact fun ⟨_, h, _⟩ => h₂.2 (h h₂.1)
  · exact fun ⟨_, _, h, _⟩ => by omega
  · exact fun ⟨_, _, _, h⟩ => h₄.2 (h h₄.1)
  · exact ⟨by omega, fun h => by simpa [h] using h₂, by omega, fun h => by simpa [h] using h₄⟩

/-- **What a passed `Operations` says of payments and fees**, with validations enabled: every
operation is present and `Accountable` (a fee operation has nil related operations and a
negative integer amount); with `RelatedOpsExists`, some operation has related operations; and on
an account-based chain both the payment rule and the fee rule are `Satisfied`. -/
theorem operations_accounting {a : Asserter} (hEnabled : a.validations.enabled = true)
    {ops : List (Option Operation)} {construction : Bool}
    (h : a.operations ops construction = .ok ()) :
    ∃ os : List Operation, ops = os.map some ∧ (∀ o ∈ os, Accountable a.validations o) ∧
      (a.validations.relatedOpsExists = true → ∃ o ∈ os, o.relatedOperations.getD [] ≠ []) ∧
      (a.validations.chainType = account →
        a.validations.payment.Satisfied os ∧ a.validations.fee.Satisfied os) := by
  obtain ⟨-, t, hLoop, hRelated, hValidate⟩ := operations_eq_ok.mp h
  obtain ⟨os, rfl, hAcc, rfl⟩ := operationsLoop_totals hEnabled hLoop
  refine ⟨os, rfl, hAcc, fun hExists => ?_, fun hAccount => ?_⟩
  · simpa [Totals.add, totalsOf] using hRelated hEnabled hExists
  · obtain ⟨hPaymentCount, hPaymentSum, hFeeCount, hFeeSum⟩ :=
      validatePaymentAndFee_eq_ok.mp (hValidate hEnabled hAccount)
    simp only [Totals.add, totalsOf, Int.zero_add] at hPaymentCount hPaymentSum hFeeCount hFeeSum
    exact ⟨⟨hPaymentCount, hPaymentSum⟩, ⟨hFeeCount, hFeeSum⟩⟩

/-- An account-based asserter in lenient mode with validations enabled: two balancing payments of
type `TRANSFER`, one fee of type `FEE`, and related operations required. -/
def accountAsserter : Asserter where
  validations :=
    { enabled := true
      relatedOpsExists := true
      chainType := account
      payment := { name := "TRANSFER", operation := { count := 2, shouldBalance := true } }
      fee := { name := "FEE", operation := { count := 1 } } }
  ignoreRosettaSpecValidation := true

/-- A debit of 5, a credit of 5 related to it, and a fee of 1. -/
def paymentOps : List (Option Operation) :=
  [some { operationIdentifier := some {}, type := "TRANSFER", status := some "SUCCESS"
          account := some { address := "alice" }
          amount := some { value := "-5", currency := some { symbol := "ETH", decimals := 18 } } },
   some { operationIdentifier := some { index := 1 }, relatedOperations := some [some {}]
          type := "TRANSFER", status := some "SUCCESS", account := some { address := "bob" }
          amount := some { value := "5", currency := some { symbol := "ETH", decimals := 18 } } },
   some { operationIdentifier := some { index := 2 }, type := "FEE", status := some "SUCCESS"
          account := some { address := "alice" }
          amount := some { value := "-1", currency := some { symbol := "ETH", decimals := 18 } } }]

/-- The transfer with its fee passes the account-based asserter, and so is accounted for. -/
theorem operations_accounting_transfer :
    accountAsserter.validations.enabled = true ∧
      accountAsserter.operations paymentOps false = .ok () ∧
      ∃ os : List Operation, paymentOps = os.map some ∧
        (∀ o ∈ os, Accountable accountAsserter.validations o) ∧
        (accountAsserter.validations.relatedOpsExists = true →
          ∃ o ∈ os, o.relatedOperations.getD [] ≠ []) ∧
        (accountAsserter.validations.chainType = account →
          accountAsserter.validations.payment.Satisfied os ∧
            accountAsserter.validations.fee.Satisfied os) :=
  have h : accountAsserter.operations paymentOps false = .ok () := rfl
  ⟨rfl, h, operations_accounting rfl h⟩

end MeshSdk.Asserter
