import MeshSdk.Asserter.Block

/-!
# What a passed `Block` certifies

The data-model invariants of spec §3 that a block passing `Block` is known to have, read off the
checks `Block` composes through `Transaction`, `Operations`, `Operation` and
`RelatedTransactions`.

* `operations_certified`: every operation of a list passing `Operations` outside construction
  is present, has a non-empty type and status (known ones in strict mode), and, when it carries
  an amount, a valid account, an integer amount with a valid currency, and a valid coin change
  if it has one.
* `relatedTransactions_certified`: the related transactions are present, pairwise distinct by
  key, with valid identifiers and directions.
* `block_certified`: **a block passing `Block` is `Certified`**.

`Operation` returns before the coin-change check when an operation has no amount, so the coin
change of such an operation is not checked (`block_coinChange_without_amount`).
-/

namespace MeshSdk.Types

/-- What `Operation` certifies of an operation outside construction. -/
structure Operation.Certified (a : Asserter) (o : Operation) : Prop where
  type_ne : o.type ≠ ""
  type_known : a.ignoreRosettaSpecValidation = false → o.type ∈ a.operationTypes
  status : ∃ s, o.status = some s ∧ s ≠ "" ∧
    (a.ignoreRosettaSpecValidation = false → s ∈ a.operationStatusMap)
  amount : ∀ amt, o.amount = some amt → (∃ acc, o.account = some acc ∧ acc.Valid) ∧
    amt.Valid ∧ ∀ c, o.coinChange = some c → Asserter.coinChange c = .ok ()

/-- What `Transaction` certifies of a transaction; related transactions are told apart by their
keys under `hash`. -/
structure Transaction.Certified {κ : Type} (hash : Option RelatedTransaction → κ) (a : Asserter)
    (t : Transaction) : Prop where
  identifier : ∃ id, t.transactionIdentifier = some id ∧ id.hash ≠ ""
  related_distinct : (t.relatedTransactions.map hash).Nodup
  related : ∀ rt ∈ t.relatedTransactions, ∃ r, rt = some r ∧
    (∃ id, r.transactionIdentifier = some id ∧ id.hash ≠ "") ∧
    (r.direction = forward ∨ r.direction = backward)
  operations : ∀ op ∈ t.operations, ∃ o, op = some o ∧ o.Certified a

/-- What `Block` certifies of a block. -/
structure Block.Certified {κ : Type} (hash : Option RelatedTransaction → κ) (a : Asserter)
    (b : Block) : Prop where
  identifiers : ∃ bid pid, b.blockIdentifier = some bid ∧ b.parentBlockIdentifier = some pid ∧
    bid.Valid ∧ pid.Valid ∧
    ((∀ g, a.genesisBlock = some g → g.index ≠ bid.index) →
      bid.hash ≠ pid.hash ∧ pid.index < bid.index) ∧
    (a.ignoreRosettaSpecValidation = false → a.timestampStartIndex ≤ bid.index →
      Asserter.minUnixEpoch ≤ b.timestamp ∧ b.timestamp ≤ Asserter.maxUnixEpoch)
  transactions : ∀ tx ∈ b.transactions, ∃ t, tx = some t ∧ t.Certified hash a

end MeshSdk.Types

namespace MeshSdk.Asserter

open Types

theorem operation_certified {a : Asserter} {op : Option Operation} {index : Int}
    (h : a.operation op index false = .ok ()) : ∃ o, op = some o ∧ o.Certified a := by
  obtain ⟨o, rfl, -, hType, hStatus, hAmount⟩ := operation_eq_ok.mp h
  obtain ⟨hTypeNe, hTypeKnown⟩ := operationType_eq_ok.mp hType
  obtain ⟨hStatusNe, hStatusKnown⟩ := operationStatus_eq_ok.mp hStatus
  obtain ⟨s, hs⟩ : ∃ s, o.status = some s := by
    rcases hSome : o.status with _ | s
    · simp [hSome] at hStatusNe
    · exact ⟨s, rfl⟩
  refine ⟨o, rfl, hTypeNe, hTypeKnown, ⟨s, hs, by simpa [hs] using hStatusNe,
    by simpa [hs] using hStatusKnown⟩, fun amt hAmt => ?_⟩
  obtain ⟨hAccount, hAmountOk, hCoin⟩ := hAmount amt hAmt
  obtain ⟨x, hx, hxValid⟩ := amount_eq_ok.mp hAmountOk
  rw [hAmt, Option.some.injEq] at hx
  exact ⟨accountIdentifier_eq_ok.mp hAccount, hx ▸ hxValid, hCoin⟩

theorem operations_certified {a : Asserter} {ops : List (Option Operation)}
    (h : a.operations ops false = .ok ()) :
    ∀ op ∈ ops, ∃ o, op = some o ∧ o.Certified a := by
  obtain ⟨-, t, hLoop, -⟩ := operations_eq_ok.mp h
  have hAll := operationsLoop_ok (P := fun _ op => ∃ o, op = some o ∧ o.Certified a)
    (fun _ _ _ _ hStep => by
      obtain ⟨o, rfl, hOp, -⟩ := operationsStep_eq_ok.mp hStep
      exact operation_certified hOp) hLoop
  intro op hOp
  obtain ⟨j, hj, rfl⟩ := List.getElem_of_mem hOp
  simpa using hAll j hj

section Transactions

variable {κ : Type} [DecidableEq κ] (hash : Option RelatedTransaction → κ)
  (networkIdentifier : NetworkIdentifier → Check)

theorem relatedTransactions_certified {rts : List (Option RelatedTransaction)}
    (h : relatedTransactions hash networkIdentifier rts = .ok ()) :
    (rts.map hash).Nodup ∧ ∀ rt ∈ rts, ∃ r, rt = some r ∧
      (∃ id, r.transactionIdentifier = some id ∧ id.hash ≠ "") ∧
      (r.direction = forward ∨ r.direction = backward) := by
  obtain ⟨hDup, hEach⟩ := (relatedTransactions_eq_ok hash networkIdentifier).mp h
  have hPresent : ∀ rt ∈ rts, ∃ r, rt = some r ∧
      (∃ id, r.transactionIdentifier = some id ∧ id.hash ≠ "") ∧
      (r.direction = forward ∨ r.direction = backward) := fun rt hrt => by
    obtain ⟨r, rfl, -, hId, hDir⟩ :=
      (relatedTransaction_eq_ok networkIdentifier).mp (hEach rt hrt)
    exact ⟨r, rfl, transactionIdentifier_eq_ok.mp hId, direction_eq_ok.mp hDir⟩
  refine ⟨(duplicateRelatedTransactionFrom_eq_none hash hDup fun rt hrt => ?_).1, hPresent⟩
  obtain ⟨r, rfl, -⟩ := hPresent rt hrt
  rfl

theorem transaction_certified {a : Asserter} {tx : Option Transaction}
    (h : a.transaction hash networkIdentifier tx = .ok ()) :
    ∃ t, tx = some t ∧ t.Certified hash a := by
  obtain ⟨t, rfl, hId, hOps, hRel⟩ := (transaction_eq_ok hash networkIdentifier).mp h
  obtain ⟨hDistinct, hRelated⟩ := relatedTransactions_certified hash networkIdentifier hRel
  exact ⟨t, rfl, transactionIdentifier_eq_ok.mp hId, hDistinct, hRelated,
    operations_certified hOps⟩

/-- **What `Block` certifies.**  A block passing `Block` has valid identifiers, differs from its
parent in hash and follows it in index unless it sits at the genesis index, has an in-range
timestamp where strict mode checks it, and carries only certified transactions. -/
theorem block_certified {a : Asserter} {b : Block}
    (h : a.block hash networkIdentifier (some b) = .ok ()) : b.Certified hash a := by
  obtain ⟨b, bid, pid, hb, hBid, hPid, hBV, hPV, hParent, hTime, hTxs⟩ :=
    (block_eq_ok hash networkIdentifier).mp h
  cases hb
  refine ⟨⟨bid, pid, hBid, hPid, hBV, hPV, fun hNotGenesis => hParent ?_,
    fun hStrict hStart => timestamp_eq_ok.mp (hTime hStrict hStart)⟩,
    fun tx hTx => transaction_certified hash networkIdentifier (hTxs tx hTx)⟩
  rcases hG : a.genesisBlock with _ | g
  · simp
  · simpa using hNotGenesis g hG

end Transactions

/-- A block with one transfer passes a lenient asserter, and is certified. -/
theorem block_certified_transfer :
    ({ ignoreRosettaSpecValidation := true } : Asserter).block (fun _ => ()) (fun _ => pure ())
        (some { blockIdentifier := some { index := 1, hash := "block" }
                parentBlockIdentifier := some { index := 0, hash := "parent" }
                transactions :=
                  [some { transactionIdentifier := some { hash := "tx" }
                          operations :=
                            [some { operationIdentifier := some {}
                                    type := "TRANSFER"
                                    status := some "SUCCESS" }] }] }) = .ok () ∧
      Block.Certified (fun _ => ()) { ignoreRosettaSpecValidation := true }
        { blockIdentifier := some { index := 1, hash := "block" }
          parentBlockIdentifier := some { index := 0, hash := "parent" }
          transactions :=
            [some { transactionIdentifier := some { hash := "tx" }
                    operations :=
                      [some { operationIdentifier := some {}
                              type := "TRANSFER"
                              status := some "SUCCESS" }] }] } :=
  ⟨rfl, block_certified (fun _ => ()) (fun _ => pure ()) rfl⟩

/-- A lenient asserter passes a block whose one operation has no amount and a coin change that
names no coin, which the coin-change check rejects. -/
theorem block_coinChange_without_amount :
    ({ ignoreRosettaSpecValidation := true } : Asserter).block (fun _ => ()) (fun _ => pure ())
        (some { blockIdentifier := some { index := 1, hash := "block" }
                parentBlockIdentifier := some { index := 0, hash := "parent" }
                transactions :=
                  [some { transactionIdentifier := some { hash := "tx" }
                          operations :=
                            [some { operationIdentifier := some {}
                                    type := "TRANSFER"
                                    status := some "SUCCESS"
                                    coinChange := some { coinAction := coinCreated } }] }] }) =
      .ok () ∧
    coinChange { coinAction := coinCreated } ≠ .ok () :=
  ⟨rfl, by simp [coinChange]⟩

end MeshSdk.Asserter
