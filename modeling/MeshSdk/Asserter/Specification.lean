import Mathlib.Data.List.Chain
import MeshSdk.Asserter.Accounting
import MeshSdk.Asserter.Duplicates
import MeshSdk.Asserter.Ordering

/-!
# `Operations` and `Block` against their specification

The loop of `Operations` checks each operation at its loop index and carries running totals
from one iteration to the next; after the loop it checks the totals.  Said without the loop, a
list passes when each of its operations passes the checks of its own position, and the list as
a whole passes the checks on its totals (`OperationsMeet`):

* `OperationValid a construction i o`: `Operation` accepts `o` at index `i`, `o` sits at
  position `i` with its related operations before it (`Operation.OrderedAt`), and with
  validations enabled its payment and fee accounting passes (`Accountable`).
* `loopTotals v os`: what the loop adds to its totals over `os`.

The passed direction of each step is what the earlier files read off a passed run; here each
step is an equivalence, so that the loop accepts every list of valid operations:

* `relatedOperations_of_ordered`: the related-operations loop passes on ordered related
  operations.
* `operationsStep_some_eq_ok`, `operationsLoop_eq_ok`: one iteration, and the loop, pass
  exactly on valid operations, and add `loopTotals`.
* `operations_eq_ok_iff_meets`: **`Operations` passes exactly on the lists that meet the
  specification**, so it rejects no list whose operations are each valid at their position and
  whose totals satisfy the payment and fee rules.

Above `Operations`, `Transaction` and `Block` add checks on identifiers, on the parent and the
timestamp, and the scan of `DuplicateRelatedTransaction`:

* `relatedTransactions_eq_ok_iff_nodup`: the scan, with the checks of each related transaction,
  passes exactly on keys that are pairwise distinct.
* `block_eq_ok_iff_meets`: **`Block` passes exactly on the blocks that meet the specification**
  (`BlockMeets`, through `TransactionMeets` and `OperationsMeet`).
* `precedes_of_parent`, `chain'_precedes`: one parent link, and a linked chain of passing
  blocks, go up in index.
* `block_chain_increasing`: **along a linked chain of passing blocks the indices increase**, so
  the chain never returns to an identifier.
-/

namespace MeshSdk.Asserter

open Types

/-! ## The specification -/

/-- What the loop of `Operations` asks of the operation `o` at position `i`. -/
structure OperationValid (a : Asserter) (construction : Bool) (i : Nat) (o : Operation) :
    Prop where
  checks : a.operation (some o) i construction = .ok ()
  ordered : o.OrderedAt i
  accountable : a.validations.enabled = true → Accountable a.validations o

/-- What `Operations` asks of a list of present operations `os`. -/
structure OperationsMeet (a : Asserter) (construction : Bool) (os : List Operation) : Prop where
  nonempty : construction = true → os ≠ []
  valid : ∀ i o, os[i]? = some o → OperationValid a construction i o
  relatedExists : a.validations.enabled = true → a.validations.relatedOpsExists = true →
    ∃ o ∈ os, o.relatedOperations.getD [] ≠ []
  rules : a.validations.enabled = true → a.validations.chainType = account →
    a.validations.payment.Satisfied os ∧ a.validations.fee.Satisfied os

/-- The totals the loop of `Operations` adds over `os`: the payment and fee totals when
validations are enabled, and in any case whether an operation has related operations. -/
def loopTotals (v : Validations) (os : List Operation) : Totals :=
  if v.enabled then totalsOf v os else { relatedOpsExists := (totalsOf v os).relatedOpsExists }

@[simp] theorem Totals.zero_add (t : Totals) : ({} : Totals).add t = t := by
  simp [Totals.add]

theorem Totals.add_loopTotals_nil (v : Validations) (t : Totals) :
    t.add (loopTotals v []) = t := by
  unfold loopTotals
  split_ifs
  · exact t.add_totalsOf_nil v
  · simp [Totals.add, totalsOf]

theorem loopTotals_cons (v : Validations) (o : Operation) (os : List Operation) :
    loopTotals v (o :: os) = (loopTotals v [o]).add (loopTotals v os) := by
  unfold loopTotals
  split_ifs
  · exact totalsOf_cons v o os
  · rw [totalsOf_cons]
    simp [Totals.add]

theorem loopTotals_relatedOpsExists (v : Validations) (os : List Operation) :
    (loopTotals v os).relatedOpsExists = true ↔ ∃ o ∈ os, o.relatedOperations.getD [] ≠ [] := by
  unfold loopTotals
  split_ifs <;> simp [totalsOf]

/-! ## One iteration -/

/-- The related-operations loop passes on present related operations with pairwise distinct
indices below the operation's own, none of them among `seen`. -/
theorem relatedOperations_of_ordered {id : OperationIdentifier} :
    ∀ (rs : List OperationIdentifier) {seen : List Int}, (∀ r ∈ rs, r.index < id.index) →
      (rs.map (·.index)).Nodup → (∀ r ∈ rs, r.index ∉ seen) →
      relatedOperations (some id) seen (rs.map some) = .ok ()
  | [], _, _, _, _ => rfl
  | r :: rs, seen, hBelow, hNodup, hFresh => by
    simp only [List.map_cons, List.nodup_cons, List.mem_map, not_exists, not_and] at hNodup
    have hLt := hBelow r (List.mem_cons_self r rs)
    have hNew : r.index ∉ seen := hFresh r (List.mem_cons_self r rs)
    simp only [relatedOperations, containsInt64, show ¬ r.index ≥ id.index by omega, if_false,
      linearContains_eq_true.not.mpr hNew, Bool.false_eq_true]
    refine relatedOperations_of_ordered rs (fun r' hr' => hBelow r' (List.mem_cons_of_mem r hr'))
      hNodup.2 fun r' hr' hMem => ?_
    rcases List.mem_append.mp hMem with hSeen | hSame
    · exact hFresh r' (List.mem_cons_of_mem r hr') hSeen
    · exact hNodup.1 r' hr' (List.mem_singleton.mp hSame)

/-- **One iteration is exact**: it passes on a present operation exactly when the operation is
valid at its position, and adds the operation's totals. -/
theorem operationsStep_some_eq_ok {a : Asserter} {construction : Bool} {i : Nat}
    {t t' : Totals} {o : Operation} :
    a.operationsStep construction i t (some o) = .ok t' ↔
      OperationValid a construction i o ∧ t' = t.add (loopTotals a.validations [o]) := by
  constructor
  · intro h
    obtain ⟨_, ho, hOp, t₁, hAccount, -, rfl⟩ := operationsStep_eq_ok.mp h
    cases ho
    obtain ⟨_, ho, hOrdered⟩ := operationsStep_orderedAt h
    cases ho
    cases hEnabled : a.validations.enabled
    case false =>
      rw [hEnabled, if_neg Bool.false_ne_true, pure_eq_ok] at hAccount
      subst hAccount
      exact ⟨⟨hOp, hOrdered, fun h => by simp [hEnabled] at h⟩, by simp [loopTotals, hEnabled,
        Totals.add, totalsOf]⟩
    case true =>
      rw [hEnabled, if_pos rfl, paymentAndFee_eq_ok] at hAccount
      obtain ⟨hAcc, rfl⟩ := hAccount
      exact ⟨⟨hOp, hOrdered, fun _ => hAcc⟩, by simp [loopTotals, hEnabled, Totals.add,
        totalsOf]⟩
  · rintro ⟨⟨hOp, ⟨⟨id, hId, hIndex, -⟩, ⟨rs, hRs, hNodup, hBelow⟩⟩, hAcc⟩, rfl⟩
    have hRelated : relatedOperations o.operationIdentifier [] (o.relatedOperations.getD []) =
        .ok () := by
      rw [hId, hRs]
      exact relatedOperations_of_ordered rs (fun r hr => hIndex ▸ hBelow r hr) hNodup (by simp)
    cases hEnabled : a.validations.enabled
    case false =>
      refine operationsStep_eq_ok.mpr ⟨o, rfl, hOp, t, by simp [hEnabled], hRelated, ?_⟩
      simp [loopTotals, hEnabled, Totals.add, totalsOf]
    case true =>
      have hPaid : a.paymentAndFee t o =
          .ok (t.add { totalsOf a.validations [o] with relatedOpsExists := false }) :=
        paymentAndFee_eq_ok.mpr ⟨hAcc hEnabled, rfl⟩
      refine operationsStep_eq_ok.mpr ⟨o, rfl, hOp, _, by rw [hEnabled, if_pos rfl]; exact hPaid,
        hRelated, ?_⟩
      simp [loopTotals, hEnabled, Totals.add, totalsOf]

/-! ## The loop -/

/-- **The loop is exact**: it passes over `ops` from index `i` exactly when the operations are
present and each is valid at its index, and it adds their totals. -/
theorem operationsLoop_eq_ok {a : Asserter} {construction : Bool} :
    ∀ {ops : List (Option Operation)} {i : Nat} {t t' : Totals},
      a.operationsLoop construction i t ops = .ok t' ↔
        ∃ os : List Operation, ops = os.map some ∧
          (∀ j o, os[j]? = some o → OperationValid a construction (i + j) o) ∧
          t' = t.add (loopTotals a.validations os)
  | [], _, t, t' => by
    simp only [operationsLoop, pure_eq_ok]
    constructor
    · rintro rfl
      exact ⟨[], rfl, by simp, (t.add_loopTotals_nil _).symm⟩
    · rintro ⟨os, hOps, -, rfl⟩
      obtain rfl : os = [] := List.map_eq_nil_iff.mp hOps.symm
      exact (t.add_loopTotals_nil _).symm
  | none :: ops, i, t, t' => by
    simp only [operationsLoop, bind_eq_ok, operationsStep_eq_ok]
    constructor
    · rintro ⟨_, ⟨_, h, -⟩, -⟩
      cases h
    · rintro ⟨_ | ⟨_, _⟩, h, -⟩ <;> cases h
  | some o :: ops, i, t, t' => by
    simp only [operationsLoop, bind_eq_ok, operationsStep_some_eq_ok]
    constructor
    · rintro ⟨_, ⟨hValid, rfl⟩, hRest⟩
      obtain ⟨os, rfl, hValids, rfl⟩ := operationsLoop_eq_ok.mp hRest
      refine ⟨o :: os, rfl, fun j o' hj => ?_, by
        rw [loopTotals_cons _ o os, Totals.add_assoc]⟩
      cases j with
      | zero => simpa using (show o = o' by simpa using hj) ▸ hValid
      | succ j => simpa [Nat.add_assoc, Nat.add_comm 1 j] using hValids j o' (by simpa using hj)
    · rintro ⟨_ | ⟨o', os⟩, hOps, hValids, rfl⟩
      · cases hOps
      simp only [List.map_cons, List.cons.injEq, Option.some.injEq] at hOps
      obtain ⟨rfl, rfl⟩ := hOps
      refine ⟨_, ⟨by simpa using hValids 0 o (by simp), rfl⟩, operationsLoop_eq_ok.mpr
        ⟨os, rfl, fun j o' hj => ?_, by rw [loopTotals_cons _ o os, Totals.add_assoc]⟩⟩
      simpa [Nat.add_assoc, Nat.add_comm 1 j] using hValids (j + 1) o' (by simpa using hj)

/-! ## `Operations` -/

theorem validatePaymentAndFee_totalsOf {a : Asserter} {os : List Operation} :
    a.validatePaymentAndFee (totalsOf a.validations os).paymentTotal
        (totalsOf a.validations os).paymentCount (totalsOf a.validations os).feeTotal
        (totalsOf a.validations os).feeCount = .ok () ↔
      a.validations.payment.Satisfied os ∧ a.validations.fee.Satisfied os := by
  rw [validatePaymentAndFee_eq_ok]
  simp only [ValidationOperation.Satisfied, totalsOf, and_assoc]

/-- A passed `Operations` holds present operations that meet the specification. -/
theorem exists_operationsMeet_of_eq_ok {a : Asserter} {ops : List (Option Operation)}
    {construction : Bool} (h : a.operations ops construction = .ok ()) :
    ∃ os : List Operation, ops = os.map some ∧ OperationsMeet a construction os := by
  obtain ⟨hEmpty, t, hLoop, hRelated, hRules⟩ := operations_eq_ok.mp h
  obtain ⟨os, rfl, hValid, rfl⟩ := operationsLoop_eq_ok.mp hLoop
  refine ⟨os, rfl, fun hC hNil => hEmpty ⟨by simp [hNil], hC⟩,
    fun i o hi => by simpa using hValid i o hi, fun hE hR => ?_, fun hE hA => ?_⟩
  · simpa [loopTotals_relatedOpsExists] using hRelated hE hR
  · simpa [loopTotals, hE, validatePaymentAndFee_totalsOf] using hRules hE hA

/-- `Operations` passes the present operations of a list that meets the specification. -/
theorem OperationsMeet.operations_ok {a : Asserter} {construction : Bool} {os : List Operation}
    (hMeet : OperationsMeet a construction os) :
    a.operations (os.map some) construction = .ok () := by
  refine operations_eq_ok.mpr ⟨fun ⟨hNil, hC⟩ => hMeet.nonempty hC (by simpa using hNil), _,
    operationsLoop_eq_ok.mpr ⟨os, rfl, fun j o hj => by simpa using hMeet.valid j o hj, rfl⟩,
    fun hE hR => ?_, fun hE hA => ?_⟩
  · simpa [loopTotals_relatedOpsExists] using hMeet.relatedExists hE hR
  · simpa [loopTotals, hE, validatePaymentAndFee_totalsOf] using hMeet.rules hE hA

/-- **`Operations` is exact**: it passes on a list exactly when the list holds present
operations that meet the specification: not empty in construction, each valid at its position,
and, with validations enabled, a related operation when one is required and the payment and fee
rules satisfied on an account-based chain. -/
theorem operations_eq_ok_iff_meets {a : Asserter} {ops : List (Option Operation)}
    {construction : Bool} :
    a.operations ops construction = .ok () ↔
      ∃ os : List Operation, ops = os.map some ∧ OperationsMeet a construction os :=
  ⟨exists_operationsMeet_of_eq_ok, fun ⟨_, hOps, hMeet⟩ => hOps ▸ hMeet.operations_ok⟩

/-! ## `Transaction` and `Block` -/

section Block

variable {κ : Type} [DecidableEq κ] (hash : Option RelatedTransaction → κ)
  (networkIdentifier : NetworkIdentifier → Check)

/-- What `Transaction` asks of a transaction: a valid identifier, operations that meet the
specification outside construction, and related transactions that are pairwise distinct under
`hash` and each pass their own checks. -/
structure TransactionMeets (a : Asserter) (t : Transaction) : Prop where
  identifier : transactionIdentifier t.transactionIdentifier = .ok ()
  operations : ∃ os : List Operation, t.operations = os.map some ∧ OperationsMeet a false os
  relatedDistinct : (t.relatedTransactions.map hash).Nodup
  related : ∀ rt ∈ t.relatedTransactions, relatedTransaction networkIdentifier rt = .ok ()

/-- What `Block` asks of a block: valid identifiers, a parent it follows unless it sits at the
genesis index, a timestamp in range where strict mode checks it, and transactions that meet the
specification. -/
structure BlockMeets (a : Asserter) (b : Block) : Prop where
  identifiers : ∃ bid pid, b.blockIdentifier = some bid ∧ b.parentBlockIdentifier = some pid ∧
    bid.Valid ∧ pid.Valid ∧
    ((∀ g, a.genesisBlock = some g → g.index ≠ bid.index) →
      bid.hash ≠ pid.hash ∧ pid.index < bid.index) ∧
    (a.ignoreRosettaSpecValidation = false → a.timestampStartIndex ≤ bid.index →
      minUnixEpoch ≤ b.timestamp ∧ b.timestamp ≤ maxUnixEpoch)
  transactions : ∀ tx ∈ b.transactions, ∃ t, tx = some t ∧
    TransactionMeets hash networkIdentifier a t

/-- The scan for duplicates finds none exactly when the keys are pairwise distinct, once every
related transaction passes its checks: a nil one fails them, so a nil duplicate, which the scan
does not report, is still rejected. -/
theorem relatedTransactions_eq_ok_iff_nodup {rts : List (Option RelatedTransaction)} :
    relatedTransactions hash networkIdentifier rts = .ok () ↔
      (rts.map hash).Nodup ∧ ∀ rt ∈ rts, relatedTransaction networkIdentifier rt = .ok () := by
  rw [relatedTransactions_eq_ok]
  constructor
  · rintro ⟨hDup, hEach⟩
    refine ⟨(duplicateRelatedTransactionFrom_eq_none hash hDup fun rt hrt => ?_).1, hEach⟩
    obtain ⟨r, rfl, -⟩ := (relatedTransaction_eq_ok networkIdentifier).mp (hEach rt hrt)
    rfl
  · rintro ⟨hNodup, hEach⟩
    exact ⟨duplicateRelatedTransactionFrom_of_nodup hash hNodup (by simp), hEach⟩

theorem transaction_eq_ok_iff_meets {a : Asserter} {tx : Option Transaction} :
    a.transaction hash networkIdentifier tx = .ok () ↔
      ∃ t, tx = some t ∧ TransactionMeets hash networkIdentifier a t := by
  simp only [transaction_eq_ok, relatedTransactions_eq_ok_iff_nodup]
  constructor
  · rintro ⟨t, rfl, hId, hOps, hNodup, hEach⟩
    exact ⟨t, rfl, hId, exists_operationsMeet_of_eq_ok hOps, hNodup, hEach⟩
  · rintro ⟨t, rfl, hId, ⟨os, hOs, hMeet⟩, hNodup, hEach⟩
    exact ⟨t, rfl, hId, hOs ▸ hMeet.operations_ok, hNodup, hEach⟩

theorem genesisBlock_map_ne_iff {a : Asserter} {index : Int} :
    a.genesisBlock.map (·.index) ≠ some index ↔
      ∀ g, a.genesisBlock = some g → g.index ≠ index := by
  rcases a.genesisBlock with _ | g <;> simp

/-- **`Block` is exact**: it passes a block exactly when the block meets the specification, down
to each operation at its position and the payment and fee rules of each transaction. -/
theorem block_eq_ok_iff_meets {a : Asserter} {b : Block} :
    a.block hash networkIdentifier (some b) = .ok () ↔ BlockMeets hash networkIdentifier a b := by
  simp only [block_eq_ok, transaction_eq_ok_iff_meets, genesisBlock_map_ne_iff, timestamp_eq_ok]
  constructor
  · rintro ⟨_, bid, pid, ⟨⟩, hBid, hPid, hBV, hPV, hParent, hTime, hTxs⟩
    exact ⟨⟨bid, pid, hBid, hPid, hBV, hPV, hParent, hTime⟩, hTxs⟩
  · rintro ⟨⟨bid, pid, hBid, hPid, hBV, hPV, hParent, hTime⟩, hTxs⟩
    exact ⟨b, bid, pid, rfl, hBid, hPid, hBV, hPV, hParent, hTime, hTxs⟩

/-! ## Chains of blocks -/

/-- `b` comes before `c` by index: both have identifiers, and `b`'s index is the smaller. -/
def Precedes (b c : Block) : Prop :=
  ∃ bid cid, b.blockIdentifier = some bid ∧ c.blockIdentifier = some cid ∧ bid.index < cid.index

theorem Precedes.trans {b c e : Block} (hbc : Precedes b c) (hce : Precedes c e) :
    Precedes b e := by
  obtain ⟨bid, cid, hb, hc, hlt⟩ := hbc
  obtain ⟨cid', eid, hc', he, hlt'⟩ := hce
  obtain rfl : cid = cid' := Option.some.inj (hc.symm.trans hc')
  exact ⟨bid, eid, hb, he, hlt.trans hlt'⟩

instance : IsTrans Block Precedes := ⟨fun _ _ _ => Precedes.trans⟩

theorem Precedes.ne {b c : Block} (h : Precedes b c) : b.blockIdentifier ≠ c.blockIdentifier := by
  obtain ⟨bid, cid, hb, hc, hlt⟩ := h
  rw [hb, hc]
  rintro ⟨⟩
  exact lt_irrefl _ hlt

/-- **One link**: a block that passes `Block`, names `b` as its parent and is not at the genesis
index comes after `b`. -/
theorem precedes_of_parent {a : Asserter} {b c : Block}
    (hOk : a.block hash networkIdentifier (some c) = .ok ())
    (hParent : c.parentBlockIdentifier = b.blockIdentifier)
    (hPast : ∀ g, a.genesisBlock = some g → c.blockIdentifier.map (·.index) ≠ some g.index) :
    Precedes b c := by
  obtain ⟨_, cid, pid, ⟨⟩, hCid, hPid, -, -, hFollow, -, -⟩ :=
    (block_eq_ok hash networkIdentifier).mp hOk
  have hNotGenesis : a.genesisBlock.map (·.index) ≠ some cid.index :=
    genesisBlock_map_ne_iff.mpr fun g hg hEq => hPast g hg (by simp [hCid, hEq])
  exact ⟨pid, cid, hParent.symm.trans hPid, hCid, (hFollow hNotGenesis).2⟩

theorem chain'_precedes {a : Asserter} :
    ∀ {bs : List Block}, (∀ b ∈ bs, a.block hash networkIdentifier (some b) = .ok ()) →
      bs.Chain' (fun b c => c.parentBlockIdentifier = b.blockIdentifier) →
      (∀ c ∈ bs.tail, ∀ g, a.genesisBlock = some g →
        c.blockIdentifier.map (·.index) ≠ some g.index) →
      bs.Chain' Precedes
  | [], _, _, _ => List.chain'_nil
  | [_], _, _, _ => List.chain'_singleton _
  | b :: c :: rest, hOk, hLinked, hPast => by
    rw [List.chain'_cons] at hLinked ⊢
    exact ⟨precedes_of_parent hash networkIdentifier (hOk c (by simp)) hLinked.1
        (hPast c (List.mem_cons_self c rest)),
      chain'_precedes (fun x hx => hOk x (List.mem_cons_of_mem b hx)) hLinked.2
        fun x hx => hPast x (List.mem_cons_of_mem c hx)⟩

/-- **Along a linked chain, indices increase.**  In a list of blocks that each pass `Block` and
each name the one before as their parent, every block after the first not at the genesis index,
every block has an identifier, and a smaller index than every later one.  So no block
identifier occurs twice: a chain that `Block` accepts link by link never loops back. -/
theorem block_chain_increasing {a : Asserter} {bs : List Block}
    (hOk : ∀ b ∈ bs, a.block hash networkIdentifier (some b) = .ok ())
    (hLinked : bs.Chain' fun b c => c.parentBlockIdentifier = b.blockIdentifier)
    (hPast : ∀ c ∈ bs.tail, ∀ g, a.genesisBlock = some g →
      c.blockIdentifier.map (·.index) ≠ some g.index) :
    (∀ b ∈ bs, ∃ bid, b.blockIdentifier = some bid) ∧ bs.Pairwise Precedes ∧
      (bs.map (·.blockIdentifier)).Nodup := by
  have hIdentified : ∀ b ∈ bs, ∃ bid, b.blockIdentifier = some bid := fun b hb => by
    obtain ⟨_, bid, -, ⟨⟩, hBid, -⟩ := (block_eq_ok hash networkIdentifier).mp (hOk b hb)
    exact ⟨bid, hBid⟩
  have hPairwise : bs.Pairwise Precedes :=
    List.chain'_iff_pairwise.mp (chain'_precedes hash networkIdentifier hOk hLinked hPast)
  exact ⟨hIdentified, hPairwise, List.pairwise_map.mpr (hPairwise.imp Precedes.ne)⟩

end Block

/-- Two blocks after a genesis block, each naming the one before as its parent. -/
def linkedPair : List Block :=
  [{ blockIdentifier := some { index := 1, hash := "first" }
     parentBlockIdentifier := some { index := 0, hash := "genesis" } },
   { blockIdentifier := some { index := 2, hash := "second" }
     parentBlockIdentifier := some { index := 1, hash := "first" } }]

/-- The two linked blocks pass a lenient asserter, and their indices increase. -/
theorem block_chain_increasing_linkedPair :
    (∀ b ∈ linkedPair, ({ ignoreRosettaSpecValidation := true } : Asserter).block (fun _ => ())
      (fun _ => pure ()) (some b) = .ok ()) ∧
    linkedPair.Chain' (fun b c => c.parentBlockIdentifier = b.blockIdentifier) ∧
    (∀ c ∈ linkedPair.tail, ∀ g,
      ({ ignoreRosettaSpecValidation := true } : Asserter).genesisBlock = some g →
      c.blockIdentifier.map (·.index) ≠ some g.index) ∧
    (∀ b ∈ linkedPair, ∃ bid, b.blockIdentifier = some bid) ∧ linkedPair.Pairwise Precedes ∧
      (linkedPair.map (·.blockIdentifier)).Nodup := by
  have hOk : ∀ b ∈ linkedPair, ({ ignoreRosettaSpecValidation := true } : Asserter).block
      (fun _ => ()) (fun _ => pure ()) (some b) = .ok () := by
    simp only [linkedPair, List.forall_mem_cons, List.not_mem_nil, false_imp_iff, imp_true_iff]
    exact ⟨rfl, rfl, trivial⟩
  have hLinked : linkedPair.Chain' (fun b c => c.parentBlockIdentifier = b.blockIdentifier) :=
    List.chain'_pair.mpr rfl
  have hPast : ∀ c ∈ linkedPair.tail, ∀ g,
      ({ ignoreRosettaSpecValidation := true } : Asserter).genesisBlock = some g →
      c.blockIdentifier.map (·.index) ≠ some g.index := fun _ _ _ hg => by cases hg
  exact ⟨hOk, hLinked, hPast, block_chain_increasing _ _ hOk hLinked hPast⟩

end MeshSdk.Asserter
