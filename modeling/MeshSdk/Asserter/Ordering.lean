import MeshSdk.Asserter.Block

/-!
# Operation ordering

The ordering `Operations` enforces on an operation list, spec §3: operation `i` has identifier
index `i`, and its related operations point backwards, to pairwise distinct smaller indices.

* `operationsStep_orderedAt`: one passed iteration at loop index `i` establishes it for the
  operation it checked.
* `operations_ordered`: **a passed `Operations` establishes it at every position**, for either
  construction flag and any configuration.
* `operations_relatedOperations_earlier`: every related-operation reference `r` of operation `i`
  has `r.index < i`, and a non-negative one names the operation of the list at that position.
  A negative reference passes (`operations_negative_related_index`): the loop compares a
  reference only with the operation's own index.
-/

namespace MeshSdk.Types

/-- Operation `o` sits at position `i` of an ordered list: its identifier has index `i` and a
non-negative network index, and its related operations are present, with pairwise distinct
indices below `i`. -/
structure Operation.OrderedAt (o : Operation) (i : Nat) : Prop where
  identifier : ∃ id, o.operationIdentifier = some id ∧ id.index = i ∧
    ∀ n, id.networkIndex = some n → 0 ≤ n
  related : ∃ rs : List OperationIdentifier, o.relatedOperations.getD [] = rs.map some ∧
    (rs.map (·.index)).Nodup ∧ ∀ r ∈ rs, r.index < i

end MeshSdk.Types

namespace MeshSdk.Asserter

open Types

theorem operationsStep_orderedAt {a : Asserter} {construction : Bool} {i : Nat} {t t' : Totals}
    {op : Option Operation} (h : a.operationsStep construction i t op = .ok t') :
    ∃ o, op = some o ∧ o.OrderedAt i := by
  obtain ⟨o, rfl, hOp, -, -, hRelated, -⟩ := operationsStep_eq_ok.mp h
  obtain ⟨o', ho, hId, -⟩ := operation_eq_ok.mp hOp
  cases ho
  obtain ⟨id, hSome, hIndex, hNetwork⟩ := operationIdentifier_eq_ok.mp hId
  obtain ⟨rs, hRs, hBelow, hNodup, -⟩ := relatedOperations_ok hRelated
  refine ⟨o, rfl, ⟨id, hSome, hIndex, hNetwork⟩, rs, hRs, hNodup, fun r hr => ?_⟩
  obtain ⟨id', hSome', hLt⟩ := hBelow r hr
  rw [hSome] at hSome'
  cases hSome'
  omega

/-- **Operation ordering.**  If `Operations` passes, every operation is present and sits at its
own position: identifier index `i` at position `i`, a non-negative network index, and pairwise
distinct related-operation indices below `i`. -/
theorem operations_ordered {a : Asserter} {construction : Bool} {ops : List (Option Operation)}
    (h : a.operations ops construction = .ok ()) :
    ∀ i (hi : i < ops.length), ∃ o, ops[i] = some o ∧ o.OrderedAt i := by
  obtain ⟨-, t, hLoop, -⟩ := operations_eq_ok.mp h
  intro i hi
  simpa using operationsLoop_ok (P := fun i op => ∃ o, op = some o ∧ o.OrderedAt i)
    (fun _ _ _ _ hStep => operationsStep_orderedAt hStep) hLoop i hi

/-- Two transfers, the second pointing back at the first. -/
def transferPair : List (Option Operation) :=
  [some { operationIdentifier := some {}, type := "TRANSFER", status := some "SUCCESS" },
   some { operationIdentifier := some { index := 1 }
          relatedOperations := some [some {}]
          type := "TRANSFER"
          status := some "SUCCESS" }]

/-- The pair passes a lenient asserter, and is ordered. -/
theorem operations_ordered_transferPair :
    ({ ignoreRosettaSpecValidation := true } : Asserter).operations transferPair false = .ok () ∧
      ∀ i (hi : i < transferPair.length), ∃ o, transferPair[i] = some o ∧ o.OrderedAt i :=
  have h : ({ ignoreRosettaSpecValidation := true } : Asserter).operations transferPair false =
      .ok () := rfl
  ⟨h, operations_ordered h⟩

/-- **Related operations point backwards.**  If `Operations` passes, every related-operation
reference `r` of operation `i` has `r.index < i`, and a non-negative one names the operation at
that earlier position, whose identifier carries the index `r.index`. -/
theorem operations_relatedOperations_earlier {a : Asserter} {construction : Bool}
    {ops : List (Option Operation)} (h : a.operations ops construction = .ok ())
    {i : Nat} {o : Operation} (hi : ops[i]? = some (some o))
    {r : OperationIdentifier} (hr : some r ∈ o.relatedOperations.getD []) :
    r.index < i ∧ (0 ≤ r.index → ∃ j < i, (j : Int) = r.index ∧ ∃ o', ops[j]? = some (some o') ∧
      o'.operationIdentifier.map (·.index) = some r.index) := by
  obtain ⟨hiLen, hiEq⟩ := List.getElem?_eq_some_iff.mp hi
  obtain ⟨o₁, ho₁, -, rs, hRs, -, hBelow⟩ := operations_ordered h i hiLen
  rw [hiEq] at ho₁
  cases ho₁
  rw [hRs] at hr
  have hr' : r ∈ rs := by simpa using hr
  have hLt := hBelow r hr'
  refine ⟨hLt, fun hNonneg => ⟨r.index.toNat, by omega, by omega, ?_⟩⟩
  have hj : r.index.toNat < ops.length := by omega
  obtain ⟨o', ho', ⟨id', hId', hIndex', -⟩, -⟩ := operations_ordered h _ hj
  exact ⟨o', List.getElem?_eq_some_iff.mpr ⟨hj, ho'⟩, by simp [hId', hIndex']; omega⟩

/-- In the same pair, the reference of the second operation names the first. -/
theorem operations_relatedOperations_earlier_transferPair :
    ({ ignoreRosettaSpecValidation := true } : Asserter).operations transferPair false = .ok () ∧
      (0 : Int) < 1 ∧ ((0 : Int) ≤ 0 → ∃ j : Nat, j < 1 ∧ (j : Int) = 0 ∧ ∃ o' : Operation,
        transferPair[j]? = some (some o') ∧ o'.operationIdentifier.map (·.index) = some 0) :=
  have h : ({ ignoreRosettaSpecValidation := true } : Asserter).operations transferPair false =
      .ok () := rfl
  ⟨h, operations_relatedOperations_earlier h (i := 1) rfl (r := {}) (List.mem_singleton_self _)⟩

/-- Every related-operation reference of operation `i` lies in `[0, i)`. -/
def RelatedInRange (ops : List (Option Operation)) : Prop :=
  ∀ (i : Nat) (o : Operation), ops[i]? = some (some o) →
    ∀ r : OperationIdentifier, some r ∈ o.relatedOperations.getD [] → 0 ≤ r.index ∧ r.index < i

/-- A lenient asserter passes an operation whose related operation has index `-1`. -/
theorem operations_negative_related_index :
    ({ ignoreRosettaSpecValidation := true } : Asserter).operations
        [some { operationIdentifier := some {}
                relatedOperations := some [some { index := -1 }]
                type := "TRANSFER"
                status := some "SUCCESS" }] false = .ok () ∧
      ¬ RelatedInRange
        [some { operationIdentifier := some {}
                relatedOperations := some [some { index := -1 }]
                type := "TRANSFER"
                status := some "SUCCESS" }] :=
  ⟨rfl, fun h => absurd (h 0 _ rfl _ (List.mem_singleton_self _)).1 (by decide)⟩

end MeshSdk.Asserter
