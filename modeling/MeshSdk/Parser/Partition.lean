import MeshSdk.Parser.Pass

/-!
# The matches partition the matched operations

* `Assigns ops ms labels`: `labels` gives each position of `ops` at most one group of `ms`, and
  each group is exactly the operations at the positions given to it, in their order.
* `MatchStep.singleMatches`: a step keeps every description without repeats at one operation
  at most, since it only appends to such a description while its match is `nil`.
* `matchOperations_partition`: **a successful `MatchOperations` partitions the operations it
  matched**: there is a labelling that `Assigns` them, descriptions without repeats hold one
  operation at most, and with `ErrUnmatched` every operation is labelled.
-/

namespace MeshSdk.Parser

open Types

/-- `labels` gives each position of `ops` at most one group of `ms`: the group of description
`i` is the operations at the positions labelled `i`, in their order in `ops`. -/
structure Assigns (ops : List (Option Operation)) (ms : List (Option Match))
    (labels : List (Option Nat)) : Prop where
  length : labels.length = ops.length
  bound : ∀ l ∈ labels, ∀ i, l = some i → i < ms.length
  groups : ∀ i, (groupAt ms i).map some = labelled ops labels i

/-- Every description of `ds` that does not allow repeats holds one operation at most. -/
def SingleMatches (ds : List OperationDescription) (ms : List (Option Match)) : Prop :=
  ∀ i des, ds[i]? = some des → des.allowRepeats = false → (groupAt ms i).length ≤ 1

section Hash

variable {κ : Type} [DecidableEq κ] {hash : Currency → κ}

theorem MatchStep.singleMatches {op : Option Operation} {ds : List OperationDescription}
    {ms ms' : List (Option Match)} {found : Bool} (h : MatchStep hash op ds ms ms' found)
    (hInv : SingleMatches ds ms) : SingleMatches ds ms' := by
  intro i des hd hRep
  cases found
  · rw [groupAt, h.unchanged rfl]
    exact hInv i des hd hRep
  · obtain ⟨o, i₀, d₀, -, hd₀, -, hElig, -, hAt, hOther⟩ := h.appended rfl
    by_cases hi : i = i₀
    · subst hi
      obtain rfl : des = d₀ := Option.some.inj (hd.symm.trans hd₀)
      rcases hElig with hNone | hRep'
      · simp [groupAt, hAt, contentAt_of_getElem? hNone]
      · simp [hRep] at hRep'
    · rw [groupAt, hOther i hi]
      exact hInv i des hd hRep

variable (hash)

/-- **The matches partition the matched operations.**  A successful `MatchOperations` labels
each input position with at most one description, each group being exactly the operations at
the positions labelled with it, in input order; descriptions without repeats hold one operation
at most; and with `ErrUnmatched` every position is labelled. -/
theorem matchOperations_partition {d : Descriptions} {ops : List (Option Operation)}
    {ms : List (Option Match)} (h : matchOperations hash d ops = .ok ms) :
    ∃ labels, Assigns ops ms labels ∧ SingleMatches d.operationDescriptions ms ∧
      (d.errUnmatched = true → ∀ l ∈ labels, l.isSome) := by
  obtain ⟨-, -, hLoop, -, -⟩ := matchOperations_eq_ok.mp h
  obtain ⟨labels, hLen, hBound, hAll, hGroups⟩ := matchLoop_labels hash hLoop
  have hLength := matchLoop_length hash hLoop
  refine ⟨labels, ⟨hLen, fun l hl i hi => ?_, fun i => by simpa [groupAt] using hGroups i⟩,
    ?_, hAll⟩
  · simpa [hLength] using hBound l hl i hi
  · exact matchLoop_invariant hash _
      (fun _ hInv hM => (operationMatch_step hash hM).singleMatches hInv)
      (by simp [SingleMatches, groupAt]) hLoop

end Hash

/-- The transfer is partitioned: the debit and the credit each in their own group. -/
theorem matchOperations_partition_transfer :
    matchOperations (fun c : Currency => c) transferDescriptions transferOperations =
        .ok transferMatches ∧
      ∃ labels, Assigns transferOperations transferMatches labels ∧
        SingleMatches transferDescriptions.operationDescriptions transferMatches ∧
        (transferDescriptions.errUnmatched = true → ∀ l ∈ labels, l.isSome) :=
  have h := matchOperations_transfer fun c : Currency => c
  ⟨h, matchOperations_partition _ h⟩

end MeshSdk.Parser
