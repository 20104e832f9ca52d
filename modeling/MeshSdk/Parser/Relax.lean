import MeshSdk.Parser.FirstFit
import MeshSdk.Parser.Groups

/-!
# Relaxing the descriptions never rejects more

`Descriptions.Relaxes d d'`: `d'` has the descriptions of `d` in the same order, each optional
where it is in `d` (and perhaps elsewhere), sets `ErrUnmatched` only where `d` does, and keeps a
part of each list of comparison requests.

The pass never reads `Optional`: it is read only by the check after the loop.  So the pass runs
the same under `d'`, and every check after it asks less.

* `operationMatch_optional`: one step of the pass is the same under descriptions that differ
  only in being optional.
* `matchLoop_relax`, `matchedCheck_relax`, `comparisonMatch_relax`: the pass, the check after
  it and the comparison requests under `d'` pass where they pass under `d`.
* `matchOperations_relax`: **`MatchOperations` under `d'` returns the matches it returns under
  `d`**.
-/

namespace MeshSdk.Parser

open Types

/-- `des'` is `des`, optional where `des` is and perhaps where it is not. -/
def OperationDescription.Relaxes (des des' : OperationDescription) : Prop :=
  ∃ optional, des' = { des with optional := optional } ∧ (des.optional = true → optional = true)

/-- `d'` asks no more of a matching than `d`. -/
structure Descriptions.Relaxes (d d' : Descriptions) : Prop where
  operationDescriptions :
    List.Forall₂ OperationDescription.Relaxes d.operationDescriptions d'.operationDescriptions
  errUnmatched : d'.errUnmatched = true → d.errUnmatched = true
  equalAmounts : d'.equalAmounts ⊆ d.equalAmounts
  equalAddresses : d'.equalAddresses ⊆ d.equalAddresses
  oppositeAmounts : d'.oppositeAmounts ⊆ d.oppositeAmounts
  oppositeOrZeroAmounts : d'.oppositeOrZeroAmounts ⊆ d.oppositeOrZeroAmounts

theorem forall₂_relaxes_getElem? :
    ∀ {ds ds' : List OperationDescription}, List.Forall₂ OperationDescription.Relaxes ds ds' →
      ∀ {i : Nat} {des : OperationDescription}, ds[i]? = some des →
        ∃ des', ds'[i]? = some des' ∧ des.Relaxes des'
  | _, _, .nil, _, _, h => by simp at h
  | a :: _, des' :: _, .cons hHead _, 0, des, h => by
    obtain rfl : a = des := by simpa using h
    exact ⟨des', by simp, hHead⟩
  | _ :: _, _ :: _, .cons _ hRest, i + 1, _, h => by
    simpa using forall₂_relaxes_getElem? hRest (i := i) (by simpa using h)

theorem matchedCheck_relax {ds ds' : List OperationDescription}
    (hRelax : List.Forall₂ OperationDescription.Relaxes ds ds') {k : Nat}
    {ms : List (Option Match)} (h : matchedCheck ds k ms = .ok ()) :
    matchedCheck ds' k ms = .ok () :=
  matchedCheck_of_optional fun j hj => by
    obtain ⟨des, hd, hOptional⟩ := matchedCheck_ok h j hj
    obtain ⟨des', hd', b, rfl, hMore⟩ := forall₂_relaxes_getElem? hRelax hd
    exact ⟨_, hd', hMore hOptional⟩

theorem checkEach_of_subset {α ε : Type} {f : α → Except ε Unit} {xs ys : List α}
    (hSub : ys ⊆ xs) (h : checkEach f xs = .ok ()) : checkEach f ys = .ok () :=
  checkEach_eq_ok.mpr fun y hy => checkEach_eq_ok.mp h y (hSub hy)

theorem comparisonMatch_relax {d d' : Descriptions} (hRelax : d.Relaxes d')
    {ms : List (Option Match)} (h : comparisonMatch d ms = .ok ()) :
    comparisonMatch d' ms = .ok () := by
  obtain ⟨hAmounts, hAddresses, hOpposite, hOppositeOrZero⟩ := comparisonMatch_eq_ok.mp h
  exact comparisonMatch_eq_ok.mpr ⟨checkEach_of_subset hRelax.equalAmounts hAmounts,
    checkEach_of_subset hRelax.equalAddresses hAddresses,
    checkEach_of_subset hRelax.oppositeAmounts hOpposite,
    checkEach_of_subset hRelax.oppositeOrZeroAmounts hOppositeOrZero⟩

section Hash

variable {κ : Type} [DecidableEq κ] (hash : Currency → κ)

/-- **The pass does not read `Optional`.** -/
theorem operationMatch_optional {op : Option Operation} :
    ∀ {ds ds' : List OperationDescription}, List.Forall₂ OperationDescription.Relaxes ds ds' →
      ∀ ms, operationMatch hash op ds ms = operationMatch hash op ds' ms
  | _, _, .nil, _ => rfl
  | _, _, .cons _ _, [] => rfl
  | des :: _, _, .cons ⟨_, rfl, _⟩ hRest, m :: ms => by
    simp only [operationMatch, operationMatch_optional hRest]

variable {d d' : Descriptions}

theorem matchLoop_relax (h : d.Relaxes d') :
    ∀ {k : Nat} {ms ms' : List (Option Match)} {ops : List (Option Operation)},
      matchLoop hash d k ms ops = .ok ms' → matchLoop hash d' k ms ops = .ok ms'
  | _, _, _, [], hLoop => hLoop
  | _, ms, _, _ :: _, hLoop => by
    obtain ⟨found, ms₁, hM, hFound, hRest⟩ := (matchLoop_cons_eq_ok hash).mp hLoop
    rw [operationMatch_optional hash h.operationDescriptions ms] at hM
    exact (matchLoop_cons_eq_ok hash).mpr
      ⟨found, ms₁, hM, fun hE => hFound (h.errUnmatched hE), matchLoop_relax h hRest⟩

/-- **Relaxing the descriptions never rejects more.**  If `MatchOperations` returns matches under
`d`, it returns the same matches under every `d'` that marks more descriptions optional, sets
`ErrUnmatched` in fewer places, and keeps a part of each list of comparison requests. -/
theorem matchOperations_relax (hRelax : d.Relaxes d')
    {ops : List (Option Operation)} {ms : List (Option Match)}
    (h : matchOperations hash d ops = .ok ms) : matchOperations hash d' ops = .ok ms := by
  obtain ⟨hOps, hDescriptions, hLoop, hMatched, hCompare⟩ := matchOperations_eq_ok.mp h
  have hLength := hRelax.operationDescriptions.length_eq
  refine matchOperations_eq_ok.mpr ⟨hOps, fun hNil => hDescriptions ?_, ?_,
    matchedCheck_relax hRelax.operationDescriptions hMatched, comparisonMatch_relax hRelax hCompare⟩
  · rw [← List.length_eq_zero, hLength, hNil, List.length_nil]
  · rw [← hLength]
    exact matchLoop_relax hash hRelax hLoop

end Hash

/-- The transfer's descriptions with both descriptions optional, without `ErrUnmatched` and
without the request for opposite amounts. -/
def transferRelaxed : Descriptions :=
  { transferDescriptions with
    operationDescriptions :=
      transferDescriptions.operationDescriptions.map ({ · with optional := true })
    oppositeAmounts := []
    errUnmatched := false }

/-- The transfer is matched the same way under its relaxed descriptions. -/
theorem matchOperations_relax_transfer :
    transferDescriptions.Relaxes transferRelaxed ∧
      matchOperations (fun c : Currency => c) transferDescriptions transferOperations =
        .ok transferMatches ∧
      matchOperations (fun c : Currency => c) transferRelaxed transferOperations =
        .ok transferMatches :=
  have hRelax : transferDescriptions.Relaxes transferRelaxed :=
    ⟨.cons ⟨true, rfl, fun _ => rfl⟩ (.cons ⟨true, rfl, fun _ => rfl⟩ .nil),
      fun h => by simp [transferRelaxed] at h, List.Subset.refl _, List.Subset.refl _,
      List.nil_subset _, List.Subset.refl _⟩
  ⟨hRelax, matchOperations_transfer _,
    matchOperations_relax _ hRelax (matchOperations_transfer _)⟩

end MeshSdk.Parser
