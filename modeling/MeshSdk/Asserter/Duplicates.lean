import MeshSdk.Asserter.Block

/-!
# The duplicate scan of related transactions

`DuplicateRelatedTransaction` scans the related transactions once, keeping in `seen` the keys
(`types.Hash`) of the items it has scanned, and returns the first item whose key it has seen.

* `RepeatsAt seen keys j`: the key at `j` is in `seen` or at an earlier position;
  `FirstRepeat` is the least such `j`.  `firstRepeat_cons_succ` is the loop invariant: past one
  item, a first repeat of the rest against `seen` with that item's key added is a first repeat
  of the whole list.
* `duplicateRelatedTransactionFrom_append`: past items without a repeat, `seen` holds exactly
  their keys.
* `duplicateRelatedTransactionFrom_of_nodup`: no key repeats, nothing is returned.
* `duplicateRelatedTransactionFrom_firstRepeat`: otherwise the scan returns the item at the first
  repeat.
* `duplicateRelatedTransaction_first`: **the scan returns the first duplicate**, and for a list
  without nil items it returns nil exactly when the keys are pairwise distinct.
* `duplicateRelatedTransaction_nil_pair`: a repeated nil item is returned as itself, nil, which
  reads as no duplicate.
-/

namespace MeshSdk.Asserter

open Types

/-! ## First repeats -/

section Keys

variable {κ : Type}

/-- The key at position `j` of `keys` is in `seen` or at an earlier position. -/
def RepeatsAt (seen keys : List κ) (j : Nat) : Prop :=
  ∃ k, keys[j]? = some k ∧ (k ∈ seen ∨ ∃ i < j, keys[i]? = some k)

/-- `j` is the least position of `keys` whose key repeats. -/
def FirstRepeat (seen keys : List κ) (j : Nat) : Prop :=
  RepeatsAt seen keys j ∧ ∀ i < j, ¬ RepeatsAt seen keys i

theorem repeatsAt_cons_zero {seen keys : List κ} {k : κ} :
    RepeatsAt seen (k :: keys) 0 ↔ k ∈ seen := by
  simp [RepeatsAt]

/-- Past the key `k`, the keys seen are `k :: seen`. -/
theorem repeatsAt_cons_succ {seen keys : List κ} {k : κ} {j : Nat} :
    RepeatsAt seen (k :: keys) (j + 1) ↔ RepeatsAt (k :: seen) keys j := by
  have hEarlier : ∀ x, (∃ i < j + 1, (k :: keys)[i]? = some x) ↔
      k = x ∨ ∃ i < j, keys[i]? = some x := fun x =>
    ⟨fun ⟨i, hi, hx⟩ => by
      cases i with
      | zero => exact .inl (by simpa using hx)
      | succ i => exact .inr ⟨i, by omega, by simpa using hx⟩,
     fun h => h.elim (fun hk => ⟨0, by omega, by simp [hk]⟩)
      fun ⟨i, hi, hx⟩ => ⟨i + 1, by omega, by simpa using hx⟩⟩
  simp only [RepeatsAt, List.getElem?_cons_succ]
  refine exists_congr fun x => and_congr_right fun _ => ?_
  rw [hEarlier x, List.mem_cons, eq_comm (a := x)]
  tauto

theorem firstRepeat_cons_succ {seen keys : List κ} {k : κ} {j : Nat} :
    FirstRepeat seen (k :: keys) (j + 1) ↔ k ∉ seen ∧ FirstRepeat (k :: seen) keys j := by
  simp only [FirstRepeat, repeatsAt_cons_succ]
  constructor
  · rintro ⟨hj, hBefore⟩
    refine ⟨fun hk => hBefore 0 (by omega) (repeatsAt_cons_zero.mpr hk), hj, fun i hi => ?_⟩
    simpa [repeatsAt_cons_succ] using hBefore (i + 1) (by omega)
  · rintro ⟨hk, hj, hBefore⟩
    refine ⟨hj, fun i hi => ?_⟩
    cases i with
    | zero => exact fun h => hk (repeatsAt_cons_zero.mp h)
    | succ i => simpa [repeatsAt_cons_succ] using hBefore i (by omega)

end Keys

/-! ## The scan -/

section Scan

variable {κ : Type} [DecidableEq κ] (hash : Option RelatedTransaction → κ)

/-- **What `seen` holds**: once the scan is past the items `pre`, none of which repeats a key,
`seen` holds exactly their keys, the latest first. -/
theorem duplicateRelatedTransactionFrom_append {seen : List κ}
    {pre : List (Option RelatedTransaction)} (rest : List (Option RelatedTransaction))
    (hNodup : (pre.map hash).Nodup) (hFresh : ∀ x ∈ pre, hash x ∉ seen) :
    duplicateRelatedTransactionFrom hash seen (pre ++ rest) =
      duplicateRelatedTransactionFrom hash ((pre.map hash).reverse ++ seen) rest := by
  induction pre generalizing seen with
  | nil => rfl
  | cons item pre ih =>
    obtain ⟨hSeen, hNodup, hFresh⟩ := (nodup_fresh_cons hash).mp ⟨hNodup, hFresh⟩
    rw [List.cons_append, duplicateRelatedTransactionFrom, if_neg hSeen, ih hNodup hFresh]
    simp

/-- **No repeated key, no duplicate.** -/
theorem duplicateRelatedTransactionFrom_of_nodup {seen : List κ}
    {items : List (Option RelatedTransaction)} (hNodup : (items.map hash).Nodup)
    (hFresh : ∀ x ∈ items, hash x ∉ seen) :
    duplicateRelatedTransactionFrom hash seen items = none := by
  simpa [duplicateRelatedTransactionFrom] using
    duplicateRelatedTransactionFrom_append hash [] hNodup hFresh

/-- **A repeated key, the first duplicate**: the scan returns the item at the first position
whose key it has seen. -/
theorem duplicateRelatedTransactionFrom_firstRepeat {seen : List κ}
    {items : List (Option RelatedTransaction)} :
    ¬ ((items.map hash).Nodup ∧ ∀ x ∈ items, hash x ∉ seen) →
      ∃ j, FirstRepeat seen (items.map hash) j ∧
        items[j]? = some (duplicateRelatedTransactionFrom hash seen items) := by
  induction items generalizing seen with
  | nil => simp
  | cons item items ih =>
    intro hRepeat
    by_cases hSeen : hash item ∈ seen
    · refine ⟨0, ⟨repeatsAt_cons_zero.mpr hSeen, fun _ h => absurd h (by omega)⟩, ?_⟩
      simp [duplicateRelatedTransactionFrom, hSeen]
    · obtain ⟨j, hFirst, hj⟩ := ih fun h => hRepeat ((nodup_fresh_cons hash).mpr ⟨hSeen, h⟩)
      refine ⟨j + 1, firstRepeat_cons_succ.mpr ⟨hSeen, hFirst⟩, ?_⟩
      simpa [duplicateRelatedTransactionFrom, hSeen] using hj

/-- **`DuplicateRelatedTransaction` returns the first duplicate.**  With pairwise distinct keys
it returns nil; otherwise it returns `items[j]` for the least `j` whose key is the key of an
earlier item (nothing is seen before the scan).  For a list without nil items it therefore
returns nil exactly when the keys are pairwise distinct.  Past items `pre` without a repeat, the
scan has seen exactly their keys. -/
theorem duplicateRelatedTransaction_first (items : List (Option RelatedTransaction)) :
    ((items.map hash).Nodup → duplicateRelatedTransaction hash items = none) ∧
    (¬ (items.map hash).Nodup → ∃ j, FirstRepeat [] (items.map hash) j ∧
      items[j]? = some (duplicateRelatedTransaction hash items)) ∧
    ((∀ x ∈ items, x.isSome) →
      (duplicateRelatedTransaction hash items = none ↔ (items.map hash).Nodup)) ∧
    (∀ pre rest, items = pre ++ rest → (pre.map hash).Nodup →
      duplicateRelatedTransaction hash items =
        duplicateRelatedTransactionFrom hash (pre.map hash).reverse rest) := by
  have hNone : (items.map hash).Nodup → duplicateRelatedTransaction hash items = none :=
    fun hNodup =>
      duplicateRelatedTransactionFrom_of_nodup hash hNodup fun x _ => List.not_mem_nil (hash x)
  refine ⟨hNone, fun hRepeat => ?_, fun hSome => ⟨fun h => ?_, hNone⟩,
    fun pre rest hItems hNodup => ?_⟩
  · exact duplicateRelatedTransactionFrom_firstRepeat hash fun h => hRepeat h.1
  · exact (duplicateRelatedTransactionFrom_eq_none hash h hSome).1
  · rw [duplicateRelatedTransaction, hItems, duplicateRelatedTransactionFrom_append hash rest
      hNodup fun x _ => List.not_mem_nil (hash x), List.append_nil]

end Scan

/-- Two nil items share their key under an injective hash, and the scan returns the second,
which is nil. -/
theorem duplicateRelatedTransaction_nil_pair :
    duplicateRelatedTransaction (fun rt : Option RelatedTransaction => rt) [none, none] = none ∧
      ¬ ([none, none].map fun rt : Option RelatedTransaction => rt).Nodup :=
  ⟨rfl, by simp⟩

end MeshSdk.Asserter
