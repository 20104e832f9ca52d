import MeshSdk.Parser.FirstFit
import MeshSdk.Parser.Totality

/-!
# First fit is complete when no operation fits two descriptions

`MatchOperations` gives each operation to the first description, in order, that still admits
it.  That is a greedy choice: in general it can take an operation for a description that a
later operation needed, and reject operations that some other grouping matches.  When no
operation is accepted by two descriptions there is no choice to get wrong, and the greedy pass
finds a grouping whenever one exists.

An `Admissible` labelling is such a grouping, given by the position of each operation's
description: every label names a description that accepts the operation, a description without
repeats gets at most one operation, every operation gets a label when `ErrUnmatched` is set,
and every required description gets one.

* `Progress`: after first fit has run over the first `k` operations, every grouped operation is
  one of them, accepted by its description, and every description labelled with one of them
  holds an operation.  `Progress.admits` is where disjointness enters: a description without
  repeats that already holds an operation cannot be the label of another one.
* `Progress.step`, `Progress.run`: one operation, and every remaining operation, keep it.
* `matchOperations_complete`: **the pass and the check after it succeed**, so that
  `MatchOperations` fails only on its comparison requests.
* `Grouped`, `Grouped.place`, `Grouped.skip`, `Grouped.run`: without ambiguity first fit leaves
  each description its `acceptedGroup`, the operations it accepts (only the first of them
  without repeats).
* `matchOperations_groups_of_unambiguous`: **the groups of a successful `MatchOperations` are
  the accepted groups**, whatever the order of the descriptions.
-/

namespace MeshSdk.Parser

open Types

section Hash

variable {κ : Type} [DecidableEq κ] (hash : Currency → κ)

/-- No operation of `ops` is accepted by two descriptions of `ds`. -/
def Unambiguous (ds : List OperationDescription) (ops : List Operation) : Prop :=
  ∀ o ∈ ops, ∀ (i j : Nat) (di dj : OperationDescription), ds[i]? = some di → ds[j]? = some dj →
    Accepted hash di o → Accepted hash dj o → i = j

/-- `labels` groups `ops` as a successful `MatchOperations` on `d` must: the label of an
operation is the position of a description that accepts it, a description without repeats is
the label of at most one operation, every operation has a label when `ErrUnmatched` is set, and
every required description is a label. -/
structure Admissible (d : Descriptions) (ops : List Operation) (labels : List (Option Nat)) :
    Prop where
  length : labels.length = ops.length
  accepted : ∀ (k i : Nat) (o : Operation), labels[k]? = some (some i) → ops[k]? = some o →
    ∃ des, d.operationDescriptions[i]? = some des ∧ Accepted hash des o
  single : ∀ (i : Nat) (des : OperationDescription), d.operationDescriptions[i]? = some des →
    des.allowRepeats = false →
    ∀ k k' : Nat, labels[k]? = some (some i) → labels[k']? = some (some i) → k = k'
  total : d.errUnmatched = true → ∀ l ∈ labels, l.isSome
  required : ∀ (i : Nat) (des : OperationDescription), d.operationDescriptions[i]? = some des →
    des.optional = false →
    some i ∈ labels

/-! ## One placement -/

variable {hash}

/-- A placement appends the operation to the group of a description that fits it. -/
theorem firstFit_eq_some {o : Operation} :
    ∀ {ds : List OperationDescription} {gs gs' : List (List Operation)},
      firstFit hash o ds gs = some gs' →
      ∃ j des g, ds[j]? = some des ∧ gs[j]? = some g ∧ fits hash des g o = true ∧
        gs' = gs.set j (g ++ [o])
  | [], _, _, h => by simp [firstFit] at h
  | _ :: _, [], _, h => by simp [firstFit] at h
  | des :: ds, g :: gs, gs', h => by
    rw [firstFit_cons_cons] at h
    split_ifs at h with hFits
    · cases h
      exact ⟨0, des, g, by simp, by simp, hFits, rfl⟩
    · obtain ⟨rest, hRest, rfl⟩ := Option.map_eq_some'.mp h
      obtain ⟨j, des', g', hd, hg, hFits', rfl⟩ := firstFit_eq_some hRest
      exact ⟨j + 1, des', g', by simpa using hd, by simpa using hg, hFits', rfl⟩

/-- No placement: no description fits the operation. -/
theorem firstFit_eq_none {o : Operation} :
    ∀ {ds : List OperationDescription} {gs : List (List Operation)},
      firstFit hash o ds gs = none →
      ∀ (j : Nat) (des : OperationDescription) (g : List Operation), ds[j]? = some des →
        gs[j]? = some g → fits hash des g o = false
  | [], _, _, _, _, _, hd, _ => by simp at hd
  | _ :: _, [], _, _, _, _, _, hg => by simp at hg
  | des :: ds, g :: gs, h, j, des', g', hd, hg => by
    rw [firstFit_cons_cons] at h
    split_ifs at h with hFits
    cases j with
    | zero =>
      obtain rfl : des = des' := by simpa using hd
      obtain rfl : g = g' := by simpa using hg
      simpa using hFits
    | succ j =>
      exact firstFit_eq_none (Option.map_eq_none'.mp h) j des' g' (by simpa using hd)
        (by simpa using hg)

/-- No placement: a description that accepts the operation has no room for it. -/
theorem firstFit_eq_none_full {o : Operation} {ds : List OperationDescription}
    {gs : List (List Operation)} (h : firstFit hash o ds gs = none) {j : Nat}
    {des : OperationDescription} {g : List Operation} (hd : ds[j]? = some des)
    (hg : gs[j]? = some g) (hAcc : Accepted hash des o) :
    ¬ (des.allowRepeats = true ∨ g = []) := fun hRoom => by
  have hNot := firstFit_eq_none h j des g hd hg
  rw [← Bool.not_eq_true, fits_eq_true] at hNot
  exact hNot ⟨hRoom, hAcc⟩

/-- A description accepts an operation exactly when it fits it with an empty group. -/
theorem accepted_iff_fits {des : OperationDescription} {o : Operation} :
    Accepted hash des o ↔ fits hash des [] o = true := by
  simp [fits_eq_true]

theorem getElem?_set_append {gs : List (List Operation)} {j i : Nat} {g : List Operation}
    {o : Operation} (hg : gs[j]? = some g) :
    (gs.set j (g ++ [o]))[i]? = if j = i then some (g ++ [o]) else gs[i]? := by
  rw [List.getElem?_set, if_pos (List.getElem?_eq_some_iff.mp hg).1]

/-! ## The invariant -/

variable (hash)

/-- After first fit has run over the first `k` operations into the groups `gs`: every grouped
operation is one of them and is accepted by its description, and every description that
`labels` gives one of them to holds an operation. -/
structure Progress (d : Descriptions) (ops : List Operation) (labels : List (Option Nat))
    (k : Nat) (gs : List (List Operation)) : Prop where
  length : gs.length = d.operationDescriptions.length
  sound : ∀ (i : Nat) (g : List Operation) (o : Operation), gs[i]? = some g → o ∈ g →
    (∃ k' < k, ops[k']? = some o) ∧
    ∃ des, d.operationDescriptions[i]? = some des ∧ Accepted hash des o
  covers : ∀ k' < k, ∀ i : Nat, labels[k']? = some (some i) → ∃ g, gs[i]? = some g ∧ g ≠ []

variable {hash} {d : Descriptions} {ops : List Operation} {labels : List (Option Nat)}

theorem progress_zero :
    Progress hash d ops labels 0 (List.replicate d.operationDescriptions.length []) where
  length := List.length_replicate _ _
  sound _ _ _ hg ho := by
    obtain ⟨hi, rfl⟩ := List.getElem?_eq_some_iff.mp hg
    simp at ho
  covers _ hk := absurd hk (Nat.not_lt_zero _)

/-- With `ErrUnmatched` set, every operation has a label. -/
theorem Admissible.label (hAdm : Admissible hash d ops labels) (hTotal : d.errUnmatched = true)
    {k : Nat} {o : Operation} (ho : ops[k]? = some o) : ∃ i, labels[k]? = some (some i) := by
  obtain ⟨l, hl⟩ : ∃ l, labels[k]? = some l :=
    ⟨_, List.getElem?_eq_getElem (by
      rw [hAdm.length]; exact (List.getElem?_eq_some_iff.mp ho).1)⟩
  obtain ⟨i, rfl⟩ := Option.isSome_iff_exists.mp (hAdm.total hTotal l (List.getElem?_mem hl))
  exact ⟨i, hl⟩

theorem Progress.sound_succ {k : Nat} {gs : List (List Operation)}
    (hP : Progress hash d ops labels k gs) {i : Nat} {g : List Operation} {o : Operation}
    (hg : gs[i]? = some g) (ho : o ∈ g) : (∃ k' < k + 1, ops[k']? = some o) ∧
      ∃ des, d.operationDescriptions[i]? = some des ∧ Accepted hash des o :=
  (hP.sound i g o hg ho).imp_left fun ⟨k', hk', h⟩ => ⟨k', Nat.lt_succ_of_lt hk', h⟩

section Step

variable (hAdm : Admissible hash d ops labels)
  (hUnambiguous : Unambiguous hash d.operationDescriptions ops)
include hAdm hUnambiguous

/-- **Where disjointness enters.**  When every operation has a label, the description labelled
with the operation at `k` admits it: if it allows no repeats and holds an operation, that
operation is an earlier one, which only it accepts, so the earlier one has the same label. -/
theorem Progress.admits {k : Nat} {gs : List (List Operation)}
    (hP : Progress hash d ops labels k gs) (hTotal : d.errUnmatched = true) {i : Nat}
    {des : OperationDescription} {g : List Operation} (hk : labels[k]? = some (some i))
    (hd : d.operationDescriptions[i]? = some des) (hg : gs[i]? = some g) :
    des.allowRepeats = true ∨ g = [] := by
  refine or_iff_not_imp_left.mpr fun hRepeats => List.eq_nil_iff_forall_not_mem.mpr
    fun o' ho' => ?_
  obtain ⟨⟨k', hk', ho'k'⟩, des', hd', hAcc'⟩ := hP.sound i g o' hg ho'
  obtain ⟨i', hl⟩ := hAdm.label hTotal ho'k'
  obtain ⟨di', hdi', hAcc''⟩ := hAdm.accepted k' i' o' hl ho'k'
  have hSame : i' = i :=
    hUnambiguous o' (List.getElem?_mem ho'k') i' i di' des' hdi' hd' hAcc'' hAcc'
  rw [hSame] at hl
  have := hAdm.single i des hd (by simpa using hRepeats) k k' hk hl
  omega

/-- **One placement keeps the invariant**: the operation at `k` is placed, or, only when
`ErrUnmatched` is not set, left out. -/
theorem Progress.step {k : Nat} {gs : List (List Operation)}
    (hP : Progress hash d ops labels k gs) {o : Operation} (ho : ops[k]? = some o) :
    (∃ gs', firstFit hash o d.operationDescriptions gs = some gs' ∧
      Progress hash d ops labels (k + 1) gs') ∨
    (firstFit hash o d.operationDescriptions gs = none ∧ d.errUnmatched = false ∧
      Progress hash d ops labels (k + 1) gs) := by
  have hMem : o ∈ ops := List.getElem?_mem ho
  have hGroup : ∀ {i des}, d.operationDescriptions[i]? = some des → ∃ g, gs[i]? = some g :=
    fun hd => ⟨_, List.getElem?_eq_getElem (hP.length ▸ (List.getElem?_eq_some_iff.mp hd).1)⟩
  rcases hFit : firstFit hash o d.operationDescriptions gs with _ | gs'
  · cases hE : d.errUnmatched
    case true =>
      obtain ⟨i, hl⟩ := hAdm.label hE ho
      obtain ⟨des, hd, hAcc⟩ := hAdm.accepted k i o hl ho
      obtain ⟨g, hg⟩ := hGroup hd
      exact absurd (hP.admits hAdm hUnambiguous hE hl hd hg) (firstFit_eq_none_full hFit hd hg hAcc)
    case false =>
      refine .inr ⟨rfl, rfl, hP.length, fun _ _ _ hg ho' => hP.sound_succ hg ho',
        fun k' hk' i hl => ?_⟩
      rcases Nat.lt_succ_iff_lt_or_eq.mp hk' with hk' | rfl
      · exact hP.covers k' hk' i hl
      · obtain ⟨des, hd, hAcc⟩ := hAdm.accepted k' i o hl ho
        obtain ⟨g, hg⟩ := hGroup hd
        exact ⟨g, hg, fun hNil => firstFit_eq_none_full hFit hd hg hAcc (.inr hNil)⟩
  · obtain ⟨j, des, g, hd, hg, hFits, rfl⟩ := firstFit_eq_some hFit
    have hAccJ : Accepted hash des o := (fits_eq_true.mp hFits).2
    refine .inl ⟨_, rfl, by simp [hP.length], fun i g' o' hg' ho' => ?_, fun k' hk' i hl => ?_⟩
    · rw [getElem?_set_append hg] at hg'
      split_ifs at hg' with hji
      · cases hg'
        subst hji
        rcases List.mem_append.mp ho' with ho' | ho'
        · exact hP.sound_succ hg ho'
        · obtain rfl := List.mem_singleton.mp ho'
          exact ⟨⟨k, Nat.lt_succ_self k, ho⟩, des, hd, hAccJ⟩
      · exact hP.sound_succ hg' ho'
    · rw [getElem?_set_append hg]
      rcases Nat.lt_succ_iff_lt_or_eq.mp hk' with hk' | rfl
      · split_ifs with hji
        · exact ⟨_, rfl, by simp⟩
        · exact hP.covers k' hk' i hl
      · obtain ⟨des', hd', hAcc⟩ := hAdm.accepted k' i o hl ho
        obtain rfl := hUnambiguous o hMem i j des' des hd' hd hAcc hAccJ
        exact ⟨_, if_pos rfl, by simp⟩

/-- **The rest of the pass keeps it**: first fit runs to the end, and every description that is
a label holds an operation. -/
theorem Progress.run : ∀ (rest : List Operation) {k : Nat} {gs : List (List Operation)},
    ops.drop k = rest → Progress hash d ops labels k gs →
      ∃ gs', firstFitPass hash d gs rest = some gs' ∧
        ∀ i, some i ∈ labels → ∃ g, gs'[i]? = some g ∧ g ≠ []
  | [], k, gs, hRest, hP => by
    refine ⟨gs, rfl, fun i hi => ?_⟩
    obtain ⟨k', hk'⟩ := List.mem_iff_getElem?.mp hi
    have hBound := (List.getElem?_eq_some_iff.mp hk').1
    rw [hAdm.length] at hBound
    exact hP.covers k' (by have := List.drop_eq_nil_iff.mp hRest; omega) i hk'
  | o :: rest, k, gs, hRest, hP => by
    have ho : ops[k]? = some o := by rw [← List.head?_drop, hRest]; rfl
    have hRest' : ops.drop (k + 1) = rest := by rw [← List.tail_drop, hRest]; rfl
    rcases hP.step hAdm hUnambiguous ho with ⟨gs', hFit, hP'⟩ | ⟨hFit, hE, hP'⟩
    · obtain ⟨gs'', hPass, hCovers⟩ := Progress.run rest hRest' hP'
      exact ⟨gs'', by simp only [firstFitPass, hFit, hPass], hCovers⟩
    · obtain ⟨gs'', hPass, hCovers⟩ := Progress.run rest hRest' hP'
      exact ⟨gs'', by simp only [firstFitPass, hFit, hE, hPass, Bool.false_eq_true, if_false],
        hCovers⟩

end Step

/-! ## The pass -/

variable (hash)

/-- **First fit is complete when no operation fits two descriptions.**  For present operations
whose metadata holds no JSON null and whose amounts parse, if no operation is accepted by two
descriptions and some labelling groups the operations as a successful `MatchOperations` must,
then the loop of `MatchOperations` returns matches, the check after it passes, and
`MatchOperations` returns them exactly when its comparison requests pass. -/
theorem matchOperations_complete {d : Descriptions} {ops : List Operation}
    {labels : List (Option Nat)} (hNull : ∀ o ∈ ops, NullFree o)
    (hParse : ∀ o ∈ ops, ∀ amt, o.amount = some amt → (parseBigInt amt.value).isSome)
    (hUnambiguous : Unambiguous hash d.operationDescriptions ops)
    (hAdm : Admissible hash d ops labels) :
    ∃ ms, matchLoop hash d 0 (List.replicate d.operationDescriptions.length none)
        (ops.map some) = .ok ms ∧
      matchedCheck d.operationDescriptions 0 ms = .ok () ∧
      (matchOperations hash d (ops.map some) = .ok ms ↔
        ops ≠ [] ∧ d.operationDescriptions ≠ [] ∧ comparisonMatch d ms = .ok ()) := by
  obtain ⟨gs, hPass, hCovers⟩ := Progress.run hAdm hUnambiguous ops (List.drop_zero _)
    (progress_zero : Progress hash d ops labels 0 _)
  have hPop : Populated (List.replicate d.operationDescriptions.length none) := by
    simp [Populated]
  obtain ⟨hOk, hFail⟩ := matchLoop_firstFit hash hParse (d := d) (k := 0) hPop
  have hReturns : Returns (matchLoop hash d 0 (List.replicate d.operationDescriptions.length none)
      (ops.map some)) := matchLoop_returns hash hNull (by simp)
  rw [groupsOf_replicate_none] at hOk hFail
  rcases hLoop : matchLoop hash d 0 (List.replicate d.operationDescriptions.length none)
    (ops.map some) with (e | p) | ms
  · exact absurd (hPass.symm.trans (hFail e hLoop)) (by simp)
  · exact absurd hLoop (hReturns p)
  have hGroups : gs = groupsOf ms := Option.some.inj (hPass.symm.trans (hOk ms hLoop))
  have hLength := matchLoop_length hash hLoop
  have hMatched : matchedCheck d.operationDescriptions 0 ms = .ok () :=
    matchedCheck_of_optional fun j hj => by
      obtain ⟨hj', -⟩ := List.getElem?_eq_some_iff.mp hj
      rw [hLength, List.length_replicate] at hj'
      refine ⟨_, by rw [Nat.zero_add]; exact List.getElem?_eq_getElem hj', ?_⟩
      refine Bool.eq_true_of_not_eq_false fun hRequired => ?_
      obtain ⟨g, hg, hNonempty⟩ :=
        hCovers j (hAdm.required j _ (List.getElem?_eq_getElem hj') hRequired)
      simp [hGroups, groupsOf, hj] at hg
      exact hNonempty hg
  refine ⟨ms, rfl, hMatched, ?_⟩
  rw [matchOperations_eq_ok]
  simp [hLoop, hMatched]

/-- The transfer's descriptions take a negative and a positive amount, so no operation of the
transfer fits both. -/
theorem transfer_unambiguous :
    Unambiguous (fun c : Currency => c) transferDescriptions.operationDescriptions transferOps := by
  intro o ho i j di dj hi hj hAi hAj
  rw [accepted_iff_fits] at hAi hAj
  simp only [transferOps, List.mem_cons, List.mem_singleton, List.not_mem_nil, or_false] at ho
  rcases i with _ | _ | i <;> rcases j with _ | _ | j <;>
    simp [transferDescriptions] at hi hj <;> subst hi hj <;> rcases ho with rfl | rfl <;>
    first | rfl | exact absurd hAi (by decide) | exact absurd hAj (by decide)

/-- Labelling the transfer's debit `0` and its credit `1` is admissible. -/
theorem matchOperations_complete_transfer :
    (∀ o ∈ transferOps, NullFree o) ∧
    (∀ o ∈ transferOps, ∀ amt, o.amount = some amt → (parseBigInt amt.value).isSome) ∧
    Unambiguous (fun c : Currency => c) transferDescriptions.operationDescriptions transferOps ∧
    Admissible (fun c : Currency => c) transferDescriptions transferOps [some 0, some 1] ∧
    ∃ ms, matchLoop (fun c : Currency => c) transferDescriptions 0
        (List.replicate transferDescriptions.operationDescriptions.length none)
        (transferOps.map some) = .ok ms ∧
      matchedCheck transferDescriptions.operationDescriptions 0 ms = .ok () ∧
      (matchOperations (fun c : Currency => c) transferDescriptions (transferOps.map some) =
          .ok ms ↔
        transferOps ≠ [] ∧ transferDescriptions.operationDescriptions ≠ [] ∧
          comparisonMatch transferDescriptions ms = .ok ()) := by
  have hNull : ∀ o ∈ transferOps, NullFree o := by
    intro o ho
    simp only [transferOps, List.mem_cons, List.mem_singleton, List.not_mem_nil, or_false] at ho
    rcases ho with rfl | rfl <;> exact ⟨fun _ => by simp, by simp⟩
  have hAdm : Admissible (fun c : Currency => c) transferDescriptions transferOps
      [some 0, some 1] := by
    refine ⟨rfl, fun k i o hk ho => ?_, fun i des _ _ k k' hk hk' => ?_, fun _ l hl => ?_,
      fun i des hd _ => ?_⟩
    · rcases k with _ | _ | k <;> simp [transferOps] at hk ho <;> subst hk ho <;>
        exact ⟨_, rfl, accepted_iff_fits.mpr (by decide)⟩
    · rcases k with _ | _ | k <;> rcases k' with _ | _ | k' <;> simp at hk hk' <;> omega
    · simp only [List.mem_cons, List.mem_singleton, List.not_mem_nil, or_false] at hl
      rcases hl with rfl | rfl <;> rfl
    · rcases i with _ | _ | i <;> simp [transferDescriptions] at hd ⊢
  exact ⟨hNull, transferOps_amounts_parse, transfer_unambiguous, hAdm,
    matchOperations_complete _ hNull transferOps_amounts_parse transfer_unambiguous hAdm⟩

/-! ## What each description gets -/

/-- What description `des` gets of `ops` when no operation fits two descriptions: the operations
it accepts, in order, and only the first of them when it does not allow repeats. -/
def acceptedGroup (des : OperationDescription) (ops : List Operation) : List Operation :=
  if des.allowRepeats then ops.filter (fits hash des [])
  else (ops.filter (fits hash des [])).take 1

variable {hash}

/-- A group admits an operation when the description allows repeats or the group is empty. -/
theorem fits_eq_and {des : OperationDescription} {g : List Operation} {o : Operation} :
    fits hash des g o = ((des.allowRepeats || g.isEmpty) && fits hash des [] o) := by
  simp only [fits, List.isEmpty_nil, Bool.or_true, Bool.true_and]
  ac_rfl

/-- One more operation joins a description's accepted group exactly when it fits that group. -/
theorem acceptedGroup_append_singleton {des : OperationDescription} {pre : List Operation}
    {o : Operation} :
    acceptedGroup hash des (pre ++ [o]) =
      if fits hash des (acceptedGroup hash des pre) o then acceptedGroup hash des pre ++ [o]
      else acceptedGroup hash des pre := by
  rw [fits_eq_and]
  unfold acceptedGroup
  rw [List.filter_append]
  generalize pre.filter (fits hash des []) = l
  cases des.allowRepeats <;> cases hF : fits hash des [] o <;> cases l <;> simp [hF]

variable (hash) in
/-- After first fit has run over `pre` into the groups `gs`, each description holds its accepted
group of `pre`. -/
structure Grouped (d : Descriptions) (pre : List Operation) (gs : List (List Operation)) :
    Prop where
  length : gs.length = d.operationDescriptions.length
  groups : ∀ (i : Nat) (des : OperationDescription), d.operationDescriptions[i]? = some des →
    gs[i]? = some (acceptedGroup hash des pre)

theorem grouped_nil : Grouped hash d [] (List.replicate d.operationDescriptions.length []) where
  length := List.length_replicate _ _
  groups _ des hd := by
    rw [List.getElem?_replicate, if_pos (List.getElem?_eq_some_iff.mp hd).1]
    simp [acceptedGroup]

/-- A placed operation joins the group of the one description that accepts it. -/
theorem Grouped.place {pre : List Operation} {o : Operation} {gs gs' : List (List Operation)}
    (hUnambiguous : Unambiguous hash d.operationDescriptions ops) (ho : o ∈ ops)
    (hG : Grouped hash d pre gs) (hFit : firstFit hash o d.operationDescriptions gs = some gs') :
    Grouped hash d (pre ++ [o]) gs' := by
  obtain ⟨j, dj, g, hdj, hg, hFits, rfl⟩ := firstFit_eq_some hFit
  have hgj : g = acceptedGroup hash dj pre := Option.some.inj (hg.symm.trans (hG.groups j dj hdj))
  refine ⟨by rw [List.length_set, hG.length], fun i des hd => ?_⟩
  rw [getElem?_set_append hg, acceptedGroup_append_singleton]
  by_cases hji : j = i
  · subst hji
    obtain rfl : dj = des := Option.some.inj (hdj.symm.trans hd)
    rw [if_pos rfl, ← hgj, if_pos hFits]
  · have hOther : fits hash des (acceptedGroup hash des pre) o = false :=
      Bool.eq_false_iff.mpr fun hFits' => hji <| hUnambiguous o ho j i dj des hdj hd
        (fits_eq_true.mp hFits).2 (fits_eq_true.mp hFits').2
    rw [if_neg hji, hOther, if_neg Bool.false_ne_true]
    exact hG.groups i des hd

/-- An operation that fits no group joins none. -/
theorem Grouped.skip {pre : List Operation} {o : Operation} {gs : List (List Operation)}
    (hG : Grouped hash d pre gs) (hFit : firstFit hash o d.operationDescriptions gs = none) :
    Grouped hash d (pre ++ [o]) gs where
  length := hG.length
  groups i des hd := by
    have hg := hG.groups i des hd
    rw [acceptedGroup_append_singleton, firstFit_eq_none hFit i des _ hd hg,
      if_neg Bool.false_ne_true]
    exact hg

theorem Grouped.run (hUnambiguous : Unambiguous hash d.operationDescriptions ops) :
    ∀ (rest : List Operation), rest ⊆ ops → ∀ {pre : List Operation}
      {gs gs' : List (List Operation)}, Grouped hash d pre gs →
      firstFitPass hash d gs rest = some gs' → Grouped hash d (pre ++ rest) gs'
  | [], _, pre, gs, gs', hG, h => by
    obtain rfl : gs = gs' := Option.some.inj h
    rwa [List.append_nil]
  | o :: rest, hSub, pre, gs, gs', hG, h => by
    have hRest : pre ++ o :: rest = pre ++ [o] ++ rest := by simp
    rw [hRest]
    have hSub' : rest ⊆ ops := (List.cons_subset.mp hSub).2
    simp only [firstFitPass] at h
    split at h
    · next gs₁ hFit =>
      exact Grouped.run hUnambiguous rest hSub'
        (hG.place hUnambiguous (List.cons_subset.mp hSub).1 hFit) h
    · next hFit =>
      split_ifs at h
      exact Grouped.run hUnambiguous rest hSub' (hG.skip hFit) h

variable (hash)

/-- **Without ambiguity, each description gets exactly what it accepts.**  For present operations
whose amounts parse, if no operation is accepted by two descriptions, then in the matches that
`MatchOperations` returns each description's group is the operations it accepts, in order, or
only the first of them when it does not allow repeats.  So the matches do not depend on the order
of the descriptions. -/
theorem matchOperations_groups_of_unambiguous {d : Descriptions} {ops : List Operation}
    {ms : List (Option Match)}
    (hParse : ∀ o ∈ ops, ∀ amt, o.amount = some amt → (parseBigInt amt.value).isSome)
    (hUnambiguous : Unambiguous hash d.operationDescriptions ops)
    (h : matchOperations hash d (ops.map some) = .ok ms) :
    ∀ (i : Nat) (des : OperationDescription), d.operationDescriptions[i]? = some des →
      groupAt ms i = acceptedGroup hash des ops := by
  obtain ⟨-, -, hLoop, -, -⟩ := matchOperations_eq_ok.mp h
  have hPop : Populated (List.replicate d.operationDescriptions.length none) := by
    simp [Populated]
  have hPass := (matchLoop_firstFit hash hParse (d := d) (k := 0) hPop).1 ms hLoop
  rw [groupsOf_replicate_none] at hPass
  have hG := Grouped.run hUnambiguous ops (List.Subset.refl _) grouped_nil hPass
  intro i des hd
  have hi := hG.groups i des hd
  rw [List.nil_append, groupsOf, List.getElem?_map] at hi
  obtain ⟨m, hm, hView⟩ := Option.map_eq_some'.mp hi
  rw [groupAt, contentAt_of_getElem? hm, hView]

/-- In the transfer, the debit description gets the debit and the credit description the
credit. -/
theorem matchOperations_groups_transfer :
    (∀ o ∈ transferOps, ∀ amt, o.amount = some amt → (parseBigInt amt.value).isSome) ∧
    Unambiguous (fun c : Currency => c) transferDescriptions.operationDescriptions transferOps ∧
    matchOperations (fun c : Currency => c) transferDescriptions (transferOps.map some) =
      .ok transferMatches ∧
    ∀ (i : Nat) (des : OperationDescription),
      transferDescriptions.operationDescriptions[i]? = some des →
      groupAt transferMatches i = acceptedGroup (fun c : Currency => c) des transferOps :=
  ⟨transferOps_amounts_parse, transfer_unambiguous, matchOperations_transfer _,
    matchOperations_groups_of_unambiguous _ transferOps_amounts_parse transfer_unambiguous
      (matchOperations_transfer _)⟩

end Hash

end MeshSdk.Parser
