import MeshSdk.Parser.Represent

/-!
# First fit, and where the pass departs from it

The pass of `MatchOperations` is meant to give each operation to the first description, in
order, that fits it: one that allows repeats or has no operation yet, whose populated fields the
operation satisfies, and whose operation has an amount that parses (`firstFitPass`).

`operationMatch` allocates the match of a description that passed the field checks before it
parses the operation's amount.  When the parse fails it moves on to the next description, and
the match stays allocated but empty.  From then on the description counts as matched:

* `matchOperations_required_empty`: a required description can end with a non-nil match that
  holds no operation, which the check after the loop accepts and whose `First` is `(nil, nil)`;
* `matchLoop_not_firstFit`: the next operation that fits the description is not given to it,
  where first fit gives it.

Without an amount that fails to parse no match is allocated empty, and the pass is first fit:

* `operationMatch_firstFit`: from matches that are `Populated` (each nil or holding an
  operation), `operationMatch` of an operation whose amount parses is `firstFit` on the groups;
* `matchLoop_refines_firstFit`: **the loop is `firstFitPass`**: when it returns matches, first fit
  builds the same groups, and when it fails with an error, first fit fails too;
* `matchOperations_required_first`: every required description ends with a match holding an
  operation, which `First` returns with its own amount, since every match the pass builds is
  `Match.Represents`.
-/

namespace MeshSdk.Parser

open Types

/-! ## First fit -/

section Hash

variable {κ : Type} [DecidableEq κ] (hash : Currency → κ)

/-- Modelled from the spec: the description `des`, whose group holds `group`, takes `o` when it
allows repeats or holds no operation yet, every populated field of `des` is satisfied by `o`,
and the amount of `o`, if present, parses as an integer. -/
def fits (des : OperationDescription) (group : List Operation) (o : Operation) : Bool :=
  (des.allowRepeats || group.isEmpty) && (des.type == "" || des.type == o.type) &&
    (accountMatch des.account o.account).isOk && (amountMatch hash des.amount o.amount).isOk &&
    (metadataMatch des.metadata o.metadata).isOk &&
    (coinActionMatch des.coinAction o.coinChange).isOk &&
    o.amount.all (fun amt => (parseBigInt amt.value).isSome)

/-- Modelled from the spec: append `o` to the group of the first description that fits it;
`none` when none does. -/
def firstFit (o : Operation) :
    List OperationDescription → List (List Operation) → Option (List (List Operation))
  | des :: ds, g :: gs =>
    if fits hash des g o then some ((g ++ [o]) :: gs) else (firstFit o ds gs).map (g :: ·)
  | _, _ => none

/-- Modelled from the spec: first fit for each operation in turn, from the groups `gs`; an
operation no description fits is left out, and fails the pass when `ErrUnmatched` is set. -/
def firstFitPass (d : Descriptions) :
    List (List Operation) → List Operation → Option (List (List Operation))
  | gs, [] => some gs
  | gs, o :: ops =>
    match firstFit hash o d.operationDescriptions gs with
    | some gs' => firstFitPass d gs' ops
    | none => if d.errUnmatched then none else firstFitPass d gs ops

variable {hash}

@[simp] theorem firstFit_cons_cons {o : Operation} {des : OperationDescription}
    {ds : List OperationDescription} {g : List Operation} {gs : List (List Operation)} :
    firstFit hash o (des :: ds) (g :: gs) =
      if fits hash des g o then some ((g ++ [o]) :: gs)
      else (firstFit hash o ds gs).map (g :: ·) :=
  rfl

theorem ParserCheck.isOk_eq_true {c : ParserCheck} : c.isOk = true ↔ c = .ok () := by
  rcases c with _ | ⟨⟩ <;> simp [Except.isOk, Except.toBool]

theorem fits_eq_true {des : OperationDescription} {group : List Operation} {o : Operation} :
    fits hash des group o = true ↔
      (des.allowRepeats = true ∨ group = []) ∧ Accepted hash des o := by
  have hType : (des.type == "" || des.type == o.type) = true ↔
      (des.type.length > 0 → des.type = o.type) := by
    by_cases hEmpty : des.type = "" <;> simp [hEmpty, Nat.pos_iff_ne_zero]
  have hValue : o.amount.all (fun amt => (parseBigInt amt.value).isSome) = true ↔
      ∀ amt, o.amount = some amt → (parseBigInt amt.value).isSome := by
    cases o.amount <;> simp
  simp only [fits, Bool.and_eq_true, Bool.or_eq_true, List.isEmpty_iff, hType, hValue,
    ParserCheck.isOk_eq_true, accepted_iff, and_assoc]

end Hash

/-! ## The allocated empty match -/

/-- A required description ends with a non-nil match holding no operation: its one operation
has an amount that does not parse.  `First` reads `(nil, nil)` from it. -/
theorem matchOperations_required_empty :
    matchOperations (fun c : Currency => c) { operationDescriptions := [{}] }
        [some { amount := some { value := "abc" } }] = .ok [some {}] ∧
      Match.first (some {}) = .ok (none, none) :=
  ⟨rfl, rfl⟩

/-- After an operation whose amount does not parse, the loop leaves the next one, whose amount
does, unmatched, where first fit gives it to the description. -/
theorem matchLoop_not_firstFit :
    (matchLoop (fun c : Currency => c) { operationDescriptions := [{}] } 0 [none]
        [some { amount := some { value := "abc" } }, some { amount := some { value := "5" } }]).map
        (fun ms => ms.map fun m => (Match.view m).1) = .ok [[]] ∧
      firstFitPass (fun c : Currency => c) { operationDescriptions := [{}] } [[]]
        [{ amount := some { value := "abc" } }, { amount := some { value := "5" } }] =
        some [[{ amount := some { value := "5" } }]] :=
  ⟨rfl, rfl⟩

/-! ## First fit without unparsable amounts -/

/-- The groups the matches hold. -/
def groupsOf (ms : List (Option Match)) : List (List Operation) :=
  ms.map fun m => (Match.view m).1

@[simp] theorem groupsOf_cons (m : Option Match) (ms : List (Option Match)) :
    groupsOf (m :: ms) = (Match.view m).1 :: groupsOf ms := rfl

@[simp] theorem groupsOf_replicate_none (n : Nat) :
    groupsOf (List.replicate n none) = List.replicate n [] := by
  simp [groupsOf, List.map_replicate]

/-- Every match is nil or holds an operation. -/
def Populated (ms : List (Option Match)) : Prop :=
  ∀ m ∈ ms, ∀ mm, m = some mm → mm.operations ≠ []

theorem Populated.cons {m : Option Match} {ms : List (Option Match)} :
    Populated (m :: ms) ↔ (∀ mm, m = some mm → mm.operations ≠ []) ∧ Populated ms :=
  List.forall_mem_cons

/-- A populated match admits an operation the same way first fit does. -/
theorem admits_iff {m : Option Match} {des : OperationDescription}
    (h : ∀ mm, m = some mm → mm.operations ≠ []) :
    (m = none ∨ des.allowRepeats = true) ↔
      (des.allowRepeats = true ∨ (Match.view m).1 = []) := by
  rcases m with _ | mm
  · simp
  · simp [h mm rfl]

section Hash

variable {κ : Type} [DecidableEq κ] (hash : Currency → κ)

/-- **One operation is placed by first fit**, when its amount parses. -/
theorem operationMatch_firstFit {o : Operation}
    (hParse : ∀ amt, o.amount = some amt → (parseBigInt amt.value).isSome) :
    ∀ {ds : List OperationDescription} {ms ms' : List (Option Match)} {found : Bool},
      Populated ms → operationMatch hash (some o) ds ms = .ok (found, ms') →
      Populated ms' ∧
        firstFit hash o ds (groupsOf ms) = (if found then some (groupsOf ms') else none) ∧
        (found = false → ms' = ms)
  | [], ms, ms', found, hPop, h => by
    obtain ⟨rfl, rfl⟩ : false = found ∧ ms = ms' := by simpa [operationMatch] using h
    exact ⟨hPop, by simp [firstFit], fun _ => rfl⟩
  | _ :: _, [], _, _, _, h => by cases h
  | des :: ds, m :: ms, ms', found, hPop, h => by
    obtain ⟨hHead, hTail⟩ := Populated.cons.mp hPop
    rcases operationMatch_cons_eq_ok hash h with
      ⟨o, ho, hElig, hAcc, rfl, rfl⟩ | ⟨m', rest, hR, rfl, -, hNot, hm'⟩
    · cases ho
      have hFits : fits hash des (Match.view m).1 o = true :=
        fits_eq_true.mpr ⟨(admits_iff hHead).mp hElig, hAcc⟩
      refine ⟨Populated.cons.mpr ⟨by simp, hTail⟩, ?_, by simp⟩
      rw [groupsOf_cons, firstFit_cons_cons, hFits]
      cases m <;> rfl
    · obtain rfl : m' = m := hm'.resolve_right fun ⟨_, amt, ho, hA, hv⟩ => by
        cases ho
        simpa [hv] using hParse amt hA
      obtain ⟨hPop', hFit, hSame⟩ := operationMatch_firstFit hParse hTail hR
      have hFits : fits hash des (Match.view m').1 o = false := by
        rw [Bool.eq_false_iff, Ne, fits_eq_true, ← admits_iff hHead]
        exact fun ⟨hElig, hAcc⟩ => hNot o rfl hElig hAcc
      refine ⟨Populated.cons.mpr ⟨hHead, hPop'⟩, ?_, fun hf => by rw [hSame hf]⟩
      rw [groupsOf_cons, firstFit_cons_cons, hFits, if_neg Bool.false_ne_true, hFit]
      cases found <;> rfl

variable {d : Descriptions}

/-- The loop from populated matches, as first fit from their groups. -/
theorem matchLoop_firstFit {ops : List Operation}
    (hParse : ∀ o ∈ ops, ∀ amt, o.amount = some amt → (parseBigInt amt.value).isSome) :
    ∀ {k : Nat} {ms : List (Option Match)}, Populated ms →
      (∀ ms', matchLoop hash d k ms (ops.map some) = .ok ms' →
        firstFitPass hash d (groupsOf ms) ops = some (groupsOf ms')) ∧
      (∀ e, matchLoop hash d k ms (ops.map some) = fail e →
        firstFitPass hash d (groupsOf ms) ops = none) := by
  induction ops with
  | nil =>
    intro k ms _
    exact ⟨fun ms' h => by cases h; rfl, fun e h => by cases h⟩
  | cons o ops ih =>
    intro k ms hPop
    have hParse' := fun o' ho' => hParse o' (List.mem_cons_of_mem o ho')
    simp only [List.map_cons, matchLoop]
    rcases hM : operationMatch hash (some o) d.operationDescriptions ms with p | ⟨found, ms₁⟩
    · refine ⟨fun _ h => ?_, fun _ h => ?_⟩ <;> cases h
    obtain ⟨hPop₁, hFit, hSame⟩ :=
      operationMatch_firstFit hash (hParse o (List.mem_cons_self o ops)) hPop hM
    obtain ⟨ihOk, ihFail⟩ := ih hParse' (k := k + 1) hPop₁
    cases found
    · obtain rfl := hSame rfl
      cases hE : d.errUnmatched
      · simpa [firstFitPass, hFit, hE] using And.intro ihOk ihFail
      · exact ⟨fun _ h => by simp [hE] at h, fun _ _ => by simp [firstFitPass, hFit, hE]⟩
    · simpa [firstFitPass, hFit] using And.intro ihOk ihFail

end Hash

/-! ## Required descriptions without unparsable amounts -/

theorem descriptionMatched_none_eq_ok {ds : List OperationDescription} {i : Nat} :
    descriptionMatched ds i none = .ok () ↔
      ∃ des, ds[i]? = some des ∧ des.optional = true := by
  by_cases hi : i < ds.length
  · have hGet : (sliceGet ds i : Except (Fault ParserError) _) = .ok ds[i] := by
      simp [sliceGet, hi, Int.ofNat_nonneg]
    cases hOptional : ds[i].optional <;>
      simp [descriptionMatched, hGet, hOptional, List.getElem?_eq_getElem hi]
  · have hGet : (sliceGet ds i : Except (Fault ParserError) OperationDescription) =
        crash .indexOutOfRange := by
      simp [sliceGet, hi]
    simp [descriptionMatched, hGet, List.getElem?_eq_none (Nat.le_of_not_lt hi)]

/-- The check after the loop passes only when every description without a match is optional. -/
theorem matchedCheck_ok {ds : List OperationDescription} :
    ∀ {k : Nat} {ms : List (Option Match)}, matchedCheck ds k ms = .ok () →
      ∀ j, ms[j]? = some none → ∃ des, ds[k + j]? = some des ∧ des.optional = true
  | _, [], _, _, hj => by simp at hj
  | k, m :: ms, h, j, hj => by
    obtain ⟨hHead, hRest⟩ :
        descriptionMatched ds k m = .ok () ∧ matchedCheck ds (k + 1) ms = .ok () := by
      simpa [matchedCheck] using h
    cases j with
    | zero =>
      obtain rfl : m = none := by simpa using hj
      exact descriptionMatched_none_eq_ok.mp hHead
    | succ j =>
      rw [show k + (j + 1) = k + 1 + j by omega]
      exact matchedCheck_ok hRest j (by simpa using hj)

/-- Conversely, the check passes when every description without a match is optional. -/
theorem matchedCheck_of_optional {ds : List OperationDescription} :
    ∀ {k : Nat} {ms : List (Option Match)},
      (∀ j, ms[j]? = some none → ∃ des, ds[k + j]? = some des ∧ des.optional = true) →
      matchedCheck ds k ms = .ok ()
  | _, [], _ => rfl
  | k, m :: ms, h => by
    have hHead : descriptionMatched ds k m = .ok () := by
      rcases m with _ | m
      · exact descriptionMatched_none_eq_ok.mpr (h 0 (by simp))
      · rfl
    have hRest : matchedCheck ds (k + 1) ms = .ok () := matchedCheck_of_optional fun j hj => by
      rw [show k + 1 + j = k + (j + 1) by omega]
      exact h (j + 1) (by simpa using hj)
    simp only [matchedCheck, hHead, hRest, ok_bind]

section Hash

variable {κ : Type} [DecidableEq κ] (hash : Currency → κ)

/-- **Required descriptions are matched when every amount parses.**  A successful
`MatchOperations` on present operations whose amounts parse gives every required description a
match holding an operation; `First` returns the first of them with that operation's own amount,
its `AmountValue`. -/
theorem matchOperations_required_first {d : Descriptions} {ops : List Operation}
    {ms : List (Option Match)}
    (hParse : ∀ o ∈ ops, ∀ amt, o.amount = some amt → (parseBigInt amt.value).isSome)
    (h : matchOperations hash d (ops.map some) = .ok ms) :
    ∀ (i : Nat) (des : OperationDescription), d.operationDescriptions[i]? = some des →
      des.optional = false →
      ∃ m o, ms[i]? = some (some m) ∧ m.operations.head? = some o ∧
        Match.first (some m) = .ok (some o, amountValue o.amount) := by
  obtain ⟨-, -, hLoop, hMatched, -⟩ := matchOperations_eq_ok.mp h
  have hPop : Populated ms := matchLoop_invariant hash Populated
    (fun hop hInv hM => by
      obtain ⟨o, ho, rfl⟩ := List.mem_map.mp hop
      exact (operationMatch_firstFit hash (hParse o ho) hInv hM).1)
    (by simp [Populated]) hLoop
  have hRep := matchLoop_represents hash hLoop
    (fun _ hm => absurd (List.eq_of_mem_replicate hm) (by simp))
  intro i des hd hRequired
  have hi : i < ms.length := by
    rw [matchLoop_length hash hLoop, List.length_replicate]
    exact (List.getElem?_eq_some_iff.mp hd).1
  rcases hm : ms[i]? with _ | _ | m
  · exact absurd hm (by simp [hi])
  · obtain ⟨des', hd', hOptional⟩ := matchedCheck_ok hMatched i hm
    rw [Nat.zero_add, hd] at hd'
    cases hd'
    simp [hRequired] at hOptional
  · obtain ⟨o, os, hOps⟩ := List.exists_cons_of_ne_nil (hPop _ (List.getElem?_mem hm) m rfl)
    refine ⟨m, o, rfl, by simp [hOps], ?_⟩
    rw [(hRep m (List.getElem?_mem hm)).first, hOps]
    rfl

end Hash

theorem transferOps_amounts_parse :
    ∀ o ∈ transferOps, ∀ amt, o.amount = some amt → (parseBigInt amt.value).isSome := by
  intro o ho amt hA
  simp only [transferOps, List.mem_cons, List.mem_singleton, List.not_mem_nil, or_false] at ho
  rcases ho with rfl | rfl <;> cases hA <;> rfl

/-- The transfer's debit and credit descriptions are required, and both are matched. -/
theorem matchOperations_required_first_transfer :
    (∀ o ∈ transferOps, ∀ amt, o.amount = some amt → (parseBigInt amt.value).isSome) ∧
    matchOperations (fun c : Currency => c) transferDescriptions (transferOps.map some) =
      .ok transferMatches ∧
    ∀ (i : Nat) (des : OperationDescription),
      transferDescriptions.operationDescriptions[i]? = some des → des.optional = false →
      ∃ m o, transferMatches[i]? = some (some m) ∧ m.operations.head? = some o ∧
        Match.first (some m) = .ok (some o, amountValue o.amount) :=
  have h : matchOperations (fun c : Currency => c) transferDescriptions (transferOps.map some) =
      .ok transferMatches := matchOperations_transfer _
  ⟨transferOps_amounts_parse, h,
    matchOperations_required_first _ transferOps_amounts_parse h⟩

end MeshSdk.Parser
