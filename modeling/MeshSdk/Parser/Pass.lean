import MeshSdk.Parser.Match

/-!
# One pass of the matcher

What `operationMatch` can do to the matches, said once, and what the loop of `MatchOperations`
keeps over the whole pass.

* `operationMatch_step`: **every successful `operationMatch` is a `MatchStep`**: one offered
  operation either changes no group, or is appended, with its parsed amount, to the group of
  one description that accepts it (`Accepted`) and has no match yet or allows repeats.
* `matchLoop_invariant`: a property of the matches that every step of the loop keeps holds
  after the loop.
* `matchLoop_labels`: the loop gives every operation at most one group, every operation when
  `ErrUnmatched` is set, and builds each group from its operations in their order.
* `matchOperations_eq_ok`: what a successful `MatchOperations` has run.

A match counts here by what it holds (`Match.view`): a match allocated without an operation
holds what a `nil` one does.
-/

namespace MeshSdk.Parser

open Types

/-! ## Groups -/

/-- The operations and amounts a possibly nil match holds. -/
def Match.view : Option Match → List Operation × List (Option Int)
  | none => ([], [])
  | some m => (m.operations, m.amounts)

@[simp] theorem Match.view_none : Match.view none = ([], []) := rfl

@[simp] theorem Match.view_some (m : Match) : Match.view (some m) = (m.operations, m.amounts) :=
  rfl

theorem Match.view_getD (m : Option Match) : Match.view (some (m.getD {})) = Match.view m := by
  cases m <;> rfl

/-- What the match at position `i` holds; nothing past the end. -/
def contentAt : List (Option Match) → Nat → List Operation × List (Option Int)
  | [], _ => ([], [])
  | m :: _, 0 => Match.view m
  | _ :: ms, i + 1 => contentAt ms i

/-- The group of description `i`: the operations its match holds. -/
def groupAt (ms : List (Option Match)) (i : Nat) : List Operation := (contentAt ms i).1

@[simp] theorem contentAt_nil (i : Nat) : contentAt [] i = ([], []) := rfl

@[simp] theorem contentAt_cons_zero (m : Option Match) (ms : List (Option Match)) :
    contentAt (m :: ms) 0 = Match.view m := rfl

@[simp] theorem contentAt_cons_succ (m : Option Match) (ms : List (Option Match)) (i : Nat) :
    contentAt (m :: ms) (i + 1) = contentAt ms i := rfl

@[simp] theorem contentAt_replicate_none (n i : Nat) :
    contentAt (List.replicate n none) i = ([], []) := by
  induction n generalizing i with
  | zero => rfl
  | succ n ih => cases i <;> simp [List.replicate_succ, ih]

theorem contentAt_of_getElem? {ms : List (Option Match)} {i : Nat} {m : Option Match}
    (h : ms[i]? = some m) : contentAt ms i = Match.view m := by
  induction ms generalizing i with
  | nil => simp at h
  | cons m ms ih => cases i <;> simp_all

/-! ## One step -/

/-- Go's `if err != nil { continue }` in `operationMatch`: a check that passes goes on with the
rest, one that fails with an error moves to the next description. -/
theorem orContinue_eq_ok {β : Type} {check : ParserCheck} {next rest : Except Panic β} {r : β}
    (h : orContinue check next rest = .ok r) :
    (check = .ok () ∧ rest = .ok r) ∨ (check ≠ .ok () ∧ next = .ok r) := by
  unfold orContinue at h
  split at h
  · exact .inl ⟨rfl, h⟩
  · exact .inr ⟨by simp, h⟩
  · cases h

/-- The field checks of a description in a row: all pass and the rest runs, or one fails and the
scan moves to the next description. -/
theorem foldr_orContinue_eq_ok {β : Type} (checks : List ParserCheck) {next rest : Except Panic β}
    {r : β} (h : checks.foldr (fun check rest => orContinue check next rest) rest = .ok r) :
    ((∀ check ∈ checks, check = .ok ()) ∧ rest = .ok r) ∨
      (¬ (∀ check ∈ checks, check = .ok ()) ∧ next = .ok r) := by
  induction checks with
  | nil => exact .inl ⟨by simp, h⟩
  | cons check checks ih =>
    simp only [List.forall_mem_cons]
    rcases orContinue_eq_ok h with ⟨hPass, h⟩ | ⟨hFail, h⟩
    · exact (ih h).imp (And.imp_left (⟨hPass, ·⟩)) (And.imp_left (· ∘ And.right))
    · exact .inr ⟨(hFail ·.1), h⟩

/-- The scan going on at the next description, with `m` kept or replaced at this one. -/
theorem next_eq_ok {R : Except Panic (Bool × List (Option Match))} {m : Option Match}
    {found : Bool} {ms' : List (Option Match)}
    (h : (do let (found, ms) ← R; pure (found, m :: ms)) = .ok (found, ms')) :
    ∃ rest, R = .ok (found, rest) ∧ ms' = m :: rest := by
  rcases R with _ | ⟨f, rest⟩
  · cases h
  · cases h
    exact ⟨rest, rfl, rfl⟩

section Hash

variable {κ : Type} [DecidableEq κ] (hash : Currency → κ)

/-- What the field checks of `operationMatch` and the amount parse accept: `o` passes every
check of `des`, and its amount, if present, parses. -/
@[mk_iff] structure Accepted (des : OperationDescription) (o : Operation) : Prop where
  type : des.type.length > 0 → des.type = o.type
  account : accountMatch des.account o.account = .ok ()
  amount : amountMatch hash des.amount o.amount = .ok ()
  metadata : metadataMatch des.metadata o.metadata = .ok ()
  coinAction : coinActionMatch des.coinAction o.coinChange = .ok ()
  value : ∀ amt, o.amount = some amt → (parseBigInt amt.value).isSome

/-- What one `operationMatch` of `op` did to the matches `ms`, giving `ms'`: the matches keep
their number, and either `found` is false and no match holds anything new, or `found` is true
and `op` is an operation `o` appended, with its parsed amount, to the match of a description
`i` that accepts it and had no match yet or allows repeats. -/
structure MatchStep (op : Option Operation) (ds : List OperationDescription)
    (ms ms' : List (Option Match)) (found : Bool) : Prop where
  length : ms'.length = ms.length
  unchanged : found = false → ∀ j, contentAt ms' j = contentAt ms j
  appended : found = true → ∃ o i d, op = some o ∧ ds[i]? = some d ∧ i < ms.length ∧
    (ms[i]? = some none ∨ d.allowRepeats = true) ∧ Accepted hash d o ∧
    contentAt ms' i = ((contentAt ms i).1 ++ [o], (contentAt ms i).2 ++ [amountValue o.amount]) ∧
    ∀ j ≠ i, contentAt ms' j = contentAt ms j

variable {hash}

theorem MatchStep.nil {op : Option Operation} {ms : List (Option Match)} :
    MatchStep hash op [] ms ms false where
  length := rfl
  unchanged _ _ := rfl
  appended h := absurd h (by simp)

/-- A step of the scan past description `des`, whose match `m` is kept or replaced by one that
holds the same. -/
theorem MatchStep.cons {op : Option Operation} {des : OperationDescription}
    {ds : List OperationDescription} {m m' : Option Match} {ms ms' : List (Option Match)}
    {found : Bool} (h : MatchStep hash op ds ms ms' found) (hv : Match.view m' = Match.view m) :
    MatchStep hash op (des :: ds) (m :: ms) (m' :: ms') found where
  length := by simp [h.length]
  unchanged hf j := by cases j <;> simp [hv, h.unchanged hf]
  appended hf := by
    obtain ⟨o, i, d, hop, hd, hi, hElig, hAcc, hAt, hOther⟩ := h.appended hf
    refine ⟨o, i + 1, d, hop, by simpa using hd, by simpa using hi, by simpa using hElig, hAcc,
      by simpa using hAt, fun j hj => ?_⟩
    cases j with
    | zero => simpa using hv
    | succ j => simpa using hOther j (by omega)

/-- The scan stopping at description `des`, which accepts `o`. -/
theorem MatchStep.here {o : Operation} {des : OperationDescription}
    {ds : List OperationDescription} {m : Option Match} {ms : List (Option Match)}
    {v : Option Int} (hElig : m = none ∨ des.allowRepeats = true) (hAcc : Accepted hash des o)
    (hv : amountValue o.amount = v) :
    MatchStep hash (some o) (des :: ds) (m :: ms) (some ((m.getD {}).push o v) :: ms) true where
  length := rfl
  unchanged h := absurd h (by simp)
  appended _ := by
    subst hv
    refine ⟨o, 0, des, rfl, by simp, by simp, by simpa using hElig, hAcc, by cases m <;> rfl,
      fun j hj => ?_⟩
    cases j
    · exact absurd rfl hj
    · rfl

variable (hash)

/-- **What `operationMatch` does at one description** `des`, whose match is `m`: it takes an
operation that `des` accepts while `des` has no match or allows repeats, appending it with its
parsed amount; or it passes on to the next description, `des` not both admitting and accepting
the operation.  Passing on, it replaces `m` only by the match it allocated, which holds the
same, and only when the operation's amount does not parse. -/
theorem operationMatch_cons_eq_ok {op : Option Operation} {des : OperationDescription}
    {ds : List OperationDescription} {m : Option Match} {ms ms' : List (Option Match)}
    {found : Bool} (h : operationMatch hash op (des :: ds) (m :: ms) = .ok (found, ms')) :
    (∃ o, op = some o ∧ (m = none ∨ des.allowRepeats = true) ∧ Accepted hash des o ∧
      found = true ∧ ms' = some ((m.getD {}).push o (amountValue o.amount)) :: ms) ∨
    (∃ m' rest, operationMatch hash op ds ms = .ok (found, rest) ∧ ms' = m' :: rest ∧
      Match.view m' = Match.view m ∧
      (∀ o, op = some o → (m = none ∨ des.allowRepeats = true) → ¬ Accepted hash des o) ∧
      (m' = m ∨ ∃ o amt, op = some o ∧ o.amount = some amt ∧
        parseBigInt amt.value = none)) := by
  have hNext : ∀ m', Match.view m' = Match.view m →
      (m' = m ∨ ∃ o amt, op = some o ∧ o.amount = some amt ∧
        parseBigInt amt.value = none) →
      (∀ o, op = some o → (m = none ∨ des.allowRepeats = true) → ¬ Accepted hash des o) →
      (do let (found, ms) ← operationMatch hash op ds ms; pure (found, m' :: ms)) =
        .ok (found, ms') →
      ∃ m' rest, operationMatch hash op ds ms = .ok (found, rest) ∧ ms' = m' :: rest ∧
        Match.view m' = Match.view m ∧
        (∀ o, op = some o → (m = none ∨ des.allowRepeats = true) →
          ¬ Accepted hash des o) ∧
        (m' = m ∨ ∃ o amt, op = some o ∧ o.amount = some amt ∧
          parseBigInt amt.value = none) :=
    fun m' hv hm' hNot hN => by
      obtain ⟨rest, hR, rfl⟩ := next_eq_ok hN
      exact ⟨m', rest, hR, rfl, hv, hNot, hm'⟩
  unfold operationMatch at h
  split_ifs at h with hSkip
  · refine .inr (hNext m rfl (.inl rfl) (fun _ _ hElig _ => ?_) h)
    rcases hElig with rfl | hRepeats
    · exact absurd hSkip.1 (by simp)
    · exact absurd hSkip.2 (by simp [hRepeats])
  have hElig : m = none ∨ des.allowRepeats = true := by
    rcases m with _ | m
    · exact .inl rfl
    · exact .inr (by simpa using hSkip)
  rcases op with _ | o
  · cases h
  dsimp only at h
  split_ifs at h with hType
  · exact .inr <| hNext m rfl (.inl rfl)
      (fun _ ho _ hAcc => by cases ho; exact hType.2 (hAcc.type hType.1)) h
  rcases foldr_orContinue_eq_ok [accountMatch des.account o.account,
      amountMatch hash des.amount o.amount, metadataMatch des.metadata o.metadata,
      coinActionMatch des.coinAction o.coinChange] h with ⟨hChecks, h⟩ | ⟨hFail, h⟩
  rotate_left
  · exact .inr <| hNext m rfl (.inl rfl) (fun _ ho _ hAcc => by
      cases ho; exact hFail (by simp [hAcc.account, hAcc.amount, hAcc.metadata, hAcc.coinAction])) h
  simp only [List.mem_cons, List.not_mem_nil, forall_eq_or_imp, or_false, forall_eq] at hChecks
  obtain ⟨hAccount, hAmount, hMetadata, hCoin⟩ := hChecks
  have hAcc : (∀ amt, o.amount = some amt → (parseBigInt amt.value).isSome) →
      Accepted hash des o := fun hValue =>
    ⟨fun hl => not_not.mp (not_and.mp hType hl), hAccount, hAmount, hMetadata, hCoin, hValue⟩
  rcases hA : o.amount with _ | amt
  · simp only [hA] at h
    obtain ⟨rfl, rfl⟩ : true = found ∧ _ = ms' := by simpa using h
    exact .inl ⟨o, rfl, hElig, hAcc (by simp [hA]), rfl, by simp [hA]⟩
  · rcases hv : parseBigInt amt.value with _ | v
    · simp only [hA, amountValue_some, hv] at h
      refine .inr <| hNext _ (Match.view_getD m) (.inr ⟨o, amt, rfl, hA, hv⟩)
        (fun _ ho _ hAcc => ?_) h
      cases ho
      simpa [hv] using hAcc.value amt hA
    · simp only [hA, amountValue_some, hv] at h
      obtain ⟨rfl, rfl⟩ : true = found ∧ _ = ms' := by simpa using h
      exact .inl ⟨o, rfl, hElig, hAcc (by simp [hA, hv]), rfl, by simp [hA, hv]⟩

/-- **What `operationMatch` does**, for every operation and every scan of descriptions and
matches that ends without a panic. -/
theorem operationMatch_step {op : Option Operation} :
    ∀ {ds : List OperationDescription} {ms ms' : List (Option Match)} {found : Bool},
      operationMatch hash op ds ms = .ok (found, ms') → MatchStep hash op ds ms ms' found
  | [], ms, ms', found, h => by
    obtain ⟨rfl, rfl⟩ : false = found ∧ ms = ms' := by simpa [operationMatch] using h
    exact .nil
  | _ :: _, [], _, _, h => by cases h
  | _ :: _, _ :: _, _, _, h => by
    rcases operationMatch_cons_eq_ok hash h with
      ⟨o, rfl, hElig, hAcc, rfl, rfl⟩ | ⟨m', rest, hR, rfl, hv, -, -⟩
    · exact .here hElig hAcc rfl
    · exact (operationMatch_step hR).cons hv

/-! ## The loop -/

variable {d : Descriptions}

theorem matchLoop_cons_eq_ok {k : Nat} {ms ms'' : List (Option Match)} {op : Option Operation}
    {ops : List (Option Operation)} :
    matchLoop hash d k ms (op :: ops) = .ok ms'' ↔
      ∃ found ms', operationMatch hash op d.operationDescriptions ms = .ok (found, ms') ∧
        (d.errUnmatched = true → found = true) ∧
        matchLoop hash d (k + 1) ms' ops = .ok ms'' := by
  simp only [matchLoop]
  rcases operationMatch hash op d.operationDescriptions ms with _ | ⟨found, ms'⟩
  · simp
  · cases found <;> cases d.errUnmatched <;> simp

/-- **The loop keeps what every step keeps.** -/
theorem matchLoop_invariant (Inv : List (Option Match) → Prop)
    {ops : List (Option Operation)}
    (hStep : ∀ {op ms ms' found}, op ∈ ops → Inv ms →
      operationMatch hash op d.operationDescriptions ms = .ok (found, ms') → Inv ms') :
    ∀ {k : Nat} {ms ms' : List (Option Match)}, Inv ms →
      matchLoop hash d k ms ops = .ok ms' → Inv ms' := by
  induction ops with
  | nil =>
    intro _ _ _ hInv h
    cases h
    exact hInv
  | cons op ops ih =>
    intro _ _ _ hInv h
    obtain ⟨_, _, hM, -, hRest⟩ := (matchLoop_cons_eq_ok hash).mp h
    exact ih (fun hop => hStep (List.mem_cons_of_mem op hop))
      (hStep (List.mem_cons_self op ops) hInv hM) hRest

theorem matchLoop_length {k : Nat} {ms ms' : List (Option Match)} {ops : List (Option Operation)}
    (h : matchLoop hash d k ms ops = .ok ms') : ms'.length = ms.length :=
  matchLoop_invariant hash (fun ms' => ms'.length = ms.length)
    (fun _ hInv hM => (operationMatch_step hash hM).length.trans hInv) rfl h

/-- The operations at the positions of `ops` that `labels` gives to group `i`, in order. -/
def labelled (ops : List (Option Operation)) (labels : List (Option Nat)) (i : Nat) :
    List (Option Operation) :=
  ((ops.zip labels).filter (fun p => p.2 = some i)).map Prod.fst

@[simp] theorem labelled_nil (labels : List (Option Nat)) (i : Nat) :
    labelled [] labels i = [] := rfl

@[simp] theorem labelled_cons (op : Option Operation) (ops : List (Option Operation))
    (l : Option Nat) (labels : List (Option Nat)) (i : Nat) :
    labelled (op :: ops) (l :: labels) i =
      if l = some i then op :: labelled ops labels i else labelled ops labels i := by
  by_cases h : l = some i <;> simp [labelled, List.filter_cons, h]

/-- **The loop sorts the operations into groups.**  Each operation gets at most one label, a
description's position, and exactly one when `ErrUnmatched` is set; every group grows by the
operations labelled with its position, in their order. -/
theorem matchLoop_labels :
    ∀ {k : Nat} {ms ms' : List (Option Match)} {ops : List (Option Operation)},
      matchLoop hash d k ms ops = .ok ms' →
      ∃ labels : List (Option Nat), labels.length = ops.length ∧
        (∀ l ∈ labels, ∀ i, l = some i → i < ms.length) ∧
        (d.errUnmatched = true → ∀ l ∈ labels, l.isSome) ∧
        ∀ i, (groupAt ms' i).map some = (groupAt ms i).map some ++ labelled ops labels i
  | _, _, _, [], h => by
    cases h
    exact ⟨[], rfl, by simp, by simp, by simp⟩
  | _, ms, _, op :: ops, h => by
    obtain ⟨found, ms₁, hM, hFound, hRest⟩ := (matchLoop_cons_eq_ok hash).mp h
    have hStep := operationMatch_step hash hM
    obtain ⟨labels, hLen, hBound, hAll, hGroups⟩ := matchLoop_labels hRest
    rw [hStep.length] at hBound
    cases found
    case false =>
      refine ⟨none :: labels, by simp [hLen], by simpa using hBound, fun hE => ?_,
        fun i => by rw [hGroups]; simp [groupAt, hStep.unchanged rfl]⟩
      exact absurd (hFound hE) (by simp)
    case true =>
      obtain ⟨o, i₀, -, rfl, -, hi₀, -, -, hAt, hOther⟩ := hStep.appended rfl
      refine ⟨some i₀ :: labels, by simp [hLen], ?_, fun hE => by simpa using hAll hE,
        fun i => ?_⟩
      · simpa [hi₀] using hBound
      · rw [hGroups]
        by_cases hi : i = i₀
        · subst hi
          simp [groupAt, hAt]
        · simp [groupAt, hOther i hi, Ne.symm hi]

end Hash

/-! ## `MatchOperations` -/

theorem matchOperations_eq_ok {κ : Type} [DecidableEq κ] {hash : Currency → κ}
    {d : Descriptions} {ops : List (Option Operation)} {ms : List (Option Match)} :
    matchOperations hash d ops = .ok ms ↔ ops ≠ [] ∧ d.operationDescriptions ≠ [] ∧
      matchLoop hash d 0 (List.replicate d.operationDescriptions.length none) ops = .ok ms ∧
      matchedCheck d.operationDescriptions 0 ms = .ok () ∧ comparisonMatch d ms = .ok () := by
  unfold matchOperations
  split_ifs with hOps hDs
  · simp_all
  · simp_all
  · simp_all
    exact ⟨fun ⟨_, hLoop, hMatched, hCompare, he⟩ => he ▸ ⟨hLoop, hMatched, hCompare⟩,
      fun ⟨hLoop, hMatched, hCompare⟩ => ⟨ms, hLoop, hMatched, hCompare, rfl⟩⟩

/-! ## A transfer -/

/-- A transfer: a debit of a negative amount and a credit of a positive one, of opposite
amounts, every operation to be matched. -/
def transferDescriptions : Descriptions where
  operationDescriptions :=
    [{ type := "transfer", amount := some { «exists» := true, sign := negativeAmountSign } },
     { type := "transfer", amount := some { «exists» := true, sign := positiveAmountSign } }]
  oppositeAmounts := [[0, 1]]
  errUnmatched := true

/-- A debit of 5 and a credit of 5. -/
def transferOps : List Operation :=
  [{ type := "transfer", amount := some { value := "-5" } },
   { type := "transfer", amount := some { value := "5" } }]

/-- The transfer's operations, all present. -/
def transferOperations : List (Option Operation) := transferOps.map some

/-- The debit in the group of the first description, the credit in that of the second. -/
def transferMatches : List (Option Match) :=
  [some { operations := [{ type := "transfer", amount := some { value := "-5" } }],
          amounts := [some (-5)] },
   some { operations := [{ type := "transfer", amount := some { value := "5" } }],
          amounts := [some 5] }]

theorem matchOperations_transfer {κ : Type} [DecidableEq κ] (hash : Currency → κ) :
    matchOperations hash transferDescriptions transferOperations = .ok transferMatches :=
  rfl

end MeshSdk.Parser
