import MeshSdk.Parser.Pass

/-!
# The representation invariant of `Match`

The comment on `Match` says that `Amounts` has the length of `Operations` and holds the parsed
amount of each operation that has one.  The pass keeps this on every path of `operationMatch`,
the one that allocates a match and moves on when the amount does not parse included, so every
match `MatchOperations` returns keeps it, and `First` returns the amount of the operation it
returns.

* `Match.Represents`: `Amounts` is `Operations` mapped by `AmountValue`, and every amount of a
  matched operation parses; `Match.Represents.getElem?` reads this position by position.
* `MatchStep.represents`: a step keeps the invariant at every position (`matchAt`), so
  `operationMatch_represents` and `matchLoop_represents` keep every present match represented.
* `Match.Represents.first`: `First` on such a match returns its first operation with that
  operation's amount, without indexing `Amounts` out of range.
* `matchOperations_represents`: **the invariant over every step, every run of the loop, and the
  result**.
-/

namespace MeshSdk.Parser

open Types

/-! ## The invariant -/

/-- The representation invariant of `Match`: `Amounts[k]` is the parsed amount of
`Operations[k]` (`nil` for an operation without an amount), and every amount of a matched
operation parses, so that `Amounts[k]` is `nil` exactly when `Operations[k]` has no amount. -/
structure Match.Represents (m : Match) : Prop where
  amounts : m.amounts = m.operations.map fun o => amountValue o.amount
  parses : ∀ o ∈ m.operations, ∀ amt, o.amount = some amt → (parseBigInt amt.value).isSome

theorem Match.represents_empty : ({} : Match).Represents := ⟨rfl, by simp⟩

/-- **Position by position**: the two lists have one length, and `Amounts[k]` is `nil` when
`Operations[k]` has no amount and otherwise the integer its value parses to. -/
theorem Match.Represents.getElem? {m : Match} (h : m.Represents) {k : Nat} {o : Operation}
    (hk : m.operations[k]? = some o) :
    m.amounts.length = m.operations.length ∧ (o.amount = none → m.amounts[k]? = some none) ∧
      ∀ amt, o.amount = some amt → ∃ v, parseBigInt amt.value = some v ∧
        m.amounts[k]? = some (some v) := by
  rw [h.amounts]
  refine ⟨List.length_map _ _, fun hNone => by simp [hk, hNone], fun amt hAmt => ?_⟩
  obtain ⟨v, hv⟩ := Option.isSome_iff_exists.mp (h.parses o (List.getElem?_mem hk) amt hAmt)
  exact ⟨v, hv, by simp [hk, hAmt, hv]⟩

theorem Match.Represents.push {m : Match} (h : m.Represents) {o : Operation}
    (hParse : ∀ amt, o.amount = some amt → (parseBigInt amt.value).isSome) :
    (m.push o (amountValue o.amount)).Represents where
  amounts := by simp [h.amounts]
  parses o' ho' := by
    rcases List.mem_append.mp ho' with ho' | ho'
    · exact h.parses o' ho'
    · exact (List.mem_singleton.mp ho') ▸ hParse

/-- **`First` on a represented match** returns its first operation with that operation's
amount: `Amounts` has an element wherever `Operations` has one. -/
theorem Match.Represents.first {m : Match} (h : m.Represents) :
    Match.first (some m) =
      .ok (m.operations.head?, m.operations.head?.bind fun o => amountValue o.amount) := by
  rcases m with ⟨_ | ⟨o, os⟩, amounts⟩
  · rfl
  · have hAmounts : amounts = _ := h.amounts
    simp only at hAmounts
    subst hAmounts
    rfl

/-! ## Over the pass -/

/-- The match at position `j` as it reads, a nil match or a position past the end being the
empty match. -/
def matchAt (ms : List (Option Match)) (j : Nat) : Match :=
  ⟨(contentAt ms j).1, (contentAt ms j).2⟩

theorem contentAt_of_length_le : ∀ {ms : List (Option Match)} {j : Nat}, ms.length ≤ j →
    contentAt ms j = ([], [])
  | [], _, _ => rfl
  | _ :: _, 0, h => absurd h (by simp)
  | _ :: ms, j + 1, h => by
    simpa using contentAt_of_length_le (by simpa using h : ms.length ≤ j)

/-- Every present match is represented exactly when the match at every position is. -/
theorem represents_iff_matchAt {ms : List (Option Match)} :
    (∀ m, some m ∈ ms → m.Represents) ↔ ∀ j, (matchAt ms j).Represents := by
  constructor
  · intro h j
    rcases hj : ms[j]? with _ | _ | m
    · rw [matchAt, contentAt_of_length_le (List.getElem?_eq_none_iff.mp hj)]
      exact Match.represents_empty
    · rw [matchAt, contentAt_of_getElem? hj]
      exact Match.represents_empty
    · rw [matchAt, contentAt_of_getElem? hj]
      exact h m (List.getElem?_mem hj)
  · intro h m hm
    obtain ⟨j, hj⟩ := List.mem_iff_getElem?.mp hm
    have := h j
    rwa [matchAt, contentAt_of_getElem? hj] at this

section Hash

variable {κ : Type} [DecidableEq κ] {hash : Currency → κ}

/-- **A step keeps the invariant**: a match it leaves alone keeps it, and the one it appends to
gets an accepted operation, whose amount parses, with that amount. -/
theorem MatchStep.represents {op : Option Operation} {ds : List OperationDescription}
    {ms ms' : List (Option Match)} {found : Bool} (h : MatchStep hash op ds ms ms' found)
    (hInv : ∀ j, (matchAt ms j).Represents) : ∀ j, (matchAt ms' j).Represents := by
  intro j
  cases found
  · rw [matchAt, h.unchanged rfl j]
    exact hInv j
  · obtain ⟨o, i, d, -, -, -, -, hAcc, hAt, hOther⟩ := h.appended rfl
    by_cases hj : j = i
    · subst hj
      rw [matchAt, hAt]
      exact (hInv j).push hAcc.value
    · rw [matchAt, hOther j hj]
      exact hInv j

variable (hash)

theorem operationMatch_represents {op : Option Operation} {ds : List OperationDescription}
    {ms ms' : List (Option Match)} {found : Bool}
    (h : operationMatch hash op ds ms = .ok (found, ms'))
    (hInv : ∀ m, some m ∈ ms → m.Represents) : ∀ m, some m ∈ ms' → m.Represents :=
  represents_iff_matchAt.mpr <|
    (operationMatch_step hash h).represents (represents_iff_matchAt.mp hInv)

theorem matchLoop_represents {d : Descriptions} {k : Nat} {ops : List (Option Operation)}
    {ms ms' : List (Option Match)} (h : matchLoop hash d k ms ops = .ok ms')
    (hInv : ∀ m, some m ∈ ms → m.Represents) : ∀ m, some m ∈ ms' → m.Represents :=
  matchLoop_invariant hash (fun ms => ∀ m, some m ∈ ms → m.Represents)
    (fun _ hInv hM => operationMatch_represents hash hM hInv) hInv h

/-- **The representation invariant over the pass**: every step of `operationMatch`, on every
path, keeps every present match represented; so does every run of the loop; and every match
`MatchOperations` returns is represented, `First` returning its first operation with that
operation's amount. -/
theorem matchOperations_represents :
    (∀ (op : Option Operation) (ds : List OperationDescription)
        (ms ms' : List (Option Match)) (found : Bool),
      (∀ m, some m ∈ ms → m.Represents) → operationMatch hash op ds ms = .ok (found, ms') →
        ∀ m, some m ∈ ms' → m.Represents) ∧
    (∀ (d : Descriptions) (k : Nat) (ops : List (Option Operation))
        (ms ms' : List (Option Match)),
      (∀ m, some m ∈ ms → m.Represents) → matchLoop hash d k ms ops = .ok ms' →
        ∀ m, some m ∈ ms' → m.Represents) ∧
    (∀ (d : Descriptions) (ops : List (Option Operation)) (ms : List (Option Match)),
      matchOperations hash d ops = .ok ms → ∀ m, some m ∈ ms → m.Represents ∧
        Match.first (some m) =
          .ok (m.operations.head?, m.operations.head?.bind fun o => amountValue o.amount)) := by
  refine ⟨fun _ _ _ _ _ hInv h => operationMatch_represents hash h hInv,
    fun _ _ _ _ _ hInv h => matchLoop_represents hash h hInv, fun d ops ms h m hm => ?_⟩
  obtain ⟨-, -, hRun, -, -⟩ := matchOperations_eq_ok.mp h
  have hm := matchLoop_represents hash hRun
    (fun _ hm => absurd (List.eq_of_mem_replicate hm) (by simp)) m hm
  exact ⟨hm, hm.first⟩

end Hash

/-- On the transfer, and on the run that allocates a match and leaves it empty because the one
amount does not parse, every match `MatchOperations` returns is represented: the transfer's
`First` reads each operation's own amount, and the empty match's reads `(nil, nil)`. -/
theorem matchOperations_represents_runs :
    matchOperations (fun c : Currency => c) transferDescriptions transferOperations =
      .ok transferMatches ∧
    (∀ m, some m ∈ transferMatches → m.Represents ∧
      Match.first (some m) =
        .ok (m.operations.head?, m.operations.head?.bind fun o => amountValue o.amount)) ∧
    matchOperations (fun c : Currency => c) { operationDescriptions := [{}] }
        [some { amount := some { value := "abc" } }] = .ok [some {}] ∧
    (∀ m, some m ∈ ([some {}] : List (Option Match)) → m.Represents ∧
      Match.first (some m) =
        .ok (m.operations.head?, m.operations.head?.bind fun o => amountValue o.amount)) :=
  have hTransfer := matchOperations_transfer (fun c : Currency => c)
  have hEmpty : matchOperations (fun c : Currency => c) { operationDescriptions := [{}] }
      [some { amount := some { value := "abc" } }] = .ok [some {}] := rfl
  ⟨hTransfer, (matchOperations_represents _).2.2 _ _ _ hTransfer, hEmpty,
    (matchOperations_represents _).2.2 _ _ _ hEmpty⟩

end MeshSdk.Parser
