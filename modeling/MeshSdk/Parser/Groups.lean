import MeshSdk.Parser.Pass

/-!
# The group constraints

After the pass, `comparisonMatch` checks the groups against the `EqualAmounts`,
`EqualAddresses`, `OppositeAmounts` and `OppositeOrZeroAmounts` requests of the descriptions.
What each check accepts, said once:

* `matchIndexValid_eq_ok`, `batchOps_eq_ok`, `checkOps_eq_ok`: a request names present matches
  by non-negative indices, and `checkOps` checks the operations of the groups it names
  (`batchGroup`).
* `equalAddresses_eq_ok`: **what `equalAddresses` accepts**: at least two operations, each with
  an account, and every non-empty address equal to every address after it.  An empty address is
  taken as no base yet, so the empty addresses before the first non-empty one are never compared
  (`matchOperations_equalAddresses_empty_first`).
* `matchOperations_equalAddresses`: what that gives of the groups `MatchOperations` returns.
* `equalAmounts_eq_ok`, `oppositeValues_eq_ok`: a non-empty group of equal integer amounts; two
  amounts of opposite sign and equal absolute value are two amounts that add up to zero and are
  not zero.
* `representative_iff_allPairs`: once both groups pass `equalAmounts`, comparing their first
  operations is comparing every pair, for a comparison that fixes either amount from the other.
* `compareOppositeMatches_allPairs`: **`compareOppositeMatches` checks every cross pair**.
-/

namespace MeshSdk.Parser

open Types

/-! ## Reading the groups -/

theorem matchIndexValid_eq_ok {ms : List (Option Match)} {index : Int} :
    matchIndexValid ms index = .ok () ↔ 0 ≤ index ∧ ∃ m, ms[index.toNat]? = some (some m) := by
  unfold matchIndexValid
  split_ifs with hLength
  · simp only [fail_ne_ok, false_iff, not_and, not_exists]
    intro _ m hm
    have := (List.getElem?_eq_some_iff.mp hm).1
    omega
  by_cases hNonneg : 0 ≤ index
  · have hIn : index.toNat < ms.length := by omega
    rw [sliceGet, dif_pos ⟨hNonneg, hIn⟩, ok_bind, List.get_eq_getElem,
      List.getElem?_eq_getElem hIn]
    rcases ms[index.toNat] with _ | m <;> simp [hNonneg]
  · rw [sliceGet_of_neg ms (by omega)]
    simp [hNonneg]

theorem operationsAt_of_getElem? {ms : List (Option Match)} {index : Int} {m : Match}
    (hNonneg : 0 ≤ index) (h : ms[index.toNat]? = some (some m)) :
    operationsAt ms index = .ok m.operations := by
  obtain ⟨hIn, hm⟩ := List.getElem?_eq_some_iff.mp h
  rw [operationsAt, sliceGet, dif_pos ⟨hNonneg, hIn⟩, ok_bind, List.get_eq_getElem, hm]
  rfl

/-- The operations of the groups a request names, group after group. -/
def batchGroup (ms : List (Option Match)) (batch : List Int) : List Operation :=
  batch.flatMap fun i => groupAt ms i.toNat

/-- Every index of a request names a present match. -/
def Names (ms : List (Option Match)) (batch : List Int) : Prop :=
  ∀ i ∈ batch, 0 ≤ i ∧ ∃ m, ms[i.toNat]? = some (some m)

theorem batchOps_eq_ok {ms : List (Option Match)} :
    ∀ {batch : List Int} {ops : List Operation},
      batchOps ms batch = .ok ops ↔ Names ms batch ∧ batchGroup ms batch = ops
  | [], ops => by simp [batchOps, Names, batchGroup]
  | i :: rest, ops => by
    simp only [batchOps, bind_eq_ok, pure_eq_ok]
    constructor
    · rintro ⟨⟨⟩, hValid, group, hGroup, more, hMore, rfl⟩
      obtain ⟨hNonneg, m, hm⟩ := matchIndexValid_eq_ok.mp hValid
      obtain ⟨hNames, rfl⟩ := batchOps_eq_ok.mp hMore
      rw [operationsAt_of_getElem? hNonneg hm] at hGroup
      cases hGroup
      refine ⟨?_, by simp [batchGroup, groupAt, contentAt_of_getElem? hm]⟩
      simpa [Names] using ⟨⟨hNonneg, m, hm⟩, hNames⟩
    · rintro ⟨hNames, rfl⟩
      simp only [Names, List.mem_cons, forall_eq_or_imp] at hNames
      obtain ⟨⟨hNonneg, m, hm⟩, hRest⟩ := hNames
      refine ⟨(), matchIndexValid_eq_ok.mpr ⟨hNonneg, m, hm⟩, _,
        operationsAt_of_getElem? hNonneg hm, _, batchOps_eq_ok.mpr ⟨hRest, rfl⟩, ?_⟩
      simp [batchGroup, groupAt, contentAt_of_getElem? hm]

/-- **What `checkOps` checks**: every request names present matches, and the operations of the
groups it names pass `valid`. -/
theorem checkOps_eq_ok {requests : List (List Int)} {ms : List (Option Match)}
    {valid : List Operation → ParserCheck} :
    checkOps requests ms valid = .ok () ↔
      ∀ batch ∈ requests, Names ms batch ∧ valid (batchGroup ms batch) = .ok () := by
  simp only [checkOps, checkEach_eq_ok, bind_eq_ok, batchOps_eq_ok]
  exact forall₂_congr fun _ _ =>
    ⟨fun ⟨_, ⟨hNames, hOps⟩, hValid⟩ => ⟨hNames, hOps ▸ hValid⟩,
     fun ⟨hNames, hValid⟩ => ⟨_, ⟨hNames, rfl⟩, hValid⟩⟩

theorem comparisonMatch_eq_ok {d : Descriptions} {ms : List (Option Match)} :
    comparisonMatch d ms = .ok () ↔
      checkOps d.equalAmounts ms equalAmounts = .ok () ∧
      checkOps d.equalAddresses ms equalAddresses = .ok () ∧
      compareOppositeMatches d.oppositeAmounts ms oppositeAmounts = .ok () ∧
      compareOppositeMatches d.oppositeOrZeroAmounts ms oppositeOrZeroAmounts = .ok () := by
  simp only [comparisonMatch, bind_eq_ok]
  exact ⟨fun ⟨_, h₁, _, h₂, _, h₃, h₄⟩ => ⟨h₁, h₂, h₃, h₄⟩,
    fun ⟨h₁, h₂, h₃, h₄⟩ => ⟨(), h₁, (), h₂, (), h₃, h₄⟩⟩

/-! ## Equal addresses -/

/-- Go's `base != ""` in `equalAddresses` holds between an address and every later one: a
non-empty address is the base, and every address after it must equal it. -/
def LaterEqual (a b : String) : Prop := a ≠ "" → b = a

theorem equalAddressesFrom_eq_ok {base : String} {ops : List Operation} :
    equalAddressesFrom base ops = .ok () ↔ ∃ accounts : List AccountIdentifier,
      ops.map (·.account) = accounts.map some ∧
      (base :: accounts.map (·.address)).Pairwise LaterEqual := by
  induction ops generalizing base with
  | nil => exact ⟨fun _ => ⟨[], rfl, List.pairwise_singleton _ _⟩, fun _ => rfl⟩
  | cons op rest ih =>
    rcases hAccount : op.account with _ | acc
    · simp only [equalAddressesFrom, hAccount, fail_ne_ok, false_iff, not_exists, not_and,
        List.map_cons]
      rintro (_ | ⟨_, _⟩) h <;> simp at h
    have hSplit : ∀ P : List AccountIdentifier → Prop,
        (∃ accounts, (op :: rest).map (·.account) = accounts.map some ∧ P accounts) ↔
          ∃ accounts, rest.map (·.account) = accounts.map some ∧ P (acc :: accounts) := fun P =>
      ⟨fun ⟨accounts, hMap, hP⟩ => by
        rcases accounts with _ | ⟨acc', accounts⟩
        · simp at hMap
        · simp only [List.map_cons, hAccount, List.cons.injEq, Option.some.injEq] at hMap
          exact ⟨accounts, hMap.2, hMap.1 ▸ hP⟩,
       fun ⟨accounts, hMap, hP⟩ => ⟨acc :: accounts, by simp [hAccount, hMap], hP⟩⟩
    rw [hSplit]
    simp only [equalAddressesFrom, hAccount, List.map_cons]
    split_ifs with hBase hMismatch
    · rw [string_length_eq_zero] at hBase
      subst hBase
      rw [ih]
      simp [List.pairwise_cons (a := ""), LaterEqual]
    · simp only [fail_ne_ok, false_iff, not_exists, not_and]
      intro accounts _ hPairwise
      exact hMismatch ((List.pairwise_cons.mp hPairwise).1 _ (List.mem_cons_self _ _)
        (by simpa using hBase)).symm
    · rw [not_not] at hMismatch
      subst hMismatch
      rw [ih]
      refine exists_congr fun accounts => and_congr_right fun _ => ?_
      conv_rhs => rw [List.pairwise_cons]
      refine ⟨fun h => ⟨fun b hb _ => ?_, h⟩, fun h => h.2⟩
      rcases List.mem_cons.mp hb with rfl | hb
      · rfl
      · exact (List.pairwise_cons.mp h).1 b hb (by simpa using hBase)

/-- **What `equalAddresses` accepts**: at least two operations, each with an account, and every
non-empty address equal to every address after it.  Empty addresses before the first non-empty
one are not compared with anything. -/
theorem equalAddresses_eq_ok {ops : List Operation} :
    equalAddresses ops = .ok () ↔ 2 ≤ ops.length ∧ ∃ accounts : List AccountIdentifier,
      ops.map (·.account) = accounts.map some ∧ (accounts.map (·.address)).Pairwise LaterEqual := by
  unfold equalAddresses
  split_ifs with hFew
  · simp only [fail_ne_ok, false_iff, not_and]
    omega
  · simp [equalAddressesFrom_eq_ok, List.pairwise_cons (a := ""), LaterEqual, hFew]
    omega

section Hash

variable {κ : Type} [DecidableEq κ] (hash : Currency → κ)

/-- **The address groups of a successful `MatchOperations`**: for every `EqualAddresses`
request, the operations of the groups it names are at least two, each has an account, and every
non-empty address among them equals every address after it. -/
theorem matchOperations_equalAddresses {d : Descriptions} {ops : List (Option Operation)}
    {ms : List (Option Match)} (h : matchOperations hash d ops = .ok ms) :
    ∀ batch ∈ d.equalAddresses, 2 ≤ (batchGroup ms batch).length ∧
      ∃ accounts : List AccountIdentifier,
        (batchGroup ms batch).map (·.account) = accounts.map some ∧
        (accounts.map (·.address)).Pairwise LaterEqual := by
  obtain ⟨-, -, -, -, hCompare⟩ := matchOperations_eq_ok.mp h
  intro batch hBatch
  exact equalAddresses_eq_ok.mp
    (checkOps_eq_ok.mp (comparisonMatch_eq_ok.mp hCompare).2.1 batch hBatch).2

end Hash

/-- Two descriptions that any operation passes, whose groups must share an address. -/
def sameAddressDescriptions : Descriptions where
  operationDescriptions := [{}, {}]
  equalAddresses := [[0, 1]]

/-- An operation on an account with an empty address, then one on the account `bob`. -/
def sameAddressOperations : List (Option Operation) :=
  [some { account := some { address := "" } }, some { account := some { address := "bob" } }]

/-- Each operation in the group of its own description. -/
def sameAddressMatches : List (Option Match) :=
  [some { operations := [{ account := some { address := "" } }], amounts := [none] },
   some { operations := [{ account := some { address := "bob" } }], amounts := [none] }]

/-- **`EqualAddresses` passes two different addresses** when the first is empty:
`MatchOperations` accepts the operations with the addresses `""` and `"bob"`, in the two groups
that one `EqualAddresses` request names. -/
theorem matchOperations_equalAddresses_empty_first {κ : Type} [DecidableEq κ]
    (hash : Currency → κ) :
    matchOperations hash sameAddressDescriptions sameAddressOperations = .ok sameAddressMatches ∧
      [0, 1] ∈ sameAddressDescriptions.equalAddresses ∧
      (batchGroup sameAddressMatches [0, 1]).map (fun o => o.account.map (·.address)) =
        [some "", some "bob"] :=
  ⟨rfl, List.mem_singleton_self _, rfl⟩

/-- The same run, read through `matchOperations_equalAddresses`: the empty address comes first,
so no address is compared with a different one. -/
theorem matchOperations_equalAddresses_sameAddress :
    matchOperations (fun c : Currency => c) sameAddressDescriptions sameAddressOperations =
        .ok sameAddressMatches ∧
      ∀ batch ∈ sameAddressDescriptions.equalAddresses,
        2 ≤ (batchGroup sameAddressMatches batch).length ∧
        ∃ accounts : List AccountIdentifier,
          (batchGroup sameAddressMatches batch).map (·.account) = accounts.map some ∧
          (accounts.map (·.address)).Pairwise LaterEqual :=
  have h : matchOperations (fun c : Currency => c) sameAddressDescriptions
      sameAddressOperations = .ok sameAddressMatches := rfl
  ⟨h, matchOperations_equalAddresses _ h⟩

/-! ## Equal and opposite amounts -/

/-- `equalAmounts` accepts exactly a non-empty group whose amounts are one integer. -/
theorem equalAmounts_eq_ok {ops : List Operation} :
    equalAmounts ops = .ok () ↔ ops ≠ [] ∧ ∃ v, ∀ o ∈ ops, amountValue o.amount = some v := by
  rcases ops with _ | ⟨first, rest⟩
  · simp [equalAmounts]
  rcases hFirst : amountValue first.amount with _ | v
  · simp [equalAmounts, hFirst]
  simp only [equalAmounts, hFirst, checkEach_eq_ok]
  refine ⟨fun h => ⟨List.cons_ne_nil _ _, v, fun o ho => ?_⟩, fun ⟨_, w, hw⟩ o ho => ?_⟩
  · have hOne := h o ho
    split at hOne
    · simp at hOne
    · split_ifs at hOne with hNe
      · simp at hOne
      · simp_all
  · obtain rfl : v = w := Option.some.inj (hFirst.symm.trans (hw first (List.mem_cons_self _ _)))
    simp [hw o ho]

/-- Opposite sign and equal absolute value: two amounts adding up to zero, not both zero. -/
theorem oppositeValues_eq_ok {x y : Int} : oppositeValues x y = .ok () ↔ x + y = 0 ∧ x ≠ 0 := by
  have hSign : ∀ z : Int, z.sign = -1 ∧ z < 0 ∨ z.sign = 0 ∧ z = 0 ∨ z.sign = 1 ∧ 0 < z :=
    fun z => by
      rcases lt_trichotomy z 0 with h | rfl | h
      · exact .inl ⟨Int.sign_eq_neg_one_of_neg h, h⟩
      · exact .inr (.inl ⟨rfl, rfl⟩)
      · exact .inr (.inr ⟨Int.sign_eq_one_of_pos h, h⟩)
  unfold oppositeValues
  rcases hSign x with ⟨hx, hx'⟩ | ⟨hx, hx'⟩ | ⟨hx, hx'⟩ <;>
    rcases hSign y with ⟨hy, hy'⟩ | ⟨hy, hy'⟩ | ⟨hy, hy'⟩ <;>
    split_ifs <;> simp only [fail_ne_ok, pure_eq_ok, false_iff, true_iff, not_and] <;> omega

theorem oppositeAmounts_eq_ok {a b : Operation} :
    oppositeAmounts a b = .ok () ↔ ∃ x y, amountValue a.amount = some x ∧
      amountValue b.amount = some y ∧ x + y = 0 ∧ x ≠ 0 := by
  unfold oppositeAmounts
  rcases amountValue a.amount with _ | x <;> rcases amountValue b.amount with _ | y <;>
    simp [oppositeValues_eq_ok]

theorem oppositeOrZeroAmounts_eq_ok {a b : Operation} :
    oppositeOrZeroAmounts a b = .ok () ↔ ∃ x y, amountValue a.amount = some x ∧
      amountValue b.amount = some y ∧ x + y = 0 := by
  unfold oppositeOrZeroAmounts
  rcases amountValue a.amount with _ | x <;> rcases amountValue b.amount with _ | y <;> simp
  split_ifs with hZero
  · simp only [pure_eq_ok, true_iff]
    omega
  · rw [oppositeValues_eq_ok]
    omega

/-! ## Comparing representatives -/

section Representative

variable {amountChecker : Operation → Operation → ParserCheck} {rel : Int → Int → Prop}

/-- **The first operations stand for their groups**: with both groups passing `equalAmounts`,
the checker on the first operations compares every operation of one group with every operation
of the other, for a checker that compares the amounts by a relation fixing either amount from
the other. -/
theorem representative_iff_allPairs
    (hChecker : ∀ a b, amountChecker a b = .ok () ↔
      ∃ x y, amountValue a.amount = some x ∧ amountValue b.amount = some y ∧ rel x y)
    (hLeft : ∀ x x' y, rel x y → rel x' y → x = x')
    (hRight : ∀ x y y', rel x y → rel x y' → y = y')
    {o₀ o₁ : Operation} {os₀ os₁ : List Operation} :
    (equalAmounts (o₀ :: os₀) = .ok () ∧ equalAmounts (o₁ :: os₁) = .ok () ∧
        amountChecker o₀ o₁ = .ok ()) ↔
      (∀ o ∈ (o₀ :: os₀) ++ (o₁ :: os₁), (amountValue o.amount).isSome) ∧
      ∀ p ∈ o₀ :: os₀, ∀ q ∈ o₁ :: os₁, ∀ x y,
        amountValue p.amount = some x → amountValue q.amount = some y → rel x y := by
  simp only [equalAmounts_eq_ok, hChecker, ne_eq, List.cons_ne_nil, not_false_eq_true, true_and]
  constructor
  · rintro ⟨⟨v₀, h₀⟩, ⟨v₁, h₁⟩, x, y, hx, hy, hRel⟩
    obtain rfl : x = v₀ := Option.some.inj (hx.symm.trans (h₀ o₀ (List.mem_cons_self _ _)))
    obtain rfl : y = v₁ := Option.some.inj (hy.symm.trans (h₁ o₁ (List.mem_cons_self _ _)))
    refine ⟨fun o ho => ?_, fun p hp q hq x' y' hx' hy' => ?_⟩
    · rcases List.mem_append.mp ho with ho | ho
      · simp [h₀ o ho]
      · simp [h₁ o ho]
    · rw [h₀ p hp, Option.some.injEq] at hx'
      rw [h₁ q hq, Option.some.injEq] at hy'
      exact hx' ▸ hy' ▸ hRel
  · rintro ⟨hSome, hPairs⟩
    obtain ⟨x, hx⟩ := Option.isSome_iff_exists.mp (hSome o₀ (by simp))
    obtain ⟨y, hy⟩ := Option.isSome_iff_exists.mp (hSome o₁ (by simp))
    have hRel := hPairs o₀ (List.mem_cons_self _ _) o₁ (List.mem_cons_self _ _) x y hx hy
    refine ⟨⟨x, fun p hp => ?_⟩, ⟨y, fun q hq => ?_⟩, x, y, hx, hy, hRel⟩
    · obtain ⟨x', hx'⟩ := Option.isSome_iff_exists.mp (hSome p (List.mem_append_left _ hp))
      rw [hx', hLeft x' x y (hPairs p hp o₁ (List.mem_cons_self _ _) x' y hx' hy) hRel]
    · obtain ⟨y', hy'⟩ := Option.isSome_iff_exists.mp (hSome q (List.mem_append_right _ hq))
      rw [hy', hRight x y' y (hPairs o₀ (List.mem_cons_self _ _) q hq x y' hx hy') hRel]

end Representative

/-- What one pair of `compareOppositeMatches` checks, read pair by pair: exactly two indices
naming non-nil groups with an operation each, every operation of both groups with an integer
amount, and `rel` between the amount of every operation `p` of the first group and every
operation `q` of the second. -/
def AllPairs (ms : List (Option Match)) (rel : Int → Int → Prop) (pair : List Int) : Prop :=
  ∃ i₀ i₁ m₀ m₁, pair = [i₀, i₁] ∧ ms[i₀.toNat]? = some (some m₀) ∧
    ms[i₁.toNat]? = some (some m₁) ∧ m₀.operations ≠ [] ∧ m₁.operations ≠ [] ∧
    (∀ o ∈ m₀.operations ++ m₁.operations, (amountValue o.amount).isSome) ∧
    ∀ p ∈ m₀.operations, ∀ q ∈ m₁.operations, ∀ x y,
      amountValue p.amount = some x → amountValue q.amount = some y → rel x y

/-- One pair as the code checks it: both matches present, both groups non-empty and passing
`equalAmounts`, and their first operations passing the checker. -/
theorem oppositePair_eq_ok {ms : List (Option Match)}
    {amountChecker : Operation → Operation → ParserCheck} {i₀ i₁ : Int} :
    oppositePair ms amountChecker [i₀, i₁] = .ok () ↔ 0 ≤ i₀ ∧ 0 ≤ i₁ ∧
      ∃ m₀ m₁, ms[i₀.toNat]? = some (some m₀) ∧ ms[i₁.toNat]? = some (some m₁) ∧
        ∃ o₀ os₀ o₁ os₁, m₀.operations = o₀ :: os₀ ∧ m₁.operations = o₁ :: os₁ ∧
          equalAmounts (o₀ :: os₀) = .ok () ∧ equalAmounts (o₁ :: os₁) = .ok () ∧
          amountChecker o₀ o₁ = .ok () := by
  simp only [oppositePair, bind_eq_ok]
  constructor
  · rintro ⟨_, h₀, _, h₁, ops₀, hOps₀, ops₁, hOps₁, _, hEq₀, _, hEq₁, hChecker⟩
    obtain ⟨hNonneg₀, m₀, hm₀⟩ := matchIndexValid_eq_ok.mp h₀
    obtain ⟨hNonneg₁, m₁, hm₁⟩ := matchIndexValid_eq_ok.mp h₁
    rw [operationsAt_of_getElem? hNonneg₀ hm₀, Except.ok.injEq] at hOps₀
    rw [operationsAt_of_getElem? hNonneg₁ hm₁, Except.ok.injEq] at hOps₁
    subst hOps₀ hOps₁
    obtain ⟨o₀, os₀, hCons₀⟩ := List.exists_cons_of_ne_nil (equalAmounts_eq_ok.mp hEq₀).1
    obtain ⟨o₁, os₁, hCons₁⟩ := List.exists_cons_of_ne_nil (equalAmounts_eq_ok.mp hEq₁).1
    rw [hCons₀, hCons₁] at hChecker
    exact ⟨hNonneg₀, hNonneg₁, m₀, m₁, hm₀, hm₁, o₀, os₀, o₁, os₁, hCons₀, hCons₁,
      hCons₀ ▸ hEq₀, hCons₁ ▸ hEq₁, hChecker⟩
  · rintro ⟨hNonneg₀, hNonneg₁, m₀, m₁, hm₀, hm₁, o₀, os₀, o₁, os₁, hCons₀, hCons₁, hEq₀, hEq₁,
      hChecker⟩
    refine ⟨(), matchIndexValid_eq_ok.mpr ⟨hNonneg₀, m₀, hm₀⟩, (),
      matchIndexValid_eq_ok.mpr ⟨hNonneg₁, m₁, hm₁⟩, _, operationsAt_of_getElem? hNonneg₀ hm₀, _,
      operationsAt_of_getElem? hNonneg₁ hm₁, (), hCons₀ ▸ hEq₀, (), hCons₁ ▸ hEq₁, ?_⟩
    rw [hCons₀, hCons₁]
    exact hChecker

/-- A pair passes exactly when it holds for every pair of operations, for a checker comparing
amounts by a relation that fixes either amount from the other. -/
theorem oppositePair_allPairs {ms : List (Option Match)}
    {amountChecker : Operation → Operation → ParserCheck} {rel : Int → Int → Prop}
    (hChecker : ∀ a b, amountChecker a b = .ok () ↔
      ∃ x y, amountValue a.amount = some x ∧ amountValue b.amount = some y ∧ rel x y)
    (hLeft : ∀ x x' y, rel x y → rel x' y → x = x')
    (hRight : ∀ x y y', rel x y → rel x y' → y = y')
    {pair : List Int} (hIndex : ∀ i ∈ pair, 0 ≤ i) :
    oppositePair ms amountChecker pair = .ok () ↔ AllPairs ms rel pair := by
  rcases pair with _ | ⟨i₀, _ | ⟨i₁, _ | ⟨i₂, rest⟩⟩⟩
  · simp [oppositePair, AllPairs]
  · simp [oppositePair, AllPairs]
  swap
  · simp [oppositePair, AllPairs]
  rw [oppositePair_eq_ok]
  constructor
  · rintro ⟨-, -, m₀, m₁, hm₀, hm₁, o₀, os₀, o₁, os₁, hCons₀, hCons₁, hRep⟩
    refine ⟨i₀, i₁, m₀, m₁, rfl, hm₀, hm₁, ?_⟩
    rw [hCons₀, hCons₁]
    exact ⟨List.cons_ne_nil _ _, List.cons_ne_nil _ _,
      (representative_iff_allPairs hChecker hLeft hRight).mp hRep⟩
  · rintro ⟨_, _, m₀, m₁, hPair, hm₀, hm₁, hNe₀, hNe₁, hAll⟩
    simp only [List.cons.injEq, and_true] at hPair
    obtain ⟨rfl, rfl⟩ := hPair
    obtain ⟨o₀, os₀, hCons₀⟩ := List.exists_cons_of_ne_nil hNe₀
    obtain ⟨o₁, os₁, hCons₁⟩ := List.exists_cons_of_ne_nil hNe₁
    rw [hCons₀, hCons₁] at hAll
    exact ⟨hIndex _ (by simp), hIndex _ (by simp), m₀, m₁, hm₀, hm₁, o₀, os₀, o₁, os₁, hCons₀,
      hCons₁, (representative_iff_allPairs hChecker hLeft hRight).mpr hAll⟩

/-- **`compareOppositeMatches` checks every cross pair.**  For non-negative indices, it passes
with `oppositeAmounts` exactly when every pair names two non-nil, non-empty groups of operations
with integer amounts, the amounts `x` of the first and `y` of the second always having
`x + y = 0` and `x ≠ 0`; with `oppositeOrZeroAmounts`, `x + y = 0` alone. -/
theorem compareOppositeMatches_allPairs (pairs : List (List Int)) (ms : List (Option Match))
    (hIndex : ∀ pair ∈ pairs, ∀ i ∈ pair, 0 ≤ i) :
    (compareOppositeMatches pairs ms oppositeAmounts = .ok () ↔
      ∀ pair ∈ pairs, AllPairs ms (fun x y => x + y = 0 ∧ x ≠ 0) pair) ∧
    (compareOppositeMatches pairs ms oppositeOrZeroAmounts = .ok () ↔
      ∀ pair ∈ pairs, AllPairs ms (fun x y => x + y = 0) pair) := by
  simp only [compareOppositeMatches, checkEach_eq_ok]
  constructor
  · exact forall₂_congr fun pair hPair => oppositePair_allPairs (fun _ _ => oppositeAmounts_eq_ok)
      (fun _ _ _ h h' => by omega) (fun _ _ _ h h' => by omega) (hIndex pair hPair)
  · exact forall₂_congr fun pair hPair =>
      oppositePair_allPairs (fun _ _ => oppositeOrZeroAmounts_eq_ok)
        (fun _ _ _ h h' => by omega) (fun _ _ _ h h' => by omega) (hIndex pair hPair)

/-- The transfer's one pair: a debit of 5 and a credit of 5 are opposite, and opposite or zero. -/
theorem compareOppositeMatches_allPairs_transfer :
    (∀ pair ∈ [[(0 : Int), 1]], ∀ i ∈ pair, 0 ≤ i) ∧
    ((compareOppositeMatches [[0, 1]] transferMatches oppositeAmounts = .ok () ↔
      ∀ pair ∈ [[(0 : Int), 1]], AllPairs transferMatches (fun x y => x + y = 0 ∧ x ≠ 0) pair) ∧
    (compareOppositeMatches [[0, 1]] transferMatches oppositeOrZeroAmounts = .ok () ↔
      ∀ pair ∈ [[(0 : Int), 1]], AllPairs transferMatches (fun x y => x + y = 0) pair)) :=
  ⟨by decide, compareOppositeMatches_allPairs [[0, 1]] transferMatches (by decide)⟩

/-! ## The amount requests of a successful match -/

/-- A pair that passes holds for every pair of operations: passing, its indices are
non-negative. -/
theorem oppositePair_ok_allPairs {ms : List (Option Match)}
    {amountChecker : Operation → Operation → ParserCheck} {rel : Int → Int → Prop}
    (hChecker : ∀ a b, amountChecker a b = .ok () ↔
      ∃ x y, amountValue a.amount = some x ∧ amountValue b.amount = some y ∧ rel x y)
    (hLeft : ∀ x x' y, rel x y → rel x' y → x = x')
    (hRight : ∀ x y y', rel x y → rel x y' → y = y')
    {pair : List Int} (h : oppositePair ms amountChecker pair = .ok ()) : AllPairs ms rel pair := by
  rcases pair with _ | ⟨i₀, _ | ⟨i₁, _ | ⟨i₂, rest⟩⟩⟩
  · simp [oppositePair] at h
  · simp [oppositePair] at h
  · obtain ⟨h₀, h₁, -⟩ := oppositePair_eq_ok.mp h
    exact (oppositePair_allPairs hChecker hLeft hRight (by simp [h₀, h₁])).mp h
  · simp [oppositePair] at h

section Hash

variable {κ : Type} [DecidableEq κ] (hash : Currency → κ)

/-- **The amount requests of a successful `MatchOperations`**, over every operation of the groups
they name.  Every `EqualAmounts` request names present matches whose operations, group after
group, are not empty and all have one integer amount.  Every `OppositeAmounts` pair names two
non-empty present matches whose operations all have integer amounts, every amount `x` of the
first and `y` of the second having `x + y = 0` and `x ≠ 0`.  Every `OppositeOrZeroAmounts` pair
does the same with `x + y = 0` alone.  No index is assumed non-negative: a negative one panics. -/
theorem matchOperations_amountRequests {d : Descriptions} {ops : List (Option Operation)}
    {ms : List (Option Match)} (h : matchOperations hash d ops = .ok ms) :
    (∀ batch ∈ d.equalAmounts, Names ms batch ∧ batchGroup ms batch ≠ [] ∧
      ∃ v, ∀ o ∈ batchGroup ms batch, amountValue o.amount = some v) ∧
    (∀ pair ∈ d.oppositeAmounts, AllPairs ms (fun x y => x + y = 0 ∧ x ≠ 0) pair) ∧
    (∀ pair ∈ d.oppositeOrZeroAmounts, AllPairs ms (fun x y => x + y = 0) pair) := by
  obtain ⟨-, -, -, -, hCompare⟩ := matchOperations_eq_ok.mp h
  obtain ⟨hAmounts, -, hOpposite, hOppositeOrZero⟩ := comparisonMatch_eq_ok.mp hCompare
  refine ⟨fun batch hBatch => ?_, fun pair hPair => ?_, fun pair hPair => ?_⟩
  · obtain ⟨hNames, hEqual⟩ := checkOps_eq_ok.mp hAmounts batch hBatch
    exact ⟨hNames, equalAmounts_eq_ok.mp hEqual⟩
  · exact oppositePair_ok_allPairs (fun _ _ => oppositeAmounts_eq_ok)
      (fun _ _ _ _ _ => by omega) (fun _ _ _ _ _ => by omega)
      (checkEach_eq_ok.mp hOpposite pair hPair)
  · exact oppositePair_ok_allPairs (fun _ _ => oppositeOrZeroAmounts_eq_ok)
      (fun _ _ _ _ _ => by omega) (fun _ _ _ _ _ => by omega)
      (checkEach_eq_ok.mp hOppositeOrZero pair hPair)

end Hash

/-- The transfer's match: its debit and credit groups are opposite. -/
theorem matchOperations_amountRequests_transfer :
    matchOperations (fun c : Currency => c) transferDescriptions transferOperations =
        .ok transferMatches ∧
      (∀ batch ∈ transferDescriptions.equalAmounts, Names transferMatches batch ∧
        batchGroup transferMatches batch ≠ [] ∧
        ∃ v, ∀ o ∈ batchGroup transferMatches batch, amountValue o.amount = some v) ∧
      (∀ pair ∈ transferDescriptions.oppositeAmounts,
        AllPairs transferMatches (fun x y => x + y = 0 ∧ x ≠ 0) pair) ∧
      (∀ pair ∈ transferDescriptions.oppositeOrZeroAmounts,
        AllPairs transferMatches (fun x y => x + y = 0) pair) :=
  have h := matchOperations_transfer (fun c : Currency => c)
  ⟨h, matchOperations_amountRequests _ h⟩

end MeshSdk.Parser
