import MeshSdk.Parser.Pass

/-!
# What the matched operations satisfy

The field checks of `operationMatch` read in the words of the descriptions' fields, and carried
through the whole pass.

* `metadataMatch_eq_ok`, `accountMeets_of_accountMatch`, `amountMeets_of_amountMatch`,
  `coinActionMatch_eq_ok`: what each field check ensures.
* `Accepted.meets`: an operation the field checks accept `Meets` the description, when the
  currency keys tell currencies apart.
* `AmountSign.matches_of_holds`, `accountMatch_of_accountMeets`, `amountMatch_of_amountMeets`,
  `Meets.accepted`: the other way, for the five amount signs and amounts that parse.
* `accepted_iff_meets`: **the field checks accept exactly what meets the description**.
* `matchOperations_sound`: **every operation of a group of a successful `MatchOperations`
  `Meets` its description**.

`accountMatch` reads the sub-account metadata only when the sub-account is not optional, and
the sub-account only when the account is present: `Meets` says so, and
`matchOperations_optional_subAccount_metadata` shows an operation whose optional sub-account
lacks a required metadata key in a group.
-/

namespace MeshSdk.Parser

open Types

/-! ## The requirements -/

/-- The sign an `AmountSign` asks of a value: `v < 0`, `v > 0`, `v ≥ 0` or `v ≤ 0` for the
negative, positive, positive-or-zero and negative-or-zero signs; none for the others. -/
def AmountSign.Holds (s : AmountSign) (v : Int) : Prop :=
  (s = negativeAmountSign → v < 0) ∧ (s = positiveAmountSign → 0 < v) ∧
    (s = positiveOrZeroAmountSign → 0 ≤ v) ∧ (s = negativeOrZeroAmountSign → v ≤ 0)

/-- The five `AmountSign` constants; `AmountSign.Match` rejects every other value. -/
def amountSigns : List AmountSign :=
  [anyAmountSign, negativeAmountSign, positiveAmountSign, positiveOrZeroAmountSign,
    negativeOrZeroAmountSign]

/-- Every required key is present with a value of the required kind. -/
def MetadataMeets (reqs : List MetadataDescription) (metadata : Metadata) : Prop :=
  ∀ req ∈ reqs, metadata.lookup req.key = some (some req.valueKind)

/-- What an `AccountDescription` asks of the sub-account of a present account: to be there as
`SubAccountExists` says unless `SubAccountOptional`, to have the required address when that is
non-empty, and the required metadata keys unless `SubAccountOptional`. -/
structure SubAccountMeets (req : AccountDescription) (sub : Option SubAccountIdentifier) :
    Prop where
  present : req.subAccountOptional = false → (sub.isSome ↔ req.subAccountExists = true)
  address : ∀ s ∈ sub, req.subAccountAddress ≠ "" → s.address = req.subAccountAddress
  metadata : ∀ s ∈ sub, req.subAccountOptional = false →
    MetadataMeets req.subAccountMetadataKeys s.metadata

/-- What an `AccountDescription` asks of an account: present if `Exists`, and its sub-account
as `SubAccountMeets` says when present. -/
structure AccountMeets (req : AccountDescription) (account : Option AccountIdentifier) : Prop where
  present : req.exists = true → account.isSome
  subAccount : ∀ acc ∈ account, SubAccountMeets req acc.subAccount

/-- What an `AmountDescription` asks of an amount: present iff `Exists`, and when present an
integer value of the required sign and the required currency, if any. -/
structure AmountMeets (req : AmountDescription) (amount : Option Amount) : Prop where
  present : amount.isSome ↔ req.exists = true
  value : ∀ amt, amount = some amt → ∃ v, parseBigInt amt.value = some v ∧
    req.sign.Holds v ∧ ∀ cur, req.currency = some cur → amt.currency = some cur

/-- What a description asks of every operation in its group. -/
structure Meets (des : OperationDescription) (o : Operation) : Prop where
  type : des.type ≠ "" → o.type = des.type
  account : ∀ req, des.account = some req → AccountMeets req o.account
  amount : ∀ req, des.amount = some req → AmountMeets req o.amount
  metadata : MetadataMeets des.metadata o.metadata
  coinAction : des.coinAction ≠ "" →
    ∃ c, o.coinChange = some c ∧ c.coinAction = des.coinAction

/-! ## The field checks -/

theorem metadataMatch_eq_ok {reqs : List MetadataDescription} {metadata : Metadata} :
    metadataMatch reqs metadata = .ok () ↔ MetadataMeets reqs metadata := by
  induction reqs with
  | nil => simp [metadataMatch, MetadataMeets]
  | cons req rest ih =>
    rw [MetadataMeets, List.forall_mem_cons, ← MetadataMeets, ← ih]
    rcases hKey : metadata.lookup req.key with _ | _ | kind
    · simp [metadataMatch, hKey]
    · simp [metadataMatch, hKey]
    · by_cases hKind : kind = req.valueKind <;> simp [metadataMatch, hKey, hKind]

theorem verifySubAccountAddress_eq_ok {address : String} {sub : SubAccountIdentifier} :
    verifySubAccountAddress address sub = .ok () ↔
      (address ≠ "" → sub.address = address) := by
  unfold verifySubAccountAddress
  by_cases hEmpty : address = ""
  · simp [hEmpty]
  · by_cases hAddress : sub.address = address <;> simp [Nat.pos_iff_ne_zero, hEmpty, hAddress]

theorem subAccountMeets_of_accountMatch {req : AccountDescription} {acc : AccountIdentifier}
    (h : accountMatch (some req) (some acc) = .ok ()) : SubAccountMeets req acc.subAccount := by
  unfold accountMatch at h
  cases hOpt : req.subAccountOptional <;> rcases hSub : acc.subAccount with _ | sub <;>
    simp only [hOpt, hSub, ite_false, ite_true] at h
  · exact ⟨by split_ifs at h <;> simp_all, by simp, by simp⟩
  · cases hExists : req.subAccountExists <;> simp only [hExists] at h
    · cases h
    · obtain ⟨hAddress, hMetadata⟩ := by simpa using h
      exact ⟨by simp [hExists], by simpa using verifySubAccountAddress_eq_ok.mp hAddress,
        by simpa using fun _ => metadataMatch_eq_ok.mp hMetadata⟩
  · exact ⟨by simp [hOpt], by simp, by simp⟩
  · exact ⟨by simp [hOpt], by simpa using verifySubAccountAddress_eq_ok.mp h, by simp [hOpt]⟩

theorem accountMeets_of_accountMatch {req : AccountDescription}
    {account : Option AccountIdentifier} (h : accountMatch (some req) account = .ok ()) :
    AccountMeets req account := by
  rcases account with _ | acc
  · have hExists : req.exists = false := by
      by_contra hExists
      simp [accountMatch, hExists] at h
    exact ⟨by simp [hExists], by simp⟩
  · exact ⟨by simp, by simpa using subAccountMeets_of_accountMatch h⟩

theorem AmountSign.holds_of_matches {s : AmountSign} {amt : Amount} {v : Int}
    (hv : parseBigInt amt.value = some v) (h : s.matches (some amt) = true) : s.Holds v := by
  refine ⟨?_, ?_, ?_, ?_⟩ <;> rintro rfl <;>
    simp [AmountSign.matches, hv, anyAmountSign, negativeAmountSign, positiveAmountSign,
      positiveOrZeroAmountSign, negativeOrZeroAmountSign, Int.sign_eq_neg_one_iff_neg,
      Int.sign_eq_one_iff_pos] at h <;> omega

section Hash

variable {κ : Type} [DecidableEq κ] {hash : Currency → κ}

theorem amountMeets_of_amountMatch (hInj : Function.Injective hash) {req : AmountDescription}
    {amount : Option Amount} (h : amountMatch hash (some req) amount = .ok ())
    (hValue : ∀ amt, amount = some amt → (parseBigInt amt.value).isSome) :
    AmountMeets req amount := by
  rcases amount with _ | amt
  · cases hExists : req.exists
    · exact ⟨by simp [hExists], by simp⟩
    · simp [amountMatch, hExists] at h
  · obtain ⟨v, hv⟩ := Option.isSome_iff_exists.mp (hValue amt rfl)
    unfold amountMatch at h
    cases hExists : req.exists
    · simp [hExists] at h
    cases hSign : req.sign.matches (some amt)
    · simp [hExists, hSign] at h
    refine ⟨by simp [hExists], fun _ hAmt => ?_⟩
    cases hAmt
    refine ⟨v, hv, AmountSign.holds_of_matches hv hSign, fun cur hCur => ?_⟩
    rcases hC : amt.currency with _ | c
    · simp [hExists, hSign, hCur, hC] at h
    · by_cases hKey : hash c = hash cur
      · rw [hInj hKey]
      · simp [hExists, hSign, hCur, hC, hKey] at h

end Hash

theorem coinActionMatch_eq_ok {action : String} {change : Option CoinChange} :
    coinActionMatch action change = .ok () ↔
      (action ≠ "" → ∃ c, change = some c ∧ c.coinAction = action) := by
  unfold coinActionMatch
  by_cases hEmpty : action = ""
  · simp [hEmpty]
  · rcases change with _ | c
    · simp [hEmpty]
    · by_cases hAction : c.coinAction = action <;> simp [hEmpty, hAction]

/-! ## The field checks, the other way -/

theorem AmountSign.matches_of_holds {s : AmountSign} {amt : Amount} {v : Int}
    (hs : s ∈ amountSigns) (hv : parseBigInt amt.value = some v) (h : s.Holds v) :
    s.matches (some amt) = true := by
  obtain ⟨hNeg, hPos, hPosZero, hNegZero⟩ := h
  simp only [amountSigns, List.mem_cons, List.mem_singleton, List.not_mem_nil, or_false] at hs
  rcases hs with rfl | rfl | rfl | rfl | rfl <;>
    simp [AmountSign.matches, hv, anyAmountSign, negativeAmountSign, positiveAmountSign,
      positiveOrZeroAmountSign, negativeOrZeroAmountSign, Int.sign_eq_neg_one_iff_neg,
      Int.sign_eq_one_iff_pos] at hNeg hPos hPosZero hNegZero ⊢ <;> omega
theorem accountMatch_of_accountMeets {req : AccountDescription}
    {account : Option AccountIdentifier} (h : AccountMeets req account) :
    accountMatch (some req) account = .ok () := by
  rcases account with _ | acc
  · cases hExists : req.exists
    · simp [accountMatch, hExists]
    · simpa using h.present hExists
  have hSub := h.subAccount acc rfl
  unfold accountMatch
  cases hOpt : req.subAccountOptional <;> rcases hS : acc.subAccount with _ | sub <;>
    simp only [hOpt, hS, ite_false, ite_true, Bool.false_eq_true]
  · have hExists : req.subAccountExists = false := by simpa [hS] using hSub.present hOpt
    simp [hExists]
  · have hExists : req.subAccountExists = true := by simpa [hS] using hSub.present hOpt
    simp only [hExists, Bool.not_true, Bool.false_eq_true, if_false]
    rw [verifySubAccountAddress_eq_ok.mpr (hSub.address sub (by simp [hS])),
      metadataMatch_eq_ok.mpr (hSub.metadata sub (by simp [hS]) hOpt)]
    rfl
  · rfl
  · exact verifySubAccountAddress_eq_ok.mpr (hSub.address sub (by simp [hS]))

section Hash

variable {κ : Type} [DecidableEq κ] {hash : Currency → κ}

theorem amountMatch_of_amountMeets {req : AmountDescription} {amount : Option Amount}
    (hSign : req.sign ∈ amountSigns) (h : AmountMeets req amount) :
    amountMatch hash (some req) amount = .ok () := by
  rcases amount with _ | amt
  · cases hExists : req.exists
    · simp [amountMatch, hExists]
    · simpa using h.present.mpr hExists
  have hExists : req.exists = true := h.present.mp rfl
  obtain ⟨v, hv, hHolds, hCurrency⟩ := h.value amt rfl
  have hMatches := AmountSign.matches_of_holds hSign hv hHolds
  unfold amountMatch
  rcases hCur : req.currency with _ | cur
  · simp [hExists, hMatches, hCur]
  · simp [hExists, hMatches, hCur, hCurrency cur hCur]

end Hash

/-! ## The field checks against `Meets` -/

section Hash

variable {κ : Type} [DecidableEq κ] {hash : Currency → κ}

/-- **What the field checks accept meets the description**, currencies told apart by their
keys. -/
theorem Accepted.meets (hInj : Function.Injective hash) {des : OperationDescription}
    {o : Operation} (h : Accepted hash des o) : Meets des o where
  type hType := (h.type (by simpa [Nat.pos_iff_ne_zero] using hType)).symm
  account req hReq := accountMeets_of_accountMatch (hReq ▸ h.account)
  amount req hReq := amountMeets_of_amountMatch hInj (hReq ▸ h.amount) h.value
  metadata := metadataMatch_eq_ok.mp h.metadata
  coinAction := coinActionMatch_eq_ok.mp h.coinAction

/-- **What meets the description passes the field checks**, when the description's sign is one
of the five and the amount parses. -/
theorem Meets.accepted {des : OperationDescription} {o : Operation}
    (hSign : ∀ req, des.amount = some req → req.sign ∈ amountSigns) (h : Meets des o)
    (hValue : ∀ amt, o.amount = some amt → (parseBigInt amt.value).isSome) :
    Accepted hash des o where
  type hType := (h.type (by simpa [Nat.pos_iff_ne_zero] using hType)).symm
  account := by
    rcases hA : des.account with _ | req
    · rfl
    · exact accountMatch_of_accountMeets (h.account req hA)
  amount := by
    rcases hA : des.amount with _ | req
    · rfl
    · exact amountMatch_of_amountMeets (hSign req hA) (h.amount req hA)
  metadata := metadataMatch_eq_ok.mpr h.metadata
  coinAction := coinActionMatch_eq_ok.mpr h.coinAction
  value := hValue

/-- **The field checks are exact.**  With currencies told apart by their keys and amount signs
among the five constants, an operation passes the field checks of a description and the amount
parse exactly when it meets the description and its amount, if any, parses. -/
theorem accepted_iff_meets (hInj : Function.Injective hash) {des : OperationDescription}
    {o : Operation} (hSign : ∀ req, des.amount = some req → req.sign ∈ amountSigns) :
    Accepted hash des o ↔
      Meets des o ∧ ∀ amt, o.amount = some amt → (parseBigInt amt.value).isSome :=
  ⟨fun h => ⟨h.meets hInj, h.value⟩, fun ⟨h, hValue⟩ => h.accepted hSign hValue⟩

/-- The transfer's descriptions ask for a negative and a positive amount: on them the field
checks accept exactly what meets the description. -/
theorem accepted_iff_meets_transfer :
    Function.Injective (fun c : Currency => c) ∧
    (∀ des ∈ transferDescriptions.operationDescriptions, ∀ req, des.amount = some req →
      req.sign ∈ amountSigns) ∧
    ∀ des ∈ transferDescriptions.operationDescriptions, ∀ o : Operation,
      (Accepted (fun c : Currency => c) des o ↔
        Meets des o ∧ ∀ amt, o.amount = some amt → (parseBigInt amt.value).isSome) :=
  have hInj : Function.Injective (fun c : Currency => c) := fun _ _ h => h
  have hSign : ∀ des ∈ transferDescriptions.operationDescriptions, ∀ req,
      des.amount = some req → req.sign ∈ amountSigns := by
    simp [transferDescriptions, amountSigns]
  ⟨hInj, hSign, fun des hd _ => accepted_iff_meets hInj (hSign des hd)⟩

/-! ## The pass -/

/-- Every operation of the group of a description of `ds` passes that description's checks. -/
def GroupsAccepted (hash : Currency → κ) (ds : List OperationDescription)
    (ms : List (Option Match)) : Prop :=
  ∀ i des, ds[i]? = some des → ∀ o ∈ groupAt ms i, Accepted hash des o

theorem MatchStep.groupsAccepted {op : Option Operation} {ds : List OperationDescription}
    {ms ms' : List (Option Match)} {found : Bool} (h : MatchStep hash op ds ms ms' found)
    (hInv : GroupsAccepted hash ds ms) : GroupsAccepted hash ds ms' := by
  intro i des hd o' ho'
  cases found
  · rw [groupAt, h.unchanged rfl] at ho'
    exact hInv i des hd o' ho'
  · obtain ⟨o, i₀, d₀, -, hd₀, -, -, hAcc, hAt, hOther⟩ := h.appended rfl
    by_cases hi : i = i₀
    · subst hi
      obtain rfl : des = d₀ := Option.some.inj (hd.symm.trans hd₀)
      rw [groupAt, hAt, List.mem_append, List.mem_singleton] at ho'
      rcases ho' with ho' | rfl
      · exact hInv i des hd o' ho'
      · exact hAcc
    · rw [groupAt, hOther i hi] at ho'
      exact hInv i des hd o' ho'

variable (hash)

/-- **Matcher soundness.**  A successful `MatchOperations` returns one match per description,
and every operation in the group of a description meets it, when the currency keys tell
currencies apart. -/
theorem matchOperations_sound (hInj : Function.Injective hash) {d : Descriptions}
    {ops : List (Option Operation)} {ms : List (Option Match)}
    (h : matchOperations hash d ops = .ok ms) :
    ms.length = d.operationDescriptions.length ∧
      ∀ i des, d.operationDescriptions[i]? = some des → ∀ o ∈ groupAt ms i, Meets des o := by
  obtain ⟨-, -, hLoop, -, -⟩ := matchOperations_eq_ok.mp h
  have hAccepted := matchLoop_invariant hash (GroupsAccepted hash d.operationDescriptions)
    (fun _ hInv hM => (operationMatch_step hash hM).groupsAccepted hInv)
    (by simp [GroupsAccepted, groupAt]) hLoop
  exact ⟨by simpa using matchLoop_length hash hLoop,
    fun i des hd o ho => (hAccepted i des hd o ho).meets hInj⟩

end Hash

/-- The transfer's debit and credit meet their descriptions. -/
theorem matchOperations_sound_transfer :
    Function.Injective (fun c : Currency => c) ∧
      matchOperations (fun c : Currency => c) transferDescriptions transferOperations =
        .ok transferMatches ∧
      transferMatches.length = transferDescriptions.operationDescriptions.length ∧
      ∀ i des, transferDescriptions.operationDescriptions[i]? = some des →
        ∀ o ∈ groupAt transferMatches i, Meets des o :=
  have h := matchOperations_transfer fun c : Currency => c
  ⟨Function.injective_id, h, matchOperations_sound _ Function.injective_id h⟩

/-- With an optional sub-account, an operation whose sub-account lacks a required metadata key
is matched. -/
theorem matchOperations_optional_subAccount_metadata :
    matchOperations (fun c : Currency => c)
        { operationDescriptions :=
            [{ account := some { «exists» := true, subAccountOptional := true,
                                 subAccountMetadataKeys := [{ key := "owner" }] } }] }
        [some { account := some { address := "addr", subAccount := some { address := "sub" } } }] =
      .ok [some { operations :=
                    [{ account := some { address := "addr", subAccount := some { address := "sub" } } }],
                  amounts := [none] }] ∧
    ¬ MetadataMeets [{ key := "owner" }] ({ address := "sub" } : SubAccountIdentifier).metadata :=
  ⟨rfl, by simp [MetadataMeets]⟩

end MeshSdk.Parser
