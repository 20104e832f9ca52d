import MeshSdk.Asserter.Construction

/-!
# Relaxing the configuration never rejects more

Two flags of the asserter only add checks: strict mode (`ignoreRosettaSpecValidation = false`)
adds the catalogue checks of types, statuses and errors and the timestamp check of blocks, and
enabled validations add the payment and fee accounting and the checks after the loop.

* `Relaxes a b`: `b` is `a` with strict mode and/or validations switched off.
* `operationsLoop_same_validations`: with the same validations, a loop `a` passes is passed by
  `b` with the same totals, since the totals only depend on the validations.
* `operationsLoop_disabled`: with validations disabled, `b` passes a loop `a` passes from any
  totals, since it skips the accounting altogether.
* `relaxes_accepts`: **what `a` accepts, `b` accepts**, for `Block`, `Transaction`,
  `Operations` and `Error`.
-/

namespace MeshSdk.Asserter

open Types

/-- `b` is `a` relaxed: the same asserter but for strict mode and enabled validations, `b` being
lenient wherever `a` is, and having validations enabled only where `a` does. -/
structure Relaxes (a b : Asserter) : Prop where
  lenient : a.ignoreRosettaSpecValidation = true → b.ignoreRosettaSpecValidation = true
  disabled : b.validations.enabled = true → a.validations.enabled = true
  rest : b = { a with
    ignoreRosettaSpecValidation := b.ignoreRosettaSpecValidation
    validations := { a.validations with enabled := b.validations.enabled } }

/-- `b` accepts every operation type and status that `a` accepts: the same catalogues, and
strict only where `a` is. -/
structure CataloguesRelax (a b : Asserter) : Prop where
  strict : b.ignoreRosettaSpecValidation = false → a.ignoreRosettaSpecValidation = false
  operationTypes : b.operationTypes = a.operationTypes
  operationStatusMap : b.operationStatusMap = a.operationStatusMap

theorem Relaxes.genesisBlock {a b : Asserter} (h : Relaxes a b) :
    b.genesisBlock = a.genesisBlock := by rw [h.rest]

theorem Relaxes.timestampStartIndex {a b : Asserter} (h : Relaxes a b) :
    b.timestampStartIndex = a.timestampStartIndex := by rw [h.rest]

theorem Relaxes.errorTypeMap {a b : Asserter} (h : Relaxes a b) :
    b.errorTypeMap = a.errorTypeMap := by rw [h.rest]

theorem Relaxes.catalogues {a b : Asserter} (h : Relaxes a b) : CataloguesRelax a b where
  strict hb := by
    cases ha : a.ignoreRosettaSpecValidation
    · rfl
    · simp [h.lenient ha] at hb
  operationTypes := by rw [h.rest]
  operationStatusMap := by rw [h.rest]

/-! ## One operation -/

section Catalogues

variable {a b : Asserter} (hC : CataloguesRelax a b)
include hC

theorem operationType_relax {t : String} (h : a.operationType t = .ok ()) :
    b.operationType t = .ok () := by
  rw [operationType_eq_ok] at h ⊢
  exact ⟨h.1, fun hb => hC.operationTypes ▸ h.2 (hC.strict hb)⟩

theorem operationStatus_relax {status : Option String} {construction : Bool}
    (h : a.operationStatus status construction = .ok ()) :
    b.operationStatus status construction = .ok () := by
  rw [operationStatus_eq_ok] at h ⊢
  cases construction
  · exact ⟨h.1, fun hb => hC.operationStatusMap ▸ h.2 (hC.strict hb)⟩
  · exact h

theorem operation_relax {op : Option Operation} {index : Int} {construction : Bool}
    (h : a.operation op index construction = .ok ()) :
    b.operation op index construction = .ok () := by
  obtain ⟨o, rfl, hId, hType, hStatus, hAmount⟩ := operation_eq_ok.mp h
  exact operation_eq_ok.mpr
    ⟨o, rfl, hId, operationType_relax hC hType, operationStatus_relax hC hStatus, hAmount⟩

end Catalogues

/-! ## The loop of `Operations` -/

theorem paymentAndFee_congr {a b : Asserter} (hV : b.validations = a.validations) (t : Totals)
    (o : Operation) : b.paymentAndFee t o = a.paymentAndFee t o := by
  simp [paymentAndFee, addPayment, addFee, hV]

section Loop

variable {a b : Asserter} {construction : Bool} (hC : CataloguesRelax a b)
include hC

theorem operationsLoop_same_validations (hV : b.validations = a.validations) :
    ∀ {ops : List (Option Operation)} {i : Nat} {t t' : Totals},
      a.operationsLoop construction i t ops = .ok t' →
      b.operationsLoop construction i t ops = .ok t'
  | [], _, _, _, h => h
  | op :: ops, i, t, t', h => by
    obtain ⟨t₁, hStep, hRest⟩ := bind_eq_ok.mp h
    refine bind_eq_ok.mpr ⟨t₁, ?_, operationsLoop_same_validations hV hRest⟩
    obtain ⟨o, rfl, hOp, t₂, hPay, hRel, hEq⟩ := operationsStep_eq_ok.mp hStep
    exact operationsStep_eq_ok.mpr ⟨o, rfl, operation_relax hC hOp, t₂,
      by rwa [hV, paymentAndFee_congr hV], hRel, hEq⟩

theorem operationsLoop_disabled (hOff : b.validations.enabled = false) :
    ∀ {ops : List (Option Operation)} {i : Nat} {t t' : Totals},
      a.operationsLoop construction i t ops = .ok t' →
      ∀ s, ∃ s', b.operationsLoop construction i s ops = .ok s'
  | [], _, _, _, _, s => ⟨s, rfl⟩
  | op :: ops, i, t, t', h, s => by
    obtain ⟨t₁, hStep, hRest⟩ := bind_eq_ok.mp h
    obtain ⟨o, rfl, hOp, -, -, hRel, -⟩ := operationsStep_eq_ok.mp hStep
    have hStep' : b.operationsStep construction i s (some o) = .ok
        { s with
          relatedOpsExists := s.relatedOpsExists || !(o.relatedOperations.getD []).isEmpty } :=
      operationsStep_eq_ok.mpr ⟨o, rfl, operation_relax hC hOp, s, by simp [hOff], hRel, rfl⟩
    obtain ⟨s', hLoop⟩ := operationsLoop_disabled hOff hRest _
    exact ⟨s', bind_eq_ok.mpr ⟨_, hStep', hLoop⟩⟩

end Loop

theorem operations_relax {a b : Asserter} (h : Relaxes a b) {ops : List (Option Operation)}
    {construction : Bool} (hA : a.operations ops construction = .ok ()) :
    b.operations ops construction = .ok () := by
  obtain ⟨hLen, t, hLoop, hRelated, hPay⟩ := operations_eq_ok.mp hA
  rcases hEnabled : b.validations.enabled
  · obtain ⟨s, hLoop'⟩ := operationsLoop_disabled h.catalogues hEnabled hLoop {}
    exact operations_eq_ok.mpr ⟨hLen, s, hLoop', by simp [hEnabled], by simp [hEnabled]⟩
  · have hV : b.validations = a.validations := by
      have hR := congrArg Asserter.validations h.rest
      rw [hR, hEnabled, ← h.disabled hEnabled]
    refine operations_eq_ok.mpr ⟨hLen, t, operationsLoop_same_validations h.catalogues hV hLoop,
      ?_, ?_⟩ <;> rw [hV]
    · exact hRelated
    · simpa [validatePaymentAndFee, hV] using hPay

/-! ## Transactions, blocks and errors -/

section Composite

variable {κ : Type} [DecidableEq κ] (hash : Option RelatedTransaction → κ)
  (networkIdentifier : NetworkIdentifier → Check) (errorCheck : Option Types.Error → Check)
  {a b : Asserter} (h : Relaxes a b)
include h

theorem transaction_relax {tx : Option Transaction}
    (hA : a.transaction hash networkIdentifier tx = .ok ()) :
    b.transaction hash networkIdentifier tx = .ok () := by
  obtain ⟨t, rfl, hId, hOps, hRel⟩ := (transaction_eq_ok hash networkIdentifier).mp hA
  exact (transaction_eq_ok hash networkIdentifier).mpr
    ⟨t, rfl, hId, operations_relax h hOps, hRel⟩

theorem block_relax {blk : Option Block} (hA : a.block hash networkIdentifier blk = .ok ()) :
    b.block hash networkIdentifier blk = .ok () := by
  obtain ⟨blk, bid, pid, rfl, hBid, hPid, hBV, hPV, hParent, hTime, hTxs⟩ :=
    (block_eq_ok hash networkIdentifier).mp hA
  refine (block_eq_ok hash networkIdentifier).mpr ⟨blk, bid, pid, rfl, hBid, hPid, hBV, hPV,
    h.genesisBlock ▸ hParent, fun hb => h.timestampStartIndex ▸ hTime (h.catalogues.strict hb),
    fun tx hTx => transaction_relax hash networkIdentifier h (hTxs tx hTx)⟩

theorem error_relax {err : Option Types.Error} (hA : a.error errorCheck err = .ok ()) :
    b.error errorCheck err = .ok () := by
  rw [error_eq_ok] at hA ⊢
  exact ⟨hA.1, fun hb => h.errorTypeMap ▸ hA.2 (h.catalogues.strict hb)⟩

/-- **Relaxing the configuration never rejects more.**  If `b` is `a` with strict mode and/or
validations switched off, every block, transaction, operation list (under either construction
flag) and error descriptor that `a` accepts, `b` accepts. -/
theorem relaxes_accepts :
    (∀ blk, a.block hash networkIdentifier blk = .ok () →
      b.block hash networkIdentifier blk = .ok ()) ∧
    (∀ tx, a.transaction hash networkIdentifier tx = .ok () →
      b.transaction hash networkIdentifier tx = .ok ()) ∧
    (∀ ops construction, a.operations ops construction = .ok () →
      b.operations ops construction = .ok ()) ∧
    (∀ err, a.error errorCheck err = .ok () → b.error errorCheck err = .ok ()) :=
  ⟨fun _ => block_relax hash networkIdentifier h,
    fun _ => transaction_relax hash networkIdentifier h, fun _ _ => operations_relax h,
    fun _ => error_relax errorCheck h⟩

end Composite

/-- A strict asserter with validations enabled, relaxed to a lenient one without them. -/
theorem relaxes_accepts_strict_enabled :
    Relaxes { validations := { enabled := true } } { ignoreRosettaSpecValidation := true } ∧
      ((∀ blk, ({ validations := { enabled := true } } : Asserter).block (fun _ => ())
          (fun _ => pure ()) blk = .ok () →
        ({ ignoreRosettaSpecValidation := true } : Asserter).block (fun _ => ())
          (fun _ => pure ()) blk = .ok ()) ∧
      (∀ tx, ({ validations := { enabled := true } } : Asserter).transaction (fun _ => ())
          (fun _ => pure ()) tx = .ok () →
        ({ ignoreRosettaSpecValidation := true } : Asserter).transaction (fun _ => ())
          (fun _ => pure ()) tx = .ok ()) ∧
      (∀ ops construction,
        ({ validations := { enabled := true } } : Asserter).operations ops construction = .ok () →
        ({ ignoreRosettaSpecValidation := true } : Asserter).operations ops construction = .ok ()) ∧
      (∀ err, ({ validations := { enabled := true } } : Asserter).error (fun _ => pure ()) err =
          .ok () →
        ({ ignoreRosettaSpecValidation := true } : Asserter).error (fun _ => pure ()) err =
          .ok ())) :=
  have hR : Relaxes { validations := { enabled := true } }
      { ignoreRosettaSpecValidation := true } :=
    ⟨fun _ => rfl, fun _ => rfl, rfl⟩
  ⟨hR, relaxes_accepts (fun _ => ()) (fun _ => pure ()) (fun _ => pure ()) hR⟩

end MeshSdk.Asserter
