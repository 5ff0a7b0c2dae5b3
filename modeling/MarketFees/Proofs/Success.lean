import MarketFees.Proofs.Projection
import MarketFees.Snapshot

namespace MarketFees

namespace Totals

theorem of_eq_ok {exclTax tax : Decimal} {totals : Totals} :
    of exclTax tax = .ok totals ↔ totals.exclTax = exclTax ∧ totals.tax = tax := by
  constructor
  · intro h
    unfold of at h
    split at h
    · cases h
      exact ⟨rfl, rfl⟩
    · cases h
  · rintro ⟨rfl, rfl⟩
    unfold of
    split
    · next inclTax h =>
      obtain rfl : totals.inclTax = inclTax := Option.some.inj (totals.add_eq.symm.trans h)
      rfl
    · next h =>
      rw [totals.add_eq] at h
      cases h

theorem of_eq_error {exclTax tax : Decimal} (h : exclTax.add? tax = none) :
    of exclTax tax = .error (.overflow .addition) := by
  unfold of
  split
  · next h' =>
    rw [h] at h'
    cases h'
  · rfl

/-- The steps to the totals of a scope that is not empty. -/
theorem ofScope_eq_ok {amounts : AmountSource} {scope : Scope} {charged : SortedSet AdjustmentId}
    {feeTotal includedTax exclTax tax : Decimal} {totals : Totals}
    (hne : ¬(scope.orders.isEmpty || scope.fees.isEmpty) = true)
    (hfeeTotal : amounts.amountSum ((AmountQuery.fees scope.orders).forFees scope.fees.toList) =
      .ok feeTotal)
    (hcharged : amounts.adjustmentIds ((AmountQuery.fees scope.orders).forFees scope.fees.toList) =
      .ok charged)
    (hincludedTax : amounts.amountSum
      (((AmountQuery.taxes scope.orders).onAdjustments charged).withIncluded true) = .ok includedTax)
    (htax : (if scope.taxRates.isEmpty then pure 0 else amounts.amountSum
      (((AmountQuery.taxes scope.orders).onAdjustments charged).forTaxRates scope.taxRates.toList)) =
        .ok tax)
    (hexclTax : feeTotal.sub includedTax = .ok exclTax) (htotals : of exclTax tax = .ok totals) :
    ofScope amounts scope = .ok totals := by
  rw [ofScope, if_neg hne]
  refine bind_eq_ok.2 ⟨feeTotal, hfeeTotal, bind_eq_ok.2 ⟨charged, lift_eq_ok.2 hcharged,
    bind_eq_ok.2 ⟨includedTax, hincludedTax, ?_⟩⟩⟩
  have hlast : (do of (← feeTotal.sub includedTax) tax) = .ok totals :=
    bind_eq_ok.2 ⟨exclTax, hexclTax, htotals⟩
  split
  · next hnone =>
    rw [if_pos hnone] at htax
    cases htax
    exact hlast
  · next hsome =>
    rw [if_neg hsome] at htax
    exact bind_eq_ok.2 ⟨tax, htax, hlast⟩

end Totals

structure Catalog.Readable (catalog : Catalog) : Prop where
  enterprise : ∀ id, ∃ e, catalog.enterprise id = .ok e
  fee : ∀ id, ∃ fee, catalog.fee id = .ok fee
  taxRate : ∀ id, ∃ rate, catalog.taxRate id = .ok rate
  cycle : ∀ id, ∃ c, catalog.cycle id = .ok c

theorem Snapshot.readable (s : Snapshot) : s.store.catalog.Readable where
  enterprise _ := ⟨_, rfl⟩
  fee _ := ⟨_, rfl⟩
  taxRate _ := ⟨_, rfl⟩
  cycle _ := ⟨_, rfl⟩

namespace Catalog.Readable

variable {catalog : Catalog}

theorem exists_columns (h : catalog.Readable) (key : GroupKey) (totals : Totals) :
    ∃ columns, catalog.columns key totals = .ok columns := by
  obtain ⟨distributor, hdistributor⟩ := h.enterprise key.distributor
  obtain ⟨producer, hproducer⟩ := h.enterprise key.supplier
  obtain ⟨cycle, hcycle⟩ := h.cycle key.cycle
  obtain ⟨fee, hfee⟩ := h.fee key.fee
  have howner : ∃ owner, catalog.owner fee = .ok owner := by
    cases fee with
    | none => exact ⟨none, rfl⟩
    | some fee => exact h.enterprise fee.owner
  have hrate : ∃ rate, catalog.rate key.taxRate = .ok rate := by
    cases key.taxRate with
    | none => exact ⟨none, rfl⟩
    | some id => exact h.taxRate id
  obtain ⟨owner, howner⟩ := howner
  obtain ⟨rate, hrate⟩ := hrate
  rw [Catalog.columns, hdistributor, hproducer, hcycle, hfee, ok_bind, ok_bind, ok_bind, ok_bind,
    howner, hrate]
  exact ⟨_, rfl⟩

theorem exists_placed (h : catalog.Readable) (group : Group) (totals : Totals) :
    ∃ position d, catalog.placed group totals = .ok (position, d) := by
  obtain ⟨columns, hcolumns⟩ := h.exists_columns group.key totals
  obtain ⟨cycle, hcycle⟩ := h.cycle group.key.cycle
  have hposition : ∃ position, catalog.sortKey group.key columns = .ok position := by
    rw [Catalog.sortKey, hcycle]
    exact ⟨_, rfl⟩
  obtain ⟨position, hposition⟩ := hposition
  exact ⟨position, _, Catalog.placed_eq_ok.2 ⟨columns, hcolumns, hposition, rfl⟩⟩

end Catalog.Readable

theorem Report.exists_ownerOf {catalog : Catalog} (h : catalog.Readable) (fee : FeeId) :
    ∃ owner, ownerOf catalog fee = .ok owner := by
  obtain ⟨found, hfound⟩ := h.fee fee
  exact ⟨_, bind_eq_ok.2 ⟨found, hfound, rfl⟩⟩

section Success

variable {amounts : AmountSource} (h : ∀ scope, ∃ totals, Totals.ofScope amounts scope = .ok totals)

include h

namespace Detail

theorem exists_summary (level : Level) (details : List Detail) :
    ∃ row, summary amounts level details = .ok row := by
  obtain ⟨totals, htotals⟩ := h (Scope.unionAll (details.map (·.scope)))
  exact ⟨_, bind_eq_ok.2 ⟨totals, htotals, rfl⟩⟩

theorem exists_summedUp {rows : List Detail → Except Fault (List Row)}
    (hrows : ∀ details, ∃ result, rows details = .ok result) (level : Level) (details : List Detail) :
    ∃ result, summedUp amounts level rows details = .ok result := by
  obtain ⟨result, hresult⟩ := hrows details
  obtain ⟨row, hrow⟩ := exists_summary h level details
  exact ⟨_, bind_eq_ok.2 ⟨result, hresult, bind_eq_ok.2 ⟨row, hrow, rfl⟩⟩⟩

omit h in
theorem exists_parted [BEq κ] {id : GroupKey → κ} {rows : List Detail → Except Fault (List Row)}
    (hrows : ∀ details, ∃ result, rows details = .ok result) (details : List Detail) :
    ∃ result, parted id rows details = .ok result := by
  obtain ⟨results, hresults⟩ := exists_mapM_eq_ok fun part
    (_ : part ∈ details.splitBy fun d d' => id d.key == id d'.key) => hrows part
  exact ⟨_, bind_eq_ok.2 ⟨results, hresults, rfl⟩⟩

theorem exists_assemble (withSummaries : Bool) (details : List Detail) :
    ∃ rows, assemble amounts withSummaries details = .ok rows := by
  cases withSummaries with
  | false => exact ⟨_, rfl⟩
  | true =>
    apply exists_parted
    apply exists_summedUp h
    apply exists_parted
    apply exists_summedUp h
    apply exists_parted
    apply exists_summedUp h
    intro details
    exact ⟨_, rfl⟩

end Detail

theorem Report.exists_entries {catalog : Catalog} (hcatalog : catalog.Readable) (charges : List Charge) :
    ∃ entries, (Group.ofCharges charges).mapM (Report.entry amounts catalog) = .ok entries := by
  apply exists_mapM_eq_ok
  intro g _
  obtain ⟨totals, htotals⟩ := h g.scope
  obtain ⟨position, d, hplaced⟩ := hcatalog.exists_placed g totals
  exact ⟨(position, d), Report.entry_eq_ok.2 ⟨totals, htotals, hplaced⟩⟩

end Success

end MarketFees
