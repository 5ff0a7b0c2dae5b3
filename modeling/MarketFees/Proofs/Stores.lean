import Mathlib
import MarketFees.Proofs.Ledger.ReadBack
import MarketFees.Proofs.ZeroSigns

namespace MarketFees

namespace Snapshot

variable {d : Dataset}

theorem orders_asRead : (ofDataset d.asRead).orders = (ofDataset d).orders.map Order.asRead := by
  simp only [ofDataset, Dataset.asRead, List.map_map]
  apply List.map_congr_left
  intro o _
  simp [owned, Order.asRead, Adjustment.asRead, Function.comp_def]

theorem search_asRead (f : Filters) (permission : Permission) :
    (ofDataset d.asRead).search f permission =
      ((ofDataset d).search f fun order => permission order.asRead).map Order.asRead := by
  rw [search, orders_asRead, List.filter_map]
  rfl

theorem selected_asRead (q : AmountQuery) :
    (ofDataset d.asRead).selected q = ((ofDataset d).selected q).map Adjustment.asRead := by
  rw [selected, selected, orders_asRead, List.filter_map, List.flatMap_map, List.filter_flatMap,
    List.filter_flatMap, List.map_flatMap]
  apply List.flatMap_congr
  intro o _
  rw [Order.asRead, List.filter_map]
  rfl

theorem amounts_asRead :
    (ofDataset d).store.amounts.ForgetsZeroSigns (ofDataset d.asRead).store.amounts where
  amountSum q := by
    simp only [store, selected_asRead, ← Decimal.sum_withoutZeroSign, List.map_map]
    rfl
  adjustmentIds q := by
    simp only [store, selected_asRead, List.map_map]
    rfl

theorem catalog_asRead :
    (ofDataset d).store.catalog.ForgetsZeroSigns (ofDataset d.asRead).store.catalog where
  enterprise _ := rfl
  fee _ := rfl
  taxRate rate := by
    have htable : Table.ofList (·.id) id (d.taxRates.map TaxRate.asRead) =
        .ofList (·.id) TaxRate.asRead d.taxRates := Table.ofList_map (f := TaxRate.asRead) fun _ => rfl
    simp only [store, ofDataset, Dataset.asRead, htable, Table.get?_ofList, Option.map_id]
    rfl
  cycle _ := rfl

/-- A report on a dataset that has lost the signs of zeros has lost just these signs. -/
theorem run_asRead (d : Dataset) (f : Filters) (permission : Permission) (options : Report.Options) :
    Report.run (ofDataset d.asRead).store f permission options =
      (Report.run (ofDataset d).store f (fun order => permission order.asRead) options).map
        Report.withoutZeroSigns := by
  have hrun (d : Dataset) (permission : Permission) : Report.run (ofDataset d).store f permission options =
      Report.ofOrders ((ofDataset d).search f permission) f (ofDataset d).store.amounts
        (ofDataset d).store.catalog options := rfl
  rw [hrun, hrun, search_asRead, Report.ofOrders_withoutZeroSigns amounts_asRead catalog_asRead]

end Snapshot

/-- A report on a dataset stored in a new ledger is the report on the dataset kept by id, with no sign
on zeros, and exactly that report where no amount is a zero with a sign. -/
theorem run_load_eq {d : Dataset} (hvalid : d.validate = .ok ()) (hdistinct : d.Distinct) :
    ∃ l, Ledger.new.load d = .ok l ∧ ∀ f permission options,
      Report.run l.store f permission options =
        (Report.run (Snapshot.ofDataset d.sorted).store f (fun order => permission order.asRead)
          options).map Report.withoutZeroSigns ∧
      (d.NoNegativeZero → Report.run l.store f permission options =
        Report.run (Snapshot.ofDataset d.sorted).store f permission options) := by
  obtain ⟨l, hload, -, hstore⟩ := Ledger.exists_load hvalid hdistinct
  refine ⟨l, hload, fun f permission options => ⟨?_, fun hzero => ?_⟩⟩
  · rw [hstore, Snapshot.run_asRead]
  · rw [hstore, hzero.sorted.asRead_eq]

theorem run_load_marketDay :
    ∃ l, Ledger.new.load .quarterTax = .ok l ∧
      Report.run l.store .none .everything ⟨true⟩ =
        Report.run (Snapshot.ofDataset Dataset.quarterTax.sorted).store .none .everything ⟨true⟩ := by
  obtain ⟨l, hload, hrun⟩ := run_load_eq (Dataset.validate_marketDay _) (Dataset.distinct_marketDay _)
  exact ⟨l, hload, (hrun .none .everything ⟨true⟩).2 Dataset.noNegativeZero_quarterTax⟩

def taxSigns (outcome : Except Fault Report) : Option (List Bool) :=
  outcome.toOption.map fun report => report.rows.map (·.columns.totals.tax.negative)

/-- The dataset keeps the sign of a tax that was rounded away, and the ledger does not. -/
theorem run_load_roundedTax_ne :
    Dataset.roundedTax.validate = .ok () ∧ Dataset.roundedTax.Distinct ∧
      ∃ l, Ledger.new.load .roundedTax = .ok l ∧
        Report.run l.store .none .everything ⟨true⟩ ≠
          Report.run (Snapshot.ofDataset Dataset.roundedTax.sorted).store .none .everything ⟨true⟩ := by
  obtain ⟨l, hload, -, hstore⟩ :=
    Ledger.exists_load (Dataset.validate_marketDay _) (Dataset.distinct_marketDay _)
  refine ⟨Dataset.validate_marketDay _, Dataset.distinct_marketDay _, l, hload, fun heq => ?_⟩
  have hledger : taxSigns (Report.run (Snapshot.ofDataset Dataset.roundedTax.sorted.asRead).store .none
      .everything ⟨true⟩) = some (List.replicate 7 false) := by cbv
  have hdataset : taxSigns (Report.run (Snapshot.ofDataset Dataset.roundedTax.sorted).store .none
      .everything ⟨true⟩) = some (List.replicate 7 true) := by cbv
  rw [hstore] at heq
  have hsigns := (hledger.symm.trans (congrArg taxSigns heq)).trans hdataset
  cases hsigns

end MarketFees
