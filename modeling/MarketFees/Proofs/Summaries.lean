import MarketFees.Proofs.ExactTotals
import MarketFees.Proofs.Lines

namespace MarketFees

/-- The totals of fees and the taxes on them, each counted once. -/
structure Totals.AddUp (totals : Totals) (fees taxes : List Adjustment) : Prop where
  exclTax : totals.exclTax.toRat = total fees - total (taxes.filter (·.included))
  tax : totals.tax.toRat = total taxes
  inclTax : totals.inclTax.toRat = total fees + total (taxes.filter (!·.included))

theorem Totals.Counts.addUp {totals : Totals} {scale : Nat} {fees taxes : List Adjustment}
    (hfees : ∀ a ∈ fees, a.amount.scale ≤ scale) (htaxes : ∀ a ∈ taxes, a.amount.scale ≤ scale)
    (h : totals.Counts scale (unitsIn scale fees - unitsIn scale (taxes.filter (·.included)))
      (unitsIn scale taxes)) : totals.AddUp fees taxes := by
  have hfilter (p : Adjustment → Bool) : ∀ a ∈ taxes.filter p, a.amount.scale ≤ scale :=
    fun a ha => htaxes a (List.mem_filter.1 ha).1
  have hexcl : totals.exclTax.toRat = total fees - total (taxes.filter (·.included)) := by
    rw [h.exclTax.toRat_eq, total_eq hfees, total_eq (hfilter _), Int.cast_sub, sub_div]
  have htax : totals.tax.toRat = total taxes := by
    rw [h.tax.toRat_eq, total_eq htaxes]
  refine ⟨hexcl, htax, ?_⟩
  have hincl : totals.inclTax.toRat = totals.exclTax.toRat + totals.tax.toRat := by
    rw [h.inclTax.toRat_eq, h.exclTax.toRat_eq, h.tax.toRat_eq, Int.cast_add, add_div]
  rw [hincl, hexcl, htax, ← total_filter_add (·.included) taxes]
  ring

namespace Charge

variable {orders : List Order} {charges : List Charge}

/-- Complete charges have totals, which are those of the fees they stand for and of all taxes on them. -/
theorem exists_totals (hbooked : Booked orders) (hstay : TaxesStay orders)
    (hrange : InRange (adjustmentsIn orders)) (hcharges : ∀ c ∈ charges, c ∈ ofOrders orders)
    (hcomplete : Complete charges) :
    ∃ totals, Totals.ofScope (Snapshot.amountsOf orders) (Scope.ofCharges charges) = .ok totals ∧
      totals.AddUp (feesOf charges (adjustmentsIn orders))
        (taxesOn (feesOf charges (adjustmentsIn orders)) (adjustmentsIn orders)) := by
  obtain ⟨totals, htotals, hcounts⟩ := hrange.exists_ofScope hbooked (Scope.ofCharges charges)
  rw [feesIn_eq hbooked hcharges hcomplete, taxesIn_eq hbooked hstay hcharges hcomplete,
    ratedIn_eq hbooked hstay hcharges hcomplete] at hcounts
  refine ⟨totals, htotals, hcounts.addUp ?_ ?_⟩
  · exact fun a ha => scale_le_largestScale (List.mem_filter.1 ha).1
  · exact fun a ha => scale_le_largestScale (List.mem_filter.1 ha).1

end Charge

/-- Of all that the orders, fees and tax rates of a scope could be combined to, exactly these fees and
taxes get selected. -/
structure AmountSource.Selects (amounts : AmountSource) (scope : Scope) (fees taxes : List Adjustment) :
    Prop where
  feeIds : amounts.adjustmentIds ((AmountQuery.fees scope.orders).forFees scope.fees.toList) =
    .ok (.ofList (fees.map (·.id)))
  taxIds : amounts.adjustmentIds (((AmountQuery.taxes scope.orders).onAdjustments
    (.ofList (fees.map (·.id)))).forTaxRates scope.taxRates.toList) = .ok (.ofList (taxes.map (·.id)))

theorem AmountSource.Selects.congr {orders : List OrderId} {a b : AmountSource} {scope : Scope}
    {fees taxes : List Adjustment} (h : b.Selects scope fees taxes) (hagree : a.AgreeOn orders b)
    (hwithin : scope.Within orders) : a.Selects scope fees taxes where
  feeIds := (hagree ((AmountQuery.fees scope.orders).forFees scope.fees.toList) hwithin).2.trans h.feeIds
  taxIds := (hagree (((AmountQuery.taxes scope.orders).onAdjustments
    (.ofList (fees.map (·.id)))).forTaxRates scope.taxRates.toList) hwithin).2.trans h.taxIds

theorem Charge.selects {orders : List Order} {charges : List Charge} (hbooked : Booked orders)
    (hstay : TaxesStay orders) (hcharges : ∀ c ∈ charges, c ∈ ofOrders orders)
    (hcomplete : Complete charges) :
    (Snapshot.amountsOf orders).Selects (Scope.ofCharges charges)
      (feesOf charges (adjustmentsIn orders))
      (taxesOn (feesOf charges (adjustmentsIn orders)) (adjustmentsIn orders)) := by
  have hfees := feesIn_eq hbooked hcharges hcomplete
  constructor
  · rw [hbooked.over.adjustmentIds_eq, ← hfees]
    rfl
  · rw [hbooked.over.adjustmentIds_eq, ← ratedIn_eq hbooked hstay hcharges hcomplete,
      ← Scope.filter_forTaxRates, ← hfees]
    rfl

/-- Shown summaries have the fees and the taxes of the charges below their nodes. -/
theorem Shown.addUp [ReportPart β] {orders : List Order} (hbooked : Booked orders)
    (hstay : TaxesStay orders) (hrange : InRange (adjustmentsIn orders)) {catalog : Catalog} {depth : Nat}
    {details : List Detail} {parts : List β} {f : Filters}
    {owner : FeeId → Except StoreError (Option EnterpriseId)}
    (h : Shown (Snapshot.amountsOf orders) catalog depth details parts)
    (hstand : StandFor ((Charge.ofOrders orders).filter (Charge.admitted f owner)) details)
    {x : Node × Columns} (hx : x ∈ parts.flatMap ReportPart.summaries) :
    let charges := ((Charge.ofOrders orders).filter (Charge.admitted f owner)).filter (x.1.holds ·.key)
    let fees := feesOf charges (adjustmentsIn orders)
    x.2.totals.AddUp fees (taxesOn fees (adjustmentsIn orders)) := by
  intro charges fees
  obtain ⟨totals, hofScope, haddUp⟩ :=
    Charge.exists_totals hbooked hstay hrange Charge.mem_ofOrders_of_mem_filter
      (Charge.complete_holds x.1)
  have htotals := h.totals x hx
  rw [hstand.unionAll_eq x.1, hofScope] at htotals
  rwa [← Except.ok.inj htotals]

/-- Reports on orders in range are made, in blocks that show the details of their charges. -/
theorem Report.exists_shown {orders : List Order} (hbooked : Booked orders)
    (hrange : InRange (adjustmentsIn orders)) {catalog : Catalog} (hcatalog : catalog.Readable)
    {f : Filters} {kept : List Charge}
    (hkept : Charge.retain f (ownerOf catalog) (Charge.ofOrders orders) = .ok kept) :
    ∃ report details, ∃ blocks : List DistributorBlock,
      ofOrders orders f (Snapshot.amountsOf orders) catalog ⟨true⟩ = .ok report ∧
      report.rows = blocks.flatMap ReportPart.rows ∧
      Shown (Snapshot.amountsOf orders) catalog Level.distributor.depth details blocks ∧
      Detailed (Snapshot.amountsOf orders) kept details := by
  have htotals := hrange.exists_totals hbooked
  obtain ⟨entries, hentries⟩ := exists_entries htotals hcatalog kept
  obtain ⟨rows, hrows⟩ := Detail.exists_assemble htotals true (sortByKey entries)
  obtain ⟨blocks, hblocks, hshown⟩ := Detail.exists_shown (ordered_sortByKey hentries) hrows
  exact ⟨⟨rows⟩, sortByKey entries, blocks, ofOrders_eq_ok.2 ⟨kept, entries, hkept, hentries, hrows⟩,
    hblocks.symm, hshown, .sortByKey hentries⟩

theorem Ledger.Reached.exists_shown {l : Ledger} (hl : l.Reached) (f : Filters)
    (permission : Permission) :
    ∃ visible kept, l.store.search f permission = .ok visible ∧
      Charge.retain f (Report.ownerOf l.store.catalog) (Charge.ofOrders visible) = .ok kept ∧
      Booked visible ∧
      l.store.amounts.AgreeOn (visible.map (·.id)) (Snapshot.amountsOf visible) ∧
      (InRange (adjustmentsIn visible) →
        ∃ report details, ∃ blocks : List DistributorBlock,
          Report.run l.store f permission ⟨true⟩ = .ok report ∧
          report.rows = blocks.flatMap ReportPart.rows ∧
          Shown (Snapshot.amountsOf visible) l.store.catalog Level.distributor.depth details blocks ∧
          Detailed (Snapshot.amountsOf visible) kept details) := by
  have hsound := hl.sound
  rw [hsound.store_eq]
  let visible := l.snapshot.search f permission
  have hbooked : Booked visible := hsound.booked.filter _
  have hcatalog := l.snapshot.readable
  have hkept : Charge.retain f (Report.ownerOf l.snapshot.store.catalog) (Charge.ofOrders visible) =
      .ok _ := Charge.retain_eq fun fee => Report.exists_ownerOf hcatalog fee
  refine ⟨visible, _, rfl, hkept, hbooked, Snapshot.agreeOn_visible hsound.nodup_ids f permission,
    fun hrange => ?_⟩
  rw [Snapshot.run_eq_ofOrders hsound.nodup_ids]
  exact Report.exists_shown hbooked hrange hcatalog hkept

/-- On every ledger that datasets were stored in, each summary shows the fees that the charges of its
node stand for and the taxes of visible orders on them, each counted once. -/
theorem run_summaries_addUp {l : Ledger} (hl : l.Reached) (f : Filters) (permission : Permission) :
    ∃ visible kept, l.store.search f permission = .ok visible ∧
      Charge.retain f (Report.ownerOf l.store.catalog) (Charge.ofOrders visible) = .ok kept ∧
      ((adjustmentsIn visible).map (·.id)).Nodup ∧
      (TaxesStay visible → InRange (adjustmentsIn visible) →
        ∃ report, ∃ blocks : List DistributorBlock,
          Report.run l.store f permission ⟨true⟩ = .ok report ∧
          report.rows = blocks.flatMap ReportPart.rows ∧
          (∀ block ∈ blocks, ReportPart.Valid l.store.catalog block) ∧
          (report.rows.filter (·.isSummary)).map (·.columns) =
            (blocks.flatMap ReportPart.summaries).map (·.2) ∧
          (∀ c ∈ kept, ∀ level,
            ((blocks.flatMap ReportPart.summaries).map (·.1)).count (c.key.node level) = 1) ∧
          ∀ x ∈ blocks.flatMap ReportPart.summaries,
            let charges := kept.filter fun c => x.1.holds c.key
            let fees := feesOf charges (adjustmentsIn visible)
            let taxes := taxesOn fees (adjustmentsIn visible)
            x.2.totals.AddUp fees taxes ∧
              l.store.amounts.Selects (Scope.ofCharges charges) fees taxes) := by
  obtain ⟨visible, kept, hvisible, hkept, hbooked, hagree, hmade⟩ := hl.exists_shown f permission
  refine ⟨visible, kept, hvisible, hkept, hbooked.adjustmentIds, fun hstay hrange => ?_⟩
  obtain ⟨report, details, blocks, hreport, hrows, hshown, hdetailed⟩ := hmade hrange
  obtain rfl := Charge.retain_eq_ok hkept
  refine ⟨report, blocks, hreport, hrows, hshown.valid, ?columns, ?nodes, ?addUp⟩
  case columns => rw [hrows, columns_flatMap_summaries]
  case nodes =>
    intro c hc level
    obtain ⟨d, hd, hkey⟩ := hdetailed.exists_detail c hc
    apply List.count_eq_one_of_mem hshown.nodup
    exact (hshown.mem_nodes _).2 ⟨d, hd, level, Nat.zero_le _, by rw [hkey]⟩
  case addUp =>
    intro x hx
    refine ⟨hshown.addUp hbooked hstay hrange hdetailed.toStandFor hx, ?_⟩
    refine (Charge.selects hbooked hstay Charge.mem_ofOrders_of_mem_filter
      (Charge.complete_holds x.1)).congr hagree ?_
    intro id hid
    obtain ⟨c, hc, rfl⟩ := Scope.mem_ofCharges_orders.1 hid
    exact List.mem_map_of_mem (Charge.mem_ofOrders.1 (Charge.mem_ofOrders_of_mem_filter c hc)).1

theorem run_marketDay_addUp :
    ∃ l visible kept, Ledger.new.load .quarterTax = .ok l ∧
      l.store.search .none .everything = .ok visible ∧
      Charge.retain .none (Report.ownerOf l.store.catalog) (Charge.ofOrders visible) = .ok kept ∧
      TaxesStay visible ∧ InRange (adjustmentsIn visible) ∧
      ∃ report, ∃ blocks : List DistributorBlock,
        Report.run l.store .none .everything ⟨true⟩ = .ok report ∧
        report.rows = blocks.flatMap ReportPart.rows ∧
        ∀ x ∈ blocks.flatMap ReportPart.summaries,
          let fees := feesOf (kept.filter fun c => x.1.holds c.key) (adjustmentsIn visible)
          x.2.totals.AddUp fees (taxesOn fees (adjustmentsIn visible)) := by
  obtain ⟨l, hload, hreached, hstore⟩ :=
    Ledger.exists_load (d := .quarterTax) (Dataset.validate_marketDay _) (Dataset.distinct_marketDay _)
  obtain ⟨visible, kept, hvisible, hkept, -, h⟩ := run_summaries_addUp hreached .none .everything
  have hsearch : l.store.search .none .everything = .ok Dataset.quarterTax.orders := by
    rw [hstore]
    cbv
  obtain rfl := Except.ok.inj (hsearch.symm.trans hvisible)
  have hstay : TaxesStay Dataset.quarterTax.orders := by
    unfold TaxesStay
    decide
  have hrange : InRange (adjustmentsIn Dataset.quarterTax.orders) := by
    unfold InRange
    decide
  obtain ⟨report, blocks, hreport, hrows, -, -, -, hsummaries⟩ := h hstay hrange
  exact ⟨l, _, kept, hload, hvisible, hkept, hstay, hrange, report, blocks, hreport, hrows,
    fun x hx => (hsummaries x hx).1⟩

/-- A market day with an order still in checkout, a tax of which is charged on the fee of the other. -/
def Dataset.strayTax : Dataset :=
  { quarterTax with orders := quarterTax.orders ++ [{
      id := ⟨2⟩
      number := "R2"
      distributor := ⟨1⟩
      cycle := ⟨1⟩
      completedAt := none
      lineItems := []
      adjustments := [
        ⟨⟨3⟩, ⟨2⟩, hundredths 100, .taxRate ⟨1⟩, .adjustment ⟨1⟩, false, ""⟩] }] }

theorem Dataset.distinct_strayTax : strayTax.Distinct := by
  constructor <;> decide

def distributorTaxes (outcome : Except Fault Report) : Option (List (Int × Nat)) :=
  outcome.toOption.map fun report =>
    (report.summaries .distributor).map fun row => (row.columns.totals.tax.units, row.columns.totals.tax.scale)

/-- The tax of a hidden order is not counted, though it is charged on a fee of a visible one. -/
theorem run_strayTax_not_addUp :
    ∃ l visible kept report, Ledger.new.load .strayTax = .ok l ∧
      l.store.search .none .everything = .ok visible ∧
      Charge.retain .none (Report.ownerOf l.store.catalog) (Charge.ofOrders visible) = .ok kept ∧
      TaxesStay visible ∧ InRange (adjustmentsIn visible) ∧
      Report.run l.store .none .everything ⟨true⟩ = .ok report ∧
      ∃ row ∈ report.rows, row.kind = .summary .distributor ∧ row.columns.totals.tax.toRat = 1 / 4 ∧
        let all := adjustmentsIn Dataset.strayTax.orders
        total (taxesOn (feesOf (kept.filter fun c => (Node.distributor ⟨1⟩).holds c.key) all) all) =
          5 / 4 := by
  obtain ⟨l, hload, -, hstore⟩ := Ledger.exists_load (d := .strayTax) rfl Dataset.distinct_strayTax
  let visible := Dataset.quarterTax.orders
  have hsearch : l.store.search .none .everything = .ok visible := by
    rw [hstore]
    cbv
  have htaxes : distributorTaxes (Report.run l.store .none .everything ⟨true⟩) = some [(25, 2)] := by
    rw [hstore]
    cbv
  cases hreport : Report.run l.store .none .everything ⟨true⟩ with
  | error e =>
    rw [hreport] at htaxes
    cases htaxes
  | ok report =>
    rw [hreport] at htaxes
    obtain ⟨row, hrow, hshown⟩ := List.map_eq_singleton_iff.1 (Option.some.inj htaxes)
    have hmem : row ∈ report.summaries .distributor := hrow ▸ List.mem_singleton_self row
    obtain ⟨hmem, hkind⟩ := List.mem_filter.1 hmem
    refine ⟨l, visible, Charge.ofOrders visible, report, hload, hsearch, rfl, ?_, ?_, hreport, row, hmem,
      of_decide_eq_true hkind, ?_, ?_⟩
    · unfold TaxesStay
      decide
    · unfold InRange
      decide
    · obtain ⟨hunits, hscale⟩ := Prod.mk.inj hshown
      rw [Decimal.toRat, hunits, hscale]
      norm_num [powerOfTen, Rat.mkRat_eq_div]
    · have hcounted : taxesOn (feesOf ((Charge.ofOrders visible).filter fun c =>
          (Node.distributor ⟨1⟩).holds c.key) (adjustmentsIn Dataset.strayTax.orders))
          (adjustmentsIn Dataset.strayTax.orders) = (adjustmentsIn Dataset.strayTax.orders).drop 1 := by
        decide
      intro all
      rw [hcounted]
      norm_num [total, adjustmentsIn, Dataset.strayTax, Dataset.quarterTax, Dataset.marketDay,
        hundredths, Decimal.mk?, Decimal.coefficientBound, Decimal.toRat, Decimal.units, powerOfTen,
        Rat.mkRat_eq_div]

end MarketFees
