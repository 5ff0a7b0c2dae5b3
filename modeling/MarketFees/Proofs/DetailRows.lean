import MarketFees.Proofs.Windows

namespace MarketFees

namespace Order

def Taxed (o : Order) (fee : FeeId) (rate : TaxRateId) : Prop :=
  ∃ tax ∈ o.adjustments, tax.originator = .taxRate rate ∧
    ∃ a ∈ o.adjustments, a.originator = .fee fee ∧ tax.adjustable = .adjustment a.id

/-- The order has all that a key names. A key without a rate is for a fee that is not taxed. -/
structure Bears (o : Order) (key : GroupKey) : Prop where
  distributor : o.distributor = key.distributor
  cycle : o.cycle = key.cycle
  supplier : ∃ item ∈ o.lineItems, item.supplier = key.supplier
  fee : ∃ a ∈ o.adjustments, a.originator = .fee key.fee
  taxed : ∀ rate, key.taxRate = some rate → o.Taxed key.fee rate
  untaxed : key.taxRate = none → ∀ rate, ¬o.Taxed key.fee rate

variable {o : Order} {key : GroupKey}

theorem mem_taxRates_feeAdjustments {fee : FeeId} {rate : TaxRateId} :
    rate ∈ o.taxRates (o.feeAdjustments fee) ↔ o.Taxed fee rate := by
  rw [mem_taxRates, Taxed]
  constructor
  · rintro ⟨tax, htax, horiginator, target, htarget, hadjustable⟩
    obtain ⟨a, ha, hfee, rfl⟩ := mem_feeAdjustments.1 htarget
    exact ⟨tax, htax, horiginator, a, ha, hfee, hadjustable⟩
  · rintro ⟨tax, htax, horiginator, a, ha, hfee, hadjustable⟩
    exact ⟨tax, htax, horiginator, a.id, mem_feeAdjustments.2 ⟨a, ha, hfee, rfl⟩, hadjustable⟩

theorem mem_taxOutcomes_feeAdjustments {fee : FeeId} {taxRate : Option TaxRateId} :
    taxRate ∈ o.taxOutcomes (o.feeAdjustments fee) ↔
      (∀ rate, taxRate = some rate → o.Taxed fee rate) ∧
        (taxRate = none → ∀ rate, ¬o.Taxed fee rate) := by
  cases taxRate with
  | none =>
    rw [none_mem_taxOutcomes]
    simp only [mem_taxRates_feeAdjustments, reduceCtorEq, false_implies, implies_true, true_implies,
      true_and]
  | some rate =>
    rw [some_mem_taxOutcomes, mem_taxRates_feeAdjustments]
    simp

theorem bears_iff : o.Bears key ↔ ∃ c ∈ o.charges, c.key = key := by
  constructor
  · intro h
    have hfee := mem_fees.2 h.fee
    have htaxRate := mem_taxOutcomes_feeAdjustments.2 ⟨h.taxed, h.untaxed⟩
    have hsupplier := mem_suppliers.2 h.supplier
    refine ⟨⟨o, key.fee, key.taxRate, key.supplier⟩, mem_charges.2 ⟨rfl, hfee, htaxRate, hsupplier⟩, ?_⟩
    rw [Charge.key, h.distributor, h.cycle]
  · rintro ⟨c, hc, rfl⟩
    obtain ⟨rfl, hfee, htaxRate, hsupplier⟩ := mem_charges.1 hc
    obtain ⟨htaxed, huntaxed⟩ := mem_taxOutcomes_feeAdjustments.1 htaxRate
    exact ⟨rfl, rfl, mem_suppliers.1 hsupplier, mem_fees.1 hfee, htaxed, huntaxed⟩

instance (o : Order) (key : GroupKey) : Decidable (o.Bears key) :=
  decidable_of_iff _ bears_iff.symm

end Order

/-- The lists of producers, fees and fee owners that are not empty have what a key names. -/
structure Filters.AdmitsCharge (f : Filters) (catalog : Catalog) (key : GroupKey) : Prop where
  producer : f.producers = [] ∨ key.supplier ∈ f.producers
  fee : f.fees = [] ∨ key.fee ∈ f.fees
  feeOwner : f.feeOwners = [] ∨ ∃ fee, catalog.fee key.fee = .ok (some fee) ∧ fee.owner ∈ f.feeOwners

theorem Charge.admitted_iff {f : Filters} {catalog : Catalog} {c : Charge} :
    c.admitted f (Report.ownerOf catalog) = true ↔ f.AdmitsCharge catalog c.key := by
  simp only [admitted, passes, Filters.allowsProducer, Filters.allowsFee, Bool.and_eq_true,
    Filters.allows_iff, Filters.allowsFeeOwner_iff]
  constructor
  · rintro ⟨⟨hproducer, hfee⟩, howner⟩
    exact ⟨hproducer, hfee, howner⟩
  · rintro ⟨hproducer, hfee, howner⟩
    exact ⟨⟨hproducer, hfee⟩, howner⟩

namespace Catalog

variable {catalog : Catalog}

/-- Where a detail row with this key stands: the names and the start that the catalog has for the ids
of the key, each name before its id. -/
def position (catalog : Catalog) (key : GroupKey) : Except StoreError SortKey := do
  let distributor ← catalog.enterprise key.distributor
  let producer ← catalog.enterprise key.supplier
  let cycle ← catalog.cycle key.cycle
  let fee ← catalog.fee key.fee
  let rate ← catalog.rate key.taxRate
  return {
    distributorName := distributor.map (·.name)
    distributor := key.distributor
    producerName := producer.map (·.name)
    supplier := key.supplier
    opensAt := cycle.bind (·.opensAt)
    cycleName := cycle.map (·.name)
    cycle := key.cycle
    feeName := fee.map (·.name)
    fee := key.fee
    taxRateName := rate.map (·.name)
    taxRate := key.taxRate }

theorem position_of_sortKey {key : GroupKey} {totals : Totals} {columns : Columns} {position : SortKey}
    (hcolumns : catalog.columns key totals = .ok columns)
    (hposition : catalog.sortKey key columns = .ok position) : catalog.position key = .ok position := by
  obtain ⟨distributor, hdistributor, h⟩ := bind_eq_ok.1 hcolumns
  obtain ⟨producer, hproducer, h⟩ := bind_eq_ok.1 h
  obtain ⟨cycle, hcycle, h⟩ := bind_eq_ok.1 h
  obtain ⟨fee, hfee, h⟩ := bind_eq_ok.1 h
  obtain ⟨owner, howner, h⟩ := bind_eq_ok.1 h
  obtain ⟨rate, hrate, h⟩ := bind_eq_ok.1 h
  cases h
  rw [sortKey, hcycle, ok_bind] at hposition
  cases hposition
  rw [Catalog.position, hdistributor, hproducer, hcycle, hfee, hrate]
  rfl

end Catalog

namespace Report

variable {orders : List Order} {f : Filters} {amounts : AmountSource} {catalog : Catalog}

def scopeOf (orders : List Order) (key : GroupKey) : Scope where
  orders := .ofList ((orders.filter (·.Bears key)).map (·.id))
  fees := .ofList [key.fee]
  taxRates := .ofList key.taxRate.toList

theorem mem_kept_iff {kept : List Charge}
    (hkept : Charge.retain f (ownerOf catalog) (Charge.ofOrders orders) = .ok kept) {c : Charge} :
    c ∈ kept ↔ f.AdmitsCharge catalog c.key ∧ c.order ∈ orders ∧ c ∈ c.order.charges := by
  rw [Charge.retain_eq_ok hkept, List.mem_filter, Charge.mem_ofOrders, Charge.admitted_iff, and_comm]

theorem exists_kept_iff {kept : List Charge}
    (hkept : Charge.retain f (ownerOf catalog) (Charge.ofOrders orders) = .ok kept) {key : GroupKey} :
    (∃ c ∈ kept, c.key = key) ↔ f.AdmitsCharge catalog key ∧ ∃ o ∈ orders, o.Bears key := by
  constructor
  · rintro ⟨c, hc, rfl⟩
    obtain ⟨hadmitted, horder, hcharge⟩ := (mem_kept_iff hkept).1 hc
    exact ⟨hadmitted, c.order, horder, Order.bears_iff.2 ⟨c, hcharge, rfl⟩⟩
  · rintro ⟨hadmitted, o, ho, hbears⟩
    obtain ⟨c, hc, rfl⟩ := Order.bears_iff.1 hbears
    obtain ⟨rfl, -⟩ := Order.mem_charges.1 hc
    exact ⟨c, (mem_kept_iff hkept).2 ⟨hadmitted, ho, hc⟩, rfl⟩

/-- The charges of one key have the scope of the orders that bear it. -/
theorem scope_eq_scopeOf {kept : List Charge}
    (hkept : Charge.retain f (ownerOf catalog) (Charge.ofOrders orders) = .ok kept) {c : Charge}
    (hc : c ∈ kept) : Scope.ofCharges (kept.filter (·.key = c.key)) = scopeOf orders c.key := by
  obtain ⟨g, hg, hkey⟩ := Group.exists_mem_ofCharges hc
  obtain ⟨hadmitted, -, -⟩ := (mem_kept_iff hkept).1 hc
  rw [← hkey, ← Group.scope_eq hg]
  refine Scope.ext_mem (fun id => ?_) (fun _ => .rfl) (fun _ => .rfl)
  rw [Group.scope, scopeOf, SortedSet.mem_ofList, SortedSet.mem_ofList, (Group.mem_ofCharges hg).1, hkey]
  simp only [List.mem_map, List.mem_filter, decide_eq_true_iff]
  constructor
  · rintro ⟨o, ⟨other, ⟨hother, hsame⟩, rfl⟩, rfl⟩
    obtain ⟨-, horder, hcharge⟩ := (mem_kept_iff hkept).1 hother
    exact ⟨other.order, ⟨horder, Order.bears_iff.2 ⟨other, hcharge, hsame⟩⟩, rfl⟩
  · rintro ⟨o, ⟨ho, hbears⟩, rfl⟩
    obtain ⟨other, hcharge, hsame⟩ := Order.bears_iff.1 hbears
    obtain ⟨rfl, -⟩ := Order.mem_charges.1 hcharge
    have hother : other ∈ kept := (mem_kept_iff hkept).2 ⟨hsame ▸ hadmitted, ho, hcharge⟩
    exact ⟨other.order, ⟨other, ⟨hother, hsame⟩, rfl⟩, rfl⟩

/-- With and without summaries a report has a row for each detail, in the order of the details. -/
theorem details_eq {groups : List Group} {entries : List (SortKey × Detail)} {options : Options}
    {report : Report} (hentries : groups.mapM (entry amounts catalog) = .ok entries)
    (hrows : Detail.assemble amounts options.summaries (sortByKey entries) = .ok report.rows) :
    report.details = (sortByKey entries).map Detail.row := by
  cases hsummaries : options.summaries with
  | false =>
    rw [hsummaries] at hrows
    have hrows : report.rows = (sortByKey entries).map Detail.row := (Except.ok.inj hrows).symm
    rw [details, hrows, List.filter_eq_self]
    intro row hrow
    obtain ⟨d, -, rfl⟩ := List.mem_map.1 hrow
    rfl
  | true =>
    rw [hsummaries] at hrows
    obtain ⟨blocks, hblocks, hshown⟩ := Detail.exists_shown (ordered_sortByKey hentries) hrows
    rw [details, ← hblocks, hshown.rows]

theorem positions_increase {charges : List Charge} {entries : List (SortKey × Detail)}
    (h : (Group.ofCharges charges).mapM (entry amounts catalog) = .ok entries) :
    ((sortByKey entries).map (·.key)).mapM catalog.position = .ok ((sortBy (·.1) entries).map (·.1)) ∧
      ((sortBy (·.1) entries).map (·.1)).Pairwise fun a b => compare a b = .lt := by
  constructor
  · have hsorted : sortByKey entries = (sortBy (·.1) entries).map (·.2) := rfl
    rw [hsorted, List.map_map, List.mapM_map]
    apply mapM_eq_ok
    rintro ⟨position, d⟩ hx
    obtain ⟨g, -, hentry⟩ := exists_of_mem_mapM h (mem_sortBy.1 hx)
    obtain ⟨totals, -, hplaced⟩ := entry_eq_ok.1 hentry
    obtain ⟨columns, hcolumns, hposition, rfl⟩ := Catalog.placed_eq_ok.1 hplaced
    exact Catalog.position_of_sortKey hcolumns hposition
  · exact List.pairwise_map.2 (sortBy_increasing (nodup_positions h))

/-- The detail rows of a report: their keys are those that some order bears and that the filters admit,
each once; by the names and ids of the keys the rows increase strictly; and each row has the totals of
the orders that bear its key, of the fee and of the rate. -/
theorem ofOrders_details {options : Options} {report : Report}
    (h : ofOrders orders f amounts catalog options = .ok report) :
    ∃ (keys : List GroupKey) (positions : List SortKey),
      report.details.map (·.key) = keys.map some ∧ keys.Nodup ∧
      (∀ key, key ∈ keys ↔ f.AdmitsCharge catalog key ∧ ∃ o ∈ orders, o.Bears key) ∧
      keys.mapM catalog.position = .ok positions ∧
      (positions.Pairwise fun a b => compare a b = .lt) ∧
      ∀ row ∈ report.details, ∀ key ∈ row.key,
        Totals.ofScope amounts (scopeOf orders key) = .ok row.columns.totals := by
  obtain ⟨kept, entries, hkept, hentries, hrows⟩ := ofOrders_eq_ok.1 h
  have hdetails := details_eq hentries hrows
  have hdetailed := Detailed.sortByKey hentries
  obtain ⟨hpositions, hincrease⟩ := positions_increase hentries
  refine ⟨(sortByKey entries).map (·.key), _, ?_, hdetailed.nodup, ?_, hpositions, hincrease, ?_⟩
  · rw [hdetails, List.map_map, List.map_map]
    rfl
  · intro key
    rw [← exists_kept_iff hkept, List.mem_map]
    constructor
    · rintro ⟨d, hd, rfl⟩
      exact hdetailed.exists_charge d hd
    · rintro ⟨c, hc, rfl⟩
      exact hdetailed.exists_detail c hc
  · intro row hrow key hkey
    rw [hdetails] at hrow
    obtain ⟨d, hd, rfl⟩ := List.mem_map.1 hrow
    obtain rfl : d.key = key := Option.some.inj hkey
    obtain ⟨c, hc, hckey⟩ := hdetailed.exists_charge d hd
    rw [← hckey, ← scope_eq_scopeOf hkept hc, hckey]
    exact hdetailed.totals d hd

theorem ofOrders_twoRates_details :
    let s := Snapshot.ofDataset .twoRates
    ∃ (report : Report) (keys : List GroupKey) (positions : List SortKey),
      ofOrders s.orders .none s.store.amounts s.store.catalog ⟨true⟩ = .ok report ∧
      report.details.map (·.key) = keys.map some ∧
      (∀ taxRate ∈ [none, some ⟨1⟩, some ⟨2⟩], ⟨taxRate, ⟨1⟩, ⟨2⟩, ⟨1⟩, ⟨1⟩⟩ ∈ keys) ∧
      keys.mapM s.store.catalog.position = .ok positions ∧
      (positions.Pairwise fun a b => compare a b = .lt) ∧
      ∀ row ∈ report.details, ∀ key ∈ row.key,
        Totals.ofScope s.store.amounts (scopeOf s.orders key) = .ok row.columns.totals := by
  intro s
  have hbooked : Booked s.orders := by
    constructor <;> decide
  have hrange : InRange (adjustmentsIn s.orders) := by
    unfold InRange
    decide
  obtain ⟨report, hreport, -⟩ :=
    exists_accounts (hrange.exists_totals hbooked) s.readable s.orders .none ⟨true⟩
  obtain ⟨keys, positions, hkeys, -, hmem, hpositions, hincrease, htotals⟩ := ofOrders_details hreport
  refine ⟨report, keys, positions, hreport, hkeys, ?_, hpositions, hincrease, htotals⟩
  intro taxRate htaxRate
  refine (hmem _).2 ⟨⟨.inl rfl, .inl rfl, .inl rfl⟩, ?_⟩
  revert taxRate
  decide

end Report

end MarketFees
