import MarketFees.Proofs.DetailRows
import MarketFees.Proofs.Rearranged
import MarketFees.Proofs.RowNumbers

namespace MarketFees

namespace Order.Reordered

variable {o o' : Order}

theorem taxed (h : o.Reordered o') {fee : FeeId} {rate : TaxRateId} (htaxed : o.Taxed fee rate) :
    o'.Taxed fee rate := by
  obtain ⟨tax, htax, horiginator, a, ha, hfee, hadjustable⟩ := htaxed
  exact ⟨tax, h.adjustments.mem_iff.1 htax, horiginator, a, h.adjustments.mem_iff.1 ha, hfee, hadjustable⟩

theorem bears (h : o.Reordered o') {key : GroupKey} (hbears : o.Bears key) : o'.Bears key where
  distributor := by
    have hdistributor : o.header.distributor = o'.header.distributor := by rw [h.header]
    exact hdistributor.symm.trans hbears.distributor
  cycle := by
    have hcycle : o.header.cycle = o'.header.cycle := by rw [h.header]
    exact hcycle.symm.trans hbears.cycle
  supplier := by
    obtain ⟨item, hitem, hsupplier⟩ := hbears.supplier
    exact ⟨item, h.lineItems.mem_iff.1 hitem, hsupplier⟩
  fee := by
    obtain ⟨a, ha, hfee⟩ := hbears.fee
    exact ⟨a, h.adjustments.mem_iff.1 ha, hfee⟩
  taxed rate hrate := h.taxed (hbears.taxed rate hrate)
  untaxed hnone rate htaxed := hbears.untaxed hnone rate (h.symm.taxed htaxed)

theorem matchesOrder_eq (h : o.Reordered o') (f : Filters) : f.matchesOrder o = f.matchesOrder o' := by
  have hmatches : f.matchesOrder o.header = f.matchesOrder o'.header := by rw [h.header]
  exact hmatches

end Order.Reordered

namespace Report

variable {orders others : List Order} {f : Filters} {catalog : Catalog} {kept kept' : List Charge}

theorem scopeOf_rearranged (h : OrdersRearranged orders others) (key : GroupKey) :
    scopeOf orders key = scopeOf others key := by
  apply Scope.ext_mem
  · intro id
    simp only [scopeOf, SortedSet.mem_ofList, List.mem_map, List.mem_filter, decide_eq_true_iff, and_assoc]
    exact h.exists_iff fun _ _ hsame hid => ⟨hsame.bears hid.1, hsame.id_eq.symm.trans hid.2⟩
  · exact fun _ => .rfl
  · exact fun _ => .rfl

/-- The groups of charges by the keys that the orders bear. -/
theorem groups_eq (hkept : Charge.retain f (ownerOf catalog) (Charge.ofOrders orders) = .ok kept) :
    (Group.ofCharges kept).map (fun g => (g.key, g.scope)) =
      (SortedSet.ofList (kept.map (·.key))).toList.map fun key => (key, scopeOf orders key) := by
  have hscope : ∀ g ∈ Group.ofCharges kept, (g.key, g.scope) = (g.key, scopeOf orders g.key) := by
    intro g hg
    obtain ⟨-, c, hc, hkey⟩ := Group.mem_ofCharges hg
    rw [Group.scope_eq hg, ← hkey, scope_eq_scopeOf hkept hc]
  rw [List.map_congr_left hscope, Group.ofCharges, List.map_map]
  rfl

theorem groups_rearranged (h : OrdersRearranged orders others)
    (hkept : Charge.retain f (ownerOf catalog) (Charge.ofOrders orders) = .ok kept)
    (hkept' : Charge.retain f (ownerOf catalog) (Charge.ofOrders others) = .ok kept') :
    (Group.ofCharges kept).map (fun g => (g.key, g.scope)) =
      (Group.ofCharges kept').map fun g => (g.key, g.scope) := by
  have hkeys : SortedSet.ofList (kept.map (·.key)) = SortedSet.ofList (kept'.map (·.key)) := by
    apply SortedSet.ext_mem
    intro key
    rw [SortedSet.mem_ofList, SortedSet.mem_ofList, List.mem_map, List.mem_map, exists_kept_iff hkept,
      exists_kept_iff hkept']
    exact and_congr_right fun _ => h.exists_iff fun _ _ hsame hbears => hsame.bears hbears
  rw [groups_eq hkept, groups_eq hkept', hkeys]
  simp only [scopeOf_rearranged h]

end Report

section Sums

variable {adjustments others : List Adjustment}

theorem largestScale_perm (h : (adjustments.map (·.amount)).Perm (others.map (·.amount))) :
    largestScale adjustments = largestScale others := by
  have hscales := h.map (·.scale)
  rw [List.map_map, List.map_map] at hscales
  exact hscales.foldr_op_eq

theorem InRange.of_amounts (hrange : InRange adjustments)
    (h : (adjustments.map (·.amount)).Perm (others.map (·.amount))) : InRange others := by
  have hunits := h.map fun amount => (amount.unitsAt (largestScale others)).natAbs
  rw [List.map_map, List.map_map] at hunits
  rw [InRange, largestScale_perm h] at hrange
  rw [InRange]
  exact hunits.sum_eq ▸ hrange

theorem unitsIn_perm (h : adjustments.Perm others) (scale : Nat) :
    unitsIn scale adjustments = unitsIn scale others :=
  (h.map _).sum_eq

namespace Scope

variable {scope : Scope}

theorem feesIn_perm (h : adjustments.Perm others) : (scope.feesIn adjustments).Perm (scope.feesIn others) :=
  h.filter _

theorem taxesIn_perm (h : adjustments.Perm others) :
    (scope.taxesIn adjustments).Perm (scope.taxesIn others) := by
  have hcharged : scope.charged adjustments = scope.charged others := by
    apply SortedSet.ext_mem
    intro id
    rw [charged, charged, SortedSet.mem_ofList, SortedSet.mem_ofList, ((feesIn_perm h).map _).mem_iff]
  rw [taxesIn, taxesIn, hcharged]
  exact h.filter _

theorem ratedIn_perm (h : adjustments.Perm others) :
    (scope.ratedIn adjustments).Perm (scope.ratedIn others) :=
  (taxesIn_perm h).filter _

end Scope

theorem Totals.Counts.numbers_eq {totals totals' : Totals} {scale : Nat} {m n : Int}
    (h : totals.Counts scale m n) (h' : totals'.Counts scale m n) : totals.numbers = totals'.numbers := by
  rw [numbers, numbers, h.exclTax.toRat_eq, h.tax.toRat_eq, h.inclTax.toRat_eq, h'.exclTax.toRat_eq,
    h'.tax.toRat_eq, h'.inclTax.toRat_eq]

/-- In range the sequence of the adjustments makes no difference to the numbers. -/
theorem InRange.agreeInNumbers (hrange : InRange adjustments) (hperm : adjustments.Perm others)
    {a b : AmountSource} (ha : a.Over adjustments) (hb : b.Over others) : a.AgreeInNumbers b := by
  intro scope
  have hrange' : InRange others := hrange.of_amounts (hperm.map _)
  obtain ⟨totals, htotals, hcounts⟩ := hrange.exists_ofScope_over ha scope
  obtain ⟨totals', htotals', hcounts'⟩ := hrange'.exists_ofScope_over hb scope
  rw [largestScale_perm (hperm.map _), unitsIn_perm (Scope.feesIn_perm hperm),
    unitsIn_perm ((Scope.taxesIn_perm hperm).filter _), unitsIn_perm (Scope.ratedIn_perm hperm)] at hcounts
  rw [htotals, htotals']
  exact congrArg Except.ok (hcounts.numbers_eq hcounts')

end Sums

namespace Snapshot

variable {d d' : Dataset}

theorem order_eq_owned {orders : List Order} :
    ∀ o ∈ orders.map owned, ∀ a ∈ o.adjustments, a.order = o.id := by
  intro o ho a ha
  obtain ⟨o, -, rfl⟩ := List.mem_map.1 ho
  obtain ⟨a, -, rfl⟩ := List.mem_map.1 ha
  rfl

theorem amounts_owned (orders : List Order) :
    (adjustmentsIn (orders.map owned)).map (·.amount) = (adjustmentsIn orders).map (·.amount) := by
  rw [adjustmentsIn, adjustmentsIn, List.flatMap_map, List.map_flatMap, List.map_flatMap]
  apply List.flatMap_congr
  intro o _
  exact List.map_map

theorem catalog_rearranged (h : d.Rearranged d') (hdefined : d.DefinedOnce) :
    (ofDataset d).store.catalog = (ofDataset d').store.catalog := by
  have henterprises : (ofDataset d).enterprises = (ofDataset d').enterprises :=
    Table.foldl_put_perm h.enterprises hdefined.enterprises ∅
  have hfees : (ofDataset d).fees = (ofDataset d').fees :=
    Table.foldl_put_perm h.fees hdefined.fees ∅
  have htaxRates : (ofDataset d).taxRates = (ofDataset d').taxRates :=
    Table.foldl_put_perm h.taxRates hdefined.taxRates ∅
  have hcycles : (ofDataset d).cycles = (ofDataset d').cycles :=
    Table.foldl_put_perm h.cycles hdefined.cycles ∅
  simp only [store, henterprises, hfees, htaxRates, hcycles]

theorem search_rearranged (h : d.Rearranged d') (f : Filters) {permission : Permission}
    (hpermission : ∀ o o', o.Reordered o' → permission o = permission o') :
    OrdersRearranged ((ofDataset d).search f permission) ((ofDataset d').search f permission) := by
  have howned : OrdersRearranged (ofDataset d).orders (ofDataset d').orders :=
    h.orders.map fun _ _ hsame => hsame.owned
  apply howned.filter
  intro o o' hsame
  rw [hsame.matchesOrder_eq f, hpermission o o' hsame]

end Snapshot

/-- A dataset with distinct definitions makes a report, if its amounts are in range, and whatever the
sequence in which it lists its records the report has the same rows with the same numbers. -/
theorem run_rearranged {d d' : Dataset} (h : d.Rearranged d') (hdefined : d.DefinedOnce)
    (hrange : InRange (adjustmentsIn d.orders)) (f : Filters) {permission : Permission}
    (hpermission : ∀ o o', o.Reordered o' → permission o = permission o') (options : Report.Options) :
    ∃ report report', Report.run (Snapshot.ofDataset d).store f permission options = .ok report ∧
      Report.run (Snapshot.ofDataset d').store f permission options = .ok report' ∧
      report.inNumbers = report'.inNumbers := by
  let s := Snapshot.ofDataset d
  let s' := Snapshot.ofDataset d'
  have hover : s.store.amounts.Over (adjustmentsIn s.orders) := Snapshot.amounts_over Snapshot.order_eq_owned
  have hover' : s'.store.amounts.Over (adjustmentsIn s'.orders) :=
    Snapshot.amounts_over Snapshot.order_eq_owned
  have hrange : InRange (adjustmentsIn s.orders) :=
    hrange.of_amounts (.of_eq (Snapshot.amounts_owned d.orders).symm)
  have hadjustments : (adjustmentsIn s.orders).Perm (adjustmentsIn s'.orders) :=
    (h.orders.map fun _ _ hsame => hsame.owned).flatMap_perm fun _ _ hsame => hsame.adjustments
  have hab : s.store.amounts.AgreeInNumbers s'.store.amounts :=
    hrange.agreeInNumbers hadjustments hover hover'
  have hsearch := Snapshot.search_rearranged h f hpermission
  have hcatalog := Snapshot.catalog_rearranged h hdefined
  have hkept (orders : List Order) : Charge.retain f (Report.ownerOf s.store.catalog)
      (Charge.ofOrders orders) = .ok _ := Charge.retain_eq fun fee => Report.exists_ownerOf s.readable fee
  have hsame := Report.ofOrders_inNumbers hab hsearch.isEmpty_eq (hkept _) (hkept _)
    (Report.groups_rearranged hsearch (hkept _) (hkept _)) options
  have htotals (scope : Scope) : ∃ totals, Totals.ofScope s.store.amounts scope = .ok totals := by
    obtain ⟨totals, htotals, -⟩ := hrange.exists_ofScope_over hover scope
    exact ⟨totals, htotals⟩
  obtain ⟨report, hreport, -⟩ :=
    Report.exists_accounts htotals s.readable (s.search f permission) f options
  have hrun' : Report.run s'.store f permission options = Report.ofOrders (s'.search f permission) f
      s'.store.amounts s.store.catalog options := by
    rw [hcatalog]
    rfl
  rw [hreport, ← hrun'] at hsame
  cases hreport' : Report.run s'.store f permission options with
  | error e =>
    rw [hreport'] at hsame
    cases hsame
  | ok report' =>
    rw [hreport'] at hsame
    exact ⟨report, report', hreport, rfl, Except.ok.inj hsame⟩

theorem run_twoDays_reversed :
    let d := Dataset.twoDays
    let turned (o : Order) : Order :=
      { o with lineItems := o.lineItems.reverse, adjustments := o.adjustments.reverse }
    let d' : Dataset := {
      enterprises := d.enterprises.reverse
      cycles := d.cycles.reverse
      fees := d.fees.reverse
      taxRates := d.taxRates.reverse
      orders := (d.orders.map turned).reverse }
    d.Rearranged d' ∧ d.DefinedOnce ∧ InRange (adjustmentsIn d.orders) ∧
      ∃ report report', Report.run (Snapshot.ofDataset d).store .none .everything ⟨true⟩ = .ok report ∧
        Report.run (Snapshot.ofDataset d').store .none .everything ⟨true⟩ = .ok report' ∧
        report.inNumbers = report'.inNumbers := by
  intro d turned d'
  have hturned (o : Order) : o.Reordered (turned o) :=
    ⟨rfl, (List.reverse_perm _).symm, (List.reverse_perm _).symm⟩
  have horders : List.Forall₂ Order.Reordered d.orders (d.orders.map turned) :=
    List.forall₂_map_right_iff.2 (List.forall₂_same.2 fun o _ => hturned o)
  have hrearranged : d.Rearranged d' := {
    enterprises := (List.reverse_perm _).symm
    cycles := (List.reverse_perm _).symm
    fees := (List.reverse_perm _).symm
    taxRates := (List.reverse_perm _).symm
    orders := ⟨d.orders.map turned, horders, (List.reverse_perm _).symm⟩ }
  have hdefined : d.DefinedOnce := by constructor <;> decide
  have hrange : InRange (adjustmentsIn d.orders) := by
    unfold InRange
    decide
  exact ⟨hrearranged, hdefined, hrange,
    run_rearranged hrearranged hdefined hrange .none (fun _ _ _ => rfl) ⟨true⟩⟩

end MarketFees
