import MarketFees.Proofs.Scopes
import MarketFees.Proofs.Visibility

namespace MarketFees

/-- Parts without a common element that have all elements of a list make up the list. -/
theorem flatMap_perm {parts : List ι} {f : ι → List α} {l : List α} (hl : l.Nodup)
    (hparts : ∀ i ∈ parts, (f i).Nodup) (hmem : ∀ a, a ∈ l ↔ ∃ i ∈ parts, a ∈ f i)
    (hdisjoint : parts.Pairwise fun i j => ∀ a ∈ f i, a ∉ f j) : (parts.flatMap f).Perm l := by
  have hnodup : (parts.flatMap f).Nodup := List.nodup_flatMap.2 ⟨hparts, hdisjoint⟩
  rw [List.perm_ext_iff_of_nodup hnodup hl]
  intro a
  rw [List.mem_flatMap, hmem]

theorem filter_key_perm [DecidableEq κ] {key : α → κ} {l : List α} (hl : l.Nodup) {keys : List κ}
    (hkeys : keys.Nodup) (hmem : ∀ a ∈ l, key a ∈ keys) :
    (keys.flatMap fun k => l.filter (key · = k)).Perm l := by
  refine flatMap_perm hl (fun k _ => hl.filter _) (fun a => ?_) (hkeys.imp ?_)
  · constructor
    · exact fun ha => ⟨key a, hmem a ha, List.mem_filter.2 ⟨ha, decide_eq_true rfl⟩⟩
    · rintro ⟨k, -, ha⟩
      exact (List.mem_filter.1 ha).1
  · intro k k' hne a ha ha'
    exact hne ((of_decide_eq_true (List.mem_filter.1 ha).2).symm.trans
      (of_decide_eq_true (List.mem_filter.1 ha').2))

theorem Id.value_inj {a b : Id entity} : a.value = b.value ↔ a = b := by
  cases a
  cases b
  simp

namespace AmountQuery

variable {q : AmountQuery} {a : Adjustment} {orders : SortedSet OrderId}
  {charged : SortedSet AdjustmentId}

theorem selects_iff : q.selects a = true ↔ a.kind = q.kind ∧ a.order ∈ q.orders ∧
    (∀ numbers ∈ q.originators, a.originator.number ∈ numbers) ∧
    (∀ ids ∈ q.adjustables, ∃ id ∈ ids, a.adjustable = .adjustment id) ∧
    ∀ included ∈ q.included, a.included = included := by
  have hadjustable : q.admitsAdjustable a.adjustable = true ↔
      ∀ ids ∈ q.adjustables, ∃ id ∈ ids, a.adjustable = .adjustment id := by
    rw [admitsAdjustable, Option.all_eq_true]
    cases a.adjustable <;> simp
  simp only [selects, Bool.and_eq_true, hadjustable, decide_eq_true_eq, admitsOriginator,
    Option.all_eq_true, beq_iff_eq, and_assoc, eq_comm (a := a.included), Option.mem_def]

theorem selects_eq_false {other : AmountQuery} (h : q.selects a = true) (hkind : q.kind ≠ other.kind) :
    other.selects a = false := by
  rw [Bool.eq_false_iff]
  intro hother
  exact hkind ((selects_iff.1 h).1.symm.trans (selects_iff.1 hother).1)

theorem selects_fees {fees : SortedSet FeeId} :
    ((AmountQuery.fees orders).forFees fees.toList).selects a = true ↔
      a.order ∈ orders ∧ ∃ fee ∈ fees, a.originator = .fee fee := by
  have hkind : a.kind = a.originator.kind := rfl
  rw [selects_iff, hkind]
  cases a.originator with
  | fee id =>
    simp [AmountQuery.fees, forFees, Originator.kind, Originator.number, SortedSet.mem_ofList,
      Id.value_inj, SortedSet.mem_toList]
  | taxRate id => simp [AmountQuery.fees, forFees, Originator.kind]

theorem selects_taxes : ((AmountQuery.taxes orders).onAdjustments charged).selects a = true ↔
    a.kind = .tax ∧ a.order ∈ orders ∧ ∃ id ∈ charged, a.adjustable = .adjustment id := by
  rw [selects_iff]
  simp [AmountQuery.taxes, onAdjustments]

theorem selects_withIncluded :
    (((AmountQuery.taxes orders).onAdjustments charged).withIncluded true).selects a =
      (((AmountQuery.taxes orders).onAdjustments charged).selects a && a.included) := by
  rw [Bool.eq_iff_iff, Bool.and_eq_true, selects_taxes, selects_iff]
  simp [AmountQuery.taxes, onAdjustments, withIncluded, and_assoc]

theorem selects_forTaxRates {rates : SortedSet TaxRateId} :
    (((AmountQuery.taxes orders).onAdjustments charged).forTaxRates rates.toList).selects a =
      (((AmountQuery.taxes orders).onAdjustments charged).selects a &&
        rates.toList.any (a.originator = .taxRate ·)) := by
  have hkind : a.kind = a.originator.kind := rfl
  rw [Bool.eq_iff_iff, Bool.and_eq_true, selects_taxes, selects_iff, hkind]
  cases a.originator with
  | fee id => simp [AmountQuery.taxes, onAdjustments, forTaxRates, Originator.kind]
  | taxRate id =>
    simp [AmountQuery.taxes, onAdjustments, forTaxRates, Originator.kind, Originator.number,
      SortedSet.mem_ofList, Id.value_inj, and_left_comm, and_comm]

end AmountQuery

def adjustmentsIn (orders : List Order) : List Adjustment :=
  orders.flatMap (·.adjustments)

/-- Orders whose adjustments name them, where no id is given twice. -/
structure Booked (orders : List Order) : Prop where
  ids : (orders.map (·.id)).Nodup
  order_eq : ∀ o ∈ orders, ∀ a ∈ o.adjustments, a.order = o.id
  adjustmentIds : ((adjustmentsIn orders).map (·.id)).Nodup

namespace Booked

variable {orders : List Order}

theorem filter (h : Booked orders) (p : Order → Bool) : Booked (orders.filter p) where
  ids := h.ids.sublist (List.filter_sublist.map _)
  order_eq o ho := h.order_eq o (List.mem_filter.1 ho).1
  adjustmentIds := h.adjustmentIds.sublist ((List.filter_sublist.flatMap _).map _)

theorem nodup_adjustments (h : Booked orders) : (adjustmentsIn orders).Nodup :=
  h.adjustmentIds.of_map

theorem mem_adjustments (h : Booked orders) {o : Order} (ho : o ∈ orders) {a : Adjustment}
    (ha : a ∈ adjustmentsIn orders) (horder : a.order = o.id) : a ∈ o.adjustments := by
  obtain ⟨o', ho', ha⟩ := List.mem_flatMap.1 ha
  have hid : o'.id = o.id := (h.order_eq o' ho' a ha).symm.trans horder
  rwa [← List.inj_on_of_nodup_map h.ids ho' ho hid]

end Booked

/-- Where the adjustments name their orders, a query selects from all of them, whatever orders it asks
about. -/
theorem Snapshot.selected_eq {s : Snapshot} (h : ∀ o ∈ s.orders, ∀ a ∈ o.adjustments, a.order = o.id)
    (q : AmountQuery) : s.selected q = (adjustmentsIn s.orders).filter q.selects := by
  rw [selected, adjustmentsIn, List.filter_flatMap, List.filter_flatMap]
  apply flatMap_filter_of_eq_nil
  intro o ho hother
  apply List.filter_eq_nil_iff.2
  intro a ha hselects
  have horder := (AmountQuery.selects_iff.1 hselects).2.1
  rw [h o ho a ha] at horder
  exact of_decide_eq_false hother horder

theorem Ledger.Sound.adjustmentsIn_perm {l : Ledger} (h : l.Sound) :
    (adjustmentsIn l.snapshot.orders).Perm l.readAdjustments := by
  have hperm : ((l.readHeaders.map (·.id)).flatMap fun id =>
      l.readAdjustments.filter (·.order = id)).Perm l.readAdjustments :=
    filter_key_perm h.adjustmentIds_increasing.nodup_keys.of_map h.ids_increasing.nodup_keys
      fun _ ha => h.mem_ids_of_mem_readAdjustments ha
  rw [List.flatMap_map] at hperm
  rw [adjustmentsIn, snapshot, List.flatMap_map]
  exact hperm

theorem Ledger.Sound.booked {l : Ledger} (h : l.Sound) : Booked l.snapshot.orders where
  ids := h.nodup_ids
  order_eq o ho a ha := by
    obtain ⟨header, -, rfl⟩ := List.mem_map.1 ho
    exact of_decide_eq_true (List.mem_filter.1 ha).2
  adjustmentIds :=
    (h.adjustmentsIn_perm.map _).nodup_iff.2 h.adjustmentIds_increasing.nodup_keys

/-- The fees that charges stand for. -/
def feesOf (charges : List Charge) (adjustments : List Adjustment) : List Adjustment :=
  adjustments.filter fun a => charges.any fun c => c.order.id = a.order ∧ a.originator = .fee c.fee

/-- The taxes that are charged on fees. -/
def taxesOn (fees adjustments : List Adjustment) : List Adjustment :=
  adjustments.filter fun a => a.kind = .tax ∧ fees.any (a.adjustable = .adjustment ·.id)

namespace Scope

/-- The fees that a scope selects. -/
def feesIn (scope : Scope) (adjustments : List Adjustment) : List Adjustment :=
  adjustments.filter ((AmountQuery.fees scope.orders).forFees scope.fees.toList).selects

def charged (scope : Scope) (adjustments : List Adjustment) : SortedSet AdjustmentId :=
  .ofList ((scope.feesIn adjustments).map (·.id))

/-- The taxes that a scope selects, of whatever rate. -/
def taxesIn (scope : Scope) (adjustments : List Adjustment) : List Adjustment :=
  adjustments.filter
    ((AmountQuery.taxes scope.orders).onAdjustments (scope.charged adjustments)).selects

/-- The taxes that a scope selects, of its own rates. -/
def ratedIn (scope : Scope) (adjustments : List Adjustment) : List Adjustment :=
  (scope.taxesIn adjustments).filter fun tax => scope.taxRates.toList.any (tax.originator = .taxRate ·)

variable {scope : Scope} {adjustments : List Adjustment}

theorem filter_withIncluded : adjustments.filter (((AmountQuery.taxes scope.orders).onAdjustments
    (scope.charged adjustments)).withIncluded true).selects =
      (scope.taxesIn adjustments).filter (·.included) := by
  rw [taxesIn, List.filter_filter]
  apply List.filter_congr
  intro a _
  rw [AmountQuery.selects_withIncluded, Bool.and_comm]

theorem filter_forTaxRates : adjustments.filter (((AmountQuery.taxes scope.orders).onAdjustments
    (scope.charged adjustments)).forTaxRates scope.taxRates.toList).selects =
      scope.ratedIn adjustments := by
  rw [ratedIn, taxesIn, List.filter_filter]
  apply List.filter_congr
  intro a _
  rw [AmountQuery.selects_forTaxRates, Bool.and_comm]

end Scope

/-- No tax of these orders is charged on a fee of another of them. -/
def TaxesStay (orders : List Order) : Prop :=
  ∀ tax ∈ adjustmentsIn orders, tax.kind = .tax → ∀ fee ∈ adjustmentsIn orders, fee.kind = .fee →
    tax.adjustable = .adjustment fee.id → tax.order = fee.order

namespace Charge

variable {orders : List Order} {charges : List Charge}

theorem mem_feesOf {adjustments : List Adjustment} {a : Adjustment} : a ∈ feesOf charges adjustments ↔
    a ∈ adjustments ∧ ∃ c ∈ charges, c.order.id = a.order ∧ a.originator = .fee c.fee := by
  simp only [feesOf, List.mem_filter, List.any_eq_true, decide_eq_true_eq]

/-- What one charge has and the order of another has too, some charge of this order has. -/
structure Joined (charges : List Charge) : Prop where
  fee : ∀ c ∈ charges, ∀ other ∈ charges, other.fee ∈ c.order.fees →
    ∃ same ∈ charges, same.order = c.order ∧ same.fee = other.fee
  taxRate : ∀ c ∈ charges, ∀ other ∈ charges, ∀ rate, other.taxRate = some rate →
    rate ∈ c.order.taxRates (c.order.feeAdjustments c.fee) →
    ∃ same ∈ charges, same.order = c.order ∧ same.taxRate = some rate

theorem Complete.joined (hcharges : ∀ c ∈ charges, c ∈ ofOrders orders) (h : Complete charges) :
    Joined charges where
  fee c hc other hother hfee := by
    obtain ⟨taxRate, htaxRate⟩ := List.exists_mem_of_ne_nil _
      (c.order.taxOutcomes_ne_nil (c.order.feeAdjustments other.fee))
    exact ⟨_, h c hc other hother hfee taxRate htaxRate, rfl, rfl⟩
  taxRate c hc _ _ rate _ hrate := by
    have hfee := (Order.mem_charges.1 (mem_ofOrders.1 (hcharges c hc)).2).2.1
    exact ⟨_, h c hc c hc hfee (some rate) (Order.some_mem_taxOutcomes.2 hrate), rfl, rfl⟩

/-- The scope of joined charges selects the fees that the charges stand for. -/
theorem Joined.feesIn_eq (h : Joined charges) (hbooked : Booked orders)
    (hcharges : ∀ c ∈ charges, c ∈ ofOrders orders) :
    (Scope.ofCharges charges).feesIn (adjustmentsIn orders) =
      feesOf charges (adjustmentsIn orders) := by
  apply List.filter_congr
  intro a ha
  rw [Bool.eq_iff_iff, AmountQuery.selects_fees]
  simp only [List.any_eq_true, decide_eq_true_eq, Scope.mem_ofCharges_orders, Scope.mem_ofCharges_fees]
  constructor
  -- One charge has the order and another the fee; some charge of the order has both.
  · rintro ⟨⟨c, hc, horder⟩, _, ⟨other, hother, rfl⟩, hfee⟩
    have hmem := hbooked.mem_adjustments (mem_ofOrders.1 (hcharges c hc)).1 ha horder.symm
    obtain ⟨same, hsame, hsameOrder, hsameFee⟩ :=
      h.fee c hc other hother (Order.mem_fees.2 ⟨a, hmem, hfee⟩)
    exact ⟨same, hsame, by rw [hsameOrder, horder], by rw [hsameFee, hfee]⟩
  · rintro ⟨c, hc, horder, hfee⟩
    exact ⟨⟨c, hc, horder⟩, c.fee, ⟨c, hc, rfl⟩, hfee⟩

theorem Joined.taxesIn_eq (h : Joined charges) (hbooked : Booked orders) (hstay : TaxesStay orders)
    (hcharges : ∀ c ∈ charges, c ∈ ofOrders orders) :
    (Scope.ofCharges charges).taxesIn (adjustmentsIn orders) =
      taxesOn (feesOf charges (adjustmentsIn orders)) (adjustmentsIn orders) := by
  apply List.filter_congr
  intro a ha
  rw [Bool.eq_iff_iff, AmountQuery.selects_taxes, Scope.charged, h.feesIn_eq hbooked hcharges]
  simp only [SortedSet.mem_ofList, List.mem_map, List.any_eq_true, decide_eq_true_eq]
  constructor
  · rintro ⟨hkind, -, id, ⟨fee, hfee, rfl⟩, hadjustable⟩
    exact ⟨hkind, fee, hfee, hadjustable⟩
  · rintro ⟨hkind, fee, hfee, hadjustable⟩
    refine ⟨hkind, ?_, fee.id, ⟨fee, hfee, rfl⟩, hadjustable⟩
    obtain ⟨hmem, c, hc, horder, horiginator⟩ := mem_feesOf.1 hfee
    have hfeeKind : fee.kind = .fee := by rw [Adjustment.kind, horiginator]; rfl
    rw [Scope.mem_ofCharges_orders, hstay a ha hkind fee hmem hfeeKind hadjustable]
    exact ⟨c, hc, horder⟩

theorem feesIn_eq (hbooked : Booked orders) (hcharges : ∀ c ∈ charges, c ∈ ofOrders orders)
    (hcomplete : Complete charges) : (Scope.ofCharges charges).feesIn (adjustmentsIn orders) =
      feesOf charges (adjustmentsIn orders) :=
  (hcomplete.joined hcharges).feesIn_eq hbooked hcharges

theorem taxesIn_eq (hbooked : Booked orders) (hstay : TaxesStay orders)
    (hcharges : ∀ c ∈ charges, c ∈ ofOrders orders) (hcomplete : Complete charges) :
    (Scope.ofCharges charges).taxesIn (adjustmentsIn orders) =
      taxesOn (feesOf charges (adjustmentsIn orders)) (adjustmentsIn orders) :=
  (hcomplete.joined hcharges).taxesIn_eq hbooked hstay hcharges

theorem exists_of_mem_taxesOn (hbooked : Booked orders) (hstay : TaxesStay orders)
    (hcharges : ∀ c ∈ charges, c ∈ ofOrders orders) {tax : Adjustment}
    (htax : tax ∈ taxesOn (feesOf charges (adjustmentsIn orders)) (adjustmentsIn orders)) :
    ∃ c ∈ charges, c.order.id = tax.order ∧ ∃ rate, tax.originator = .taxRate rate ∧
      rate ∈ c.order.taxRates (c.order.feeAdjustments c.fee) := by
  obtain ⟨hmem, htax⟩ := List.mem_filter.1 htax
  simp only [List.any_eq_true, decide_eq_true_eq] at htax
  obtain ⟨hkind, fee, hfee, hadjustable⟩ := htax
  obtain ⟨hfeeMem, c, hc, horder, horiginator⟩ := mem_feesOf.1 hfee
  have hfeeKind : fee.kind = .fee := by rw [Adjustment.kind, horiginator]; rfl
  have hcorder := (mem_ofOrders.1 (hcharges c hc)).1
  have htaxOrder : tax.order = c.order.id :=
    (hstay tax hmem hkind fee hfeeMem hfeeKind hadjustable).trans horder.symm
  have htaxIn := hbooked.mem_adjustments hcorder hmem htaxOrder
  have hfeeIn := hbooked.mem_adjustments hcorder hfeeMem horder.symm
  cases hrate : tax.originator with
  | fee id => simp [Adjustment.kind, hrate, Originator.kind] at hkind
  | taxRate rate =>
    exact ⟨c, hc, htaxOrder.symm, rate, rfl, Order.mem_taxRates.2 ⟨tax, htaxIn, hrate, fee.id,
      Order.mem_feeAdjustments.2 ⟨fee, hfeeIn, horiginator, rfl⟩, hadjustable⟩⟩

/-- The rates in the scope of complete charges leave out none of these taxes. -/
theorem ratedIn_eq (hbooked : Booked orders) (hstay : TaxesStay orders)
    (hcharges : ∀ c ∈ charges, c ∈ ofOrders orders) (hcomplete : Complete charges) :
    (Scope.ofCharges charges).ratedIn (adjustmentsIn orders) =
      taxesOn (feesOf charges (adjustmentsIn orders)) (adjustmentsIn orders) := by
  rw [Scope.ratedIn, taxesIn_eq hbooked hstay hcharges hcomplete]
  refine List.filter_eq_self.2 fun tax htax => ?_
  obtain ⟨c, hc, -, rate, horiginator, hrate⟩ := exists_of_mem_taxesOn hbooked hstay hcharges htax
  have hfee := (Order.mem_charges.1 (mem_ofOrders.1 (hcharges c hc)).2).2.1
  have hcharged := hcomplete c hc c hc hfee (some rate) (Order.some_mem_taxOutcomes.2 hrate)
  rw [List.any_eq_true]
  exact ⟨rate, Scope.mem_ofCharges_taxRates.2 ⟨_, hcharged, rfl⟩, decide_eq_true horiginator⟩

end Charge

end MarketFees
