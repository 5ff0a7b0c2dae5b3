import MarketFees.Group
import MarketFees.Proofs.Retain

namespace MarketFees

namespace Order

variable {order : Order} {fee : FeeId}

theorem mem_fees : fee ∈ order.fees ↔ ∃ a ∈ order.adjustments, a.originator = .fee fee := by
  have hfee (o : Originator) : o.fee? = some fee ↔ o = .fee fee := by
    cases o <;> simp [Originator.fee?]
  rw [fees, SortedSet.mem_ofList, List.mem_filterMap]
  simp only [hfee]

theorem mem_feeAdjustments {id : AdjustmentId} :
    id ∈ order.feeAdjustments fee ↔ ∃ a ∈ order.adjustments, a.originator = .fee fee ∧ a.id = id := by
  simp only [feeAdjustments, List.mem_map, List.mem_filter, decide_eq_true_eq, and_assoc]

theorem rateOn?_eq_some {charged : List AdjustmentId} {a : Adjustment} {rate : TaxRateId} :
    rateOn? charged a = some rate ↔
      a.originator = .taxRate rate ∧ ∃ target ∈ charged, a.adjustable = .adjustment target := by
  rw [rateOn?]
  split
  · next horiginator hadjustable =>
    rw [horiginator, hadjustable]
    simp [and_comm]
  · next hother =>
    refine iff_of_false (fun h => Option.some_ne_none rate h.symm) ?_
    rintro ⟨horiginator, target, -, hadjustable⟩
    exact hother rate target horiginator hadjustable

theorem mem_taxRates {charged : List AdjustmentId} {rate : TaxRateId} :
    rate ∈ order.taxRates charged ↔ ∃ a ∈ order.adjustments,
      a.originator = .taxRate rate ∧ ∃ target ∈ charged, a.adjustable = .adjustment target := by
  simp only [taxRates, SortedSet.mem_ofList, List.mem_filterMap, rateOn?_eq_some]

theorem taxOutcomes_ne_nil (charged : List AdjustmentId) : order.taxOutcomes charged ≠ [] := by
  rw [taxOutcomes]
  split
  · exact List.cons_ne_nil _ _
  · next hne => exact fun h => hne (List.map_eq_nil_iff.1 h)

theorem some_mem_taxOutcomes {charged : List AdjustmentId} {rate : TaxRateId} :
    some rate ∈ order.taxOutcomes charged ↔ rate ∈ order.taxRates charged := by
  have hrates : rate ∈ order.taxRates charged ↔ rate ∈ (order.taxRates charged).toList := Iff.rfl
  rw [hrates, taxOutcomes]
  split
  · next hnil => simp [hnil]
  · simp

theorem none_mem_taxOutcomes {charged : List AdjustmentId} :
    none ∈ order.taxOutcomes charged ↔ ∀ rate, rate ∉ order.taxRates charged := by
  have hrates (rate : TaxRateId) :
      rate ∈ order.taxRates charged ↔ rate ∈ (order.taxRates charged).toList := Iff.rfl
  rw [taxOutcomes]
  split
  · next hnil => simp [hrates, hnil]
  · next hne =>
    refine iff_of_false (by simp) fun hnone => hne (List.eq_nil_iff_forall_not_mem.2 hnone)

theorem mem_suppliers {supplier : EnterpriseId} :
    supplier ∈ order.suppliers ↔ ∃ item ∈ order.lineItems, item.supplier = supplier := by
  rw [suppliers, SortedSet.mem_ofList, List.mem_map]

theorem mem_charges {c : Charge} :
    c ∈ order.charges ↔ c.order = order ∧ c.fee ∈ order.fees ∧
      c.taxRate ∈ order.taxOutcomes (order.feeAdjustments c.fee) ∧ c.supplier ∈ order.suppliers := by
  simp only [charges, List.mem_flatMap, List.mem_map]
  constructor
  · rintro ⟨fee, hfee, taxRate, htaxRate, supplier, hsupplier, rfl⟩
    exact ⟨rfl, hfee, htaxRate, hsupplier⟩
  · rintro ⟨rfl, hfee, htaxRate, hsupplier⟩
    exact ⟨c.fee, hfee, c.taxRate, htaxRate, c.supplier, hsupplier, rfl⟩

theorem nodup_taxOutcomes (charged : List AdjustmentId) : (order.taxOutcomes charged).Nodup := by
  rw [taxOutcomes]
  split
  · exact List.nodup_singleton none
  · exact (order.taxRates charged).nodup_toList.map (Option.some_injective _)

theorem nodup_charges (order : Order) : order.charges.Nodup := by
  refine List.nodup_flatMap.2 ⟨fun fee _ => List.nodup_flatMap.2 ⟨fun taxRate _ => ?_, ?_⟩, ?_⟩
  · exact order.suppliers.nodup_toList.map fun a b h => (Charge.mk.inj h).2.2.2
  · refine (nodup_taxOutcomes _).imp fun hne c hc hc' => hne ?_
    obtain ⟨supplier, -, rfl⟩ := List.mem_map.1 hc
    obtain ⟨supplier', -, h⟩ := List.mem_map.1 hc'
    exact (Charge.mk.inj h).2.2.1.symm
  · refine order.fees.nodup_toList.imp fun hne c hc hc' => hne ?_
    simp only [List.mem_flatMap, List.mem_map] at hc hc'
    obtain ⟨taxRate, -, supplier, -, rfl⟩ := hc
    obtain ⟨taxRate', -, supplier', -, h⟩ := hc'
    exact (Charge.mk.inj h).2.1.symm

end Order

namespace Charge

variable {orders : List Order} {c : Charge}

theorem nodup_ofOrders (h : (orders.map (·.id)).Nodup) : (ofOrders orders).Nodup := by
  refine List.nodup_flatMap.2 ⟨fun o _ => o.nodup_charges, h.of_map.imp fun hne c hc hc' => hne ?_⟩
  exact (Order.mem_charges.1 hc).1.symm.trans (Order.mem_charges.1 hc').1

theorem mem_ofOrders : c ∈ ofOrders orders ↔ c.order ∈ orders ∧ c ∈ c.order.charges := by
  rw [ofOrders, List.mem_flatMap]
  constructor
  · rintro ⟨order, horder, hc⟩
    obtain ⟨rfl, -⟩ := Order.mem_charges.1 hc
    exact ⟨horder, hc⟩
  · rintro ⟨horder, hc⟩
    exact ⟨c.order, horder, hc⟩

theorem mem_ofOrders_of_mem_filter {p q : Charge → Bool} :
    ∀ c ∈ ((ofOrders orders).filter p).filter q, c ∈ ofOrders orders :=
  fun _ hc => (List.mem_filter.1 (List.mem_filter.1 hc).1).1

/-- What is charged for a fee on an order is charged with every tax outcome of the fee. -/
def Complete (charges : List Charge) : Prop :=
  ∀ c ∈ charges, ∀ other ∈ charges, other.fee ∈ c.order.fees →
    ∀ taxRate ∈ c.order.taxOutcomes (c.order.feeAdjustments other.fee),
      ⟨c.order, other.fee, taxRate, c.supplier⟩ ∈ charges

/-- Admitted charges are complete, and so are those of them that are chosen by supplier and order. -/
theorem complete_filter {f : Filters} {owner : FeeId → Except StoreError (Option EnterpriseId)}
    {p : Charge → Bool}
    (hp : ∀ c fee taxRate, p ⟨c.order, fee, taxRate, c.supplier⟩ = p c) :
    Complete (((ofOrders orders).filter (admitted f owner)).filter p) := by
  intro c hc other hother hfee taxRate htaxRate
  obtain ⟨hc, hpc⟩ := List.mem_filter.1 hc
  obtain ⟨hc, hadmitted⟩ := List.mem_filter.1 hc
  obtain ⟨horder, hcharge⟩ := mem_ofOrders.1 hc
  obtain ⟨hother, -⟩ := List.mem_filter.1 hother
  obtain ⟨-, hotherAdmitted⟩ := List.mem_filter.1 hother
  refine List.mem_filter.2 ⟨List.mem_filter.2 ⟨mem_ofOrders.2 ⟨horder, ?_⟩, ?_⟩, (hp ..).trans hpc⟩
  · exact Order.mem_charges.2 ⟨rfl, hfee, htaxRate, (Order.mem_charges.1 hcharge).2.2.2⟩
  · simp only [admitted, passes, Bool.and_eq_true] at hadmitted hotherAdmitted ⊢
    exact ⟨⟨hadmitted.1.1, hotherAdmitted.1.2⟩, hotherAdmitted.2⟩

end Charge

end MarketFees
