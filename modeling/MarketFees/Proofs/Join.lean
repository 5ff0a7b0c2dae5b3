import Mathlib
import MarketFees.Proofs.DetailRows

namespace MarketFees

namespace SortedSet

variable {α : Type} [Ord α] [Std.TransOrd α] [DecidableEq α]

theorem card_toFinset (s : SortedSet α) : s.toList.toFinset.card = s.toList.length :=
  List.toFinset_card_of_nodup s.nodup_toList

theorem toFinset_ofList [Std.LawfulEqOrd α] (l : List α) :
    (ofList l).toList.toFinset = l.toFinset := by
  ext a
  rw [List.mem_toFinset, List.mem_toFinset, mem_toList, mem_ofList]

end SortedSet

/-- Charges by fee, then by tax rate, where no rate comes first, and then by supplier. -/
def Charge.byFee : Charge → Charge → Ordering :=
  compareLex (compareOn fee) <| compareLex (compareOn taxRate) (compareOn supplier)

namespace Order

variable {o : Order}

/-- Charges join an order when they are, in sequence and each once, its fees with the suppliers of its
line items and with the rates of the taxes on the fee, or with no rate where there is no such tax. For each
supplier there are as many of them as the fees have rates, a fee without rates counting once. -/
structure Joins (o : Order) (charges : List Charge) : Prop where
  mem_iff : ∀ c, c ∈ charges ↔ c.order = o ∧ (∃ a ∈ o.adjustments, a.originator = .fee c.fee) ∧
    ((∀ rate, c.taxRate = some rate → o.Taxed c.fee rate) ∧
      (c.taxRate = none → ∀ rate, ¬o.Taxed c.fee rate)) ∧
    ∃ item ∈ o.lineItems, item.supplier = c.supplier
  nodup : charges.Nodup
  increasing : charges.Pairwise fun a b => a.byFee b = .lt
  length_eq : charges.length = (o.lineItems.map (·.supplier)).toFinset.card *
    ∑ fee ∈ (o.adjustments.filterMap (·.originator.fee?)).toFinset, max 1 {rate | o.Taxed fee rate}.ncard

theorem taxOutcomes_increasing (charged : List AdjustmentId) :
    IncreasingBy (fun taxRate => taxRate) (o.taxOutcomes charged) := by
  rw [taxOutcomes]
  split
  · exact List.pairwise_singleton _ _
  · exact IncreasingBy.map_iff.2 (o.taxRates charged).increasing

theorem chargesOf_increasing (o : Order) (fee : FeeId) (taxRates : List (Option TaxRateId))
    (h : IncreasingBy (fun taxRate => taxRate) taxRates) :
    (taxRates.flatMap fun taxRate => o.suppliers.toList.map fun supplier =>
      (⟨o, fee, taxRate, supplier⟩ : Charge)).Pairwise fun a b =>
        compareLex (compareOn Charge.taxRate) (compareOn Charge.supplier) a b = .lt := by
  apply h.pairwise_flatMap
  · intro taxRate _ c hc
    obtain ⟨supplier, -, rfl⟩ := List.mem_map.1 hc
    rfl
  · intro taxRate _
    exact List.pairwise_map.2 o.suppliers.increasing

theorem charges_increasing (o : Order) : o.charges.Pairwise fun a b => a.byFee b = .lt := by
  apply o.fees.increasingBy.pairwise_flatMap
  · intro fee _ c hc
    obtain ⟨taxRate, -, hc⟩ := List.mem_flatMap.1 hc
    obtain ⟨supplier, -, rfl⟩ := List.mem_map.1 hc
    rfl
  · intro fee _
    exact o.chargesOf_increasing fee _ (taxOutcomes_increasing _)

theorem length_taxOutcomes (charged : List AdjustmentId) :
    (o.taxOutcomes charged).length = max 1 (o.taxRates charged).toList.length := by
  rw [taxOutcomes]
  split
  · next hnil => rw [hnil]; rfl
  · next hne =>
    have hpos := List.length_pos_iff.2 hne
    rw [List.length_map]
    omega

theorem ncard_taxed (o : Order) (fee : FeeId) :
    {rate | o.Taxed fee rate}.ncard = (o.taxRates (o.feeAdjustments fee)).toList.length := by
  rw [← SortedSet.card_toFinset, ← Set.ncard_coe_finset]
  congr 1
  ext rate
  rw [Set.mem_ofPred_eq, Finset.mem_coe, List.mem_toFinset, SortedSet.mem_toList,
    mem_taxRates_feeAdjustments]

theorem length_charges (o : Order) : o.charges.length =
    (o.lineItems.map (·.supplier)).toFinset.card *
      ∑ fee ∈ (o.adjustments.filterMap (·.originator.fee?)).toFinset,
        max 1 {rate | o.Taxed fee rate}.ncard := by
  have hsuppliers : (o.lineItems.map (·.supplier)).toFinset.card = o.suppliers.toList.length := by
    rw [← SortedSet.toFinset_ofList]
    exact o.suppliers.card_toFinset
  have hfee (fee : FeeId) : ((o.taxOutcomes (o.feeAdjustments fee)).flatMap fun taxRate =>
      o.suppliers.toList.map fun supplier => (⟨o, fee, taxRate, supplier⟩ : Charge)).length =
        max 1 {rate | o.Taxed fee rate}.ncard * o.suppliers.toList.length := by
    simp only [List.length_flatMap, List.length_map, List.map_const', List.sum_replicate_nat,
      length_taxOutcomes, ncard_taxed]
  rw [charges, List.length_flatMap, hsuppliers, ← SortedSet.toFinset_ofList]
  simp only [hfee]
  rw [List.sum_toFinset _ (SortedSet.nodup_toList _), Nat.mul_comm, ← List.sum_map_mul_right]
  rfl

theorem joins_charges (o : Order) : o.Joins o.charges where
  mem_iff c := by
    rw [mem_charges, mem_fees, mem_taxOutcomes_feeAdjustments, mem_suppliers]
  nodup := o.nodup_charges
  increasing := o.charges_increasing
  length_eq := o.length_charges

end Order

/-- The charges of orders are the joins of the orders, one order after the other. -/
theorem Charge.ofOrders_joins (orders : List Order) :
    ∃ parts, List.Forall₂ Order.Joins orders parts ∧ ofOrders orders = parts.flatten := by
  refine ⟨orders.map Order.charges, ?_, List.flatMap_def ..⟩
  rw [List.forall₂_map_right_iff, List.forall₂_same]
  intro o _
  exact o.joins_charges

example : ((Charge.ofOrders Dataset.twoRates.orders).map fun c => (c.order.id, c.taxRate)) =
    [(⟨1⟩, some ⟨1⟩), (⟨1⟩, some ⟨2⟩), (⟨2⟩, none), (⟨3⟩, some ⟨1⟩)] := by
  decide

end MarketFees
