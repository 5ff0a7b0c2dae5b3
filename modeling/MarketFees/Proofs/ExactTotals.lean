import MarketFees.Proofs.ExactSums
import MarketFees.Proofs.Selection
import MarketFees.Proofs.Success

namespace MarketFees

/-- The largest scale of the amounts of adjustments. -/
def largestScale (adjustments : List Adjustment) : Nat :=
  (adjustments.map (·.amount.scale)).foldr max 0

/-- The amounts, signs aside, add up to less than the bound of a coefficient in units of their largest
scale. -/
def InRange (adjustments : List Adjustment) : Prop :=
  (adjustments.map fun a => (a.amount.unitsAt (largestScale adjustments)).natAbs).sum <
    Decimal.coefficientBound

def total (adjustments : List Adjustment) : Rat :=
  (adjustments.map (·.amount.toRat)).sum

/-- The sum of the amounts in units of a scale. -/
def unitsIn (scale : Nat) (adjustments : List Adjustment) : Int :=
  (adjustments.map (·.amount.unitsAt scale)).sum

variable {adjustments : List Adjustment}

theorem scale_le_largestScale {a : Adjustment} (ha : a ∈ adjustments) :
    a.amount.scale ≤ largestScale adjustments := by
  induction adjustments with
  | nil => cases ha
  | cons b rest ih =>
    rcases List.mem_cons.1 ha with rfl | ha
    · exact Nat.le_max_left ..
    · exact Nat.le_trans (ih ha) (Nat.le_max_right ..)

theorem total_eq {scale : Nat} (h : ∀ a ∈ adjustments, a.amount.scale ≤ scale) :
    total adjustments = unitsIn scale adjustments / powerOfTen scale := by
  have hsum := Decimal.sum_toRat (l := adjustments.map (·.amount)) (List.forall_mem_map.2 h)
  rw [List.map_map, List.map_map] at hsum
  exact hsum

theorem total_filter_add (p : Adjustment → Bool) (adjustments : List Adjustment) :
    total (adjustments.filter p) + total (adjustments.filter (!p ·)) = total adjustments := by
  induction adjustments with
  | nil => exact add_zero 0
  | cons a rest ih =>
    have hcons (l : List Adjustment) : total (a :: l) = a.amount.toRat + total l := List.sum_cons
    rw [hcons, ← ih]
    cases h : p a
    · rw [List.filter_cons_of_neg (by simp [h]), List.filter_cons_of_pos (by simp [h]), hcons]
      ring
    · rw [List.filter_cons_of_pos (by simp [h]), List.filter_cons_of_neg (by simp [h]), hcons]
      ring

theorem total_flatMap (parts : List ι) (f : ι → List Adjustment) :
    total (parts.flatMap f) = (parts.map fun i => total (f i)).sum := by
  rw [total, List.map_flatMap, List.flatMap_def, List.sum_flatten, List.map_map]
  rfl

theorem total_perm {others : List Adjustment} (h : adjustments.Perm others) :
    total adjustments = total others :=
  (h.map _).sum_eq

/-- Elements that count at most once, with either sign, add up to no more than all elements do with no
sign. -/
theorem natAbs_sub_add_le (u : α → Int) {fee out back : α → Bool}
    (hout : ∀ a, out a = true → fee a = false) (hback : ∀ a, back a = true → fee a = false)
    (l : List α) :
    (((l.filter fee).map u).sum - ((l.filter out).map u).sum + ((l.filter back).map u).sum).natAbs ≤
      (l.map fun a => (u a).natAbs).sum := by
  induction l with
  | nil => exact Nat.le_refl 0
  | cons a rest ih =>
    have hout := hout a
    have hback := hback a
    simp only [List.filter_cons, List.map_cons, List.sum_cons]
    cases hf : fee a <;> cases ho : out a <;> cases hb : back a <;>
      simp_all only [if_true, if_false, List.map_cons, List.sum_cons, Bool.false_eq_true,
        forall_const, forall_false] <;> omega

namespace InRange

theorem exists_sum (h : InRange adjustments) (p : Adjustment → Bool) :
    ∃ c, Decimal.sum ((adjustments.filter p).map (·.amount)) = .ok c ∧
      c.Counts (largestScale adjustments) (unitsIn (largestScale adjustments) (adjustments.filter p)) := by
  have hscale : ∀ b ∈ (adjustments.filter p).map (·.amount), b.scale ≤ largestScale adjustments :=
    List.forall_mem_map.2 fun a ha => scale_le_largestScale (List.mem_filter.1 ha).1
  have hsublist := (List.filter_sublist (p := p) (l := adjustments)).map
    fun a => (a.amount.unitsAt (largestScale adjustments)).natAbs
  have hle := hsublist.sum_le_sum fun _ _ => Nat.zero_le _
  obtain ⟨c, hc, hcounts⟩ := Decimal.exists_sum hscale
    (by rw [List.map_map]; exact Nat.lt_of_le_of_lt hle h)
  rw [List.map_map] at hcounts
  exact ⟨c, hc, hcounts⟩

theorem natAbs_lt (h : InRange adjustments) (fee out back : Adjustment → Bool)
    (hout : ∀ a, out a = true → fee a = false) (hback : ∀ a, back a = true → fee a = false) :
    let units := unitsIn (largestScale adjustments)
    (units (adjustments.filter fee) - units (adjustments.filter out) +
      units (adjustments.filter back)).natAbs < Decimal.coefficientBound :=
  Nat.lt_of_le_of_lt (natAbs_sub_add_le _ hout hback adjustments) h

end InRange

namespace Scope

variable {scope : Scope}

theorem feesIn_of_isEmpty (h : scope.orders.isEmpty || scope.fees.isEmpty) :
    scope.feesIn adjustments = [] := by
  refine List.filter_eq_nil_iff.2 fun a _ hselects => ?_
  obtain ⟨horder, fee, hfee, -⟩ := AmountQuery.selects_fees.1 hselects
  rcases Bool.or_eq_true_iff.1 h with hempty | hempty
  · exact SortedSet.isEmpty_iff.1 hempty _ horder
  · exact SortedSet.isEmpty_iff.1 hempty fee hfee

theorem taxesIn_of_feesIn (h : scope.feesIn adjustments = []) : scope.taxesIn adjustments = [] := by
  refine List.filter_eq_nil_iff.2 fun a _ hselects => ?_
  obtain ⟨-, -, id, hid, -⟩ := AmountQuery.selects_taxes.1 hselects
  rw [charged, h] at hid
  exact SortedSet.not_mem_empty id hid

theorem ratedIn_of_isEmpty (h : scope.taxRates.isEmpty) : scope.ratedIn adjustments = [] := by
  have hnil : scope.taxRates.toList = [] := List.isEmpty_iff.1 h
  simp [ratedIn, hnil]

end Scope

/-- Totals in units of a scale. -/
structure Totals.Counts (totals : Totals) (scale : Nat) (m n : Int) : Prop where
  exclTax : totals.exclTax.Counts scale m
  tax : totals.tax.Counts scale n
  inclTax : totals.inclTax.Counts scale (m + n)

/-- A source whose answers to queries are made of what the queries select of some adjustments. -/
structure AmountSource.Over (amounts : AmountSource) (adjustments : List Adjustment) : Prop where
  amountSum_eq : ∀ q, amounts.amountSum q =
    Decimal.sum ((adjustments.filter q.selects).map (·.amount))
  adjustmentIds_eq : ∀ q, amounts.adjustmentIds q =
    .ok (.ofList ((adjustments.filter q.selects).map (·.id)))

theorem Snapshot.amounts_over {s : Snapshot} (h : ∀ o ∈ s.orders, ∀ a ∈ o.adjustments, a.order = o.id) :
    s.store.amounts.Over (adjustmentsIn s.orders) where
  amountSum_eq q := by
    rw [← selected_eq h q]
    rfl
  adjustmentIds_eq q := by
    rw [← selected_eq h q]
    rfl

section Over

variable {amounts : AmountSource}

theorem InRange.exists_ratedTax (hrange : InRange adjustments) (hover : amounts.Over adjustments)
    (scope : Scope) :
    ∃ tax, (if scope.taxRates.isEmpty then pure 0 else amounts.amountSum
        (((AmountQuery.taxes scope.orders).onAdjustments
          (scope.charged adjustments)).forTaxRates scope.taxRates.toList)) = .ok tax ∧
      tax.Counts (largestScale adjustments)
        (unitsIn (largestScale adjustments) (scope.ratedIn adjustments)) := by
  split
  · next hnone =>
    rw [Scope.ratedIn_of_isEmpty hnone]
    exact ⟨0, rfl, .zero _⟩
  · rw [hover.amountSum_eq, ← Scope.filter_forTaxRates]
    exact hrange.exists_sum _

theorem InRange.exists_ofScope_over (hrange : InRange adjustments) (hover : amounts.Over adjustments)
    (scope : Scope) :
    ∃ totals, Totals.ofScope amounts scope = .ok totals ∧
      totals.Counts (largestScale adjustments)
        (unitsIn (largestScale adjustments) (scope.feesIn adjustments) -
          unitsIn (largestScale adjustments) ((scope.taxesIn adjustments).filter (·.included)))
        (unitsIn (largestScale adjustments) (scope.ratedIn adjustments)) := by
  let fees := (AmountQuery.fees scope.orders).forFees scope.fees.toList
  let taxes := (AmountQuery.taxes scope.orders).onAdjustments (scope.charged adjustments)
  by_cases hempty : (scope.orders.isEmpty || scope.fees.isEmpty) = true
  · have hfees : scope.feesIn adjustments = [] := Scope.feesIn_of_isEmpty hempty
    have htaxes := Scope.taxesIn_of_feesIn hfees
    have hrated : scope.ratedIn adjustments = [] := by rw [Scope.ratedIn, htaxes]; rfl
    rw [hfees, htaxes, hrated, Totals.ofScope, if_pos hempty]
    exact ⟨0, rfl, .zero _, .zero _, .zero _⟩
  obtain ⟨feeTotal, hfeeTotal, hfees⟩ := hrange.exists_sum fees.selects
  obtain ⟨includedTax, hincludedTax, hincluded⟩ := hrange.exists_sum (taxes.withIncluded true).selects
  obtain ⟨tax, htax, hrated⟩ := hrange.exists_ratedTax hover scope
  rw [← hover.amountSum_eq] at hfeeTotal hincludedTax
  have hkinds : AdjustmentKind.tax ≠ .fee := by decide
  have hout (a : Adjustment) (h : (taxes.withIncluded true).selects a = true) :
      fees.selects a = false := AmountQuery.selects_eq_false h hkinds
  have hback (a : Adjustment) (h : (taxes.forTaxRates scope.taxRates.toList).selects a = true) :
      fees.selects a = false := AmountQuery.selects_eq_false h hkinds
  have hexclRange := hrange.natAbs_lt fees.selects (taxes.withIncluded true).selects (fun _ => false)
    hout fun _ h => absurd h Bool.false_ne_true
  have hinclRange := hrange.natAbs_lt fees.selects (taxes.withIncluded true).selects
    (taxes.forTaxRates scope.taxRates.toList).selects hout hback
  rw [List.filter_false] at hexclRange
  rw [Scope.filter_withIncluded] at hincluded hexclRange hinclRange
  rw [Scope.filter_forTaxRates] at hinclRange
  obtain ⟨exclTax, hexclTax, hexcl⟩ := hfees.exists_sub hincluded (by simpa [unitsIn] using hexclRange)
  obtain ⟨inclTax, hinclTax, hincl⟩ := hexcl.exists_add hrated hinclRange
  refine ⟨⟨exclTax, tax, inclTax, hinclTax⟩, ?_, hexcl, hrated, hincl⟩
  exact Totals.ofScope_eq_ok hempty hfeeTotal (hover.adjustmentIds_eq fees) hincludedTax htax
    hexclTax (Totals.of_eq_ok.2 ⟨rfl, rfl⟩)

theorem InRange.exists_numbers (hrange : InRange adjustments) (hover : amounts.Over adjustments)
    (scope : Scope) :
    ∃ totals, Totals.ofScope amounts scope = .ok totals ∧
      totals.exclTax.toRat = total (scope.feesIn adjustments) -
        total ((scope.taxesIn adjustments).filter (·.included)) ∧
      totals.tax.toRat = total (scope.ratedIn adjustments) ∧
      totals.inclTax.toRat = totals.exclTax.toRat + totals.tax.toRat := by
  obtain ⟨totals, htotals, hcounts⟩ := hrange.exists_ofScope_over hover scope
  have hfees : ∀ a ∈ scope.feesIn adjustments, a.amount.scale ≤ largestScale adjustments :=
    fun a ha => scale_le_largestScale (List.mem_filter.1 ha).1
  have htaxes (p : Adjustment → Bool) :
      ∀ a ∈ (scope.taxesIn adjustments).filter p, a.amount.scale ≤ largestScale adjustments :=
    fun a ha => scale_le_largestScale (List.mem_filter.1 (List.mem_filter.1 ha).1).1
  refine ⟨totals, htotals, ?_, ?_, hcounts.exclTax.toRat_add hcounts.tax hcounts.inclTax⟩
  · rw [hcounts.exclTax.toRat_eq, total_eq hfees, total_eq (htaxes _), Int.cast_sub, sub_div]
  · rw [hcounts.tax.toRat_eq, Scope.ratedIn, total_eq (htaxes _)]

end Over

variable {orders : List Order}

theorem Booked.over (h : Booked orders) : (Snapshot.amountsOf orders).Over (adjustmentsIn orders) :=
  Snapshot.amounts_over h.order_eq

theorem InRange.exists_ofScope (hrange : InRange (adjustmentsIn orders)) (hbooked : Booked orders)
    (scope : Scope) :
    ∃ totals, Totals.ofScope (Snapshot.amountsOf orders) scope = .ok totals ∧
      totals.Counts (largestScale (adjustmentsIn orders))
        (unitsIn (largestScale (adjustmentsIn orders)) (scope.feesIn (adjustmentsIn orders)) -
          unitsIn (largestScale (adjustmentsIn orders))
            ((scope.taxesIn (adjustmentsIn orders)).filter (·.included)))
        (unitsIn (largestScale (adjustmentsIn orders)) (scope.ratedIn (adjustmentsIn orders))) :=
  hrange.exists_ofScope_over hbooked.over scope

/-- The totals of a scope are those of its fees, of the taxes on them and of the taxes at its rates. -/
theorem InRange.toRat_ofScope (hrange : InRange (adjustmentsIn orders)) (hbooked : Booked orders)
    {scope : Scope} {totals : Totals}
    (h : Totals.ofScope (Snapshot.amountsOf orders) scope = .ok totals) :
    totals.exclTax.toRat = total (scope.feesIn (adjustmentsIn orders)) -
        total ((scope.taxesIn (adjustmentsIn orders)).filter (·.included)) ∧
      totals.tax.toRat = total (scope.ratedIn (adjustmentsIn orders)) := by
  obtain ⟨_, htotals, hexclTax, htax, -⟩ := hrange.exists_numbers hbooked.over scope
  obtain rfl := Except.ok.inj (htotals.symm.trans h)
  exact ⟨hexclTax, htax⟩

theorem InRange.exists_totals (hrange : InRange (adjustmentsIn orders)) (hbooked : Booked orders)
    (scope : Scope) : ∃ totals, Totals.ofScope (Snapshot.amountsOf orders) scope = .ok totals := by
  obtain ⟨totals, htotals, -⟩ := hrange.exists_ofScope hbooked scope
  exact ⟨totals, htotals⟩

end MarketFees
