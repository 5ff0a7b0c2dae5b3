import MarketFees.Proofs.ExactTotals

namespace MarketFees

structure Totals.SumOf (totals a b : Totals) : Prop where
  exclTax : totals.exclTax.toRat = a.exclTax.toRat + b.exclTax.toRat
  tax : totals.tax.toRat = a.tax.toRat + b.tax.toRat
  inclTax : totals.inclTax.toRat = a.inclTax.toRat + b.inclTax.toRat

theorem Totals.Counts.sumOf {totals a b : Totals} {scale : Nat} {m₁ n₁ m₂ n₂ : Int}
    (h : totals.Counts scale (m₁ + m₂) (n₁ + n₂)) (ha : a.Counts scale m₁ n₁)
    (hb : b.Counts scale m₂ n₂) : totals.SumOf a b where
  exclTax := ha.exclTax.toRat_add hb.exclTax h.exclTax
  tax := ha.tax.toRat_add hb.tax h.tax
  inclTax := by
    have hincl := h.inclTax
    rw [add_add_add_comm] at hincl
    exact ha.inclTax.toRat_add hb.inclTax hincl

theorem unitsIn_filter_add (scale : Nat) (p : Adjustment → Bool) (adjustments : List Adjustment) :
    unitsIn scale (adjustments.filter p) + unitsIn scale (adjustments.filter (!p ·)) =
      unitsIn scale adjustments := by
  have hperm := (List.filter_append_perm p adjustments).map (·.amount.unitsAt scale)
  rw [List.map_append] at hperm
  rw [unitsIn, unitsIn, ← List.sum_append, hperm.sum_eq, unitsIn]

namespace Charge

variable {orders : List Order} {charges : List Charge} (p : OrderId → Bool)

theorem Joined.filter (h : Joined charges) : Joined (charges.filter (p ·.order.id)) where
  fee c hc other hother hfee := by
    obtain ⟨hc, hp⟩ := List.mem_filter.1 hc
    obtain ⟨hother, -⟩ := List.mem_filter.1 hother
    obtain ⟨same, hsame, horder, hfee⟩ := h.fee c hc other hother hfee
    exact ⟨same, List.mem_filter.2 ⟨hsame, by rwa [horder]⟩, horder, hfee⟩
  taxRate c hc other hother rate hrate hmem := by
    obtain ⟨hc, hp⟩ := List.mem_filter.1 hc
    obtain ⟨hother, -⟩ := List.mem_filter.1 hother
    obtain ⟨same, hsame, horder, hrate⟩ := h.taxRate c hc other hother rate hrate hmem
    exact ⟨same, List.mem_filter.2 ⟨hsame, by rwa [horder]⟩, horder, hrate⟩

theorem Joined.of_key {key : GroupKey} (h : ∀ c ∈ charges, c.key = key) : Joined charges where
  fee c hc other hother _ := by
    have hfee := congrArg GroupKey.fee ((h c hc).trans (h other hother).symm)
    exact ⟨c, hc, rfl, hfee⟩
  taxRate c hc other hother rate hrate _ := by
    have htaxRate := congrArg GroupKey.taxRate ((h c hc).trans (h other hother).symm)
    exact ⟨c, hc, rfl, htaxRate.trans hrate⟩

theorem feesOf_filter (adjustments : List Adjustment) :
    feesOf (charges.filter (p ·.order.id)) adjustments =
      (feesOf charges adjustments).filter (p ·.order) := by
  rw [feesOf, feesOf, List.filter_filter]
  apply List.filter_congr
  intro a _
  rw [Bool.eq_iff_iff, Bool.and_eq_true]
  simp only [List.any_eq_true, List.mem_filter, decide_eq_true_eq]
  constructor
  · rintro ⟨c, ⟨hc, hp⟩, horder, hfee⟩
    exact ⟨horder ▸ hp, c, hc, horder, hfee⟩
  · rintro ⟨hp, c, hc, horder, hfee⟩
    exact ⟨c, ⟨hc, horder ▸ hp⟩, horder, hfee⟩

theorem taxesOn_filter (hstay : TaxesStay orders) :
    taxesOn ((feesOf charges (adjustmentsIn orders)).filter (p ·.order)) (adjustmentsIn orders) =
      (taxesOn (feesOf charges (adjustmentsIn orders)) (adjustmentsIn orders)).filter (p ·.order) := by
  rw [taxesOn, taxesOn, List.filter_filter]
  apply List.filter_congr
  intro tax htax
  have horder {fee : Adjustment} (hkind : tax.kind = .tax)
      (hfee : fee ∈ feesOf charges (adjustmentsIn orders)) (hadjustable : tax.adjustable = .adjustment fee.id) :
      tax.order = fee.order := by
    obtain ⟨hmem, c, -, -, horiginator⟩ := mem_feesOf.1 hfee
    have hfeeKind : fee.kind = .fee := by rw [Adjustment.kind, horiginator]; rfl
    exact hstay tax htax hkind fee hmem hfeeKind hadjustable
  rw [Bool.eq_iff_iff, Bool.and_eq_true]
  simp only [List.any_eq_true, List.mem_filter, decide_eq_true_eq]
  constructor
  · rintro ⟨hkind, fee, ⟨hfee, hp⟩, hadjustable⟩
    exact ⟨horder hkind hfee hadjustable ▸ hp, hkind, fee, hfee, hadjustable⟩
  · rintro ⟨hp, hkind, fee, hfee, hadjustable⟩
    exact ⟨hkind, fee, ⟨hfee, horder hkind hfee hadjustable ▸ hp⟩, hadjustable⟩

variable (hbooked : Booked orders) (hcharges : ∀ c ∈ charges, c ∈ ofOrders orders)

include hbooked hcharges

namespace Joined

theorem feesIn_filter (h : Joined charges) :
    (Scope.ofCharges (charges.filter (p ·.order.id))).feesIn (adjustmentsIn orders) =
      ((Scope.ofCharges charges).feesIn (adjustmentsIn orders)).filter (p ·.order) := by
  have hpart : ∀ c ∈ charges.filter (p ·.order.id), c ∈ ofOrders orders :=
    fun c hc => hcharges c (List.mem_filter.1 hc).1
  rw [(h.filter p).feesIn_eq hbooked hpart, h.feesIn_eq hbooked hcharges, feesOf_filter]

theorem taxesIn_filter (h : Joined charges) (hstay : TaxesStay orders) :
    (Scope.ofCharges (charges.filter (p ·.order.id))).taxesIn (adjustmentsIn orders) =
      ((Scope.ofCharges charges).taxesIn (adjustmentsIn orders)).filter (p ·.order) := by
  have hpart : ∀ c ∈ charges.filter (p ·.order.id), c ∈ ofOrders orders :=
    fun c hc => hcharges c (List.mem_filter.1 hc).1
  rw [(h.filter p).taxesIn_eq hbooked hstay hpart, h.taxesIn_eq hbooked hstay hcharges, feesOf_filter,
    taxesOn_filter p hstay]

theorem ratedIn_filter (h : Joined charges) (hstay : TaxesStay orders) :
    (Scope.ofCharges (charges.filter (p ·.order.id))).ratedIn (adjustmentsIn orders) =
      ((Scope.ofCharges charges).ratedIn (adjustmentsIn orders)).filter (p ·.order) := by
  rw [Scope.ratedIn, Scope.ratedIn, h.taxesIn_filter p hbooked hcharges hstay, List.filter_filter,
    List.filter_filter, h.taxesIn_eq hbooked hstay hcharges]
  apply List.filter_congr
  intro tax htax
  obtain ⟨c, hc, horder, rate, horiginator, hrate⟩ := exists_of_mem_taxesOn hbooked hstay hcharges htax
  rw [Bool.and_comm, Bool.eq_iff_iff, Bool.and_eq_true, Bool.and_eq_true]
  simp only [List.any_eq_true, decide_eq_true_eq, SortedSet.mem_toList, Scope.mem_ofCharges_taxRates]
  refine and_congr_right fun hp => ?_
  constructor
  · rintro ⟨found, ⟨other, hother, hfound⟩, htaxRate⟩
    exact ⟨found, ⟨other, (List.mem_filter.1 hother).1, hfound⟩, htaxRate⟩
  · rintro ⟨found, ⟨other, hother, hfound⟩, htaxRate⟩
    obtain rfl : rate = found := by simpa [horiginator] using htaxRate
    obtain ⟨same, hsame, hsameOrder, hsameRate⟩ := h.taxRate c hc other hother rate hfound hrate
    refine ⟨rate, ⟨same, List.mem_filter.2 ⟨hsame, ?_⟩, hsameRate⟩, htaxRate⟩
    rwa [hsameOrder, horder]

/-- The totals of joined charges add up from those of their parts. -/
theorem exists_totals_sumOf (h : Joined charges) (hstay : TaxesStay orders)
    (hrange : InRange (adjustmentsIn orders)) :
    ∃ totals a b, Totals.ofScope (Snapshot.amountsOf orders) (.ofCharges charges) = .ok totals ∧
      Totals.ofScope (Snapshot.amountsOf orders) (.ofCharges (charges.filter (p ·.order.id))) = .ok a ∧
      Totals.ofScope (Snapshot.amountsOf orders) (.ofCharges (charges.filter (!p ·.order.id))) = .ok b ∧
      totals.SumOf a b := by
  obtain ⟨totals, htotals, hcounts⟩ := hrange.exists_ofScope hbooked (.ofCharges charges)
  obtain ⟨a, ha, hacounts⟩ :=
    hrange.exists_ofScope hbooked (.ofCharges (charges.filter (p ·.order.id)))
  obtain ⟨b, hb, hbcounts⟩ :=
    hrange.exists_ofScope hbooked (.ofCharges (charges.filter (!p ·.order.id)))
  refine ⟨totals, a, b, htotals, ha, hb, ?_⟩
  rw [h.feesIn_filter p hbooked hcharges, h.taxesIn_filter p hbooked hcharges hstay,
    h.ratedIn_filter p hbooked hcharges hstay, List.filter_comm] at hacounts
  rw [h.feesIn_filter (!p ·) hbooked hcharges, h.taxesIn_filter (!p ·) hbooked hcharges hstay,
    h.ratedIn_filter (!p ·) hbooked hcharges hstay, List.filter_comm] at hbcounts
  rw [← unitsIn_filter_add _ (p ·.order) ((Scope.ofCharges charges).feesIn _),
    ← unitsIn_filter_add _ (p ·.order) (((Scope.ofCharges charges).taxesIn _).filter _),
    ← unitsIn_filter_add _ (p ·.order) ((Scope.ofCharges charges).ratedIn _), add_sub_add_comm] at hcounts
  exact hcounts.sumOf hacounts hbcounts

end Joined

end Charge

end MarketFees
