import MarketFees.Proofs.Ledger.Answers
import MarketFees.Proofs.ListingOrder

namespace MarketFees

def AmountSource.ofAdjustments (adjustments : List Adjustment) : AmountSource where
  amountSum q := Decimal.sum ((adjustments.filter q.selects).map (·.amount))
  adjustmentIds q := .ok (.ofList ((adjustments.filter q.selects).map (·.id)))

theorem AmountSource.ofAdjustments_over (adjustments : List Adjustment) :
    (ofAdjustments adjustments).Over adjustments where
  amountSum_eq _ := rfl
  adjustmentIds_eq _ := rfl

theorem AmountSource.Over.agreeOn {amounts : AmountSource} {adjustments : List Adjustment}
    (h : amounts.Over adjustments) (orders : SortedSet OrderId) :
    amounts.AgreeOn orders.toList (.ofAdjustments (adjustments.filter (·.order ∈ orders))) := by
  intro q hq
  have hselects : (adjustments.filter (·.order ∈ orders)).filter q.selects =
      adjustments.filter q.selects := by
    rw [List.filter_filter]
    apply List.filter_congr
    intro a _
    rw [Bool.and_eq_left_iff_imp]
    intro hselects
    exact decide_eq_true (hq _ (AmountQuery.selects_iff.1 hselects).2.1)
  have hown := ofAdjustments_over (adjustments.filter (·.order ∈ orders))
  rw [h.amountSum_eq, h.adjustmentIds_eq, hown.amountSum_eq, hown.adjustmentIds_eq, hselects]
  exact ⟨rfl, rfl⟩

namespace Scope

variable {scope : Scope} {adjustments : List Adjustment}

theorem feesIn_eq (h : ∀ a ∈ adjustments, a.order ∈ scope.orders) :
    scope.feesIn adjustments =
      adjustments.filter fun a => scope.fees.toList.any (a.originator = .fee ·) := by
  apply List.filter_congr
  intro a ha
  rw [Bool.eq_iff_iff, AmountQuery.selects_fees]
  simp [h a ha, SortedSet.mem_toList]

theorem taxesIn_eq (h : ∀ a ∈ adjustments, a.order ∈ scope.orders) :
    scope.taxesIn adjustments = taxesOn (scope.feesIn adjustments) adjustments := by
  apply List.filter_congr
  intro a ha
  rw [Bool.eq_iff_iff, AmountQuery.selects_taxes]
  simp [h a ha, charged, SortedSet.mem_ofList]

end Scope

/-- What stores keep: a dataset the adjustments of its orders, each named after the order that it is
listed in, and a ledger those of all its rows, which can be read (`Ledger.Sound.rowsRead`). -/
inductive Store.Keeps : Store → List Adjustment → Prop
  | snapshot (d : Dataset) :
    Keeps (Snapshot.ofDataset d).store (adjustmentsIn (Snapshot.ofDataset d).orders)
  | ledger {l : Ledger} : l.Reached → Keeps l.store l.readAdjustments

theorem Store.Keeps.exists_over {store : Store} {adjustments : List Adjustment}
    (h : store.Keeps adjustments) :
    ∃ listed, listed.Perm adjustments ∧ store.amounts.Over listed := by
  cases h with
  | snapshot d => exact ⟨_, .refl _, Snapshot.amounts_over Snapshot.order_eq_owned⟩
  | ledger hreached =>
    have hsound := hreached.sound
    refine ⟨_, hsound.adjustmentsIn_perm, ?_⟩
    rw [hsound.store_eq]
    exact Snapshot.amounts_over hsound.booked.order_eq

/-- Where the adjustments of a scope's orders are in range the scope has totals, and as numbers they are
exact: the fees less the taxes on them that are included, the taxes on them at the rates of the scope,
and both together. -/
theorem Store.Keeps.exact_totals {store : Store} {adjustments : List Adjustment}
    (hstore : store.Keeps adjustments) (scope : Scope)
    (hrange : InRange (adjustments.filter (·.order ∈ scope.orders))) :
    let own := adjustments.filter (·.order ∈ scope.orders)
    let fees := own.filter fun a => scope.fees.toList.any (a.originator = .fee ·)
    let taxes := taxesOn fees own
    ∃ totals, Totals.ofScope store.amounts scope = .ok totals ∧
      totals.exclTax.toRat = total fees - total (taxes.filter (·.included)) ∧
      totals.tax.toRat =
        total (taxes.filter fun a => scope.taxRates.toList.any (a.originator = .taxRate ·)) ∧
      totals.inclTax.toRat = totals.exclTax.toRat + totals.tax.toRat := by
  intro own fees taxes
  obtain ⟨listed, hlisted, hover⟩ := hstore.exists_over
  have hperm : (listed.filter (·.order ∈ scope.orders)).Perm own := hlisted.filter _
  have hrange' : InRange (listed.filter (·.order ∈ scope.orders)) :=
    hrange.of_amounts (hperm.symm.map _)
  obtain ⟨totals, htotals, hexclTax, htax, hinclTax⟩ :=
    hrange'.exists_numbers (AmountSource.ofAdjustments_over _) scope
  have hagree : Totals.ofScope store.amounts scope = .ok totals :=
    (Totals.ofScope_congr (hover.agreeOn scope.orders) fun _ hid => hid).trans htotals
  have hown : ∀ a ∈ own, a.order ∈ scope.orders :=
    fun a ha => of_decide_eq_true (List.mem_filter.1 ha).2
  have hfees : scope.feesIn own = fees := Scope.feesIn_eq hown
  have htaxes : scope.taxesIn own = taxes := by rw [Scope.taxesIn_eq hown, hfees]
  refine ⟨totals, hagree, ?_, ?_, hinclTax⟩
  · rw [hexclTax, total_perm (Scope.feesIn_perm hperm),
      total_perm ((Scope.taxesIn_perm hperm).filter _), hfees, htaxes]
  · rw [htax, total_perm (Scope.ratedIn_perm hperm), Scope.ratedIn, htaxes]

theorem Ledger.totals_twoDays :
    let l := Ledger.new.putAll .twoDays
    let scope : Scope := ⟨.ofList [⟨1⟩, ⟨2⟩], .ofList [⟨1⟩], .ofList [⟨1⟩]⟩
    l.Reached ∧ InRange (l.readAdjustments.filter (·.order ∈ scope.orders)) ∧
      ∃ totals, Totals.ofScope l.store.amounts scope = .ok totals ∧ totals.exclTax.toRat = 83 / 4 ∧
        totals.tax.toRat = 1 ∧ totals.inclTax.toRat = 87 / 4 := by
  intro l scope
  have hreached : l.Reached := .load (d := .twoDays) .new rfl
  have hread : l.readAdjustments = adjustmentsIn Dataset.twoDays.orders := by cbv
  have hrange : InRange (l.readAdjustments.filter (·.order ∈ scope.orders)) := by
    rw [hread]
    unfold InRange
    decide
  obtain ⟨totals, htotals, hexclTax, htax, hinclTax⟩ :=
    (Store.Keeps.ledger hreached).exact_totals scope hrange
  rw [hread] at hexclTax htax
  have hexclTax : totals.exclTax.toRat = 83 / 4 := hexclTax.trans (by decide +kernel)
  have htax : totals.tax.toRat = 1 := htax.trans (by decide +kernel)
  refine ⟨hreached, hrange, totals, htotals, hexclTax, htax, ?_⟩
  rw [hinclTax, hexclTax, htax]
  norm_num

end MarketFees
