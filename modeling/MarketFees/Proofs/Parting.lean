import MarketFees.Proofs.Additivity

namespace MarketFees

theorem sum_map_sub (f g : ι → Rat) (parts : List ι) :
    (parts.map fun i => f i - g i).sum = (parts.map f).sum - (parts.map g).sum := by
  simpa using Multiset.sum_map_sub (m := (parts : Multiset ι)) (f := f) (g := g)

/-- What the fees of charges come to without tax, each counted once. -/
def netOf (charges : List Charge) (adjustments : List Adjustment) : Rat :=
  total (feesOf charges adjustments) -
    total ((taxesOn (feesOf charges adjustments) adjustments).filter (·.included))

namespace Charge

variable {orders : List Order} {charges : List Charge} {c c' : Charge} {adjustments : List Adjustment}

theorem mem_feesOf_iff {a : Adjustment} :
    a ∈ feesOf charges adjustments ↔ ∃ c ∈ charges, a ∈ feesOf [c] adjustments := by
  simp only [mem_feesOf, List.mem_singleton, exists_eq_left]
  constructor
  · rintro ⟨ha, c, hc, horder, hfee⟩
    exact ⟨c, hc, ha, horder, hfee⟩
  · rintro ⟨c, hc, ha, horder, hfee⟩
    exact ⟨ha, c, hc, horder, hfee⟩

theorem mem_taxesOn_iff {tax : Adjustment} : tax ∈ taxesOn (feesOf charges adjustments) adjustments ↔
    ∃ c ∈ charges, tax ∈ taxesOn (feesOf [c] adjustments) adjustments := by
  simp only [taxesOn, List.mem_filter, List.any_eq_true, decide_eq_true_eq]
  constructor
  · rintro ⟨htax, hkind, fee, hfee, hadjustable⟩
    obtain ⟨c, hc, hfee⟩ := mem_feesOf_iff.1 hfee
    exact ⟨c, hc, htax, hkind, fee, hfee, hadjustable⟩
  · rintro ⟨c, hc, htax, hkind, fee, hfee, hadjustable⟩
    exact ⟨htax, hkind, fee, mem_feesOf_iff.2 ⟨c, hc, hfee⟩, hadjustable⟩

/-- Parts of charges that have no order in common part what is selected for each charge by itself. -/
theorem select_perm (select : List Charge → List Adjustment) {parts : List ι} {part : ι → List Charge}
    (hnodup : ∀ charges, (select charges).Nodup)
    (hsingle : ∀ charges a, a ∈ select charges ↔ ∃ c ∈ charges, a ∈ select [c])
    (horder : ∀ c ∈ charges, ∀ c' ∈ charges, ∀ a ∈ select [c], a ∈ select [c'] → c.order = c'.order)
    (hmem : ∀ c, c ∈ charges ↔ ∃ i ∈ parts, c ∈ part i)
    (hapart : parts.Pairwise fun i j => ∀ c ∈ part i, ∀ c' ∈ part j, c.order ≠ c'.order) :
    (parts.flatMap fun i => select (part i)).Perm (select charges) := by
  apply flatMap_perm (hnodup charges) fun i _ => hnodup (part i)
  · intro a
    rw [hsingle]
    constructor
    · rintro ⟨c, hc, ha⟩
      obtain ⟨i, hi, hc⟩ := (hmem c).1 hc
      exact ⟨i, hi, (hsingle _ a).2 ⟨c, hc, ha⟩⟩
    · rintro ⟨i, hi, ha⟩
      obtain ⟨c, hc, ha⟩ := (hsingle _ a).1 ha
      exact ⟨c, (hmem c).2 ⟨i, hi, hc⟩, ha⟩
  · -- What two parts select would be selected for two charges of one order.
    apply hapart.imp_of_mem
    intro i j hi hj happart a ha ha'
    obtain ⟨c, hc, ha⟩ := (hsingle _ a).1 ha
    obtain ⟨c', hc', ha'⟩ := (hsingle _ a).1 ha'
    exact happart c hc c' hc'
      (horder c ((hmem c).2 ⟨i, hi, hc⟩) c' ((hmem c').2 ⟨j, hj, hc'⟩) a ha ha')

theorem pairwise_order_ne (hcharges : charges.Nodup) {key : GroupKey}
    (hkey : ∀ c ∈ charges, c.key = key) : charges.Pairwise fun c c' => c.order ≠ c'.order := by
  refine hcharges.imp_of_mem fun {c c'} hc hc' hne horder => hne ?_
  obtain ⟨htaxRate, hfee, hsupplier, -⟩ :=
    GroupKey.mk.inj ((hkey c hc).trans (hkey c' hc').symm)
  exact (Charge.mk.injEq ..).mpr ⟨horder, hfee, htaxRate, hsupplier⟩

/-- The tax is charged on a fee that the charge stands for, at the rate of the charge. -/
structure Claims (c : Charge) (adjustments : List Adjustment) (tax : Adjustment) : Prop where
  mem : tax ∈ taxesOn (feesOf [c] adjustments) adjustments
  rate : ∃ rate, c.taxRate = some rate ∧ tax.originator = .taxRate rate

variable (hbooked : Booked orders)

include hbooked

theorem eq_of_mem_feesOf (hc : c ∈ ofOrders orders) (hc' : c' ∈ ofOrders orders) {a : Adjustment}
    (ha : a ∈ feesOf [c] (adjustmentsIn orders)) (ha' : a ∈ feesOf [c'] (adjustmentsIn orders)) :
    c.order = c'.order ∧ c.fee = c'.fee := by
  simp only [mem_feesOf, List.mem_singleton, exists_eq_left] at ha ha'
  obtain ⟨-, horder, hfee⟩ := ha
  obtain ⟨-, horder', hfee'⟩ := ha'
  have hid : c.order.id = c'.order.id := horder.trans horder'.symm
  have hsame : Originator.fee c.fee = .fee c'.fee := hfee.symm.trans hfee'
  exact ⟨List.inj_on_of_nodup_map hbooked.ids (mem_ofOrders.1 hc).1 (mem_ofOrders.1 hc').1 hid,
    Originator.fee.inj hsame⟩

theorem eq_of_mem_taxesOn (hc : c ∈ ofOrders orders) (hc' : c' ∈ ofOrders orders) {tax : Adjustment}
    (htax : tax ∈ taxesOn (feesOf [c] (adjustmentsIn orders)) (adjustmentsIn orders))
    (htax' : tax ∈ taxesOn (feesOf [c'] (adjustmentsIn orders)) (adjustmentsIn orders)) :
    c.order = c'.order ∧ c.fee = c'.fee := by
  simp only [taxesOn, List.mem_filter, List.any_eq_true, decide_eq_true_eq] at htax htax'
  obtain ⟨-, -, fee, hfee, hadjustable⟩ := htax
  obtain ⟨-, -, fee', hfee', hadjustable'⟩ := htax'
  have hid : fee.id = fee'.id := Adjustable.adjustment.inj (hadjustable.symm.trans hadjustable')
  obtain rfl := List.inj_on_of_nodup_map hbooked.adjustmentIds (mem_feesOf.1 hfee).1
    (mem_feesOf.1 hfee').1 hid
  exact eq_of_mem_feesOf hbooked hc hc' hfee hfee'

section Parts

variable (hcharges : ∀ c ∈ charges, c ∈ ofOrders orders) {parts : List ι} {part : ι → List Charge}
  (hmem : ∀ c, c ∈ charges ↔ ∃ i ∈ parts, c ∈ part i)
  (hapart : parts.Pairwise fun i j => ∀ c ∈ part i, ∀ c' ∈ part j, c.order ≠ c'.order)

include hcharges hmem hapart

theorem feesOf_perm : (parts.flatMap fun i => feesOf (part i) (adjustmentsIn orders)).Perm
    (feesOf charges (adjustmentsIn orders)) := by
  refine select_perm (fun charges => feesOf charges (adjustmentsIn orders))
    (fun _ => hbooked.nodup_adjustments.filter _) (fun _ _ => mem_feesOf_iff) ?_ hmem hapart
  intro c hc c' hc' a ha ha'
  exact (eq_of_mem_feesOf hbooked (hcharges c hc) (hcharges c' hc') ha ha').1

theorem taxesOn_perm :
    (parts.flatMap fun i =>
      taxesOn (feesOf (part i) (adjustmentsIn orders)) (adjustmentsIn orders)).Perm
        (taxesOn (feesOf charges (adjustmentsIn orders)) (adjustmentsIn orders)) := by
  refine select_perm (fun charges =>
    taxesOn (feesOf charges (adjustmentsIn orders)) (adjustmentsIn orders))
    (fun _ => hbooked.nodup_adjustments.filter _) (fun _ _ => mem_taxesOn_iff) ?_ hmem hapart
  intro c hc c' hc' tax htax htax'
  exact (eq_of_mem_taxesOn hbooked (hcharges c hc) (hcharges c' hc') htax htax').1

end Parts

theorem netOf_eq_sum (hcharges : ∀ c ∈ charges, c ∈ ofOrders orders)
    (hapart : charges.Pairwise fun c c' => c.order ≠ c'.order) :
    netOf charges (adjustmentsIn orders) =
      (charges.map fun c => netOf [c] (adjustmentsIn orders)).sum := by
  have hmem (c : Charge) : c ∈ charges ↔ ∃ i ∈ charges, c ∈ [i] := by
    simp only [List.mem_singleton, exists_eq_right']
  have hsingle : charges.Pairwise fun i j => ∀ c ∈ [i], ∀ c' ∈ [j], c.order ≠ c'.order := by
    simpa only [List.mem_singleton, forall_eq] using hapart
  have hfees := feesOf_perm hbooked hcharges hmem hsingle
  have htaxes := taxesOn_perm hbooked hcharges hmem hsingle
  rw [netOf, ← total_perm hfees, total_flatMap, ← total_perm (htaxes.filter _), List.filter_flatMap,
    total_flatMap, ← sum_map_sub]
  rfl

variable {tax : Adjustment}

theorem mem_ratedIn_key (hstay : TaxesStay orders) (hcharges : ∀ c ∈ charges, c ∈ ofOrders orders)
    {key : GroupKey} :
    tax ∈ (Scope.ofCharges (charges.filter (·.key = key))).ratedIn (adjustmentsIn orders) ↔
      ∃ c ∈ charges, c.key = key ∧ c.Claims (adjustmentsIn orders) tax := by
  have hheld {c : Charge} (hc : c ∈ charges.filter (·.key = key)) : c ∈ charges ∧ c.key = key :=
    ⟨(List.mem_filter.1 hc).1, of_decide_eq_true (List.mem_filter.1 hc).2⟩
  have htaxes := (Joined.of_key fun c hc => (hheld hc).2).taxesIn_eq hbooked hstay
    fun c hc => hcharges c (hheld hc).1
  rw [Scope.ratedIn, List.mem_filter, htaxes, mem_taxesOn_iff]
  simp only [List.any_eq_true, decide_eq_true_eq, SortedSet.mem_toList, Scope.mem_ofCharges_taxRates]
  constructor
  · rintro ⟨⟨c, hc, hmem⟩, rate, ⟨other, hother, hrate⟩, horiginator⟩
    have hsame := congrArg GroupKey.taxRate ((hheld hc).2.trans (hheld hother).2.symm)
    exact ⟨c, (hheld hc).1, (hheld hc).2, hmem, rate, hsame.trans hrate, horiginator⟩
  · rintro ⟨c, hc, hkey, hmem, rate, hrate, horiginator⟩
    have hc : c ∈ charges.filter (·.key = key) := List.mem_filter.2 ⟨hc, decide_eq_true hkey⟩
    exact ⟨⟨c, hc, hmem⟩, rate, ⟨c, hc, hrate⟩, horiginator⟩

/-- A tax on the fees of complete charges is claimed by one that has its rate. -/
theorem exists_claims (hstay : TaxesStay orders) (hcharges : ∀ c ∈ charges, c ∈ ofOrders orders)
    (hcomplete : Complete charges)
    (htax : tax ∈ taxesOn (feesOf charges (adjustmentsIn orders)) (adjustmentsIn orders)) :
    ∃ c ∈ charges, c.Claims (adjustmentsIn orders) tax := by
  obtain ⟨c, hc, hmem⟩ := mem_taxesOn_iff.1 htax
  have hsingle : ∀ c' ∈ [c], c' ∈ ofOrders orders :=
    List.forall_mem_singleton.2 (hcharges c hc)
  obtain ⟨c', hc', -, rate, horiginator, hrate⟩ :=
    exists_of_mem_taxesOn hbooked hstay hsingle hmem
  obtain rfl := List.mem_singleton.1 hc'
  have hfee := (Order.mem_charges.1 (mem_ofOrders.1 (hcharges c' hc)).2).2.1
  -- The fee is charged with each of its rates, so also with that of the tax.
  have hrated := hcomplete c' hc c' hc hfee (some rate) (Order.some_mem_taxOutcomes.2 hrate)
  exact ⟨_, hrated, hmem, rate, rfl, horiginator⟩

/-- In one order cycle of a producer a tax is claimed for one key. -/
theorem Claims.key_eq (h : c.Claims (adjustmentsIn orders) tax)
    (h' : c'.Claims (adjustmentsIn orders) tax) (hc : c ∈ ofOrders orders) (hc' : c' ∈ ofOrders orders)
    (hnode : c.key.node .cycle = c'.key.node .cycle) : c.key = c'.key := by
  obtain ⟨horder, hfee⟩ := eq_of_mem_taxesOn hbooked hc hc' h.mem h'.mem
  obtain ⟨rate, hrate, horiginator⟩ := h.rate
  obtain ⟨rate', hrate', horiginator'⟩ := h'.rate
  obtain rfl := Originator.taxRate.inj (horiginator.symm.trans horiginator')
  have hsupplier : c.supplier = c'.supplier := (Node.cycle.inj hnode).2.1
  rw [key, key, horder, hfee, hrate, hrate', hsupplier]

/-- The keys of complete charges part the taxes between them. -/
theorem ratedIn_perm (hstay : TaxesStay orders) (hcharges : ∀ c ∈ charges, c ∈ ofOrders orders)
    (hcomplete : Complete charges) {keys : List GroupKey} (hkeys : keys.Nodup)
    (hmem : ∀ key, key ∈ keys ↔ ∃ c ∈ charges, c.key = key)
    (hnode : ∀ c ∈ charges, ∀ c' ∈ charges, c.key.node .cycle = c'.key.node .cycle) :
    (keys.flatMap fun key =>
      (Scope.ofCharges (charges.filter (·.key = key))).ratedIn (adjustmentsIn orders)).Perm
        (taxesOn (feesOf charges (adjustmentsIn orders)) (adjustmentsIn orders)) := by
  have hnodup := hbooked.nodup_adjustments
  refine flatMap_perm (hnodup.filter _) (fun key _ => (hnodup.filter _).filter _) (fun tax => ?_) ?_
  · constructor
    · intro htax
      obtain ⟨c, hc, hclaims⟩ := exists_claims hbooked hstay hcharges hcomplete htax
      exact ⟨c.key, (hmem _).2 ⟨c, hc, rfl⟩,
        (mem_ratedIn_key hbooked hstay hcharges).2 ⟨c, hc, rfl, hclaims⟩⟩
    · rintro ⟨key, -, htax⟩
      obtain ⟨c, hc, -, hclaims⟩ := (mem_ratedIn_key hbooked hstay hcharges).1 htax
      exact mem_taxesOn_iff.2 ⟨c, hc, hclaims.mem⟩
  · refine hkeys.imp fun hne tax htax htax' => hne ?_
    obtain ⟨c, hc, rfl, hclaims⟩ := (mem_ratedIn_key hbooked hstay hcharges).1 htax
    obtain ⟨c', hc', rfl, hclaims'⟩ := (mem_ratedIn_key hbooked hstay hcharges).1 htax'
    exact hclaims.key_eq hbooked hclaims' (hcharges c hc) (hcharges c' hc') (hnode c hc c' hc')

end Charge

end MarketFees
