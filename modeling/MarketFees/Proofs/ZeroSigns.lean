import Mathlib.Data.List.SplitBy
import MarketFees.Proofs.DecimalText
import MarketFees.Proofs.Ledger.Rows
import MarketFees.Proofs.Retain
import MarketFees.Proofs.Success

namespace MarketFees

namespace Decimal

@[simp]
theorem coefficient_withoutZeroSign (a : Decimal) : a.withoutZeroSign.coefficient = a.coefficient :=
  rfl

theorem withoutZeroSign_eq {a : Decimal} (h : a.negative = false ∨ a.coefficient ≠ 0) :
    a.withoutZeroSign = a := by
  have hsign : (a.negative && a.coefficient != 0) = a.negative := by
    rcases h with h | h <;> simp [h]
  cases a
  simp_all [withoutZeroSign]

theorem withoutZeroSign_of_ofUnits? {units : Int} {scale : Nat} {a : Decimal}
    (h : ofUnits? units scale = some a) : a.withoutZeroSign = a := by
  rw [ofUnits?, mk?] at h
  split at h
  · cases h
    apply withoutZeroSign_eq
    by_cases hneg : units < 0
    · exact .inr (Int.natAbs_ne_zero.2 (by omega))
    · exact .inl (decide_eq_false hneg)
  · cases h

theorem withoutZeroSign_of_fit? {n : Int} {scale : Nat} {a : Decimal} (h : fit? n scale = some a) :
    a.withoutZeroSign = a := by
  obtain ⟨dropped, -, h⟩ := List.exists_of_findSome?_eq_some h
  exact withoutZeroSign_of_ofUnits? h

theorem add?_withoutZeroSign (a b : Decimal) :
    a.withoutZeroSign.add? b.withoutZeroSign = (a.add? b).map withoutZeroSign := by
  by_cases ha : a.coefficient = 0
  · simp [add?, ha]
  by_cases hb : b.coefficient = 0
  · simp [add?, ha, hb]
  · rw [withoutZeroSign_eq (.inr ha), withoutZeroSign_eq (.inr hb), add?, if_neg ha, if_neg hb]
    cases h : fit? _ _ with
    | none => rfl
    | some c => exact congrArg some (withoutZeroSign_of_fit? h).symm

theorem sub?_withoutZeroSign (a b : Decimal) :
    a.withoutZeroSign.sub? b.withoutZeroSign = (a.sub? b).map withoutZeroSign := by
  rw [sub?, sub?, coefficient_withoutZeroSign]
  split
  · exact add?_withoutZeroSign a b
  · next hb =>
    have hneg : (-b).withoutZeroSign = -b := withoutZeroSign_eq (.inr hb)
    rw [withoutZeroSign_eq (.inr hb), ← add?_withoutZeroSign, hneg]

theorem sum?_withoutZeroSign (amounts : List Decimal) :
    sum? (amounts.map withoutZeroSign) = (sum? amounts).map withoutZeroSign := by
  have hfold (total : Decimal) : (amounts.map withoutZeroSign).foldlM add? total.withoutZeroSign =
      (amounts.foldlM add? total).map withoutZeroSign := by
    induction amounts generalizing total with
    | nil => rfl
    | cons a rest ih =>
      rw [List.map_cons, List.foldlM_cons, List.foldlM_cons, add?_withoutZeroSign]
      cases total.add? a with
      | none => rfl
      | some next => exact ih next
  exact hfold 0

theorem sub_withoutZeroSign (a b : Decimal) :
    a.withoutZeroSign.sub b.withoutZeroSign = (a.sub b).map withoutZeroSign := by
  rw [sub, sub, sub?_withoutZeroSign]
  cases a.sub? b <;> rfl

theorem sum_withoutZeroSign (amounts : List Decimal) :
    sum (amounts.map withoutZeroSign) = (sum amounts).map withoutZeroSign := by
  rw [sum, sum, sum?_withoutZeroSign]
  cases sum? amounts <;> rfl

end Decimal

/-- The second source has the sums of the first, with no sign on zeros. -/
structure AmountSource.ForgetsZeroSigns (a b : AmountSource) : Prop where
  amountSum : ∀ q, b.amountSum q = (a.amountSum q).map Decimal.withoutZeroSign
  adjustmentIds : ∀ q, b.adjustmentIds q = a.adjustmentIds q

namespace Totals

def withoutZeroSigns (t : Totals) : Totals where
  exclTax := t.exclTax.withoutZeroSign
  tax := t.tax.withoutZeroSign
  inclTax := t.inclTax.withoutZeroSign
  add_eq := by rw [Decimal.add?_withoutZeroSign, t.add_eq, Option.map_some]

theorem of_withoutZeroSign (exclTax tax : Decimal) :
    of exclTax.withoutZeroSign tax.withoutZeroSign = (of exclTax tax).map withoutZeroSigns := by
  cases hadd : exclTax.add? tax with
  | none =>
    rw [of_eq_error hadd, of_eq_error (by rw [Decimal.add?_withoutZeroSign, hadd]; rfl)]
    rfl
  | some inclTax =>
    have hof : of exclTax tax = .ok ⟨exclTax, tax, inclTax, hadd⟩ := of_eq_ok.2 ⟨rfl, rfl⟩
    rw [hof]
    exact of_eq_ok.2 ⟨rfl, rfl⟩

theorem ofScope_withoutZeroSigns {a b : AmountSource} (h : a.ForgetsZeroSigns b) (scope : Scope) :
    ofScope b scope = (ofScope a scope).map withoutZeroSigns := by
  simp only [ofScope, h.amountSum, h.adjustmentIds]
  split
  · rfl
  refine map_bind_map fun feeTotal => bind_map fun feeIds => map_bind_map fun includedTax => ?_
  have hlast (tax : Decimal) :
      (feeTotal.withoutZeroSign.sub includedTax.withoutZeroSign >>= (of · tax.withoutZeroSign)) =
        (feeTotal.sub includedTax >>= (of · tax)).map withoutZeroSigns := by
    rw [Decimal.sub_withoutZeroSign]
    exact map_bind_map fun exclTax => of_withoutZeroSign exclTax tax
  split
  · exact hlast 0
  · exact map_bind_map hlast

end Totals

def Columns.withoutZeroSigns (c : Columns) : Columns :=
  { c with
    taxRate := c.taxRate.map Decimal.withoutZeroSign
    totals := c.totals.withoutZeroSigns }

def Row.withoutZeroSigns (row : Row) : Row :=
  { row with columns := row.columns.withoutZeroSigns }

def Report.withoutZeroSigns (r : Report) : Report :=
  ⟨r.rows.map Row.withoutZeroSigns⟩

/-- The second catalog defines what the first does, with no sign on tax rates of zero. -/
structure Catalog.ForgetsZeroSigns (a b : Catalog) : Prop where
  enterprise : ∀ id, b.enterprise id = a.enterprise id
  fee : ∀ id, b.fee id = a.fee id
  taxRate : ∀ id, b.taxRate id = (a.taxRate id).map (Option.map TaxRate.asRead)
  cycle : ∀ id, b.cycle id = a.cycle id

variable {a b : AmountSource} {c d : Catalog}

theorem Catalog.columns_withoutZeroSigns (h : c.ForgetsZeroSigns d) (key : GroupKey)
    (totals : Totals) :
    d.columns key totals.withoutZeroSigns = (c.columns key totals).map Columns.withoutZeroSigns := by
  have hrate : d.rate key.taxRate = (c.rate key.taxRate).map (Option.map TaxRate.asRead) := by
    cases key.taxRate with
    | none => rfl
    | some id => exact h.taxRate id
  have howner (fee : Option Fee) : d.owner fee = c.owner fee := by
    cases fee with
    | none => rfl
    | some fee => exact h.enterprise fee.owner
  simp only [columns, h.enterprise, h.fee, h.cycle, howner, hrate]
  refine bind_map fun distributor => bind_map fun producer => bind_map fun cycle =>
    bind_map fun fee => bind_map fun owner => map_bind_map fun rate => ?_
  cases rate <;> rfl

namespace Detail

def withoutZeroSigns (d : Detail) : Detail :=
  { d with columns := d.columns.withoutZeroSigns }

theorem summary_withoutZeroSigns (h : a.ForgetsZeroSigns b) (level : Level) (details : List Detail) :
    summary b level (details.map withoutZeroSigns) =
      (summary a level details).map Row.withoutZeroSigns := by
  have hscopes : (details.map withoutZeroSigns).map (·.scope) = details.map (·.scope) :=
    List.map_map
  rw [summary, summary, hscopes, Totals.ofScope_withoutZeroSigns h]
  refine map_bind_map fun totals => congrArg Except.ok ?_
  cases details with
  | nil => rfl
  | cons first rest => cases level <;> rfl

section Rows

variable {rows rows' : List Detail → Except Fault (List Row)}
  (hrows : ∀ details, rows' (details.map withoutZeroSigns) =
    (rows details).map (List.map Row.withoutZeroSigns))

include hrows

theorem summedUp_withoutZeroSigns (h : a.ForgetsZeroSigns b) (level : Level) (details : List Detail) :
    summedUp b level rows' (details.map withoutZeroSigns) =
      (summedUp a level rows details).map (List.map Row.withoutZeroSigns) := by
  rw [summedUp, summedUp, hrows, summary_withoutZeroSigns h]
  refine map_bind_map fun result => map_bind_map fun row => congrArg Except.ok ?_
  rw [List.map_append]
  rfl

theorem parted_withoutZeroSigns [BEq κ] (id : GroupKey → κ) (details : List Detail) :
    parted id rows' (details.map withoutZeroSigns) =
      (parted id rows details).map (List.map Row.withoutZeroSigns) := by
  rw [parted, parted, splitBy_map, mapM_map_map fun part _ => hrows part]
  refine map_bind_map fun results => congrArg Except.ok ?_
  rw [List.map_flatten]

end Rows

theorem assemble_withoutZeroSigns (h : a.ForgetsZeroSigns b) (withSummaries : Bool)
    (details : List Detail) :
    assemble b withSummaries (details.map withoutZeroSigns) =
      (assemble a withSummaries details).map (List.map Row.withoutZeroSigns) := by
  have hdetails (details : List Detail) : (.ok ((details.map withoutZeroSigns).map row) : Except Fault _) =
      (Except.ok (details.map row)).map (List.map Row.withoutZeroSigns) := by
    apply congrArg Except.ok
    rw [List.map_map, List.map_map]
    rfl
  cases withSummaries with
  | false => exact hdetails details
  | true =>
    apply parted_withoutZeroSigns
    apply summedUp_withoutZeroSigns _ h
    apply parted_withoutZeroSigns
    apply summedUp_withoutZeroSigns _ h
    apply parted_withoutZeroSigns
    exact summedUp_withoutZeroSigns hdetails h .cycle

end Detail

theorem Order.charges_asRead (o : Order) :
    o.asRead.charges = o.charges.map fun c => { c with order := c.order.asRead } := by
  have hfees : o.asRead.fees = o.fees := congrArg SortedSet.ofList List.filterMap_map
  have hadjustments (fee : FeeId) : o.asRead.feeAdjustments fee = o.feeAdjustments fee := by
    rw [feeAdjustments, asRead, List.filter_map, List.map_map]
    rfl
  have houtcomes (charged : List AdjustmentId) : o.asRead.taxOutcomes charged = o.taxOutcomes charged := by
    have hrates : o.asRead.taxRates charged = o.taxRates charged :=
      congrArg SortedSet.ofList List.filterMap_map
    rw [taxOutcomes, taxOutcomes, hrates]
  simp only [charges, hfees, hadjustments, houtcomes, List.map_flatMap, List.map_map]
  rfl

namespace Charge

def asRead (c : Charge) : Charge :=
  { c with order := c.order.asRead }

theorem ofOrders_asRead (orders : List Order) :
    ofOrders (orders.map Order.asRead) = (ofOrders orders).map asRead := by
  rw [ofOrders, ofOrders, List.flatMap_map, List.map_flatMap]
  exact List.flatMap_congr fun o _ => o.charges_asRead

theorem retainFrom_asRead (f : Filters) (owner : FeeId → Except StoreError (Option EnterpriseId))
    (owners : Owners) (charges : List Charge) :
    retainFrom f owner owners (charges.map asRead) =
      (retainFrom f owner owners charges).map (List.map asRead) := by
  induction charges generalizing owners with
  | nil => rfl
  | cons c rest ih =>
    have hpasses : c.asRead.passes f = c.passes f := rfl
    have hfee : c.asRead.fee = c.fee := rfl
    rw [List.map_cons, retainFrom, retainFrom, hpasses, hfee]
    split
    · exact ih owners
    split
    · rw [ih owners]
      exact map_bind_map fun kept => rfl
    · refine bind_map fun found => ?_
      simp only [ih]
      refine map_bind_map fun kept => ?_
      cases f.allowsFeeOwner found.1 <;> rfl

theorem retain_asRead (f : Filters) (owner : FeeId → Except StoreError (Option EnterpriseId))
    (charges : List Charge) :
    retain f owner (charges.map asRead) = (retain f owner charges).map (List.map asRead) := by
  rw [retain, retain]
  split
  · exact retainFrom_asRead f owner ∅ charges
  · rfl

end Charge

def Group.asRead (g : Group) : Group :=
  { g with orders := g.orders.map Order.asRead }

theorem Group.ofCharges_asRead (charges : List Charge) :
    ofCharges (charges.map Charge.asRead) = (ofCharges charges).map asRead := by
  have hkeys : (charges.map Charge.asRead).map (·.key) = charges.map (·.key) := List.map_map
  rw [ofCharges, ofCharges, hkeys, List.map_map]
  apply List.map_congr_left
  intro key _
  rw [List.filter_map, List.map_map, Function.comp, asRead, List.map_map]
  rfl

theorem Group.scope_asRead (g : Group) : g.asRead.scope = g.scope := by
  rw [scope, asRead, List.map_map]
  rfl

namespace Report

theorem entry_withoutZeroSigns (ha : a.ForgetsZeroSigns b) (hc : c.ForgetsZeroSigns d) (g : Group) :
    entry b d g.asRead = (entry a c g).map fun x => (x.1, x.2.withoutZeroSigns) := by
  have hplaced (totals : Totals) : d.placed g.asRead totals.withoutZeroSigns =
      (c.placed g totals).map fun x => (x.1, x.2.withoutZeroSigns) := by
    have hkey : g.asRead.key = g.key := rfl
    rw [Catalog.placed, Catalog.placed, Group.scope_asRead, hkey,
      Catalog.columns_withoutZeroSigns hc]
    refine map_bind_map fun columns => ?_
    rw [Catalog.sortKey, Catalog.sortKey, hc.cycle]
    cases c.cycle g.key.cycle <;> rfl
  rw [entry, entry, Group.scope_asRead, Totals.ofScope_withoutZeroSigns ha]
  refine map_bind_map fun totals => ?_
  rw [hplaced]
  cases c.placed g totals <;> rfl

/-- A report on orders and definitions that have lost the signs of zeros. -/
theorem ofOrders_withoutZeroSigns (ha : a.ForgetsZeroSigns b) (hc : c.ForgetsZeroSigns d)
    (orders : List Order) (f : Filters) (options : Options) :
    ofOrders (orders.map Order.asRead) f b d options =
      (ofOrders orders f a c options).map withoutZeroSigns := by
  have howner : ownerOf d = ownerOf c := by
    funext fee
    rw [ownerOf, ownerOf, hc.fee]
  rw [ofOrders_eq, ofOrders_eq, List.isEmpty_map, howner, Charge.ofOrders_asRead,
    Charge.retain_asRead]
  split
  · rfl
  have hrest (kept : List Charge) : (do
      let entries ← (Group.ofCharges (kept.map Charge.asRead)).mapM (entry b d)
      let rows ← Detail.assemble b options.summaries (sortByKey entries)
      return (⟨rows⟩ : Report)) = (do
      let entries ← (Group.ofCharges kept).mapM (entry a c)
      let rows ← Detail.assemble a options.summaries (sortByKey entries)
      return (⟨rows⟩ : Report)).map withoutZeroSigns := by
    rw [Group.ofCharges_asRead, mapM_map_map fun g _ => entry_withoutZeroSigns ha hc g]
    refine map_bind_map fun entries => ?_
    have hsorted : sortByKey (entries.map fun x => (x.1, x.2.withoutZeroSigns)) =
        (sortByKey entries).map Detail.withoutZeroSigns := by
      change (sortBy Prod.fst _).map Prod.snd = ((sortBy Prod.fst entries).map Prod.snd).map _
      rw [sortBy_map, List.map_map, List.map_map]
      rfl
    rw [hsorted, Detail.assemble_withoutZeroSigns ha]
    exact map_bind_map fun rows => rfl
  cases Charge.retain f (ownerOf c) (Charge.ofOrders orders) with
  | error e => rfl
  | ok kept => exact hrest kept

end Report

end MarketFees
