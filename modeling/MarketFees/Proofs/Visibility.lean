import Mathlib
import MarketFees.Proofs.Frame
import MarketFees.Proofs.Ledger.ReadBack

namespace MarketFees

structure Catalog.Agrees (a b : Catalog) : Prop where
  enterprise : ∀ id, a.enterprise id = b.enterprise id
  fee : ∀ id, a.fee id = b.fee id
  taxRate : ∀ id, a.taxRate id = b.taxRate id
  cycle : ∀ id, a.cycle id = b.cycle id

theorem Catalog.Agrees.eq {a b : Catalog} (h : a.Agrees b) : a = b :=
  (Catalog.mk.injEq ..).mpr ⟨funext h.enterprise, funext h.fee, funext h.taxRate, funext h.cycle⟩

namespace Snapshot

variable {s t : Snapshot}

/-- The sums over these orders alone. -/
def amountsOf (orders : List Order) : AmountSource :=
  (Snapshot.mk orders ∅ ∅ ∅ ∅).store.amounts

/-- To queries that ask about visible orders only, hidden orders contribute nothing. -/
theorem selected_of_subset (hids : (s.orders.map (·.id)).Nodup) {visible : Order → Bool}
    {q : AmountQuery} (hq : ∀ id ∈ q.orders, id ∈ (s.orders.filter visible).map (·.id)) :
    s.selected q = (Snapshot.mk (s.orders.filter visible) ∅ ∅ ∅ ∅).selected q := by
  rw [selected, selected, List.filter_filter]
  congr 2
  apply List.filter_congr
  intro o ho
  cases hmem : decide (o.id ∈ q.orders) with
  | false => rfl
  | true =>
    obtain ⟨o', ho', hid⟩ := List.mem_map.1 (hq o.id (of_decide_eq_true hmem))
    obtain ⟨ho', hvisible⟩ := List.mem_filter.1 ho'
    rw [← List.inj_on_of_nodup_map hids ho' ho hid, hvisible]
    rfl

theorem agreeOn_visible (hids : (s.orders.map (·.id)).Nodup) (f : Filters) (permission : Permission) :
    s.store.amounts.AgreeOn ((s.search f permission).map (·.id)) (amountsOf (s.search f permission)) := by
  intro q hq
  have hselected := selected_of_subset hids hq
  constructor
  · exact congrArg (fun l => Decimal.sum (l.map (·.amount))) hselected
  · exact congrArg (fun l => Except.ok (SortedSet.ofList (l.map (·.id)))) hselected

/-- A report is made of the visible orders and the definitions alone. -/
theorem run_eq_ofOrders (hids : (s.orders.map (·.id)).Nodup) (f : Filters) (permission : Permission)
    (options : Report.Options) :
    Report.run s.store f permission options =
      Report.ofOrders (s.search f permission) f (amountsOf (s.search f permission)) s.store.catalog
        options :=
  Report.ofOrders_congr (agreeOn_visible hids f permission) f s.store.catalog options

theorem run_eq_of_search_eq (hs : (s.orders.map (·.id)).Nodup) (ht : (t.orders.map (·.id)).Nodup)
    {f : Filters} {permission : Permission} (hsearch : s.search f permission = t.search f permission)
    (hcatalog : s.store.catalog.Agrees t.store.catalog) (options : Report.Options) :
    Report.run s.store f permission options = Report.run t.store f permission options := by
  rw [run_eq_ofOrders hs, run_eq_ofOrders ht, hsearch, hcatalog.eq]

theorem nodup_ids_ofDataset {d : Dataset} (h : (d.orders.map (·.id)).Nodup) :
    ((ofDataset d).orders.map (·.id)).Nodup := by
  have hids : (ofDataset d).orders.map (·.id) = d.orders.map (·.id) := List.map_map
  rw [hids]
  exact h

end Snapshot

theorem Ledger.Sound.nodup_ids {l : Ledger} (h : l.Sound) :
    (l.snapshot.orders.map (·.id)).Nodup := by
  have hids : l.snapshot.orders.map (·.id) = l.readHeaders.map (·.id) := List.map_map
  rw [hids]
  exact h.ids_increasing.nodup_keys

/-- Hidden orders do not influence a report: two ledgers that datasets were stored in, or two datasets
with distinct orders, which have the same orders to show and the same definitions, make one report. -/
theorem run_eq_of_visible_eq :
    (∀ l l' : Ledger, l.Reached → l'.Reached → ∀ f permission options,
      l.store.search f permission = l'.store.search f permission →
      l.store.catalog.Agrees l'.store.catalog →
      Report.run l.store f permission options = Report.run l'.store f permission options) ∧
    (∀ d d' : Dataset, (d.orders.map (·.id)).Nodup → (d'.orders.map (·.id)).Nodup →
      ∀ f permission options,
      (Snapshot.ofDataset d).store.search f permission = (Snapshot.ofDataset d').store.search f permission →
      (Snapshot.ofDataset d).store.catalog.Agrees (Snapshot.ofDataset d').store.catalog →
      Report.run (Snapshot.ofDataset d).store f permission options =
        Report.run (Snapshot.ofDataset d').store f permission options) := by
  constructor
  · intro l l' hl hl' f permission options hsearch hcatalog
    rw [hl.sound.store_eq, hl'.sound.store_eq] at *
    exact Snapshot.run_eq_of_search_eq hl.sound.nodup_ids hl'.sound.nodup_ids
      (Except.ok.inj hsearch) hcatalog options
  · intro d d' hd hd' f permission options hsearch hcatalog
    exact Snapshot.run_eq_of_search_eq (Snapshot.nodup_ids_ofDataset hd)
      (Snapshot.nodup_ids_ofDataset hd') (Except.ok.inj hsearch) hcatalog options

def Dataset.checkout : Dataset :=
  { quarterTax with orders := quarterTax.orders ++ [{
      id := ⟨2⟩
      number := "R2"
      distributor := ⟨1⟩
      cycle := ⟨1⟩
      completedAt := none
      lineItems := [⟨⟨3⟩, ⟨2⟩⟩]
      adjustments := [
        ⟨⟨3⟩, ⟨2⟩, hundredths 9900, .fee ⟨1⟩, .order ⟨2⟩, false, "Packing"⟩,
        ⟨⟨4⟩, ⟨2⟩, hundredths 900, .taxRate ⟨1⟩, .adjustment ⟨3⟩, true, ""⟩] }] }

theorem Dataset.distinct_checkout : checkout.Distinct := by
  constructor <;> decide

theorem run_checkout_eq_run_marketDay :
    (∃ l l', Ledger.new.load .checkout = .ok l ∧
      Ledger.new.load .quarterTax = .ok l' ∧
      Report.run l.store .none .everything ⟨true⟩ = Report.run l'.store .none .everything ⟨true⟩) ∧
    Report.run (Snapshot.ofDataset .checkout).store .none .everything ⟨true⟩ =
      Report.run (Snapshot.ofDataset .quarterTax).store .none
        .everything ⟨true⟩ := by
  constructor
  · obtain ⟨l, hload, hreached, hstore⟩ := Ledger.exists_load rfl Dataset.distinct_checkout
    obtain ⟨l', hload', hreached', hstore'⟩ :=
      Ledger.exists_load (Dataset.validate_marketDay _) (Dataset.distinct_marketDay _)
    refine ⟨l, l', hload, hload', run_eq_of_visible_eq.1 l l' hreached hreached' _ _ _ ?_ ?_⟩
    · rw [hstore, hstore']
      cbv
    · rw [hstore, hstore']
      exact ⟨fun _ => rfl, fun _ => rfl, fun _ => rfl, fun _ => rfl⟩
  · refine run_eq_of_visible_eq.2 _ _ Dataset.distinct_checkout.orders
      (Dataset.distinct_marketDay _).orders _ _ _ ?_ ?_
    · cbv
    · exact ⟨fun _ => rfl, fun _ => rfl, fun _ => rfl, fun _ => rfl⟩

end MarketFees
