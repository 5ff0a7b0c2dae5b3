import MarketFees.Proofs.Hierarchy
import MarketFees.Proofs.Stores

namespace MarketFees

namespace Filters

def period (f : Filters) : Filters :=
  { none with startAt := f.startAt, endAt := f.endAt }

/-- Every list of ids that is not empty has the id of the key. A fee has an owner if it is defined. -/
structure Admits (f : Filters) (catalog : Catalog) (key : GroupKey) : Prop where
  distributor : f.distributors = [] ∨ key.distributor ∈ f.distributors
  cycle : f.cycles = [] ∨ key.cycle ∈ f.cycles
  producer : f.producers = [] ∨ key.supplier ∈ f.producers
  fee : f.fees = [] ∨ key.fee ∈ f.fees
  feeOwner : f.feeOwners = [] ∨ ∃ fee, catalog.fee key.fee = .ok (some fee) ∧ fee.owner ∈ f.feeOwners

def admitsOrder (f : Filters) (order : Order) : Bool :=
  allows f.distributors order.distributor && allows f.cycles order.cycle

theorem allows_iff [DecidableEq α] {ids : List α} {id : α} : allows ids id = true ↔ ids = [] ∨ id ∈ ids := by
  rw [allows, Bool.or_eq_true, List.isEmpty_iff, List.contains_iff_mem]

theorem allowsFeeOwner_iff {f : Filters} {catalog : Catalog} {fee : FeeId} :
    f.allowsFeeOwner (Report.ownerOf catalog fee).toOption.join = true ↔
      f.feeOwners = [] ∨ ∃ found, catalog.fee fee = .ok (some found) ∧ found.owner ∈ f.feeOwners := by
  rw [allowsFeeOwner, Bool.or_eq_true, List.isEmpty_iff, Report.ownerOf]
  apply or_congr_right
  cases catalog.fee fee with
  | error e => exact iff_of_false (by simp [bind, Except.bind, Except.toOption]) (by simp)
  | ok found => cases found <;> simp [bind, Except.bind, pure, Except.pure, Except.toOption]

theorem matchesOrder_eq (f : Filters) (order : Order) :
    f.matchesOrder order = (f.period.matchesOrder order && f.admitsOrder order) := by
  rw [matchesOrder, matchesOrder, admitsOrder]
  cases order.completedAt with
  | none => rfl
  | some completedAt => simp [period, none, allows, Bool.and_assoc]

/-- Whether the filters on orders and those on fees and producers admit charges of a key. -/
def admits (f : Filters) (catalog : Catalog) (key : GroupKey) : Bool :=
  (allows f.distributors key.distributor && allows f.cycles key.cycle) &&
    ((f.allowsProducer key.supplier && f.allowsFee key.fee) &&
      f.allowsFeeOwner (Report.ownerOf catalog key.fee).toOption.join)

theorem admits_key (f : Filters) (catalog : Catalog) (c : Charge) :
    f.admits catalog c.key = (f.admitsOrder c.order && c.admitted f (Report.ownerOf catalog)) :=
  rfl

theorem admits_iff {f : Filters} {catalog : Catalog} {key : GroupKey} :
    f.admits catalog key = true ↔ f.Admits catalog key := by
  simp only [admits, allowsProducer, allowsFee, Bool.and_eq_true, allows_iff, allowsFeeOwner_iff]
  constructor
  · rintro ⟨⟨hdistributor, hcycle⟩, ⟨hproducer, hfee⟩, howner⟩
    exact ⟨hdistributor, hcycle, hproducer, hfee, howner⟩
  · rintro ⟨hdistributor, hcycle, hproducer, hfee, howner⟩
    exact ⟨⟨hdistributor, hcycle⟩, ⟨hproducer, hfee⟩, howner⟩

instance (f : Filters) (catalog : Catalog) (key : GroupKey) : Decidable (f.Admits catalog key) :=
  decidable_of_iff (f.admits catalog key = true) admits_iff

theorem decide_admits (f : Filters) (catalog : Catalog) (key : GroupKey) :
    decide (f.Admits catalog key) = f.admits catalog key := by
  rw [Bool.eq_iff_iff, decide_eq_true_iff, admits_iff]

end Filters

theorem Charge.ofOrders_filter {p : Order → Bool} {orders : List Order} :
    ofOrders (orders.filter p) = (ofOrders orders).filter (p ·.order) := by
  have horder {o : Order} {c : Charge} (hc : c ∈ o.charges) : c.order = o := (Order.mem_charges.1 hc).1
  have hdropped : ∀ o ∈ orders, p o = false → o.charges.filter (p ·.order) = [] := by
    intro o _ hp
    apply List.filter_eq_nil_iff.2
    intro c hc
    rw [horder hc, hp]
    exact Bool.false_ne_true
  rw [ofOrders, ofOrders, List.filter_flatMap, ← flatMap_filter_of_eq_nil hdropped]
  apply List.flatMap_congr
  intro o ho
  refine (List.filter_eq_self.2 fun c hc => ?_).symm
  rw [horder hc]
  exact (List.mem_filter.1 ho).2

theorem Group.ofCharges_filter (p : GroupKey → Bool) (charges : List Charge) :
    ofCharges (charges.filter (p ·.key)) = (ofCharges charges).filter (p ·.key) := by
  have hkeys : (SortedSet.ofList ((charges.filter (p ·.key)).map (·.key))).toList =
      (SortedSet.ofList (charges.map (·.key))).toList.filter p := by
    apply (SortedSet.increasingBy _).eq_of_mem_iff ((SortedSet.increasingBy _).filter p)
    intro key
    rw [List.mem_filter, SortedSet.mem_toList, SortedSet.mem_toList, SortedSet.mem_ofList,
      SortedSet.mem_ofList]
    simp only [List.mem_map, List.mem_filter]
    constructor
    · rintro ⟨c, ⟨hc, hp⟩, rfl⟩
      exact ⟨⟨c, hc, rfl⟩, hp⟩
    · rintro ⟨⟨c, hc, rfl⟩, hp⟩
      exact ⟨c, ⟨hc, hp⟩, rfl⟩
  rw [ofCharges, ofCharges, hkeys, List.filter_map]
  apply List.map_congr_left
  intro key hkey
  obtain ⟨-, hp⟩ := List.mem_filter.1 hkey
  -- The charges of an admitted key are all admitted.
  rw [List.filter_filter]
  congr 2
  apply List.filter_congr
  intro c _
  by_cases hc : c.key = key <;> simp_all

namespace Report

variable {amounts : AmountSource} {catalog : Catalog}

theorem nodup_positions {charges : List Charge} {entries : List (SortKey × Detail)}
    (h : (Group.ofCharges charges).mapM (entry amounts catalog) = .ok entries) :
    (entries.map (·.1)).Nodup := by
  have hkeys : entries.map (·.1.key) = (Group.ofCharges charges).map (·.key) :=
    map_of_mapM h fun _ _ hentry => (keys_of_entry hentry).1
  apply List.Nodup.of_map SortKey.key
  rw [List.map_map]
  exact hkeys ▸ Group.nodup_keys_ofCharges charges

theorem sortByKey_filter {l : List (SortKey × Detail)} (h : (l.map (·.1)).Nodup) (p : GroupKey → Bool) :
    sortByKey (l.filter (p ·.2.key)) = (sortByKey l).filter (p ·.key) := by
  have hsort (l : List (SortKey × Detail)) : sortByKey l = (sortBy (·.1) l).map (·.2) := rfl
  rw [hsort, hsort, sortBy_filter h, List.filter_map]
  rfl

theorem ofOrders_filter (hcatalog : catalog.Readable) {orders : List Order} {f : Filters}
    {report : Report} (h : ofOrders orders f.period amounts catalog ⟨false⟩ = .ok report) :
    ofOrders (orders.filter f.admitsOrder) f amounts catalog ⟨false⟩ =
      .ok ⟨report.rows.filter fun row => row.key.any fun key => f.Admits catalog key⟩ := by
  obtain ⟨kept, entries, hkept, hentries, hrows⟩ := ofOrders_eq_ok.1 h
  have hall : kept = Charge.ofOrders orders := (Except.ok.inj hkept).symm
  have hadmitted : ((Charge.ofOrders orders).filter (f.admitsOrder ·.order)).filter
      (Charge.admitted f (ownerOf catalog)) = kept.filter (f.admits catalog ·.key) := by
    rw [List.filter_filter, hall]
    apply List.filter_congr
    intro c _
    rw [f.admits_key, Bool.and_comm]
  refine ofOrders_eq_ok.2 ⟨kept.filter (f.admits catalog ·.key), entries.filter (f.admits catalog ·.2.key),
    ?_, ?_, ?_⟩
  · rw [Charge.retain_eq fun fee => exists_ownerOf hcatalog fee, Charge.ofOrders_filter, hadmitted]
  · rw [Group.ofCharges_filter]
    refine mapM_filter hentries fun g x hx => ?_
    rw [(keys_of_entry hx).2]
  · have hrows : report.rows = (sortByKey entries).map Detail.row := (Except.ok.inj hrows).symm
    rw [sortByKey_filter (nodup_positions hentries), hrows, List.filter_map]
    apply congrArg Except.ok
    congr 2
    funext d
    exact (f.decide_admits catalog d.key).symm

end Report

/-- The stores that reports are made on: datasets kept as they are, and ledgers. -/
inductive Store.Kept : Store → Prop
  | snapshot (d : Dataset) : Kept (Snapshot.ofDataset d).store
  | ledger {l : Ledger} : l.Reached → Kept l.store

theorem Store.Kept.exists_snapshot {store : Store} (h : store.Kept) : ∃ s : Snapshot, store = s.store := by
  cases h with
  | snapshot d => exact ⟨_, rfl⟩
  | ledger hl => exact ⟨_, hl.sound.store_eq⟩

theorem Snapshot.search_filter (s : Snapshot) (f : Filters) (permission : Permission) :
    s.search f permission = (s.search f.period permission).filter f.admitsOrder := by
  rw [search, search, List.filter_filter]
  apply List.filter_congr
  intro order _
  rw [f.matchesOrder_eq order, Bool.and_right_comm, Bool.and_comm]

/-- With lists of ids a report without summaries has the rows that it has without these lists, as far
as the lists admit their keys. -/
theorem run_filter_ids {store : Store} (hstore : store.Kept) {f : Filters} {permission : Permission}
    {report : Report} (h : Report.run store f.period permission ⟨false⟩ = .ok report) :
    Report.run store f permission ⟨false⟩ =
      .ok ⟨report.rows.filter fun row => row.key.any fun key => f.Admits store.catalog key⟩ := by
  obtain ⟨s, rfl⟩ := hstore.exists_snapshot
  have hrun : Report.ofOrders ((s.search f.period permission).filter f.admitsOrder) f s.store.amounts
      s.store.catalog ⟨false⟩ = _ := Report.ofOrders_filter s.readable h
  rw [← s.search_filter] at hrun
  exact hrun

theorem run_marketDay_filter_ids :
    let store := (Snapshot.ofDataset (.marketDay 0)).store
    let f : Filters := { Filters.none with producers := [⟨2⟩] }
    store.Kept ∧ ∃ report, Report.run store f.period .everything ⟨false⟩ = .ok report ∧
      report.rows.map (·.key.map (·.supplier)) = [some ⟨2⟩, some ⟨3⟩] ∧
      Report.run store f .everything ⟨false⟩ =
        .ok ⟨report.rows.filter fun row => row.key.any fun key => f.Admits store.catalog key⟩ := by
  intro store f
  have hstore : store.Kept := .snapshot _
  have hsuppliers : (Report.run store f.period .everything ⟨false⟩).map
      (·.rows.map (·.key.map (·.supplier))) = .ok [some ⟨2⟩, some ⟨3⟩] := by
    cbv
  cases hreport : Report.run store f.period .everything ⟨false⟩ with
  | error e =>
    rw [hreport] at hsuppliers
    cases hsuppliers
  | ok report =>
    rw [hreport] at hsuppliers
    exact ⟨hstore, report, rfl, Except.ok.inj hsuppliers, run_filter_ids hstore hreport⟩

end MarketFees
