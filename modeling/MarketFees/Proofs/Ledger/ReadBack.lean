import Mathlib
import MarketFees.Proofs.Ledger.Loading

namespace MarketFees

theorem filter_filterMap_eq {f : α → Option β} {p : β → Bool} {q : α → Bool} {l : List α}
    (h : ∀ a ∈ l, ∀ b, f a = some b → p b = q a) :
    (l.filterMap f).filter p = (l.filter q).filterMap f := by
  rw [List.filter_filterMap, List.filterMap_filter]
  apply List.filterMap_congr
  intro a ha
  cases hf : f a with
  | none => simp
  | some b => rw [Option.filter_some, h a ha b hf]

theorem findRev?_map {f : α → β} {p : β → Bool} {l : List α} :
    (l.map f).findRev? p = (l.findRev? fun a => p (f a)).map f := by
  rw [List.findRev?_eq_find?_reverse, List.findRev?_eq_find?_reverse, ← List.map_reverse, List.find?_map]
  rfl

/-- The catalog gives, of each id that a dataset defines, the last definition. -/
structure Catalog.Defines (catalog : Catalog) (d : Dataset) : Prop where
  enterprise : ∀ id e, d.enterprises.findRev? (·.id = id) = some e → catalog.enterprise id = .ok (some e)
  fee : ∀ id f, d.fees.findRev? (·.id = id) = some f → catalog.fee id = .ok (some f)
  taxRate : ∀ id r, d.taxRates.findRev? (·.id = id) = some r → catalog.taxRate id = .ok (some r)
  cycle : ∀ id c, d.cycles.findRev? (·.id = id) = some c → catalog.cycle id = .ok (some c)

namespace Dataset

variable {d : Dataset}

theorem order_of_validate (h : d.validate = .ok ()) {o : Order} (ho : o ∈ d.orders) {a : Adjustment}
    (ha : a ∈ o.adjustments) : a.order = o.id := by
  have hnone : d.stray? = none := by
    rw [validate] at h
    cases hstray : d.stray? with
    | none => rfl
    | some s => simp [hstray] at h
  have horder := List.findSome?_eq_none_iff.1 hnone o ho
  rw [strayOf?, Option.map_eq_none_iff, List.find?_eq_none] at horder
  exact not_not.1 fun hne => horder a ha (decide_eq_true hne)

theorem owned_of_validate (h : d.validate = .ok ()) {o : Order} (ho : o ∈ d.orders) :
    Snapshot.owned o.sorted.asRead = o.sorted.asRead := by
  apply Snapshot.owned_eq
  intro a ha
  obtain ⟨b, hb, rfl⟩ := List.mem_map.1 ha
  have horder : b.order = o.id := order_of_validate h ho (mem_sortBy.1 hb)
  exact horder

theorem map_owned (h : d.validate = .ok ()) :
    d.sorted.asRead.orders.map Snapshot.owned = d.sorted.asRead.orders := by
  simp only [asRead, sorted, List.map_map]
  apply List.map_congr_left
  intro o ho
  exact owned_of_validate h (mem_sortBy.1 ho)

end Dataset

namespace Table

/-- Of records with distinct keys all rows are there, by key. -/
theorem Updated.entries_eq [Ord κ] [DecidableEq κ] [Std.TransOrd κ] [Std.LawfulEqOrd κ]
    {key : α → κ} {stored : α → ρ} {l : List α} {t t' : Table κ ρ} (h : Updated key stored l t t')
    (hkeys : (l.map key).Nodup) :
    t'.entries.filter (·.1 ∈ l.map key) = (sortBy key l).map fun a => (key a, stored a) := by
  have hincreasing : IncreasingBy Prod.fst ((sortBy key l).map fun a => (key a, stored a)) :=
    IncreasingBy.map_iff.2 (sortBy_increasing hkeys)
  apply (t'.increasingBy.filter _).eq_of_mem_iff hincreasing
  rintro ⟨k, r⟩
  rw [List.mem_filter, mem_entries_iff, h k, decide_eq_true_iff]
  constructor
  · rintro ⟨hget, hk⟩
    obtain ⟨a, ha⟩ := exists_findRev? hk
    obtain ⟨hmem, rfl⟩ := (findRev?_eq_some_iff hkeys).1 ha
    rw [ha] at hget
    exact List.mem_map.2 ⟨a, mem_sortBy.2 hmem, congrArg _ (Option.some.inj hget)⟩
  · intro hstored
    obtain ⟨a, ha, heq⟩ := List.mem_map.1 hstored
    obtain ⟨rfl, rfl⟩ := Prod.mk.inj heq
    have ha := mem_sortBy.1 ha
    rw [(findRev?_eq_some_iff hkeys).2 ⟨ha, rfl⟩]
    exact ⟨rfl, List.mem_map_of_mem ha⟩

theorem Updated.eq_ofList [Ord κ] [DecidableEq κ] [Std.TransOrd κ] [Std.LawfulEqOrd κ]
    {key : α → κ} {stored : α → ρ} {l : List α} {t : Table κ ρ} (h : Updated key stored l ∅ t) :
    t = ofList key stored l := by
  apply ext_get?
  intro k
  rw [h k, get?_empty, Option.or_none, get?_ofList]

end Table

namespace Ledger

namespace Children

variable {κ ρ α : Type} {c : Children κ ρ α} {orders : List Order} {o o' : Order}

theorem nodup_keys (hkeys : (c.keys orders).Nodup) (ho : o ∈ orders) :
    ((c.list o).map c.key).Nodup := by
  rw [keys, List.map_flatMap] at hkeys
  exact (List.nodup_flatMap.1 hkeys).1 o ho

theorem eq_of_mem_keys (hkeys : (c.keys orders).Nodup) (ho : o ∈ orders) (ho' : o' ∈ orders) {k : κ}
    (hk : k ∈ (c.list o).map c.key) (hk' : k ∈ (c.list o').map c.key) : o = o' := by
  rw [keys, List.map_flatMap] at hkeys
  have hdisjoint := (List.nodup_flatMap.1 hkeys).2
  have : Std.Symm (Function.onFun List.Disjoint fun o => (c.list o).map c.key) :=
    ⟨fun _ _ h _ hk hk' => h hk' hk⟩
  by_contra hne
  exact hdisjoint.forall ho ho' hne hk hk'

theorem Last.eq [DecidableEq κ] {a a' : α} {order : Order} {later : List Order}
    (h : c.Last orders (c.key a) a' order later) (hids : (orders.map (·.id)).Nodup)
    (hkeys : (c.keys orders).Nodup) (ho : o ∈ orders) (ha : a ∈ c.list o) :
    order = o ∧ a' = a ∧ order.id ∉ later.map (·.id) := by
  obtain ⟨⟨before, rfl⟩, hfind, -⟩ := h
  obtain ⟨ha', hkey⟩ := findRev?_spec hfind
  have hkey := of_decide_eq_true hkey
  have horder : order ∈ before ++ order :: later := by simp
  obtain rfl := eq_of_mem_keys hkeys ho horder (List.mem_map_of_mem ha) (hkey ▸ List.mem_map_of_mem ha')
  refine ⟨rfl, List.inj_on_of_nodup_map (nodup_keys hkeys ho) ha' ha hkey, ?_⟩
  rw [List.map_append, List.map_cons] at hids
  exact (List.nodup_cons.1 (List.nodup_append.1 hids).2.1).1

variable [Ord κ] [DecidableEq κ] [Std.TransOrd κ] {t t' : Table κ ρ}

/-- The rows that name a stored order are those of its children. -/
theorem Replaced.mem_entries_iff (h : c.Replaced orders t t') (hids : (orders.map (·.id)).Nodup)
    (hkeys : (c.keys orders).Nodup) (ho : o ∈ orders) {k : κ} {r : ρ} :
    (k, r) ∈ t'.entries ∧ (c.owner r).names o.id = true ↔
      ∃ a ∈ c.list o, (c.key a, c.row o.id a) = (k, r) := by
  rw [Table.mem_entries_iff]
  constructor
  · rintro ⟨hget, hnames⟩
    by_cases hk : k ∈ c.keys orders
    · obtain ⟨a, order, later, ⟨⟨before, hsplit⟩, hfind, -⟩, hlast⟩ := h.used k hk
      rw [hlast] at hget
      split at hget
      · cases hget
      cases hget
      rw [c.owner_row, NumberCell.names_ofId] at hnames
      have horder : order ∈ orders := by rw [hsplit]; simp
      obtain rfl := List.inj_on_of_nodup_map hids horder ho hnames
      obtain ⟨ha, hkey⟩ := findRev?_spec hfind
      exact ⟨a, ha, congrArg (·, _) (of_decide_eq_true hkey)⟩
    · cases hold : t.get? k with
      | none =>
        rw [h.absent k hk hold] at hget
        cases hget
      | some old =>
        -- A row that was there before is left only if no stored order owns it.
        obtain ⟨owner, howner, hkept⟩ := h.unused k hk old hold
        rw [hkept] at hget
        split at hget
        · cases hget
        next hnot =>
        cases hget
        rw [howner, NumberCell.names_ofId] at hnames
        exact (hnot (hnames ▸ List.mem_map_of_mem ho)).elim
  · rintro ⟨a, ha, heq⟩
    obtain ⟨rfl, rfl⟩ := Prod.mk.inj heq
    refine ⟨?_, by rw [c.owner_row, NumberCell.names_ofId]⟩
    have hused : c.key a ∈ c.keys orders := List.mem_map_of_mem (List.mem_flatMap.2 ⟨o, ho, ha⟩)
    obtain ⟨a', order, later, hlast, hget⟩ := h.used _ hused
    obtain ⟨rfl, rfl, hlater⟩ := hlast.eq hids hkeys ho ha
    rw [hget, if_neg hlater]

theorem Replaced.entries_eq [Std.LawfulEqOrd κ] (h : c.Replaced orders t t') (hids : (orders.map (·.id)).Nodup)
    (hkeys : (c.keys orders).Nodup) (ho : o ∈ orders) :
    t'.entries.filter (fun e => (c.owner e.2).names o.id) =
      (sortBy c.key (c.list o)).map fun a => (c.key a, c.row o.id a) := by
  have hincreasing : IncreasingBy Prod.fst
      ((sortBy c.key (c.list o)).map fun a => (c.key a, c.row o.id a)) :=
    IncreasingBy.map_iff.2 (sortBy_increasing (nodup_keys hkeys ho))
  apply (t'.increasingBy.filter _).eq_of_mem_iff hincreasing
  rintro ⟨k, r⟩
  rw [List.mem_filter, h.mem_entries_iff hids hkeys ho, List.mem_map]
  simp only [mem_sortBy]

/-- Of what a table is read as the stored orders have their own children. -/
theorem Replaced.filterMap_read [Std.LawfulEqOrd κ] (h : c.Replaced orders t t') (ht' : c.Stored t')
    (hids : (orders.map (·.id)).Nodup) (hkeys : (c.keys orders).Nodup) (ho : o ∈ orders)
    {asRead : OrderId → α → β} {order : β → OrderId} (read : κ → ρ → Except StoreError β)
    (hread : ∀ id a, read (c.key a) (c.row id a) = .ok (asRead id a))
    (horder : ∀ id a, order (asRead id a) = id) :
    (t'.entries.filterMap fun (k, r) => (read k r).toOption).filter (order · = o.id) =
      (sortBy c.key (c.list o)).map (asRead o.id) := by
  have howner : ∀ e ∈ t'.entries, ∀ b, (read e.1 e.2).toOption = some b →
      decide (order b = o.id) = (c.owner e.2).names o.id := by
    rintro ⟨k, r⟩ he b hb
    obtain ⟨id, a, rfl, rfl⟩ := ht' k r (Table.mem_entries_iff.1 he)
    rw [hread] at hb
    obtain rfl : asRead id a = b := Option.some.inj hb
    rw [horder, c.owner_row, Bool.eq_iff_iff, decide_eq_true_iff]
    exact NumberCell.names_ofId.symm
  refine (filter_filterMap_eq howner).trans ?_
  rw [h.entries_eq hids hkeys ho, List.filterMap_map, ← List.filterMap_eq_map]
  apply List.filterMap_congr
  intro a _
  rw [Function.comp_apply, hread]
  rfl

end Children

variable {l l' : Ledger} {d : Dataset} {o : Order}

namespace Loaded

theorem readHeaders_filter (h : l.Loaded d l') (hl' : l'.Sound) (hdistinct : d.Distinct) :
    l'.readHeaders.filter (·.id ∈ d.orders.map (·.id)) = (sortBy (·.id) d.orders).map Order.header := by
  have hid : ∀ e ∈ l'.orders.entries, ∀ a, (e.2.read e.1).toOption = some a →
      decide (a.id ∈ d.orders.map (·.id)) = decide (e.1 ∈ d.orders.map (·.id)) := by
    rintro ⟨id, row⟩ he a ha
    obtain ⟨b, rfl, rfl, -⟩ := hl'.orders id row (Table.mem_entries_iff.1 he)
    rw [Order.read_stored] at ha
    obtain rfl : b.header = a := Option.some.inj ha
    rfl
  refine (filter_filterMap_eq hid).trans ?_
  rw [h.orders.entries_eq hdistinct.orders, List.filterMap_map, ← List.filterMap_eq_map]
  congr 1
  funext a
  simp [Order.read_stored, Except.toOption]

theorem readLineItems_filter (h : l.Loaded d l') (hl' : l'.Sound) (hdistinct : d.Distinct)
    (ho : o ∈ d.orders) :
    l'.readLineItems.filter (·.1 = o.id) = (sortBy (·.id) o.lineItems).map (o.id, ·) :=
  h.lineItems.filterMap_read hl'.stored_lineItems hdistinct.orders hdistinct.lineItems ho
    (fun id row => row.read id) LineItem.read_stored fun _ _ => rfl

theorem readAdjustments_filter (h : l.Loaded d l') (hl' : l'.Sound) (hdistinct : d.Distinct)
    (ho : o ∈ d.orders) :
    l'.readAdjustments.filter (·.order = o.id) =
      (sortBy (·.id) o.adjustments).map fun a => { a.asRead with order := o.id } :=
  h.adjustments.filterMap_read hl'.stored_adjustments hdistinct.orders hdistinct.adjustments ho
    (fun id row => row.cells id >>= AdjustmentCells.read) Adjustment.read_row fun _ _ => rfl

theorem fill_header (h : l.Loaded d l') (hl' : l'.Sound) (hdistinct : d.Distinct) (ho : o ∈ d.orders) :
    l'.fill o.header = Snapshot.owned o.sorted.asRead := by
  have hid : o.header.id = o.id := rfl
  rw [fill, hid, h.readLineItems_filter hl' hdistinct ho, h.readAdjustments_filter hl' hdistinct ho,
    List.map_map]
  simp [Snapshot.owned, Order.asRead, Order.sorted, Order.header, Adjustment.asRead, Function.comp_def]

/-- Of what can be read from the ledger the stored orders are the dataset's. -/
theorem orders_filter (h : l.Loaded d l') (hl' : l'.Sound) (hdistinct : d.Distinct) :
    l'.snapshot.orders.filter (·.id ∈ d.orders.map (·.id)) =
      d.sorted.asRead.orders.map Snapshot.owned := by
  have hid : ∀ o, (l'.fill o).id = o.id := fun _ => rfl
  rw [snapshot, List.filter_map]
  simp only [Function.comp_def, hid]
  rw [h.readHeaders_filter hl' hdistinct, Dataset.asRead, Dataset.sorted, List.map_map, List.map_map,
    List.map_map]
  apply List.map_congr_left
  intro o ho
  exact h.fill_header hl' hdistinct (mem_sortBy.1 ho)

theorem defines (h : l.Loaded d l') : l'.store.catalog.Defines d.asRead where
  enterprise := h.readsLast.enterprises
  fee := h.readsLast.fees
  taxRate id r hr := by
    rw [Dataset.asRead, findRev?_map, Option.map_eq_some_iff] at hr
    obtain ⟨r, hr, rfl⟩ := hr
    exact h.readsLast.taxRates id r hr
  cycle := h.readsLast.cycles

end Loaded

theorem filterMap_read {key : α → Id entity} {row : α → ρ} {read : Id entity → ρ → Except StoreError α}
    {f : α → α} {l : List α} {t : Table (Id entity) ρ} (ht : Table.Updated key row l ∅ t)
    (hread : ∀ a, read (key a) (row a) = .ok (f a)) (hkey : ∀ a, key (f a) = key a) :
    (t.filterMap fun id r => (read id r).toOption) = .ofList key id (l.map f) := by
  rw [ht.eq_ofList]
  refine Table.filterMap_ofList hkey (fun a => ?_) l
  rw [hread]
  rfl

/-- What can be read from a new ledger with a dataset is the dataset by id, where no zero has a sign. -/
theorem snapshot_putAll (h : d.Distinct) :
    (new.putAll d).snapshot = Snapshot.ofDataset d.sorted.asRead := by
  have hsound := Sound.new.putAll d
  have hloaded := Sound.new.loaded_putAll d
  have horders : (new.putAll d).snapshot.orders = d.sorted.asRead.orders.map Snapshot.owned := by
    rw [← hloaded.orders_filter hsound h, List.filter_eq_self.2]
    intro o ho
    obtain ⟨header, hheader, rfl⟩ := List.mem_map.1 ho
    have hid : header.id ∈ (new.putAll d).readHeaders.map (·.id) := List.mem_map_of_mem hheader
    rw [hsound.map_id_readHeaders] at hid
    obtain ⟨⟨_, row⟩, hrow, rfl⟩ : ∃ e ∈ (new.putAll d).orders.entries, e.1 = header.id :=
      List.mem_map.1 hid
    apply decide_eq_true
    -- An order from elsewhere would have been there before.
    by_contra hother
    have hget : (new.putAll d).orders.get? header.id = none := hloaded.outside header.id hother
    rw [Table.mem_entries_iff.1 hrow] at hget
    cases hget
  have henterprises := filterMap_read hloaded.enterprises Enterprise.read_stored fun _ => rfl
  have hfees := filterMap_read hloaded.fees Fee.read_stored fun _ => rfl
  have htaxRates := filterMap_read hloaded.taxRates TaxRate.read_stored fun _ => rfl
  have hcycles := filterMap_read hloaded.cycles OrderCycle.read_stored fun _ => rfl
  rw [List.map_id'] at henterprises hfees hcycles
  exact (Snapshot.mk.injEq ..).mpr ⟨horders, henterprises, hfees, htaxRates, hcycles⟩

theorem exists_load (hvalid : d.validate = .ok ()) (h : d.Distinct) :
    ∃ l, new.load d = .ok l ∧ l.Reached ∧ l.store = (Snapshot.ofDataset d.sorted.asRead).store := by
  have hload : new.load d = .ok (new.putAll d) := load_eq hvalid new
  have hreached : (new.putAll d).Reached := .load .new hload
  refine ⟨new.putAll d, hload, hreached, ?_⟩
  rw [hreached.sound.store_eq, snapshot_putAll h]

/-- What a stored dataset is read back as, whatever the ledger held before: of its orders the complete
ones by id, and of each definition the last one. A zero may have lost its sign. -/
theorem search_load (hl : l.Reached) (hvalid : d.validate = .ok ()) (hdistinct : d.Distinct) :
    ∃ l' found, l.load d = .ok l' ∧ l'.store.search .none .everything = .ok found ∧
      found.filter (·.id ∈ d.orders.map (·.id)) =
        d.sorted.asRead.orders.filter (·.completedAt.isSome) ∧
      l'.store.catalog.Defines d.asRead ∧
      (d.NoNegativeZero →
        found.filter (·.id ∈ d.orders.map (·.id)) = d.sorted.orders.filter (·.completedAt.isSome) ∧
        l'.store.catalog.Defines d) := by
  have hsound := hl.sound.putAll d
  have hloaded := hl.sound.loaded_putAll d
  have hload : l.load d = .ok (l.putAll d) := by
    rw [load, hvalid]
    rfl
  have hfound : ((l.putAll d).snapshot.search .none .everything).filter
      (·.id ∈ d.orders.map (·.id)) = d.sorted.asRead.orders.filter (·.completedAt.isSome) := by
    have hcomplete : ∀ o, (Filters.none.matchesOrder o && Permission.everything o) =
        o.completedAt.isSome := by
      intro o
      rw [Filters.matchesOrder]
      cases o.completedAt <;> rfl
    rw [Snapshot.search, List.filter_filter]
    simp only [hcomplete, Bool.and_comm (decide _)]
    rw [← List.filter_filter, hloaded.orders_filter hsound hdistinct, Dataset.map_owned hvalid]
  have hdefines := hloaded.defines
  refine ⟨l.putAll d, _, hload, hsound.search_eq .none .everything, hfound, hdefines, fun hzero => ?_⟩
  rw [hzero.asRead_eq] at hdefines
  rw [hzero.sorted.asRead_eq] at hfound
  exact ⟨hfound, hdefines⟩

theorem search_load_quarterTax :
    (new.putAll lateOrder).Reached ∧ ∃ l' found, (new.putAll lateOrder).load .quarterTax = .ok l' ∧
      l'.store.search .none .everything = .ok found ∧
      found.filter (·.id ∈ Dataset.quarterTax.orders.map (·.id)) =
        Dataset.quarterTax.sorted.orders.filter (·.completedAt.isSome) ∧
      l'.store.catalog.Defines .quarterTax := by
  have hreached : (new.putAll lateOrder).Reached := .load (d := lateOrder) .new rfl
  obtain ⟨l', found, hload, hsearch, -, -, hexact⟩ :=
    search_load hreached (Dataset.validate_marketDay _) (Dataset.distinct_marketDay _)
  exact ⟨hreached, l', found, hload, hsearch, hexact Dataset.noNegativeZero_quarterTax⟩

def adjustmentSigns (orders : List Order) : List Bool :=
  orders.flatMap fun o => o.adjustments.map (·.amount.negative)

/-- An amount that was rounded away is read back without its sign. -/
theorem search_load_roundedTax_ne :
    Dataset.roundedTax.validate = .ok () ∧ Dataset.roundedTax.Distinct ∧
      ∃ l found, new.load .roundedTax = .ok l ∧ l.store.search .none .everything = .ok found ∧
        found.filter (·.id ∈ Dataset.roundedTax.orders.map (·.id)) ≠
          Dataset.roundedTax.sorted.orders.filter (·.completedAt.isSome) := by
  obtain ⟨l, hload, -, hstore⟩ :=
    exists_load (d := .roundedTax) (Dataset.validate_marketDay _) (Dataset.distinct_marketDay _)
  refine ⟨Dataset.validate_marketDay _, Dataset.distinct_marketDay _, l, _, hload,
    congrArg (·.search .none .everything) hstore, fun heq => ?_⟩
  have hledger : adjustmentSigns (((Snapshot.ofDataset Dataset.roundedTax.sorted.asRead).search .none
      .everything).filter (·.id ∈ Dataset.roundedTax.orders.map (·.id))) = [false, false] := by cbv
  have hdataset : adjustmentSigns (Dataset.roundedTax.sorted.orders.filter (·.completedAt.isSome)) =
      [false, true] := by cbv
  have hsigns := (hledger.symm.trans (congrArg adjustmentSigns heq)).trans hdataset
  cases hsigns

end Ledger

end MarketFees
