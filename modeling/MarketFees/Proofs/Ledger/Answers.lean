import MarketFees.Proofs.Selection

namespace MarketFees

def Adjustment.byOrder : Adjustment → Adjustment → Ordering :=
  compareLex (compareOn order) (compareOn id)

namespace Filters

theorem isSome_of_matchesOrder {f : Filters} {o : Order} (h : f.matchesOrder o) :
    o.completedAt.isSome := by
  cases hcompleted : o.completedAt with
  | none => simp [matchesOrder, hcompleted] at h
  | some _ => rfl

theorem matchesOrder_none (o : Order) : none.matchesOrder o = o.completedAt.isSome := by
  cases hcompleted : o.completedAt <;> simp [matchesOrder, none, allows, hcompleted]

end Filters

namespace Ledger

variable {l : Ledger}

/-- All orders, line items and adjustments that have rows can be read. -/
structure RowsRead (l : Ledger) : Prop where
  headers : l.orders.entries.mapM (fun (id, row) => row.read id) = .ok l.readHeaders
  lineItems : l.lineItems.entries.mapM (fun (id, row) => row.read id) = .ok l.readLineItems
  adjustments : l.adjustments.entries.mapM (fun (id, row) => row.cells id >>= AdjustmentCells.read) =
    .ok l.readAdjustments

theorem Sound.rowsRead (h : l.Sound) : l.RowsRead where
  headers := by
    obtain ⟨os, hos, hread⟩ := h.orders_entries
    rw [hos, hread, List.mapM_map]
    exact mapM_eq_ok fun o _ => o.read_stored
  lineItems := by
    rw [h.lineItems_entries, List.mapM_map]
    exact (mapM_eq_ok (g := id) fun a _ => a.2.read_stored a.1).trans
      (congrArg Except.ok (List.map_id _))
  adjustments := by
    obtain ⟨as, has, hread, -⟩ := h.adjustments_entries
    rw [has, hread, List.mapM_map]
    exact mapM_eq_ok fun a _ => a.read_row a.order

theorem Sound.adjustmentsIn_increasing (h : l.Sound) :
    (adjustmentsIn l.snapshot.orders).Pairwise fun a b => a.byOrder b = .lt := by
  rw [adjustmentsIn, snapshot, List.flatMap_map]
  apply h.ids_increasing.pairwise_flatMap
  · intro header _ a ha
    exact of_decide_eq_true (List.mem_filter.1 ha).2
  · intro header _
    exact h.adjustmentIds_increasing.filter _

theorem Sound.amounts_ofDataset (h : l.Sound) {d : Dataset} (hd : d.orders = l.snapshot.orders) :
    (Snapshot.ofDataset d).store.amounts = l.store.amounts := by
  have howned : (Snapshot.ofDataset d).orders = l.snapshot.orders := by
    rw [Snapshot.ofDataset, hd]
    exact (List.map_congr_left fun o ho => Snapshot.owned_eq (h.booked.order_eq o ho)).trans
      (List.map_id _)
  rw [h.store_eq]
  simp only [Snapshot.store, Snapshot.selected, howned]

/-- What a query yields: of the stored adjustments those that it selects, each once, by order and then by
id. The ids and the sum that it answers are theirs. -/
structure Yields (l : Ledger) (q : AmountQuery) (selected : List Adjustment) : Prop where
  select_eq : l.select q = .ok (selected.map fun a => (a.id, a.amount))
  perm : selected.Perm (l.readAdjustments.filter q.selects)
  nodup_ids : (selected.map (·.id)).Nodup
  increasing : selected.Pairwise fun a b => a.byOrder b = .lt
  adjustmentIds_eq : l.store.amounts.adjustmentIds q = .ok (.ofList (selected.map (·.id)))
  amountSum_eq : l.store.amounts.amountSum q = Decimal.sum (selected.map (·.amount))

theorem Sound.yields (h : l.Sound) (q : AmountQuery) : l.Yields q (l.snapshot.selected q) := by
  have hselected : l.snapshot.selected q = (adjustmentsIn l.snapshot.orders).filter q.selects :=
    Snapshot.selected_eq h.booked.order_eq q
  constructor
  case select_eq => exact h.select_eq q
  case perm =>
    rw [hselected]
    exact h.adjustmentsIn_perm.filter _
  case nodup_ids =>
    rw [hselected]
    exact h.booked.adjustmentIds.sublist (List.filter_sublist.map _)
  case increasing =>
    rw [hselected]
    exact h.adjustmentsIn_increasing.filter _
  case adjustmentIds_eq =>
    rw [h.store_eq]
    rfl
  case amountSum_eq =>
    rw [h.store_eq]
    rfl

/-- A query on a ledger yields the stored adjustments that it selects, and a dataset of the stored orders
answers all queries alike. An empty restriction selects nothing, so that it makes no difference that no
portion is asked then. -/
theorem Reached.query_selects (h : l.Reached) (q : AmountQuery) :
    l.RowsRead ∧ (∃ selected, l.Yields q selected) ∧
      (∀ d : Dataset, d.orders = l.snapshot.orders →
        (Snapshot.ofDataset d).store.amounts = l.store.amounts) ∧
      (q.isEmpty → ∀ a, q.selects a = false) ∧
      (do return (← (portions portionSize q.orders.toList).mapM (l.selectPortion q)).flatten) =
        l.select q := by
  have hsound := h.sound
  refine ⟨hsound.rowsRead, ⟨_, hsound.yields q⟩, fun d hd => hsound.amounts_ofDataset hd,
    AmountQuery.selects_of_isEmpty, ?_⟩
  rw [hsound.mapM_selectPortion_eq, hsound.select_eq]

theorem query_twoDays :
    let l := new.putAll .twoDays
    let q := (AmountQuery.taxes (.ofList [⟨7⟩, ⟨2⟩, ⟨1⟩])).withIncluded true
    l.Reached ∧ ∃ selected, l.Yields q selected ∧ selected.map (·.id) = [⟨4⟩] := by
  intro l q
  have hreached : l.Reached := .load (d := .twoDays) .new rfl
  obtain ⟨-, ⟨selected, hyields⟩, -⟩ := hreached.query_selects q
  have hids : (l.readAdjustments.filter q.selects).map (·.id) = [⟨4⟩] := by cbv
  refine ⟨hreached, selected, hyields, ?_⟩
  exact List.perm_singleton.1 (hids ▸ hyields.perm.map (·.id))

/-- A search on a ledger finds, of all complete orders with all their children, those that pass the
filters and that the caller may see, by id. -/
theorem Reached.search_filters (h : l.Reached) :
    l.RowsRead ∧ ∃ all : List Order, l.store.search .none .everything = .ok all ∧
      all = (l.readHeaders.filter (·.completedAt.isSome)).map l.fill ∧
      IncreasingBy (·.id) all ∧
      ∀ f permission,
        l.store.search f permission = .ok ((all.filter f.matchesOrder).filter permission) := by
  have hsound := h.sound
  have hall : l.snapshot.search .none .everything =
      (l.readHeaders.filter (·.completedAt.isSome)).map l.fill := by
    simp only [Snapshot.search, Permission.everything, Bool.and_true, Filters.matchesOrder_none]
    exact List.filter_map
  refine ⟨hsound.rowsRead, _, hsound.search_eq _ _, hall, ?_, fun f permission => ?_⟩
  · rw [hall, IncreasingBy.map_iff]
    exact hsound.ids_increasing.filter _
  · refine (hsound.search_eq f permission).trans (congrArg Except.ok ?_)
    simp only [Snapshot.search, Permission.everything, Bool.and_true, Filters.matchesOrder_none,
      List.filter_filter]
    apply List.filter_congr
    intro o _
    cases hmatches : f.matchesOrder o with
    | false => simp
    | true => simp [Filters.isSome_of_matchesOrder hmatches]

theorem search_checkout :
    let f := { Filters.none with distributors := List.replicate 600 ⟨1⟩ }
    ∃ l, new.load .checkout = .ok l ∧ l.Reached ∧
      l.store.search f .everything = .ok Dataset.quarterTax.orders := by
  intro f
  obtain ⟨l, hload, hreached, hstore⟩ := exists_load rfl Dataset.distinct_checkout
  obtain ⟨-, all, hall, -, -, hsearch⟩ := hreached.search_filters
  have horders : all = Dataset.quarterTax.orders := by
    rw [hstore] at hall
    exact (Except.ok.inj hall).symm.trans (by cbv)
  have hallows : Filters.allows f.distributors ⟨1⟩ = true :=
    Bool.or_eq_true_iff.2 (.inr (List.contains_iff_mem.2 (List.mem_replicate.2 ⟨by decide, rfl⟩)))
  have hmatches : ∀ o ∈ Dataset.quarterTax.orders, f.matchesOrder o = true := by
    intro o ho
    obtain rfl := List.mem_singleton.1 ho
    exact Bool.and_eq_true_iff.2 ⟨hallows, rfl⟩
  refine ⟨l, hload, hreached, ?_⟩
  rw [hsearch, horders, List.filter_eq_self.2 hmatches]
  rfl

end Ledger

end MarketFees
