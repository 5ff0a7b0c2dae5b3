import MarketFees.Proofs.Ledger.Sound
import MarketFees.Snapshot

namespace MarketFees

theorem flatten_portions {n : Nat} {l : List α} : (portions n l).flatten = l := by
  rw [portions]
  generalize l.length = fuel
  induction fuel generalizing l with
  | zero => cases l <;> simp [portions.go]
  | succ fuel ih =>
    cases l with
    | nil => rfl
    | cons a rest => rw [portions.go, List.flatten_cons, ih, List.take_append_drop]; simp

theorem mem_of_mem_portions {n : Nat} {l part : List α} (h : part ∈ portions n l) {a : α}
    (ha : a ∈ part) : a ∈ l := by
  rw [← flatten_portions (n := n) (l := l)]
  exact List.mem_flatten.2 ⟨part, h, ha⟩

theorem bounds_of_mem_portions {n : Nat} (hn : 0 < n) {l part : List α} (h : part ∈ portions n l) :
    part ≠ [] ∧ part.length ≤ n := by
  rw [portions] at h
  generalize hfuel : l.length = fuel at h
  replace hfuel : l.length ≤ fuel := hfuel.le
  induction fuel generalizing l with
  | zero =>
    obtain rfl := List.length_eq_zero_iff.1 (Nat.le_zero.1 hfuel)
    cases h
  | succ fuel ih =>
    cases l with
    | nil => cases h
    | cons a rest =>
      have hgo : portions.go n (fuel + 1) (a :: rest) =
          (a :: rest).take n :: portions.go n fuel ((a :: rest).drop n) := rfl
      rw [hgo] at h
      rcases List.mem_cons.1 h with rfl | h
      · rw [← List.length_pos_iff, List.length_take, List.length_cons]
        omega
      · refine ih h ?_
        rw [List.length_drop]
        rw [List.length_cons] at hfuel ⊢
        omega

theorem AmountQuery.selects_of_isEmpty {q : AmountQuery} (h : q.isEmpty) (a : Adjustment) :
    q.selects a = false := by
  have hnone {α : Type} [Ord α] {s : SortedSet α} (hs : s.isEmpty) (x : α) : ¬x ∈ s :=
    SortedSet.isEmpty_iff.1 hs x
  simp only [isEmpty, Bool.or_eq_true, Option.any_eq_true_iff_get] at h
  rcases h with (h | ⟨ho, h⟩) | ⟨ha, h⟩
  · simp [selects, hnone h]
  · obtain ⟨s, hs⟩ := Option.isSome_iff_exists.1 ho
    simp only [hs, Option.get_some] at h
    simp [selects, admitsOriginator, hs, hnone h]
  · obtain ⟨s, hs⟩ := Option.isSome_iff_exists.1 ha
    simp only [hs, Option.get_some] at h
    have hno : q.admitsAdjustable a.adjustable = false := by
      cases hadj : a.adjustable <;> simp [admitsAdjustable, hs, hnone h]
    simp [selects, hno]

theorem Snapshot.owned_eq {o : Order} (h : ∀ a ∈ o.adjustments, a.order = o.id) : owned o = o := by
  have hnamed : o.adjustments.map (fun a => { a with order := o.id }) = o.adjustments := by
    refine (List.map_congr_left fun a ha => ?_).trans (List.map_id _)
    rw [← h a ha]
    rfl
  exact congrArg (fun adjustments => { o with adjustments }) hnamed

namespace Ledger

variable {l : Ledger}

def readLineItems (l : Ledger) : List (OrderId × LineItem) :=
  l.lineItems.entries.filterMap fun (id, row) => (row.read id).toOption

def readAdjustments (l : Ledger) : List Adjustment :=
  l.adjustments.entries.filterMap fun (id, row) => (row.cells id >>= AdjustmentCells.read).toOption

def readHeaders (l : Ledger) : List Order :=
  l.orders.entries.filterMap fun (id, row) => (row.read id).toOption

def fill (l : Ledger) (order : Order) : Order :=
  { order with
    lineItems := (l.readLineItems.filter (·.1 = order.id)).map (·.2)
    adjustments := l.readAdjustments.filter (·.order = order.id) }

/-- What can be read from a ledger. -/
def snapshot (l : Ledger) : Snapshot where
  orders := l.readHeaders.map l.fill
  enterprises := l.enterprises.filterMap fun id row => (row.read id).toOption
  fees := l.fees.filterMap fun id row => (row.read id).toOption
  taxRates := l.taxRates.filterMap fun id row => (row.read id).toOption
  cycles := l.cycles.filterMap fun id row => (row.read id).toOption

theorem Sound.lineItems_entries (h : l.Sound) :
    l.lineItems.entries = l.readLineItems.map fun a => (a.2.id, a.2.stored a.1) := by
  obtain ⟨as, has, -⟩ := h.lineItems.exists_entries
  have hread : l.readLineItems = as := by
    rw [readLineItems, ← has, List.filterMap_map]
    exact List.filterMap_some
  rw [hread, has]

theorem Sound.adjustments_entries (h : l.Sound) :
    ∃ as : List Adjustment, l.adjustments.entries = as.map (fun a => (a.id, a.stored a.order)) ∧
      l.readAdjustments = as.map Adjustment.asRead ∧
      ∀ a ∈ as, (l.orders.get? a.order).isSome := by
  obtain ⟨as, has, horder⟩ := h.adjustments.exists_entries
  refine ⟨as, has.symm, ?_, horder⟩
  rw [readAdjustments, ← has, List.filterMap_map, ← List.filterMap_eq_map]
  congr 1
  funext a
  simp only [Function.comp_apply, a.read_row]
  rfl

theorem Sound.orders_entries (h : l.Sound) :
    ∃ os : List Order, l.orders.entries = os.map (fun o => (o.id, o.stored)) ∧
      l.readHeaders = os.map Order.header := by
  obtain ⟨os, hos, -⟩ := h.orders.exists_entries
  refine ⟨os, hos.symm, ?_⟩
  rw [readHeaders, ← hos, List.filterMap_map, ← List.filterMap_eq_map]
  congr 1
  funext o
  simp [Order.read_stored, Except.toOption]

theorem Sound.map_id_readHeaders (h : l.Sound) :
    l.readHeaders.map (·.id) = l.orders.entries.map (·.1) := by
  obtain ⟨os, hos, hread⟩ := h.orders_entries
  rw [hread, hos, List.map_map, List.map_map]
  rfl

theorem Sound.ids_increasing (h : l.Sound) : IncreasingBy (·.id) l.readHeaders := by
  have hkeys := l.orders.increasingBy
  obtain ⟨os, hos, hread⟩ := h.orders_entries
  rw [hos, IncreasingBy.map_iff] at hkeys
  rw [hread, IncreasingBy.map_iff]
  exact hkeys

theorem Sound.adjustmentIds_increasing (h : l.Sound) : IncreasingBy (·.id) l.readAdjustments := by
  obtain ⟨as, has, hread, -⟩ := h.adjustments_entries
  have hkeys := l.adjustments.increasingBy
  rw [has, IncreasingBy.map_iff] at hkeys
  rw [hread, IncreasingBy.map_iff]
  exact hkeys

theorem Sound.mem_ids_of_mem_readAdjustments (h : l.Sound) {a : Adjustment}
    (ha : a ∈ l.readAdjustments) : a.order ∈ l.readHeaders.map (·.id) := by
  obtain ⟨as, -, hread, horder⟩ := h.adjustments_entries
  rw [hread] at ha
  obtain ⟨b, hb, rfl⟩ := List.mem_map.1 ha
  obtain ⟨row, hrow⟩ := Option.isSome_iff_exists.1 (horder b hb)
  rw [h.map_id_readHeaders]
  exact List.mem_map.2 ⟨_, Table.mem_entries_iff.2 hrow, rfl⟩

theorem finds_ofId {ids : List (Id entity)} {id : Id entity} :
    finds ids (.ofId id) = true ↔ ids = [] ∨ id ∈ ids := by
  simp [finds, NumberCell.names_ofId]

theorem admits_of_allows {ids : List (Id entity)} {id : Id entity} (h : Filters.allows ids id) :
    admits ids (.ofId id) := by
  rw [Filters.allows, Bool.or_eq_true, List.isEmpty_iff, List.contains_iff_mem] at h
  rw [admits, finds_ofId.2 h, Bool.or_true]

/-- What short lists of the filters let through holds all orders that pass the filters. -/
theorem Sound.headers_eq (h : l.Sound) (f : Filters) :
    ∃ headers, l.headers f = .ok headers ∧
      headers.filter f.matchesOrder = l.readHeaders.filter f.matchesOrder := by
  obtain ⟨os, hos, hread⟩ := h.orders_entries
  let admitted (o : Order) : Bool :=
    o.completedAt.isSome && admits f.distributors (.ofId o.distributor) &&
      admits f.cycles (.ofId o.cycle)
  have himplies : ∀ o : Order, f.matchesOrder o.header = true → admitted o = true := by
    intro o ho
    simp only [Filters.matchesOrder, Order.header] at ho
    cases hc : o.completedAt with
    | none => simp [hc] at ho
    | some t =>
      simp only [hc, Bool.and_eq_true] at ho
      simp [admitted, hc, admits_of_allows ho.1.2, admits_of_allows ho.2]
  refine ⟨(os.filter admitted).map Order.header, ?_, ?_⟩
  · have hrows : (l.orders.entries.filter fun (_, row) => row.completedAt.isSome &&
        admits f.distributors row.distributor && admits f.cycles row.cycle) =
        (os.filter admitted).map fun o => (o.id, o.stored) := by
      rw [hos, List.filter_map]
      congr 2
      funext o
      simp [admitted, Order.stored]
    rw [headers]
    simp only [hrows]
    rw [List.mapM_map]
    exact mapM_eq_ok fun o _ => o.read_stored
  · rw [hread, List.filter_map, List.filter_map, List.filter_filter]
    congr 2
    funext o
    have := himplies o
    simp only [Function.comp]
    cases hm : f.matchesOrder o.header <;> simp_all

theorem filter_finds (owner : α → OrderId) {l : List α} {orders : List OrderId} {id : OrderId}
    (h : id ∈ orders) :
    (l.filter fun a => finds orders (.ofId (owner a))).filter (owner · = id) =
      l.filter (owner · = id) := by
  rw [List.filter_filter]
  apply List.filter_congr
  intro a _
  have hmem : owner a = id → finds orders (.ofId (owner a)) = true := fun e =>
    finds_ofId.2 (.inr (e ▸ h))
  by_cases e : owner a = id
  · simp [hmem e]
  · simp [e]

theorem Sound.mapM_lineItems (h : l.Sound) (ids : List OrderId) :
    (l.lineItems.entries.filter fun (_, row) => finds ids row.order).mapM
      (fun (id, row) => row.read id) = .ok (l.readLineItems.filter fun a => finds ids (.ofId a.1)) := by
  rw [h.lineItems_entries, List.filter_map, List.mapM_map]
  rw [mapM_eq_ok (g := id) fun a _ => a.2.read_stored a.1, List.map_id]
  rfl

theorem Sound.exists_cells (h : l.Sound) (ids : List OrderId) :
    ∃ cells, (l.adjustments.entries.filter fun (_, row) => finds ids row.order).mapM
        (fun (id, row) => row.cells id) = .ok cells ∧
      cells.mapM AdjustmentCells.read =
        .ok (l.readAdjustments.filter fun a => finds ids (.ofId a.order)) := by
  obtain ⟨as, has, hread, -⟩ := h.adjustments_entries
  refine ⟨(as.filter fun a => finds ids (.ofId a.order)).map Adjustment.cells, ?_, ?_⟩
  · rw [has, List.filter_map, List.mapM_map]
    rw [mapM_eq_ok fun a _ => a.cells_stored]
    rfl
  · rw [List.mapM_map, mapM_eq_ok fun a _ => a.read_cells, hread, List.filter_map]
    rfl

theorem fill_found {orders : List Order} {order : Order} (h : order ∈ orders) :
    { order with
      lineItems := ((l.readLineItems.filter fun a => finds (orders.map (·.id)) (.ofId a.1)).filter
        (·.1 = order.id)).map (·.2)
      adjustments := (l.readAdjustments.filter fun a => finds (orders.map (·.id)) (.ofId a.order)).filter
        (·.order = order.id) } = l.fill order := by
  have hid : order.id ∈ orders.map (·.id) := List.mem_map_of_mem h
  rw [fill, filter_finds Prod.fst hid, filter_finds Adjustment.order hid]

theorem Sound.withChildren_eq (h : l.Sound) (orders : List Order) :
    l.withChildren orders = .ok (orders.map l.fill) := by
  obtain ⟨cells, hcells, hadjustments⟩ := h.exists_cells (orders.map (·.id))
  refine bind_eq_ok.2 ⟨_, h.mapM_lineItems _, bind_eq_ok.2 ⟨_, hcells, bind_eq_ok.2 ⟨_, hadjustments, ?_⟩⟩⟩
  exact congrArg Except.ok (List.map_congr_left fun order => fill_found)

theorem Sound.search_eq (h : l.Sound) (f : Filters) (permission : Permission) :
    l.search f permission = .ok (l.snapshot.search f permission) := by
  obtain ⟨headers, hok, hmatches⟩ := h.headers_eq f
  have hparts : (portions portionSize (headers.filter f.matchesOrder)).mapM l.withChildren =
      .ok ((portions portionSize (headers.filter f.matchesOrder)).map (·.map l.fill)) :=
    mapM_eq_ok fun orders _ => h.withChildren_eq orders
  refine bind_eq_ok.2 ⟨_, hok, bind_eq_ok.2 ⟨_, hparts, ?_⟩⟩
  apply congrArg Except.ok
  rw [← List.map_flatten, flatten_portions, hmatches, Snapshot.search, snapshot]
  simp only [List.filter_map, List.filter_filter, Function.comp_def]
  have hsame : ∀ order, f.matchesOrder (l.fill order) = f.matchesOrder order := fun _ => rfl
  simp only [hsame, Bool.and_comm]

def Adjustment.candidate (a : Adjustment) : Candidate :=
  ⟨a.id, a.amount.toText, a.originator.number, a.adjustable.stored, a.adjustable.number⟩

theorem candidate_stored (a : Adjustment) :
    candidate a.id (a.stored a.order) = .ok (Adjustment.candidate a) :=
  rfl

theorem passes_candidate (q : AmountQuery) (a : Adjustment) :
    (Adjustment.candidate a).passes q =
      (q.admitsOriginator a.originator.number && q.admitsAdjustable a.adjustable) := by
  rw [Candidate.passes, AmountQuery.admitsAdjustable]
  cases q.adjustables with
  | none => rfl
  | some ids => cases h : a.adjustable <;> simp [Adjustment.candidate, Adjustable.stored, h, Adjustable.number]

theorem read_candidate (a : Adjustment) :
    (Adjustment.candidate a).read = .ok (a.asRead.id, a.asRead.amount) := by
  simp only [Candidate.read, Adjustment.candidate, readDecimal_toText]
  rfl

/-- Whether an adjustment has the kind and the flag of a query. -/
def looksAt (q : AmountQuery) (a : Adjustment) : Bool :=
  a.kind = q.kind && q.included.all (· == a.included)

theorem ofKind_eq {as : List Adjustment}
    (h : l.adjustments.entries = as.map fun a => (a.id, a.stored a.order)) (q : AmountQuery) :
    l.ofKind q = (as.filter (looksAt q)).map fun a => (a.id, a.stored a.order) := by
  rw [ofKind, h, List.filter_map]
  congr 2
  funext a
  have hkind : (a.kind.stored == q.kind.stored) = decide (a.kind = q.kind) := by
    rw [beq_eq_decide, decide_eq_decide, AdjustmentKind.stored_inj]
  have hincluded (b : Bool) : decide (NumberCell.ofBool a.included = .ofBool b) = (b == a.included) := by
    rw [beq_eq_decide, decide_eq_decide, NumberCell.ofBool_inj, eq_comm]
  simp only [Function.comp, Adjustment.stored, looksAt, hkind]
  cases q.included with
  | none => rfl
  | some b => exact congrArg _ (hincluded b)

theorem candidates_eq {as : List Adjustment}
    (h : l.adjustments.entries = as.map fun a => (a.id, a.stored a.order)) (q : AmountQuery)
    {orders : List OrderId} (horders : orders ≠ []) :
    l.candidates q orders = (orders.flatMap fun id =>
      as.filter fun a => looksAt q a && a.order = id).map fun a => (a.id, a.stored a.order) := by
  have hnames (a : Adjustment) (id : OrderId) :
      (a.stored a.order).order.names id = decide (a.order = id) := by
    rw [Bool.eq_iff_iff, decide_eq_true_iff]
    exact NumberCell.names_ofId
  rw [candidates, if_neg (mt List.isEmpty_iff.1 horders), ofKind_eq h, List.map_flatMap]
  apply List.flatMap_congr
  intro id _
  rw [List.filter_map, List.filter_filter]
  simp only [Function.comp_def, hnames, Bool.and_comm (decide _)]

theorem selects_asRead {q : AmountQuery} {order : OrderId} (h : order ∈ q.orders) (a : Adjustment) :
    ((Adjustment.candidate a).passes q && (looksAt q a && decide (a.order = order))) =
      (q.selects a.asRead && decide (a.order = order)) := by
  rw [passes_candidate, AmountQuery.selects, looksAt]
  by_cases ha : a.order = order
  · subst ha
    simp only [Adjustment.asRead, Adjustment.kind, h]
    grind
  · simp [ha]

theorem Sound.selectPortion_eq (h : l.Sound) {q : AmountQuery} {orders : List OrderId}
    (hne : orders ≠ []) (horders : ∀ id ∈ orders, id ∈ q.orders) :
    l.selectPortion q orders = .ok ((orders.flatMap fun id =>
      (l.readAdjustments.filter (·.order = id)).filter q.selects).map fun a => (a.id, a.amount)) := by
  obtain ⟨as, has, hread, -⟩ := h.adjustments_entries
  have hrows : (l.candidates q orders).mapM (fun (id, row) => candidate id row) =
      .ok ((orders.flatMap fun id => as.filter fun a => looksAt q a && a.order = id).map
        Adjustment.candidate) := by
    rw [candidates_eq has q hne, List.mapM_map]
    exact mapM_eq_ok fun a _ => candidate_stored a
  refine bind_eq_ok.2 ⟨_, hrows, ?_⟩
  rw [List.filter_map, List.mapM_map]
  refine (mapM_eq_ok fun a _ => read_candidate a).trans (congrArg Except.ok ?_)
  rw [List.filter_flatMap, List.map_flatMap, List.map_flatMap]
  apply List.flatMap_congr
  intro id hid
  rw [hread, List.filter_map, List.filter_map, List.map_map, List.filter_filter, List.filter_filter]
  congr 1
  apply List.filter_congr
  intro a _
  exact selects_asRead (horders id hid) a

/-- The portions of a query together select what the query selects. -/
theorem Sound.mapM_selectPortion_eq (h : l.Sound) (q : AmountQuery) :
    (do return (← (portions portionSize q.orders.toList).mapM (l.selectPortion q)).flatten) =
      (.ok ((l.snapshot.selected q).map fun a => (a.id, a.amount)) : Except StoreError _) := by
  let selectedOf (id : OrderId) := (l.readAdjustments.filter (·.order = id)).filter q.selects
  have hparts := mapM_eq_ok fun part (hpart : part ∈ portions portionSize q.orders.toList) =>
    h.selectPortion_eq (bounds_of_mem_portions (by decide) hpart).1
      fun id hid => mem_of_mem_portions hpart hid
  refine bind_eq_ok.2 ⟨_, hparts, congrArg Except.ok ?_⟩
  have hids : (q.orders.toList.filter (· ∈ l.readHeaders.map (·.id))) =
      (l.readHeaders.map (·.id)).filter (· ∈ q.orders) := by
    have hincreasing : IncreasingBy id (l.readHeaders.map (·.id)) :=
      IncreasingBy.map_iff.2 h.ids_increasing
    apply (q.orders.increasingBy.filter _).eq_of_mem_iff (hincreasing.filter _)
    intro id
    simp [SortedSet.mem_toList, and_comm]
  have hnone : ∀ id ∈ q.orders.toList, decide (id ∈ l.readHeaders.map (·.id)) = false →
      selectedOf id = [] := by
    intro id _ hid
    apply List.eq_nil_iff_forall_not_mem.2
    intro a ha
    obtain ⟨ha, -⟩ := List.mem_filter.1 ha
    obtain ⟨ha, horder⟩ := List.mem_filter.1 ha
    have hmem := h.mem_ids_of_mem_readAdjustments ha
    rw [of_decide_eq_true horder] at hmem
    exact of_decide_eq_false hid hmem
  calc _ = (q.orders.toList.flatMap selectedOf).map fun a => (a.id, a.amount) := by
        rw [← List.flatMap_def, ← List.map_flatMap, ← List.flatMap_assoc, List.flatMap_id',
          flatten_portions]
    _ = (((l.readHeaders.map (·.id)).filter (· ∈ q.orders)).flatMap selectedOf).map
        fun a => (a.id, a.amount) := by rw [← hids, flatMap_filter_of_eq_nil hnone]
    _ = (l.snapshot.selected q).map fun a => (a.id, a.amount) := by
        rw [Snapshot.selected, snapshot, List.filter_flatMap, List.filter_map, List.filter_map,
          List.flatMap_map, List.flatMap_map]
        rfl

theorem Sound.select_eq (h : l.Sound) (q : AmountQuery) :
    l.select q = .ok ((l.snapshot.selected q).map fun a => (a.id, a.amount)) := by
  rw [select]
  split
  · next hempty =>
    have hnone : l.snapshot.selected q = [] := by
      simp [Snapshot.selected, AmountQuery.selects_of_isEmpty hempty]
    rw [hnone]
    rfl
  · exact h.mapM_selectPortion_eq q

theorem mapM_get? {t : Table (Id entity) ρ} {read : Id entity → ρ → Except StoreError σ}
    {key : α → Id entity} {row : α → ρ} {p : α → Prop} (h : t.StoredFrom key row p)
    (hread : ∀ a, ∃ b, read (key a) (row a) = .ok b) (id : Id entity) :
    (t.get? id).mapM (read id) =
      .ok ((t.filterMap fun id row => (read id row).toOption).get? id) := by
  rw [Table.get?_filterMap]
  cases hget : t.get? id with
  | none => rfl
  | some r =>
    obtain ⟨a, rfl, rfl, -⟩ := h id r hget
    obtain ⟨b, hb⟩ := hread a
    rw [Option.mapM_some, Option.bind_some, hb]
    rfl

/-- A ledger answers as what can be read from it. -/
theorem Sound.store_eq (h : l.Sound) : l.store = l.snapshot.store := by
  have hsearch : l.search = fun f permission => .ok (l.snapshot.search f permission) := by
    funext f permission
    exact h.search_eq f permission
  have hsum : l.store.amounts.amountSum = l.snapshot.store.amounts.amountSum := by
    funext q
    simp only [store, h.select_eq]
    exact congrArg Decimal.sum List.map_map
  have hids : l.store.amounts.adjustmentIds = l.snapshot.store.amounts.adjustmentIds := by
    funext q
    simp only [store, h.select_eq]
    exact congrArg (fun ids => Except.ok (SortedSet.ofList ids)) List.map_map
  have hamounts : l.store.amounts = l.snapshot.store.amounts :=
    congrArg₂ AmountSource.mk hsum hids
  have hcatalog : l.store.catalog = l.snapshot.store.catalog := by
    have henterprise := mapM_get? h.enterprises fun e => ⟨_, e.read_stored⟩
    have hfee := mapM_get? h.fees fun f => ⟨_, f.read_stored⟩
    have htaxRate := mapM_get? h.taxRates fun r => ⟨_, r.read_stored⟩
    have hcycle := mapM_get? h.cycles fun c => ⟨_, c.read_stored⟩
    simp only [store, henterprise, hfee, htaxRate, hcycle]
    rfl
  exact (Store.mk.injEq ..).mpr ⟨hsearch, hamounts, hcatalog⟩

end Ledger

end MarketFees
