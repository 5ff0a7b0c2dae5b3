import MarketFees.Proofs.Ledger.Import
import MarketFees.Proofs.Ledger.Session

namespace MarketFees

/-- The rows of a table after records were stored: of each id the last record, or what was there. -/
def Table.Updated [Ord κ] [DecidableEq κ] (key : α → κ) (stored : α → ρ) (l : List α)
    (t t' : Table κ ρ) : Prop :=
  ∀ k, t'.get? k = ((l.findRev? (key · = k)).map stored).or (t.get? k)

theorem Table.updated_foldl_put [Ord κ] [DecidableEq κ] [Std.TransOrd κ] [Std.LawfulEqOrd κ]
    {key : α → κ} {stored : α → ρ} {l : List α} {t : Table κ ρ} :
    Updated key stored l t (l.foldl (fun t a => t.put (key a) (stored a)) t) := by
  intro k
  rw [get?_foldl_put]
  cases l.findRev? (key · = k) <;> rfl

theorem Table.Updated.of_not_mem [Ord κ] [DecidableEq κ] {key : α → κ} {stored : α → ρ} {l : List α}
    {t t' : Table κ ρ} {k : κ} (h : Updated key stored l t t') (hk : k ∉ l.map key) :
    t'.get? k = t.get? k := by
  rw [h k, findRev?_eq_none hk]
  rfl

/-- Of each key in a list the row that a table holds is read as the last record with this key. -/
def Table.ReadsLast [Ord κ] [DecidableEq κ] (key : α → κ) (read : κ → ρ → Except StoreError β)
    (asRead : α → β) (l : List α) (t : Table κ ρ) : Prop :=
  ∀ k a, l.findRev? (key · = k) = some a → (t.get? k).mapM (read k) = .ok (some (asRead a))

theorem Table.Updated.readsLast [Ord κ] [DecidableEq κ] {key : α → κ} {stored : α → ρ}
    {read : κ → ρ → Except StoreError β} {asRead : α → β} {l : List α} {t t' : Table κ ρ}
    (h : Updated key stored l t t') (hread : ∀ a, read (key a) (stored a) = .ok (asRead a)) :
    t'.ReadsLast key read asRead l := by
  intro k a ha
  obtain rfl : key a = k := of_decide_eq_true (findRev?_spec ha).2
  rw [h (key a), ha, Option.map_some, Option.some_or, Option.mapM_some, hread]
  rfl

/-- The adjustments of a dataset as they are listed, each with the order that it is listed in. -/
def Dataset.listed (d : Dataset) : List (OrderId × Adjustment) :=
  d.orders.flatMap fun o => o.adjustments.map (o.id, ·)

theorem Dataset.stray?_eq (d : Dataset) :
    d.stray? = (d.listed.find? fun a => a.2.order ≠ a.1).map fun a => ⟨a.2.id, a.2.order, a.1⟩ := by
  rw [stray?, listed, List.find?_flatMap, List.map_findSome?]
  congr 1
  funext o
  rw [Function.comp_apply, List.find?_map, Option.map_map]
  rfl

namespace Ledger

/-- A kind of records that orders list and that have a table of their own, in which each row names
its order. -/
structure Children (κ ρ α : Type) where
  list : Order → List α
  key : α → κ
  row : OrderId → α → ρ
  owner : ρ → NumberCell
  owner_row : ∀ order a, owner (row order a) = .ofId order

namespace Children

def lineItems : Children LineItemId LineItemRow LineItem where
  list := (·.lineItems)
  key := (·.id)
  row order item := item.stored order
  owner := (·.order)
  owner_row _ _ := rfl

def adjustments : Children AdjustmentId AdjustmentRow Adjustment where
  list := (·.adjustments)
  key := (·.id)
  row order a := a.stored order
  owner := (·.order)
  owner_row _ _ := rfl

variable {κ ρ α : Type} (c : Children κ ρ α)

def keys (orders : List Order) : List κ :=
  (orders.flatMap c.list).map c.key

theorem keys_cons (o : Order) (rest : List Order) :
    c.keys (o :: rest) = (c.list o).map c.key ++ c.keys rest := by
  rw [keys, List.flatMap_cons, List.map_append, ← keys]

def ownedBy (c : Children κ ρ α) (orders : List Order) (r : ρ) : Bool :=
  orders.any fun o => (c.owner r).names o.id

theorem filter_ownedBy {c : Children κ ρ α} {orders : List Order} {r : ρ} {owner : OrderId}
    (h : c.owner r = .ofId owner) :
    (some r).filter (fun r => !c.ownedBy orders r) =
      if owner ∈ orders.map (·.id) then none else some r := by
  have howned : c.ownedBy orders r = true ↔ owner ∈ orders.map (·.id) := by
    simp only [ownedBy, List.any_eq_true, h, NumberCell.names_ofId, List.mem_map, @eq_comm _ owner]
  rw [Option.filter_some]
  by_cases hmem : owner ∈ orders.map (·.id)
  · rw [if_pos hmem, howned.2 hmem]
    rfl
  · rw [if_neg hmem, Bool.eq_false_iff.2 (mt howned.1 hmem)]
    rfl

variable [DecidableEq κ]

/-- The last child with a key: it is listed in `order`, and `later` are the orders after this one. -/
structure Last (orders : List Order) (k : κ) (a : α) (order : Order) (later : List Order) : Prop where
  split : ∃ before, orders = before ++ order :: later
  find : (c.list order).findRev? (c.key · = k) = some a
  not_later : k ∉ c.keys later

variable {c}

theorem exists_last {orders : List Order} {k : κ} (h : k ∈ c.keys orders) :
    ∃ a order later, c.Last orders k a order later := by
  induction orders with
  | nil => simp [keys] at h
  | cons o rest ih =>
    -- The later orders have the last child, if they have any with this key.
    by_cases hrest : k ∈ c.keys rest
    · obtain ⟨a, order, later, ⟨before, hsplit⟩, hfind, hlater⟩ := ih hrest
      exact ⟨a, order, later, ⟨o :: before, by rw [hsplit, List.cons_append]⟩, hfind, hlater⟩
    · rw [keys_cons, List.mem_append, or_iff_left hrest] at h
      obtain ⟨a, ha⟩ := exists_findRev? h
      exact ⟨a, o, rest, ⟨[], rfl⟩, ha, hrest⟩

variable [Ord κ]

/-- Every row of a table was stored from a child under its key. -/
def Stored (c : Children κ ρ α) (t : Table κ ρ) : Prop :=
  ∀ k r, t.get? k = some r → ∃ order a, c.key a = k ∧ c.row order a = r

/-- What storing orders makes of the table of their children. -/
structure Replaced (c : Children κ ρ α) (orders : List Order) (t t' : Table κ ρ) : Prop where
  /-- A key in use is left to its last child, unless the order of this child comes again. -/
  used : ∀ k ∈ c.keys orders, ∃ a order later, c.Last orders k a order later ∧
    t'.get? k = if order.id ∈ later.map (·.id) then none else some (c.row order.id a)
  /-- Under any other key a row is left as it was, unless its order is stored again. -/
  unused : ∀ k ∉ c.keys orders, ∀ r, t.get? k = some r → ∃ owner : OrderId, c.owner r = .ofId owner ∧
    t'.get? k = if owner ∈ orders.map (·.id) then none else some r
  absent : ∀ k ∉ c.keys orders, t.get? k = none → t'.get? k = none
  /-- An order that is not stored loses the children whose keys are in use. -/
  outside : ∀ order ∉ orders.map (·.id), ∀ k r, c.owner r = .ofId order →
    (t'.get? k = some r ↔ t.get? k = some r ∧ k ∉ c.keys orders)

variable [Std.TransOrd κ] [Std.LawfulEqOrd κ]

def store (c : Children κ ρ α) (t : Table κ ρ) (o : Order) : Table κ ρ :=
  (c.list o).foldl (fun t a => t.put (c.key a) (c.row o.id a))
    (t.filter fun _ r => !(c.owner r).names o.id)

theorem get?_store {t : Table κ ρ} {o : Order} {k : κ} :
    (c.store t o).get? k =
      match (c.list o).findRev? (c.key · = k) with
      | some a => some (c.row o.id a)
      | none => (t.get? k).filter fun r => !(c.owner r).names o.id := by
  rw [store, Table.get?_foldl_put, Table.get?_filter]
  rfl

theorem get?_store_of_not_mem {t : Table κ ρ} {o : Order} {k : κ} (h : k ∉ (c.list o).map c.key) :
    (c.store t o).get? k = (t.get? k).filter fun r => !(c.owner r).names o.id := by
  rw [get?_store, findRev?_eq_none h]

/-- Orders that do not use a key take the row under it away with its order only. -/
theorem get?_foldl_store_of_not_mem {orders : List Order} {t : Table κ ρ} {k : κ}
    (h : k ∉ c.keys orders) :
    (orders.foldl c.store t).get? k = (t.get? k).filter fun r => !c.ownedBy orders r := by
  induction orders generalizing t with
  | nil =>
    rw [List.foldl_nil]
    cases t.get? k <;> rfl
  | cons o rest ih =>
    rw [keys_cons, List.mem_append, not_or] at h
    obtain ⟨ho, hrest⟩ := h
    rw [List.foldl_cons, ih hrest, get?_store_of_not_mem ho, Option.filter_filter]
    congr 1
    funext r
    rw [ownedBy, ownedBy, List.any_cons, Bool.not_or, Bool.and_comm]

theorem get?_foldl_store_of_last {orders later : List Order} {t : Table κ ρ} {k : κ} {a : α}
    {order : Order} (h : c.Last orders k a order later) :
    (orders.foldl c.store t).get? k =
      if order.id ∈ later.map (·.id) then none else some (c.row order.id a) := by
  obtain ⟨⟨before, rfl⟩, hfind, hlater⟩ := h
  -- What the orders before have left under the key does not matter.
  rw [List.foldl_append, List.foldl_cons, get?_foldl_store_of_not_mem hlater, get?_store, hfind]
  exact filter_ownedBy (c.owner_row ..)

theorem Stored.replaced {orders : List Order} {t : Table κ ρ} (h : c.Stored t) :
    c.Replaced orders t (orders.foldl c.store t) where
  used k hk := by
    obtain ⟨a, order, later, hlast⟩ := exists_last hk
    exact ⟨a, order, later, hlast, get?_foldl_store_of_last hlast⟩
  unused k hk r hr := by
    obtain ⟨owner, a, -, rfl⟩ := h k r hr
    have howner := c.owner_row owner a
    refine ⟨owner, howner, ?_⟩
    rw [get?_foldl_store_of_not_mem hk, hr, filter_ownedBy howner]
  absent k hk hnone := by
    rw [get?_foldl_store_of_not_mem hk, hnone]
    rfl
  outside order horder k r howner := by
    by_cases hk : k ∈ c.keys orders
    · obtain ⟨a, o, later, hlast⟩ := exists_last hk
      obtain ⟨before, hsplit⟩ := hlast.split
      -- What lies under the key belongs to the order of its last child, which is not this one.
      have hne : c.row o.id a ≠ r := by
        rintro rfl
        rw [c.owner_row] at howner
        have hid : o.id = order := by
          rw [← NumberCell.names_ofId, howner, NumberCell.names_ofId]
        apply horder
        rw [← hid, hsplit]
        exact List.mem_map_of_mem (by simp)
      rw [get?_foldl_store_of_last hlast]
      split <;> simp [hk, hne]
    · rw [get?_foldl_store_of_not_mem hk, Option.filter_eq_some_iff]
      refine and_congr_right fun _ => ?_
      have howned : (some r).filter (fun r => !c.ownedBy orders r) = _ := filter_ownedBy howner
      rw [if_neg horder, Option.filter_eq_some_iff] at howned
      exact iff_of_true howned.2 hk

/-- Of each key in use the row that a table holds is read as its last child, or there is none because
the order of this child comes again. -/
def ReadsLast (c : Children κ ρ α) (read : κ → ρ → Except StoreError β) (asRead : OrderId → α → β)
    (orders : List Order) (t : Table κ ρ) : Prop :=
  ∀ k ∈ c.keys orders, ∃ a order later, c.Last orders k a order later ∧
    (t.get? k).mapM (read k) =
      .ok (if order.id ∈ later.map (·.id) then none else some (asRead order.id a))

omit [Std.TransOrd κ] [Std.LawfulEqOrd κ] in
theorem Replaced.readsLast {read : κ → ρ → Except StoreError β} {asRead : OrderId → α → β}
    {orders : List Order} {t t' : Table κ ρ} (h : c.Replaced orders t t')
    (hread : ∀ order a, read (c.key a) (c.row order a) = .ok (asRead order a)) :
    c.ReadsLast read asRead orders t' := by
  intro k hk
  obtain ⟨a, order, later, hlast, hget⟩ := h.used k hk
  obtain rfl : c.key a = k := of_decide_eq_true (findRev?_spec hlast.find).2
  refine ⟨a, order, later, hlast, ?_⟩
  rw [hget]
  split
  · rfl
  · rw [Option.mapM_some, hread]
    rfl

end Children

variable {l l' : Ledger} {d : Dataset}

structure Loaded (l : Ledger) (d : Dataset) (l' : Ledger) : Prop where
  version : l'.version = l.version
  enterprises : Table.Updated (·.id) Enterprise.stored d.enterprises l.enterprises l'.enterprises
  cycles : Table.Updated (·.id) OrderCycle.stored d.cycles l.cycles l'.cycles
  fees : Table.Updated (·.id) Fee.stored d.fees l.fees l'.fees
  taxRates : Table.Updated (·.id) TaxRate.stored d.taxRates l.taxRates l'.taxRates
  orders : Table.Updated (·.id) Order.stored d.orders l.orders l'.orders
  lineItems : Children.lineItems.Replaced d.orders l.lineItems l'.lineItems
  adjustments : Children.adjustments.Replaced d.orders l.adjustments l'.adjustments
  outside : ∀ order ∉ d.orders.map (·.id), l'.orders.get? order = l.orders.get? order

/-- What is read of the records of a dataset: definitions, orders without their children, and each child
in the order that it is listed in, as the dataset has them, but for the sign of an amount of zero. -/
structure ReadsLast (l : Ledger) (d : Dataset) : Prop where
  enterprises : l.enterprises.ReadsLast (·.id) (fun id row => row.read id) id d.enterprises
  cycles : l.cycles.ReadsLast (·.id) (fun id row => row.read id) id d.cycles
  fees : l.fees.ReadsLast (·.id) (fun id row => row.read id) id d.fees
  taxRates : l.taxRates.ReadsLast (·.id) (fun id row => row.read id) TaxRate.asRead d.taxRates
  orders : l.orders.ReadsLast (·.id) (fun id row => row.read id) Order.header d.orders
  lineItems : Children.lineItems.ReadsLast (fun id row => row.read id) Prod.mk d.orders l.lineItems
  adjustments : Children.adjustments.ReadsLast (fun id row => row.cells id >>= AdjustmentCells.read)
    (fun order a => { a.asRead with order }) d.orders l.adjustments

theorem Loaded.readsLast (h : l.Loaded d l') : l'.ReadsLast d where
  enterprises := h.enterprises.readsLast Enterprise.read_stored
  cycles := h.cycles.readsLast OrderCycle.read_stored
  fees := h.fees.readsLast Fee.read_stored
  taxRates := h.taxRates.readsLast TaxRate.read_stored
  orders := h.orders.readsLast Order.read_stored
  lineItems := h.lineItems.readsLast LineItem.read_stored
  adjustments := h.adjustments.readsLast Adjustment.read_row

theorem foldl_putOrder_eq (l : Ledger) (orders : List Order) :
    orders.foldl putOrder l = { l with
      orders := orders.foldl (fun t o => t.put o.id o.stored) l.orders
      lineItems := orders.foldl Children.lineItems.store l.lineItems
      adjustments := orders.foldl Children.adjustments.store l.adjustments } := by
  induction orders generalizing l with
  | nil => rfl
  | cons o rest ih =>
    rw [List.foldl_cons, ih]
    rfl

theorem putAll_eq (l : Ledger) (d : Dataset) :
    l.putAll d = {
      version := l.version
      enterprises := d.enterprises.foldl (fun t e => t.put e.id e.stored) l.enterprises
      cycles := d.cycles.foldl (fun t c => t.put c.id c.stored) l.cycles
      fees := d.fees.foldl (fun t f => t.put f.id f.stored) l.fees
      taxRates := d.taxRates.foldl (fun t r => t.put r.id r.stored) l.taxRates
      orders := d.orders.foldl (fun t o => t.put o.id o.stored) l.orders
      lineItems := d.orders.foldl Children.lineItems.store l.lineItems
      adjustments := d.orders.foldl Children.adjustments.store l.adjustments } := by
  rw [putAll, foldl_putOrder_eq]

theorem Sound.stored_lineItems (h : l.Sound) : Children.lineItems.Stored l.lineItems := by
  intro id row hrow
  obtain ⟨a, rfl, rfl, -⟩ := h.lineItems id row hrow
  exact ⟨a.1, a.2, rfl, rfl⟩

theorem Sound.stored_adjustments (h : l.Sound) : Children.adjustments.Stored l.adjustments := by
  intro id row hrow
  obtain ⟨a, rfl, rfl, -⟩ := h.adjustments id row hrow
  exact ⟨a.order, a, rfl, rfl⟩

theorem Sound.loaded_putAll (h : l.Sound) (d : Dataset) : l.Loaded d (l.putAll d) := by
  rw [putAll_eq]
  exact {
    version := rfl
    enterprises := Table.updated_foldl_put
    cycles := Table.updated_foldl_put
    fees := Table.updated_foldl_put
    taxRates := Table.updated_foldl_put
    orders := Table.updated_foldl_put
    lineItems := h.stored_lineItems.replaced
    adjustments := h.stored_adjustments.replaced
    outside := fun _ => Table.updated_foldl_put.of_not_mem }

theorem load_eq {d : Dataset} (h : d.validate = .ok ()) (l : Ledger) : l.load d = .ok (l.putAll d) := by
  rw [load, h]
  rfl

/-- A dataset is stored as a whole, or not at all where an adjustment names another order than the one
that it is listed in. -/
theorem respond_load (hl : l.Reached) (d : Dataset) :
    match d.listed.find? fun a => a.2.order ≠ a.1 with
    | some (order, a) =>
      l.respond (.load d) = (.error (.store (.orderMismatch ⟨a.id, a.order, order⟩)), l)
    | none => ∃ l', l.respond (.load d) = (.ok .done, l') ∧ l.Loaded d l' ∧ l'.ReadsLast d := by
  have hstray := d.stray?_eq
  cases hfind : d.listed.find? fun a => a.2.order ≠ a.1 with
  | some a =>
    rw [hfind, Option.map_some] at hstray
    simp only [respond, answer, load, Dataset.validate, hstray]
    rfl
  | none =>
    rw [hfind, Option.map_none] at hstray
    have hloaded := hl.sound.loaded_putAll d
    refine ⟨l.putAll d, ?_, hloaded, hloaded.readsLast⟩
    simp only [respond, answer, load, Dataset.validate, hstray]
    rfl

/-- An order after the market day, which uses the id of a line item again. -/
def lateOrder : Dataset :=
  { (∅ : Dataset) with
    orders := [{
      id := ⟨2⟩
      number := "R2"
      distributor := ⟨1⟩
      cycle := ⟨1⟩
      completedAt := none
      lineItems := [⟨⟨2⟩, ⟨3⟩⟩]
      adjustments := [] }] }

theorem respond_load_lateOrder : (new.putAll .quarterTax).Reached ∧
    ∃ l', (new.putAll .quarterTax).respond (.load lateOrder) = (.ok .done, l') ∧
      l'.orders.get? ⟨1⟩ = (new.putAll .quarterTax).orders.get? ⟨1⟩ ∧
      l'.lineItems.get? ⟨1⟩ = (new.putAll .quarterTax).lineItems.get? ⟨1⟩ ∧
      l'.lineItems.get? ⟨2⟩ ≠ (new.putAll .quarterTax).lineItems.get? ⟨2⟩ := by
  have hreached : (new.putAll .quarterTax).Reached := .load (d := .quarterTax) .new rfl
  obtain ⟨l', hrespond, hloaded, -⟩ := respond_load hreached lateOrder
  have horder : (⟨1⟩ : OrderId) ∉ lateOrder.orders.map (·.id) := by decide
  have hitem : (new.putAll .quarterTax).lineItems.get? ⟨1⟩ = some ⟨.integer 1, .integer 2⟩ := by
    decide
  have htaken : (new.putAll .quarterTax).lineItems.get? ⟨2⟩ = some ⟨.integer 1, .integer 3⟩ := by
    decide
  refine ⟨hreached, l', hrespond, hloaded.outside _ horder, ?_, ?_⟩
  · rw [hitem, hloaded.lineItems.outside ⟨1⟩ horder _ _ rfl]
    exact ⟨hitem, by decide⟩
  · rw [htaken]
    intro hkept
    exact ((hloaded.lineItems.outside ⟨1⟩ horder _ _ rfl).1 hkept).2 (by decide)

end Ledger

end MarketFees
