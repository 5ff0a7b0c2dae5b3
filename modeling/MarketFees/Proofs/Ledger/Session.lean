import MarketFees.Ledger.Session
import MarketFees.Proofs.Ledger.Contents
import MarketFees.Proofs.Overflows

namespace MarketFees

/-- Every row of a table was stored from something under its key, which the row reads as. -/
def Table.ReadsBack (t : Table (Id entity) ρ) (read : Id entity → ρ → Except StoreError β)
    (key : α → Id entity) (stored : α → ρ) (asRead : α → β) : Prop :=
  ∀ id row, t.get? id = some row → ∃ a, key a = id ∧ stored a = row ∧ read id row = .ok (asRead a)

theorem Table.StoredFrom.readsBack {t : Table (Id entity) ρ} {key : α → Id entity} {stored : α → ρ}
    {p : α → Prop} {read : Id entity → ρ → Except StoreError β} {asRead : α → β}
    (h : t.StoredFrom key stored p) (hread : ∀ a, read (key a) (stored a) = .ok (asRead a)) :
    t.ReadsBack read key stored asRead := by
  intro id row hrow
  obtain ⟨a, rfl, rfl, -⟩ := h id row hrow
  exact ⟨a, rfl, rfl, hread a⟩

namespace Ledger

/-- The version and the rows of all tables can be read. Of a decimal only the sign of a zero is lost. -/
structure ReadsBack (l : Ledger) : Prop where
  version : l.version.bind readVersion? = some schemaVersion
  enterprises : l.enterprises.ReadsBack (fun id row => row.read id) (·.id) Enterprise.stored id
  cycles : l.cycles.ReadsBack (fun id row => row.read id) (·.id) OrderCycle.stored id
  fees : l.fees.ReadsBack (fun id row => row.read id) (·.id) Fee.stored id
  taxRates : l.taxRates.ReadsBack (fun id row => row.read id) (·.id) TaxRate.stored TaxRate.asRead
  orders : l.orders.ReadsBack (fun id row => row.read id) (·.id) Order.stored Order.header
  lineItems : l.lineItems.ReadsBack (fun id row => row.read id) (fun a : OrderId × LineItem => a.2.id)
    (fun a => a.2.stored a.1) id
  adjustments : l.adjustments.ReadsBack (fun id row => row.cells id >>= AdjustmentCells.read) (·.id)
    (fun a : Adjustment => a.stored a.order) Adjustment.asRead

/-- The cell names one order, which has a row. -/
def Belongs (l : Ledger) (cell : NumberCell) : Prop :=
  ∃ order, (∀ other : OrderId, cell.names other = true ↔ other = order) ∧ (l.orders.get? order).isSome

variable {l : Ledger}

theorem belongs_ofId {order : OrderId} (h : (l.orders.get? order).isSome) :
    l.Belongs (.ofId order) := by
  refine ⟨order, fun other => ?_, h⟩
  rw [NumberCell.names_ofId]
  exact eq_comm

namespace Sound

theorem belongs_lineItem (h : l.Sound) {id : LineItemId} {row : LineItemRow}
    (hrow : l.lineItems.get? id = some row) : l.Belongs row.order := by
  obtain ⟨a, -, rfl, horder⟩ := h.lineItems id row hrow
  exact belongs_ofId horder

theorem belongs_adjustment (h : l.Sound) {id : AdjustmentId} {row : AdjustmentRow}
    (hrow : l.adjustments.get? id = some row) : l.Belongs row.order := by
  obtain ⟨a, -, rfl, horder⟩ := h.adjustments id row hrow
  exact belongs_ofId horder

theorem readsBack (h : l.Sound) : l.ReadsBack where
  version := by
    rw [h.version]
    decide
  enterprises := h.enterprises.readsBack Enterprise.read_stored
  cycles := h.cycles.readsBack OrderCycle.read_stored
  fees := h.fees.readsBack Fee.read_stored
  taxRates := h.taxRates.readsBack TaxRate.read_stored
  orders := h.orders.readsBack Order.read_stored
  lineItems := h.lineItems.readsBack fun a => a.2.read_stored a.1
  adjustments := h.adjustments.readsBack fun a => a.read_row a.order

open OnlyOverflows in
theorem read_onlyOverflows (h : l.Sound) (r : Read) : OnlyOverflows (l.read r) := by
  have hcatalog := l.snapshot.readable
  have hamounts := l.snapshot.readable_amounts
  have hstore := h.store_eq
  cases r with
  | search f permission =>
    have hsearch : ∃ orders, l.store.search f permission = .ok orders := by
      rw [hstore]
      exact ⟨_, rfl⟩
    exact (lift hsearch).bind fun _ => ok _
  | amountSum q =>
    rw [← hstore] at hamounts
    exact (hamounts.amountSum q).bind fun _ => ok _
  | adjustmentIds q =>
    rw [← hstore] at hamounts
    exact (lift (hamounts.adjustmentIds q)).bind fun _ => ok _
  | enterprise id =>
    rw [← hstore] at hcatalog
    exact (lift (hcatalog.enterprise id)).bind fun _ => ok _
  | fee id =>
    rw [← hstore] at hcatalog
    exact (lift (hcatalog.fee id)).bind fun _ => ok _
  | taxRate id =>
    rw [← hstore] at hcatalog
    exact (lift (hcatalog.taxRate id)).bind fun _ => ok _
  | cycle id =>
    rw [← hstore] at hcatalog
    exact (lift (hcatalog.cycle id)).bind fun _ => ok _
  | report f permission options =>
    have hreport : OnlyOverflows (Report.run l.store f permission options) := by
      rw [hstore]
      exact (lift ⟨_, rfl⟩).bind fun orders =>
        Report.ofOrders_onlyOverflows hamounts hcatalog orders f options
    exact hreport.bind fun _ => ok _

theorem respond_reopen (h : l.Sound) : l.respond .reopen = (.ok .done, l) := by
  rw [respond, answer, h.opened_eq]
  rfl

end Sound

theorem respond_read (l : Ledger) (r : Read) : l.respond (.read r) = (l.read r, l) := by
  rw [respond, answer]
  cases l.read r <;> rfl

theorem Reached.respond (h : l.Reached) (r : Request) : (l.respond r).2.Reached := by
  cases r with
  | load d =>
    rw [Ledger.respond, answer]
    cases hload : l.load d with
    | ok l' => exact h.load hload
    | error e => exact h
  | reopen =>
    rw [h.sound.respond_reopen]
    exact h
  | read r =>
    rw [respond_read]
    exact h

theorem Reached.after (h : l.Reached) (requests : List Request) : (l.after requests).Reached := by
  induction requests generalizing l with
  | nil => exact h
  | cons r rest ih => exact ih (h.respond r)

/-- Whatever was asked of a new ledger, its children belong to orders, all of it can be read, and it
opens again. -/
theorem session_readable : (∅ : Ledger).opened = .ok new ∧ ∀ requests : List Request,
    let l := new.after requests
    (∀ id row, l.lineItems.get? id = some row → l.Belongs row.order) ∧
    (∀ id row, l.adjustments.get? id = some row → l.Belongs row.order) ∧
    l.ReadsBack ∧
    (∀ r : Read, OnlyOverflows (l.respond (.read r)).1) ∧
    l.respond .reopen = (.ok .done, l) := by
  refine ⟨rfl, fun requests => ?_⟩
  have hsound := (Reached.new.after requests).sound
  refine ⟨fun _ _ => hsound.belongs_lineItem, fun _ _ => hsound.belongs_adjustment, hsound.readsBack,
    fun r => ?_, hsound.respond_reopen⟩
  rw [respond_read]
  exact hsound.read_onlyOverflows r

end Ledger

end MarketFees
