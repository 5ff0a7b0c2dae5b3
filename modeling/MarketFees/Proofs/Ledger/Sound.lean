import MarketFees.Proofs.Ledger.Rows
import MarketFees.Proofs.Sequence
import MarketFees.Proofs.Table

namespace MarketFees

namespace Table

variable [Ord κ] [DecidableEq κ]

/-- Every row of a table was stored from something with the property, under its key. -/
def StoredFrom (key : α → κ) (row : α → ρ) (p : α → Prop) (t : Table κ ρ) : Prop :=
  ∀ k r, t.get? k = some r → ∃ a, key a = k ∧ row a = r ∧ p a

namespace StoredFrom

variable {key : α → κ} {row : α → ρ} {p q : α → Prop} {t : Table κ ρ}

theorem empty : StoredFrom key row p (∅ : Table κ ρ) := by
  intro k r h
  simp at h

theorem mono (h : StoredFrom key row p t) (hpq : ∀ a, p a → q a) : StoredFrom key row q t := by
  intro k r hr
  obtain ⟨a, hk, hrow, hp⟩ := h k r hr
  exact ⟨a, hk, hrow, hpq a hp⟩

variable [Std.TransOrd κ]

theorem filter (h : StoredFrom key row p t) (keep : κ → ρ → Bool) :
    StoredFrom key row p (t.filter keep) := by
  intro k r hr
  rw [get?_filter, Option.filter_eq_some_iff] at hr
  exact h k r hr.1

theorem exists_entries (h : StoredFrom key row p t) :
    ∃ as : List α, as.map (fun a => (key a, row a)) = t.entries ∧ ∀ a ∈ as, p a := by
  apply exists_map_eq
  rintro ⟨k, r⟩ hmem
  obtain ⟨a, rfl, rfl, hp⟩ := h k r (mem_entries_iff.1 hmem)
  exact ⟨a, rfl, hp⟩

variable [Std.LawfulEqOrd κ]

theorem put (h : StoredFrom key row p t) {a : α} (ha : p a) :
    StoredFrom key row p (t.put (key a) (row a)) := by
  intro k r hr
  rw [get?_put] at hr
  split at hr
  · next hk => exact ⟨a, hk.symm, Option.some.inj hr, ha⟩
  · exact h k r hr

theorem foldl_put (h : StoredFrom key row p t) {f : β → α} {l : List β} (hl : ∀ b ∈ l, p (f b)) :
    StoredFrom key row p (l.foldl (fun t b => t.put (key (f b)) (row (f b))) t) := by
  induction l generalizing t with
  | nil => exact h
  | cons b rest ih =>
    exact ih (h.put (hl b (List.mem_cons_self ..))) fun c hc => hl c (List.mem_cons_of_mem _ hc)

end StoredFrom

end Table

namespace Ledger

structure Sound (l : Ledger) : Prop where
  version : l.version = some (Text.ofInt schemaVersion)
  enterprises : l.enterprises.StoredFrom (·.id) Enterprise.stored fun _ => True
  cycles : l.cycles.StoredFrom (·.id) OrderCycle.stored fun _ => True
  fees : l.fees.StoredFrom (·.id) Fee.stored fun _ => True
  taxRates : l.taxRates.StoredFrom (·.id) TaxRate.stored fun _ => True
  orders : l.orders.StoredFrom (·.id) Order.stored fun _ => True
  lineItems : l.lineItems.StoredFrom (fun a : OrderId × LineItem => a.2.id)
    (fun a => a.2.stored a.1) fun a => (l.orders.get? a.1).isSome
  adjustments : l.adjustments.StoredFrom (·.id) (fun a : Adjustment => a.stored a.order) fun a =>
    (l.orders.get? a.order).isSome

/-- The ledgers that a new one becomes by storing datasets in it and opening it again. -/
inductive Reached : Ledger → Prop
  | new : Reached new
  | load {l l' : Ledger} {d : Dataset} : Reached l → l.load d = .ok l' → Reached l'
  | opened {l l' : Ledger} : Reached l → l.opened = .ok l' → Reached l'

theorem Sound.new : Sound new where
  version := rfl
  enterprises := .empty
  cycles := .empty
  fees := .empty
  taxRates := .empty
  orders := .empty
  lineItems := .empty
  adjustments := .empty

theorem isSome_get?_put {t : Table OrderId OrderRow} (order : Order) {k : OrderId}
    (h : (t.get? k).isSome ∨ k = order.id) : ((t.put order.id order.stored).get? k).isSome := by
  rw [Table.get?_put]
  split
  · rfl
  · exact h.resolve_right ‹_›

theorem Sound.putOrder {l : Ledger} (h : l.Sound) (order : Order) : (l.putOrder order).Sound where
  version := h.version
  enterprises := h.enterprises
  cycles := h.cycles
  fees := h.fees
  taxRates := h.taxRates
  orders := h.orders.put trivial
  lineItems := by
    have hkept := (h.lineItems.filter fun _ row => !row.order.names order.id).mono fun a ha =>
      isSome_get?_put order (.inl ha)
    exact hkept.foldl_put (f := fun item => (order.id, item)) fun item _ =>
      isSome_get?_put order (.inr rfl)
  adjustments := by
    have hkept := (h.adjustments.filter fun _ row => !row.order.names order.id).mono fun a ha =>
      isSome_get?_put order (.inl ha)
    exact hkept.foldl_put (f := fun a : Adjustment => { a with order := order.id }) fun a _ =>
      isSome_get?_put order (.inr rfl)

theorem Sound.foldl_putOrder {l : Ledger} (h : l.Sound) (orders : List Order) :
    (orders.foldl Ledger.putOrder l).Sound := by
  induction orders generalizing l with
  | nil => exact h
  | cons order rest ih => exact ih (h.putOrder order)

theorem Sound.putAll {l : Ledger} (h : l.Sound) (d : Dataset) : (l.putAll d).Sound := by
  apply Sound.foldl_putOrder
  exact {
    version := h.version
    enterprises := h.enterprises.foldl_put (f := id) fun _ _ => trivial
    cycles := h.cycles.foldl_put (f := id) fun _ _ => trivial
    fees := h.fees.foldl_put (f := id) fun _ _ => trivial
    taxRates := h.taxRates.foldl_put (f := id) fun _ _ => trivial
    orders := h.orders
    lineItems := h.lineItems
    adjustments := h.adjustments }

theorem eq_putAll_of_load {l l' : Ledger} {d : Dataset} (h : l.load d = .ok l') :
    l' = l.putAll d := by
  obtain ⟨_, -, h⟩ := bind_eq_ok.1 h
  exact (Except.ok.inj h).symm

theorem Sound.opened_eq {l : Ledger} (h : l.Sound) : l.opened = .ok l := by
  have hversion : readVersion? (Text.ofInt schemaVersion) = some schemaVersion := by decide
  rw [opened, h.version]
  simp [hversion]

theorem Reached.sound {l : Ledger} (h : l.Reached) : l.Sound := by
  induction h with
  | new => exact .new
  | load _ hload ih =>
    rw [eq_putAll_of_load hload]
    exact ih.putAll _
  | opened _ hopen ih =>
    rw [ih.opened_eq] at hopen
    cases hopen
    exact ih

end Ledger

end MarketFees
