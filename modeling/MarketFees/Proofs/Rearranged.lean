import Mathlib.Data.List.Forall2
import MarketFees.Proofs.Ledger.Rows
import MarketFees.Proofs.Table
import MarketFees.Snapshot

namespace MarketFees

theorem exists_of_forall₂_left {r : α → β → Prop} {l : List α} {m : List β} (h : List.Forall₂ r l m)
    {a : α} (ha : a ∈ l) : ∃ b ∈ m, r a b := by
  induction h with
  | nil => simp at ha
  | cons hab _ ih =>
    rcases List.mem_cons.1 ha with rfl | ha
    · exact ⟨_, List.mem_cons_self .., hab⟩
    · obtain ⟨b, hb, hr⟩ := ih ha
      exact ⟨b, List.mem_cons_of_mem _ hb, hr⟩

structure Order.Reordered (o o' : Order) : Prop where
  header : o.header = o'.header
  lineItems : o.lineItems.Perm o'.lineItems
  adjustments : o.adjustments.Perm o'.adjustments

/-- The same orders in another sequence, and the children of each in another sequence. -/
def OrdersRearranged (orders others : List Order) : Prop :=
  ∃ middle, List.Forall₂ Order.Reordered orders middle ∧ middle.Perm others

/-- The dataset with everything that it lists in another sequence. -/
structure Dataset.Rearranged (d d' : Dataset) : Prop where
  enterprises : d.enterprises.Perm d'.enterprises
  cycles : d.cycles.Perm d'.cycles
  fees : d.fees.Perm d'.fees
  taxRates : d.taxRates.Perm d'.taxRates
  orders : OrdersRearranged d.orders d'.orders

/-- Definitions of one kind have distinct ids. -/
structure Dataset.DefinedOnce (d : Dataset) : Prop where
  enterprises : (d.enterprises.map (·.id)).Nodup
  cycles : (d.cycles.map (·.id)).Nodup
  fees : (d.fees.map (·.id)).Nodup
  taxRates : (d.taxRates.map (·.id)).Nodup

namespace Order.Reordered

variable {o o' : Order}

theorem id_eq (h : o.Reordered o') : o.id = o'.id := by
  have hid : o.header.id = o'.header.id := by rw [h.header]
  exact hid

theorem refl (o : Order) : o.Reordered o :=
  ⟨rfl, .refl _, .refl _⟩

theorem symm (h : o.Reordered o') : o'.Reordered o :=
  ⟨h.header.symm, h.lineItems.symm, h.adjustments.symm⟩

theorem owned (h : o.Reordered o') : (Snapshot.owned o).Reordered (Snapshot.owned o') where
  header := h.header
  lineItems := h.lineItems
  adjustments := by
    rw [Snapshot.owned, Snapshot.owned, h.id_eq]
    exact h.adjustments.map _

end Order.Reordered

namespace OrdersRearranged

variable {orders others : List Order}

theorem exists_right (h : OrdersRearranged orders others) {o : Order} (ho : o ∈ orders) :
    ∃ o' ∈ others, o.Reordered o' := by
  obtain ⟨middle, hsame, hperm⟩ := h
  obtain ⟨o', ho', hreordered⟩ := exists_of_forall₂_left hsame ho
  exact ⟨o', hperm.mem_iff.1 ho', hreordered⟩

theorem exists_left (h : OrdersRearranged orders others) {o' : Order} (ho' : o' ∈ others) :
    ∃ o ∈ orders, o.Reordered o' := by
  obtain ⟨middle, hsame, hperm⟩ := h
  exact exists_of_forall₂_left hsame.flip (hperm.mem_iff.2 ho')

theorem exists_iff (h : OrdersRearranged orders others) {p : Order → Prop}
    (hp : ∀ o o', o.Reordered o' → p o → p o') : (∃ o ∈ orders, p o) ↔ ∃ o ∈ others, p o := by
  constructor
  · rintro ⟨o, ho, hpo⟩
    obtain ⟨o', ho', hsame⟩ := h.exists_right ho
    exact ⟨o', ho', hp o o' hsame hpo⟩
  · rintro ⟨o', ho', hpo⟩
    obtain ⟨o, ho, hsame⟩ := h.exists_left ho'
    exact ⟨o, ho, hp o' o hsame.symm hpo⟩

theorem map_perm (h : OrdersRearranged orders others) {f : Order → β}
    (hf : ∀ o o', o.Reordered o' → f o = f o') : (orders.map f).Perm (others.map f) := by
  obtain ⟨middle, hsame, hperm⟩ := h
  have hmap : List.Forall₂ Eq (orders.map f) (middle.map f) :=
    List.forall₂_map_left_iff.2 (List.forall₂_map_right_iff.2 (hsame.imp hf))
  rw [List.forall₂_eq_eq_eq] at hmap
  rw [hmap]
  exact hperm.map f

theorem flatMap_perm (h : OrdersRearranged orders others) {f : Order → List β}
    (hf : ∀ o o', o.Reordered o' → (f o).Perm (f o')) : (orders.flatMap f).Perm (others.flatMap f) := by
  obtain ⟨middle, hsame, hperm⟩ := h
  have hmiddle : (orders.flatMap f).Perm (middle.flatMap f) := by
    clear hperm
    induction hsame with
    | nil => exact .nil
    | cons hfirst _ ih => exact (hf _ _ hfirst).append ih
  exact hmiddle.trans (hperm.flatMap_right f)

theorem isEmpty_eq (h : OrdersRearranged orders others) : orders.isEmpty = others.isEmpty := by
  obtain ⟨middle, hsame, hperm⟩ := h
  rw [Bool.eq_iff_iff, List.isEmpty_iff_length_eq_zero, List.isEmpty_iff_length_eq_zero,
    hsame.length_eq, hperm.length_eq]

theorem map (h : OrdersRearranged orders others) {f : Order → Order}
    (hf : ∀ o o', o.Reordered o' → (f o).Reordered (f o')) :
    OrdersRearranged (orders.map f) (others.map f) := by
  obtain ⟨middle, hsame, hperm⟩ := h
  refine ⟨middle.map f, ?_, hperm.map f⟩
  exact List.forall₂_map_left_iff.2 (List.forall₂_map_right_iff.2 (hsame.imp hf))

theorem filter (h : OrdersRearranged orders others) {p : Order → Bool}
    (hp : ∀ o o', o.Reordered o' → p o = p o') :
    OrdersRearranged (orders.filter p) (others.filter p) := by
  obtain ⟨middle, hsame, hperm⟩ := h
  refine ⟨middle.filter p, ?_, hperm.filter p⟩
  apply List.rel_filter _ hsame
  intro o o' hreordered
  exact Bool.eq_iff_iff.1 (hp o o' hreordered)

theorem of_perm (h : orders.Perm others) : OrdersRearranged orders others :=
  ⟨orders, List.forall₂_same.2 fun o _ => .refl o, h⟩

end OrdersRearranged

theorem findRev?_perm [DecidableEq κ] {key : α → κ} {l m : List α} (h : l.Perm m)
    (hkeys : (l.map key).Nodup) (k : κ) : l.findRev? (key · = k) = m.findRev? (key · = k) := by
  apply Option.ext
  intro a
  rw [findRev?_eq_some_iff hkeys, findRev?_eq_some_iff ((h.map key).nodup_iff.1 hkeys), h.mem_iff]

namespace Table

variable [Ord κ] [Std.TransOrd κ] [Std.LawfulEqOrd κ] [DecidableEq κ] {key : α → κ} {row : α → ρ}

theorem foldl_put_perm {l m : List α} (h : l.Perm m) (hkeys : (l.map key).Nodup) (t : Table κ ρ) :
    l.foldl (fun t a => t.put (key a) (row a)) t = m.foldl (fun t a => t.put (key a) (row a)) t := by
  apply ext_get?
  intro k
  rw [get?_foldl_put, get?_foldl_put, findRev?_perm h hkeys]

theorem foldl_put_twice (l : List α) (t : Table κ ρ) :
    l.foldl (fun t a => t.put (key a) (row a)) (l.foldl (fun t a => t.put (key a) (row a)) t) =
      l.foldl (fun t a => t.put (key a) (row a)) t := by
  apply ext_get?
  intro k
  rw [get?_foldl_put, get?_foldl_put]
  cases l.findRev? (key · = k) <;> rfl

end Table

end MarketFees
