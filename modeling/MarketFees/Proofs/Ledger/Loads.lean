import MarketFees.Proofs.Ledger.ReadBack
import MarketFees.Proofs.Rearranged

namespace MarketFees

namespace Dataset

instance : Append Dataset :=
  ⟨fun d₁ d₂ => {
    enterprises := d₁.enterprises ++ d₂.enterprises
    cycles := d₁.cycles ++ d₂.cycles
    fees := d₁.fees ++ d₂.fees
    taxRates := d₁.taxRates ++ d₂.taxRates
    orders := d₁.orders ++ d₂.orders }⟩

theorem append_eq (d₁ d₂ : Dataset) : d₁ ++ d₂ = {
    enterprises := d₁.enterprises ++ d₂.enterprises
    cycles := d₁.cycles ++ d₂.cycles
    fees := d₁.fees ++ d₂.fees
    taxRates := d₁.taxRates ++ d₂.taxRates
    orders := d₁.orders ++ d₂.orders } :=
  rfl

theorem validate_eq_ok_iff {d : Dataset} :
    d.validate = .ok () ↔ ∀ o ∈ d.orders, ∀ a ∈ o.adjustments, a.order = o.id := by
  constructor
  · intro h o ho a ha
    exact order_of_validate h ho ha
  · intro h
    have hnone : d.stray? = none := by
      apply List.findSome?_eq_none_iff.2
      intro o ho
      rw [strayOf?, Option.map_eq_none_iff, List.find?_eq_none]
      intro a ha
      simp [h o ho a ha]
    rw [validate, hnone]

theorem validate_append {d₁ d₂ : Dataset} (h₁ : d₁.validate = .ok ()) (h₂ : d₂.validate = .ok ()) :
    (d₁ ++ d₂).validate = .ok () := by
  rw [validate_eq_ok_iff] at h₁ h₂ ⊢
  intro o ho
  rw [append_eq] at ho
  rcases List.mem_append.1 ho with ho | ho
  · exact h₁ o ho
  · exact h₂ o ho

theorem Rearranged.validate {d d' : Dataset} (h : d.Rearranged d') (hvalid : d.validate = .ok ()) :
    d'.validate = .ok () := by
  rw [validate_eq_ok_iff] at hvalid ⊢
  intro o' ho' a ha
  obtain ⟨o, ho, hsame⟩ := h.orders.exists_left ho'
  rw [← hsame.id_eq]
  exact hvalid o ho a (hsame.adjustments.mem_iff.2 ha)

end Dataset

namespace Ledger

namespace Children

variable {κ ρ α : Type} {c : Children κ ρ α} {orders others : List Order}

theorem ownedBy_rearranged (h : OrdersRearranged orders others) (r : ρ) :
    c.ownedBy orders r = c.ownedBy others r := by
  rw [Bool.eq_iff_iff, ownedBy, ownedBy, List.any_eq_true, List.any_eq_true]
  exact h.exists_iff fun _ _ hsame hnames => hsame.id_eq ▸ hnames

variable [Ord κ] [DecidableEq κ] [Std.TransOrd κ] [Std.LawfulEqOrd κ]

/-- Orders that are stored again take their children back in the same sequence. -/
theorem foldl_store_twice (orders : List Order) (t : Table κ ρ) :
    orders.foldl c.store (orders.foldl c.store t) = orders.foldl c.store t := by
  apply Table.ext_get?
  intro k
  by_cases hk : k ∈ c.keys orders
  · obtain ⟨a, order, later, hlast⟩ := exists_last hk
    rw [get?_foldl_store_of_last hlast, get?_foldl_store_of_last hlast]
  · rw [get?_foldl_store_of_not_mem hk, get?_foldl_store_of_not_mem hk, Option.filter_filter]
    simp

theorem get?_foldl_store_of_mem (hids : (orders.map (·.id)).Nodup) (hkeys : (c.keys orders).Nodup)
    {o : Order} (ho : o ∈ orders) {a : α} (ha : a ∈ c.list o) (t : Table κ ρ) :
    (orders.foldl c.store t).get? (c.key a) = some (c.row o.id a) := by
  have hused : c.key a ∈ c.keys orders := List.mem_map_of_mem (List.mem_flatMap.2 ⟨o, ho, ha⟩)
  obtain ⟨a', order, later, hlast⟩ := exists_last hused
  obtain ⟨rfl, rfl, hlater⟩ := hlast.eq hids hkeys ho ha
  rw [get?_foldl_store_of_last hlast, if_neg hlater]

theorem foldl_store_rearranged (hlist : ∀ o o', o.Reordered o' → (c.list o).Perm (c.list o'))
    (h : OrdersRearranged orders others) (hids : (orders.map (·.id)).Nodup)
    (hkeys : (c.keys orders).Nodup) (t : Table κ ρ) :
    orders.foldl c.store t = others.foldl c.store t := by
  have hperm : (c.keys orders).Perm (c.keys others) := (h.flatMap_perm hlist).map c.key
  have hids' : (others.map (·.id)).Nodup :=
    (h.map_perm fun _ _ hsame => hsame.id_eq).nodup_iff.1 hids
  apply Table.ext_get?
  intro k
  by_cases hk : k ∈ c.keys orders
  · obtain ⟨a, ha, rfl⟩ := List.mem_map.1 hk
    obtain ⟨o, ho, ha⟩ := List.mem_flatMap.1 ha
    obtain ⟨o', ho', hsame⟩ := h.exists_right ho
    have ha' : a ∈ c.list o' := (hlist o o' hsame).mem_iff.1 ha
    rw [get?_foldl_store_of_mem hids hkeys ho ha, hsame.id_eq,
      get?_foldl_store_of_mem hids' (hperm.nodup_iff.1 hkeys) ho' ha']
  · have hk' : k ∉ c.keys others := fun h => hk (hperm.mem_iff.2 h)
    rw [get?_foldl_store_of_not_mem hk, get?_foldl_store_of_not_mem hk']
    simp only [ownedBy_rearranged h]

end Children

theorem putAll_twice (l : Ledger) (d : Dataset) : (l.putAll d).putAll d = l.putAll d := by
  simp only [putAll_eq, Table.foldl_put_twice, Children.foldl_store_twice]

theorem putAll_append (l : Ledger) (d₁ d₂ : Dataset) :
    l.putAll (d₁ ++ d₂) = (l.putAll d₁).putAll d₂ := by
  rw [Dataset.append_eq, putAll_eq l, putAll_eq (l.putAll d₁), putAll_eq l d₁]
  simp only [List.foldl_append]

theorem putAll_rearranged {d d' : Dataset} (h : d.Rearranged d') (hdistinct : d.Distinct)
    (hdefined : d.DefinedOnce) (l : Ledger) : l.putAll d = l.putAll d' := by
  have horders : (d.orders.map Order.header).Perm (d'.orders.map Order.header) :=
    h.orders.map_perm fun _ _ hsame => hsame.header
  have hheaders (orders : List Order) (t : Table OrderId OrderRow) :
      orders.foldl (fun t o => t.put o.id o.stored) t =
        (orders.map Order.header).foldl (fun t o => t.put o.id o.stored) t := by
    rw [List.foldl_map]
    rfl
  have hids : ((d.orders.map Order.header).map (·.id)).Nodup := by
    rw [List.map_map]
    exact hdistinct.orders
  have hlineItems := Children.foldl_store_rearranged (c := .lineItems)
    (fun _ _ hsame => hsame.lineItems) h.orders hdistinct.orders hdistinct.lineItems
  have hadjustments := Children.foldl_store_rearranged (c := .adjustments)
    (fun _ _ hsame => hsame.adjustments) h.orders hdistinct.orders hdistinct.adjustments
  rw [putAll_eq, putAll_eq, hheaders d.orders, hheaders d'.orders,
    Table.foldl_put_perm h.enterprises hdefined.enterprises,
    Table.foldl_put_perm h.cycles hdefined.cycles, Table.foldl_put_perm h.fees hdefined.fees,
    Table.foldl_put_perm h.taxRates hdefined.taxRates, Table.foldl_put_perm horders hids,
    hlineItems, hadjustments]

/-- Loads of valid datasets: a second one of the same dataset, one after another, and one of a dataset
that lists everything in another sequence. -/
theorem load_algebra (l : Ledger) :
    (∀ d : Dataset, d.validate = .ok () → ∃ l', l.load d = .ok l' ∧ l'.load d = .ok l') ∧
    (∀ d₁ d₂ : Dataset, d₁.validate = .ok () → d₂.validate = .ok () →
      ∃ l₁ l₂, l.load d₁ = .ok l₁ ∧ l₁.load d₂ = .ok l₂ ∧ l.load (d₁ ++ d₂) = .ok l₂) ∧
    (∀ d d' : Dataset, d.validate = .ok () → d.Distinct → d.DefinedOnce → d.Rearranged d' →
      ∃ l', l.load d = .ok l' ∧ l.load d' = .ok l') := by
  refine ⟨?repeated, ?joined, ?rearranged⟩
  case repeated =>
    intro d hvalid
    refine ⟨l.putAll d, load_eq hvalid l, ?_⟩
    rw [load_eq hvalid, putAll_twice]
  case joined =>
    intro d₁ d₂ h₁ h₂
    refine ⟨l.putAll d₁, (l.putAll d₁).putAll d₂, load_eq h₁ l, load_eq h₂ _, ?_⟩
    rw [load_eq (Dataset.validate_append h₁ h₂), putAll_append]
  case rearranged =>
    intro d d' hvalid hdistinct hdefined h
    refine ⟨l.putAll d, load_eq hvalid l, ?_⟩
    rw [load_eq (h.validate hvalid), putAll_rearranged h hdistinct hdefined]

theorem load_algebra_lateOrder :
    let days := Dataset.twoDays
    (∃ l', new.load (days ++ lateOrder) = .ok l' ∧ l'.load (days ++ lateOrder) = .ok l') ∧
    (∃ l₁ l₂, new.load days = .ok l₁ ∧ l₁.load lateOrder = .ok l₂ ∧
      new.load (days ++ lateOrder) = .ok l₂) ∧
    ∃ l', new.load days = .ok l' ∧ new.load { days with orders := days.orders.reverse } = .ok l' := by
  intro days
  obtain ⟨hrepeated, hjoined, hrearranged⟩ := load_algebra new
  have hvalid : days.validate = .ok () := by decide
  have hlate : lateOrder.validate = .ok () := by decide
  have hdefined : days.DefinedOnce := by constructor <;> decide
  have hreversed : days.Rearranged { days with orders := days.orders.reverse } := {
    enterprises := .refl _
    cycles := .refl _
    fees := .refl _
    taxRates := .refl _
    orders := .of_perm (List.reverse_perm _).symm }
  refine ⟨?_, ?_, ?_⟩
  · exact hrepeated _ (Dataset.validate_append hvalid hlate)
  · exact hjoined _ _ hvalid hlate
  · exact hrearranged _ _ hvalid Dataset.distinct_twoDays hdefined hreversed

end Ledger

end MarketFees
