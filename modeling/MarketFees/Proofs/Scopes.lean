import MarketFees.Proofs.Frame
import MarketFees.Proofs.Position

namespace MarketFees

/-- The orders, fees and tax rates of charges, each for itself. -/
def Scope.ofCharges (charges : List Charge) : Scope where
  orders := .ofList (charges.map (·.order.id))
  fees := .ofList (charges.map (·.fee))
  taxRates := .ofList (charges.filterMap (·.taxRate))

namespace Scope

variable {charges : List Charge}

theorem mem_ofCharges_orders {id : OrderId} :
    id ∈ (ofCharges charges).orders ↔ ∃ c ∈ charges, c.order.id = id := by
  rw [ofCharges, SortedSet.mem_ofList, List.mem_map]

theorem mem_ofCharges_fees {fee : FeeId} :
    fee ∈ (ofCharges charges).fees ↔ ∃ c ∈ charges, c.fee = fee := by
  rw [ofCharges, SortedSet.mem_ofList, List.mem_map]

theorem mem_ofCharges_taxRates {rate : TaxRateId} :
    rate ∈ (ofCharges charges).taxRates ↔ ∃ c ∈ charges, c.taxRate = some rate := by
  rw [ofCharges, SortedSet.mem_ofList, List.mem_filterMap]

theorem ext_mem {a b : Scope} (horders : ∀ id, id ∈ a.orders ↔ id ∈ b.orders)
    (hfees : ∀ fee, fee ∈ a.fees ↔ fee ∈ b.fees)
    (htaxRates : ∀ rate, rate ∈ a.taxRates ↔ rate ∈ b.taxRates) : a = b :=
  (Scope.mk.injEq ..).mpr
    ⟨SortedSet.ext_mem horders, SortedSet.ext_mem hfees, SortedSet.ext_mem htaxRates⟩

end Scope

theorem Group.scope_eq {charges : List Charge} {g : Group} (hg : g ∈ Group.ofCharges charges) :
    g.scope = Scope.ofCharges (charges.filter (·.key = g.key)) := by
  obtain ⟨horders, c, hc, hkey⟩ := Group.mem_ofCharges hg
  have hmem : c ∈ charges.filter (·.key = g.key) := List.mem_filter.2 ⟨hc, decide_eq_true hkey⟩
  have hsame : ∀ c ∈ charges.filter (·.key = g.key), c.key = g.key :=
    fun c hc => of_decide_eq_true (List.mem_filter.1 hc).2
  apply Scope.ext_mem
  · intro id
    rw [Scope.mem_ofCharges_orders, Group.scope, SortedSet.mem_ofList, horders, List.map_map,
      List.mem_map]
    rfl
  · intro fee
    rw [Scope.mem_ofCharges_fees, Group.scope, SortedSet.mem_ofList, List.mem_singleton]
    constructor
    · rintro rfl
      exact ⟨c, hmem, congrArg GroupKey.fee hkey⟩
    · rintro ⟨c, hc, rfl⟩
      exact congrArg GroupKey.fee (hsame c hc)
  · intro rate
    rw [Scope.mem_ofCharges_taxRates, Group.scope, SortedSet.mem_ofList, Option.mem_toList]
    constructor
    · intro hrate
      exact ⟨c, hmem, (congrArg GroupKey.taxRate hkey).trans hrate⟩
    · rintro ⟨c, hc, hrate⟩
      exact (congrArg GroupKey.taxRate (hsame c hc)).symm.trans hrate

theorem Charge.complete_holds {orders : List Order} {f : Filters}
    {owner : FeeId → Except StoreError (Option EnterpriseId)} (node : Node) :
    Complete (((ofOrders orders).filter (admitted f owner)).filter (node.holds ·.key)) :=
  complete_filter fun c fee taxRate => by cases node <;> rfl

/-- Details stand for charges when each has the scope of its charges and each charge has a detail. -/
structure StandFor (charges : List Charge) (details : List Detail) : Prop where
  scope : ∀ d ∈ details, d.scope = Scope.ofCharges (charges.filter (·.key = d.key))
  exists_detail : ∀ c ∈ charges, ∃ d ∈ details, d.key = c.key

namespace StandFor

variable {charges : List Charge} {details : List Detail}

theorem mem_unionAll [Ord α] [Std.TransOrd α] [Std.LawfulEqOrd α] (h : StandFor charges details)
    (node : Node) {field : Scope → SortedSet α} {has : Charge → α → Prop}
    (hempty : field ∅ = ∅) (hunion : ∀ a b, field (a ∪ b) = field a ∪ field b)
    (hhas : ∀ {charges : List Charge} {x}, x ∈ field (.ofCharges charges) ↔ ∃ c ∈ charges, has c x)
    (x : α) :
    x ∈ field (Scope.unionAll ((details.filter fun d => node.holds d.key).map (·.scope))) ↔
      x ∈ field (Scope.ofCharges (charges.filter fun c => node.holds c.key)) := by
  rw [Scope.mem_unionAll field hempty hunion, hhas]
  constructor
  · rintro ⟨_, hscope, hx⟩
    obtain ⟨d, hd, rfl⟩ := List.mem_map.1 hscope
    obtain ⟨hd, hholds⟩ := List.mem_filter.1 hd
    rw [h.scope d hd, hhas] at hx
    obtain ⟨c, hc, hx⟩ := hx
    obtain ⟨hc, hkey⟩ := List.mem_filter.1 hc
    rw [← of_decide_eq_true hkey] at hholds
    exact ⟨c, List.mem_filter.2 ⟨hc, hholds⟩, hx⟩
  · rintro ⟨c, hc, hx⟩
    obtain ⟨hc, hholds⟩ := List.mem_filter.1 hc
    obtain ⟨d, hd, hkey⟩ := h.exists_detail c hc
    rw [← hkey] at hholds
    refine ⟨d.scope, List.mem_map_of_mem (List.mem_filter.2 ⟨hd, hholds⟩), ?_⟩
    rw [h.scope d hd, hhas]
    exact ⟨c, List.mem_filter.2 ⟨hc, decide_eq_true hkey.symm⟩, hx⟩

/-- A summary is taken over the charges of its node. -/
theorem unionAll_eq (h : StandFor charges details) (node : Node) :
    Scope.unionAll ((details.filter fun d => node.holds d.key).map (·.scope)) =
      Scope.ofCharges (charges.filter fun c => node.holds c.key) :=
  Scope.ext_mem
    (h.mem_unionAll node rfl (fun _ _ => rfl) Scope.mem_ofCharges_orders)
    (h.mem_unionAll node rfl (fun _ _ => rfl) Scope.mem_ofCharges_fees)
    (h.mem_unionAll node rfl (fun _ _ => rfl) Scope.mem_ofCharges_taxRates)

/-- The details of a report stand for its charges. -/
theorem sortByKey {amounts : AmountSource} {catalog : Catalog} {entries : List (SortKey × Detail)}
    (h : (Group.ofCharges charges).mapM (Report.entry amounts catalog) = .ok entries) :
    StandFor charges (Report.sortByKey entries) where
  scope d hd := by
    obtain ⟨g, hg, hkey, hscope⟩ := Report.group_of_entries h hd
    rw [hscope, hkey]
    exact Group.scope_eq hg
  exists_detail c hc := by
    obtain ⟨g, hg, hkey⟩ := Group.exists_mem_ofCharges hc
    obtain ⟨⟨position, d⟩, hmem, hentry⟩ := exists_of_mem_of_mapM h hg
    obtain ⟨totals, -, hplaced⟩ := Report.entry_eq_ok.1 hentry
    obtain ⟨columns, -, -, rfl⟩ := Catalog.placed_eq_ok.1 hplaced
    exact ⟨_, Report.mem_sortByKey.2 ⟨position, hmem⟩, hkey⟩

end StandFor

end MarketFees
