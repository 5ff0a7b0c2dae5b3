import MarketFees.Proofs.Charges
import MarketFees.Proofs.Projection
import MarketFees.Proofs.Runs

namespace MarketFees

/-- Sources answer alike to every query that asks about these orders only. -/
def AmountSource.AgreeOn (orders : List OrderId) (a b : AmountSource) : Prop :=
  ∀ q : AmountQuery, (∀ id ∈ q.orders, id ∈ orders) →
    a.amountSum q = b.amountSum q ∧ a.adjustmentIds q = b.adjustmentIds q

namespace Scope

def Within (orders : List OrderId) (scope : Scope) : Prop :=
  ∀ id ∈ scope.orders, id ∈ orders

theorem mem_unionAll [Ord α] [Std.TransOrd α] [Std.LawfulEqOrd α] (field : Scope → SortedSet α)
    (hempty : field ∅ = ∅) (hunion : ∀ a b, field (a ∪ b) = field a ∪ field b) {scopes : List Scope}
    {x : α} : x ∈ field (unionAll scopes) ↔ ∃ scope ∈ scopes, x ∈ field scope := by
  induction scopes with
  | nil =>
    have hnil : field (unionAll []) = ∅ := hempty
    rw [hnil]
    exact iff_of_false (SortedSet.not_mem_empty x) (by simp)
  | cons scope rest ih =>
    have hcons : field (unionAll (scope :: rest)) = field scope ∪ field (unionAll rest) :=
      hunion scope (unionAll rest)
    rw [hcons, SortedSet.mem_union, ih, List.exists_mem_cons_iff]

theorem within_unionAll {orders : List OrderId} {scopes : List Scope}
    (h : ∀ scope ∈ scopes, scope.Within orders) : (unionAll scopes).Within orders := by
  intro id hid
  obtain ⟨scope, hscope, hid⟩ := (mem_unionAll Scope.orders rfl fun _ _ => rfl).1 hid
  exact h scope hscope id hid

end Scope

variable {orders : List OrderId} {a b : AmountSource}

theorem Totals.ofScope_congr (h : a.AgreeOn orders b) {scope : Scope} (hscope : scope.Within orders) :
    ofScope a scope = ofScope b scope := by
  have hfees := h ((AmountQuery.fees scope.orders).forFees scope.fees.toList) hscope
  have hincluded (ids : SortedSet AdjustmentId) :=
    (h (((AmountQuery.taxes scope.orders).onAdjustments ids).withIncluded true) hscope).1
  have hrates (ids : SortedSet AdjustmentId) :=
    (h (((AmountQuery.taxes scope.orders).onAdjustments ids).forTaxRates scope.taxRates.toList)
      hscope).1
  simp only [ofScope, hfees.1, hfees.2, hincluded, hrates]

namespace Detail

variable {details : List Detail}

theorem summary_congr (h : a.AgreeOn orders b) (level : Level)
    (hd : ∀ d ∈ details, d.scope.Within orders) : summary a level details = summary b level details := by
  have hscope : (Scope.unionAll (details.map (·.scope))).Within orders :=
    Scope.within_unionAll (List.forall_mem_map.2 hd)
  rw [summary, summary, Totals.ofScope_congr h hscope]

theorem summedUp_congr (h : a.AgreeOn orders b) {rows rows' : List Detail → Except Fault (List Row)}
    {level : Level} (hrows : rows details = rows' details) (hd : ∀ d ∈ details, d.scope.Within orders) :
    summedUp a level rows details = summedUp b level rows' details := by
  rw [summedUp, summedUp, hrows, summary_congr h _ hd]

theorem parted_congr [BEq κ] {id : GroupKey → κ} {rows rows' : List Detail → Except Fault (List Row)}
    (hrows : ∀ part, (∀ d ∈ part, d.scope.Within orders) → rows part = rows' part)
    (hd : ∀ d ∈ details, d.scope.Within orders) : parted id rows details = parted id rows' details := by
  rw [parted, parted]
  rw [mapM_congr fun part hpart => hrows part fun d hmem => hd d (mem_of_mem_splitBy hpart hmem)]

theorem assemble_congr (h : a.AgreeOn orders b) (withSummaries : Bool)
    (hd : ∀ d ∈ details, d.scope.Within orders) :
    assemble a withSummaries details = assemble b withSummaries details := by
  cases withSummaries with
  | false => rfl
  | true =>
    refine parted_congr (fun details hd => summedUp_congr h ?_ hd) hd
    refine parted_congr (fun details hd => summedUp_congr h ?_ hd) hd
    exact parted_congr (fun details hd => summedUp_congr h rfl hd) hd

end Detail

theorem Group.mem_ofCharges {charges : List Charge} {g : Group} (h : g ∈ Group.ofCharges charges) :
    g.orders = (charges.filter (·.key = g.key)).map (·.order) ∧ ∃ c ∈ charges, c.key = g.key := by
  obtain ⟨key, hkey, rfl⟩ := List.mem_map.1 h
  refine ⟨rfl, ?_⟩
  obtain ⟨c, hc, he⟩ := List.mem_map.1 (SortedSet.mem_ofList.1 hkey)
  exact ⟨c, hc, he⟩

theorem Group.exists_mem_ofCharges {charges : List Charge} {c : Charge} (h : c ∈ charges) :
    ∃ g ∈ Group.ofCharges charges, g.key = c.key :=
  ⟨_, List.mem_map_of_mem (SortedSet.mem_ofList.2 (List.mem_map_of_mem h)), rfl⟩

theorem Group.nodup_keys_ofCharges (charges : List Charge) :
    ((ofCharges charges).map (·.key)).Nodup := by
  have hnodup := SortedSet.nodup_toList (.ofList (charges.map (·.key)))
  rw [ofCharges, List.map_map]
  exact hnodup.map Function.injective_id

theorem Group.scope_within {charges : List Charge} (h : ∀ c ∈ charges, c.order.id ∈ orders) {g : Group}
    (hg : g ∈ Group.ofCharges charges) : g.scope.Within orders := by
  intro id hid
  have hid := SortedSet.mem_ofList.1 hid
  rw [(Group.mem_ofCharges hg).1, List.map_map] at hid
  obtain ⟨c, hc, rfl⟩ := List.mem_map.1 hid
  exact h c (List.mem_filter.1 hc).1

namespace Report

theorem mem_sortByKey {l : List (SortKey × β)} {x : β} :
    x ∈ sortByKey l ↔ ∃ position, (position, x) ∈ l := by
  simp [sortByKey]

theorem entry_congr (h : a.AgreeOn orders b) (catalog : Catalog) {group : Group}
    (hg : group.scope.Within orders) : entry a catalog group = entry b catalog group := by
  rw [entry, entry, Totals.ofScope_congr h hg]

theorem group_of_entries {amounts : AmountSource} {catalog : Catalog} {groups : List Group}
    {entries : List (SortKey × Detail)} (h : groups.mapM (entry amounts catalog) = .ok entries)
    {d : Detail} (hd : d ∈ sortByKey entries) : ∃ g ∈ groups, d.key = g.key ∧ d.scope = g.scope := by
  obtain ⟨position, hmem⟩ := mem_sortByKey.1 hd
  obtain ⟨g, hg, hentry⟩ := exists_of_mem_mapM h hmem
  obtain ⟨totals, -, hplaced⟩ := entry_eq_ok.1 hentry
  obtain ⟨columns, -, -, rfl⟩ := Catalog.placed_eq_ok.1 hplaced
  exact ⟨g, hg, rfl, rfl⟩

theorem ofOrders_congr {orders : List Order} (h : a.AgreeOn (orders.map (·.id)) b) (f : Filters)
    (catalog : Catalog) (options : Options) :
    ofOrders orders f a catalog options = ofOrders orders f b catalog options := by
  rw [ofOrders_eq, ofOrders_eq]
  split
  · rfl
  refine bind_congr_ok fun kept hkept => ?_
  have hcharges : ∀ c ∈ kept, c.order.id ∈ orders.map (·.id) := by
    intro c hc
    rw [Charge.retain_eq_ok (lift_eq_ok.1 hkept)] at hc
    exact List.mem_map_of_mem (Charge.mem_ofOrders.1 (List.mem_filter.1 hc).1).1
  have hwithin : ∀ g ∈ Group.ofCharges kept, g.scope.Within (orders.map (·.id)) :=
    fun g hg => Group.scope_within hcharges hg
  rw [mapM_congr fun g hg => entry_congr h catalog (hwithin g hg)]
  refine bind_congr_ok fun entries hentries => ?_
  rw [Detail.assemble_congr h]
  intro d hd
  obtain ⟨g, hg, -, hscope⟩ := group_of_entries hentries hd
  rw [hscope]
  exact hwithin g hg

end Report

end MarketFees
