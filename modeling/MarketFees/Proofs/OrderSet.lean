import Mathlib
import MarketFees.Proofs.Frame
import MarketFees.Proofs.Ledger.Import

namespace MarketFees

namespace Charge

variable {f : Filters} {owner : FeeId → Except StoreError (Option EnterpriseId)}
variable {charges others : List Charge}

theorem exists_retain_congr (h : ∀ c, c ∈ charges ↔ c ∈ others) {kept : List Charge}
    (hkept : retain f owner charges = .ok kept) :
    ∃ kept', retain f owner others = .ok kept' ∧ ∀ c, c ∈ kept ↔ c ∈ kept' := by
  have hread : ∀ c ∈ others, asksOwner f c → ∃ found, owner c.fee = .ok found := by
    intro c hc hasks
    exact exists_owner_of_retain hkept ((h c).2 hc) hasks
  refine ⟨_, retain_eq_of_asksOwner hread, ?_⟩
  intro c
  rw [retain_eq_ok hkept, List.mem_filter, List.mem_filter, h c]

theorem mem_ofOrders_congr {orders others : List Order} (h : ∀ o, o ∈ orders ↔ o ∈ others) (c : Charge) :
    c ∈ ofOrders orders ↔ c ∈ ofOrders others := by
  rw [mem_ofOrders, mem_ofOrders, h]

end Charge

/-- Groups of the same charges have the same keys and are summed over the same scopes. -/
theorem Group.ofCharges_congr_mem {charges others : List Charge} (h : ∀ c, c ∈ charges ↔ c ∈ others) :
    (ofCharges charges).map (fun g => (g.key, g.scope)) =
      (ofCharges others).map fun g => (g.key, g.scope) := by
  have hkeys : SortedSet.ofList (charges.map (·.key)) = SortedSet.ofList (others.map (·.key)) := by
    apply SortedSet.ext_mem
    intro key
    simp only [SortedSet.mem_ofList, List.mem_map, h]
  have horders (key : GroupKey) :
      SortedSet.ofList ((charges.filter (·.key = key)).map (·.order.id)) =
        SortedSet.ofList ((others.filter (·.key = key)).map (·.order.id)) := by
    apply SortedSet.ext_mem
    intro id
    simp only [SortedSet.mem_ofList, List.mem_map, List.mem_filter, h]
  simp only [ofCharges, scope, hkeys, List.map_map, Function.comp_def, horders]

namespace Report

variable {amounts : AmountSource} {catalog : Catalog}

theorem entry_eq_of_scope_eq {g g' : Group} (h : (g.key, g.scope) = (g'.key, g'.scope)) :
    entry amounts catalog g = entry amounts catalog g' := by
  obtain ⟨hkey, hscope⟩ := Prod.mk.inj h
  simp only [entry, Catalog.placed, hkey, hscope]

/-- Lists of the same orders make the same report, unless a definition of each cannot be read. -/
theorem ofOrders_congr_mem {orders others : List Order} (h : ∀ o, o ∈ orders ↔ o ∈ others)
    (f : Filters) (amounts : AmountSource) (catalog : Catalog) (options : Options) :
    ofOrders orders f amounts catalog options = ofOrders others f amounts catalog options ∨
      ∃ e e', ofOrders orders f amounts catalog options = .error (.store e) ∧
        ofOrders others f amounts catalog options = .error (.store e') := by
  have hempty : orders.isEmpty = others.isEmpty := by
    rw [Bool.eq_iff_iff, List.isEmpty_iff, List.isEmpty_iff, List.eq_nil_iff_forall_not_mem,
      List.eq_nil_iff_forall_not_mem]
    simp only [h]
  have hcharges := Charge.mem_ofOrders_congr h
  rw [ofOrders_eq, ofOrders_eq, hempty]
  cases others.isEmpty with
  | true => exact .inl rfl
  | false =>
    cases hkept : Charge.retain f (ownerOf catalog) (Charge.ofOrders orders) with
    | ok kept =>
      obtain ⟨kept', hkept', hsame⟩ := Charge.exists_retain_congr hcharges hkept
      have hentries : (Group.ofCharges kept).mapM (entry amounts catalog) =
          (Group.ofCharges kept').mapM (entry amounts catalog) :=
        mapM_eq_of_map_eq (Group.ofCharges_congr_mem hsame) fun _ _ => entry_eq_of_scope_eq
      left
      rw [hkept', lift_eq_ok.2 rfl, lift_eq_ok.2 rfl, ok_bind, ok_bind, hentries]
    | error e =>
      right
      cases hkept' : Charge.retain f (ownerOf catalog) (Charge.ofOrders others) with
      | ok kept' =>
        obtain ⟨kept, hok, -⟩ := Charge.exists_retain_congr (fun c => (hcharges c).symm) hkept'
        rw [hkept] at hok
        cases hok
      | error e' => exact ⟨e, e', rfl, rfl⟩

theorem ofOrders_twoDays_repeated :
    let orders := Dataset.twoDays.orders
    let others := orders.reverse ++ orders
    let store := (Snapshot.ofDataset .twoDays).store
    (∀ o, o ∈ orders ↔ o ∈ others) ∧
      ∃ report, ofOrders orders .none store.amounts store.catalog ⟨true⟩ = .ok report ∧
        ofOrders others .none store.amounts store.catalog ⟨true⟩ = .ok report := by
  intro orders others store
  have hsame : ∀ o, o ∈ orders ↔ o ∈ others := by
    intro o
    rw [List.mem_append, List.mem_reverse, or_self]
  refine ⟨hsame, ?_⟩
  have hok : (ofOrders orders .none store.amounts store.catalog ⟨true⟩).toOption.isSome = true := by cbv
  rcases ofOrders_congr_mem hsame .none store.amounts store.catalog ⟨true⟩ with heq | ⟨e, e', herror, -⟩
  · rw [← heq]
    cases hreport : ofOrders orders .none store.amounts store.catalog ⟨true⟩ with
    | error e =>
      rw [hreport] at hok
      cases hok
    | ok report => exact ⟨report, rfl, rfl⟩
  · rw [herror] at hok
    cases hok

end Report

end MarketFees
