import MarketFees.Proofs.Sequence
import MarketFees.Proofs.Table
import MarketFees.Report.Build

namespace MarketFees

structure Memo.Agrees (catalog : Catalog) (memo : Memo) : Prop where
  enterprises : memo.enterprises.Agrees catalog.enterprise
  fees : memo.fees.Agrees catalog.fee
  taxRates : memo.taxRates.Agrees catalog.taxRate
  cycles : memo.cycles.Agrees catalog.cycle

theorem Memo.Agrees.empty (catalog : Catalog) : Memo.Agrees catalog ∅ :=
  ⟨.empty, .empty, .empty, .empty⟩

namespace Projection

/-- From every memo that agrees with the catalog a projection gives this result and such a memo. -/
def Computes (catalog : Catalog) (p : Projection α) (result : Except StoreError α) : Prop :=
  ∀ memo : Memo, memo.Agrees catalog →
    ∃ memo', p.run memo = (result, memo') ∧ memo'.Agrees catalog

variable {catalog : Catalog}

theorem Computes.pure (a : α) : Computes catalog (Pure.pure a) (.ok a) := by
  intro memo h
  exact ⟨memo, rfl, h⟩

theorem run_bind (p : Projection α) (q : α → Projection β) (memo : Memo) :
    (p >>= q).run memo = ExceptT.bindCont q (p.run memo).1 (p.run memo).2 :=
  rfl

theorem Computes.bind {p : Projection α} {q : α → Projection β} {r : Except StoreError α}
    {s : α → Except StoreError β} (hp : Computes catalog p r)
    (hq : ∀ a, r = .ok a → Computes catalog (q a) (s a)) :
    Computes catalog (p >>= q) (r >>= s) := by
  intro memo h
  obtain ⟨memo', hrun, h'⟩ := hp memo h
  cases r with
  | error e =>
    refine ⟨memo', ?_, h'⟩
    rw [run_bind, hrun]
    rfl
  | ok a =>
    obtain ⟨memo'', hrest, h''⟩ := hq a rfl memo' h'
    refine ⟨memo'', ?_, h''⟩
    rw [run_bind, hrun]
    exact hrest

theorem run_get_bind (q : Memo → Projection α) (memo : Memo) :
    (get >>= q : Projection α).run memo = (q memo).run memo :=
  rfl

/-- A lookup gives what is read, where its table of the memo agrees with that and may be kept. -/
theorem lookUp_computes {known : Memo → Table (Id entity) (Option α)}
    {keep : Table (Id entity) (Option α) → Memo → Memo} {read : Id entity → Except StoreError (Option α)}
    (hknown : ∀ memo : Memo, memo.Agrees catalog → (known memo).Agrees read)
    (hkeep : ∀ memo table, memo.Agrees catalog → table.Agrees read → (keep table memo).Agrees catalog)
    (id : Id entity) : Computes catalog (lookUp known keep read id) (read id) := by
  intro memo h
  rw [lookUp, run_get_bind]
  cases hget : (known memo).get? id with
  | some found => exact ⟨memo, by rw [hknown memo h id found hget]; rfl, h⟩
  | none =>
    cases hread : read id with
    | error e => exact ⟨memo, rfl, h⟩
    | ok found => exact ⟨_, rfl, hkeep memo _ h ((hknown memo h).put hread)⟩

theorem enterprise_computes (id : EnterpriseId) :
    Computes catalog (enterprise catalog id) (catalog.enterprise id) := by
  apply lookUp_computes
  · exact fun _ h => h.enterprises
  · exact fun _ _ h enterprises => { h with enterprises }

theorem fee_computes (id : FeeId) : Computes catalog (fee catalog id) (catalog.fee id) := by
  apply lookUp_computes
  · exact fun _ h => h.fees
  · exact fun _ _ h fees => { h with fees }

theorem taxRate_computes (id : TaxRateId) : Computes catalog (taxRate catalog id) (catalog.taxRate id) := by
  apply lookUp_computes
  · exact fun _ h => h.taxRates
  · exact fun _ _ h taxRates => { h with taxRates }

theorem cycle_computes (id : CycleId) : Computes catalog (cycle catalog id) (catalog.cycle id) := by
  apply lookUp_computes
  · exact fun _ h => h.cycles
  · exact fun _ _ h cycles => { h with cycles }

end Projection

namespace Catalog

variable (catalog : Catalog)

def owner (fee : Option Fee) : Except StoreError (Option Enterprise) :=
  match fee with
  | some fee => catalog.enterprise fee.owner
  | none => .ok none

def rate (id : Option TaxRateId) : Except StoreError (Option TaxRate) :=
  match id with
  | some id => catalog.taxRate id
  | none => .ok none

/-- The columns of a key, with every definition read anew. -/
def columns (key : GroupKey) (totals : Totals) : Except StoreError Columns := do
  let distributor ← catalog.enterprise key.distributor
  let producer ← catalog.enterprise key.supplier
  let cycle ← catalog.cycle key.cycle
  let fee ← catalog.fee key.fee
  let owner ← catalog.owner fee
  let rate ← catalog.rate key.taxRate
  return {
    distributor := distributor.map (·.name)
    producer := producer.map (·.name)
    producerTaxStatus := producer.map (·.chargesSalesTax)
    cycle := cycle.map (·.name)
    feeName := fee.map (·.name)
    feeType := fee.map (·.feeType.name)
    feeOwner := owner.map (·.name)
    taxCategory := rate.bind (·.category)
    taxRateName := rate.map (·.name)
    taxRate := rate.map (·.amount)
    totals }

def sortKey (key : GroupKey) (columns : Columns) : Except StoreError SortKey := do
  let cycle ← catalog.cycle key.cycle
  return {
    distributorName := columns.distributor
    distributor := key.distributor
    producerName := columns.producer
    supplier := key.supplier
    opensAt := cycle.bind (·.opensAt)
    cycleName := columns.cycle
    cycle := key.cycle
    feeName := columns.feeName
    fee := key.fee
    taxRateName := columns.taxRateName
    taxRate := key.taxRate }

def placed (group : Group) (totals : Totals) : Except StoreError (SortKey × Detail) := do
  let columns ← catalog.columns group.key totals
  return (← catalog.sortKey group.key columns, ⟨group.key, group.scope, columns⟩)

end Catalog

namespace Projection

variable {catalog : Catalog}

theorem columns_computes (key : GroupKey) (totals : Totals) :
    Computes catalog (columns catalog key totals) (catalog.columns key totals) := by
  refine (enterprise_computes _).bind fun distributor _ => ?_
  refine (enterprise_computes _).bind fun producer _ => ?_
  refine (cycle_computes _).bind fun cycle _ => ?_
  refine (fee_computes _).bind fun fee _ => ?_
  cases fee with
  | some fee =>
    refine (enterprise_computes _).bind fun owner _ => ?_
    cases key.taxRate with
    | some id => exact (taxRate_computes id).bind fun _ _ => .pure _
    | none => exact (Computes.pure none).bind fun _ _ => .pure _
  | none =>
    refine (Computes.pure none).bind fun owner _ => ?_
    cases key.taxRate with
    | some id => exact (taxRate_computes id).bind fun _ _ => .pure _
    | none => exact (Computes.pure none).bind fun _ _ => .pure _

theorem sortKey_computes (key : GroupKey) (columns : Columns) :
    Computes catalog (sortKey catalog key columns) (catalog.sortKey key columns) :=
  (cycle_computes _).bind fun _ _ => .pure _

theorem placed_computes (group : Group) (totals : Totals) :
    Computes catalog (do
      let columns ← columns catalog group.key totals
      return (← sortKey catalog group.key columns, (⟨group.key, group.scope, columns⟩ : Detail)))
      (catalog.placed group totals) :=
  (columns_computes _ _).bind fun _ _ => (sortKey_computes _ _).bind fun _ _ => .pure _

end Projection

theorem lift_eq_ok {x : Except StoreError α} {a : α} :
    (liftM x : Except Fault α) = .ok a ↔ x = .ok a := by
  cases x with
  | error e => exact iff_of_false (fun h => by cases h) (fun h => by cases h)
  | ok b => exact ⟨fun h => congrArg Except.ok (Except.ok.inj h), fun h => h ▸ rfl⟩

theorem Catalog.placed_eq_ok {catalog : Catalog} {group : Group} {totals : Totals}
    {position : SortKey} {detail : Detail} :
    catalog.placed group totals = .ok (position, detail) ↔
      ∃ columns, catalog.columns group.key totals = .ok columns ∧
        catalog.sortKey group.key columns = .ok position ∧
        detail = ⟨group.key, group.scope, columns⟩ := by
  rw [placed, bind_eq_ok]
  constructor
  · rintro ⟨columns, hcolumns, h⟩
    obtain ⟨_, hposition, h⟩ := bind_eq_ok.1 h
    cases h
    exact ⟨columns, hcolumns, hposition, rfl⟩
  · rintro ⟨columns, hcolumns, hposition, rfl⟩
    exact ⟨columns, hcolumns, bind_eq_ok.2 ⟨position, hposition, rfl⟩⟩

def SortKey.key (position : SortKey) : GroupKey :=
  ⟨position.taxRate, position.fee, position.supplier, position.distributor, position.cycle⟩

theorem Catalog.key_sortKey {catalog : Catalog} {key : GroupKey} {columns : Columns} {position : SortKey}
    (h : catalog.sortKey key columns = .ok position) : position.key = key := by
  obtain ⟨cycle, -, h⟩ := bind_eq_ok.1 h
  cases h
  rfl

theorem Catalog.totals_columns {catalog : Catalog} {key : GroupKey} {totals : Totals} {columns : Columns}
    (h : catalog.columns key totals = .ok columns) : columns.totals = totals := by
  obtain ⟨_, -, h⟩ := bind_eq_ok.1 h
  obtain ⟨_, -, h⟩ := bind_eq_ok.1 h
  obtain ⟨_, -, h⟩ := bind_eq_ok.1 h
  obtain ⟨_, -, h⟩ := bind_eq_ok.1 h
  obtain ⟨_, -, h⟩ := bind_eq_ok.1 h
  obtain ⟨_, -, h⟩ := bind_eq_ok.1 h
  rw [← Except.ok.inj h]

namespace Report

variable {catalog : Catalog}

/-- The position and the detail of a group, with every definition read anew. -/
def entry (amounts : AmountSource) (catalog : Catalog) (group : Group) :
    Except Fault (SortKey × Detail) := do
  catalog.placed group (← Totals.ofScope amounts group.scope)

theorem entry_eq_ok {amounts : AmountSource} {group : Group} {position : SortKey} {detail : Detail} :
    entry amounts catalog group = .ok (position, detail) ↔
      ∃ totals, Totals.ofScope amounts group.scope = .ok totals ∧
        catalog.placed group totals = .ok (position, detail) := by
  simp only [entry, bind_eq_ok, lift_eq_ok]

theorem keys_of_entry {amounts : AmountSource} {g : Group} {position : SortKey} {d : Detail}
    (h : entry amounts catalog g = .ok (position, d)) : position.key = g.key ∧ d.key = g.key := by
  obtain ⟨totals, -, hplaced⟩ := entry_eq_ok.1 h
  obtain ⟨columns, -, hposition, rfl⟩ := Catalog.placed_eq_ok.1 hplaced
  exact ⟨Catalog.key_sortKey hposition, rfl⟩

theorem totals_of_entry {amounts : AmountSource} {g : Group} {position : SortKey} {d : Detail}
    (h : entry amounts catalog g = .ok (position, d)) :
    Totals.ofScope amounts d.scope = .ok d.columns.totals := by
  obtain ⟨totals, htotals, hplaced⟩ := entry_eq_ok.1 h
  obtain ⟨columns, hcolumns, -, rfl⟩ := Catalog.placed_eq_ok.1 hplaced
  rw [Catalog.totals_columns hcolumns]
  exact htotals

theorem detail_eq (amounts : AmountSource) {memo : Memo} (h : memo.Agrees catalog) (group : Group) :
    ∃ memo' : Memo, memo'.Agrees catalog ∧
      detail amounts catalog memo group =
        (entry amounts catalog group).map fun placed => (placed, memo') := by
  rw [detail, entry]
  cases htotals : Totals.ofScope amounts group.scope with
  | error e => exact ⟨memo, h, rfl⟩
  | ok totals =>
    obtain ⟨memo', hrun, h'⟩ := Projection.placed_computes group totals memo h
    refine ⟨memo', h', ?_⟩
    simp only [ok_bind]
    rw [hrun]
    cases catalog.placed group totals <;> rfl

theorem detailsFrom_eq (amounts : AmountSource) {memo : Memo} (h : memo.Agrees catalog) (groups : List Group) :
    detailsFrom amounts catalog memo groups = groups.mapM (entry amounts catalog) := by
  induction groups generalizing memo with
  | nil => rfl
  | cons group rest ih =>
    obtain ⟨memo', h', hdetail⟩ := detail_eq amounts h group
    rw [detailsFrom, List.mapM_cons, hdetail]
    cases entry amounts catalog group with
    | error e => rfl
    | ok placed =>
      change (do return placed :: (← detailsFrom amounts catalog memo' rest)) = _
      rw [ih h']
      rfl

/-- A report, with every definition read anew. -/
theorem ofOrders_eq (orders : List Order) (f : Filters) (amounts : AmountSource) (catalog : Catalog)
    (options : Options) :
    ofOrders orders f amounts catalog options =
      if orders.isEmpty then .ok ∅
      else do
        let kept ← liftM (Charge.retain f (ownerOf catalog) (Charge.ofOrders orders))
        let entries ← (Group.ofCharges kept).mapM (entry amounts catalog)
        let rows ← Detail.assemble amounts options.summaries (sortByKey entries)
        return ⟨rows⟩ := by
  rw [ofOrders]
  simp only [detailsFrom_eq amounts (Memo.Agrees.empty catalog)]
  split <;> rfl

end Report

end MarketFees
