import MarketFees.Proofs.OrderSet

namespace MarketFees

def Totals.numbers (t : Totals) : Rat × Rat × Rat :=
  (t.exclTax.toRat, t.tax.toRat, t.inclTax.toRat)

def Row.inNumbers (row : Row) : Row × Rat × Rat × Rat :=
  ({ row with columns := { row.columns with totals := 0 } }, row.columns.totals.numbers)

def Report.inNumbers (r : Report) : List (Row × Rat × Rat × Rat) :=
  r.rows.map Row.inNumbers

/-- Both sources have totals of the same numbers for every scope, or fail alike. -/
def AmountSource.AgreeInNumbers (a b : AmountSource) : Prop :=
  ∀ scope, (Totals.ofScope a scope).map Totals.numbers = (Totals.ofScope b scope).map Totals.numbers

namespace Detail

def withTotals (d : Detail) (totals : Totals) : Detail :=
  { d with columns := { d.columns with totals } }

def inNumbers (d : Detail) : Detail × Rat × Rat × Rat :=
  (d.withTotals 0, d.columns.totals.numbers)

theorem map_row_inNumbers {details others : List Detail}
    (h : details.map inNumbers = others.map inNumbers) :
    (details.map row).map Row.inNumbers = (others.map row).map Row.inNumbers := by
  have hrow (ds : List Detail) :
      (ds.map row).map Row.inNumbers = (ds.map inNumbers).map fun x => (x.1.row, x.2) := by
    rw [List.map_map, List.map_map]
    rfl
  rw [hrow, hrow, h]

theorem splitBy_inNumbers {r : GroupKey → GroupKey → Bool} {details others : List Detail}
    (h : details.map inNumbers = others.map inNumbers) :
    (details.splitBy fun d d' : Detail => r d.key d'.key).map (List.map inNumbers) =
      (others.splitBy fun d d' : Detail => r d.key d'.key).map (List.map inNumbers) := by
  have hsplit (ds : List Detail) : (ds.splitBy fun d d' : Detail => r d.key d'.key).map (List.map inNumbers) =
      (ds.map inNumbers).splitBy fun x y => r x.1.key y.1.key := by
    rw [splitBy_map]
    rfl
  rw [hsplit, hsplit, h]

theorem sharedColumns_inNumbers {details others : List Detail}
    (h : details.map inNumbers = others.map inNumbers) {totals totals' : Totals}
    (htotals : totals.numbers = totals'.numbers) (level : Level) :
    Row.inNumbers ⟨.summary level, none, sharedColumns level totals details⟩ =
      Row.inNumbers ⟨.summary level, none, sharedColumns level totals' others⟩ := by
  have hnames (t : Totals) (ds : List Detail) :
      Row.inNumbers ⟨.summary level, none, sharedColumns level t ds⟩ =
        (⟨.summary level, none, sharedColumns level 0 (ds.map (·.inNumbers.1))⟩, t.numbers) := by
    cases ds with
    | nil => rfl
    | cons first rest => cases level <;> rfl
  have hshared : details.map (·.inNumbers.1) = others.map (·.inNumbers.1) := by
    have hfirst := congrArg (List.map Prod.fst) h
    rwa [List.map_map, List.map_map] at hfirst
  rw [hnames, hnames, htotals, hshared]

variable {a b : AmountSource} {details others : List Detail}

theorem summary_inNumbers (hab : a.AgreeInNumbers b) (h : details.map inNumbers = others.map inNumbers)
    (level : Level) : (summary a level details).map Row.inNumbers =
      (summary b level others).map Row.inNumbers := by
  have hscopes : details.map (·.scope) = others.map (·.scope) := by
    have hscope := congrArg (List.map (·.1.scope)) h
    rwa [List.map_map, List.map_map] at hscope
  rw [summary, summary, hscopes]
  apply map_bind_congr (hab _)
  intro totals totals' htotals
  exact congrArg Except.ok (sharedColumns_inNumbers h htotals level)

section Rows

variable {rows rows' : List Detail → Except Fault (List Row)}
  (hrows : ∀ {details others : List Detail}, details.map inNumbers = others.map inNumbers →
    (rows details).map (List.map Row.inNumbers) = (rows' others).map (List.map Row.inNumbers))

include hrows

theorem summedUp_inNumbers (hab : a.AgreeInNumbers b) {level : Level}
    (h : details.map inNumbers = others.map inNumbers) :
    (summedUp a level rows details).map (List.map Row.inNumbers) =
      (summedUp b level rows' others).map (List.map Row.inNumbers) := by
  apply map_bind_congr (hrows h)
  intro result result' hresult
  apply map_bind_congr (summary_inNumbers hab h level)
  intro row row' hrow
  apply congrArg Except.ok
  rw [List.map_append, List.map_append, hresult, List.map_singleton, List.map_singleton, hrow]

theorem parted_inNumbers [BEq κ] {id : GroupKey → κ} (h : details.map inNumbers = others.map inNumbers) :
    (parted id rows details).map (List.map Row.inNumbers) =
      (parted id rows' others).map (List.map Row.inNumbers) := by
  apply map_bind_congr (mapM_map_congr (splitBy_inNumbers (r := fun k k' => id k == id k') h)
    fun _ _ => hrows)
  intro results results' hresults
  apply congrArg Except.ok
  rw [List.map_flatten, List.map_flatten, hresults]

end Rows

theorem assemble_inNumbers (hab : a.AgreeInNumbers b)
    (h : details.map inNumbers = others.map inNumbers) (withSummaries : Bool) :
    (assemble a withSummaries details).map (List.map Row.inNumbers) =
      (assemble b withSummaries others).map (List.map Row.inNumbers) := by
  cases withSummaries with
  | false => exact congrArg Except.ok (map_row_inNumbers h)
  | true =>
    refine parted_inNumbers (fun h => summedUp_inNumbers (fun h => ?_) hab h) h
    refine parted_inNumbers (fun h => summedUp_inNumbers (fun h => ?_) hab h) h
    refine parted_inNumbers (fun h => summedUp_inNumbers (fun h => ?_) hab h) h
    exact congrArg Except.ok (map_row_inNumbers h)

end Detail

namespace Catalog

variable (catalog : Catalog)

theorem columns_eq_map (key : GroupKey) (totals : Totals) :
    catalog.columns key totals = (catalog.columns key 0).map fun c => { c with totals } :=
  bind_map fun _ => bind_map fun _ => bind_map fun _ => bind_map fun _ => bind_map fun _ =>
    bind_map fun _ => rfl

theorem placed_eq_map (g : Group) (totals : Totals) :
    catalog.placed g totals = (catalog.placed g 0).map fun x => (x.1, x.2.withTotals totals) := by
  rw [placed, placed, columns_eq_map]
  apply map_bind_map
  intro columns
  rw [sortKey, sortKey]
  cases catalog.cycle g.key.cycle <;> rfl

end Catalog

namespace Report

variable {a b : AmountSource} {catalog : Catalog}

theorem entry_inNumbers (hab : a.AgreeInNumbers b) {g g' : Group}
    (h : (g.key, g.scope) = (g'.key, g'.scope)) :
    (entry a catalog g).map (fun x => (x.1, x.2.inNumbers)) =
      (entry b catalog g').map fun x => (x.1, x.2.inNumbers) := by
  rw [← entry_eq_of_scope_eq h]
  apply map_bind_congr (hab g.scope)
  intro totals totals' htotals
  rw [catalog.placed_eq_map g totals, catalog.placed_eq_map g totals']
  cases catalog.placed g 0 with
  | error e => rfl
  | ok x =>
    have hnumbers : (x.2.withTotals totals).inNumbers = (x.2.withTotals totals').inNumbers :=
      congrArg (x.2.withTotals 0, ·) htotals
    exact congrArg (fun n => Except.ok (x.1, n)) hnumbers

theorem sortByKey_inNumbers {entries others : List (SortKey × Detail)}
    (h : entries.map (fun x => (x.1, x.2.inNumbers)) = others.map fun x => (x.1, x.2.inNumbers)) :
    (sortByKey entries).map Detail.inNumbers = (sortByKey others).map Detail.inNumbers := by
  have hsort (l : List (SortKey × Detail)) : (sortByKey l).map Detail.inNumbers =
      (sortBy (·.1) (l.map fun x => (x.1, x.2.inNumbers))).map (·.2) := by
    rw [sortBy_map, List.map_map]
    exact List.map_map
  rw [hsort, hsort, h]

/-- Reports on charges of the same keys and scopes, summed up from sources of the same numbers. -/
theorem ofOrders_inNumbers (hab : a.AgreeInNumbers b) {f : Filters} {orders others : List Order}
    {kept kept' : List Charge} (hempty : orders.isEmpty = others.isEmpty)
    (hkept : Charge.retain f (ownerOf catalog) (Charge.ofOrders orders) = .ok kept)
    (hkept' : Charge.retain f (ownerOf catalog) (Charge.ofOrders others) = .ok kept')
    (hgroups : (Group.ofCharges kept).map (fun g => (g.key, g.scope)) =
      (Group.ofCharges kept').map fun g => (g.key, g.scope)) (options : Options) :
    (ofOrders orders f a catalog options).map inNumbers =
      (ofOrders others f b catalog options).map inNumbers := by
  rw [ofOrders_eq, ofOrders_eq, hempty, hkept, hkept']
  split
  · rfl
  apply map_bind_congr (mapM_map_congr hgroups fun _ _ => entry_inNumbers hab)
  intro entries entries' hentries
  apply map_bind_congr (Detail.assemble_inNumbers hab (sortByKey_inNumbers hentries) options.summaries)
  intro rows rows' hrows
  exact congrArg Except.ok hrows

end Report

end MarketFees
