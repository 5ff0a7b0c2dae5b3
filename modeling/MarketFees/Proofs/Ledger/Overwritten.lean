import MarketFees.Ledger.Overwrite
import MarketFees.Proofs.Ledger.Answers

namespace MarketFees

def AdjustmentRow.withAmount (row : AdjustmentRow) (amount : String) : AdjustmentRow :=
  { row with amount }

def Adjustment.withAmount (a : Adjustment) (amount : Decimal) : Adjustment :=
  { a with amount }

def AdjustmentCells.withText (text : AdjustmentId → String) (cells : AdjustmentCells) : AdjustmentCells :=
  { cells with amount := text cells.id }

namespace Ledger

/-- The ledgers that one becomes by overwriting amounts of adjustments, one after another. -/
inductive AmountsOverwritten (l : Ledger) : Ledger → Prop
  | refl : AmountsOverwritten l l
  | overwrite {l' l'' : Ledger} {id : Int64} {content : Content} {changed : Nat} :
      AmountsOverwritten l l' → l'.overwrite "adjustments" "amount" id content = .ok (l'', changed) →
      AmountsOverwritten l l''

def amountText (l : Ledger) (id : AdjustmentId) : String :=
  (l.adjustments.get? id).elim "" (·.amount)

/-- The ledger with texts in the places of all amounts. -/
def withTexts (l : Ledger) (text : AdjustmentId → String) : Ledger :=
  { l with adjustments := l.adjustments.filterMap fun id row => some (row.withAmount (text id)) }

variable {l l' : Ledger} {text text' : AdjustmentId → String}

theorem entries_withTexts : (l.withTexts text).adjustments.entries =
    l.adjustments.entries.map fun (id, row) => (id, row.withAmount (text id)) := by
  rw [← List.filterMap_eq_map]
  rfl

theorem get?_withTexts {id : AdjustmentId} : (l.withTexts text).adjustments.get? id =
    (l.adjustments.get? id).map (·.withAmount (text id)) := by
  rw [withTexts, Table.get?_filterMap]
  cases l.adjustments.get? id <;> rfl

theorem eq_withTexts {adjustments : Table AdjustmentId AdjustmentRow}
    (h : ∀ id, adjustments.get? id = (l.adjustments.get? id).map (·.withAmount (text id))) :
    { l with adjustments } = l.withTexts text := by
  have hadjustments : adjustments = (l.withTexts text).adjustments := by
    apply Table.ext_get?
    intro id
    rw [h, get?_withTexts]
  exact congrArg (fun adjustments => { l with adjustments }) hadjustments

theorem withTexts_congr (h : ∀ id, (l.adjustments.get? id).isSome → text id = text' id) :
    l.withTexts text = l.withTexts text' := by
  refine eq_withTexts fun id => get?_withTexts.trans ?_
  cases hrow : l.adjustments.get? id with
  | none => rfl
  | some row => rw [h id (by rw [hrow]; rfl)]

theorem amountText_withTexts {id : AdjustmentId} (h : (l.adjustments.get? id).isSome) :
    (l.withTexts text).amountText id = text id := by
  obtain ⟨row, hrow⟩ := Option.isSome_iff_exists.1 h
  rw [amountText, get?_withTexts, hrow]
  rfl

theorem withTexts_amountText (l : Ledger) : l.withTexts l.amountText = l := by
  symm
  apply eq_withTexts
  intro id
  rw [amountText]
  cases l.adjustments.get? id <;> rfl

theorem put_withTexts {id : AdjustmentId} {row : AdjustmentRow} (amount : String)
    (h : (l.withTexts text).adjustments.get? id = some row) :
    { l.withTexts text with adjustments := (l.withTexts text).adjustments.put id (row.withAmount amount) } =
      l.withTexts (Function.update text id amount) := by
  refine eq_withTexts (l := l) fun k => ?_
  rw [Table.get?_put, get?_withTexts]
  by_cases hk : k = id
  · subst hk
    rw [get?_withTexts] at h
    obtain ⟨stored, hstored, rfl⟩ := Option.map_eq_some_iff.1 h
    rw [if_pos rfl, hstored, Function.update_self]
    rfl
  · rw [if_neg hk, Function.update_of_ne hk]

theorem overwrite_amount {id : Int64} {content : Content} {changed : Nat}
    (h : l.overwrite "adjustments" "amount" id content = .ok (l', changed)) :
    l' = l ∨ ∃ row amount, l.adjustments.get? ⟨id⟩ = some row ∧
      l' = { l with adjustments := l.adjustments.put ⟨id⟩ (row.withAmount amount) } := by
  obtain ⟨⟨t, n⟩, htable, h⟩ := bind_eq_ok.1 h
  cases h
  rw [Table.overwrite] at htable
  cases hrow : l.adjustments.get? ⟨id⟩ with
  | none =>
    rw [hrow] at htable
    cases htable
    exact .inl rfl
  | some row =>
    rw [hrow] at htable
    obtain ⟨row', hset, h⟩ := bind_eq_ok.1 htable
    obtain ⟨amount, -, hset⟩ := bind_eq_ok.1 hset
    cases hset
    cases h
    exact .inr ⟨row, amount, rfl, rfl⟩

/-- Overwriting amounts comes to putting texts in their places. -/
theorem AmountsOverwritten.exists_texts (h : l.AmountsOverwritten l') : ∃ text, l' = l.withTexts text := by
  induction h with
  | refl => exact ⟨_, l.withTexts_amountText.symm⟩
  | overwrite _ hoverwrite ih =>
    obtain ⟨text, rfl⟩ := ih
    obtain rfl | ⟨row, amount, hrow, rfl⟩ := overwrite_amount hoverwrite
    · exact ⟨text, rfl⟩
    · exact ⟨_, put_withTexts amount hrow⟩

theorem AmountsOverwritten.eq (h : l.AmountsOverwritten l') : l' = l.withTexts l'.amountText := by
  obtain ⟨text, rfl⟩ := h.exists_texts
  exact withTexts_congr fun id hid => (amountText_withTexts hid).symm

section Queries

variable {q : AmountQuery}

theorem ofKind_withTexts : (l.withTexts text).ofKind q =
    (l.ofKind q).map fun (id, row) => (id, row.withAmount (text id)) := by
  rw [ofKind, entries_withTexts, List.filter_map]
  rfl

theorem candidates_withTexts (orders : List OrderId) : (l.withTexts text).candidates q orders =
    (l.candidates q orders).map fun (id, row) => (id, row.withAmount (text id)) := by
  rw [candidates, candidates, ofKind_withTexts]
  split
  · rfl
  · rw [List.map_flatMap]
    apply List.flatMap_congr
    intro order _
    rw [List.filter_map]
    rfl

def Candidate.withText (text : AdjustmentId → String) (c : Candidate) : Candidate :=
  { c with amount := text c.id }

theorem candidate_withAmount (id : AdjustmentId) (row : AdjustmentRow) :
    candidate id (row.withAmount (text id)) = (candidate id row).map (·.withText text) := by
  rw [candidate, candidate, AdjustmentRow.withAmount]
  cases row.originator.read with
  | error e => rfl
  | ok originator => cases row.adjustable.read <;> rfl

def readText (text : AdjustmentId → String) (id : AdjustmentId) :
    Except StoreError (AdjustmentId × Decimal) := do
  return (id, ← readDecimal .adjustmentAmount (text id))

theorem selectPortion_withTexts {orders : List OrderId} {selected : List (AdjustmentId × Decimal)}
    (h : l.selectPortion q orders = .ok selected) :
    (l.withTexts text).selectPortion q orders = selected.mapM fun a => readText text a.1 := by
  obtain ⟨cs, hcs, hselected⟩ := bind_eq_ok.1 h
  have hcandidates : ((l.withTexts text).candidates q orders).mapM (fun (id, row) => candidate id row) =
      .ok (cs.map (·.withText text)) := by
    rw [candidates_withTexts, mapM_map_map fun entry _ => candidate_withAmount entry.1 entry.2, hcs]
    rfl
  have hread (c : Candidate) (a : AdjustmentId × Decimal) (h : c.read = .ok a) :
      (c.withText text).read = readText text a.1 := by
    obtain ⟨amount, -, h⟩ := bind_eq_ok.1 h
    cases h
    rfl
  rw [selectPortion, hcandidates, ok_bind, List.filter_map, List.mapM_map]
  exact mapM_eq_of_mapM hselected hread

/-- What a query selects does not depend on amounts. Those of what it selects are read instead. -/
theorem select_withTexts (text : AdjustmentId → String) {selected : List (AdjustmentId × Decimal)}
    (h : l.select q = .ok selected) :
    (l.withTexts text).select q = selected.mapM fun a => readText text a.1 := by
  rw [select] at h ⊢
  split at h
  · cases h
    rw [if_pos ‹_›]
    rfl
  · obtain ⟨parts, hparts, h⟩ := bind_eq_ok.1 h
    cases h
    rw [if_neg ‹_›, mapM_flatten, ← mapM_eq_of_mapM hparts fun _ _ => selectPortion_withTexts]
    rfl

end Queries

/-- The text in the place of an amount, where it spells no decimal. -/
def corruptText? (l : Ledger) (id : AdjustmentId) : Option String :=
  if (Decimal.ofText? (l.amountText id)).isSome then none else some (l.amountText id)

def amountOf (l : Ledger) (id : AdjustmentId) : Decimal :=
  (Decimal.ofText? (l.amountText id)).getD 0

/-- Of adjustments that are read in turn, the first text that spells no decimal. -/
def firstCorrupt? (l : Ledger) (adjustments : List Adjustment) : Option String :=
  adjustments.findSome? (l.corruptText? ·.id)

theorem firstCorrupt?_eq (adjustments : List Adjustment) :
    l.firstCorrupt? adjustments = (adjustments.map (·.id)).findSome? l.corruptText? := by
  rw [firstCorrupt?, List.findSome?_map]
  rfl

theorem firstCorrupt?_flatMap {f : α → List Adjustment} {parts : List α} :
    l.firstCorrupt? (parts.flatMap f) = parts.findSome? fun part => l.firstCorrupt? (f part) := by
  simp only [firstCorrupt?, ← List.head?_filterMap, List.filterMap_flatMap, List.head?_flatMap]

theorem corruptText?_isSome {id : AdjustmentId} :
    (l.corruptText? id).isSome ↔ Decimal.ofText? (l.amountText id) = none := by
  rw [corruptText?]
  cases Decimal.ofText? (l.amountText id) <;> simp

theorem firstCorrupt?_isSome {adjustments : List Adjustment} : (l.firstCorrupt? adjustments).isSome ↔
    ∃ a ∈ adjustments, Decimal.ofText? (l.amountText a.id) = none := by
  simp only [firstCorrupt?, List.findSome?_isSome_iff, corruptText?_isSome]

theorem firstCorrupt?_congr {adjustments : List Adjustment}
    (h : ∀ a ∈ adjustments, l.amountText a.id = l'.amountText a.id) :
    l.firstCorrupt? adjustments = l'.firstCorrupt? adjustments := by
  rw [firstCorrupt?, firstCorrupt?, ← List.head?_filterMap, ← List.head?_filterMap]
  apply congrArg
  apply List.filterMap_congr
  intro a ha
  rw [corruptText?, corruptText?, h a ha]

theorem readDecimal_amountText (id : AdjustmentId) : readDecimal .adjustmentAmount (l.amountText id) =
    (l.corruptText? id).elim (.ok (l.amountOf id)) (.error ∘ .invalidDecimal .adjustmentAmount) := by
  rw [readDecimal, corruptText?, amountOf]
  cases Decimal.ofText? (l.amountText id) <;> rfl

theorem mapM_amountText (f : Adjustment → Decimal → β) (adjustments : List Adjustment) :
    (adjustments.mapM fun a => do return f a (← readDecimal .adjustmentAmount (l.amountText a.id))) =
      (l.firstCorrupt? adjustments).elim (.ok (adjustments.map fun a => f a (l.amountOf a.id)))
        (.error ∘ .invalidDecimal .adjustmentAmount) := by
  rw [firstCorrupt?, ← mapM_elim]
  apply mapM_congr
  intro a _
  rw [readDecimal_amountText]
  cases l.corruptText? a.id <;> rfl

theorem AmountsOverwritten.select_eq (ho : l.AmountsOverwritten l') {q : AmountQuery}
    {selected : List Adjustment} (h : l.select q = .ok (selected.map fun a => (a.id, a.amount))) :
    l'.select q = (l'.firstCorrupt? selected).elim (.ok (selected.map fun a => (a.id, l'.amountOf a.id)))
      (.error ∘ .invalidDecimal .adjustmentAmount) := by
  have hread := select_withTexts l'.amountText h
  rw [← ho.eq, List.mapM_map] at hread
  exact hread.trans (mapM_amountText (fun a amount => (a.id, amount)) selected)

theorem cells_withAmount (id : AdjustmentId) (row : AdjustmentRow) :
    (row.withAmount (text id)).cells id = (row.cells id).map (·.withText text) := by
  rw [AdjustmentRow.cells, AdjustmentRow.cells, AdjustmentRow.withAmount]
  cases row.order.readId with
  | error e => rfl
  | ok order =>
    cases row.originator.read with
    | error e => rfl
    | ok originator =>
      cases row.adjustable.read with
      | error e => rfl
      | ok adjustable => cases row.included.readBool <;> rfl

theorem read_withText {cells : AdjustmentCells} {a : Adjustment} (h : cells.read = .ok a) :
    (cells.withText text).read =
      do return a.withAmount (← readDecimal .adjustmentAmount (text a.id)) := by
  rw [AdjustmentCells.read] at h
  cases horiginator : Originator.ofStored? cells.originatorType cells.originator with
  | none => simp [horiginator] at h
  | some originator =>
    cases hadjustable : Adjustable.ofStored? cells.adjustableType cells.adjustable with
    | none => simp [horiginator, hadjustable] at h
    | some adjustable =>
      rw [horiginator, hadjustable] at h
      obtain ⟨amount, -, h⟩ := bind_eq_ok.1 h
      cases h
      rw [AdjustmentCells.read, AdjustmentCells.withText, horiginator, hadjustable]
      rfl

def reread (l : Ledger) (order : Order) : Order :=
  { order with adjustments := order.adjustments.map fun a => a.withAmount (l.amountOf a.id) }

theorem reread_congr {order : Order}
    (h : ∀ a ∈ order.adjustments, l.amountText a.id = l'.amountText a.id) :
    l.reread order = l'.reread order := by
  have hadjustments : (l.reread order).adjustments = (l'.reread order).adjustments := by
    apply List.map_congr_left
    intro a ha
    rw [amountOf, amountOf, h a ha]
  exact congrArg (fun adjustments => { order with adjustments }) hadjustments

def childrenOf (l : Ledger) (orders : List Order) : List Adjustment :=
  l.readAdjustments.filter fun a => finds (orders.map (·.id)) (.ofId a.order)

theorem mapM_cells_withTexts {ids : List OrderId} {cells : List AdjustmentCells}
    (h : (l.adjustments.entries.filter fun (_, row) => finds ids row.order).mapM
      (fun (id, row) => row.cells id) = .ok cells) :
    ((l.withTexts text).adjustments.entries.filter fun (_, row) => finds ids row.order).mapM
      (fun (id, row) => row.cells id) = .ok (cells.map (·.withText text)) := by
  rw [entries_withTexts, List.filter_map]
  refine (mapM_map_map fun entry _ => cells_withAmount entry.1 entry.2).trans ?_
  exact congrArg (·.map (List.map (·.withText text))) h

/-- Where line items and columns of numbers can be read it is left to read the texts. -/
theorem withChildren_eq_map {orders : List Order} {items : List (OrderId × LineItem)}
    {cells : List AdjustmentCells}
    (hitems : (l.lineItems.entries.filter fun (_, row) => finds (orders.map (·.id)) row.order).mapM
      (fun (id, row) => row.read id) = .ok items)
    (hcells : (l.adjustments.entries.filter fun (_, row) => finds (orders.map (·.id)) row.order).mapM
      (fun (id, row) => row.cells id) = .ok cells) :
    l.withChildren orders = (cells.mapM AdjustmentCells.read).map fun adjustments =>
      orders.map fun order =>
        { order with
          lineItems := (items.filter (·.1 = order.id)).map (·.2)
          adjustments := adjustments.filter (·.order = order.id) } := by
  simp only [withChildren, hitems, hcells, ok_bind]
  cases cells.mapM AdjustmentCells.read <;> rfl

theorem Sound.withChildren_overwritten (h : l.Sound) (ho : l.AmountsOverwritten l') (orders : List Order) :
    l'.withChildren orders = (l'.firstCorrupt? (l.childrenOf orders)).elim
      (.ok (orders.map fun order => l'.reread (l.fill order)))
      (.error ∘ .invalidDecimal .adjustmentAmount) := by
  obtain ⟨cells, hcells, hadjustments⟩ := h.exists_cells (orders.map (·.id))
  have hchildren := withChildren_eq_map (l := l.withTexts l'.amountText) (h.mapM_lineItems _)
    (mapM_cells_withTexts hcells)
  rw [← ho.eq, List.mapM_map, mapM_eq_of_mapM hadjustments fun _ _ => read_withText,
    mapM_amountText Adjustment.withAmount] at hchildren
  rw [hchildren, childrenOf]
  cases l'.firstCorrupt? _ with
  | some text => rfl
  | none =>
    apply congrArg Except.ok
    apply List.map_congr_left
    intro order horder
    -- to which order an adjustment belongs does not depend on its amount
    rw [← fill_found horder, List.filter_map]
    rfl

/-- The adjustments of the orders that a search admits, as it reads them: portion after portion. -/
def searched (l : Ledger) (f : Filters) : List Adjustment :=
  (portions portionSize (l.readHeaders.filter f.matchesOrder)).flatMap l.childrenOf

theorem AmountsOverwritten.headers_eq (ho : l.AmountsOverwritten l') (f : Filters) :
    l'.headers f = l.headers f := by
  rw [ho.eq]
  rfl

def accepted (l : Ledger) (f : Filters) : List Order :=
  l.snapshot.orders.filter f.matchesOrder

theorem map_fill_filter (f : Filters) :
    (l.readHeaders.filter f.matchesOrder).map l.fill = l.accepted f := by
  rw [accepted, snapshot, List.filter_map]
  rfl

theorem Sound.search_overwritten (h : l.Sound) (ho : l.AmountsOverwritten l') (f : Filters)
    (permission : Permission) :
    l'.search f permission = (l'.firstCorrupt? (l.searched f)).elim
      (.ok (((l.accepted f).map l'.reread).filter permission))
      (.error ∘ .invalidDecimal .adjustmentAmount) := by
  obtain ⟨headers, hok, hmatches⟩ := h.headers_eq f
  rw [search, ho.headers_eq, hok, ok_bind, mapM_congr fun part _ => h.withChildren_overwritten ho part,
    mapM_elim, hmatches, searched, firstCorrupt?_flatMap]
  cases List.findSome? _ _ with
  | some text => rfl
  | none =>
    apply congrArg Except.ok
    rw [← List.map_flatten, flatten_portions, ← map_fill_filter, List.map_map]
    rfl

theorem mem_childrenOf {orders : List Order} (h : orders ≠ []) {a : Adjustment} :
    a ∈ l.childrenOf orders ↔ ∃ order ∈ orders, a ∈ (l.fill order).adjustments := by
  rw [childrenOf, List.mem_filter, finds_ofId, List.map_eq_nil_iff, or_iff_right h, List.mem_map]
  constructor
  · rintro ⟨ha, order, horder, hid⟩
    exact ⟨order, horder, List.mem_filter.2 ⟨ha, decide_eq_true hid.symm⟩⟩
  · rintro ⟨order, horder, ha⟩
    obtain ⟨ha, hid⟩ := List.mem_filter.1 ha
    exact ⟨ha, order, horder, (of_decide_eq_true hid).symm⟩

theorem mem_searched {f : Filters} {a : Adjustment} :
    a ∈ l.searched f ↔ ∃ order ∈ l.accepted f, a ∈ order.adjustments := by
  rw [searched, List.mem_flatMap, ← map_fill_filter]
  constructor
  · rintro ⟨part, hpart, ha⟩
    have hne := (bounds_of_mem_portions (by decide) hpart).1
    obtain ⟨order, horder, ha⟩ := (mem_childrenOf hne).1 ha
    exact ⟨l.fill order, List.mem_map_of_mem (mem_of_mem_portions hpart horder), ha⟩
  · rintro ⟨_, hfilled, ha⟩
    obtain ⟨order, horder, rfl⟩ := List.mem_map.1 hfilled
    rw [← flatten_portions (n := portionSize) (l := l.readHeaders.filter f.matchesOrder)] at horder
    obtain ⟨part, hpart, horder⟩ := List.mem_flatten.1 horder
    exact ⟨part, hpart, (mem_childrenOf (List.ne_nil_of_mem horder)).2 ⟨order, horder, ha⟩⟩

theorem firstCorrupt?_searched {f : Filters} : (l'.firstCorrupt? (l.searched f)).isSome ↔
    ∃ order ∈ l.accepted f, ∃ a ∈ order.adjustments, Decimal.ofText? (l'.amountText a.id) = none := by
  rw [firstCorrupt?_isSome]
  constructor
  · rintro ⟨a, ha, htext⟩
    obtain ⟨order, horder, ha⟩ := mem_searched.1 ha
    exact ⟨order, horder, a, ha, htext⟩
  · rintro ⟨order, horder, a, ha, htext⟩
    exact ⟨a, mem_searched.2 ⟨order, horder, ha⟩, htext⟩

theorem AmountsOverwritten.amountSum_eq (ho : l.AmountsOverwritten l') {q : AmountQuery}
    {selected : List Adjustment} (hy : l.Yields q selected) :
    l'.store.amounts.amountSum q = (l'.firstCorrupt? selected).elim
      (Decimal.sum (selected.map (l'.amountOf ·.id)))
      (.error ∘ .store ∘ .invalidDecimal .adjustmentAmount) := by
  simp only [store, ho.select_eq hy.select_eq]
  cases l'.firstCorrupt? selected with
  | none => exact congrArg Decimal.sum List.map_map
  | some text => rfl

theorem AmountsOverwritten.adjustmentIds_eq (ho : l.AmountsOverwritten l') {q : AmountQuery}
    {selected : List Adjustment} (hy : l.Yields q selected) :
    l'.store.amounts.adjustmentIds q = (l'.firstCorrupt? selected).elim
      (.ok (.ofList (selected.map (·.id)))) (.error ∘ .invalidDecimal .adjustmentAmount) := by
  simp only [store, ho.select_eq hy.select_eq]
  cases l'.firstCorrupt? selected with
  | none => exact congrArg (fun ids => Except.ok (SortedSet.ofList ids)) List.map_map
  | some text => rfl

theorem sum_ne_store (amounts : List Decimal) (cause : StoreError) :
    Decimal.sum amounts ≠ .error (.store cause) := by
  intro h
  obtain ⟨operation, h⟩ := OnlyOverflows.elim (Decimal.sum? amounts) .addition _ h
  cases h

/-- What a query that selects these adjustments of a ledger answers when amounts were overwritten. -/
structure QueryReads (l l' : Ledger) (q : AmountQuery) (selected : List Adjustment) : Prop where
  corrupt_iff : (l'.firstCorrupt? selected).isSome ↔
    ∃ a ∈ l.readAdjustments, q.selects a ∧ Decimal.ofText? (l'.amountText a.id) = none
  amountSum_fails : ∀ text,
    l'.store.amounts.amountSum q = .error (.store (.invalidDecimal .adjustmentAmount text)) ↔
      l'.firstCorrupt? selected = some text
  adjustmentIds_fails : ∀ text,
    l'.store.amounts.adjustmentIds q = .error (.invalidDecimal .adjustmentAmount text) ↔
      l'.firstCorrupt? selected = some text
  amountSum_eq : l'.firstCorrupt? selected = none →
    l'.store.amounts.amountSum q = Decimal.sum (selected.map (l'.amountOf ·.id))
  adjustmentIds_eq : l'.firstCorrupt? selected = none →
    l'.store.amounts.adjustmentIds q = .ok (.ofList (selected.map (·.id)))
  /-- Texts in the places of other amounts make no difference. -/
  unaffected : ∀ l'' : Ledger, l.AmountsOverwritten l'' →
    (∀ a ∈ selected, l''.amountText a.id = l'.amountText a.id) →
    l''.store.amounts.amountSum q = l'.store.amounts.amountSum q ∧
      l''.store.amounts.adjustmentIds q = l'.store.amounts.adjustmentIds q

theorem AmountsOverwritten.queryReads (ho : l.AmountsOverwritten l') {q : AmountQuery}
    {selected : List Adjustment} (hy : l.Yields q selected) : l.QueryReads l' q selected where
  corrupt_iff := by
    rw [firstCorrupt?_isSome]
    simp only [hy.perm.mem_iff, List.mem_filter, and_assoc]
  amountSum_fails text := by
    rw [ho.amountSum_eq hy]
    cases l'.firstCorrupt? selected with
    | none => simp [sum_ne_store]
    | some text' => simp
  adjustmentIds_fails text := by
    rw [ho.adjustmentIds_eq hy]
    cases l'.firstCorrupt? selected <;> simp
  amountSum_eq hnone := by
    rw [ho.amountSum_eq hy, hnone]
    rfl
  adjustmentIds_eq hnone := by
    rw [ho.adjustmentIds_eq hy, hnone]
    rfl
  unaffected l'' ho' hsame := by
    have hamounts : selected.map (l''.amountOf ·.id) = selected.map (l'.amountOf ·.id) := by
      apply List.map_congr_left
      intro a ha
      rw [amountOf, amountOf, hsame a ha]
    rw [ho.amountSum_eq hy, ho'.amountSum_eq hy, ho.adjustmentIds_eq hy, ho'.adjustmentIds_eq hy,
      firstCorrupt?_congr hsame, hamounts]
    exact ⟨rfl, rfl⟩

/-- What a search with these filters finds when amounts of a ledger were overwritten, whoever asks. -/
structure SearchReads (l l' : Ledger) (f : Filters) : Prop where
  accepted_eq : l.store.search f .everything = .ok (l.accepted f)
  fails_iff : ∀ permission,
    (∃ text, l'.store.search f permission = .error (.invalidDecimal .adjustmentAmount text)) ↔
      ∃ order ∈ l.accepted f, ∃ a ∈ order.adjustments, Decimal.ofText? (l'.amountText a.id) = none
  succeeds : ∀ permission,
    (∀ order ∈ l.accepted f, ∀ a ∈ order.adjustments, Decimal.ofText? (l'.amountText a.id) ≠ none) →
      l'.store.search f permission = .ok (((l.accepted f).map l'.reread).filter permission)
  /-- Texts in the places of the amounts of other orders make no difference. -/
  unaffected : ∀ l'' : Ledger, l.AmountsOverwritten l'' →
    (∀ order ∈ l.accepted f, ∀ a ∈ order.adjustments, l''.amountText a.id = l'.amountText a.id) →
    ∀ permission, l''.store.search f permission = l'.store.search f permission

theorem Sound.searchReads (h : l.Sound) (ho : l.AmountsOverwritten l') (f : Filters) :
    l.SearchReads l' f where
  accepted_eq := by
    rw [h.store_eq]
    simp only [Snapshot.store, Snapshot.search, Permission.everything, Bool.and_true, accepted]
  fails_iff permission := by
    rw [← firstCorrupt?_searched, Option.isSome_iff_exists]
    apply exists_congr
    intro text
    simp only [store, h.search_overwritten ho]
    cases l'.firstCorrupt? (l.searched f) <;> simp
  succeeds permission hnone := by
    have hcorrupt : l'.firstCorrupt? (l.searched f) = none := by
      rw [← Option.not_isSome_iff_eq_none, firstCorrupt?_searched]
      rintro ⟨order, horder, a, ha, htext⟩
      exact hnone order horder a ha htext
    simp only [store, h.search_overwritten ho, hcorrupt]
    rfl
  unaffected l'' ho' hsame permission := by
    have hcorrupt : l''.firstCorrupt? (l.searched f) = l'.firstCorrupt? (l.searched f) := by
      apply firstCorrupt?_congr
      intro a ha
      obtain ⟨order, horder, ha⟩ := mem_searched.1 ha
      exact hsame order horder a ha
    have hreread : (l.accepted f).map l''.reread = (l.accepted f).map l'.reread :=
      List.map_congr_left fun order horder => reread_congr (hsame order horder)
    simp only [store, h.search_overwritten ho, h.search_overwritten ho', hcorrupt, hreread]

/-- Amounts that spell no decimal are reported where they are asked for, and nowhere else. A query names
the first such text among the adjustments that it selects, by order and then by id. A search fails on
orders that the filters admit, also where the caller may not see them. -/
theorem Reached.corrupt_reported (h : l.Reached) (ho : l.AmountsOverwritten l') :
    l.RowsRead ∧ (∀ q, ∃ selected, l.Yields q selected ∧ l.QueryReads l' q selected) ∧
      ∀ f, l.SearchReads l' f :=
  ⟨h.sound.rowsRead, fun q => ⟨_, h.sound.yields q, ho.queryReads (h.sound.yields q)⟩,
    h.sound.searchReads ho⟩

theorem corrupt_reported_twoDays :
    let l := new.putAll .twoDays
    let taxes := AmountQuery.taxes (.ofList [⟨1⟩, ⟨2⟩])
    l.Reached ∧ ∃ l', l.AmountsOverwritten l' ∧
      l'.store.amounts.amountSum (taxes.withIncluded true) =
        .error (.store (.invalidDecimal .adjustmentAmount "ten")) ∧
      l'.store.amounts.adjustmentIds (taxes.withIncluded false) = .ok (.ofList [⟨2⟩]) ∧
      (∃ text, l'.store.search .none (fun order => order.id = ⟨1⟩) =
        .error (.invalidDecimal .adjustmentAmount text)) ∧
      l'.store.search (Filters.none.completedBetween ⟨0, 0, by decide⟩ ⟨0, 0, by decide⟩) .everything =
        .ok Dataset.quarterTax.orders := by
  intro l taxes
  have hreached : l.Reached := .load (d := .twoDays) .new rfl
  let l' := l.withTexts (Function.update l.amountText ⟨4⟩ "ten")
  have hoverwrite : l.overwrite "adjustments" "amount" 4 (.text "ten") = .ok (l', 1) := by rfl
  have ho : l.AmountsOverwritten l' := .overwrite .refl hoverwrite
  obtain ⟨-, hqueries, hsearches⟩ := hreached.corrupt_reported ho
  have hids (id : AdjustmentId) {q : AmountQuery} {selected : List Adjustment} (h : l.Yields q selected)
      (hread : (l.readAdjustments.filter q.selects).map (·.id) = [id]) : selected.map (·.id) = [id] :=
    List.perm_singleton.1 (hread ▸ h.perm.map (·.id))
  have haccepted (f : Filters) : l.accepted f = Dataset.twoDays.orders.filter f.matchesOrder := by
    have horders : l.snapshot.orders = Dataset.twoDays.orders := by
      rw [snapshot_putAll Dataset.distinct_twoDays]
      cbv
    rw [accepted, horders]
  refine ⟨hreached, l', ho, ?_, ?_, ?_, ?_⟩
  · obtain ⟨selected, hyields, hreads⟩ := hqueries (taxes.withIncluded true)
    rw [hreads.amountSum_fails, firstCorrupt?_eq, hids ⟨4⟩ hyields (by cbv)]
    decide +kernel
  · obtain ⟨selected, hyields, hreads⟩ := hqueries (taxes.withIncluded false)
    have hselected := hids ⟨2⟩ hyields (by cbv)
    rw [hreads.adjustmentIds_eq (by rw [firstCorrupt?_eq, hselected]; cbv), hselected]
  · apply ((hsearches .none).fails_iff _).2
    rw [haccepted]
    have htext : Decimal.ofText? (l'.amountText ⟨4⟩) = none := by cbv
    exact ⟨_, List.mem_filter.2 ⟨List.mem_append_right _ (List.mem_singleton_self _), rfl⟩, _,
      List.mem_cons_of_mem _ (List.mem_singleton_self _), htext⟩
  · let f := Filters.none.completedBetween ⟨0, 0, by decide⟩ ⟨0, 0, by decide⟩
    have horders : l.accepted f = Dataset.quarterTax.orders := (haccepted f).trans rfl
    have hother : ∀ order ∈ l.accepted f, ∀ a ∈ order.adjustments, a.id ≠ ⟨4⟩ := by
      rw [horders]
      decide
    rw [← (hsearches f).unaffected l .refl, (hsearches f).accepted_eq, horders]
    intro order horder a ha
    rw [amountText, amountText, get?_withTexts, Function.update_of_ne (hother order horder a ha), amountText]
    cases l.adjustments.get? a.id <;> rfl

end Ledger

end MarketFees
