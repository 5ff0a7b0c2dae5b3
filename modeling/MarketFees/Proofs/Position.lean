import MarketFees.Proofs.Projection
import MarketFees.Proofs.Runs

namespace MarketFees

/-- What the rows of one summary have in common. -/
inductive Node where
  | distributor (distributor : EnterpriseId)
  | producer (distributor supplier : EnterpriseId)
  | cycle (distributor supplier : EnterpriseId) (cycle : CycleId)
  deriving DecidableEq, Repr

def Level.depth : Level → Nat
  | .distributor => 0
  | .producer => 1
  | .cycle => 2

def GroupKey.node (key : GroupKey) : Level → Node
  | .distributor => .distributor key.distributor
  | .producer => .producer key.distributor key.supplier
  | .cycle => .cycle key.distributor key.supplier key.cycle

def Node.level : Node → Level
  | .distributor .. => .distributor
  | .producer .. => .producer
  | .cycle .. => .cycle

/-- Whether a row with this key is summed up in the summary of a node. -/
def Node.holds (node : Node) (key : GroupKey) : Bool :=
  key.node node.level = node

@[simp]
theorem GroupKey.level_node (key : GroupKey) (level : Level) : (key.node level).level = level := by
  cases level <;> rfl

theorem GroupKey.holds_node {key other : GroupKey} {level : Level} :
    (key.node level).holds other = true ↔ other.node level = key.node level := by
  rw [Node.holds, level_node, decide_eq_true_iff]

theorem GroupKey.level_eq_of_node_eq {a b : GroupKey} {level other : Level}
    (h : a.node level = b.node other) : level = other := by
  have hlevel := congrArg Node.level h
  rwa [level_node, level_node] at hlevel

theorem GroupKey.node_eq_of_depth_le {a b : GroupKey} {level above : Level}
    (h : a.node level = b.node level) (hdepth : above.depth ≤ level.depth) :
    a.node above = b.node above := by
  cases level <;> cases above <;> simp_all [node, Level.depth]

namespace SortKey

def distributorOrder : SortKey → SortKey → Ordering :=
  compareLex (compareOn distributorName) (compareOn distributor)

def producerOrder : SortKey → SortKey → Ordering :=
  compareLex distributorOrder <| compareLex (compareOn producerName) (compareOn supplier)

def cycleOrder : SortKey → SortKey → Ordering :=
  compareLex producerOrder <| compareLex (compareOn opensAt) <|
    compareLex (compareOn cycleName) (compareOn cycle)

instance : Std.TransCmp distributorOrder :=
  inferInstanceAs (Std.TransCmp (compareLex (compareOn _) (compareOn _)))

instance : Std.TransCmp producerOrder :=
  inferInstanceAs (Std.TransCmp (compareLex distributorOrder (compareLex (compareOn _) (compareOn _))))

instance : Std.TransCmp cycleOrder :=
  inferInstanceAs (Std.TransCmp (compareLex producerOrder (compareLex (compareOn _)
    (compareLex (compareOn _) (compareOn _)))))

/-- The order of positions as far as a level goes. -/
def orderAt : Level → SortKey → SortKey → Ordering
  | .distributor => distributorOrder
  | .producer => producerOrder
  | .cycle => cycleOrder

instance (level : Level) : Std.TransCmp (orderAt level) := by
  cases level <;> unfold orderAt <;> infer_instance

theorem isLE_of_compareLex {a b : SortKey → SortKey → Ordering} {x y : SortKey}
    (h : (compareLex a b x y).isLE) : (a x y).isLE := by
  rw [compareLex] at h
  cases hxy : a x y <;> simp_all

theorem order_eq : order = compareLex cycleOrder (compareLex (compareOn feeName) <|
    compareLex (compareOn fee) <| compareLex (compareOn taxRateName) (compareOn taxRate)) := by
  funext x y
  simp only [order, cycleOrder, producerOrder, distributorOrder, compareLex, Ordering.then_assoc]

/-- Sorted positions are sorted as far as each level goes. -/
theorem isLE_orderAt (level : Level) {x y : SortKey} (h : (compare x y).isLE) :
    (orderAt level x y).isLE := by
  have hcycle : (cycleOrder x y).isLE := by
    have h : (order x y).isLE := h
    rw [order_eq] at h
    exact isLE_of_compareLex h
  have hproducer : (producerOrder x y).isLE := isLE_of_compareLex hcycle
  cases level with
  | distributor => exact isLE_of_compareLex hproducer
  | producer => exact hproducer
  | cycle => exact hcycle

theorem orderAt_eq_iff {level : Level} {x y : SortKey} : orderAt level x y = .eq ↔
    (x.distributorName = y.distributorName ∧ x.distributor = y.distributor) ∧
    (1 ≤ level.depth → x.producerName = y.producerName ∧ x.supplier = y.supplier) ∧
    (2 ≤ level.depth → x.opensAt = y.opensAt ∧ x.cycleName = y.cycleName ∧ x.cycle = y.cycle) := by
  cases level <;>
    simp [orderAt, cycleOrder, producerOrder, distributorOrder, compareLex_eq_eq, compareOn,
      Level.depth, and_assoc]

end SortKey

namespace Detail

variable {catalog : Catalog} {a b d : Detail}

def position (catalog : Catalog) (d : Detail) : SortKey where
  distributorName := d.columns.distributor
  distributor := d.key.distributor
  producerName := d.columns.producer
  supplier := d.key.supplier
  opensAt := (catalog.cycle d.key.cycle).toOption.join.bind (·.opensAt)
  cycleName := d.columns.cycle
  cycle := d.key.cycle
  feeName := d.columns.feeName
  fee := d.key.fee
  taxRateName := d.columns.taxRateName
  taxRate := d.key.taxRate

theorem position_eq {position : SortKey} (h : catalog.sortKey d.key d.columns = .ok position) :
    d.position catalog = position := by
  obtain ⟨cycle, hcycle, h⟩ := bind_eq_ok.1 h
  cases h
  rw [Detail.position, hcycle]
  rfl

/-- The names in a detail are those that the catalog has for its ids. -/
structure Drawn (catalog : Catalog) (d : Detail) : Prop where
  distributor : ∃ e, catalog.enterprise d.key.distributor = .ok e ∧
    d.columns.distributor = e.map (·.name)
  producer : ∃ e, catalog.enterprise d.key.supplier = .ok e ∧ d.columns.producer = e.map (·.name) ∧
    d.columns.producerTaxStatus = e.map (·.chargesSalesTax)
  cycle : ∃ c, catalog.cycle d.key.cycle = .ok c ∧ d.columns.cycle = c.map (·.name)

theorem drawn_of_columns {totals : Totals} (h : catalog.columns d.key totals = .ok d.columns) :
    d.Drawn catalog := by
  obtain ⟨distributor, hdistributor, h⟩ := bind_eq_ok.1 h
  obtain ⟨producer, hproducer, h⟩ := bind_eq_ok.1 h
  obtain ⟨cycle, hcycle, h⟩ := bind_eq_ok.1 h
  obtain ⟨fee, hfee, h⟩ := bind_eq_ok.1 h
  obtain ⟨owner, howner, h⟩ := bind_eq_ok.1 h
  obtain ⟨rate, hrate, h⟩ := bind_eq_ok.1 h
  have hcolumns := Except.ok.inj h
  exact {
    distributor := ⟨distributor, hdistributor, by rw [← hcolumns]⟩
    producer := ⟨producer, hproducer, by rw [← hcolumns], by rw [← hcolumns]⟩
    cycle := ⟨cycle, hcycle, by rw [← hcolumns]⟩ }

/-- Up to a level details have equal positions exactly where they have the same ids. -/
theorem orderAt_position_eq_iff (ha : a.Drawn catalog) (hb : b.Drawn catalog) (level : Level) :
    SortKey.orderAt level (a.position catalog) (b.position catalog) = .eq ↔
      a.key.node level = b.key.node level := by
  have hdistributor (h : a.key.distributor = b.key.distributor) :
      a.columns.distributor = b.columns.distributor := by
    obtain ⟨e, he, hname⟩ := ha.distributor
    obtain ⟨e', he', hname'⟩ := hb.distributor
    rw [h, he'] at he
    rw [hname, hname', Except.ok.inj he]
  have hproducer (h : a.key.supplier = b.key.supplier) : a.columns.producer = b.columns.producer := by
    obtain ⟨e, he, hname, -⟩ := ha.producer
    obtain ⟨e', he', hname', -⟩ := hb.producer
    rw [h, he'] at he
    rw [hname, hname', Except.ok.inj he]
  have hcycle (h : a.key.cycle = b.key.cycle) : a.columns.cycle = b.columns.cycle := by
    obtain ⟨c, hc, hname⟩ := ha.cycle
    obtain ⟨c', hc', hname'⟩ := hb.cycle
    rw [h, hc'] at hc
    rw [hname, hname', Except.ok.inj hc]
  rw [SortKey.orderAt_eq_iff]
  cases level <;> simp only [position, GroupKey.node, Level.depth] <;> grind

end Detail

end MarketFees
