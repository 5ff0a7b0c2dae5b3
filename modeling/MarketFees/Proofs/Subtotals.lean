import MarketFees.Proofs.Parting
import MarketFees.Proofs.Summaries

namespace MarketFees

/-- Totals that are the sums of others. -/
structure Totals.SumOfAll (totals : Totals) (parts : List Totals) : Prop where
  exclTax : totals.exclTax.toRat = (parts.map (·.exclTax.toRat)).sum
  tax : totals.tax.toRat = (parts.map (·.tax.toRat)).sum
  inclTax : totals.inclTax.toRat = (parts.map (·.inclTax.toRat)).sum

/-- The totals of all fees and taxes are the sums of those of their parts. -/
theorem Totals.AddUp.sumOfAll {totals : Totals} {fees taxes : List Adjustment}
    (h : totals.AddUp fees taxes) {parts : List ι} {part : ι → Totals} {fs ts : ι → List Adjustment}
    (hparts : ∀ i ∈ parts, (part i).AddUp (fs i) (ts i)) (hfees : (parts.flatMap fs).Perm fees)
    (htaxes : (parts.flatMap ts).Perm taxes) : totals.SumOfAll (parts.map part) := by
  have hfeeTotal : total fees = (parts.map fun i => total (fs i)).sum := by
    rw [← total_perm hfees, total_flatMap]
  have htaxTotal (p : Adjustment → Bool) :
      total (taxes.filter p) = (parts.map fun i => total ((ts i).filter p)).sum := by
    rw [← total_perm (htaxes.filter p), List.filter_flatMap, total_flatMap]
  have hsum {g : Totals → Rat} {k : ι → Rat} (hk : ∀ i ∈ parts, g (part i) = k i) :
      (parts.map k).sum = ((parts.map part).map g).sum := by
    rw [List.map_map]
    exact congrArg List.sum (List.map_congr_left hk).symm
  constructor
  · rw [h.exclTax, hfeeTotal, htaxTotal, ← sum_map_sub]
    exact hsum fun i hi => (hparts i hi).exclTax
  · rw [h.tax, ← total_perm htaxes, total_flatMap]
    exact hsum fun i hi => (hparts i hi).tax
  · rw [h.inclTax, hfeeTotal, htaxTotal, ← List.sum_map_add]
    exact hsum fun i hi => (hparts i hi).inclTax

open ReportPart

section Block

variable [ReportPart β] [Lined β] {catalog : Catalog} {level : Level} {b : Block level β}

theorem Block.exists_key (h : Valid catalog b) : ∃ key ∈ keys b, key.node level = b.node := by
  obtain ⟨key, hkey, -⟩ := Lined.haveLines h none []
  exact ⟨key, hkey, h.2.2.1 key hkey⟩

theorem Block.holds_iff (h : Valid catalog b) {key : GroupKey} :
    b.node.holds key = true ↔ key.node level = b.node := by
  obtain ⟨first, -, hfirst⟩ := Block.exists_key h
  rw [← hfirst, GroupKey.holds_node]

end Block

namespace Shown

variable [ReportPart β] {amounts : AmountSource} {catalog : Catalog} {details : List Detail}
  {level : Level} {blocks : List (Block level β)}

theorem nodup_nodes (h : Shown amounts catalog level.depth details blocks) :
    (((blocks.flatMap (·.parts)).flatMap ReportPart.summaries).map (·.1) ++
      blocks.map (·.node)).Nodup := by
  have hperm := (Block.summaries_perm blocks).map Prod.fst
  rw [List.map_append, List.map_map] at hperm
  exact hperm.nodup_iff.1 h.nodup

theorem mem_keys {depth : Nat} {parts : List β} (h : Shown amounts catalog depth details parts)
    {d : Detail} (hd : d ∈ details) : d.key ∈ parts.flatMap ReportPart.keys := by
  rw [h.keys]
  exact List.mem_map_of_mem hd

theorem nodup_keys (h : Shown amounts catalog level.depth details blocks)
    (hdetails : (details.map (·.key)).Nodup) {b : Block level β} (hb : b ∈ blocks) :
    (ReportPart.keys b).Nodup := by
  rw [← h.keys] at hdetails
  exact hdetails.sublist (List.sublist_flatten_of_mem (List.mem_map_of_mem hb))

variable [Lined β]

theorem mem_nodes_parts (h : Shown amounts catalog level.depth details blocks) {node : Node} :
    node ∈ ((blocks.flatMap (·.parts)).flatMap ReportPart.summaries).map (·.1) ↔
      ∃ d ∈ details, ∃ below : Level, level.depth + 1 ≤ below.depth ∧ d.key.node below = node := by
  have hnodes := (Block.summaries_perm blocks).map Prod.fst
  rw [List.map_append, List.map_map] at hnodes
  obtain ⟨-, -, hdisjoint⟩ := List.nodup_append.1 h.nodup_nodes
  constructor
  · intro hnode
    obtain ⟨d, hd, below, hdepth, heq⟩ :=
      (h.mem_nodes node).1 (hnodes.mem_iff.2 (List.mem_append_left _ hnode))
    rcases Level.depth_le_iff.1 hdepth with rfl | hdepth
    · -- A node of the blocks' own level would have two summaries.
      obtain ⟨b, hb, hkey⟩ := List.mem_flatMap.1 (h.mem_keys hd)
      have hown : node = b.node := heq.symm.trans ((h.valid b hb).2.2.1 d.key hkey)
      exact (hdisjoint node hnode b.node (List.mem_map_of_mem hb) hown).elim
    · exact ⟨d, hd, below, hdepth, heq⟩
  · rintro ⟨d, hd, below, hdepth, rfl⟩
    have hnode := (h.mem_nodes (d.key.node below)).2 ⟨d, hd, below, by omega, rfl⟩
    rcases List.mem_append.1 (hnodes.mem_iff.1 hnode) with hnode | hnode
    · exact hnode
    · obtain ⟨b, hb, hbnode⟩ := List.mem_map.1 hnode
      obtain ⟨key, -, hkey⟩ := Block.exists_key (h.valid b hb)
      obtain rfl := GroupKey.level_eq_of_node_eq (hkey.trans hbnode)
      omega

/-- The parts of blocks show the same details, one level below. -/
theorem parts (h : Shown amounts catalog level.depth details blocks) :
    Shown amounts catalog (level.depth + 1) details (blocks.flatMap (·.parts)) where
  valid := by
    intro part hpart
    obtain ⟨b, hb, hpart⟩ := List.mem_flatMap.1 hpart
    exact (h.valid b hb).2.1 part hpart
  keys := by rw [Block.keys_parts, h.keys]
  rows := by
    rw [← h.rows, List.flatMap_assoc, List.filter_flatMap, List.filter_flatMap]
    apply List.flatMap_congr
    intro b _
    have hrows : ReportPart.rows b =
        b.parts.flatMap ReportPart.rows ++ [⟨.summary level, none, b.summary⟩] := rfl
    rw [hrows, List.filter_append]
    exact (List.append_nil _).symm
  nodup := (List.nodup_append.1 h.nodup_nodes).1
  mem_nodes _ := h.mem_nodes_parts
  totals x hx := h.totals x ((Block.summaries_perm blocks).mem_iff.2 (List.mem_append_left _ hx))

theorem holds_iff (h : Shown amounts catalog level.depth details blocks) {b : Block level β}
    (hb : b ∈ blocks) {d : Detail} (hd : d ∈ details) :
    b.node.holds d.key = true ↔ d.key ∈ ReportPart.keys b := by
  obtain ⟨-, hnodes, -⟩ := List.nodup_append.1 h.nodup_nodes
  rw [Block.holds_iff (h.valid b hb), Block.mem_keys_iff h.valid hnodes hb,
    and_iff_right (h.mem_keys hd)]

theorem holds_charge_iff (h : Shown amounts catalog level.depth details blocks) {charges : List Charge}
    (hstand : StandFor charges details) {b : Block level β} (hb : b ∈ blocks) {c : Charge}
    (hc : c ∈ charges) : b.node.holds c.key = true ↔ c.key ∈ ReportPart.keys b := by
  obtain ⟨d, hd, hkey⟩ := hstand.exists_detail c hc
  rw [← hkey]
  exact h.holds_iff hb hd

end Shown

section Producers

variable {orders : List Order} {f : Filters} {owner : FeeId → Except StoreError (Option EnterpriseId)}
  {amounts : AmountSource} {catalog : Catalog} {charges : List Charge} {details : List Detail}
  {producers : List ProducerBlock} {producer : ProducerBlock}

theorem Shown.mem_producer_iff (h : Shown amounts catalog Level.producer.depth details producers)
    (hstand : StandFor charges details) (hproducer : producer ∈ producers) (c : Charge) :
    c ∈ charges.filter (producer.node.holds ·.key) ↔
      ∃ cycle ∈ producer.parts, c ∈ charges.filter (cycle.node.holds ·.key) := by
  have hcycles : Shown amounts catalog Level.cycle.depth details (producers.flatMap (·.parts)) :=
    h.parts
  have hmem {cycle : CycleBlock} (hcycle : cycle ∈ producer.parts) :
      cycle ∈ producers.flatMap (·.parts) := List.mem_flatMap.2 ⟨producer, hproducer, hcycle⟩
  simp only [List.mem_filter]
  constructor
  · rintro ⟨hc, hholds⟩
    obtain ⟨cycle, hcycle, hkey⟩ :=
      List.mem_flatMap.1 ((h.holds_charge_iff hstand hproducer hc).1 hholds)
    exact ⟨cycle, hcycle, hc, (hcycles.holds_charge_iff hstand (hmem hcycle) hc).2 hkey⟩
  · rintro ⟨cycle, hcycle, hc, hholds⟩
    have hkey := (hcycles.holds_charge_iff hstand (hmem hcycle) hc).1 hholds
    exact ⟨hc, (h.holds_charge_iff hstand hproducer hc).2 (List.mem_flatMap.2 ⟨cycle, hcycle, hkey⟩)⟩

theorem Shown.cycles_apart (h : Shown amounts catalog Level.producer.depth details producers)
    (hstand : StandFor charges details) (hproducer : producer ∈ producers) :
    producer.parts.Pairwise fun cycle other =>
      ∀ c ∈ charges.filter (cycle.node.holds ·.key), ∀ c' ∈ charges.filter (other.node.holds ·.key),
        c.order ≠ c'.order := by
  have hcycles : Shown amounts catalog Level.cycle.depth details (producers.flatMap (·.parts)) :=
    h.parts
  have hnodes : ((producers.flatMap (·.parts)).map (·.node)).Nodup :=
    (List.nodup_append.1 hcycles.nodup_nodes).2.1
  have hsublist : producer.parts.Sublist (producers.flatMap (·.parts)) :=
    List.sublist_flatten_of_mem (List.mem_map_of_mem hproducer)
  have hnode {cycle : CycleBlock} (hcycle : cycle ∈ producer.parts) {c : Charge}
      (hc : c ∈ charges.filter (cycle.node.holds ·.key)) :
      c.key.node .cycle = cycle.node ∧ c.key.node .producer = producer.node := by
    have hmem := (h.mem_producer_iff hstand hproducer c).2 ⟨cycle, hcycle, hc⟩
    have hvalid := h.valid producer hproducer
    exact ⟨(Block.holds_iff (hvalid.2.1 cycle hcycle)).1 (List.mem_filter.1 hc).2,
      (Block.holds_iff hvalid).1 (List.mem_filter.1 hmem).2⟩
  apply (List.pairwise_map.1 (hnodes.sublist (hsublist.map _))).imp_of_mem
  intro cycle other hcycle hother hne c hc c' hc' horder
  obtain ⟨hcycleNode, hproducerNode⟩ := hnode hcycle hc
  obtain ⟨hotherNode, hproducerNode'⟩ := hnode hother hc'
  have hsupplier : c.supplier = c'.supplier :=
    (Node.producer.inj (hproducerNode.trans hproducerNode'.symm)).2
  apply hne
  rw [← hcycleNode, ← hotherNode, Charge.key, Charge.key, horder, hsupplier]
  rfl

end Producers

section Cycles

variable {amounts : AmountSource} {catalog : Catalog} {charges : List Charge} {details : List Detail}
  {cycles : List CycleBlock} {cycle : CycleBlock}

theorem Block.keys_cycle (cycle : CycleBlock) : ReportPart.keys cycle = cycle.parts.map (·.key) :=
  List.map_eq_flatMap.symm

theorem Shown.exists_detail (h : Shown amounts catalog Level.cycle.depth details cycles)
    (hcycle : cycle ∈ cycles) {row : DetailRow} (hrow : row ∈ cycle.parts) :
    ∃ d ∈ details, d.key = row.key ∧ d.columns = row.columns := by
  have hmem : (⟨.detail, some row.key, row.columns⟩ : Row) ∈ details.map Detail.row := by
    rw [← h.rows]
    refine List.mem_filter.2 ⟨List.mem_flatMap.2 ⟨cycle, hcycle, ?_⟩, rfl⟩
    exact Block.mem_rows_of_part hrow (List.mem_singleton_self _)
  obtain ⟨d, hd, heq⟩ := List.mem_map.1 hmem
  obtain ⟨-, hkey, hcolumns⟩ := Row.mk.inj heq
  exact ⟨d, hd, Option.some.inj hkey, hcolumns⟩

theorem Shown.mem_cycle_iff (h : Shown amounts catalog Level.cycle.depth details cycles)
    (hdetailed : Detailed amounts charges details) (hcycle : cycle ∈ cycles) (key : GroupKey) :
    key ∈ ReportPart.keys cycle ↔ ∃ c ∈ charges.filter (cycle.node.holds ·.key), c.key = key := by
  constructor
  · intro hkey
    have hdetail : key ∈ details.map (·.key) := h.keys ▸ List.mem_flatMap.2 ⟨cycle, hcycle, hkey⟩
    obtain ⟨d, hd, rfl⟩ := List.mem_map.1 hdetail
    obtain ⟨c, hc, hckey⟩ := hdetailed.exists_charge d hd
    refine ⟨c, List.mem_filter.2 ⟨hc, ?_⟩, hckey⟩
    rwa [hckey, h.holds_iff hcycle hd]
  · rintro ⟨c, hc, rfl⟩
    obtain ⟨hc, hholds⟩ := List.mem_filter.1 hc
    exact (h.holds_charge_iff hdetailed.toStandFor hcycle hc).1 hholds

/-- A row of an order cycle has the totals of the charges of the cycle with its key. -/
theorem Shown.ofScope_row (h : Shown amounts catalog Level.cycle.depth details cycles)
    (hdetailed : Detailed amounts charges details) (hcycle : cycle ∈ cycles) {row : DetailRow}
    (hrow : row ∈ cycle.parts) :
    Totals.ofScope amounts (.ofCharges ((charges.filter (cycle.node.holds ·.key)).filter
      (·.key = row.key))) = .ok row.columns.totals := by
  obtain ⟨d, hd, hkey, hcolumns⟩ := h.exists_detail hcycle hrow
  have hmem : row.key ∈ ReportPart.keys cycle :=
    List.mem_flatMap.2 ⟨row, hrow, List.mem_singleton_self _⟩
  have hholds : cycle.node.holds row.key = true := by
    rwa [← hkey, h.holds_iff hcycle hd, hkey]
  have hsame : (charges.filter (cycle.node.holds ·.key)).filter (·.key = row.key) =
      charges.filter (·.key = row.key) := by
    rw [List.filter_filter]
    apply List.filter_congr
    intro c _
    rw [Bool.and_eq_left_iff_imp]
    intro hc
    rw [of_decide_eq_true hc, hholds]
  rw [hsame, ← hkey, ← hcolumns]
  exact hdetailed.totals d hd

end Cycles

namespace Shown

variable {orders : List Order} (hbooked : Booked orders) (hstay : TaxesStay orders)
  (hrange : InRange (adjustmentsIn orders)) {catalog : Catalog} {details : List Detail} {f : Filters}
  {owner : FeeId → Except StoreError (Option EnterpriseId)}
  (hdetailed : Detailed (Snapshot.amountsOf orders)
    ((Charge.ofOrders orders).filter (Charge.admitted f owner)) details)

include hbooked hstay hrange hdetailed

/-- Totals of producers are the sums of those of their order cycles. -/
theorem sumOfAll_cycles {producers : List ProducerBlock}
    (h : Shown (Snapshot.amountsOf orders) catalog Level.producer.depth details producers)
    {producer : ProducerBlock} (hproducer : producer ∈ producers) :
    producer.summary.totals.SumOfAll (producer.parts.map (·.summary.totals)) := by
  have hcycles : Shown (Snapshot.amountsOf orders) catalog Level.cycle.depth details
      (producers.flatMap (·.parts)) := h.parts
  have hmem := h.mem_producer_iff hdetailed.toStandFor hproducer
  have hapart := h.cycles_apart hdetailed.toStandFor hproducer
  have hsummary :=
    h.addUp hbooked hstay hrange hdetailed.toStandFor (Block.mem_summaries hproducer)
  refine hsummary.sumOfAll (fun cycle hcycle => ?_)
    (Charge.feesOf_perm hbooked Charge.mem_ofOrders_of_mem_filter hmem hapart)
    (Charge.taxesOn_perm hbooked Charge.mem_ofOrders_of_mem_filter hmem hapart)
  have hcycle : cycle ∈ producers.flatMap (·.parts) :=
    List.mem_flatMap.2 ⟨producer, hproducer, hcycle⟩
  exact hcycles.addUp hbooked hstay hrange hdetailed.toStandFor (Block.mem_summaries hcycle)

/-- Taxes of order cycles are the sums of those of their detail rows. -/
theorem tax_eq_sum_rows {cycles : List CycleBlock}
    (h : Shown (Snapshot.amountsOf orders) catalog Level.cycle.depth details cycles)
    {cycle : CycleBlock} (hcycle : cycle ∈ cycles) :
    cycle.summary.totals.tax.toRat = (cycle.parts.map (·.columns.totals.tax.toRat)).sum := by
  let charges := ((Charge.ofOrders orders).filter (Charge.admitted f owner)).filter
    (cycle.node.holds ·.key)
  let rated (key : GroupKey) :=
    (Scope.ofCharges (charges.filter (·.key = key))).ratedIn (adjustmentsIn orders)
  have hrow : ∀ row ∈ cycle.parts, row.columns.totals.tax.toRat = total (rated row.key) :=
    fun row hrow => (hrange.toRat_ofScope hbooked (h.ofScope_row hdetailed hcycle hrow)).2
  have hkeys := h.nodup_keys hdetailed.nodup hcycle
  have hnode {c : Charge} (hc : c ∈ charges) : c.key.node .cycle = cycle.node :=
    (Block.holds_iff (h.valid cycle hcycle)).1 (List.mem_filter.1 hc).2
  have hperm : ((ReportPart.keys cycle).flatMap rated).Perm
      (taxesOn (feesOf charges (adjustmentsIn orders)) (adjustmentsIn orders)) := by
    apply Charge.ratedIn_perm hbooked hstay Charge.mem_ofOrders_of_mem_filter
      (Charge.complete_holds cycle.node) hkeys (h.mem_cycle_iff hdetailed hcycle)
    exact fun c hc c' hc' => (hnode hc).trans (hnode hc').symm
  calc cycle.summary.totals.tax.toRat
      = total (taxesOn (feesOf charges (adjustmentsIn orders)) (adjustmentsIn orders)) :=
        (h.addUp hbooked hstay hrange hdetailed.toStandFor (Block.mem_summaries hcycle)).tax
    _ = total ((ReportPart.keys cycle).flatMap rated) := (total_perm hperm).symm
    _ = (cycle.parts.map fun row => total (rated row.key)).sum := by
        rw [total_flatMap, Block.keys_cycle, List.map_map]
        rfl
    _ = (cycle.parts.map (·.columns.totals.tax.toRat)).sum := by
        rw [List.map_congr_left hrow]

/-- A row counts the fees of its key, whatever other rows count them. -/
theorem exclTax_row {cycles : List CycleBlock}
    (h : Shown (Snapshot.amountsOf orders) catalog Level.cycle.depth details cycles)
    {cycle : CycleBlock} (hcycle : cycle ∈ cycles) {row : DetailRow} (hrow : row ∈ cycle.parts) :
    row.columns.totals.exclTax.toRat =
      netOf ((((Charge.ofOrders orders).filter (Charge.admitted f owner)).filter
        (cycle.node.holds ·.key)).filter (·.key = row.key)) (adjustmentsIn orders) := by
  let charges := (((Charge.ofOrders orders).filter (Charge.admitted f owner)).filter
    (cycle.node.holds ·.key)).filter (·.key = row.key)
  have hcharges : ∀ c ∈ charges, c ∈ Charge.ofOrders orders :=
    fun c hc => Charge.mem_ofOrders_of_mem_filter c (List.mem_filter.1 hc).1
  have hjoined : Charge.Joined charges :=
    .of_key fun c hc => of_decide_eq_true (List.mem_filter.1 hc).2
  rw [(hrange.toRat_ofScope hbooked (h.ofScope_row hdetailed hcycle hrow)).1,
    hjoined.feesIn_eq hbooked hcharges, hjoined.taxesIn_eq hbooked hstay hcharges]
  rfl

theorem exclTax_rows {cycles : List CycleBlock}
    (h : Shown (Snapshot.amountsOf orders) catalog Level.cycle.depth details cycles)
    {cycle : CycleBlock} (hcycle : cycle ∈ cycles) :
    (cycle.parts.map (·.columns.totals.exclTax.toRat)).sum =
      ((((Charge.ofOrders orders).filter (Charge.admitted f owner)).filter
        (cycle.node.holds ·.key)).map fun c => netOf [c] (adjustmentsIn orders)).sum := by
  let charges := ((Charge.ofOrders orders).filter (Charge.admitted f owner)).filter
    (cycle.node.holds ·.key)
  let net (c : Charge) := netOf [c] (adjustmentsIn orders)
  have hnodup : charges.Nodup := ((Charge.nodup_ofOrders hbooked.ids).filter _).filter _
  have hrow : ∀ row ∈ cycle.parts, row.columns.totals.exclTax.toRat =
      ((charges.filter (·.key = row.key)).map net).sum := by
    intro row hrow
    rw [exclTax_row hbooked hstay hrange hdetailed h hcycle hrow]
    -- Charges of one row differ in the order, so within the row no fee counts twice.
    apply Charge.netOf_eq_sum hbooked fun c hc =>
      Charge.mem_ofOrders_of_mem_filter c (List.mem_filter.1 hc).1
    exact Charge.pairwise_order_ne (hnodup.filter _) fun c hc =>
      of_decide_eq_true (List.mem_filter.1 hc).2
  have hperm := filter_key_perm hnodup (h.nodup_keys hdetailed.nodup hcycle)
    fun c hc => (h.mem_cycle_iff hdetailed hcycle _).2 ⟨c, hc, rfl⟩
  calc (cycle.parts.map (·.columns.totals.exclTax.toRat)).sum
      = (cycle.parts.map fun row => ((charges.filter (·.key = row.key)).map net).sum).sum := by
        rw [List.map_congr_left hrow]
    _ = (((ReportPart.keys cycle).flatMap fun key => charges.filter (·.key = key)).map net).sum := by
        rw [List.map_flatMap, List.flatMap_def, List.sum_flatten, Block.keys_cycle, List.map_map,
          List.map_map]
        rfl
    _ = (charges.map net).sum := (hperm.map net).sum_eq

end Shown

/-- On every ledger that datasets were stored in, the totals of a producer are the sums of those of its
order cycles, and the tax of an order cycle is the sum of that of its detail rows. Its fees are counted
once in the summary, but once for each rate in the rows. -/
theorem run_rows_addUp {l : Ledger} (hl : l.Reached) (f : Filters) (permission : Permission) :
    ∃ visible kept, l.store.search f permission = .ok visible ∧
      Charge.retain f (Report.ownerOf l.store.catalog) (Charge.ofOrders visible) = .ok kept ∧
      (TaxesStay visible → InRange (adjustmentsIn visible) →
        ∃ report, ∃ blocks : List DistributorBlock,
          Report.run l.store f permission ⟨true⟩ = .ok report ∧
          report.rows = blocks.flatMap ReportPart.rows ∧
          (∀ block ∈ blocks, ReportPart.Valid l.store.catalog block) ∧
          (∀ c ∈ kept, ∃ block ∈ blocks, ∃ producer ∈ block.parts, ∃ cycle ∈ producer.parts,
            cycle.node = c.key.node .cycle) ∧
          ∀ block ∈ blocks, ∀ producer ∈ block.parts,
            producer.summary.totals.SumOfAll (producer.parts.map (·.summary.totals)) ∧
            ∀ cycle ∈ producer.parts,
              let charges := kept.filter (cycle.node.holds ·.key)
              let adjustments := adjustmentsIn visible
              cycle.summary.totals.tax.toRat = (cycle.parts.map (·.columns.totals.tax.toRat)).sum ∧
                cycle.summary.totals.exclTax.toRat = netOf charges adjustments ∧
                (cycle.parts.map (·.columns.totals.exclTax.toRat)).sum =
                  (charges.map fun c => netOf [c] adjustments).sum) := by
  obtain ⟨visible, kept, hvisible, hkept, hbooked, -, hmade⟩ := hl.exists_shown f permission
  refine ⟨visible, kept, hvisible, hkept, fun hstay hrange => ?_⟩
  obtain ⟨report, details, blocks, hreport, hrows, hshown, hdetailed⟩ := hmade hrange
  obtain rfl := Charge.retain_eq_ok hkept
  have hproducers : Shown _ _ Level.producer.depth details (blocks.flatMap (·.parts)) := hshown.parts
  have hcycles : Shown _ _ Level.cycle.depth details ((blocks.flatMap (·.parts)).flatMap (·.parts)) :=
    hproducers.parts
  refine ⟨report, blocks, hreport, hrows, hshown.valid, fun c hc => ?_,
    fun block hblock producer hproducer => ?_⟩
  · obtain ⟨d, hd, hkey⟩ := hdetailed.exists_detail c hc
    obtain ⟨block, hblock, hmem⟩ := List.mem_flatMap.1 (hshown.mem_keys hd)
    obtain ⟨producer, hproducer, hmem⟩ := List.mem_flatMap.1 hmem
    obtain ⟨cycle, hcycle, hmem⟩ := List.mem_flatMap.1 hmem
    have hvalid := ((hshown.valid block hblock).2.1 producer hproducer).2.1 cycle hcycle
    have hnode := hvalid.2.2.1 d.key hmem
    exact ⟨block, hblock, producer, hproducer, cycle, hcycle, by rw [← hnode, hkey]⟩
  have hproducer : producer ∈ blocks.flatMap (·.parts) :=
    List.mem_flatMap.2 ⟨block, hblock, hproducer⟩
  refine ⟨Shown.sumOfAll_cycles hbooked hstay hrange hdetailed hproducers hproducer,
    fun cycle hcycle => ?_⟩
  have hcycle : cycle ∈ (blocks.flatMap (·.parts)).flatMap (·.parts) :=
    List.mem_flatMap.2 ⟨producer, hproducer, hcycle⟩
  have hsummary :=
    hcycles.addUp hbooked hstay hrange hdetailed.toStandFor (Block.mem_summaries hcycle)
  exact ⟨Shown.tax_eq_sum_rows hbooked hstay hrange hdetailed hcycles hcycle, hsummary.exclTax,
    Shown.exclTax_rows hbooked hstay hrange hdetailed hcycles hcycle⟩

theorem run_twoRates_addUp :
    ∃ l visible kept, Ledger.new.load .twoRates = .ok l ∧
      l.store.search .none .everything = .ok visible ∧
      Charge.retain .none (Report.ownerOf l.store.catalog) (Charge.ofOrders visible) = .ok kept ∧
      TaxesStay visible ∧ InRange (adjustmentsIn visible) ∧
      ∃ report, ∃ blocks : List DistributorBlock,
        Report.run l.store .none .everything ⟨true⟩ = .ok report ∧
        report.rows = blocks.flatMap ReportPart.rows ∧
        (∀ block ∈ blocks, ∀ producer ∈ block.parts,
          producer.summary.totals.SumOfAll (producer.parts.map (·.summary.totals)) ∧
          ∀ cycle ∈ producer.parts,
            cycle.summary.totals.tax.toRat = (cycle.parts.map (·.columns.totals.tax.toRat)).sum) ∧
        ∃ block ∈ blocks, ∃ producer ∈ block.parts, ∃ cycle ∈ producer.parts,
          (cycle.parts.map (·.columns.totals.exclTax.toRat)).sum ≠
            cycle.summary.totals.exclTax.toRat := by
  obtain ⟨l, hload, hreached, hstore⟩ :=
    Ledger.exists_load (d := .twoRates) rfl Dataset.distinct_twoRates
  obtain ⟨visible, kept, hvisible, hkept, h⟩ := run_rows_addUp hreached .none .everything
  let orders := Dataset.twoRates.orders
  have hsearch : l.store.search .none .everything = .ok orders := by
    rw [hstore]
    cbv
  obtain rfl := Except.ok.inj (hsearch.symm.trans hvisible)
  have hall : Charge.retain .none (Report.ownerOf l.store.catalog) (Charge.ofOrders orders) =
      .ok (Charge.ofOrders orders) := rfl
  obtain rfl := Except.ok.inj (hall.symm.trans hkept)
  have hstay : TaxesStay orders := by
    unfold TaxesStay
    decide
  have hrange : InRange (adjustmentsIn orders) := by
    unfold InRange
    decide
  obtain ⟨report, blocks, hreport, hrows, -, hshown, haddUp⟩ := h hstay hrange
  refine ⟨l, orders, _, hload, hsearch, hkept, hstay, hrange, report, blocks, hreport, hrows, ?_, ?_⟩
  · intro block hblock producer hproducer
    obtain ⟨hcycles, hrows⟩ := haddUp block hblock producer hproducer
    exact ⟨hcycles, fun cycle hcycle => (hrows cycle hcycle).1⟩
  · let twice : Charge := ⟨orders.head (by decide), ⟨1⟩, some ⟨1⟩, ⟨2⟩⟩
    obtain ⟨block, hblock, producer, hproducer, cycle, hcycle, hnode⟩ := hshown twice (by decide)
    obtain ⟨-, hsummary, hrows⟩ := (haddUp block hblock producer hproducer).2 cycle hcycle
    refine ⟨block, hblock, producer, hproducer, cycle, hcycle, ?_⟩
    rw [hrows, hsummary, hnode]
    decide +kernel

end MarketFees
