import Mathlib
import MarketFees.Proofs.Blocks
import MarketFees.Proofs.Frame
import MarketFees.Proofs.Ledger.Import

namespace MarketFees

/-- Details drawn from one catalog, in the order of their positions. -/
structure Ordered (catalog : Catalog) (details : List Detail) : Prop where
  drawn : ∀ d ∈ details, d.Drawn catalog
  sorted : details.Pairwise fun a b => (compare (a.position catalog) (b.position catalog)).isLE

theorem Ordered.sublist {catalog : Catalog} {details run : List Detail} (h : Ordered catalog details)
    (hrun : run.Sublist details) : Ordered catalog run :=
  ⟨fun d hd => h.drawn d (hrun.subset hd), h.sorted.sublist hrun⟩

instance (catalog : Catalog) (level : Level) : Std.TransCmp fun a b : Detail =>
    SortKey.orderAt level (a.position catalog) (b.position catalog) where
  eq_swap := Std.OrientedCmp.eq_swap
  isLE_trans := Std.TransCmp.isLE_trans

namespace Detail

variable {amounts : AmountSource} {catalog : Catalog} {details : List Detail}

/-- Details make a run of a level when they agree in its node. -/
def Run (level : Level) (details : List Detail) : Prop :=
  details ≠ [] ∧ ∀ d ∈ details, ∀ d' ∈ details, d.key.node level = d'.key.node level

variable [ReportPart β] {inner : List Detail → Except Fault (List Row)} {level : Level}

theorem exists_block {rows : List Row} (hordered : Ordered catalog details) (hrun : Run level details)
    (hinner : ∀ {rows}, inner details = .ok rows → ∃ parts : List β,
      parts.flatMap ReportPart.rows = rows ∧ Shown amounts catalog (level.depth + 1) details parts)
    (h : summedUp amounts level inner details = .ok rows) :
    ∃ block : Block level β, ReportPart.rows block = rows ∧
      Shown amounts catalog level.depth details [block] := by
  obtain ⟨result, hresult, h⟩ := bind_eq_ok.1 h
  obtain ⟨row, hrow, h⟩ := bind_eq_ok.1 h
  cases h
  obtain ⟨parts, hrows, hparts⟩ := hinner hresult
  obtain ⟨block, hblock, hshown⟩ := hparts.block hrun.1 hordered.drawn hrun.2 hrow
  exact ⟨block, by rw [hblock, hrows], hshown⟩

/-- The runs of a level, made into blocks one by one, are blocks that show all the details. -/
theorem exists_blocks [BEq κ] {id : GroupKey → κ} {rows : List Row} (hordered : Ordered catalog details)
    (hsame : ∀ a ∈ details, ∀ b ∈ details,
      (id a.key == id b.key) = true ↔ a.key.node level = b.key.node level)
    (hinner : ∀ {run rows}, Ordered catalog run → Run level run → inner run = .ok rows →
      ∃ block : Block level β, ReportPart.rows block = rows ∧
        Shown amounts catalog level.depth run [block])
    (h : parted id inner details = .ok rows) :
    ∃ blocks : List (Block level β), blocks.flatMap ReportPart.rows = rows ∧
      Shown amounts catalog level.depth details blocks := by
  obtain ⟨results, hresults, h⟩ := bind_eq_ok.1 h
  cases h
  let same (a b : Detail) : Bool := id a.key == id b.key
  have hcmp : ∀ a ∈ details, ∀ b ∈ details, same a b = true ↔
      SortKey.orderAt level (a.position catalog) (b.position catalog) = .eq := by
    intro a ha b hb
    rw [hsame a ha b hb, orderAt_position_eq_iff (hordered.drawn a ha) (hordered.drawn b hb)]
  have hsorted := hordered.sorted.imp (SortKey.isLE_orderAt level)
  have hruns : ∀ run ∈ details.splitBy same, Ordered catalog run ∧ Run level run := by
    intro run hrun
    have hmem : ∀ d ∈ run, d ∈ details := fun d hd => mem_of_mem_splitBy hrun hd
    have hsublist : run.Sublist details := by
      rw [← List.flatten_splitBy same details]
      exact List.sublist_flatten_of_mem hrun
    refine ⟨hordered.sublist hsublist, List.ne_nil_of_mem_splitBy hrun, fun d hd d' hd' => ?_⟩
    exact (orderAt_position_eq_iff (hordered.drawn d (hmem d hd)) (hordered.drawn d' (hmem d' hd'))
      level).1 (compare_eq_of_mem_splitBy hcmp hrun hd hd')
  -- Neighbouring runs differ in the node; that all runs do takes the order of the details.
  have hdiffer : (details.splitBy same).Pairwise fun run later => ∀ d ∈ run, ∀ d' ∈ later,
      d.key.node level ≠ d'.key.node level := by
    refine (splitBy_pairwise_lt hcmp hsorted).imp_of_mem ?_
    intro run later hrun hlater hlt d hd d' hd' hnode
    have heq := (orderAt_position_eq_iff (hordered.drawn d (mem_of_mem_splitBy hrun hd))
      (hordered.drawn d' (mem_of_mem_splitBy hlater hd')) level).2 hnode
    rw [hlt d hd d' hd'] at heq
    cases heq
  obtain ⟨blocks, hrows, hblocks⟩ := exists_forall₂ (mapM_eq_ok_iff.1 hresults)
    fun run hrun rows => hinner (hruns run hrun).1 (hruns run hrun).2
  have hshown := Shown.join hblocks hdiffer
  rw [List.flatten_splitBy] at hshown
  exact ⟨blocks, by rw [← hrows, List.flatMap_def], hshown⟩

theorem exists_cycleBlock {rows : List Row} (hordered : Ordered catalog details)
    (hrun : Run .cycle details) (h : cycleBlock amounts details = .ok rows) :
    ∃ block : CycleBlock, ReportPart.rows block = rows ∧
      Shown amounts catalog Level.cycle.depth details [block] := by
  refine exists_block hordered hrun (fun h => ?_) h
  cases h
  refine ⟨_, ?_, .ofDetails details⟩
  rw [List.flatMap_map]
  exact List.map_eq_flatMap.symm

/-- A run of a level is a block of the blocks of the level below, if the ids that part it tell these
apart within the run. -/
theorem exists_outerBlock [BEq κ] {id : GroupKey → κ} {lower : Level} {rows : List Row}
    (hordered : Ordered catalog details) (hrun : Run level details)
    (hdepth : lower.depth = level.depth + 1)
    (hsame : ∀ a b : GroupKey, a.node level = b.node level →
      ((id a == id b) = true ↔ a.node lower = b.node lower))
    (hinner : ∀ {run rows}, Ordered catalog run → Run lower run → inner run = .ok rows →
      ∃ block : Block lower β, ReportPart.rows block = rows ∧
        Shown amounts catalog lower.depth run [block])
    (h : summedUp amounts level (parted id inner) details = .ok rows) :
    ∃ block : Block level (Block lower β), ReportPart.rows block = rows ∧
      Shown amounts catalog level.depth details [block] := by
  refine exists_block hordered hrun (fun h => ?_) h
  rw [← hdepth]
  exact exists_blocks hordered (fun a ha b hb => hsame a.key b.key (hrun.2 a ha b hb)) hinner h

theorem exists_shown {rows : List Row} (hordered : Ordered catalog details)
    (h : assemble amounts true details = .ok rows) :
    ∃ blocks : List DistributorBlock, blocks.flatMap ReportPart.rows = rows ∧
      Shown amounts catalog 0 details blocks := by
  have hdistributor (a b : GroupKey) :
      (a.distributor == b.distributor) = true ↔ a.node .distributor = b.node .distributor := by
    simp [GroupKey.node]
  have hsupplier (a b : GroupKey) (hnode : a.node .distributor = b.node .distributor) :
      (a.supplier == b.supplier) = true ↔ a.node .producer = b.node .producer := by
    simp_all [GroupKey.node]
  have hcycle (a b : GroupKey) (hnode : a.node .producer = b.node .producer) :
      (a.cycle == b.cycle) = true ↔ a.node .cycle = b.node .cycle := by
    simp_all [GroupKey.node]
  refine exists_blocks hordered (fun a _ b _ => hdistributor a.key b.key) (fun hordered hrun => ?_) h
  refine exists_outerBlock hordered hrun rfl hsupplier fun hordered hrun => ?_
  exact exists_outerBlock hordered hrun rfl hcycle exists_cycleBlock

end Detail

namespace Report

variable {amounts : AmountSource} {catalog : Catalog} {orders : List Order} {f : Filters}

theorem ordered_sortByKey {groups : List Group} {entries : List (SortKey × Detail)}
    (h : groups.mapM (entry amounts catalog) = .ok entries) :
    Ordered catalog (sortByKey entries) := by
  have hplaced : ∀ x ∈ entries, x.2.Drawn catalog ∧ x.2.position catalog = x.1 := by
    rintro ⟨position, d⟩ hx
    obtain ⟨g, -, hentry⟩ := exists_of_mem_mapM h hx
    obtain ⟨totals, -, hplaced⟩ := entry_eq_ok.1 hentry
    obtain ⟨columns, hcolumns, hposition, rfl⟩ := Catalog.placed_eq_ok.1 hplaced
    exact ⟨Detail.drawn_of_columns hcolumns, Detail.position_eq hposition⟩
  constructor
  · intro d hd
    obtain ⟨position, hx⟩ := mem_sortByKey.1 hd
    exact (hplaced _ hx).1
  · have hsorted : (sortBy (·.1) entries).Pairwise fun a b => (compare a.1 b.1).isLE :=
      sortBy_pairwise _ _
    refine List.pairwise_map.2 (hsorted.imp_of_mem fun {x y} hx hy hle => ?_)
    rw [(hplaced x (mem_sortBy.1 hx)).2, (hplaced y (mem_sortBy.1 hy)).2]
    exact hle

theorem ofOrders_eq_ok {options : Options} {report : Report} :
    ofOrders orders f amounts catalog options = .ok report ↔
      ∃ kept entries, Charge.retain f (ownerOf catalog) (Charge.ofOrders orders) = .ok kept ∧
        (Group.ofCharges kept).mapM (entry amounts catalog) = .ok entries ∧
        Detail.assemble amounts options.summaries (sortByKey entries) = .ok report.rows := by
  rw [ofOrders_eq]
  split
  · next hempty =>
    obtain rfl := List.isEmpty_iff.1 hempty
    have hretain : Charge.retain f (ownerOf catalog) (Charge.ofOrders []) = .ok [] := by
      rw [Charge.retain]
      split <;> rfl
    have hassemble : Detail.assemble amounts options.summaries (sortByKey []) = .ok [] := by
      have hsorted : sortByKey ([] : List (SortKey × Detail)) = [] := by simp [sortByKey]
      rw [hsorted]
      cases options.summaries <;> rfl
    constructor
    · intro h
      cases h
      exact ⟨[], [], hretain, rfl, hassemble⟩
    · rintro ⟨kept, entries, hkept, hentries, hrows⟩
      obtain rfl := Except.ok.inj (hretain.symm.trans hkept)
      cases hentries
      exact congrArg (Except.ok ∘ Report.mk) (Except.ok.inj (hassemble.symm.trans hrows))
  · constructor
    · intro h
      obtain ⟨kept, hkept, h⟩ := bind_eq_ok.1 h
      obtain ⟨entries, hentries, h⟩ := bind_eq_ok.1 h
      obtain ⟨rows, hrows, h⟩ := bind_eq_ok.1 h
      cases h
      exact ⟨kept, entries, lift_eq_ok.1 hkept, hentries, hrows⟩
    · rintro ⟨kept, entries, hkept, hentries, hrows⟩
      exact bind_eq_ok.2 ⟨kept, lift_eq_ok.2 hkept, bind_eq_ok.2 ⟨entries, hentries,
        bind_eq_ok.2 ⟨report.rows, hrows, rfl⟩⟩⟩

/-- A report with summaries is a sequence of distributors, each made of producers, each made of order
cycles, in which every node of a detail has one summary. Without summaries it has the same details. -/
theorem ofOrders_hierarchy {report : Report}
    (h : ofOrders orders f amounts catalog ⟨true⟩ = .ok report) :
    ∃ blocks : List DistributorBlock, report.rows = blocks.flatMap ReportPart.rows ∧
      (∀ block ∈ blocks, ReportPart.Valid catalog block) ∧
      (∀ row ∈ report.details, ∃ key, row.key = some key ∧
        ∀ level, ((blocks.flatMap ReportPart.summaries).map (·.1)).count (key.node level) = 1) ∧
      ofOrders orders f amounts catalog ⟨false⟩ = .ok ⟨report.details⟩ := by
  obtain ⟨kept, entries, hkept, hentries, hrows⟩ := ofOrders_eq_ok.1 h
  obtain ⟨blocks, hblocks, hshown⟩ := Detail.exists_shown (ordered_sortByKey hentries) hrows
  have hdetails : report.details = (sortByKey entries).map Detail.row := by
    rw [details, ← hblocks, hshown.rows]
  refine ⟨blocks, hblocks.symm, hshown.valid, fun row hrow => ?_, ?_⟩
  · rw [hdetails] at hrow
    obtain ⟨d, hd, rfl⟩ := List.mem_map.1 hrow
    refine ⟨d.key, rfl, fun level => List.count_eq_one_of_mem hshown.nodup ?_⟩
    exact (hshown.mem_nodes _).2 ⟨d, hd, level, Nat.zero_le _, rfl⟩
  · exact ofOrders_eq_ok.2 ⟨kept, entries, hkept, hentries, congrArg Except.ok hdetails.symm⟩

theorem marketDay_hierarchy :
    let s := Snapshot.ofDataset (.marketDay 0)
    ∃ report, ofOrders s.orders .none s.store.amounts s.store.catalog ⟨true⟩ = .ok report ∧
      report.rows.map (·.kind) =
        [.detail, .summary .cycle, .summary .producer, .detail, .summary .cycle, .summary .producer,
          .summary .distributor] ∧
      ∃ blocks : List DistributorBlock, report.rows = blocks.flatMap ReportPart.rows ∧
        ∀ block ∈ blocks, ReportPart.Valid s.store.catalog block := by
  intro s
  have hkinds : (ofOrders s.orders .none s.store.amounts s.store.catalog ⟨true⟩).map
      (·.rows.map (·.kind)) = .ok [.detail, .summary .cycle, .summary .producer, .detail,
        .summary .cycle, .summary .producer, .summary .distributor] := by
    cbv
  cases hreport : ofOrders s.orders .none s.store.amounts s.store.catalog ⟨true⟩ with
  | error e =>
    rw [hreport] at hkinds
    cases hkinds
  | ok report =>
    rw [hreport] at hkinds
    obtain ⟨blocks, hrows, hvalid, -, -⟩ := ofOrders_hierarchy hreport
    exact ⟨report, rfl, Except.ok.inj hkinds, blocks, hrows, hvalid⟩

end Report

end MarketFees
