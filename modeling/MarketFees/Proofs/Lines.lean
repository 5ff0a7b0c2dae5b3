import MarketFees.Proofs.Hierarchy
import MarketFees.Proofs.Scopes

namespace MarketFees

/-- What a row stands for. -/
inductive RowId where
  | detail (key : GroupKey)
  | summary (node : Node)
  deriving DecidableEq, Repr

namespace RowId

def holds : RowId → GroupKey → Bool
  | .detail key, other => other = key
  | .summary node, other => node.holds other

def shown (options : Report.Options) : RowId → Bool
  | .detail _ => true
  | .summary _ => options.summaries

end RowId

/-- What a row of a kind stands for, when the last detail row has this key. -/
def RowKind.id (key : GroupKey) : RowKind → RowId
  | .detail => .detail key
  | .summary level => .summary (key.node level)

namespace Report

/-- The totals of rows with what each row stands for, when the detail row before them has this key. -/
def linesAfter : Option GroupKey → List Row → List (Option RowId × Totals)
  | _, [] => []
  | last, row :: rest =>
    let last := row.key.or last
    (last.map row.kind.id, row.columns.totals) :: linesAfter last rest

def lines (r : Report) : List (Option RowId × Totals) :=
  linesAfter none r.rows

theorem map_snd_linesAfter (last : Option GroupKey) (rows : List Row) :
    (linesAfter last rows).map (·.2) = rows.map (·.columns.totals) := by
  induction rows generalizing last with
  | nil => rfl
  | cons row rest ih => rw [linesAfter, List.map_cons, List.map_cons, ih]

/-- The totals of the row that stands for something, or zero where there is none. -/
def totalsAt (r : Report) (id : RowId) : Totals :=
  ((r.lines.find? (·.1 = some id)).map (·.2)).getD 0

/-- Every row stands for something, and no two rows for the same. -/
structure Identified (r : Report) : Prop where
  isSome : ∀ line ∈ r.lines, line.1.isSome
  nodup : (r.lines.map (·.1)).Nodup

/-- The report has one row for whatever the charges count for, and each row has the totals of its own
charges. -/
structure Accounts (r : Report) (amounts : AmountSource) (options : Options) (charges : List Charge) :
    Prop extends r.Identified where
  mem_iff : ∀ id, some id ∈ r.lines.map (·.1) ↔
    id.shown options = true ∧ ∃ c ∈ charges, id.holds c.key = true
  totals : ∀ id totals, (some id, totals) ∈ r.lines →
    Totals.ofScope amounts (.ofCharges (charges.filter (id.holds ·.key))) = .ok totals

theorem Identified.totalsAt_eq {r : Report} (h : r.Identified) {id : RowId} {totals : Totals}
    (hmem : (some id, totals) ∈ r.lines) : r.totalsAt id = totals := by
  have hsome : (r.lines.find? (·.1 = some id)).isSome := List.find?_isSome.2 ⟨_, hmem, by simp⟩
  obtain ⟨line, hline⟩ := Option.isSome_iff_exists.1 hsome
  have hid : line.1 = some id := by simpa using List.find?_some hline
  have hsame := List.inj_on_of_nodup_map h.nodup (List.mem_of_find?_eq_some hline) hmem hid
  rw [totalsAt, hline, hsame]
  rfl

theorem totalsAt_eq_zero {r : Report} {id : RowId} (h : some id ∉ r.lines.map (·.1)) :
    r.totalsAt id = 0 := by
  have hnone : r.lines.find? (·.1 = some id) = none := by
    rw [List.find?_eq_none]
    intro line hline hid
    exact h (List.mem_map.2 ⟨line, hline, of_decide_eq_true hid⟩)
  rw [totalsAt, hnone]
  rfl

theorem ofScope_nil (amounts : AmountSource) : Totals.ofScope amounts (.ofCharges []) = .ok 0 :=
  rfl

theorem Accounts.ofScope_eq {r : Report} {amounts : AmountSource} {options : Options}
    {charges : List Charge} (h : r.Accounts amounts options charges) {id : RowId}
    (hshown : id.shown options = true) :
    Totals.ofScope amounts (.ofCharges (charges.filter (id.holds ·.key))) = .ok (r.totalsAt id) := by
  by_cases hmem : some id ∈ r.lines.map (·.1)
  · obtain ⟨⟨_, totals⟩, hline, rfl⟩ := List.mem_map.1 hmem
    rw [h.totalsAt_eq hline]
    exact h.totals id totals hline
  · have hnone : charges.filter (id.holds ·.key) = [] := by
      apply List.filter_eq_nil_iff.2
      intro c hc hholds
      exact hmem ((h.mem_iff id).2 ⟨hshown, c, hc, hholds⟩)
    rw [hnone, totalsAt_eq_zero hmem, ofScope_nil]

theorem Accounts.totalsAt_of_not_shown {r : Report} {amounts : AmountSource} {options : Options}
    {charges : List Charge} (h : r.Accounts amounts options charges) {id : RowId}
    (hshown : id.shown options = false) : r.totalsAt id = 0 := by
  apply totalsAt_eq_zero
  intro hmem
  rw [h.mem_iff, hshown] at hmem
  exact Bool.false_ne_true hmem.1

end Report

open ReportPart

namespace ReportPart

def detailLines (rows : List Row) : List (Option RowId × Totals) :=
  (rows.filter (!·.isSummary)).map fun row => (row.key.map .detail, row.columns.totals)

def summaryLines (summaries : List (Node × Columns)) : List (Option RowId × Totals) :=
  summaries.map fun x => (some (.summary x.1), x.2.totals)

end ReportPart

/-- Rows that have these lines whatever comes before them, the last detail row among them being one of
these keys. -/
def HaveLines (rows : List Row) (keys : List GroupKey) (lines : List (Option RowId × Totals)) : Prop :=
  ∀ last rest, ∃ key ∈ keys, ∃ ls, ls.Perm lines ∧
    Report.linesAfter last (rows ++ rest) = ls ++ Report.linesAfter (some key) rest

namespace HaveLines

variable {rows more : List Row} {keys others : List GroupKey} {lines lines' : List (Option RowId × Totals)}

theorem perm (h : HaveLines rows keys lines) (hperm : lines.Perm lines') : HaveLines rows keys lines' := by
  intro last rest
  obtain ⟨key, hkey, ls, hls, heq⟩ := h last rest
  exact ⟨key, hkey, ls, hls.trans hperm, heq⟩

theorem append (h : HaveLines rows keys lines) (h' : HaveLines more others lines') :
    HaveLines (rows ++ more) (keys ++ others) (lines ++ lines') := by
  intro last rest
  obtain ⟨key, -, ls, hls, heq⟩ := h last (more ++ rest)
  obtain ⟨key', hkey', ls', hls', heq'⟩ := h' (some key) rest
  refine ⟨key', List.mem_append_right _ hkey', ls ++ ls', hls.append hls', ?_⟩
  rw [List.append_assoc, heq, heq', List.append_assoc]

theorem summary (h : HaveLines rows keys lines) {level : Level} {node : Node}
    (hnode : ∀ key ∈ keys, key.node level = node) (columns : Columns) :
    HaveLines (rows ++ [⟨.summary level, none, columns⟩]) keys
      (lines ++ summaryLines [(node, columns)]) := by
  intro last rest
  obtain ⟨key, hkey, ls, hls, heq⟩ := h last (⟨.summary level, none, columns⟩ :: rest)
  refine ⟨key, hkey, ls ++ summaryLines [(node, columns)], hls.append_right _, ?_⟩
  rw [List.append_assoc, List.singleton_append, heq, Report.linesAfter, List.append_assoc,
    ← hnode key hkey]
  rfl

end HaveLines

/-- Parts whose rows stand for their keys and for the nodes of their summaries. -/
class Lined (β : Type) [ReportPart β] : Prop where
  haveLines : ∀ {catalog : Catalog} {part : β}, Valid catalog part →
    HaveLines (rows part) (keys part) (detailLines (rows part) ++ summaryLines (summaries part))

section Lined

variable [ReportPart β] {catalog : Catalog}

theorem flatMap_lines_perm (parts : List β) :
    (parts.flatMap fun part => detailLines (rows part) ++ summaryLines (summaries part)).Perm
      (detailLines (parts.flatMap rows) ++ summaryLines (parts.flatMap summaries)) := by
  rw [detailLines, summaryLines, List.filter_flatMap, List.map_flatMap, List.map_flatMap]
  exact (List.flatMap_append_perm parts _ _).symm

theorem haveLines_flatMap [Lined β] {parts : List β} (hne : parts ≠ [])
    (h : ∀ part ∈ parts, Valid catalog part) :
    HaveLines (parts.flatMap rows) (parts.flatMap keys)
      (parts.flatMap fun part => detailLines (rows part) ++ summaryLines (summaries part)) := by
  induction parts with
  | nil => exact (hne rfl).elim
  | cons part rest ih =>
    have hpart := Lined.haveLines (h part (List.mem_cons_self ..))
    rw [List.flatMap_cons, List.flatMap_cons, List.flatMap_cons]
    by_cases hrest : rest = []
    · subst hrest
      simpa using hpart
    · exact hpart.append (ih hrest fun part hpart => h part (List.mem_cons_of_mem _ hpart))

instance : Lined DetailRow where
  haveLines {_ d} _ _ _ :=
    ⟨d.key, List.mem_singleton_self _, [(some (.detail d.key), d.columns.totals)], .refl _, rfl⟩

instance [Lined β] : Lined (Block level β) where
  haveLines {catalog b} hvalid := by
    obtain ⟨hne, hparts, hnode, -⟩ := hvalid
    have hlines := (haveLines_flatMap hne hparts).perm (flatMap_lines_perm b.parts)
    refine (hlines.summary hnode b.summary).perm ?_
    have hdetails : detailLines (rows b) = detailLines (b.parts.flatMap rows) := by
      change detailLines (b.parts.flatMap rows ++ [_]) = _
      rw [detailLines, List.filter_append, detailLines]
      simp [Row.isSummary]
    have hsummaries : summaryLines (summaries b) =
        summaryLines (b.parts.flatMap summaries) ++ summaryLines [(b.node, b.summary)] :=
      List.map_append
    rw [hdetails, hsummaries, List.append_assoc]

/-- What is shown has a line for each detail and one for each summary. -/
theorem Shown.lines_perm [Lined β] {amounts : AmountSource} {depth : Nat} {details : List Detail}
    {parts : List β} (h : Shown amounts catalog depth details parts) :
    (Report.linesAfter none (parts.flatMap ReportPart.rows)).Perm
      (detailLines (details.map Detail.row) ++ summaryLines (parts.flatMap summaries)) := by
  have hdetails : detailLines (parts.flatMap ReportPart.rows) = detailLines (details.map Detail.row) := by
    rw [← h.rows, detailLines, detailLines, List.filter_filter]
    simp
  rw [← hdetails]
  by_cases hne : parts = []
  · subst hne
    exact .nil
  · have hlines := (haveLines_flatMap hne h.valid).perm (flatMap_lines_perm parts)
    obtain ⟨key, -, ls, hls, heq⟩ := hlines none []
    rw [List.append_nil] at heq
    rw [heq]
    simpa [Report.linesAfter] using hls

end Lined

structure Detailed (amounts : AmountSource) (charges : List Charge) (details : List Detail) : Prop
    extends StandFor charges details where
  nodup : (details.map (·.key)).Nodup
  exists_charge : ∀ d ∈ details, ∃ c ∈ charges, c.key = d.key
  totals : ∀ d ∈ details, Totals.ofScope amounts (.ofCharges (charges.filter (·.key = d.key))) =
    .ok d.columns.totals

theorem Detailed.sortByKey {amounts : AmountSource} {catalog : Catalog} {charges : List Charge}
    {entries : List (SortKey × Detail)}
    (h : (Group.ofCharges charges).mapM (Report.entry amounts catalog) = .ok entries) :
    Detailed amounts charges (Report.sortByKey entries) where
  toStandFor := .sortByKey h
  nodup := by
    have hperm : (Report.sortByKey entries).Perm (entries.map (·.2)) :=
      (sortBy_perm Prod.fst entries).map Prod.snd
    have hkeys : (entries.map (·.2)).map (·.key) = (Group.ofCharges charges).map (·.key) := by
      rw [List.map_map]
      exact map_of_mapM h fun _ _ hentry => (Report.keys_of_entry hentry).2
    rw [(hperm.map (·.key)).nodup_iff, hkeys]
    exact Group.nodup_keys_ofCharges charges
  exists_charge d hd := by
    obtain ⟨g, hg, hkey, -⟩ := Report.group_of_entries h hd
    rw [hkey]
    exact (Group.mem_ofCharges hg).2
  totals d hd := by
    obtain ⟨position, hmem⟩ := Report.mem_sortByKey.1 hd
    obtain ⟨g, -, hentry⟩ := exists_of_mem_mapM h hmem
    rw [← (StandFor.sortByKey h).scope d hd]
    exact Report.totals_of_entry hentry

structure SummedUp (amounts : AmountSource) (options : Report.Options) (charges : List Charge)
    (summaries : List (Node × Columns)) : Prop where
  nodup : (summaries.map (·.1)).Nodup
  mem_iff : ∀ node, node ∈ summaries.map (·.1) ↔
    options.summaries = true ∧ ∃ c ∈ charges, node.holds c.key = true
  totals : ∀ x ∈ summaries, Totals.ofScope amounts (.ofCharges (charges.filter (x.1.holds ·.key))) =
    .ok x.2.totals

theorem SummedUp.nil {amounts : AmountSource} {options : Report.Options} {charges : List Charge}
    (h : options.summaries = false) : SummedUp amounts options charges [] where
  nodup := .nil
  mem_iff := by simp [h]
  totals := by simp

theorem Detailed.summedUp [ReportPart β] {amounts : AmountSource} {catalog : Catalog}
    {options : Report.Options} {charges : List Charge} {details : List Detail} {parts : List β}
    (h : Detailed amounts charges details) (hshown : Shown amounts catalog 0 details parts)
    (hsummaries : options.summaries = true) :
    SummedUp amounts options charges (parts.flatMap summaries) where
  nodup := hshown.nodup
  mem_iff node := by
    rw [hshown.mem_nodes]
    constructor
    · rintro ⟨d, hd, level, -, rfl⟩
      obtain ⟨c, hc, hkey⟩ := h.exists_charge d hd
      exact ⟨hsummaries, c, hc, GroupKey.holds_node.2 (by rw [hkey])⟩
    · rintro ⟨-, c, hc, hholds⟩
      obtain ⟨d, hd, hkey⟩ := h.exists_detail c hc
      refine ⟨d, hd, node.level, Nat.zero_le _, ?_⟩
      rw [hkey]
      exact of_decide_eq_true hholds
  totals x hx := by
    rw [← h.unionAll_eq]
    exact hshown.totals x hx

theorem detailLines_map_row (details : List Detail) : detailLines (details.map Detail.row) =
    details.map fun d => (some (.detail d.key), d.columns.totals) := by
  have hall : (details.map Detail.row).filter (!·.isSummary) = details.map Detail.row := by
    apply List.filter_eq_self.2
    intro r hr
    obtain ⟨d, -, rfl⟩ := List.mem_map.1 hr
    rfl
  rw [detailLines, hall, List.map_map]
  rfl

namespace Report

variable {amounts : AmountSource} {catalog : Catalog} {charges : List Charge} {options : Options}

theorem linesAfter_map_row (last : Option GroupKey) (details : List Detail) :
    linesAfter last (details.map Detail.row) =
      details.map fun d => (some (.detail d.key), d.columns.totals) := by
  induction details generalizing last with
  | nil => rfl
  | cons d rest ih =>
    rw [List.map_cons, List.map_cons, linesAfter, ih]
    rfl

section Accounts

variable {details : List Detail} {summaries : List (Node × Columns)} {report : Report}
  (hdetails : Detailed amounts charges details) (hsummaries : SummedUp amounts options charges summaries)
  (hlines : report.lines.Perm ((details.map fun d => (some (.detail d.key), d.columns.totals)) ++
    summaryLines summaries))

include hlines

theorem mem_lines_iff {line : Option RowId × Totals} : line ∈ report.lines ↔
    (∃ d ∈ details, (some (.detail d.key), d.columns.totals) = line) ∨
      ∃ x ∈ summaries, (some (.summary x.1), x.2.totals) = line := by
  rw [hlines.mem_iff, List.mem_append, summaryLines, List.mem_map, List.mem_map]

include hdetails hsummaries

theorem identified_of_perm : report.Identified where
  isSome line hline := by
    obtain ⟨d, -, rfl⟩ | ⟨x, -, rfl⟩ := (mem_lines_iff hlines).1 hline
    · rfl
    · rfl
  nodup := by
    have hkeys := hdetails.nodup.map (f := fun key => some (RowId.detail key)) fun a b h => by
      simpa using h
    have hnodes := hsummaries.nodup.map (f := fun node => some (RowId.summary node)) fun a b h => by
      simpa using h
    rw [List.map_map] at hkeys hnodes
    rw [(hlines.map (·.1)).nodup_iff, summaryLines, List.map_append, List.map_map, List.map_map]
    apply List.Nodup.append hkeys hnodes
    intro id hid hid'
    obtain ⟨d, -, rfl⟩ := List.mem_map.1 hid
    obtain ⟨x, -, hx⟩ := List.mem_map.1 hid'
    cases hx

theorem mem_ids_iff (id : RowId) : some id ∈ report.lines.map (·.1) ↔
    id.shown options = true ∧ ∃ c ∈ charges, id.holds c.key = true := by
  rw [(hlines.map (·.1)).mem_iff, summaryLines, List.map_append, List.map_map, List.map_map,
    List.mem_append]
  cases id with
  | detail key =>
    constructor
    · intro h
      obtain ⟨d, hd, heq⟩ := List.mem_map.1 (h.resolve_right (by simp))
      cases heq
      obtain ⟨c, hc, hkey⟩ := hdetails.exists_charge d hd
      exact ⟨rfl, c, hc, decide_eq_true hkey⟩
    · rintro ⟨-, c, hc, hkey⟩
      obtain ⟨d, hd, hdkey⟩ := hdetails.exists_detail c hc
      refine .inl (List.mem_map.2 ⟨d, hd, ?_⟩)
      rw [Function.comp_apply, hdkey, of_decide_eq_true hkey]
  | summary node =>
    have hnode := hsummaries.mem_iff node
    constructor
    · intro h
      obtain ⟨x, hx, heq⟩ := List.mem_map.1 (h.resolve_left (by simp))
      cases heq
      exact hnode.1 (List.mem_map_of_mem hx)
    · intro h
      obtain ⟨x, hx, rfl⟩ := List.mem_map.1 (hnode.2 h)
      exact .inr (List.mem_map.2 ⟨x, hx, rfl⟩)

theorem accounts_of_perm : report.Accounts amounts options charges where
  toIdentified := identified_of_perm hdetails hsummaries hlines
  mem_iff := mem_ids_iff hdetails hsummaries hlines
  totals id totals hline := by
    obtain ⟨d, hd, heq⟩ | ⟨x, hx, heq⟩ := (mem_lines_iff hlines).1 hline
    · cases heq
      exact hdetails.totals d hd
    · cases heq
      exact hsummaries.totals x hx

end Accounts

/-- A report accounts for the charges that were kept. -/
theorem accounts_of_ofOrders {orders : List Order} {f : Filters} {report : Report}
    (hkept : Charge.retain f (ownerOf catalog) (Charge.ofOrders orders) = .ok charges)
    (h : ofOrders orders f amounts catalog options = .ok report) :
    report.Accounts amounts options charges := by
  obtain ⟨_, entries, hretain, hentries, hrows⟩ := ofOrders_eq_ok.1 h
  obtain rfl := Except.ok.inj (hkept.symm.trans hretain)
  have hdetails := Detailed.sortByKey hentries
  cases hoption : options.summaries with
  | false =>
    rw [hoption] at hrows
    have hrows : report.rows = (sortByKey entries).map Detail.row := (Except.ok.inj hrows).symm
    refine accounts_of_perm hdetails (.nil hoption) ?_
    rw [lines, hrows, linesAfter_map_row]
    exact .of_eq (List.append_nil _).symm
  | true =>
    rw [hoption] at hrows
    obtain ⟨blocks, hblocks, hshown⟩ := Detail.exists_shown (ordered_sortByKey hentries) hrows
    refine accounts_of_perm hdetails (hdetails.summedUp hshown hoption) ?_
    rw [lines, ← hblocks, ← detailLines_map_row]
    exact hshown.lines_perm

end Report

end MarketFees
