import Mathlib.Data.List.Perm.Basic
import MarketFees.Proofs.Position

namespace MarketFees

def Catalog.nodeColumns (catalog : Catalog) (totals : Totals) : Node → Except StoreError Columns
  | .distributor distributor => do
    let distributor ← catalog.enterprise distributor
    return { Columns.ofTotals totals with distributor := distributor.map (·.name) }
  | .producer distributor supplier => do
    let distributor ← catalog.enterprise distributor
    let producer ← catalog.enterprise supplier
    return { Columns.ofTotals totals with
      distributor := distributor.map (·.name)
      producer := producer.map (·.name)
      producerTaxStatus := producer.map (·.chargesSalesTax) }
  | .cycle distributor supplier cycle => do
    let distributor ← catalog.enterprise distributor
    let producer ← catalog.enterprise supplier
    let cycle ← catalog.cycle cycle
    return { Columns.ofTotals totals with
      distributor := distributor.map (·.name)
      producer := producer.map (·.name)
      producerTaxStatus := producer.map (·.chargesSalesTax)
      cycle := cycle.map (·.name) }

/-- Something that stands in a report as consecutive rows. -/
class ReportPart (β : Type) where
  rows : β → List Row
  /-- The keys of the detail rows. -/
  keys : β → List GroupKey
  /-- The summaries among the rows, each with its node. -/
  summaries : β → List (Node × Columns)
  /-- Whether every summary follows the rows of its node and shows the names for it. -/
  Valid : Catalog → β → Prop
  columns_summaries : ∀ part,
    ((rows part).filter (·.isSummary)).map (·.columns) = (summaries part).map (·.2)

structure DetailRow where
  key : GroupKey
  columns : Columns

/-- Parts that are summed up together, and the columns of their summary. -/
structure Block (level : Level) (β : Type) where
  node : Node
  parts : List β
  summary : Columns

open ReportPart

instance : ReportPart DetailRow where
  rows d := [⟨.detail, some d.key, d.columns⟩]
  keys d := [d.key]
  summaries _ := []
  Valid _ _ := True
  columns_summaries _ := rfl

theorem columns_flatMap_summaries [ReportPart β] (parts : List β) :
    ((parts.flatMap rows).filter (·.isSummary)).map (·.columns) =
      (parts.flatMap summaries).map (·.2) := by
  rw [List.filter_flatMap, List.map_flatMap, List.map_flatMap]
  exact List.flatMap_congr fun part _ => columns_summaries part

instance [ReportPart β] : ReportPart (Block level β) where
  rows b := b.parts.flatMap rows ++ [⟨.summary level, none, b.summary⟩]
  keys b := b.parts.flatMap keys
  summaries b := b.parts.flatMap summaries ++ [(b.node, b.summary)]
  Valid catalog b :=
    b.parts ≠ [] ∧ (∀ part ∈ b.parts, Valid catalog part) ∧
      (∀ key ∈ b.parts.flatMap keys, key.node level = b.node) ∧
      catalog.nodeColumns b.summary.totals b.node = .ok b.summary
  columns_summaries b := by
    rw [List.filter_append, List.map_append, List.map_append, columns_flatMap_summaries]
    rfl

abbrev CycleBlock := Block .cycle DetailRow

abbrev ProducerBlock := Block .producer CycleBlock

abbrev DistributorBlock := Block .distributor ProducerBlock

/-- The parts show these details, with one summary for each of their nodes below a depth, which sums
up all the details of the node. -/
structure Shown [ReportPart β] (amounts : AmountSource) (catalog : Catalog) (depth : Nat)
    (details : List Detail) (parts : List β) : Prop where
  valid : ∀ part ∈ parts, Valid catalog part
  keys : parts.flatMap keys = details.map (·.key)
  rows : (parts.flatMap rows).filter (!·.isSummary) = details.map Detail.row
  nodup : ((parts.flatMap summaries).map (·.1)).Nodup
  mem_nodes : ∀ node, node ∈ (parts.flatMap summaries).map (·.1) ↔
    ∃ d ∈ details, ∃ level : Level, depth ≤ level.depth ∧ d.key.node level = node
  totals : ∀ x ∈ parts.flatMap summaries, Totals.ofScope amounts (Scope.unionAll
    ((details.filter fun d => x.1.holds d.key).map (·.scope))) = .ok x.2.totals

namespace Shown

variable {amounts : AmountSource} {catalog : Catalog} {depth : Nat} {details more : List Detail}

theorem nil [ReportPart β] : Shown amounts catalog depth [] ([] : List β) where
  valid := by simp
  keys := rfl
  rows := rfl
  nodup := .nil
  mem_nodes := by simp
  totals := by simp

theorem ofDetails (details : List Detail) :
    Shown amounts catalog 3 details (details.map fun d => DetailRow.mk d.key d.columns) where
  valid _ _ := trivial
  keys := by
    rw [List.flatMap_map]
    exact List.map_eq_flatMap.symm
  rows := by
    have hrows : (details.map fun d => DetailRow.mk d.key d.columns).flatMap ReportPart.rows =
        details.map Detail.row := by
      simp [List.flatMap_map, ReportPart.rows, Detail.row, ← List.map_eq_flatMap]
    rw [hrows, List.filter_eq_self]
    intro row hrow
    obtain ⟨d, -, rfl⟩ := List.mem_map.1 hrow
    rfl
  nodup := by
    have hnone : (details.map fun d => DetailRow.mk d.key d.columns).flatMap summaries = [] := by
      simp [List.flatMap_eq_nil_iff, summaries]
    rw [hnone]
    exact .nil
  mem_nodes node := by
    have hdepth (level : Level) : ¬3 ≤ level.depth := by cases level <;> decide
    simp [List.flatMap_map, summaries, hdepth]
  totals := by simp [List.flatMap_map, summaries]

variable [ReportPart β] {parts others : List β}

theorem filter_eq_nil (h : Shown amounts catalog depth details parts) {x : Node × Columns}
    (hx : x ∈ parts.flatMap summaries)
    (hdiffer : ∀ d ∈ details, ∀ d' ∈ more, ∀ level : Level, depth ≤ level.depth →
      d.key.node level ≠ d'.key.node level) :
    more.filter (fun d => x.1.holds d.key) = [] := by
  obtain ⟨d, hd, level, hdepth, hnode⟩ := (h.mem_nodes x.1).1 (List.mem_map_of_mem hx)
  apply List.filter_eq_nil_iff.2
  intro d' hd' hholds
  rw [← hnode] at hholds
  exact hdiffer d hd d' hd' level hdepth (GroupKey.holds_node.1 hholds).symm

theorem append (h : Shown amounts catalog depth details parts)
    (h' : Shown amounts catalog depth more others)
    (hdiffer : ∀ d ∈ details, ∀ d' ∈ more, ∀ level : Level, depth ≤ level.depth →
      d.key.node level ≠ d'.key.node level) :
    Shown amounts catalog depth (details ++ more) (parts ++ others) where
  valid := by
    intro part hpart
    rcases List.mem_append.1 hpart with hpart | hpart
    · exact h.valid part hpart
    · exact h'.valid part hpart
  keys := by rw [List.flatMap_append, List.map_append, h.keys, h'.keys]
  rows := by rw [List.flatMap_append, List.filter_append, List.map_append, h.rows, h'.rows]
  nodup := by
    rw [List.flatMap_append, List.map_append]
    refine List.Nodup.append h.nodup h'.nodup fun node hnode hnode' => ?_
    obtain ⟨d, hd, level, hdepth, heq⟩ := (h.mem_nodes node).1 hnode
    obtain ⟨d', hd', level', -, heq'⟩ := (h'.mem_nodes node).1 hnode'
    obtain rfl := GroupKey.level_eq_of_node_eq (heq.trans heq'.symm)
    exact hdiffer d hd d' hd' level hdepth (heq.trans heq'.symm)
  mem_nodes := by
    intro node
    rw [List.flatMap_append, List.map_append, List.mem_append, h.mem_nodes, h'.mem_nodes]
    simp only [List.mem_append, or_and_right, exists_or]
  totals := by
    intro x hx
    rw [List.flatMap_append] at hx
    rcases List.mem_append.1 hx with hx | hx
    · rw [List.filter_append, h.filter_eq_nil hx hdiffer, List.append_nil]
      exact h.totals x hx
    · have hdiffer' : ∀ d ∈ more, ∀ d' ∈ details, ∀ level : Level, depth ≤ level.depth →
          d.key.node level ≠ d'.key.node level :=
        fun d hd d' hd' level hdepth => (hdiffer d' hd' d hd level hdepth).symm
      rw [List.filter_append, h'.filter_eq_nil hx hdiffer', List.nil_append]
      exact h'.totals x hx

theorem join {level : Level} {runs : List (List Detail)}
    (h : List.Forall₂ (fun run part => Shown amounts catalog level.depth run [part]) runs parts)
    (hdiffer : runs.Pairwise fun run later => ∀ d ∈ run, ∀ d' ∈ later,
      d.key.node level ≠ d'.key.node level) :
    Shown amounts catalog level.depth runs.flatten parts := by
  induction h with
  | nil => exact .nil
  | cons hfirst hrest ih =>
    obtain ⟨hrun, hlater⟩ := List.pairwise_cons.1 hdiffer
    refine hfirst.append (ih hlater) fun d hd d' hd' below hdepth heq => ?_
    obtain ⟨later, hmem, hd'⟩ := List.mem_flatten.1 hd'
    exact hrun later hmem d hd d' hd' (GroupKey.node_eq_of_depth_le heq hdepth)

end Shown

theorem Detail.nodeColumns_eq {catalog : Catalog} {first : Detail} (h : first.Drawn catalog)
    (rest : List Detail) (level : Level) (totals : Totals) :
    catalog.nodeColumns totals (first.key.node level) =
      .ok (Detail.sharedColumns level totals (first :: rest)) := by
  obtain ⟨distributor, hdistributor, hname⟩ := h.distributor
  obtain ⟨producer, hproducer, hproducerName, hstatus⟩ := h.producer
  obtain ⟨cycle, hcycle, hcycleName⟩ := h.cycle
  cases level <;>
    simp only [Catalog.nodeColumns, GroupKey.node, sharedColumns, hdistributor, hproducer, hcycle,
      hname, hproducerName, hstatus, hcycleName] <;> rfl

theorem Detail.totals_sharedColumns (level : Level) (totals : Totals) (details : List Detail) :
    (Detail.sharedColumns level totals details).totals = totals := by
  cases details with
  | nil => rfl
  | cons first rest => cases level <;> rfl

theorem Level.depth_le_iff {level other : Level} :
    level.depth ≤ other.depth ↔ other = level ∨ level.depth + 1 ≤ other.depth := by
  cases level <;> cases other <;> decide

/-- The parts of one node and its summary make a block. -/
theorem Shown.block [ReportPart β] {amounts : AmountSource} {catalog : Catalog}
    {details : List Detail} {level : Level} {parts : List β} {row : Row}
    (h : Shown amounts catalog (level.depth + 1) details parts) (hne : details ≠ [])
    (hdrawn : ∀ d ∈ details, d.Drawn catalog)
    (hnode : ∀ d ∈ details, ∀ d' ∈ details, d.key.node level = d'.key.node level)
    (hrow : Detail.summary amounts level details = .ok row) :
    ∃ block : Block level β, ReportPart.rows block = parts.flatMap ReportPart.rows ++ [row] ∧
      Shown amounts catalog level.depth details [block] := by
  obtain ⟨totals, htotals, hrow⟩ := bind_eq_ok.1 hrow
  cases hrow
  obtain ⟨first, rest, rfl⟩ := List.exists_cons_of_ne_nil hne
  have hfirst : ∀ d ∈ first :: rest, d.key.node level = first.key.node level :=
    fun d hd => hnode d hd first (List.mem_cons_self ..)
  let summary := Detail.sharedColumns level totals (first :: rest)
  have hsummary : summary.totals = totals := Detail.totals_sharedColumns level totals _
  refine ⟨⟨first.key.node level, parts, summary⟩, rfl, ?_⟩
  have hsummaries : [(⟨first.key.node level, parts, summary⟩ : Block level β)].flatMap summaries =
      parts.flatMap summaries ++ [(first.key.node level, summary)] := List.flatMap_singleton ..
  refine ⟨?valid, ?keys, ?rows, ?nodup, ?mem_nodes, ?totals⟩
  case valid =>
    intro block hblock
    rw [List.mem_singleton.1 hblock]
    refine ⟨?_, h.valid, ?_, ?_⟩
    · intro hnil
      have hkeys := h.keys
      simp only at hnil
      rw [hnil] at hkeys
      cases hkeys
    · intro key hkey
      have hkey : key ∈ (first :: rest).map (·.key) := h.keys ▸ hkey
      obtain ⟨d, hd, rfl⟩ := List.mem_map.1 hkey
      exact hfirst d hd
    · change catalog.nodeColumns summary.totals _ = _
      rw [hsummary]
      exact Detail.nodeColumns_eq (hdrawn first (List.mem_cons_self ..)) rest level totals
  case keys => exact (List.flatMap_singleton ..).trans h.keys
  case rows =>
    rw [List.flatMap_singleton]
    change (parts.flatMap ReportPart.rows ++ [_]).filter _ = _
    rw [List.filter_append, h.rows]
    exact List.append_nil _
  case nodup =>
    rw [hsummaries, List.map_append]
    refine List.Nodup.append h.nodup (List.nodup_singleton _) fun node hmem hnode => ?_
    obtain ⟨d, -, below, hdepth, heq⟩ := (h.mem_nodes node).1 hmem
    rw [List.mem_singleton.1 hnode] at heq
    obtain rfl := GroupKey.level_eq_of_node_eq heq
    omega
  case mem_nodes =>
    intro node
    rw [hsummaries, List.map_append, List.mem_append, h.mem_nodes]
    constructor
    · rintro (⟨d, hd, below, hdepth, heq⟩ | hnode)
      · exact ⟨d, hd, below, by omega, heq⟩
      · exact ⟨first, List.mem_cons_self .., level, Nat.le_refl _, (List.mem_singleton.1 hnode).symm⟩
    · rintro ⟨d, hd, below, hdepth, heq⟩
      rcases Level.depth_le_iff.1 hdepth with rfl | hdepth
      · exact .inr (List.mem_singleton.2 (heq.symm.trans (hfirst d hd)))
      · exact .inl ⟨d, hd, below, hdepth, heq⟩
  case totals =>
    intro x hx
    rw [hsummaries] at hx
    rcases List.mem_append.1 hx with hx | hx
    · exact h.totals x hx
    · rw [List.mem_singleton.1 hx]
      rw [List.filter_eq_self.2 fun d hd => GroupKey.holds_node.2 (hfirst d hd)]
      exact htotals.trans (congrArg Except.ok hsummary.symm)

namespace Block

variable [ReportPart β] {level : Level}

/-- The summaries of blocks are those of their parts and one of each block. -/
theorem summaries_perm (blocks : List (Block level β)) :
    (blocks.flatMap summaries).Perm
      ((blocks.flatMap (·.parts)).flatMap summaries ++ blocks.map fun b => (b.node, b.summary)) := by
  have hperm := List.flatMap_append_perm blocks (fun b => b.parts.flatMap summaries)
    fun b => [(b.node, b.summary)]
  rw [List.flatMap_assoc, List.map_eq_flatMap]
  exact hperm.symm

theorem keys_parts (blocks : List (Block level β)) :
    (blocks.flatMap (·.parts)).flatMap keys = blocks.flatMap keys :=
  List.flatMap_assoc

theorem mem_rows_of_part {b : Block level β} {part : β} (hpart : part ∈ b.parts) {row : Row}
    (hrow : row ∈ rows part) : row ∈ rows b :=
  List.mem_append_left _ (List.mem_flatMap.2 ⟨part, hpart, hrow⟩)

theorem mem_summaries {blocks : List (Block level β)} {b : Block level β} (hb : b ∈ blocks) :
    (b.node, b.summary) ∈ blocks.flatMap summaries :=
  List.mem_flatMap.2 ⟨b, hb, List.mem_append_right _ (List.mem_singleton_self _)⟩

theorem mem_keys_iff {catalog : Catalog} {blocks : List (Block level β)}
    (hvalid : ∀ b ∈ blocks, Valid catalog b) (hnodes : (blocks.map (·.node)).Nodup) {b : Block level β}
    (hb : b ∈ blocks) {key : GroupKey} :
    key ∈ keys b ↔ key ∈ blocks.flatMap keys ∧ key.node level = b.node := by
  constructor
  · intro hkey
    exact ⟨List.mem_flatMap.2 ⟨b, hb, hkey⟩, (hvalid b hb).2.2.1 key hkey⟩
  · rintro ⟨hkey, hnode⟩
    obtain ⟨other, hother, hkey⟩ := List.mem_flatMap.1 hkey
    have hsame := ((hvalid other hother).2.2.1 key hkey).symm.trans hnode
    rwa [← List.inj_on_of_nodup_map hnodes hother hb hsame]

end Block

end MarketFees
