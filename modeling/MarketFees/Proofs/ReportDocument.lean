import MarketFees.Proofs.Json.Record
import MarketFees.Proofs.ReportText
import MarketFees.Report.Document

namespace MarketFees

namespace Json

theorem filter_key_eq {fields : List (String × Json)} (hkeys : (fields.map (·.1)).Nodup)
    {key : String} {content : Json} (h : (key, content) ∈ fields) :
    fields.filter (·.1 == key) = [(key, content)] := by
  induction fields with
  | nil => simp at h
  | cons field fields ih =>
    obtain ⟨hfirst, hrest⟩ := List.nodup_cons.1 hkeys
    rcases List.mem_cons.1 h with rfl | h
    · have hnone : fields.filter (·.1 == key) = [] := by
        rw [List.filter_eq_nil_iff]
        intro field hfield heq
        exact hfirst (List.mem_map.2 ⟨field, hfield, eq_of_beq heq⟩)
      rw [List.filter_cons, if_pos (beq_self_eq_true key), hnone]
    · have hne : ¬(field.1 == key) := by
        intro heq
        exact hfirst (List.mem_map.2 ⟨_, h, (eq_of_beq heq).symm⟩)
      rw [List.filter_cons, if_neg hne, ih hrest h]

theorem fieldOf?_sort {fields : List (String × Json)} (hkeys : (fields.map (·.1)).Nodup)
    {key : String} {content : Json} (h : (key, content) ∈ fields) :
    fieldOf? (fields.mergeSort fun a b => (compare a.1 b.1).isLE) key = some (some content) := by
  have hperm := (List.mergeSort_perm fields fun a b => (compare a.1 b.1).isLE).filter (·.1 == key)
  rw [filter_key_eq hkeys h, List.perm_singleton] at hperm
  rw [fieldOf?, hperm]

theorem record?_sorted {fields asked : List (String × Json)} (hkeys : (fields.map (·.1)).Nodup)
    (h : asked ⊆ fields) :
    (sorted fields).record? (asked.map (·.1)) = some (asked.map (some ·.2)) := by
  rw [sorted, record?]
  induction asked with
  | nil => rfl
  | cons field asked ih =>
    obtain ⟨hfield, hasked⟩ := List.cons_subset.1 h
    rw [List.map_cons, List.mapM_cons, fieldOf?_sort hkeys hfield, ih hasked]
    rfl

theorem whole_sorted {fields : List (String × Json)} (h : ∀ field ∈ fields, field.2.Whole) :
    (sorted fields).Whole := by
  refine .object fun field hfield => h field ?_
  exact (List.mergeSort_perm ..).mem_iff.1 hfield

def cell : Json → String
  | .null => ""
  | .bool true => "yes"
  | .bool false => "no"
  | .string text => Field.escaped text
  | j => j.toText .compact

def cells? (j : Json) : Option (List String) := do
  (← j.record? Columns.names).mapM (·.map cell)

end Json

namespace Field

def ofJson? : Json → Option Field
  | .null => some .missing
  | .bool value => some (.flag value)
  | .string value => some (.text value)
  | _ => none

theorem ofJson?_toJson (field : Field) : ofJson? field.toJson = some field := by
  cases field <;> rfl

theorem whole_toJson (field : Field) : field.toJson.Whole := by
  cases field <;> simp [toJson]

theorem cell_toJson (field : Field) : field.toJson.cell = field.cell := by
  cases field with
  | missing => rfl
  | flag value => cases value <;> rfl
  | text value => rfl

@[simp]
theorem ofText_inj {a b : Option String} : ofText a = ofText b ↔ a = b := by
  cases a <;> cases b <;> simp [ofText]

@[simp]
theorem ofFlag_inj {a b : Option Bool} : ofFlag a = ofFlag b ↔ a = b := by
  cases a <;> cases b <;> simp [ofFlag]

@[simp]
theorem ofDecimal_inj {a b : Decimal} : ofDecimal a = ofDecimal b ↔ a = b := by
  rw [ofDecimal, ofDecimal, text.injEq, Decimal.toText_inj]

@[simp]
theorem ofDecimal?_inj {a b : Option Decimal} :
    (a.elim missing ofDecimal) = b.elim missing ofDecimal ↔ a = b := by
  cases a with
  | none => cases b <;> simp [ofDecimal]
  | some a =>
    cases b with
    | none => simp [ofDecimal]
    | some b => simp

end Field

theorem Columns.fields_inj {c d : Columns} :
    c.fields.map (·.2) = d.fields.map (·.2) ↔ c = d := by
  cases c
  cases d
  simp [fields, Totals.eq_iff]

namespace RowKind

def ofJson? : (kind level : Json) → Option RowKind
  | .string "detail", .null => some .detail
  | .string "summary", .string "distributor" => some (.summary .distributor)
  | .string "summary", .string "producer" => some (.summary .producer)
  | .string "summary", .string "order_cycle" => some (.summary .cycle)
  | _, _ => none

theorem ofJson?_toJson (kind : RowKind) : ofJson? kind.toJson kind.levelToJson = some kind := by
  rcases kind with _ | _ | _ | _ <;> rfl

end RowKind

namespace Row

/-- The kind of a row and its fields, from the object of the row. -/
def ofJson? (j : Json) : Option (RowKind × List Field) := do
  match ← j.record? ("kind" :: "level" :: Columns.names) with
  | some kind :: some level :: columns =>
    return (← RowKind.ofJson? kind level, ← columns.mapM (·.bind Field.ofJson?))
  | _ => none

def members (row : Row) : List (String × Json) :=
  ("kind", row.kind.toJson) :: ("level", row.kind.levelToJson) ::
    row.columns.fields.map fun (name, field) => (name, field.toJson)

theorem nodup_keys_members (row : Row) : (row.members.map (·.1)).Nodup := by
  have hkeys : row.members.map (·.1) = "kind" :: "level" :: Columns.names := rfl
  rw [hkeys]
  decide +kernel

theorem toJson_eq (row : Row) : row.toJson = .sorted row.members :=
  rfl

theorem whole_toJson (row : Row) : row.toJson.Whole := by
  refine Json.whole_sorted fun member hmember => ?_
  rcases List.mem_cons.1 hmember with rfl | hmember
  · cases row.kind <;> simp [RowKind.toJson]
  rcases List.mem_cons.1 hmember with rfl | hmember
  · cases row.kind <;> simp [RowKind.levelToJson]
  · obtain ⟨field, -, rfl⟩ := List.mem_map.1 hmember
    exact field.2.whole_toJson

theorem ofJson?_toJson (row : Row) :
    ofJson? row.toJson = some (row.kind, row.columns.fields.map (·.2)) := by
  have hrecord : row.toJson.record? ("kind" :: "level" :: Columns.names) =
      some (some row.kind.toJson :: some row.kind.levelToJson ::
        row.columns.fields.map fun field => some field.2.toJson) := by
    rw [toJson_eq]
    exact Json.record?_sorted row.nodup_keys_members (List.Subset.refl row.members)
  have hcolumns : (row.columns.fields.map fun field => some field.2.toJson).mapM
      (·.bind Field.ofJson?) = some (row.columns.fields.map (·.2)) := by
    rw [List.mapM_map]
    simp only [Function.comp_def, Option.bind_some, Field.ofJson?_toJson]
    exact List.mapM_pure
  rw [ofJson?, hrecord]
  simp only [Option.bind_eq_bind, Option.bind_some, RowKind.ofJson?_toJson, hcolumns]
  rfl

/-- The cells of the line of a row, from the object of the row. -/
theorem cells?_toJson (row : Row) : row.toJson.cells? = some (row.columns.fields.map (·.2.cell)) := by
  have hrecord : row.toJson.record? Columns.names =
      some (row.columns.fields.map fun field => some field.2.toJson) := by
    have hcolumns : row.members.drop 2 ⊆ row.members := List.drop_subset ..
    rw [toJson_eq]
    exact Json.record?_sorted row.nodup_keys_members hcolumns
  have hcells : (row.columns.fields.map fun field => some field.2.toJson).mapM (·.map Json.cell) =
      some (row.columns.fields.map (·.2.cell)) := by
    rw [List.mapM_map]
    simp only [Function.comp_def, Option.map_some, Field.cell_toJson]
    exact List.mapM_pure
  rw [Json.cells?, hrecord, Option.bind_eq_bind, Option.bind_some, hcells]

theorem toJson_inj {a b : Row} :
    a.toJson = b.toJson ↔ (a.kind, a.columns) = (b.kind, b.columns) := by
  constructor
  · intro h
    have hread : some (a.kind, a.columns.fields.map (·.2)) =
        some (b.kind, b.columns.fields.map (·.2)) := by
      rw [← ofJson?_toJson, h, ofJson?_toJson]
    simpa [Columns.fields_inj] using hread
  · intro h
    obtain ⟨hkind, hcolumns⟩ := Prod.mk.inj h
    rw [toJson, hkind, hcolumns, ← toJson]

/-- An object records a row when it has a key for the kind, for the level and for each column, none of
them twice and no others, and when the row is read from it. -/
structure RecordedIn (row : Row) (j : Json) : Prop where
  keys : ∃ members, j = .object members ∧ (members.map (·.1)).Nodup ∧
    (members.map (·.1)).Perm ("kind" :: "level" :: Columns.names)
  read : ofJson? j = some (row.kind, row.columns.fields.map (·.2))

theorem recordedIn_toJson (row : Row) : row.RecordedIn row.toJson where
  keys := by
    have hperm := (List.mergeSort_perm row.members fun a b => (compare a.1 b.1).isLE).map (·.1)
    exact ⟨_, rfl, hperm.nodup_iff.2 row.nodup_keys_members, hperm⟩
  read := row.ofJson?_toJson

end Row

namespace Report

theorem ofText?_toDocument (r : Report) :
    Json.ofText? r.toDocument = some (.object [("rows", .array (r.rows.map Row.toJson))]) := by
  have hwhole : r.toJson.Whole := by simp [toJson, Row.whole_toJson]
  exact Json.ofText?_toText hwhole .indented

theorem toDocument_inj {r s : Report} :
    s.toDocument = r.toDocument ↔ s.rows.map Row.toJson = r.rows.map Row.toJson := by
  constructor
  · intro h
    have hread := congrArg Json.ofText? h
    rw [ofText?_toDocument, ofText?_toDocument] at hread
    simpa using hread
  · intro h
    rw [toDocument, toJson, h, ← toJson, ← toDocument]

/-- The document of a report is an object whose only field holds an object for each row in turn, which
records the row. The cells of the row's line are those of the values in the object. Reports whose
documents are equal have the same kinds and columns. -/
theorem toDocument_readBack (r : Report) :
    (∃ objects, Json.ofText? r.toDocument = some (.object [("rows", .array objects)]) ∧
      List.Forall₂ Row.RecordedIn r.rows objects ∧
      objects.map Json.cells? =
        (textLines r.toText).tail.map fun line => some (lineCells line).tail) ∧
      ∀ s : Report, s.toDocument = r.toDocument ↔
        s.rows.map (fun row => (row.kind, row.columns)) =
          r.rows.map fun row => (row.kind, row.columns) := by
  refine ⟨⟨_, r.ofText?_toDocument, ?_, ?_⟩, fun s => ?_⟩
  · rw [List.forall₂_map_right_iff, List.forall₂_same]
    exact fun row _ => row.recordedIn_toJson
  · rw [textLines_toText, List.tail_cons, List.map_map, List.map_map]
    refine List.map_congr_left fun row _ => ?_
    rw [Function.comp_apply, Function.comp_apply, row.cells?_toJson, lineCells_line,
      row.map_escaped_shown, List.tail_cons]
  · rw [toDocument_inj]
    exact map_eq_map_iff fun _ _ => Row.toJson_inj

end Report

end MarketFees
