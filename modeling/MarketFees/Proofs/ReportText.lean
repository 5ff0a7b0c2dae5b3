import Mathlib.Data.List.Infix
import MarketFees.Proofs.DecimalText
import MarketFees.Proofs.Sequence
import MarketFees.Report.Text

namespace MarketFees

namespace Text

/-- The parts of a text between the occurrences of a separator, each the first from the left after the
one before. -/
def partsBetween (separator : List Char) : List Char → List (List Char)
  | [] => [[]]
  | c :: rest =>
    if separator.isPrefixOf (c :: rest) then
      [] :: partsBetween separator (rest.drop (separator.length - 1))
    else (partsBetween separator rest).modifyHead (c :: ·)
termination_by text => text.length
decreasing_by
  · rw [List.length_drop, List.length_cons]
    omega
  · exact Nat.lt_succ_self _

end Text

namespace Field

def unescaped : List Char → List Char
  | '\\' :: '\\' :: rest => '\\' :: unescaped rest
  | '\\' :: '|' :: rest => '|' :: unescaped rest
  | '\\' :: 'n' :: rest => '\n' :: unescaped rest
  | '\\' :: 'r' :: rest => '\r' :: unescaped rest
  | c :: rest => c :: unescaped rest
  | [] => []

/-- The text of a cell before it was escaped. -/
def unescape (cell : String) : String :=
  .ofList (unescaped cell.toList)

def escaped (text : String) : String :=
  .ofList (text.toList.flatMap escape)

/-- What the cell of a field shows. -/
def shown : Field → String
  | .missing => ""
  | .flag true => "yes"
  | .flag false => "no"
  | .text value => value

/-- A character stands for itself, or for a backslash and a mark that is read back as it. -/
theorem escape_cases (c : Char) :
    (escape c = [c] ∧ c ≠ '\\' ∧ c ≠ '|' ∧ c ≠ '\n') ∨
      ∃ mark, escape c = ['\\', mark] ∧ mark ≠ ' ' ∧ mark ≠ '\n' ∧
        ∀ rest, unescaped ('\\' :: mark :: rest) = c :: unescaped rest := by
  by_cases hslash : c = '\\'
  · subst hslash
    exact .inr ⟨'\\', rfl, by decide, by decide, fun _ => rfl⟩
  by_cases hbar : c = '|'
  · subst hbar
    exact .inr ⟨'|', rfl, by decide, by decide, fun _ => rfl⟩
  by_cases hbreak : c = '\n'
  · subst hbreak
    exact .inr ⟨'n', rfl, by decide, by decide, fun _ => rfl⟩
  by_cases hreturn : c = '\r'
  · subst hreturn
    exact .inr ⟨'r', rfl, by decide, by decide, fun _ => rfl⟩
  exact .inl ⟨by simp [escape], hslash, hbar, hbreak⟩

theorem unescaped_cons {c : Char} (h : c ≠ '\\') (rest : List Char) :
    unescaped (c :: rest) = c :: unescaped rest := by
  rw [unescaped] <;> simp [h]

theorem unescaped_flatMap_escape (text : List Char) : unescaped (text.flatMap escape) = text := by
  induction text with
  | nil => rfl
  | cons c text ih =>
    rw [List.flatMap_cons]
    obtain ⟨hself, hslash, -⟩ | ⟨mark, hmark, -, -, hread⟩ := escape_cases c
    · rw [hself, List.singleton_append, unescaped_cons hslash, ih]
    · rw [hmark, List.cons_append, List.singleton_append, hread, ih]

theorem unescape_escaped (text : String) : unescape (escaped text) = text := by
  rw [unescape, escaped, String.toList_ofList, unescaped_flatMap_escape, String.ofList_toList]

theorem cell_eq (field : Field) : field.cell = escaped field.shown := by
  cases field with
  | missing => rfl
  | flag value => cases value <;> rfl
  | text value => rfl

theorem break_not_mem_escape (text : List Char) : '\n' ∉ text.flatMap escape := by
  intro h
  obtain ⟨c, -, hc⟩ := List.mem_flatMap.1 h
  obtain ⟨hself, -, -, hbreak⟩ | ⟨mark, hmark, -, hbreak, -⟩ := escape_cases c
  · rw [hself, List.mem_singleton] at hc
    exact hbreak hc.symm
  · rw [hmark, List.mem_pair] at hc
    obtain hc | hc := hc
    · exact absurd hc (by decide)
    · exact hbreak hc.symm

theorem head?_flatMap_escape (text : List Char) : (text.flatMap escape).head? ≠ some '|' := by
  cases text with
  | nil => simp
  | cons c text =>
    rw [List.flatMap_cons]
    obtain ⟨hself, -, hbar, -⟩ | ⟨mark, hmark, -⟩ := escape_cases c
    · rw [hself]
      simpa using hbar
    · rw [hmark]
      simp

/-- In escaped text no bar follows a blank. -/
theorem bar_not_infix_escape (text : List Char) : ¬[' ', '|'] <:+: text.flatMap escape := by
  induction text with
  | nil => simp
  | cons c text ih =>
    have hbar := head?_flatMap_escape text
    rw [List.flatMap_cons]
    obtain ⟨hself, -⟩ | ⟨mark, hmark, hblank, -⟩ := escape_cases c
    · rw [hself, List.singleton_append, List.infix_cons_iff]
      rintro (hhere | hlater)
      · obtain ⟨rest, hrest⟩ := (List.cons_prefix_cons.1 hhere).2
        exact hbar (by rw [← hrest]; rfl)
      · exact ih hlater
    · rw [hmark, List.cons_append, List.singleton_append, List.infix_cons_iff, List.infix_cons_iff]
      rintro (hhere | hnext | hlater)
      · exact absurd (List.cons_prefix_cons.1 hhere).1 (by decide)
      · exact hblank (List.cons_prefix_cons.1 hnext).1.symm
      · exact ih hlater

end Field

theorem RowKind.escaped_label (kind : RowKind) : Field.escaped kind.label = kind.label := by
  rcases kind with _ | _ | _ | _ <;> rfl

namespace Row

def shown (row : Row) : List String :=
  row.kind.label :: row.columns.fields.map (·.2.shown)

theorem map_escaped_shown (row : Row) :
    row.shown.map Field.escaped = row.kind.label :: row.columns.fields.map (·.2.cell) := by
  rw [shown, List.map_cons, row.kind.escaped_label, List.map_map]
  exact congrArg _ (List.map_congr_left fun field _ => field.2.cell_eq.symm)

end Row

namespace Report

def textLines (text : String) : List String :=
  (text.toList.splitOn '\n').map .ofList

/-- The cells of a line. -/
def lineCells (line : String) : List String :=
  (Text.partsBetween separator.toList line.toList).map .ofList

/-- A text that ends no line and that holds no part of what stands between two cells. -/
structure FitsCell (text : String) : Prop where
  noBreak : '\n' ∉ text.toList
  noBar : ¬[' ', '|'] <:+: text.toList

theorem fitsCell_name : ∀ name ∈ "row" :: Columns.names, FitsCell name := by
  have hnames : ∀ name ∈ "row" :: Columns.names,
      '\n' ∉ name.toList ∧ ¬[' ', '|'] <:+: name.toList := by
    decide +kernel
  exact fun name hname => ⟨(hnames name hname).1, (hnames name hname).2⟩

theorem fitsCell_escaped (text : String) : FitsCell (Field.escaped text) := by
  constructor
  · rw [Field.escaped, String.toList_ofList]
    exact Field.break_not_mem_escape _
  · rw [Field.escaped, String.toList_ofList]
    exact Field.bar_not_infix_escape _

theorem fitsCell_shown (row : Row) : ∀ cell ∈ row.shown.map Field.escaped, FitsCell cell := by
  intro cell hcell
  obtain ⟨text, -, rfl⟩ := List.mem_map.1 hcell
  exact fitsCell_escaped text

theorem partsBetween_append {cell rest : List Char} (h : ¬[' ', '|'] <:+: cell)
    (hrest : rest.head? ≠ some '|') :
    Text.partsBetween separator.toList (cell ++ rest) =
      (Text.partsBetween separator.toList rest).modifyHead (cell ++ ·) := by
  induction cell with
  | nil =>
    rw [List.nil_append]
    cases Text.partsBetween separator.toList rest <;> rfl
  | cons c cell ih =>
    rw [List.infix_cons_iff, not_or] at h
    have hhead : ¬separator.toList.isPrefixOf (c :: (cell ++ rest)) := by
      rw [List.isPrefixOf_iff_prefix]
      intro hfound
      obtain ⟨rfl, hbar⟩ := List.cons_prefix_cons.1 hfound
      -- The bar of a separator that starts here is the head of the rest, or it is in the cell.
      cases cell with
      | nil =>
        obtain ⟨after, hafter⟩ := hbar
        exact hrest (by rw [← List.nil_append rest, ← hafter]; rfl)
      | cons d cell =>
        obtain ⟨rfl, -⟩ := List.cons_prefix_cons.1 hbar
        exact h.1 ⟨cell, rfl⟩
    rw [List.cons_append, Text.partsBetween, if_neg hhead, ih h.2, List.modifyHead_modifyHead]
    rfl

theorem partsBetween_separator (rest : List Char) :
    Text.partsBetween separator.toList (separator.toList ++ rest) =
      [] :: Text.partsBetween separator.toList rest := by
  have hseparator : separator.toList = [' ', '|', ' '] := rfl
  rw [hseparator, List.cons_append, Text.partsBetween, if_pos]
  · rfl
  · rw [List.isPrefixOf_iff_prefix]
    exact ⟨rest, rfl⟩

theorem partsBetween_intercalate {parts : List (List Char)} (h : ∀ part ∈ parts, ¬[' ', '|'] <:+: part)
    (hne : parts ≠ []) :
    Text.partsBetween separator.toList (separator.toList.intercalate parts) = parts := by
  induction parts with
  | nil => exact (hne rfl).elim
  | cons part parts ih =>
    obtain ⟨hpart, hparts⟩ := List.forall_mem_cons.1 h
    cases parts with
    | nil =>
      have hend : ([] : List Char).head? ≠ some '|' := by simp
      have hlast := partsBetween_append hpart hend
      rw [List.append_nil, Text.partsBetween, List.modifyHead_cons, List.append_nil] at hlast
      rw [List.intercalate_singleton, hlast]
    | cons next parts =>
      have hrest (text : List Char) : (separator.toList ++ text).head? ≠ some '|' := by
        have hseparator : separator.toList = [' ', '|', ' '] := rfl
        simp [hseparator]
      rw [List.intercalate_cons_cons, List.append_assoc, partsBetween_append hpart (hrest _),
        partsBetween_separator, List.modifyHead_cons, List.append_nil, ih hparts (by simp)]

theorem lineCells_intercalate {parts : List String} (h : ∀ part ∈ parts, FitsCell part)
    (hne : parts ≠ []) : lineCells (separator.intercalate parts) = parts := by
  have hbar : ∀ part ∈ parts.map String.toList, ¬[' ', '|'] <:+: part :=
    List.forall_mem_map.2 fun part hpart => (h part hpart).noBar
  rw [lineCells, String.toList_intercalate, partsBetween_intercalate hbar (by simpa using hne),
    List.map_map]
  exact List.map_id'' (fun part => String.ofList_toList) _

theorem break_not_mem_intercalate {parts : List String} (h : ∀ part ∈ parts, FitsCell part) :
    '\n' ∉ (separator.intercalate parts).toList := by
  have hseparator : '\n' ∉ separator.toList := by decide
  rw [String.toList_intercalate]
  induction parts with
  | nil => simp
  | cons part parts ih =>
    obtain ⟨hpart, hparts⟩ := List.forall_mem_cons.1 h
    cases parts with
    | nil =>
      rw [List.map_singleton, List.intercalate_singleton]
      exact hpart.noBreak
    | cons next parts =>
      rw [List.map_cons, List.map_cons, List.intercalate_cons_cons, List.mem_append, List.mem_append]
      rintro ((hmem | hmem) | hmem)
      · exact hpart.noBreak hmem
      · exact hseparator hmem
      · exact ih hparts hmem

theorem textLines_toText (r : Report) : textLines r.toText = header :: r.rows.map Row.line := by
  have hbreak : ∀ line ∈ (header :: r.rows.map Row.line).map String.toList, '\n' ∉ line := by
    rw [List.forall_mem_map]
    refine List.forall_mem_cons.2 ⟨break_not_mem_intercalate fitsCell_name, fun line hline => ?_⟩
    obtain ⟨row, -, rfl⟩ := List.mem_map.1 hline
    rw [Row.line, ← row.map_escaped_shown]
    exact break_not_mem_intercalate (fitsCell_shown row)
  have hseparator : "\n".toList = ['\n'] := rfl
  rw [textLines, toText, String.toList_intercalate, hseparator,
    List.splitOn_intercalate '\n' hbreak (by simp), List.map_map]
  exact List.map_id'' (fun line => String.ofList_toList) _

theorem lineCells_header : lineCells header = "row" :: Columns.names :=
  lineCells_intercalate fitsCell_name (by simp)

theorem lineCells_line (row : Row) : lineCells row.line = row.shown.map Field.escaped := by
  rw [Row.line, ← row.map_escaped_shown]
  exact lineCells_intercalate (fitsCell_shown row) (by simp [Row.shown])

end Report

namespace Field

@[simp]
theorem shown_ofText (value : Option String) : (ofText value).shown = value.getD "" := by
  cases value <;> rfl

@[simp]
theorem shown_ofFlag_inj {a b : Option Bool} : (ofFlag a).shown = (ofFlag b).shown ↔ a = b := by
  rcases a with _ | _ | _ <;> rcases b with _ | _ | _ <;> simp [ofFlag, shown]

@[simp]
theorem shown_ofDecimal_inj {a b : Decimal} : (ofDecimal a).shown = (ofDecimal b).shown ↔ a = b :=
  Decimal.toText_inj

@[simp]
theorem shown_ofDecimal?_inj {a b : Option Decimal} :
    (a.elim missing ofDecimal).shown = (b.elim missing ofDecimal).shown ↔ a = b := by
  cases a with
  | none =>
    cases b with
    | none => simp
    | some b => simp [shown, ofDecimal, b.toText_ne_empty.symm]
  | some a =>
    cases b with
    | none => simp [shown, ofDecimal, a.toText_ne_empty]
    | some b => simp

end Field

theorem RowKind.label_inj {a b : RowKind} : a.label = b.label ↔ a = b := by
  rcases a with _ | _ | _ | _ <;> rcases b with _ | _ | _ | _ <;> decide

theorem Totals.eq_iff {a b : Totals} :
    a = b ↔ a.exclTax = b.exclTax ∧ a.tax = b.tax ∧ a.inclTax = b.inclTax := by
  cases a
  cases b
  simp

namespace Columns

/-- The columns with empty texts in place of missing ones. -/
def filled (c : Columns) : Columns :=
  { c with
    distributor := some (c.distributor.getD "")
    producer := some (c.producer.getD "")
    cycle := some (c.cycle.getD "")
    feeName := some (c.feeName.getD "")
    feeType := some (c.feeType.getD "")
    feeOwner := some (c.feeOwner.getD "")
    taxCategory := some (c.taxCategory.getD "")
    taxRateName := some (c.taxRateName.getD "") }

theorem shown_eq_iff {c d : Columns} :
    c.fields.map (·.2.shown) = d.fields.map (·.2.shown) ↔ c.filled = d.filled := by
  simp [fields, filled, Totals.eq_iff]

end Columns

theorem Row.shown_eq_iff {a b : Row} :
    a.shown = b.shown ↔ (a.kind, a.columns.filled) = (b.kind, b.columns.filled) := by
  rw [shown, shown, List.cons.injEq, RowKind.label_inj, Columns.shown_eq_iff, Prod.mk.injEq]

namespace Report

/-- The texts in the cells of a text, line by line and without their escapes. -/
def table (text : String) : List (List String) :=
  (textLines text).map fun line => (lineCells line).map Field.unescape

theorem table_toText (r : Report) :
    table r.toText = ("row" :: Columns.names) :: r.rows.map Row.shown := by
  have hnames : ("row" :: Columns.names).map Field.unescape = "row" :: Columns.names := by
    decide +kernel
  have hrow (row : Row) : (lineCells row.line).map Field.unescape = row.shown := by
    rw [lineCells_line, List.map_map]
    exact List.map_id'' Field.unescape_escaped _
  rw [table, textLines_toText, List.map_cons, lineCells_header, hnames, List.map_map]
  exact congrArg _ (List.map_congr_left fun row _ => hrow row)

theorem toText_eq_iff {r s : Report} :
    s.toText = r.toText ↔ s.rows.map Row.shown = r.rows.map Row.shown := by
  constructor
  · intro h
    have htable := congrArg table h
    rw [table_toText, table_toText] at htable
    exact List.tail_eq_of_cons_eq htable
  · intro h
    have hlines (r : Report) : r.rows.map Row.line =
        (r.rows.map Row.shown).map fun shown => separator.intercalate (shown.map Field.escaped) := by
      rw [List.map_map]
      refine List.map_congr_left fun row _ => ?_
      rw [Function.comp_apply, row.map_escaped_shown, Row.line]
    rw [toText, toText, hlines, hlines, h]

/-- The text of a report has a line of column names and a line for each row. Every line has fourteen
cells, and without their escapes these are the label of the row and its columns. Reports whose texts
are equal differ at most in what is missing and what is empty. -/
theorem toText_readBack (r : Report) :
    (textLines r.toText).length = r.rows.length + 1 ∧
      (∀ line ∈ textLines r.toText, (lineCells line).length = 14) ∧
      (textLines r.toText).map (fun line => (lineCells line).map Field.unescape) =
        ("row" :: Columns.names) :: r.rows.map Row.shown ∧
      ∀ s : Report, s.toText = r.toText ↔
        s.rows.map (fun row => (row.kind, row.columns.filled)) =
          r.rows.map fun row => (row.kind, row.columns.filled) := by
  refine ⟨?_, ?_, r.table_toText, fun s => ?_⟩
  · rw [textLines_toText, List.length_cons, List.length_map]
  · rw [textLines_toText]
    refine List.forall_mem_cons.2 ⟨by rw [lineCells_header]; rfl, fun line hline => ?_⟩
    obtain ⟨row, -, rfl⟩ := List.mem_map.1 hline
    rw [lineCells_line, List.length_map]
    rfl
  · rw [toText_eq_iff]
    exact map_eq_map_iff fun _ _ => Row.shown_eq_iff

end Report

end MarketFees
