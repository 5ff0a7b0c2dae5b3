import Mathlib.Data.List.DropRight
import Mathlib.Data.List.Forall2
import MarketFees.Proofs.Json.Tokens

namespace MarketFees.Json

/-- Every string in the value, keys included, is a text. -/
inductive Whole : Json → Prop
  | null : Whole .null
  | bool (value : Bool) : Whole (.bool value)
  | number (n : Number) : Whole (.number n)
  | string (text : String) : Whole (.string text)
  | array {items : List Json} (h : ∀ item ∈ items, Whole item) : Whole (.array items)
  | object {fields : List (String × Json)} (h : ∀ field ∈ fields, Whole field.2) :
    Whole (.object fields)

namespace Printer

theorem values_eq_map (layout : Layout) (depth : Nat) (items : List Json) :
    values layout depth items = items.map (value layout depth) := by
  induction items with
  | nil => rfl
  | cons item items ih => rw [values, ih, List.map_cons]

def member (layout : Layout) (depth : Nat) (field : String × Json) : List Char :=
  quoted field.1 ++ colon layout ++ value layout depth field.2

theorem members_eq_map (layout : Layout) (depth : Nat) (fields : List (String × Json)) :
    members layout depth fields = fields.map (member layout depth) := by
  induction fields with
  | nil => rfl
  | cons field fields ih => rw [members, ih, List.map_cons, member]

theorem bracketed_eq {layout : Layout} {depth : Nat} {opening closing : Char}
    {parts : List (List Char)} (h : parts ≠ []) :
    bracketed layout depth opening closing parts =
      opening :: (List.intercalate [','] (parts.map (lineBreak layout (depth + 1) ++ ·)) ++
        (lineBreak layout depth ++ [closing])) := by
  have hbreaks (part : List Char) (parts : List (List Char)) :
      lineBreak layout (depth + 1) ++
          List.intercalate (',' :: lineBreak layout (depth + 1)) (part :: parts) =
        List.intercalate [','] ((part :: parts).map (lineBreak layout (depth + 1) ++ ·)) := by
    induction parts generalizing part with
    | nil => simp
    | cons next parts ih =>
      rw [List.map_cons, List.map_cons, List.intercalate_cons_cons, List.intercalate_cons_cons,
        ← List.map_cons, ← ih]
      simp
  cases parts with
  | nil => exact (h rfl).elim
  | cons part parts =>
    rw [← hbreaks, bracketed]
    · simp
    · simp

theorem exists_bracketed_eq (layout : Layout) (depth : Nat) (opening closing : Char)
    (parts : List (List Char)) :
    ∃ text, bracketed layout depth opening closing parts = opening :: text := by
  cases parts <;> exact ⟨_, rfl⟩

theorem exists_value_eq (layout : Layout) (depth : Nat) (j : Json) : ∃ c text,
    value layout depth j = c :: text ∧ Reader.isBlank c = false := by
  cases j with
  | null => exact ⟨_, _, rfl, by decide⟩
  | bool b => cases b <;> exact ⟨_, _, rfl, by decide⟩
  | number n =>
    obtain ⟨c, text, hchars, hc⟩ := n.exists_chars_eq
    refine ⟨c, text, hchars, ?_⟩
    obtain rfl | hc := hc
    · decide
    · simp [Reader.isBlank, Text.ne_of_isDigit hc]
  | string text => exact ⟨_, _, rfl, by decide⟩
  | array items =>
    obtain ⟨text, htext⟩ :=
      exists_bracketed_eq layout depth '[' ']' (values layout (depth + 1) items)
    exact ⟨_, text, htext, by decide⟩
  | object fields =>
    obtain ⟨text, htext⟩ :=
      exists_bracketed_eq layout depth '\x7b' '\x7d' (members layout (depth + 1) fields)
    exact ⟨_, text, htext, by decide⟩
  | halfPair => exact ⟨_, _, rfl, by decide⟩

end Printer

namespace Reader

theorem skipBlanks_lineBreak (layout : Layout) (depth : Nat) (text : List Char) :
    skipBlanks (Printer.lineBreak layout depth ++ text) = skipBlanks text := by
  cases layout with
  | compact => rfl
  | indented =>
    refine List.dropWhile_append_of_pos fun c hc => ?_
    obtain rfl | hc := List.mem_cons.1 hc
    · rfl
    · rw [List.eq_of_mem_replicate hc]
      rfl

theorem ends_lineBreak {layout : Layout} {depth : Nat} {closing : Char} {rest : List Char}
    (h : Ends (closing :: rest)) : Ends (Printer.lineBreak layout depth ++ closing :: rest) := by
  cases layout with
  | compact => exact h
  | indented =>
    intro c hc
    obtain rfl : '\n' = c := by simpa [Printer.lineBreak] using hc
    decide

/-- One step of reading a list: a comma follows every part but the last, and the closing bracket
follows that. -/
structure Steps (part : List Char → Option (α × List Char)) (closing : Char)
    (read : Nat → List Char → Option (List α × List Char)) : Prop where
  last {fuel : Nat} {text after rest : List Char} {a : α} (hpart : part text = some (a, after))
    (hafter : skipBlanks after = closing :: rest) : read (fuel + 1) text = some ([a], rest)
  more {fuel : Nat} {text after others rest : List Char} {a : α} {as : List α}
    (hpart : part text = some (a, after)) (hafter : skipBlanks after = ',' :: others)
    (hothers : read fuel others = some (as, rest)) : read (fuel + 1) text = some (a :: as, rest)

theorem items_steps (item : List Char → Option (Json × List Char)) :
    Steps (item ∘ skipBlanks) ']' (items item) where
  last hpart hafter := by
    rw [Function.comp_apply] at hpart
    simp [items, hpart, hafter]
  more hpart hafter hothers := by
    rw [Function.comp_apply] at hpart
    simp [items, hpart, hafter, hothers]

theorem fields_steps (value : List Char → Option (Json × List Char)) :
    Steps (field value) '\x7d' (fields value) where
  last hpart hafter := by simp [fields, hpart, hafter]
  more hpart hafter hothers := by simp [fields, hpart, hafter, hothers]

/-- What is written is read to its end, in a text of no more than `bound` characters. -/
def Reads (read : List Char → Option (α × List Char)) (bound : Nat) (written : List Char) (a : α) :
    Prop :=
  ∀ rest, Ends rest → (written ++ rest).length ≤ bound → read (written ++ rest) = some (a, rest)

section

variable {part : List Char → Option (α × List Char)} {closing : Char}
  {read : Nat → List Char → Option (List α × List Char)} {bound fuel : Nat}
  {parts : List (List Char)} {contents : List α} {rest : List Char}

/-- Parts with commas between them are read in turn. -/
theorem Steps.read_intercalate (hsteps : Steps part closing read)
    (hparts : List.Forall₂ (Reads part bound) parts contents) (hne : parts ≠ [])
    {gap : List Char} (hgap : Ends (gap ++ closing :: rest))
    (hclosing : skipBlanks (gap ++ closing :: rest) = closing :: rest)
    (hbound : (List.intercalate [','] parts ++ (gap ++ closing :: rest)).length ≤ bound)
    (hfuel : (List.intercalate [','] parts ++ (gap ++ closing :: rest)).length ≤ fuel) :
    read fuel (List.intercalate [','] parts ++ (gap ++ closing :: rest)) = some (contents, rest) := by
  induction hparts generalizing fuel with
  | nil => exact (hne rfl).elim
  | @cons part₁ a parts contents hpart hparts ih =>
    obtain ⟨fuel, rfl⟩ : ∃ n, fuel = n + 1 := by
      refine Nat.exists_eq_succ_of_ne_zero ?_
      rintro rfl
      simp at hfuel
    cases hparts with
    | nil =>
      rw [List.intercalate_singleton] at hbound ⊢
      exact hsteps.last (hpart _ hgap hbound) hclosing
    | @cons part₂ b parts contents hpart₂ hparts =>
      have hcomma (text : List Char) : Ends (',' :: text) := by
        intro c hc
        obtain rfl : ',' = c := by simpa using hc
        decide
      rw [List.intercalate_cons_cons, List.append_assoc, List.append_assoc, List.singleton_append]
        at hbound hfuel ⊢
      have hothers := @ih fuel (by simp) (by simp at hbound ⊢; omega) (by simp at hfuel ⊢; omega)
      exact hsteps.more (hpart _ (hcomma _) hbound) (by simp [skipBlanks, isBlank]) hothers

theorem Steps.exists_read (hsteps : Steps part closing read)
    (hclosing : ∀ text, Ends (closing :: text) ∧ isBlank closing = false) {layout : Layout}
    {depth : Nat}
    (hparts : List.Forall₂ (Reads part bound) (parts.map (Printer.lineBreak layout (depth + 1) ++ ·))
      contents)
    (hne : parts ≠ []) {opening : Char}
    (hbound : (Printer.bracketed layout depth opening closing parts ++ rest).length ≤ bound + 1)
    (hfuel : bound ≤ fuel) :
    ∃ text, Printer.bracketed layout depth opening closing parts ++ rest = opening :: text ∧
      read fuel text = some (contents, rest) := by
  have htext : Printer.bracketed layout depth opening closing parts ++ rest = opening ::
      (List.intercalate [','] (parts.map (Printer.lineBreak layout (depth + 1) ++ ·)) ++
        (Printer.lineBreak layout depth ++ closing :: rest)) := by
    simp [Printer.bracketed_eq hne]
  rw [htext, List.length_cons] at hbound
  refine ⟨_, htext, hsteps.read_intercalate hparts (by simpa using hne)
    (ends_lineBreak (hclosing rest).1) ?_ (by omega) (by omega)⟩
  rw [skipBlanks_lineBreak]
  simp [skipBlanks, (hclosing rest).2]

end

section

variable {fuel bound : Nat} {text rest : List Char}

theorem value_eq_scalar {c : Char} (hc : c ≠ '[' ∧ c ≠ '\x7b') :
    value fuel bound (c :: text) = scalar (c :: text) := by
  cases bound with
  | zero => rfl
  | succ bound => simp [value, hc.1, hc.2]

theorem value_array {contents : List Json}
    (h : items (value fuel bound) fuel text = some (contents, rest)) :
    value fuel (bound + 1) ('[' :: text) = some (.array contents, rest) := by
  have hskip : items (value fuel bound) fuel (skipBlanks text) = some (contents, rest) := by
    rw [← h]
    cases fuel with
    | zero => rfl
    | succ fuel => simp [items, skipBlanks, List.dropWhile_idempotent]
  have hopen (after : List Char) : skipBlanks text ≠ ']' :: after := by
    intro hclose
    cases fuel with
    | zero => simp [items] at h
    | succ fuel =>
      simp [items, hclose, value_eq_scalar, scalar, number, wholePart, digits] at h
  simp [value, hskip]

theorem objectOf_texts (contents : List (String × Json)) :
    objectOf (contents.map fun field => (some field.1, field.2)) = .object contents := by
  have hkeys (key? : Option String × Json → Option (String × Json))
      (h : ∀ key content, key? (some key, content) = some (key, content)) :
      (contents.map fun field => (some field.1, field.2)).mapM key? = some contents := by
    induction contents with
    | nil => rfl
    | cons field contents ih => simp [h, ih]
  rw [objectOf, hkeys _ fun _ _ => rfl]

theorem value_object {contents : List (String × Json)}
    (h : fields (value fuel bound) fuel text =
      some (contents.map fun field => (some field.1, field.2), rest)) :
    value fuel (bound + 1) ('\x7b' :: text) = some (.object contents, rest) := by
  have hskip : fields (value fuel bound) fuel (skipBlanks text) =
      some (contents.map fun field => (some field.1, field.2), rest) := by
    rw [← h]
    cases fuel with
    | zero => rfl
    | succ fuel => simp [fields, field, skipBlanks, List.dropWhile_idempotent]
  have hopen (after : List Char) : skipBlanks text ≠ '\x7d' :: after := by
    intro hclose
    cases fuel with
    | zero => simp [fields] at h
    | succ fuel => simp [fields, field, hclose] at h
  simp [value, hskip, objectOf_texts]

theorem skipBlanks_value (layout : Layout) (depth : Nat) (j : Json) (text : List Char) :
    skipBlanks (Printer.value layout depth j ++ text) = Printer.value layout depth j ++ text := by
  obtain ⟨c, tail, hvalue, hc⟩ := Printer.exists_value_eq layout depth j
  simp [hvalue, skipBlanks, hc]

theorem value_number (n : Number) (hrest : Ends rest) :
    value fuel bound (n.chars ++ rest) = some (.number n, rest) := by
  have hnumber := number_chars n hrest
  obtain ⟨c, text, hchars, hc⟩ := n.exists_chars_eq
  have hne (d : Char) (hd : d.isDigit = false ∧ d ≠ '-') : c ≠ d := by
    rintro rfl
    obtain h | h := hc
    · exact hd.2 h
    · simp [hd.1] at h
  rw [hchars, List.cons_append] at hnumber ⊢
  rw [value_eq_scalar ⟨hne _ (by decide), hne _ (by decide)⟩]
  have hn := hne 'n' (by decide)
  have ht := hne 't' (by decide)
  have hf := hne 'f' (by decide)
  have hquote := hne '"' (by decide)
  simp [scalar, hnumber, hn, ht, hf, hquote]

variable {layout : Layout} {depth : Nat} {j : Json}

theorem reads_item (h : Reads (value fuel bound) bound (Printer.value layout depth j) j) :
    Reads (value fuel bound ∘ skipBlanks) bound
      (Printer.lineBreak layout depth ++ Printer.value layout depth j) j := by
  intro rest hrest hbound
  rw [Function.comp_apply, List.append_assoc, skipBlanks_lineBreak, skipBlanks_value]
  exact h rest hrest (by simp at hbound ⊢; omega)

theorem reads_field {key : String}
    (h : Reads (value fuel bound) bound (Printer.value layout depth j) j) :
    Reads (field (value fuel bound)) bound
      (Printer.lineBreak layout depth ++ Printer.member layout depth (key, j)) (some key, j) := by
  intro rest hrest hbound
  have htext : Printer.lineBreak layout depth ++ Printer.member layout depth (key, j) ++ rest =
      Printer.lineBreak layout depth ++ '"' :: (key.toList.flatMap Printer.escape ++ '"' ::
        (Printer.colon layout ++ (Printer.value layout depth j ++ rest))) := by
    simp [Printer.member, Printer.quoted]
  rw [htext] at hbound ⊢
  have hread := h rest hrest (by simp at hbound ⊢; omega)
  have hcolon : skipBlanks (Printer.colon layout ++ (Printer.value layout depth j ++ rest)) =
      ':' :: (Printer.colon layout).tail ++ (Printer.value layout depth j ++ rest) := by
    cases layout <;> rfl
  have hvalue : skipBlanks ((Printer.colon layout).tail ++ (Printer.value layout depth j ++ rest)) =
      Printer.value layout depth j ++ rest := by
    cases layout with
    | compact => exact skipBlanks_value ..
    | indented => exact skipBlanks_value ..
  have hquote (text : List Char) : skipBlanks ('"' :: text) = '"' :: text := rfl
  simp [field, skipBlanks_lineBreak, hquote, string_quoted, hcolon, hvalue, hread]

theorem reads_zero {read : List Char → Option (α × List Char)} {a : α} :
    Reads read 0 (Printer.value layout depth j) a := by
  intro rest _ hbound
  obtain ⟨c, text, hvalue, -⟩ := Printer.exists_value_eq layout depth j
  simp [hvalue] at hbound

theorem reads_array (hfuel : bound ≤ fuel) {items : List Json} (h : ∀ item ∈ items,
      Reads (value fuel bound) bound (Printer.value layout (depth + 1) item) item) :
    Reads (value fuel (bound + 1)) (bound + 1) (Printer.value layout depth (.array items))
      (.array items) := by
  intro rest hrest hbound
  rw [Printer.value, Printer.values_eq_map] at hbound ⊢
  obtain rfl | hne := eq_or_ne items []
  · rfl
  · have hparts : List.Forall₂ (Reads (value fuel bound ∘ skipBlanks) bound)
        ((items.map (Printer.value layout (depth + 1))).map
          (Printer.lineBreak layout (depth + 1) ++ ·)) items := by
      rw [List.map_map, List.forall₂_map_left_iff, List.forall₂_same]
      exact fun item hitem => reads_item (h item hitem)
    obtain ⟨text, htext, hread⟩ := (items_steps _).exists_read
      (fun _ => ⟨by simp [Ends], by decide⟩) hparts (by simpa using hne) hbound hfuel
    rw [htext]
    exact value_array hread

theorem reads_object (hfuel : bound ≤ fuel) {contents : List (String × Json)}
    (h : ∀ field ∈ contents,
      Reads (value fuel bound) bound (Printer.value layout (depth + 1) field.2) field.2) :
    Reads (value fuel (bound + 1)) (bound + 1) (Printer.value layout depth (.object contents))
      (.object contents) := by
  intro rest hrest hbound
  rw [Printer.value, Printer.members_eq_map] at hbound ⊢
  obtain rfl | hne := eq_or_ne contents []
  · rfl
  · have hparts : List.Forall₂ (Reads (field (value fuel bound)) bound)
        ((contents.map (Printer.member layout (depth + 1))).map
          (Printer.lineBreak layout (depth + 1) ++ ·))
        (contents.map fun field => (some field.1, field.2)) := by
      rw [List.map_map, List.forall₂_map_left_iff, List.forall₂_map_right_iff, List.forall₂_same]
      exact fun field hfield => reads_field (h field hfield)
    obtain ⟨text, htext, hread⟩ := (fields_steps _).exists_read
      (fun _ => ⟨by simp [Ends], by decide⟩) hparts (by simpa using hne) hbound hfuel
    rw [htext]
    exact value_object hread

end

end Reader

open Reader in
/-- A value is read to its end by a reader that may go as deep as the text is long. -/
theorem Whole.reads {j : Json} (h : j.Whole) {layout : Layout} {depth fuel bound : Nat}
    (hfuel : bound ≤ fuel) : Reads (value fuel bound) bound (Printer.value layout depth j) j := by
  induction h generalizing depth bound with
  | null =>
    intro rest hrest hbound
    rw [Printer.value, List.cons_append, value_eq_scalar (by decide)]
    rfl
  | bool b =>
    intro rest hrest hbound
    cases b <;> (rw [Printer.value, List.cons_append, value_eq_scalar (by decide)]; rfl)
  | number n => exact fun rest hrest _ => value_number n hrest
  | string text =>
    intro rest hrest hbound
    rw [Printer.value, Printer.quoted, List.cons_append, List.cons_append,
      value_eq_scalar (by decide)]
    simp [scalar, string_quoted]
  | array h ih =>
    cases bound with
    | zero => exact reads_zero
    | succ bound =>
      have hbound : bound ≤ fuel := Nat.le_of_succ_le hfuel
      exact reads_array hbound fun item hitem => ih item hitem hbound
  | object h ih =>
    cases bound with
    | zero => exact reads_zero
    | succ bound =>
      have hbound : bound ≤ fuel := Nat.le_of_succ_le hfuel
      exact reads_object hbound fun field hfield => ih field hfield hbound

theorem ofText?_toText {j : Json} (h : j.Whole) (layout : Layout) :
    ofText? (j.toText layout) = some j := by
  have hnothing : Ends [] := by simp [Ends]
  have hread : Reader.value (j.chars layout).length (j.chars layout).length (j.chars layout ++ []) =
      some (j, []) :=
    h.reads (Nat.le_refl _) [] hnothing (Nat.le_of_eq (by rw [chars, List.append_nil]))
  have hskip : Reader.skipBlanks (j.chars layout ++ []) = j.chars layout ++ [] :=
    Reader.skipBlanks_value layout 0 j []
  rw [List.append_nil] at hread hskip
  rw [ofText?, toText, String.toList_ofList, ofChars?, hskip, hread]
  rfl

end MarketFees.Json
