import MarketFees.Expansion
import MarketFees.Proofs.Sequence

namespace MarketFees

namespace Expansion

def EndsName (rest : List Char) : Prop :=
  ∀ c ∈ rest.head?, isNameChar c = false

/-- How a text reads from the left. -/
inductive Reading : List Char → List Piece → Prop
  | nil : Reading [] []
  | literal {c : Char} {rest : List Char} {parts : List Piece} : c ≠ '$' → Reading rest parts →
      Reading (c :: rest) (.char c :: parts)
  | braced {name rest : List Char} {parts : List Piece} : '\x7d' ∉ name → Reading rest parts →
      Reading ('$' :: '\x7b' :: (name ++ '\x7d' :: rest)) (.reference (.ofList name) :: parts)
  /-- A brace that is not closed takes the rest of the text. -/
  | unclosed {name : List Char} : '\x7d' ∉ name →
      Reading ('$' :: '\x7b' :: name) [.reference (.ofList name)]
  | named {name rest : List Char} {parts : List Piece} : name ≠ [] →
      (∀ c ∈ name, isNameChar c = true) → EndsName rest → Reading rest parts →
      Reading ('$' :: (name ++ rest)) (.reference (.ofList name) :: parts)
  | lone {rest : List Char} {parts : List Piece} : rest.head? ≠ some '\x7b' → EndsName rest →
      Reading rest parts → Reading ('$' :: rest) (.char '$' :: parts)

theorem isNameChar_brace : isNameChar '\x7b' = false := by
  decide +kernel

theorem forall_ne_of_not_mem {name : List Char} (h : '\x7d' ∉ name) :
    ∀ c ∈ name, (c != '\x7d') = true := by
  intro c hc
  rw [bne_iff_ne]
  rintro rfl
  exact h hc

theorem pieces_literal {c : Char} (hc : c ≠ '$') (rest : List Char) :
    pieces (c :: rest) = .char c :: pieces rest := by
  rw [pieces]
  · exact fun _ h _ => hc h
  · exact hc

theorem pieces_braced {name : List Char} (h : '\x7d' ∉ name) (rest : List Char) :
    pieces ('$' :: '\x7b' :: (name ++ '\x7d' :: rest)) = .reference (.ofList name) :: pieces rest := by
  have hname := forall_ne_of_not_mem h
  rw [pieces, takeWhile_run hname (by simp), dropWhile_run hname (by simp)]
  rfl

theorem pieces_unclosed {name : List Char} (h : '\x7d' ∉ name) :
    pieces ('$' :: '\x7b' :: name) = [.reference (.ofList name)] := by
  have hname := forall_ne_of_not_mem h
  have htake : (name ++ []).takeWhile (· != '\x7d') = name := takeWhile_run hname (by simp)
  have hdrop : (name ++ []).dropWhile (· != '\x7d') = [] := dropWhile_run hname (by simp)
  rw [List.append_nil] at htake hdrop
  rw [pieces, htake, hdrop, List.drop_nil, pieces]

theorem pieces_dollar {rest : List Char} (h : rest.head? ≠ some '\x7b') :
    pieces ('$' :: rest) =
      if (rest.takeWhile isNameChar).isEmpty then .char '$' :: pieces rest
      else .reference (.ofList (rest.takeWhile isNameChar)) :: pieces (rest.dropWhile isNameChar) := by
  rw [pieces]
  rintro rest rfl
  exact h rfl

theorem pieces_named {name rest : List Char} (hne : name ≠ []) (hname : ∀ c ∈ name, isNameChar c = true)
    (hrest : EndsName rest) :
    pieces ('$' :: (name ++ rest)) = .reference (.ofList name) :: pieces rest := by
  have hhead : (name ++ rest).head? ≠ some '\x7b' := by
    cases name with
    | nil => exact (hne rfl).elim
    | cons c name =>
      intro h
      obtain rfl := Option.some.inj h
      have hc := hname _ (List.mem_cons_self ..)
      rw [isNameChar_brace] at hc
      cases hc
  rw [pieces_dollar hhead, takeWhile_run hname hrest, dropWhile_run hname hrest, if_neg]
  rwa [List.isEmpty_iff]

theorem pieces_lone {rest : List Char} (hbrace : rest.head? ≠ some '\x7b') (hrest : EndsName rest) :
    pieces ('$' :: rest) = .char '$' :: pieces rest := by
  have htake : ([] ++ rest).takeWhile isNameChar = [] := takeWhile_run (by simp) hrest
  rw [List.nil_append] at htake
  rw [pieces_dollar hbrace, htake]
  rfl

theorem Reading.eq_pieces {text : List Char} {parts : List Piece} (h : Reading text parts) :
    parts = pieces text := by
  induction h with
  | nil => rw [pieces]
  | literal hc _ ih => rw [pieces_literal hc, ih]
  | braced hname _ ih => rw [pieces_braced hname, ih]
  | unclosed hname => rw [pieces_unclosed hname]
  | named hne hname hrest _ ih => rw [pieces_named hne hname hrest, ih]
  | lone hbrace hrest _ ih => rw [pieces_lone hbrace hrest, ih]

theorem head?_dropWhile {p : Char → Bool} {text : List Char} :
    ∀ c ∈ (text.dropWhile p).head?, p c = false := by
  intro c hc
  have hnot := List.head?_dropWhile_not p text
  rw [Option.mem_def.1 hc] at hnot
  exact hnot

theorem brace_cases (text : List Char) : ∃ name, '\x7d' ∉ name ∧
    (text = name ∨ text = name ++ '\x7d' :: (text.dropWhile (· != '\x7d')).drop 1) := by
  have hsplit := List.takeWhile_append_dropWhile (p := (· != '\x7d')) (l := text)
  have hname : ∀ c ∈ text.takeWhile (· != '\x7d'), (c != '\x7d') = true :=
    List.all_eq_true.1 List.all_takeWhile
  refine ⟨text.takeWhile (· != '\x7d'), fun h => ?_, ?_⟩
  · cases hname _ h
  · cases hdrop : text.dropWhile (· != '\x7d') with
    | nil =>
      rw [hdrop, List.append_nil] at hsplit
      exact .inl hsplit.symm
    | cons c rest =>
      have hc : (c != '\x7d') = false := head?_dropWhile c (by rw [hdrop]; rfl)
      obtain rfl : c = '\x7d' := by simpa using hc
      rw [hdrop] at hsplit
      exact .inr hsplit.symm

theorem reading_pieces (text : List Char) : Reading text (pieces text) := by
  induction text using pieces.induct with
  | case1 =>
    rw [pieces]
    exact .nil
  | case2 rest _ ih =>
    obtain ⟨name, hname, hrest | hrest⟩ := brace_cases rest
    · rw [hrest, pieces_unclosed hname]
      exact .unclosed hname
    · rw [hrest, pieces_braced hname]
      exact .braced hname ih
  | case3 rest hbrace _ name hempty ih =>
    have hhead : rest.head? ≠ some '\x7b' := fun h => hbrace _ (List.eq_cons_of_mem_head? h)
    have hrest : EndsName rest := by
      have hnone : rest.takeWhile isNameChar = [] := List.isEmpty_iff.1 hempty
      have hsplit := List.takeWhile_append_dropWhile (p := isNameChar) (l := rest)
      rw [hnone, List.nil_append] at hsplit
      rw [← hsplit]
      exact head?_dropWhile
    rw [pieces_lone hhead hrest]
    exact .lone hhead hrest ih
  | case4 rest hbrace _ name hne ih =>
    rw [List.isEmpty_iff] at hne
    have hname : ∀ c ∈ rest.takeWhile isNameChar, isNameChar c = true :=
      List.all_eq_true.1 List.all_takeWhile
    have hsplit := List.takeWhile_append_dropWhile (p := isNameChar) (l := rest)
    rw [← hsplit, pieces_named hne hname head?_dropWhile]
    exact .named hne hname head?_dropWhile ih
  | case5 c rest _ hc ih =>
    rw [pieces_literal hc]
    exact .literal hc ih

def Piece.shown (env : Environment) : Piece → List Char
  | .char c => [c]
  | .reference name => ((env.value? name).getD "").toList

def Piece.missing? (env : Environment) : Piece → Option String
  | .char _ => none
  | .reference name => if (env.value? name).isSome then none else some name

variable {env env' : Environment}

theorem Piece.value_eq (part : Piece) :
    part.value env = (part.missing? env).elim (.ok (part.shown env)) (.error ∘ id) := by
  cases part with
  | char c => rfl
  | reference name =>
    rw [Piece.value, Piece.missing?, Piece.shown]
    cases env.value? name <;> rfl

theorem Piece.value_congr {part : Piece}
    (h : ∀ name, part = .reference name → env'.value? name = env.value? name) :
    part.value env' = part.value env := by
  cases part with
  | char c => rfl
  | reference name => rw [Piece.value, Piece.value, h name rfl]

end Expansion

open Expansion

/-- A text expands to what its parts expand to, or is refused for the first variable that is not set. -/
theorem Environment.expand_eq (env : Environment) (text : String) :
    env.expand text = ((pieces text.toList).findSome? (·.missing? env)).elim
      (.ok (.ofList ((pieces text.toList).flatMap (·.shown env)))) .error := by
  rw [expand, mapM_congr fun part _ => part.value_eq, mapM_elim]
  cases (pieces text.toList).findSome? (·.missing? env) <;> rfl

theorem Environment.expand_congr {env env' : Environment} {text : String}
    (h : ∀ name, .reference name ∈ pieces text.toList → env'.value? name = env.value? name) :
    env'.expand text = env.expand text := by
  have hvalues : (pieces text.toList).mapM (·.value env') = (pieces text.toList).mapM (·.value env) := by
    apply mapM_congr
    intro part hpart
    apply Piece.value_congr
    rintro name rfl
    exact h name hpart
  rw [expand, expand, hvalues]

/-- Every text reads in one way. It expands to its characters and the values of its references as they
are, unless one of these is not set: then the first such name is the error. Other variables make no
difference. -/
theorem Environment.expand_reading (env : Environment) (text : String) :
    ∃ parts, Reading text.toList parts ∧ (∀ other, Reading text.toList other → other = parts) ∧
      env.expand text = (parts.findSome? (·.missing? env)).elim
        (.ok (.ofList (parts.flatMap (·.shown env)))) .error ∧
      ∀ env' : Environment, (∀ name, .reference name ∈ parts → env'.value? name = env.value? name) →
        env'.expand text = env.expand text :=
  ⟨pieces text.toList, reading_pieces _, fun _ => Reading.eq_pieces, env.expand_eq text,
    fun _ => expand_congr⟩

example :
    let env : Environment := ⟨[("A", "$B"), ("B", "7")]⟩
    env.expand "$\x7bA\x7d\x7d$\x7bB" = .ok "$B\x7d7" ∧
      env.expand "$\x7bC\x7d$\x7bD\x7d" = .error "C" := by
  cbv

end MarketFees
