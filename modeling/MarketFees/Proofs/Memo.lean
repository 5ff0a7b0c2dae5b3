import MarketFees.Proofs.Projection

namespace MarketFees.Projection

/-- What can be asked of a catalog that is read with a memo. -/
inductive Question where
  | enterprise (id : EnterpriseId)
  | fee (id : FeeId)
  | taxRate (id : TaxRateId)
  | cycle (id : CycleId)
  | columns (key : GroupKey) (totals : Totals)
  | sortKey (key : GroupKey) (columns : Columns)

inductive Answer where
  | enterprise (found : Option Enterprise)
  | fee (found : Option Fee)
  | taxRate (found : Option TaxRate)
  | cycle (found : Option OrderCycle)
  | columns (columns : Columns)
  | sortKey (position : SortKey)

def ask (catalog : Catalog) : Question → Projection Answer
  | .enterprise id => return .enterprise (← enterprise catalog id)
  | .fee id => return .fee (← fee catalog id)
  | .taxRate id => return .taxRate (← taxRate catalog id)
  | .cycle id => return .cycle (← cycle catalog id)
  | .columns key totals => return .columns (← columns catalog key totals)
  | .sortKey key columns => return .sortKey (← sortKey catalog key columns)

/-- Questions in turn and their answers. A question finds in the memo what those before it have left
there, also where they failed. -/
def answers (catalog : Catalog) : Memo → List Question → List (Question × Except StoreError Answer)
  | _, [] => []
  | memo, question :: rest =>
    let (answer, memo) := (ask catalog question).run memo
    (question, answer) :: answers catalog memo rest

def fresh (catalog : Catalog) (question : Question) : Except StoreError Answer :=
  ((ask catalog question).run ∅).1

variable {catalog : Catalog}

theorem Computes.run_empty {p : Projection α} {r : Except StoreError α} (h : Computes catalog p r) :
    (p.run ∅).1 = r := by
  obtain ⟨memo, hrun, -⟩ := h ∅ (.empty catalog)
  rw [hrun]

theorem Computes.answer {p : Projection α} {r : Except StoreError α} (h : Computes catalog p r)
    (f : α → Answer) : Computes catalog (do return f (← p)) (do return f (← r)) :=
  h.bind fun a _ => .pure (f a)

theorem ask_computes (question : Question) :
    Computes catalog (ask catalog question) (fresh catalog question) := by
  have h : ∃ r, Computes catalog (ask catalog question) r := by
    cases question with
    | enterprise id => exact ⟨_, (enterprise_computes id).answer .enterprise⟩
    | fee id => exact ⟨_, (fee_computes id).answer .fee⟩
    | taxRate id => exact ⟨_, (taxRate_computes id).answer .taxRate⟩
    | cycle id => exact ⟨_, (cycle_computes id).answer .cycle⟩
    | columns key totals => exact ⟨_, (columns_computes key totals).answer .columns⟩
    | sortKey key columns => exact ⟨_, (sortKey_computes key columns).answer .sortKey⟩
  obtain ⟨r, hr⟩ := h
  rw [fresh, hr.run_empty]
  exact hr

theorem answers_eq {memo : Memo} (h : memo.Agrees catalog) (questions : List Question) :
    answers catalog memo questions = questions.map fun q => (q, fresh catalog q) := by
  induction questions generalizing memo with
  | nil => rfl
  | cons question rest ih =>
    obtain ⟨memo', hrun, h'⟩ := ask_computes question memo h
    rw [answers, hrun, List.map_cons, ← ih h']

theorem key_of_fresh {key : GroupKey} {columns : Columns} {position : SortKey}
    (h : fresh catalog (.sortKey key columns) = .ok (.sortKey position)) : position.key = key := by
  have hanswer : fresh catalog (.sortKey key columns) =
      do return .sortKey (← catalog.sortKey key columns) :=
    ((sortKey_computes key columns).answer .sortKey).run_empty
  obtain ⟨position', hposition, heq⟩ := bind_eq_ok.1 (hanswer.symm.trans h)
  cases heq
  exact Catalog.key_sortKey hposition

theorem key_of_mem_answers {questions : List Question} {key : GroupKey} {columns : Columns}
    {position : SortKey}
    (h : (.sortKey key columns, .ok (.sortKey position)) ∈ answers catalog ∅ questions) :
    position.key = key := by
  rw [answers_eq (.empty catalog)] at h
  obtain ⟨question, -, heq⟩ := List.mem_map.1 h
  obtain ⟨rfl, hfresh⟩ := Prod.mk.inj heq
  exact key_of_fresh hfresh

/-- Questions that are asked with one memo are answered as if each had a memo of its own, and positions
that they find differ where the keys do. -/
theorem answers_fresh (catalog : Catalog) (questions : List Question) :
    answers catalog ∅ questions = questions.map (fun q => (q, fresh catalog q)) ∧
      ∀ key key' columns columns' position position',
        (.sortKey key columns, .ok (.sortKey position)) ∈ answers catalog ∅ questions →
        (.sortKey key' columns', .ok (.sortKey position')) ∈ answers catalog ∅ questions →
        key ≠ key' → position ≠ position' := by
  refine ⟨answers_eq (.empty catalog) questions, ?_⟩
  rintro key key' columns columns' position position' h h' hne rfl
  exact hne ((key_of_mem_answers h).symm.trans (key_of_mem_answers h'))

theorem answers_unreadableFees :
    let catalog : Catalog :=
      ⟨fun _ => .ok none, fun _ => .error (.table .unreadableCell), fun _ => .ok none, fun _ => .ok none⟩
    let columns : Columns := .ofTotals 0
    let key (supplier : EnterpriseId) : GroupKey := ⟨none, ⟨1⟩, supplier, ⟨1⟩, ⟨1⟩⟩
    ∃ position position', position ≠ position' ∧
      answers catalog ∅ [.columns (key ⟨1⟩) 0, .sortKey (key ⟨1⟩) columns, .sortKey (key ⟨2⟩) columns] =
        [(.columns (key ⟨1⟩) 0, .error (.table .unreadableCell)),
          (.sortKey (key ⟨1⟩) columns, .ok (.sortKey position)),
          (.sortKey (key ⟨2⟩) columns, .ok (.sortKey position'))] := by
  intro catalog columns key
  obtain ⟨hanswers, hpositions⟩ := answers_fresh catalog
    [.columns (key ⟨1⟩) 0, .sortKey (key ⟨1⟩) columns, .sortKey (key ⟨2⟩) columns]
  refine ⟨_, _, hpositions (key ⟨1⟩) (key ⟨2⟩) columns columns _ _ ?_ ?_ (by decide), hanswers⟩
  · rw [hanswers]
    exact .tail _ (.head _)
  · rw [hanswers]
    exact .tail _ (.tail _ (.head _))

end MarketFees.Projection
