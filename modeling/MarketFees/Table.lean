namespace MarketFees

structure Table (κ ρ : Type) [Ord κ] where
  entries : List (κ × ρ)
  increasing : entries.Pairwise fun a b => compare a.1 b.1 = .lt

namespace Table

variable {κ ρ : Type} [Ord κ]

instance : EmptyCollection (Table κ ρ) :=
  ⟨⟨[], .nil⟩⟩

theorem ext_entries {s t : Table κ ρ} (h : s.entries = t.entries) : s = t := by
  cases s
  cases t
  cases h
  rfl

instance [DecidableEq κ] [DecidableEq ρ] : DecidableEq (Table κ ρ) := fun s t =>
  if h : s.entries = t.entries then isTrue (ext_entries h) else isFalse fun e => h (e ▸ rfl)

/-- The row under a key. -/
def get? [DecidableEq κ] (t : Table κ ρ) (key : κ) : Option ρ :=
  (t.entries.find? (·.1 = key)).map (·.2)

/-- The entries that pass a test. -/
def filter (keep : κ → ρ → Bool) (t : Table κ ρ) : Table κ ρ :=
  ⟨t.entries.filter fun entry => keep entry.1 entry.2, t.increasing.filter _⟩

def erase [DecidableEq κ] (t : Table κ ρ) (key : κ) : Table κ ρ :=
  t.filter fun k _ => k ≠ key

/-- Increasing entries with one put in its place, or in the place of the entry with its key. -/
def place (key : κ) (row : ρ) : List (κ × ρ) → List (κ × ρ)
  | [] => [(key, row)]
  | entry :: rest =>
    match compare key entry.1 with
    | .lt => (key, row) :: entry :: rest
    | .eq => (key, row) :: rest
    | .gt => entry :: place key row rest

theorem fst_of_mem_place {key : κ} {row : ρ} {l : List (κ × ρ)} {entry : κ × ρ}
    (h : entry ∈ place key row l) : entry.1 = key ∨ entry ∈ l := by
  induction l with
  | nil => simp_all [place]
  | cons other rest ih =>
    rw [place] at h
    split at h
    · rcases List.mem_cons.1 h with rfl | h
      · exact .inl rfl
      · exact .inr h
    · rcases List.mem_cons.1 h with rfl | h
      · exact .inl rfl
      · exact .inr (List.mem_cons_of_mem _ h)
    · rcases List.mem_cons.1 h with rfl | h
      · exact .inr (List.mem_cons_self ..)
      · exact (ih h).imp_right (List.mem_cons_of_mem _)

variable [Std.TransOrd κ]

theorem place_increasing {key : κ} {row : ρ} {l : List (κ × ρ)}
    (h : l.Pairwise fun a b => compare a.1 b.1 = .lt) :
    (place key row l).Pairwise fun a b => compare a.1 b.1 = .lt := by
  induction l with
  | nil => simp [place]
  | cons other rest ih =>
    obtain ⟨hother, hrest⟩ := List.pairwise_cons.1 h
    rw [place]
    split
    · next hlt =>
      refine List.pairwise_cons.2 ⟨fun entry hentry => ?_, h⟩
      rcases List.mem_cons.1 hentry with rfl | hentry
      · exact hlt
      · exact Std.TransCmp.lt_trans hlt (hother entry hentry)
    · next heq =>
      refine List.pairwise_cons.2 ⟨fun entry hentry => ?_, hrest⟩
      exact Std.TransCmp.lt_of_eq_of_lt heq (hother entry hentry)
    · next hgt =>
      refine List.pairwise_cons.2 ⟨fun entry hentry => ?_, ih hrest⟩
      rcases fst_of_mem_place hentry with hkey | hentry
      · rw [hkey]
        exact Std.OrientedCmp.lt_of_gt hgt
      · exact hother entry hentry

/-- Puts a row under a key, in place of the one that was there. -/
def put (t : Table κ ρ) (key : κ) (row : ρ) : Table κ ρ :=
  ⟨place key row t.entries, place_increasing t.increasing⟩

/-- The rows of a list under their keys; of several rows under one key the last. -/
def ofList (key : α → κ) (row : α → ρ) (l : List α) : Table κ ρ :=
  l.foldl (fun t a => t.put (key a) (row a)) ∅

end Table

end MarketFees
