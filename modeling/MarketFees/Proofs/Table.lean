import MarketFees.Proofs.Increasing
import MarketFees.Table

namespace MarketFees

theorem findRev?_spec {p : α → Bool} {l : List α} {a : α} (h : l.findRev? p = some a) :
    a ∈ l ∧ p a := by
  rw [List.findRev?_eq_find?_reverse] at h
  exact ⟨List.mem_reverse.1 (List.mem_of_find?_eq_some h), List.find?_some h⟩

theorem exists_findRev? [DecidableEq κ] {key : α → κ} {l : List α} {k : κ} (h : k ∈ l.map key) :
    ∃ a, l.findRev? (key · = k) = some a := by
  obtain ⟨a, ha, hkey⟩ := List.mem_map.1 h
  rw [← Option.isSome_iff_exists, List.findRev?_eq_find?_reverse, List.find?_isSome]
  exact ⟨a, List.mem_reverse.2 ha, decide_eq_true hkey⟩

theorem findRev?_eq_none [DecidableEq κ] {key : α → κ} {l : List α} {k : κ} (h : k ∉ l.map key) :
    l.findRev? (key · = k) = none := by
  rw [Option.eq_none_iff_forall_ne_some]
  intro a ha
  obtain ⟨hmem, hkey⟩ := findRev?_spec ha
  exact h (List.mem_map.2 ⟨a, hmem, of_decide_eq_true hkey⟩)

theorem findRev?_eq_some_iff [DecidableEq κ] {key : α → κ} {l : List α} (h : (l.map key).Nodup) {k : κ} {a : α} :
    l.findRev? (key · = k) = some a ↔ a ∈ l ∧ key a = k := by
  constructor
  · intro hfind
    obtain ⟨hmem, hkey⟩ := findRev?_spec hfind
    exact ⟨hmem, of_decide_eq_true hkey⟩
  · rintro ⟨hmem, rfl⟩
    have hkey : key a ∈ l.map key := List.mem_map_of_mem hmem
    obtain ⟨b, hb⟩ := exists_findRev? hkey
    obtain ⟨hmem', hkey⟩ := findRev?_spec hb
    rw [hb, List.inj_on_of_nodup_map h hmem' hmem (of_decide_eq_true hkey)]

namespace Table

variable [Ord κ]

theorem increasingBy (t : Table κ ρ) : IncreasingBy Prod.fst t.entries :=
  t.increasing

def filterMap (f : κ → ρ → Option σ) (t : Table κ ρ) : Table κ σ where
  entries := t.entries.filterMap fun entry => (f entry.1 entry.2).map (entry.1, ·)
  increasing := by
    refine t.increasing.filterMap _ ?_
    rintro ⟨a, r⟩ ⟨b, s⟩ hab x hx y hy
    obtain ⟨_, _, rfl⟩ := Option.map_eq_some_iff.1 hx
    obtain ⟨_, _, rfl⟩ := Option.map_eq_some_iff.1 hy
    exact hab

@[simp]
theorem get?_empty [DecidableEq κ] (key : κ) : (∅ : Table κ ρ).get? key = none :=
  rfl

variable [Std.TransOrd κ]

section

variable [DecidableEq κ]

theorem mem_entries_iff {t : Table κ ρ} {key : κ} {row : ρ} :
    (key, row) ∈ t.entries ↔ t.get? key = some row := by
  rw [get?, Option.map_eq_some_iff]
  constructor
  · intro h
    have hs : (t.entries.find? (·.1 = key)).isSome := List.find?_isSome.2 ⟨_, h, by simp⟩
    obtain ⟨entry, he⟩ := Option.isSome_iff_exists.1 hs
    have hk : entry.1 = key := by simpa using List.find?_some he
    have hentry := t.increasingBy.eq_of_key_eq (List.mem_of_find?_eq_some he) h hk
    exact ⟨entry, he, by rw [hentry]⟩
  · rintro ⟨entry, he, rfl⟩
    have hk : entry.1 = key := by simpa using List.find?_some he
    rw [← hk]
    exact List.mem_of_find?_eq_some he

theorem ext_get? {s t : Table κ ρ} (h : ∀ key, s.get? key = t.get? key) : s = t := by
  apply ext_entries
  apply s.increasingBy.eq_of_mem_iff t.increasingBy
  rintro ⟨key, row⟩
  rw [mem_entries_iff, mem_entries_iff, h]

theorem get?_filterMap {f : κ → ρ → Option σ} {t : Table κ ρ} {key : κ} :
    (t.filterMap f).get? key = (t.get? key).bind (f key) := by
  apply Option.ext
  intro row
  rw [← mem_entries_iff, Option.bind_eq_some_iff]
  simp only [filterMap, List.mem_filterMap, Option.map_eq_some_iff, Prod.mk.injEq]
  constructor
  · rintro ⟨⟨k, r⟩, hmem, s, hs, rfl, rfl⟩
    exact ⟨r, mem_entries_iff.1 hmem, hs⟩
  · rintro ⟨r, hr, hs⟩
    exact ⟨(key, r), mem_entries_iff.2 hr, row, hs, rfl, rfl⟩

theorem get?_filter {keep : κ → ρ → Bool} {t : Table κ ρ} {key : κ} :
    (t.filter keep).get? key = (t.get? key).filter (keep key) := by
  apply Option.ext
  intro row
  rw [← mem_entries_iff, Option.filter_eq_some_iff, ← mem_entries_iff]
  exact List.mem_filter

end

variable [Std.LawfulEqOrd κ]

theorem mem_place {key : κ} {row : ρ} {l : List (κ × ρ)} (h : IncreasingBy Prod.fst l)
    {entry : κ × ρ} :
    entry ∈ place key row l ↔ entry = (key, row) ∨ entry.1 ≠ key ∧ entry ∈ l := by
  induction l with
  | nil => simp [place]
  | cons other rest ih =>
    obtain ⟨hother, hrest⟩ := List.pairwise_cons.1 h
    rw [place]
    split
    · next hlt =>
      -- The new key lies below all others, so that none of them is lost.
      have hne : ∀ e ∈ other :: rest, e.1 ≠ key := by
        rintro e he rfl
        rcases List.mem_cons.1 he with rfl | he
        · simp [Std.ReflCmp.compare_self] at hlt
        · simp [Std.OrientedCmp.gt_of_lt (hother e he)] at hlt
      rw [List.mem_cons]
      exact or_congr_right ⟨fun he => ⟨hne _ he, he⟩, And.right⟩
    · next heq =>
      obtain rfl := Std.LawfulEqOrd.eq_of_compare heq
      have hne : ∀ e ∈ rest, e.1 ≠ other.1 := by
        intro e he hk
        have hlt := hother e he
        simp [hk, Std.ReflCmp.compare_self] at hlt
      rw [List.mem_cons, List.mem_cons]
      refine or_congr_right ⟨fun he => ⟨hne _ he, .inr he⟩, ?_⟩
      rintro ⟨hk, rfl | he⟩
      · exact (hk rfl).elim
      · exact he
    · next hgt =>
      have hne : other.1 ≠ key := by
        rintro rfl
        simp [Std.ReflCmp.compare_self] at hgt
      rw [List.mem_cons, List.mem_cons, ih hrest]
      constructor
      · rintro (rfl | he | ⟨hk, he⟩)
        · exact .inr ⟨hne, .inl rfl⟩
        · exact .inl he
        · exact .inr ⟨hk, .inr he⟩
      · rintro (he | ⟨hk, rfl | he⟩)
        · exact .inr (.inl he)
        · exact .inl rfl
        · exact .inr (.inr ⟨hk, he⟩)

variable [DecidableEq κ]

theorem get?_put {t : Table κ ρ} {key k : κ} {row : ρ} :
    (t.put key row).get? k = if k = key then some row else t.get? k := by
  apply Option.ext
  intro r
  rw [← mem_entries_iff, put, mem_place t.increasingBy, Prod.mk.injEq]
  by_cases hk : k = key
  · subst hk
    simp [eq_comm]
  · simp [hk, mem_entries_iff]

/-- Under a key lies the row of the last element with this key, or what was there before. -/
theorem get?_foldl_put {key : α → κ} {row : α → ρ} {l : List α} {t : Table κ ρ} {k : κ} :
    (l.foldl (fun t a => t.put (key a) (row a)) t).get? k =
      match l.findRev? (key · = k) with
      | some a => some (row a)
      | none => t.get? k := by
  induction l generalizing t with
  | nil => rfl
  | cons a rest ih =>
    rw [List.foldl_cons, ih, List.findRev?]
    cases rest.findRev? (key · = k) with
    | some b => rfl
    | none =>
      by_cases hk : key a = k
      · simp [hk, get?_put]
      · simp [hk, get?_put, Ne.symm hk]

theorem get?_ofList {key : α → κ} {row : α → ρ} {l : List α} {k : κ} :
    (ofList key row l).get? k = (l.findRev? (key · = k)).map row := by
  rw [ofList, get?_foldl_put, get?_empty]
  cases l.findRev? (key · = k) <;> rfl

omit [Std.LawfulEqOrd κ] [DecidableEq κ] in
theorem ofList_map {key : α → κ} {f : α → α} (hkey : ∀ a, key (f a) = key a) {l : List α} :
    ofList key id (l.map f) = ofList key f l := by
  rw [ofList, List.foldl_map, ofList]
  simp only [hkey, id]

/-- Reading the rows of a table gives the table of what they were stored from, as it is read. -/
theorem filterMap_ofList {key : α → κ} {row : α → ρ} {read : κ → ρ → Option α} {f : α → α}
    (hkey : ∀ a, key (f a) = key a) (hread : ∀ a, read (key a) (row a) = some (f a)) (l : List α) :
    (ofList key row l).filterMap read = ofList key id (l.map f) := by
  rw [ofList_map hkey]
  apply ext_get?
  intro k
  rw [get?_filterMap, get?_ofList, get?_ofList]
  cases hfind : l.findRev? (key · = k) with
  | none => rfl
  | some a =>
    obtain rfl : key a = k := of_decide_eq_true (findRev?_spec hfind).2
    exact hread a

/-- Every row is what reading its key gives. -/
def Agrees (read : κ → Except ε ρ) (t : Table κ ρ) : Prop :=
  ∀ key row, t.get? key = some row → read key = .ok row

omit [Std.TransOrd κ] [Std.LawfulEqOrd κ] in
theorem Agrees.empty {read : κ → Except ε ρ} : Agrees read ∅ := by
  intro key row h
  simp at h

theorem Agrees.put {read : κ → Except ε ρ} {t : Table κ ρ} {key : κ} {row : ρ} (h : t.Agrees read)
    (hread : read key = .ok row) : (t.put key row).Agrees read := by
  intro k r hget
  rw [get?_put] at hget
  split at hget
  · next he => rw [he, hread, Option.some.inj hget]
  · exact h k r hget

end Table

end MarketFees
