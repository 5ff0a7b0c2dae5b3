import Mathlib.Data.List.Sort
import MarketFees.SortedSet

namespace MarketFees

/-- The keys of a list increase from each element to all later ones. -/
def IncreasingBy [Ord κ] (key : α → κ) (l : List α) : Prop :=
  l.Pairwise fun a b => compare (key a) (key b) = .lt

namespace IncreasingBy

variable [Ord κ] {key : α → κ} {l m : List α}

theorem sublist (h : IncreasingBy key l) (hs : m.Sublist l) : IncreasingBy key m :=
  List.Pairwise.sublist hs h

theorem filter (h : IncreasingBy key l) (p : α → Bool) : IncreasingBy key (l.filter p) :=
  h.sublist List.filter_sublist

theorem map_iff {f : β → α} {l : List β} :
    IncreasingBy key (l.map f) ↔ IncreasingBy (fun b => key (f b)) l :=
  List.pairwise_map

variable [Std.TransOrd κ]

theorem eq_of_mem_iff (hl : IncreasingBy key l) (hm : IncreasingBy key m)
    (h : ∀ a, a ∈ l ↔ a ∈ m) : l = m := by
  have : Std.Irrefl fun a b : α => compare (key a) (key b) = .lt :=
    ⟨fun a ha => by simp [Std.ReflCmp.compare_self] at ha⟩
  have : Std.Antisymm fun a b : α => compare (key a) (key b) = .lt :=
    ⟨fun a b ha hb => by simp [Std.OrientedCmp.gt_of_lt ha] at hb⟩
  exact List.Pairwise.eq_of_mem_iff hl hm h

theorem nodup_keys (h : IncreasingBy key l) : (l.map key).Nodup := by
  refine List.pairwise_map.2 (h.imp ?_)
  intro a b hab he
  simp [he, Std.ReflCmp.compare_self] at hab

theorem eq_of_key_eq (h : IncreasingBy key l) {a b : α} (ha : a ∈ l) (hb : b ∈ l)
    (he : key a = key b) : a = b :=
  List.inj_on_of_nodup_map h.nodup_keys ha hb he

/-- Parts one after the other, each of one key and in increasing sequence, increase by key and then as
they do within the parts. -/
theorem pairwise_flatMap {outer : β → κ} {l : List β} (h : IncreasingBy outer l) {parts : β → List α}
    {inner : α → α → Ordering} (hkey : ∀ b ∈ l, ∀ a ∈ parts b, key a = outer b)
    (hparts : ∀ b ∈ l, (parts b).Pairwise fun x y => inner x y = .lt) :
    (l.flatMap parts).Pairwise fun x y => compareLex (compareOn key) inner x y = .lt := by
  refine List.pairwise_flatMap.2 ⟨fun b hb => ?_, ?_⟩
  · refine (hparts b hb).imp_of_mem fun {x y} hx hy hlt => ?_
    rw [compareLex, compareOn, hkey b hb x hx, hkey b hb y hy, Std.ReflOrd.compare_self]
    exact hlt
  · refine List.Pairwise.imp_of_mem (fun {b c} hb hc hlt x hx y hy => ?_) h
    rw [compareLex, compareOn, hkey b hb x hx, hkey c hc y hy, hlt]
    rfl

end IncreasingBy

def sortBy [Ord κ] (key : α → κ) (l : List α) : List α :=
  l.mergeSort fun a b => (compare (key a) (key b)).isLE

section SortBy

variable [Ord κ] {key : α → κ} {l : List α}

theorem sortBy_perm (key : α → κ) (l : List α) : (sortBy key l).Perm l :=
  List.mergeSort_perm _ _

theorem mem_sortBy {a : α} : a ∈ sortBy key l ↔ a ∈ l :=
  (sortBy_perm key l).mem_iff

theorem sortBy_map {f : β → α} {l : List β} :
    sortBy key (l.map f) = (sortBy (fun b => key (f b)) l).map f := by
  symm
  apply List.map_mergeSort
  intro a _ b _
  rfl

variable [Std.TransOrd κ]

theorem sortBy_pairwise (key : α → κ) (l : List α) :
    (sortBy key l).Pairwise fun a b => (compare (key a) (key b)).isLE := by
  apply List.pairwise_mergeSort
  · intro a b c hab hbc
    exact Std.TransCmp.isLE_trans hab hbc
  · intro a b
    cases h : compare (key a) (key b) with
    | lt => rfl
    | eq => rfl
    | gt => simp [Std.OrientedCmp.lt_of_gt h]

theorem sortBy_increasing [Std.LawfulEqOrd κ] (h : (l.map key).Nodup) :
    IncreasingBy key (sortBy key l) := by
  have hn : ((sortBy key l).map key).Nodup := ((sortBy_perm key l).map key).nodup_iff.2 h
  refine (sortBy_pairwise key l).imp₂ ?_ (List.pairwise_map.1 hn)
  intro a b hle hne
  cases hc : compare (key a) (key b) with
  | lt => rfl
  | eq => exact (hne (Std.LawfulEqOrd.eq_of_compare hc)).elim
  | gt => simp [hc] at hle

theorem sortBy_filter [Std.LawfulEqOrd κ] (h : (l.map key).Nodup) (p : α → Bool) :
    sortBy key (l.filter p) = (sortBy key l).filter p := by
  have hfilter : ((l.filter p).map key).Nodup := h.sublist (List.filter_sublist.map key)
  apply (sortBy_increasing hfilter).eq_of_mem_iff ((sortBy_increasing h).filter p)
  intro a
  rw [mem_sortBy, List.mem_filter, List.mem_filter, mem_sortBy]

end SortBy

namespace SortedSet

variable [Ord α]

theorem mem_toList {s : SortedSet α} {a : α} : a ∈ s.toList ↔ a ∈ s :=
  Iff.rfl

theorem increasingBy (s : SortedSet α) : IncreasingBy id s.toList :=
  s.increasing

theorem isEmpty_iff {s : SortedSet α} : s.isEmpty ↔ ∀ a, a ∉ s := by
  rw [isEmpty, List.isEmpty_iff]
  exact List.eq_nil_iff_forall_not_mem

variable [Std.TransOrd α]

theorem nodup_toList (s : SortedSet α) : s.toList.Nodup := by
  have hnodup := s.increasingBy.nodup_keys
  rwa [List.map_id] at hnodup

theorem ext_mem {s t : SortedSet α} (h : ∀ a, a ∈ s ↔ a ∈ t) : s = t :=
  ext_toList (s.increasingBy.eq_of_mem_iff t.increasingBy h)

end SortedSet

end MarketFees
