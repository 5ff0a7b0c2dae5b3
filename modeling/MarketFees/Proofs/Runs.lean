import Mathlib.Data.List.SplitBy
import MarketFees.Proofs.Increasing

namespace MarketFees

variable {cmp : α → α → Ordering} [Std.TransCmp cmp] {same : α → α → Bool} {l part : List α}

theorem mem_of_mem_splitBy (h : part ∈ l.splitBy same) {a : α} (ha : a ∈ part) : a ∈ l := by
  rw [← List.flatten_splitBy same l]
  exact List.mem_flatten.2 ⟨part, h, ha⟩

theorem compare_eq_of_mem_splitBy (hsame : ∀ a ∈ l, ∀ b ∈ l, same a b = true ↔ cmp a b = .eq)
    (h : part ∈ l.splitBy same) {a b : α} (ha : a ∈ part) (hb : b ∈ part) : cmp a b = .eq := by
  have : IsTrans α fun a b => cmp a b = .eq := ⟨fun _ _ _ => Std.TransCmp.eq_trans⟩
  have : Std.Symm fun a b => cmp a b = .eq := ⟨fun _ _ => Std.OrientedCmp.eq_symm⟩
  have hchain : part.IsChain fun a b => cmp a b = .eq := by
    refine (List.isChain_of_mem_splitBy h).imp_of_mem_imp fun a b ha hb hab => ?_
    exact (hsame a (mem_of_mem_splitBy h ha) b (mem_of_mem_splitBy h hb)).1 hab
  exact hchain.pairwise.forall_of_forall (fun a _ => Std.ReflCmp.compare_self) ha hb

/-- Constant parts of a sorted list that differ from their neighbours differ from all others. -/
theorem pairwise_lt_of_isChain {parts : List (List α)}
    (hconst : ∀ A ∈ parts, ∀ a ∈ A, ∀ b ∈ A, cmp a b = .eq)
    (hle : parts.Pairwise fun A B => ∀ a ∈ A, ∀ b ∈ B, (cmp a b).isLE)
    (hchain : parts.IsChain fun A B => ∃ a ∈ A, ∃ b ∈ B, cmp a b ≠ .eq) :
    parts.Pairwise fun A B => ∀ a ∈ A, ∀ b ∈ B, cmp a b = .lt := by
  induction parts with
  | nil => exact .nil
  | cons A rest ih =>
    obtain ⟨hA, hrest⟩ := List.pairwise_cons.1 hle
    have ih := ih (fun B hB => hconst B (List.mem_cons_of_mem _ hB)) hrest hchain.tail
    refine List.pairwise_cons.2 ⟨fun B hB a ha b hb => ?_, ih⟩
    cases rest with
    | nil => cases hB
    | cons A' rest =>
      obtain ⟨x, hx, y, hy, hne⟩ := (List.isChain_cons_cons.1 hchain).1
      have hxy : cmp x y = .lt := by
        have hle := hA A' (List.mem_cons_self ..) x hx y hy
        cases h : cmp x y with
        | lt => rfl
        | eq => exact (hne h).elim
        | gt => simp [h] at hle
      have hay : cmp a y = .lt :=
        Std.TransCmp.lt_of_eq_of_lt (hconst A (List.mem_cons_self ..) a ha x hx) hxy
      rcases List.mem_cons.1 hB with rfl | hB
      · exact Std.TransCmp.lt_of_lt_of_eq hay (hconst B (by simp) y hy b hb)
      · exact Std.TransCmp.lt_trans hay ((List.pairwise_cons.1 ih).1 B hB y hy b hb)

theorem splitBy_pairwise_lt (hsame : ∀ a ∈ l, ∀ b ∈ l, same a b = true ↔ cmp a b = .eq)
    (hsorted : l.Pairwise fun a b => (cmp a b).isLE) :
    (l.splitBy same).Pairwise fun A B => ∀ a ∈ A, ∀ b ∈ B, cmp a b = .lt := by
  rw [← List.flatten_splitBy same l, List.pairwise_flatten] at hsorted
  refine pairwise_lt_of_isChain (fun A hA a ha b hb => compare_eq_of_mem_splitBy hsame hA ha hb)
    hsorted.2 ((List.isChain_getLast_head_splitBy same l).imp_of_mem_imp ?_)
  rintro A B hA hB ⟨hnA, hnB, hdiffer⟩
  refine ⟨A.getLast hnA, List.getLast_mem hnA, B.head hnB, List.head_mem hnB, fun heq => ?_⟩
  rw [(hsame _ (mem_of_mem_splitBy hA (List.getLast_mem hnA)) _
    (mem_of_mem_splitBy hB (List.head_mem hnB))).2 heq] at hdiffer
  cases hdiffer

end MarketFees
