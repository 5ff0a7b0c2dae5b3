import Mathlib
import MarketFees.Fault

namespace MarketFees

namespace Decimal

variable {a b : Decimal} {scale : Nat} {m n : Int}

/-- A decimal counts so many units of a scale that is not below its own. -/
structure Counts (a : Decimal) (scale : Nat) (n : Int) : Prop where
  scale_le : a.scale ≤ scale
  unitsAt_eq : a.unitsAt scale = n

theorem Counts.self (h : a.scale ≤ scale) : a.Counts scale (a.unitsAt scale) :=
  ⟨h, rfl⟩

theorem Counts.zero (scale : Nat) : Counts 0 scale 0 :=
  ⟨Nat.zero_le _, Int.zero_mul _⟩

theorem units_neg (a : Decimal) : (-a).units = -a.units := by
  change (if !a.negative then -(a.coefficient : Int) else a.coefficient) =
    -(if a.negative then -(a.coefficient : Int) else a.coefficient)
  cases a.negative <;> simp

theorem Counts.neg (h : a.Counts scale n) : (-a).Counts scale (-n) := by
  refine ⟨h.scale_le, ?_⟩
  rw [unitsAt, units_neg, Int.neg_mul]
  exact congrArg _ h.unitsAt_eq

theorem unitsAt_mul {middle : Nat} (ha : a.scale ≤ middle) (hscale : middle ≤ scale) :
    a.unitsAt middle * powerOfTen (scale - middle) = a.unitsAt scale := by
  have hsplit : scale - a.scale = (middle - a.scale) + (scale - middle) := by omega
  rw [unitsAt, unitsAt, hsplit, powerOfTen_add, Int.natCast_mul, Int.mul_assoc]

theorem Counts.eq_zero (h : a.Counts scale n) (hzero : a.coefficient = 0) : n = 0 := by
  rw [← h.unitsAt_eq, unitsAt, units, hzero]
  cases a.negative <;> simp

theorem roundHalfEven_one (n : Int) : roundHalfEven n 1 = n := by
  simp [roundHalfEven]

theorem exists_fit (h : n.natAbs < coefficientBound) (hscale : scale ≤ 28) :
    ∃ c, fit? n scale = some c ∧ c.scale = scale ∧ c.units = n := by
  refine ⟨⟨n < 0, n.natAbs, scale, h, hscale⟩, ?_, rfl, ?_⟩
  · have hkept : ofUnits? (roundHalfEven n (powerOfTen 0)) (scale - 0) =
        some ⟨n < 0, n.natAbs, scale, h, hscale⟩ := by
      have hunit : powerOfTen 0 = 1 := rfl
      rw [hunit, roundHalfEven_one]
      exact dif_pos ⟨h, hscale⟩
    rw [fit?, List.range_succ_eq_map, List.findSome?_cons, hkept]
  · simp only [units, decide_eq_true_eq]
    split <;> omega

theorem Counts.exists_add (ha : a.Counts scale m) (hb : b.Counts scale n)
    (h : (m + n).natAbs < coefficientBound) : ∃ c, add? a b = some c ∧ c.Counts scale (m + n) := by
  rw [add?]
  split
  · next hzero =>
    rw [ha.eq_zero hzero, Int.zero_add]
    exact ⟨b, rfl, hb⟩
  split
  · next hzero =>
    rw [hb.eq_zero hzero, Int.add_zero]
    exact ⟨a, rfl, ha⟩
  · let common := max a.scale b.scale
    let k := a.unitsAt common + b.unitsAt common
    have hcommon : common ≤ scale := Nat.max_le.2 ⟨ha.scale_le, hb.scale_le⟩
    have hk : k * powerOfTen (scale - common) = m + n := by
      rw [Int.add_mul, unitsAt_mul (Nat.le_max_left ..) hcommon,
        unitsAt_mul (Nat.le_max_right ..) hcommon, ha.unitsAt_eq, hb.unitsAt_eq]
    have hbound : k.natAbs < coefficientBound := by
      refine Nat.lt_of_le_of_lt ?_ h
      rw [← hk, Int.natAbs_mul, Int.natAbs_natCast]
      exact Nat.le_mul_of_pos_right _ (powerOfTen_pos _)
    obtain ⟨c, hc, hscale, hunits⟩ := exists_fit hbound (Nat.max_le.2 ⟨a.scale_le, b.scale_le⟩)
    refine ⟨c, hc, ?_, ?_⟩
    · rw [hscale]
      exact hcommon
    · rw [unitsAt, hunits, hscale]
      exact hk

theorem Counts.exists_sub (ha : a.Counts scale m) (hb : b.Counts scale n)
    (h : (m - n).natAbs < coefficientBound) : ∃ c, sub a b = .ok c ∧ c.Counts scale (m - n) := by
  have hexact : ∃ c, sub? a b = some c ∧ c.Counts scale (m - n) := by
    rw [sub?]
    split
    · next hzero =>
      obtain rfl := hb.eq_zero hzero
      exact ha.exists_add hb h
    · exact ha.exists_add hb.neg h
  obtain ⟨c, hc, hcounts⟩ := hexact
  refine ⟨c, ?_, hcounts⟩
  rw [sub, hc]
  rfl

theorem Counts.exists_foldl_add {l : List Decimal} (ha : a.Counts scale m)
    (hscale : ∀ b ∈ l, b.scale ≤ scale)
    (h : m.natAbs + (l.map fun b => (b.unitsAt scale).natAbs).sum < coefficientBound) :
    ∃ c, l.foldlM add? a = some c ∧ c.Counts scale (m + (l.map (·.unitsAt scale)).sum) := by
  induction l generalizing a m with
  | nil => exact ⟨a, rfl, by simpa using ha⟩
  | cons b rest ih =>
    rw [List.map_cons, List.sum_cons] at h
    have hb : b.Counts scale (b.unitsAt scale) := .self (hscale b (List.mem_cons_self ..))
    obtain ⟨c, hc, hcounts⟩ := ha.exists_add hb (by omega)
    obtain ⟨total, htotal, hcounts⟩ :=
      ih hcounts (fun b hb => hscale b (List.mem_cons_of_mem _ hb)) (by omega)
    refine ⟨total, ?_, ?_⟩
    · rw [List.foldlM_cons, hc]
      exact htotal
    · rw [List.map_cons, List.sum_cons, ← Int.add_assoc]
      exact hcounts

/-- A sum whose units fit the coefficient, signs aside, is exact. -/
theorem exists_sum {l : List Decimal} (hscale : ∀ a ∈ l, a.scale ≤ scale)
    (h : (l.map fun a => (a.unitsAt scale).natAbs).sum < coefficientBound) :
    ∃ c, sum l = .ok c ∧ c.Counts scale (l.map (·.unitsAt scale)).sum := by
  obtain ⟨c, hc, hcounts⟩ := (Counts.zero scale).exists_foldl_add hscale (by simpa using h)
  rw [Int.zero_add] at hcounts
  refine ⟨c, ?_, hcounts⟩
  rw [sum, sum?, hc]
  rfl

theorem Counts.toRat_eq (h : a.Counts scale n) : a.toRat = n / powerOfTen scale := by
  have hscale : scale = a.scale + (scale - a.scale) := by
    have := h.scale_le
    omega
  have hne : powerOfTen (scale - a.scale) ≠ 0 := (powerOfTen_pos _).ne'
  rw [← Rat.mkRat_eq_div, toRat, ← h.unitsAt_eq, unitsAt, ← Rat.mkRat_mul_right hne,
    ← powerOfTen_add, ← hscale]

theorem Counts.toRat_add {c : Decimal} (ha : a.Counts scale m) (hb : b.Counts scale n)
    (hc : c.Counts scale (m + n)) : c.toRat = a.toRat + b.toRat := by
  rw [hc.toRat_eq, ha.toRat_eq, hb.toRat_eq, Int.cast_add, add_div]

theorem sum_toRat {l : List Decimal} (hscale : ∀ a ∈ l, a.scale ≤ scale) :
    (l.map toRat).sum = ((l.map (·.unitsAt scale)).sum : Int) / powerOfTen scale := by
  induction l with
  | nil => simp
  | cons a rest ih =>
    have ha : a.Counts scale (a.unitsAt scale) := .self (hscale a (List.mem_cons_self ..))
    rw [List.map_cons, List.map_cons, List.sum_cons, List.sum_cons, ha.toRat_eq,
      ih fun b hb => hscale b (List.mem_cons_of_mem _ hb), Int.cast_add, add_div]

end Decimal

end MarketFees
