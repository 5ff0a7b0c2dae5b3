import Mathlib
import MarketFees.Proofs.ExactSums
import MarketFees.Proofs.Narrowing

namespace MarketFees

/-- A rounded quotient is no further from the exact one than a half. -/
theorem natAbs_roundHalfEven_mul_sub (n : Int) {d : Nat} (hd : 0 < d) :
    2 * (roundHalfEven n d * d - n).natAbs ≤ d := by
  have hsplit := Int.mul_ediv_add_emod n d
  have hnonneg := Int.emod_nonneg n (b := d) (by omega)
  have hlt := Int.emod_lt_of_pos n (b := d) (by omega)
  have hquotient : n / d * d = n - n % d := by
    rw [Int.mul_comm]
    omega
  rw [roundHalfEven]
  split
  · rw [hquotient]
    omega
  · rw [Int.add_mul, hquotient]
    omega

theorem roundHalfEven_mul (k : Int) {d : Nat} (hd : 0 < d) : roundHalfEven (k * d) d = k := by
  have hne : (d : Int) ≠ 0 := by omega
  rw [roundHalfEven, Int.mul_ediv_cancel k hne, Int.mul_emod_left, Int.mul_zero, if_pos]
  omega

namespace Decimal

variable {a b c : Decimal} {scale : Nat} {n : Int}

/-- A decimal stands for a number that no decimal may hold: for the number itself where one holds it,
and otherwise, with at least 28 digits, for the number to half a unit of the last digit. -/
structure Rounds (a : Decimal) (x : Rat) : Prop where
  exact : ∀ b : Decimal, b.toRat = x → a.toRat = x
  near : |a.toRat - x| ≤ 1 / (2 * powerOfTen a.scale)
  digits : a.toRat ≠ x → 10 ^ 27 ≤ a.coefficient

theorem Rounds.self (a : Decimal) : a.Rounds a.toRat where
  exact _ _ := rfl
  near := by
    rw [sub_self, abs_zero]
    positivity
  digits h := (h rfl).elim

theorem natAbs_units (a : Decimal) : a.units.natAbs = a.coefficient := by
  rw [units]
  split <;> omega

theorem toRat_eq (a : Decimal) : a.toRat = a.units / powerOfTen a.scale :=
  Rat.mkRat_eq_div ..

theorem toRat_eq_zero (h : a.coefficient = 0) : a.toRat = 0 := by
  have hunits : a.units = 0 := Int.natAbs_eq_zero.1 (a.natAbs_units.trans h)
  rw [toRat_eq, hunits]
  simp

theorem units_mul_eq (h : a.toRat = n / powerOfTen scale) :
    a.units * powerOfTen scale = n * powerOfTen a.scale := by
  have hscale : (powerOfTen scale : Rat) ≠ 0 := by exact_mod_cast (powerOfTen_pos _).ne'
  have ha : (powerOfTen a.scale : Rat) ≠ 0 := by exact_mod_cast (powerOfTen_pos _).ne'
  rw [toRat_eq, div_eq_div_iff ha hscale] at h
  exact_mod_cast h

theorem ofUnits?_eq_some (h : ofUnits? n scale = some a) : a.units = n ∧ a.scale = scale := by
  rw [ofUnits?, mk?] at h
  split at h
  · cases h
    refine ⟨?_, rfl⟩
    simp only [units, decide_eq_true_eq]
    split <;> omega
  · cases h

theorem ofUnits?_eq_none (h : ofUnits? n scale = none) (hscale : scale ≤ 28) :
    coefficientBound ≤ n.natAbs := by
  rw [ofUnits?, mk?] at h
  split at h
  · cases h
  · next hrange => exact Nat.le_of_not_lt fun hlt => hrange ⟨hlt, hscale⟩

structure Fitted (n : Int) (scale dropped : Nat) (a : Decimal) : Prop where
  dropped_le : dropped ≤ scale
  scale_eq : a.scale = scale - dropped
  units_eq : a.units = roundHalfEven n (powerOfTen dropped)
  least : ∀ fewer < dropped, coefficientBound ≤ (roundHalfEven n (powerOfTen fewer)).natAbs

theorem exists_fitted (h : fit? n scale = some a) (hscale : scale ≤ 28) :
    ∃ dropped, Fitted n scale dropped a := by
  obtain ⟨before, dropped, later, hrange, hfits, hbefore⟩ := List.findSome?_eq_some_iff.1 h
  obtain ⟨hunits, hleft⟩ := ofUnits?_eq_some hfits
  have hmem : dropped ∈ List.range (scale + 1) := by
    rw [hrange]
    simp
  have hle := List.mem_range.1 hmem
  refine ⟨dropped, by omega, hleft, hunits, ?_⟩
  intro fewer hfewer
  have hfirst : fewer ∈ before := by
    have hsorted := List.pairwise_lt_range (n := scale + 1)
    have hmem : fewer ∈ List.range (scale + 1) := List.mem_range.2 (by omega)
    rw [hrange] at hsorted hmem
    rcases List.mem_append.1 hmem with hmem | hmem
    · exact hmem
    · have hlater := List.pairwise_cons.1 (List.pairwise_append.1 hsorted).2.1
      rcases List.mem_cons.1 hmem with rfl | hmem
      · omega
      · have := hlater.1 fewer hmem
        omega
  exact ofUnits?_eq_none (hbefore fewer hfirst) (by omega)

namespace Fitted

variable {dropped : Nat} (h : Fitted n scale dropped a)

include h

theorem powerOfTen_scale : powerOfTen scale = powerOfTen a.scale * powerOfTen dropped := by
  have hle := h.dropped_le
  rw [← powerOfTen_add, h.scale_eq]
  congr 1
  omega

theorem toRat_eq_of_mul {k : Int} (hk : n = k * powerOfTen dropped) :
    a.toRat = n / powerOfTen scale := by
  have hpos : (0 : Rat) < powerOfTen dropped := by exact_mod_cast powerOfTen_pos _
  rw [toRat_eq, h.units_eq, hk, roundHalfEven_mul k (powerOfTen_pos _), h.powerOfTen_scale]
  push_cast
  rw [mul_div_mul_right _ _ hpos.ne']

/-- What a decimal can hold is not rounded. -/
theorem toRat_eq_of_held (hb : b.toRat = n / powerOfTen scale) : a.toRat = n / powerOfTen scale := by
  have hunits := units_mul_eq hb
  have hsmall := b.coefficient_lt
  rw [← b.natAbs_units] at hsmall
  by_cases hscale : b.scale ≤ scale
  · -- The units of `b` are the quotient for as many digits as `b` has fewer.
    have hsplit : scale = (scale - b.scale) + b.scale := by omega
    rw [hsplit, powerOfTen_add, Int.natCast_mul, ← Int.mul_assoc] at hunits
    have hn : b.units * powerOfTen (scale - b.scale) = n :=
      Int.eq_of_mul_eq_mul_right (by exact_mod_cast (powerOfTen_pos _).ne') hunits
    by_cases hfewer : scale - b.scale < dropped
    · have hlarge := h.least _ hfewer
      rw [← hn, roundHalfEven_mul _ (powerOfTen_pos _)] at hlarge
      omega
    · have hsplit : scale - b.scale = (scale - b.scale - dropped) + dropped := by omega
      rw [hsplit, powerOfTen_add, Int.natCast_mul, ← Int.mul_assoc] at hn
      exact h.toRat_eq_of_mul hn.symm
  · have hsplit : b.scale = (b.scale - scale) + scale := by omega
    rw [hsplit, powerOfTen_add, Int.natCast_mul, ← Int.mul_assoc] at hunits
    have hn : b.units = n * powerOfTen (b.scale - scale) :=
      Int.eq_of_mul_eq_mul_right (by exact_mod_cast (powerOfTen_pos _).ne') hunits
    have hle : n.natAbs ≤ b.units.natAbs := by
      rw [hn, Int.natAbs_mul, Int.natAbs_natCast]
      exact Nat.le_mul_of_pos_right _ (powerOfTen_pos _)
    by_cases hzero : dropped = 0
    · subst hzero
      exact h.toRat_eq_of_mul (Int.mul_one n).symm
    · have hlarge := h.least 0 (by omega)
      have hone : powerOfTen 0 = 1 := rfl
      rw [hone, roundHalfEven_one] at hlarge
      omega

theorem near : |a.toRat - n / powerOfTen scale| ≤ 1 / (2 * powerOfTen a.scale) := by
  have herror := natAbs_roundHalfEven_mul_sub n (powerOfTen_pos dropped)
  rw [← h.units_eq] at herror
  have hpos : (0 : Rat) < powerOfTen dropped := by exact_mod_cast powerOfTen_pos _
  have hscale : (0 : Rat) < powerOfTen a.scale := by exact_mod_cast powerOfTen_pos _
  have hcast : 2 * |(a.units * powerOfTen dropped - n : Rat)| ≤ powerOfTen dropped := by
    have hcast : ((2 * (a.units * powerOfTen dropped - n).natAbs : Nat) : Rat) ≤ powerOfTen dropped := by
      exact_mod_cast herror
    rw [Nat.cast_mul, Nat.cast_natAbs] at hcast
    exact_mod_cast hcast
  have hdiff : a.toRat - n / powerOfTen scale =
      (a.units * powerOfTen dropped - n) / (powerOfTen a.scale * powerOfTen dropped) := by
    rw [toRat_eq, h.powerOfTen_scale]
    push_cast
    field_simp
  rw [hdiff, abs_div, abs_of_pos (mul_pos hscale hpos), div_le_div_iff₀ (mul_pos hscale hpos)
    (mul_pos two_pos hscale), one_mul]
  nlinarith

theorem digits (hinexact : a.toRat ≠ n / powerOfTen scale) : 10 ^ 27 ≤ a.coefficient := by
  have hpos : dropped ≠ 0 := by
    rintro rfl
    exact hinexact (h.toRat_eq_of_mul (Int.mul_one n).symm)
  obtain ⟨fewer, rfl⟩ := Nat.exists_eq_succ_of_ne_zero hpos
  -- With one digit more the coefficient would not fit.
  have hlarge := h.least fewer (Nat.lt_succ_self fewer)
  have hone := natAbs_roundHalfEven_mul_sub n (powerOfTen_pos fewer)
  have htwo := natAbs_roundHalfEven_mul_sub n (powerOfTen_pos (fewer + 1))
  have hten : powerOfTen (fewer + 1) = 10 * powerOfTen fewer := Nat.pow_succ'
  rw [← h.units_eq, hten] at htwo
  have hmore : coefficientBound * powerOfTen fewer ≤
      (roundHalfEven n (powerOfTen fewer) * powerOfTen fewer).natAbs := by
    rw [Int.natAbs_mul, Int.natAbs_natCast]
    exact Nat.mul_le_mul_right _ hlarge
  by_contra hfew
  have hless : (a.units * ((10 * powerOfTen fewer : Nat) : Int)).natAbs ≤
      10 ^ 27 * (10 * powerOfTen fewer) := by
    rw [Int.natAbs_mul, Int.natAbs_natCast, a.natAbs_units]
    exact Nat.mul_le_mul_right _ (Nat.le_of_not_le hfew)
  have hunit := powerOfTen_pos fewer
  have hbound : coefficientBound = 79228162514264337593543950336 := rfl
  rw [hbound] at hmore
  omega

theorem rounds : a.Rounds (n / powerOfTen scale) where
  exact _ := h.toRat_eq_of_held
  near := h.near
  digits := h.digits

end Fitted

/-- A sum of two decimals is rounded where no decimal holds it. -/
theorem add?_rounds (h : add? a b = some c) : c.Rounds (a.toRat + b.toRat) := by
  rw [add?] at h
  split at h
  · next hzero =>
    cases h
    rw [toRat_eq_zero hzero, zero_add]
    exact .self b
  split at h
  · next hzero =>
    cases h
    rw [toRat_eq_zero hzero, add_zero]
    exact .self a
  · obtain ⟨dropped, hfitted⟩ := exists_fitted h (Nat.max_le.2 ⟨a.scale_le, b.scale_le⟩)
    have hrounds := hfitted.rounds
    rw [Int.cast_add, add_div, ← (Counts.self (Nat.le_max_left ..)).toRat_eq,
      ← (Counts.self (Nat.le_max_right ..)).toRat_eq] at hrounds
    exact hrounds

end Decimal

/-- A report fails on overflows only, and the total with tax of every row is the sum of the other two,
rounded where no decimal holds it. -/
theorem run_rows_rounded {store : Store} (hstore : store.Kept) (f : Filters) (permission : Permission)
    (options : Report.Options) :
    OnlyOverflows (Report.run store f permission options) ∧
      ∀ report, Report.run store f permission options = .ok report → ∀ row ∈ report.rows,
        row.columns.totals.inclTax.Rounds
          (row.columns.totals.exclTax.toRat + row.columns.totals.tax.toRat) := by
  constructor
  · obtain ⟨s, rfl⟩ := hstore.exists_snapshot
    have hsearch : OnlyOverflows (liftM (s.store.search f permission) : Except Fault (List Order)) :=
      .lift ⟨_, rfl⟩
    apply hsearch.bind
    intro orders
    exact Report.ofOrders_onlyOverflows s.readable_amounts s.readable orders f options
  · intro report _ row _
    exact Decimal.add?_rounds row.columns.totals.add_eq

/-- The market day with two amounts whose sum has more digits than a decimal. -/
def Dataset.fineAmounts : Dataset :=
  let amount := (Decimal.mk? false 60000000000000000000000000001 28).getD 0
  let day := quarterTax
  { day with orders := day.orders.map fun o =>
      { o with adjustments := o.adjustments.map fun a => { a with amount } } }

def distributorTotals (outcome : Except Fault Report) : Option (List (List (Int × Nat))) :=
  outcome.toOption.map fun report => (report.summaries .distributor).map fun row =>
    [row.columns.totals.exclTax, row.columns.totals.tax, row.columns.totals.inclTax].map
      fun a => (a.units, a.scale)

theorem distributorTotals_fineAmounts :
    distributorTotals (Report.run (Snapshot.ofDataset .fineAmounts).store .none .everything ⟨true⟩) =
      some [[(60000000000000000000000000001, 28), (60000000000000000000000000001, 28),
        (12000000000000000000000000000, 27)]] := by
  cbv

theorem exists_run_fineAmounts : ∃ report row,
    Report.run (Snapshot.ofDataset .fineAmounts).store .none .everything ⟨true⟩ = .ok report ∧
      row ∈ report.rows ∧ row.columns.totals.exclTax.toRat = 6 + 1 / 10 ^ 28 ∧
      row.columns.totals.tax.toRat = 6 + 1 / 10 ^ 28 ∧ row.columns.totals.inclTax.toRat = 12 := by
  have hshown := distributorTotals_fineAmounts
  cases hreport : Report.run (Snapshot.ofDataset .fineAmounts).store .none .everything ⟨true⟩ with
  | error e =>
    rw [hreport] at hshown
    cases hshown
  | ok report =>
    rw [hreport] at hshown
    obtain ⟨row, hrow, htotals⟩ := List.map_eq_singleton_iff.1 (Option.some.inj hshown)
    have hmem : row ∈ report.summaries .distributor := hrow ▸ List.mem_singleton_self row
    simp only [List.map_cons, List.map_nil, List.cons.injEq, Prod.mk.injEq, and_true] at htotals
    obtain ⟨⟨hexcl, hexclScale⟩, ⟨htax, htaxScale⟩, hincl, hinclScale⟩ := htotals
    refine ⟨report, row, rfl, (List.mem_filter.1 hmem).1, ?_, ?_, ?_⟩
    · rw [Decimal.toRat_eq, hexcl, hexclScale]
      norm_num [powerOfTen]
    · rw [Decimal.toRat_eq, htax, htaxScale]
      norm_num [powerOfTen]
    · rw [Decimal.toRat_eq, hincl, hinclScale]
      norm_num [powerOfTen]

/-- The last digit is missing in the total. -/
theorem run_fineAmounts_rounded :
    (Snapshot.ofDataset .fineAmounts).store.Kept ∧ ∃ report,
      Report.run (Snapshot.ofDataset .fineAmounts).store .none .everything ⟨true⟩ = .ok report ∧
      ∃ row ∈ report.rows, row.columns.totals.inclTax.Rounds (12 + 2 / 10 ^ 28) := by
  have hstore : (Snapshot.ofDataset .fineAmounts).store.Kept := .snapshot _
  obtain ⟨report, row, hrun, hrow, hexcl, htax, -⟩ := exists_run_fineAmounts
  have hrounds := (run_rows_rounded hstore .none .everything ⟨true⟩).2 report hrun row hrow
  have hsum : (6 + 1 / 10 ^ 28 + (6 + 1 / 10 ^ 28) : Rat) = 12 + 2 / 10 ^ 28 := by norm_num
  rw [hexcl, htax, hsum] at hrounds
  exact ⟨hstore, report, hrun, row, hrow, hrounds⟩

theorem run_fineAmounts_not_exact :
    Dataset.fineAmounts.validate = .ok () ∧ ∃ report,
      Report.run (Snapshot.ofDataset .fineAmounts).store .none .everything ⟨true⟩ = .ok report ∧
      ∃ row ∈ report.rows, row.columns.totals.exclTax.toRat + row.columns.totals.tax.toRat ≠
        row.columns.totals.inclTax.toRat := by
  obtain ⟨report, row, hrun, hrow, hexcl, htax, hincl⟩ := exists_run_fineAmounts
  refine ⟨by decide, report, hrun, row, hrow, ?_⟩
  rw [hexcl, htax, hincl]
  norm_num

end MarketFees
