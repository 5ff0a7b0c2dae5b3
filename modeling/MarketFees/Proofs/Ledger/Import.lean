import MarketFees.Proofs.Ledger.Contents
import MarketFees.Proofs.ZeroSigns

namespace MarketFees

/-- The order with its line items and adjustments by id. -/
def Order.sorted (o : Order) : Order :=
  { o with lineItems := sortBy (·.id) o.lineItems, adjustments := sortBy (·.id) o.adjustments }

namespace Dataset

/-- The dataset with its orders, and the line items and adjustments of each, by id. -/
def sorted (d : Dataset) : Dataset :=
  { d with orders := (sortBy (·.id) d.orders).map Order.sorted }

/-- The dataset with no sign on adjustments and tax rates of zero. -/
def asRead (d : Dataset) : Dataset :=
  { d with taxRates := d.taxRates.map TaxRate.asRead, orders := d.orders.map Order.asRead }

/-- Records of one kind have distinct ids. Definitions may share an id. -/
structure Distinct (d : Dataset) : Prop where
  orders : (d.orders.map (·.id)).Nodup
  lineItems : ((d.orders.flatMap (·.lineItems)).map (·.id)).Nodup
  adjustments : ((d.orders.flatMap (·.adjustments)).map (·.id)).Nodup

end Dataset

/-- A zero with a sign, which stands for an amount that was rounded away. -/
def Decimal.IsNegativeZero (a : Decimal) : Prop :=
  a.negative ∧ a.coefficient = 0

structure Dataset.NoNegativeZero (d : Dataset) : Prop where
  taxRates : ∀ r ∈ d.taxRates, ¬r.amount.IsNegativeZero
  adjustments : ∀ o ∈ d.orders, ∀ a ∈ o.adjustments, ¬a.amount.IsNegativeZero

theorem Decimal.withoutZeroSign_eq_iff {a : Decimal} :
    a.withoutZeroSign = a ↔ ¬a.IsNegativeZero := by
  refine ⟨fun h hzero => ?_, fun h => ?_⟩
  · have hsign := congrArg negative h
    rw [IsNegativeZero] at hzero
    simp [withoutZeroSign, hzero] at hsign
  · rw [IsNegativeZero, not_and_or, Bool.not_eq_true] at h
    exact withoutZeroSign_eq h

theorem Decimal.not_isNegativeZero_withoutZeroSign (a : Decimal) :
    ¬a.withoutZeroSign.IsNegativeZero := by
  rintro ⟨hsign, hzero⟩
  rw [coefficient_withoutZeroSign] at hzero
  simp [withoutZeroSign, hzero] at hsign

namespace Dataset.NoNegativeZero

variable {d : Dataset}

theorem map_taxRates (h : d.NoNegativeZero) : d.taxRates.map TaxRate.asRead = d.taxRates := by
  refine (List.map_congr_left fun r hr => ?_).trans (List.map_id d.taxRates)
  rw [TaxRate.asRead, Decimal.withoutZeroSign_eq_iff.2 (h.taxRates r hr)]
  rfl

theorem asRead_order (h : d.NoNegativeZero) {o : Order} (ho : o ∈ d.orders) : o.asRead = o := by
  have hadjustments : o.adjustments.map Adjustment.asRead = o.adjustments := by
    refine (List.map_congr_left fun a ha => ?_).trans (List.map_id _)
    rw [Adjustment.asRead,
      Decimal.withoutZeroSign_eq_iff.2 (h.adjustments o ho a ha)]
    rfl
  rw [Order.asRead, hadjustments]

theorem asRead_eq (h : d.NoNegativeZero) : d.asRead = d := by
  have horders : d.orders.map Order.asRead = d.orders :=
    (List.map_congr_left fun o ho => h.asRead_order ho).trans (List.map_id _)
  rw [asRead, horders, h.map_taxRates]

theorem sorted (h : d.NoNegativeZero) : d.sorted.NoNegativeZero where
  taxRates := h.taxRates
  adjustments o ho a ha := by
    obtain ⟨o, hsorted, rfl⟩ := List.mem_map.1 ho
    exact h.adjustments o (mem_sortBy.1 hsorted) a (mem_sortBy.1 ha)

end Dataset.NoNegativeZero

def hundredths (n : Nat) : Decimal :=
  (Decimal.mk? false n 2).getD 0

theorem not_isNegativeZero_hundredths (n : Nat) : ¬(hundredths n).IsNegativeZero := by
  rw [hundredths, Decimal.mk?]
  split
  · exact fun h => absurd h.1 Bool.false_ne_true
  · exact fun h => absurd h.1 Bool.false_ne_true

/-- One order of a market day from two farms, with a fee and the tax on the fee. -/
def Dataset.marketDay (tax : Decimal) : Dataset where
  enterprises := [⟨⟨1⟩, "Food hub", true⟩, ⟨⟨2⟩, "Hill farm", false⟩, ⟨⟨3⟩, "Lake farm", true⟩]
  cycles := [⟨⟨1⟩, "Weekly", none⟩]
  fees := [⟨⟨1⟩, "Packing", .packing, ⟨1⟩⟩]
  taxRates := [⟨⟨1⟩, "Full rate", 0, none⟩]
  orders := [{
    id := ⟨1⟩
    number := "R1"
    distributor := ⟨1⟩
    cycle := ⟨1⟩
    completedAt := some ⟨0, 0, by decide⟩
    lineItems := [⟨⟨1⟩, ⟨2⟩⟩, ⟨⟨2⟩, ⟨3⟩⟩]
    adjustments := [
      ⟨⟨1⟩, ⟨1⟩, hundredths 1250, .fee ⟨1⟩, .order ⟨1⟩, false, "Packing"⟩,
      ⟨⟨2⟩, ⟨1⟩, tax, .taxRate ⟨1⟩, .adjustment ⟨1⟩, false, "Full rate"⟩] }]

theorem Dataset.validate_marketDay (tax : Decimal) : (marketDay tax).validate = .ok () :=
  rfl

theorem Dataset.distinct_marketDay (tax : Decimal) : (marketDay tax).Distinct where
  orders := (by decide : ([⟨1⟩] : List OrderId).Nodup)
  lineItems := (by decide : ([⟨1⟩, ⟨2⟩] : List LineItemId).Nodup)
  adjustments := (by decide : ([⟨1⟩, ⟨2⟩] : List AdjustmentId).Nodup)

def Dataset.quarterTax : Dataset :=
  .marketDay (hundredths 25)

theorem Dataset.noNegativeZero_quarterTax : quarterTax.NoNegativeZero where
  taxRates := by simp [quarterTax, marketDay, Decimal.IsNegativeZero]
  adjustments := by simp [quarterTax, marketDay, not_isNegativeZero_hundredths]

/-- The tax of the market day when it was rounded away. -/
def Dataset.roundedTax : Dataset :=
  .marketDay ((Decimal.mk? true 0 28).getD 0)

/-- The market day and an order of the next day, whose tax is included in the fee. -/
def Dataset.twoDays : Dataset :=
  { quarterTax with orders := quarterTax.orders ++ [{
      id := ⟨2⟩
      number := "R2"
      distributor := ⟨1⟩
      cycle := ⟨1⟩
      completedAt := some ⟨86400, 0, by decide⟩
      lineItems := [⟨⟨3⟩, ⟨2⟩⟩]
      adjustments := [
        ⟨⟨3⟩, ⟨2⟩, hundredths 900, .fee ⟨1⟩, .order ⟨2⟩, false, "Packing"⟩,
        ⟨⟨4⟩, ⟨2⟩, hundredths 75, .taxRate ⟨1⟩, .adjustment ⟨3⟩, true, "Full rate"⟩] }] }

theorem Dataset.distinct_twoDays : twoDays.Distinct := by
  constructor <;> decide

/-- A market day with a fee that is taxed at two rates on one order, not at all on a second one, and at
one rate on an order of another cycle. -/
def Dataset.twoRates : Dataset where
  enterprises := [⟨⟨1⟩, "Food hub", true⟩, ⟨⟨2⟩, "Hill farm", false⟩]
  cycles := [⟨⟨1⟩, "Weekly", none⟩, ⟨⟨2⟩, "Winter", none⟩]
  fees := [⟨⟨1⟩, "Packing", .packing, ⟨1⟩⟩]
  taxRates := [⟨⟨1⟩, "Full rate", 0, none⟩, ⟨⟨2⟩, "Reduced rate", 0, none⟩]
  orders :=
    let order (id : OrderId) (cycle : CycleId) (adjustments : List Adjustment) : Order := {
      id
      number := "R"
      distributor := ⟨1⟩
      cycle
      completedAt := some ⟨0, 0, by decide⟩
      lineItems := [⟨⟨id.value⟩, ⟨2⟩⟩]
      adjustments }
    [order ⟨1⟩ ⟨1⟩ [
      ⟨⟨1⟩, ⟨1⟩, hundredths 1250, .fee ⟨1⟩, .order ⟨1⟩, false, "Packing"⟩,
      ⟨⟨2⟩, ⟨1⟩, hundredths 25, .taxRate ⟨1⟩, .adjustment ⟨1⟩, false, "Full rate"⟩,
      ⟨⟨3⟩, ⟨1⟩, hundredths 100, .taxRate ⟨2⟩, .adjustment ⟨1⟩, true, "Reduced rate"⟩],
    order ⟨2⟩ ⟨1⟩ [⟨⟨4⟩, ⟨2⟩, hundredths 900, .fee ⟨1⟩, .order ⟨2⟩, false, "Packing"⟩],
    order ⟨3⟩ ⟨2⟩ [
      ⟨⟨5⟩, ⟨3⟩, hundredths 500, .fee ⟨1⟩, .order ⟨3⟩, false, "Packing"⟩,
      ⟨⟨6⟩, ⟨3⟩, hundredths 50, .taxRate ⟨1⟩, .adjustment ⟨5⟩, false, "Full rate"⟩]]

theorem Dataset.distinct_twoRates : twoRates.Distinct := by
  constructor <;> decide

end MarketFees
