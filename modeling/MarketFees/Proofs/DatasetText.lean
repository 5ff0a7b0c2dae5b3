import MarketFees.Dataset.Document
import MarketFees.Fault
import MarketFees.Proofs.Json.Record
import MarketFees.Proofs.Ledger.Import

namespace MarketFees

open Json

theorem Enterprise.ofJson?_toJson (e : Enterprise) : ofJson? e.toJson = some e := by
  simp [ofJson?, toJson, record?, fieldOf?, orElse]

theorem OrderCycle.ofJson?_toJson (c : OrderCycle) : ofJson? c.toJson = some c := by
  simp [ofJson?, toJson, record?, fieldOf?, orElse]

theorem Fee.ofJson?_toJson (f : Fee) : ofJson? f.toJson = some f := by
  simp [ofJson?, toJson, record?, fieldOf?, FeeType.ofJson?, FeeType.ofName?_name]

theorem TaxRate.ofJson?_toJson (r : TaxRate) : ofJson? r.toJson = some r.asRead := by
  simp [ofJson?, toJson, record?, fieldOf?, orElse, asRead]

theorem LineItem.ofJson?_toJson (item : LineItem) : ofJson? item.toJson = some item := by
  simp [ofJson?, toJson, record?, fieldOf?]

theorem Originator.ofJson?_toJson (o : Originator) : ofJson? o.toJson = some o := by
  cases o <;> simp [ofJson?, toJson, record?, fieldOf?]

theorem Originator.whole_toJson (o : Originator) : o.toJson.Whole := by
  cases o <;> simp [toJson]

theorem Adjustable.ofJson?_toJson (a : Adjustable) : ofJson? a.toJson = some a := by
  cases a <;> simp [ofJson?, toJson, record?, fieldOf?]

theorem Adjustable.whole_toJson (a : Adjustable) : a.toJson.Whole := by
  cases a <;> simp [toJson]

theorem Adjustment.ofJson?_toJson (a : Adjustment) : ofJson? a.toJson = some a.asRead := by
  simp [ofJson?, toJson, record?, fieldOf?, orElse, asRead, Originator.ofJson?_toJson,
    Adjustable.ofJson?_toJson]

theorem Adjustment.whole_toJson (a : Adjustment) : a.toJson.Whole := by
  simp [toJson, Originator.whole_toJson, Adjustable.whole_toJson]

theorem Order.ofJson?_toJson (o : Order) : ofJson? o.toJson = some o.asRead := by
  have hitems := toList?_map LineItem.ofJson?_toJson o.lineItems
  have hadjustments := toList?_map Adjustment.ofJson?_toJson o.adjustments
  simp [ofJson?, toJson, record?, fieldOf?, orElse, asRead, hitems, hadjustments]

theorem Order.whole_toJson (o : Order) : o.toJson.Whole := by
  simp [toJson, LineItem.toJson, Adjustment.whole_toJson]

namespace Dataset

theorem ofJson?_toJson (d : Dataset) : ofJson? d.toJson = some d.asRead := by
  simp [ofJson?, toJson, record?, fieldOf?, orElse, asRead, toList?_map Enterprise.ofJson?_toJson,
    toList?_map OrderCycle.ofJson?_toJson, toList?_map Fee.ofJson?_toJson,
    toList?_map TaxRate.ofJson?_toJson, toList?_map Order.ofJson?_toJson]

theorem whole_toJson (d : Dataset) : d.toJson.Whole := by
  simp [toJson, Enterprise.toJson, OrderCycle.toJson, Fee.toJson, TaxRate.toJson,
    Order.whole_toJson]

theorem ofText?_toJson (d : Dataset) (layout : Layout) :
    ofText? (d.toJson.toText layout) = some d.asRead := by
  rw [ofText?, Json.ofText?_toText d.whole_toJson]
  exact d.ofJson?_toJson

theorem strayOf?_asRead (o : Order) : strayOf? o.asRead = strayOf? o := by
  simp only [strayOf?, Order.asRead, List.find?_map, Option.map_map]
  rfl

theorem validate_asRead (d : Dataset) : d.asRead.validate = d.validate := by
  have hstray : d.asRead.stray? = d.stray? := by
    rw [stray?, asRead, List.findSome?_map, stray?]
    exact congrArg (d.orders.findSome? ·) (funext strayOf?_asRead)
  rw [validate, hstray, validate]

theorem asRead_eq_iff {d : Dataset} : d.asRead = d ↔ d.NoNegativeZero := by
  refine ⟨fun h => ⟨fun r hr => ?_, fun o ho a ha => ?_⟩, NoNegativeZero.asRead_eq⟩
  · have hrates : d.taxRates.map TaxRate.asRead = d.taxRates.map id :=
      (congrArg taxRates h).trans (List.map_id _).symm
    have hrate : r.asRead = r := List.map_inj_left.1 hrates r hr
    exact Decimal.withoutZeroSign_eq_iff.1 (congrArg TaxRate.amount hrate)
  · have horders : d.orders.map Order.asRead = d.orders.map id :=
      (congrArg orders h).trans (List.map_id _).symm
    have horder : o.asRead = o := List.map_inj_left.1 horders o ho
    have hadjustments : o.adjustments.map Adjustment.asRead = o.adjustments.map id :=
      (congrArg Order.adjustments horder).trans (List.map_id _).symm
    have hadjustment : a.asRead = a := List.map_inj_left.1 hadjustments a ha
    exact Decimal.withoutZeroSign_eq_iff.1 (congrArg Adjustment.amount hadjustment)

theorem noNegativeZero_asRead (d : Dataset) : d.asRead.NoNegativeZero where
  taxRates r hr := by
    obtain ⟨r, -, rfl⟩ := List.mem_map.1 hr
    exact r.amount.not_isNegativeZero_withoutZeroSign
  adjustments o ho a ha := by
    obtain ⟨o, -, rfl⟩ := List.mem_map.1 ho
    obtain ⟨a, -, rfl⟩ := List.mem_map.1 ha
    exact a.amount.not_isNegativeZero_withoutZeroSign

/-- The document of a dataset, on one line or indented, holds the dataset without the signs of its
zeros. What was read from it once is read again as it is, so only a dataset with such a sign differs
from what its document holds. -/
theorem roundTrip_document (d : Dataset) (layout : Layout) :
    ofText? (d.toJson.toText layout) = some d.asRead ∧ d.asRead.validate = d.validate ∧
      ofText? (d.asRead.toJson.toText layout) = some d.asRead ∧
      (ofText? (d.toJson.toText layout) = some d ↔ d.NoNegativeZero) := by
  have hread := d.ofText?_toJson layout
  have hagain := d.asRead.ofText?_toJson layout
  rw [d.noNegativeZero_asRead.asRead_eq] at hagain
  refine ⟨hread, d.validate_asRead, hagain, ?_⟩
  rw [hread, Option.some_inj]
  exact asRead_eq_iff

def roundedRate : Dataset :=
  { (∅ : Dataset) with taxRates := [⟨⟨1⟩, "", (Decimal.mk? true 0 28).getD 0, none⟩] }

/-- Both the dataset and its document change with the sign that is lost. -/
theorem roundTrip_document_roundedRate_ne : ∃ d d',
    ofText? "\x7b\"tax_rates\":[\x7b\"id\":1,\"name\":\"\",\"amount\":\"-0.4e-28\"\x7d]\x7d" = some d ∧
      d.validate = .ok () ∧ ofText? d.toText = some d' ∧ d' ≠ d ∧ d'.toText ≠ d.toText :=
  ⟨roundedRate, roundedRate.asRead, rfl, rfl, roundedRate.ofText?_toJson .compact, by decide,
    by decide +kernel⟩

end Dataset

end MarketFees
