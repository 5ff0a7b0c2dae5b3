import MarketFees.Json.Record
import MarketFees.Proofs.Json.Text
import MarketFees.Proofs.TimeText

namespace MarketFees.Json

variable {entity : Entity}

attribute [simp] Whole.null Whole.bool Whole.number Whole.string

@[simp]
theorem whole_array {items : List Json} : (array items).Whole ↔ ∀ item ∈ items, item.Whole :=
  ⟨fun | .array h => h, .array⟩

@[simp]
theorem whole_object {fields : List (String × Json)} :
    (object fields).Whole ↔ ∀ field ∈ fields, field.2.Whole :=
  ⟨fun | .object h => h, .object⟩

@[simp]
theorem whole_ofId (id : Id entity) : (ofId id).Whole :=
  .number _

@[simp]
theorem whole_ofDecimal (a : Decimal) : (ofDecimal a).Whole :=
  .string _

theorem whole_ofOption {f : α → Json} (h : ∀ a, (f a).Whole) (o : Option α) :
    (ofOption f o).Whole := by
  cases o with
  | none => exact .null
  | some a => exact h a

@[simp]
theorem whole_ofInstant? (t : Option Instant) : (ofOption ofInstant t).Whole :=
  whole_ofOption (fun _ => .string _) t

@[simp]
theorem whole_ofText? (text : Option String) : (ofOption string text).Whole :=
  whole_ofOption .string text

@[simp]
theorem toBool?_bool (value : Bool) : (bool value).toBool? = some value :=
  rfl

@[simp]
theorem toString?_string (text : String) : (string text).toString? = some text :=
  rfl

@[simp]
theorem toCase?_string (name : String) : (string name).toCase? = some name :=
  rfl

theorem Number.toInt?_ofInt (n : Int) : (ofInt n).toInt? = some n := by
  have hsign : ¬(decide (n < 0) = true ∧ n.natAbs = 0) := by
    rw [decide_eq_true_eq]
    omega
  rw [toInt?, ofInt, if_pos ⟨rfl, rfl, hsign⟩]
  simp only [decide_eq_true_eq, Option.some_inj]
  split <;> omega

@[simp]
theorem toId?_ofId (id : Id entity) : (ofId id).toId? = some id := by
  simp [ofId, ofInt, toId?, toInt?, Number.toInt?_ofInt, Id.ofInt?_toInt]

@[simp]
theorem toDecimal?_ofDecimal (a : Decimal) : (ofDecimal a).toDecimal? = some a.withoutZeroSign := by
  simp [ofDecimal, toDecimal?, Decimal.ofText?_toText]

@[simp]
theorem toInstant?_ofInstant (t : Instant) : (ofInstant t).toInstant? = some t := by
  simp [ofInstant, toInstant?, Instant.ofDocument?_toDocument]

theorem toOption?_ofOption {f : α → Json} {value : Json → Option α} (hf : ∀ a, f a ≠ .null)
    (hvalue : ∀ a, value (f a) = some a) (o : Option α) :
    toOption? value (ofOption f o) = some o := by
  cases o with
  | none => rfl
  | some a => simp [ofOption, toOption?, hf, hvalue]

@[simp]
theorem toOption?_ofInstant (t : Option Instant) :
    toOption? toInstant? (ofOption ofInstant t) = some t :=
  toOption?_ofOption (fun _ => Json.noConfusion) toInstant?_ofInstant t

@[simp]
theorem toOption?_string (text : Option String) :
    toOption? toString? (ofOption string text) = some text :=
  toOption?_ofOption (fun _ => Json.noConfusion) toString?_string text

theorem toList?_map {f : α → Json} {item : Json → Option α} {g : α → α}
    (h : ∀ a, item (f a) = some (g a)) (l : List α) :
    toList? item (.array (l.map f)) = some (l.map g) := by
  rw [toList?]
  induction l with
  | nil => rfl
  | cons a l ih => simp [h, ih]

end MarketFees.Json
