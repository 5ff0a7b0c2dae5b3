import MarketFees.Json.Record
import MarketFees.Order

namespace MarketFees

structure Filters where
  startAt : Option Instant
  endAt : Option Instant
  distributors : List EnterpriseId
  cycles : List CycleId
  producers : List EnterpriseId
  fees : List FeeId
  feeOwners : List EnterpriseId
  deriving DecidableEq, Repr

namespace Filters

/-- Filters that restrict nothing. -/
def none : Filters :=
  ⟨.none, .none, [], [], [], [], []⟩

instance : Inhabited Filters :=
  ⟨none⟩

def completedBetween (f : Filters) (startAt endAt : Instant) : Filters :=
  { f with startAt, endAt }

/-- The id lists of both filters, and the period of the second if it has both ends. -/
def extend (f more : Filters) : Filters :=
  let f := { f with
    distributors := f.distributors ++ more.distributors
    cycles := f.cycles ++ more.cycles
    producers := f.producers ++ more.producers
    fees := f.fees ++ more.fees
    feeOwners := f.feeOwners ++ more.feeOwners }
  match more.startAt, more.endAt with
  | some startAt, some endAt => f.completedBetween startAt endAt
  | _, _ => f

/-- Whether a list of ids admits an id. -/
def allows [DecidableEq α] (ids : List α) (id : α) : Bool :=
  ids.isEmpty || ids.contains id

/-- Whether an order is complete, completed in the period, and of an admitted distributor and cycle. -/
def matchesOrder (f : Filters) (order : Order) : Bool :=
  match order.completedAt with
  | .none => false
  | some completedAt =>
    f.startAt.all (· ≤ completedAt) && f.endAt.all (completedAt ≤ ·) &&
      allows f.distributors order.distributor && allows f.cycles order.cycle

def allowsProducer (f : Filters) (id : EnterpriseId) : Bool :=
  allows f.producers id

def allowsFee (f : Filters) (id : FeeId) : Bool :=
  allows f.fees id

/-- Whether the owner of a fee is admitted. A fee without a definition has no owner. -/
def allowsFeeOwner (f : Filters) (owner : Option EnterpriseId) : Bool :=
  f.feeOwners.isEmpty || owner.any f.feeOwners.contains

/-- Whether something restricts producers, fees or owners. -/
def restrictsFees (f : Filters) : Bool :=
  !(f.producers.isEmpty && f.fees.isEmpty && f.feeOwners.isEmpty)

open Json

def ofJson? (j : Json) : Option Filters := do
  match ← j.record? ["start_at", "end_at", "distributor_ids", "order_cycle_ids", "producer_ids",
    "enterprise_fee_ids", "fee_owner_ids"] with
  | [startAt, endAt, distributors, cycles, producers, fees, feeOwners] =>
    return {
      startAt := ← orElse (toOption? toInstant?) .none startAt
      endAt := ← orElse (toOption? toInstant?) .none endAt
      distributors := ← orElse (toList? toId?) [] distributors
      cycles := ← orElse (toList? toId?) [] cycles
      producers := ← orElse (toList? toId?) [] producers
      fees := ← orElse (toList? toId?) [] fees
      feeOwners := ← orElse (toList? toId?) [] feeOwners }
  | _ => .none

def toJson (f : Filters) : Json :=
  .object [("start_at", ofOption ofInstant f.startAt), ("end_at", ofOption ofInstant f.endAt),
    ("distributor_ids", .array (f.distributors.map ofId)),
    ("order_cycle_ids", .array (f.cycles.map ofId)),
    ("producer_ids", .array (f.producers.map ofId)),
    ("enterprise_fee_ids", .array (f.fees.map ofId)),
    ("fee_owner_ids", .array (f.feeOwners.map ofId))]

end Filters

end MarketFees
