import MarketFees.Proofs.Retain
import MarketFees.Proofs.Success

namespace MarketFees

/-- Whatever makes a computation fail is an overflow. -/
def OnlyOverflows (x : Except Fault α) : Prop :=
  ∀ fault, x = .error fault → ∃ operation, fault = .overflow operation

namespace OnlyOverflows

theorem ok (a : α) : OnlyOverflows (.ok a) := by
  intro fault h
  cases h

theorem overflow (operation : Overflow) : OnlyOverflows (.error (.overflow operation) : Except Fault α) := by
  intro fault h
  cases h
  exact ⟨operation, rfl⟩

theorem elim (a : Option α) (operation : Overflow) :
    OnlyOverflows (a.elim (.error (.overflow operation)) .ok) := by
  cases a with
  | none => exact overflow operation
  | some a => exact ok a

theorem lift {x : Except StoreError α} (h : ∃ a, x = .ok a) : OnlyOverflows (liftM x) := by
  obtain ⟨a, rfl⟩ := h
  exact ok a

theorem bind {x : Except Fault α} {f : α → Except Fault β} (hx : OnlyOverflows x)
    (hf : ∀ a, OnlyOverflows (f a)) : OnlyOverflows (x >>= f) := by
  cases x with
  | error e =>
    intro fault h
    cases h
    exact hx e rfl
  | ok a => exact hf a

theorem mapM {f : α → Except Fault β} (hf : ∀ a, OnlyOverflows (f a)) (l : List α) :
    OnlyOverflows (l.mapM f) := by
  induction l with
  | nil => exact ok []
  | cons a rest ih =>
    rw [List.mapM_cons]
    exact (hf a).bind fun b => ih.bind fun bs => ok (b :: bs)

end OnlyOverflows

open OnlyOverflows

/-- Sums fail on overflows only, and ids are always found. -/
structure AmountSource.Readable (amounts : AmountSource) : Prop where
  amountSum : ∀ q, OnlyOverflows (amounts.amountSum q)
  adjustmentIds : ∀ q, ∃ ids, amounts.adjustmentIds q = .ok ids

theorem Snapshot.readable_amounts (s : Snapshot) : s.store.amounts.Readable where
  amountSum _ := elim _ .addition
  adjustmentIds _ := ⟨_, rfl⟩

theorem Totals.of_onlyOverflows (exclTax tax : Decimal) : OnlyOverflows (of exclTax tax) := by
  unfold of
  split
  · exact ok _
  · exact overflow .addition

section Report

variable {amounts : AmountSource} (h : amounts.Readable)

include h

theorem Totals.ofScope_onlyOverflows (scope : Scope) : OnlyOverflows (ofScope amounts scope) := by
  rw [ofScope]
  split
  · exact ok 0
  apply (h.amountSum _).bind
  intro feeTotal
  apply (lift (h.adjustmentIds _)).bind
  intro charged
  apply (h.amountSum _).bind
  intro includedTax
  have hlast (tax : Decimal) : OnlyOverflows (do of (← feeTotal.sub includedTax) tax) :=
    (elim _ .subtraction).bind fun exclTax => of_onlyOverflows exclTax tax
  split
  · exact hlast 0
  · exact (h.amountSum _).bind hlast

namespace Detail

theorem summary_onlyOverflows (level : Level) (details : List Detail) :
    OnlyOverflows (summary amounts level details) :=
  (Totals.ofScope_onlyOverflows h _).bind fun _ => ok _

theorem summedUp_onlyOverflows {rows : List Detail → Except Fault (List Row)}
    (hrows : ∀ details, OnlyOverflows (rows details)) (level : Level) (details : List Detail) :
    OnlyOverflows (summedUp amounts level rows details) := by
  apply (hrows details).bind
  intro result
  exact (summary_onlyOverflows h level details).bind fun _ => ok _

omit h in
theorem parted_onlyOverflows [BEq κ] {id : GroupKey → κ} {rows : List Detail → Except Fault (List Row)}
    (hrows : ∀ details, OnlyOverflows (rows details)) (details : List Detail) :
    OnlyOverflows (parted id rows details) :=
  (mapM hrows _).bind fun _ => ok _

theorem assemble_onlyOverflows (withSummaries : Bool) (details : List Detail) :
    OnlyOverflows (assemble amounts withSummaries details) := by
  cases withSummaries with
  | false => exact ok _
  | true =>
    apply parted_onlyOverflows
    apply summedUp_onlyOverflows h
    apply parted_onlyOverflows
    apply summedUp_onlyOverflows h
    apply parted_onlyOverflows
    apply summedUp_onlyOverflows h
    exact fun _ => ok _

end Detail

variable {catalog : Catalog} (hcatalog : catalog.Readable)

include hcatalog

theorem Report.entry_onlyOverflows (group : Group) : OnlyOverflows (entry amounts catalog group) := by
  apply (Totals.ofScope_onlyOverflows h group.scope).bind
  intro totals
  obtain ⟨position, d, hplaced⟩ := hcatalog.exists_placed group totals
  exact lift ⟨_, hplaced⟩

/-- Where the definitions and the adjustments of a store can be read, only an overflow keeps a report
from being made. -/
theorem Report.ofOrders_onlyOverflows (orders : List Order) (f : Filters) (options : Options) :
    OnlyOverflows (ofOrders orders f amounts catalog options) := by
  rw [ofOrders_eq]
  split
  · exact ok ∅
  apply (lift ⟨_, Charge.retain_eq fun fee => exists_ownerOf hcatalog fee⟩).bind
  intro kept
  apply (mapM (entry_onlyOverflows h hcatalog) _).bind
  intro entries
  exact (Detail.assemble_onlyOverflows h _ _).bind fun _ => ok _

end Report

end MarketFees
