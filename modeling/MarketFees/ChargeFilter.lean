import MarketFees.Charge
import MarketFees.Table

namespace MarketFees.Charge

variable {m : Type → Type} [Monad m]

/-- The owners of fees that have been read. -/
abbrev Owners := Table FeeId (Option EnterpriseId)

/-- The owner of a fee, and the owners read after looking it up. -/
def lookUpOwner (owner : FeeId → m (Option EnterpriseId)) (owners : Owners) (fee : FeeId) :
    m (Option EnterpriseId × Owners) :=
  match owners.get? fee with
  | some known => pure (known, owners)
  | none => do
    let found ← owner fee
    return (found, owners.put fee found)

/-- The admitted charges, when these owners have been read already. -/
def retainFrom (f : Filters) (owner : FeeId → m (Option EnterpriseId)) :
    Owners → List Charge → m (List Charge)
  | _, [] => pure []
  | owners, c :: rest =>
    if !c.passes f then retainFrom f owner owners rest
    else if f.feeOwners.isEmpty then return c :: (← retainFrom f owner owners rest)
    else do
      let (found, owners) ← lookUpOwner owner owners c.fee
      let kept ← retainFrom f owner owners rest
      return if f.allowsFeeOwner found then c :: kept else kept

/-- The admitted charges in their order, with the owners of fees read through `owner`. -/
def retain (f : Filters) (owner : FeeId → m (Option EnterpriseId)) (charges : List Charge) :
    m (List Charge) :=
  if f.restrictsFees then retainFrom f owner ∅ charges else pure charges

end MarketFees.Charge
