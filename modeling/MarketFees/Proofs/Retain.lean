import MarketFees.ChargeFilter
import MarketFees.Fault
import MarketFees.Proofs.Sequence
import MarketFees.Proofs.Table

namespace MarketFees.Charge

variable {f : Filters} {owner : FeeId → Except StoreError (Option EnterpriseId)}

def admitted (f : Filters) (owner : FeeId → Except StoreError (Option EnterpriseId)) (c : Charge) :
    Bool :=
  c.passes f && f.allowsFeeOwner (owner c.fee).toOption.join

/-- Whether the owner of a charge's fee has to be read. -/
def asksOwner (f : Filters) (c : Charge) : Bool :=
  c.passes f && !f.feeOwners.isEmpty

section

variable {m : Type → Type} [Monad m] {read : FeeId → m (Option EnterpriseId)}
  {owners : Owners} {c : Charge} {rest : List Charge}

theorem retainFrom_of_not_passes (hp : c.passes f = false) :
    retainFrom f read owners (c :: rest) = retainFrom f read owners rest := by
  rw [retainFrom, hp, Bool.not_false, if_pos rfl]

theorem retainFrom_of_passes (hp : c.passes f = true) (hall : f.feeOwners.isEmpty = true) :
    retainFrom f read owners (c :: rest) = do return c :: (← retainFrom f read owners rest) := by
  rw [retainFrom, hp, Bool.not_true, if_neg Bool.false_ne_true, if_pos hall]

theorem retainFrom_of_asksOwner (hasks : asksOwner f c = true) :
    retainFrom f read owners (c :: rest) = do
      let (found, owners) ← lookUpOwner read owners c.fee
      let kept ← retainFrom f read owners rest
      return if f.allowsFeeOwner found then c :: kept else kept := by
  obtain ⟨hp, hsome⟩ := Bool.and_eq_true_iff.1 hasks
  rw [Bool.not_eq_true'] at hsome
  rw [retainFrom, hp, Bool.not_true, if_neg Bool.false_ne_true, hsome, if_neg Bool.false_ne_true]

end

theorem lookUpOwner_eq {owners : Owners} (h : owners.Agrees owner) (fee : FeeId) :
    ∃ owners' : Owners, owners'.Agrees owner ∧
      lookUpOwner owner owners fee = (owner fee).map (·, owners') := by
  rw [lookUpOwner]
  split
  · next known hget =>
    refine ⟨owners, h, ?_⟩
    rw [h fee known hget]
    rfl
  · cases hread : owner fee with
    | error e => exact ⟨owners, h, rfl⟩
    | ok found => exact ⟨_, h.put hread, rfl⟩

variable {charges kept : List Charge}

theorem retainFrom_eq {owners : Owners} (h : owners.Agrees owner) :
    retainFrom f owner owners charges =
      ((charges.filter (asksOwner f)).mapM (owner ·.fee)).map fun _ =>
        charges.filter (admitted f owner) := by
  induction charges generalizing owners with
  | nil => rfl
  | cons c rest ih =>
    rw [List.filter_cons, List.filter_cons]
    by_cases hasks : asksOwner f c = true
    · obtain ⟨hp, -⟩ := Bool.and_eq_true_iff.1 hasks
      obtain ⟨owners', h', hlook⟩ := lookUpOwner_eq h c.fee
      rw [retainFrom_of_asksOwner hasks, hlook, if_pos hasks, List.mapM_cons]
      cases hread : owner c.fee with
      | error e => rfl
      | ok found =>
        have hadmitted : admitted f owner c = f.allowsFeeOwner found := by
          rw [admitted, hp, hread]
          rfl
        simp only [Except.map, ok_bind, ih h', hadmitted]
        cases (rest.filter (asksOwner f)).mapM (owner ·.fee) <;> rfl
    · rw [if_neg hasks]
      cases hp : c.passes f with
      | false =>
        have hadmitted : admitted f owner c = false := by rw [admitted, hp, Bool.false_and]
        rw [retainFrom_of_not_passes hp, ih h, hadmitted]
        rfl
      | true =>
        have hall : f.feeOwners.isEmpty = true := by simpa [asksOwner, hp] using hasks
        have hadmitted : admitted f owner c = true := by
          rw [admitted, hp, Filters.allowsFeeOwner, hall]
          rfl
        rw [retainFrom_of_passes hp hall, ih h, hadmitted]
        cases (rest.filter (asksOwner f)).mapM (owner ·.fee) <;> rfl

/-- Retaining charges reads the owners that are asked for, and filters the charges. -/
theorem retain_eq_mapM :
    retain f owner charges =
      ((charges.filter (asksOwner f)).mapM (owner ·.fee)).map fun _ =>
        charges.filter (admitted f owner) := by
  rw [retain]
  split
  · exact retainFrom_eq .empty
  · next hnone =>
    have hasks : charges.filter (asksOwner f) = [] := by
      rw [List.filter_eq_nil_iff]
      simp_all [Filters.restrictsFees, asksOwner]
    have hadmitted : charges.filter (admitted f owner) = charges := by
      rw [List.filter_eq_self]
      simp_all [Filters.restrictsFees, admitted, passes, Filters.allowsProducer, Filters.allowsFee,
        Filters.allows, Filters.allowsFeeOwner]
    rw [hasks, hadmitted]
    rfl

theorem retain_eq_ok (hok : retain f owner charges = .ok kept) :
    kept = charges.filter (admitted f owner) := by
  rw [retain_eq_mapM] at hok
  cases hread : (charges.filter (asksOwner f)).mapM (owner ·.fee) with
  | error e =>
    rw [hread] at hok
    cases hok
  | ok owners =>
    rw [hread] at hok
    exact (Except.ok.inj hok).symm

theorem retain_eq_of_asksOwner (hread : ∀ c ∈ charges, asksOwner f c → ∃ found, owner c.fee = .ok found) :
    retain f owner charges = .ok (charges.filter (admitted f owner)) := by
  have hasked : ∀ c ∈ charges.filter (asksOwner f), ∃ found, owner c.fee = .ok found := by
    intro c hc
    obtain ⟨hc, hasks⟩ := List.mem_filter.1 hc
    exact hread c hc hasks
  obtain ⟨owners, howners⟩ := exists_mapM_eq_ok hasked
  rw [retain_eq_mapM, howners]
  rfl

theorem retain_eq (hread : ∀ fee, ∃ found, owner fee = .ok found) :
    retain f owner charges = .ok (charges.filter (admitted f owner)) :=
  retain_eq_of_asksOwner fun c _ _ => hread c.fee

theorem exists_owner_of_retain (hok : retain f owner charges = .ok kept) {c : Charge} (hc : c ∈ charges)
    (hasks : asksOwner f c) : ∃ found, owner c.fee = .ok found := by
  rw [retain_eq_mapM] at hok
  cases hread : (charges.filter (asksOwner f)).mapM (owner ·.fee) with
  | error e =>
    rw [hread] at hok
    cases hok
  | ok owners =>
    obtain ⟨found, -, hfound⟩ := exists_of_mem_of_mapM hread (List.mem_filter.2 ⟨hc, hasks⟩)
    exact ⟨found, hfound⟩

end MarketFees.Charge
