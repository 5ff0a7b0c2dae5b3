import MarketFees.Proofs.Retain
import MarketFees.Report.Build

namespace MarketFees

namespace Charge

variable {f : Filters} {owner : FeeId → Except StoreError (Option EnterpriseId)}

/-- Reading owners with a record of the fees that are asked about, in turn. -/
abbrev Recording := ExceptT StoreError (StateM (List FeeId))

def recorded (owner : FeeId → Except StoreError (Option EnterpriseId)) (fee : FeeId) :
    Recording (Option EnterpriseId) := do
  modify (· ++ [fee])
  liftExcept (owner fee)

def recordAfter (owners : Owners) (asked : List FeeId) (fee : FeeId) : List FeeId :=
  if (owners.get? fee).isSome then asked else asked ++ [fee]

theorem run_bind (p : Recording α) (q : α → Recording β) (asked : List FeeId) :
    (p >>= q).run asked = ExceptT.bindCont q (p.run asked).1 (p.run asked).2 :=
  rfl

theorem run_lookUpOwner (owners : Owners) (asked : List FeeId) (fee : FeeId) :
    (lookUpOwner (recorded owner) owners fee).run asked =
      (lookUpOwner owner owners fee, recordAfter owners asked fee) := by
  rw [lookUpOwner, lookUpOwner, recordAfter, recorded]
  cases owners.get? fee with
  | some known => rfl
  | none => cases owner fee <;> rfl

/-- Every fee was asked about once, and its owner is known since. -/
structure Remembers (owners : Owners) (asked : List FeeId) : Prop where
  nodup : asked.Nodup
  known : ∀ fee ∈ asked, (owners.get? fee).isSome

variable {owners : Owners} {asked : List FeeId} {fee other : FeeId}

theorem Remembers.recordAfter_nodup (h : Remembers owners asked) (fee : FeeId) :
    (recordAfter owners asked fee).Nodup := by
  rw [recordAfter]
  split
  · exact h.nodup
  · next hunknown =>
    have hnew : fee ∉ asked := fun hmem => hunknown (h.known fee hmem)
    exact List.concat_eq_append ▸ h.nodup.concat hnew

theorem mem_recordAfter (h : other ∈ recordAfter owners asked fee) : other ∈ asked ∨ other = fee := by
  rw [recordAfter] at h
  split at h
  · exact .inl h
  · simpa using h

theorem Remembers.lookUpOwner {found : Option EnterpriseId} {owners' : Owners}
    (h : Remembers owners asked) (hlook : lookUpOwner owner owners fee = .ok (found, owners')) :
    Remembers owners' (recordAfter owners asked fee) where
  nodup := h.recordAfter_nodup fee
  known := by
    intro other hother
    rw [Charge.lookUpOwner] at hlook
    cases hget : owners.get? fee with
    | some known =>
      rw [hget] at hlook
      cases hlook
      rw [recordAfter, hget] at hother
      exact h.known other hother
    | none =>
      rw [hget] at hlook
      obtain ⟨found, -, hput⟩ := bind_eq_ok.1 hlook
      cases hput
      rw [Table.get?_put]
      split
      · rfl
      · next hne =>
        exact h.known other ((mem_recordAfter hother).resolve_right hne)

variable {charges : List Charge}

/-- With the record the charges retained are those without it. A fee is recorded once, and only if a
charge of it asks for its owner. -/
theorem run_retainFrom (h : Remembers owners asked) :
    ∃ asked', (retainFrom f (recorded owner) owners charges).run asked =
        (retainFrom f owner owners charges, asked') ∧
      asked'.Nodup ∧ ∀ fee ∈ asked', fee ∈ asked ∨ ∃ c ∈ charges, asksOwner f c ∧ c.fee = fee := by
  induction charges generalizing owners asked with
  | nil => exact ⟨asked, rfl, h.nodup, fun _ => .inl⟩
  | cons c rest ih =>
    -- What is known and recorded changes only where `c` asks for an owner; `Remembers` holds after it.
    have hlater (fee : FeeId) (hrest : ∃ c ∈ rest, asksOwner f c ∧ c.fee = fee) :
        ∃ c' ∈ c :: rest, asksOwner f c' ∧ c'.fee = fee := by
      obtain ⟨c', hc', hfee⟩ := hrest
      exact ⟨c', List.mem_cons_of_mem _ hc', hfee⟩
    by_cases hasks : asksOwner f c = true
    · have hhead : ∃ c' ∈ c :: rest, asksOwner f c' ∧ c'.fee = c.fee :=
        ⟨c, List.mem_cons_self .., hasks, rfl⟩
      rw [retainFrom_of_asksOwner hasks, retainFrom_of_asksOwner hasks, run_bind, run_lookUpOwner]
      cases hlook : lookUpOwner owner owners c.fee with
      | error e =>
        refine ⟨_, rfl, h.recordAfter_nodup c.fee, fun fee hfee => ?_⟩
        rcases mem_recordAfter hfee with hfee | rfl
        · exact .inl hfee
        · exact .inr hhead
      | ok looked =>
        obtain ⟨found, owners'⟩ := looked
        obtain ⟨asked', hrun, hnodup, hasked⟩ := ih (h.lookUpOwner hlook)
        refine ⟨asked', ?_, hnodup, fun fee hfee => ?_⟩
        · show (retainFrom f (recorded owner) owners' rest >>= _).run _ =
            (retainFrom f owner owners' rest >>= _, _)
          rw [run_bind, hrun]
          cases retainFrom f owner owners' rest <;> rfl
        · rcases hasked fee hfee with hfee | hfee
          · rcases mem_recordAfter hfee with hfee | rfl
            · exact .inl hfee
            · exact .inr hhead
          · exact .inr (hlater fee hfee)
    · obtain ⟨asked', hrun, hnodup, hasked⟩ := ih h
      refine ⟨asked', ?_, hnodup, fun fee hfee => (hasked fee hfee).imp_right (hlater fee)⟩
      cases hp : c.passes f with
      | false => rw [retainFrom_of_not_passes hp, retainFrom_of_not_passes hp, hrun]
      | true =>
        have hall : f.feeOwners.isEmpty = true := by simpa [asksOwner, hp] using hasks
        rw [retainFrom_of_passes hp hall, retainFrom_of_passes hp hall, run_bind, hrun]
        cases retainFrom f owner owners rest <;> rfl

theorem retain_eq_elim :
    retain f owner charges =
      ((charges.filter (asksOwner f)).findSome? fun c => failure? (owner c.fee)).elim
        (.ok (charges.filter (admitted f owner))) .error := by
  rw [retain_eq_mapM, map_const_mapM]

theorem run_retain :
    ∃ asked, (retain f (recorded owner) charges).run [] = (retain f owner charges, asked) ∧
      asked.Nodup ∧ ∀ fee ∈ asked, ∃ c ∈ charges, asksOwner f c ∧ c.fee = fee := by
  by_cases hsome : f.restrictsFees = true
  · have hnew : Remembers ∅ [] := ⟨.nil, by simp⟩
    obtain ⟨asked, hrun, hnodup, hasked⟩ := run_retainFrom hnew
    rw [retain, retain, if_pos hsome, if_pos hsome]
    refine ⟨asked, hrun, hnodup, fun fee hfee => ?_⟩
    simpa using hasked fee hfee
  · rw [retain, retain, if_neg hsome, if_neg hsome]
    exact ⟨[], rfl, .nil, by simp⟩

/-- Charges are retained as the filters admit them, unless the owner of a fee cannot be read: then the
first charge whose fee this is decides. The owner of a fee is read at most once, and only if a charge of
the fee passes the other filters. -/
theorem retain_reads (f : Filters) (catalog : Catalog) (charges : List Charge) :
    let owner := Report.ownerOf catalog
    retain f owner charges =
        ((charges.filter (asksOwner f)).findSome? fun c => failure? (owner c.fee)).elim
          (.ok (charges.filter (admitted f owner))) .error ∧
      ∃ asked, (retain f (recorded owner) charges).run [] = (retain f owner charges, asked) ∧
        asked.Nodup ∧ ∀ fee ∈ asked, ∃ c ∈ charges, asksOwner f c ∧ c.fee = fee :=
  ⟨retain_eq_elim, run_retain⟩

end Charge

end MarketFees
