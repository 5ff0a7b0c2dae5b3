import MarketFees.Proofs.Additivity
import MarketFees.Proofs.Lines
import MarketFees.Proofs.Narrowing

namespace MarketFees

/-- A period, which may be open at its ends. -/
structure Window where
  startAt : Option Instant
  endAt : Option Instant
  deriving DecidableEq, Repr

def Filters.during (f : Filters) (w : Window) : Filters :=
  { f with startAt := w.startAt, endAt := w.endAt }

/-- A report that has the rows of two others, with the sums of their totals. A row that one of them has
not counts as zero. -/
structure Report.SumOf (r a b : Report) : Prop where
  identified : r.Identified
  left : a.Identified
  right : b.Identified
  mem_iff : ∀ id, some id ∈ r.lines.map (·.1) ↔
    some id ∈ a.lines.map (·.1) ∨ some id ∈ b.lines.map (·.1)
  totals : ∀ id, (r.totalsAt id).SumOf (a.totalsAt id) (b.totalsAt id)

theorem Totals.SumOf.zero : (0 : Totals).SumOf 0 0 :=
  have h : (0 : Totals).Counts 0 0 0 := ⟨.zero 0, .zero 0, .zero 0⟩
  h.sumOf h h

namespace Report

variable {amounts : AmountSource} {catalog : Catalog} {options : Options} {charges : List Charge}

theorem joined_holds {orders : List Order} {f : Filters}
    {owner : FeeId → Except StoreError (Option EnterpriseId)} (id : RowId) :
    Charge.Joined (((Charge.ofOrders orders).filter (Charge.admitted f owner)).filter
      (id.holds ·.key)) := by
  cases id with
  | detail key => exact .of_key fun c hc => of_decide_eq_true (List.mem_filter.1 hc).2
  | summary node =>
    exact (Charge.complete_holds node).joined Charge.mem_ofOrders_of_mem_filter

/-- Reports on parts of the charges of a report add up to it where the totals of each row do. -/
theorem Accounts.sumOf {r a b : Report} (p : OrderId → Bool) (h : r.Accounts amounts options charges)
    (ha : a.Accounts amounts options (charges.filter (p ·.order.id)))
    (hb : b.Accounts amounts options (charges.filter (!p ·.order.id)))
    (htotals : ∀ id : RowId, let held := charges.filter (id.holds ·.key)
      ∃ totals ta tb, Totals.ofScope amounts (.ofCharges held) = .ok totals ∧
        Totals.ofScope amounts (.ofCharges (held.filter (p ·.order.id))) = .ok ta ∧
        Totals.ofScope amounts (.ofCharges (held.filter (!p ·.order.id))) = .ok tb ∧
        totals.SumOf ta tb) : r.SumOf a b where
  identified := h.toIdentified
  left := ha.toIdentified
  right := hb.toIdentified
  mem_iff id := by
    rw [h.mem_iff, ha.mem_iff, hb.mem_iff, ← and_or_left]
    refine and_congr_right fun _ => ?_
    constructor
    · rintro ⟨c, hc, hholds⟩
      cases hp : p c.order.id with
      | true => exact .inl ⟨c, List.mem_filter.2 ⟨hc, hp⟩, hholds⟩
      | false => exact .inr ⟨c, List.mem_filter.2 ⟨hc, by rw [hp]; rfl⟩, hholds⟩
    · rintro (⟨c, hc, hholds⟩ | ⟨c, hc, hholds⟩)
      · exact ⟨c, (List.mem_filter.1 hc).1, hholds⟩
      · exact ⟨c, (List.mem_filter.1 hc).1, hholds⟩
  totals id := by
    cases hshown : id.shown options with
    | false =>
      rw [h.totalsAt_of_not_shown hshown, ha.totalsAt_of_not_shown hshown,
        hb.totalsAt_of_not_shown hshown]
      exact .zero
    | true =>
      obtain ⟨totals, ta, tb, htotals, hta, htb, hsum⟩ := htotals id
      rw [List.filter_comm] at hta htb
      obtain rfl := Except.ok.inj (htotals.symm.trans (h.ofScope_eq hshown))
      obtain rfl := Except.ok.inj (hta.symm.trans (ha.ofScope_eq hshown))
      obtain rfl := Except.ok.inj (htb.symm.trans (hb.ofScope_eq hshown))
      exact hsum

theorem exists_accounts (htotals : ∀ scope, ∃ totals, Totals.ofScope amounts scope = .ok totals)
    (hcatalog : catalog.Readable) (orders : List Order) (f : Filters) (options : Options) :
    ∃ report, ofOrders orders f amounts catalog options = .ok report ∧
      report.Accounts amounts options
        ((Charge.ofOrders orders).filter (Charge.admitted f (ownerOf catalog))) := by
  have hkept : Charge.retain f (ownerOf catalog) (Charge.ofOrders orders) = .ok _ :=
    Charge.retain_eq fun fee => exists_ownerOf hcatalog fee
  obtain ⟨entries, hentries⟩ := exists_entries htotals hcatalog
    ((Charge.ofOrders orders).filter (Charge.admitted f (ownerOf catalog)))
  obtain ⟨rows, hrows⟩ := Detail.exists_assemble htotals options.summaries (sortByKey entries)
  have hreport : ofOrders orders f amounts catalog options = .ok ⟨rows⟩ :=
    ofOrders_eq_ok.2 ⟨_, entries, hkept, hentries, hrows⟩
  exact ⟨⟨rows⟩, hreport, accounts_of_ofOrders hkept hreport⟩

theorem exists_sumOf {orders : List Order} (hbooked : Booked orders) (hstay : TaxesStay orders)
    (hrange : InRange (adjustmentsIn orders)) (hcatalog : catalog.Readable) (f : Filters)
    (w w₁ w₂ : Window) (options : Options) (p : OrderId → Bool) :
    ∃ r a b,
      ofOrders orders (f.during w) (Snapshot.amountsOf orders) catalog options = .ok r ∧
      ofOrders (orders.filter (p ·.id)) (f.during w₁) (Snapshot.amountsOf orders) catalog options =
        .ok a ∧
      ofOrders (orders.filter (!p ·.id)) (f.during w₂) (Snapshot.amountsOf orders) catalog options =
        .ok b ∧
      r.SumOf a b := by
  have htotals := hrange.exists_totals hbooked
  obtain ⟨r, hr, haccounts⟩ := exists_accounts htotals hcatalog orders (f.during w) options
  obtain ⟨a, ha, hleft⟩ :=
    exists_accounts htotals hcatalog (orders.filter (p ·.id)) (f.during w₁) options
  obtain ⟨b, hb, hright⟩ :=
    exists_accounts htotals hcatalog (orders.filter (!p ·.id)) (f.during w₂) options
  refine ⟨r, a, b, hr, ha, hb, ?_⟩
  rw [Charge.ofOrders_filter, List.filter_comm] at hleft hright
  -- The period makes no difference to which charges are admitted.
  refine haccounts.sumOf p hleft hright fun id => ?_
  exact (joined_holds id).exists_totals_sumOf p hbooked Charge.mem_ofOrders_of_mem_filter
    hstay hrange

end Report

namespace Snapshot

variable {s : Snapshot} {f : Filters} {permission : Permission} {w w₁ w₂ : Window}

theorem mem_search {o : Order} : o ∈ s.search f permission ↔
    o ∈ s.orders ∧ f.matchesOrder o = true ∧ permission o = true := by
  rw [search, List.mem_filter, Bool.and_eq_true]

theorem search_eq_filter {p : OrderId → Bool} (h : ∀ o ∈ s.orders,
    o ∈ s.search (f.during w₁) permission ↔ o ∈ s.search (f.during w) permission ∧ p o.id = true) :
    s.search (f.during w₁) permission = (s.search (f.during w) permission).filter (p ·.id) := by
  rw [search, search, List.filter_filter]
  apply List.filter_congr
  intro o ho
  have hiff := h o ho
  rw [search, search, List.mem_filter, List.mem_filter] at hiff
  rw [Bool.eq_iff_iff, Bool.and_comm (p o.id), Bool.and_eq_true]
  simpa [ho] using hiff

/-- A report on some of the visible orders needs no more than the sums over all of them. -/
theorem run_during (hids : (s.orders.map (·.id)).Nodup) (options : Report.Options)
    (hsubset : ∀ o ∈ s.search (f.during w₁) permission, o ∈ s.search (f.during w) permission) :
    Report.run s.store (f.during w₁) permission options =
      Report.ofOrders (s.search (f.during w₁) permission) (f.during w₁)
        (amountsOf (s.search (f.during w) permission)) s.store.catalog options := by
  refine Report.ofOrders_congr (fun q hq => ?_) _ _ _
  refine agreeOn_visible hids (f.during w) permission q fun id hid => ?_
  obtain ⟨o, ho, rfl⟩ := List.mem_map.1 (hq id hid)
  exact List.mem_map_of_mem (hsubset o ho)

/-- Of adjacent periods, between which nothing was completed, an order of both together falls in one. -/
theorem search_adjacent (f : Filters) (permission : Permission) {a b c d : Instant} (hbd : b ≤ d) (hac : a ≤ c) (hbc : ¬c ≤ b)
    (hgap : ∀ o ∈ s.orders, ∀ t ∈ o.completedAt, t ≤ b ∨ c ≤ t) :
    (∀ o ∈ s.search (f.during ⟨a, b⟩) permission, o ∉ s.search (f.during ⟨c, d⟩) permission) ∧
    ∀ o, o ∈ s.search (f.during ⟨a, d⟩) permission ↔
      o ∈ s.search (f.during ⟨a, b⟩) permission ∨ o ∈ s.search (f.during ⟨c, d⟩) permission := by
  have htrans {x y z : Instant} (hxy : x ≤ y) (hyz : y ≤ z) : x ≤ z := Std.TransCmp.isLE_trans hxy hyz
  have hmatches (o : Order) (x y : Instant) : (f.during ⟨x, y⟩).matchesOrder o = true ↔
      (∃ t ∈ o.completedAt, x ≤ t ∧ t ≤ y) ∧ f.admitsOrder o = true := by
    rw [Filters.matchesOrder, Filters.admitsOrder]
    cases o.completedAt <;> simp [Filters.during, and_assoc]
  simp only [mem_search, hmatches]
  constructor
  · rintro o ⟨ho, ⟨⟨t, ht, -, htb⟩, -⟩, -⟩ ⟨-, ⟨⟨t', ht', hct, -⟩, -⟩, -⟩
    obtain rfl := Option.mem_unique ht ht'
    exact hbc (htrans hct htb)
  · intro o
    constructor
    · rintro ⟨ho, ⟨⟨t, ht, hat, htd⟩, hadmits⟩, hpermission⟩
      rcases hgap o ho t ht with htb | hct
      · exact .inl ⟨ho, ⟨⟨t, ht, hat, htb⟩, hadmits⟩, hpermission⟩
      · exact .inr ⟨ho, ⟨⟨t, ht, hct, htd⟩, hadmits⟩, hpermission⟩
    · rintro (⟨ho, ⟨⟨t, ht, hat, htb⟩, hadmits⟩, hpermission⟩ |
        ⟨ho, ⟨⟨t, ht, hct, htd⟩, hadmits⟩, hpermission⟩)
      · exact ⟨ho, ⟨⟨t, ht, hat, htrans htb hbd⟩, hadmits⟩, hpermission⟩
      · exact ⟨ho, ⟨⟨t, ht, htrans hac hct, htd⟩, hadmits⟩, hpermission⟩

end Snapshot

/-- On every ledger that datasets were stored in, the report on two periods that have no visible order
in common is the sum of the reports on each. -/
theorem run_windows_sumOf {l : Ledger} (hl : l.Reached) {f : Filters} {permission : Permission}
    {w w₁ w₂ : Window} {visible visible₁ visible₂ : List Order} (options : Report.Options)
    (hvisible : l.store.search (f.during w) permission = .ok visible)
    (hvisible₁ : l.store.search (f.during w₁) permission = .ok visible₁)
    (hvisible₂ : l.store.search (f.during w₂) permission = .ok visible₂)
    (hdisjoint : ∀ o ∈ visible₁, o ∉ visible₂)
    (hunion : ∀ o, o ∈ visible ↔ o ∈ visible₁ ∨ o ∈ visible₂)
    (hstay : TaxesStay visible) (hrange : InRange (adjustmentsIn visible)) :
    ∃ report report₁ report₂,
      Report.run l.store (f.during w) permission options = .ok report ∧
      Report.run l.store (f.during w₁) permission options = .ok report₁ ∧
      Report.run l.store (f.during w₂) permission options = .ok report₂ ∧
      report.SumOf report₁ report₂ := by
  have hids := hl.sound.nodup_ids
  have hbooked := hl.sound.booked
  rw [hl.sound.store_eq] at *
  obtain rfl := Except.ok.inj hvisible
  obtain rfl := Except.ok.inj hvisible₁
  obtain rfl := Except.ok.inj hvisible₂
  let p (id : OrderId) : Bool := id ∈ (l.snapshot.search (f.during w₁) permission).map (·.id)
  have hp : ∀ o ∈ l.snapshot.orders,
      p o.id = true ↔ o ∈ l.snapshot.search (f.during w₁) permission := by
    intro o ho
    rw [decide_eq_true_iff, List.mem_map]
    constructor
    · rintro ⟨o', ho', hid⟩
      rwa [← List.inj_on_of_nodup_map hids (Snapshot.mem_search.1 ho').1 ho hid]
    · exact fun hmem => ⟨o, hmem, rfl⟩
  have hfirst : l.snapshot.search (f.during w₁) permission =
      (l.snapshot.search (f.during w) permission).filter (p ·.id) := by
    refine Snapshot.search_eq_filter fun o ho => ?_
    rw [hp o ho, hunion]
    exact ⟨fun h => ⟨.inl h, h⟩, And.right⟩
  have hsecond : l.snapshot.search (f.during w₂) permission =
      (l.snapshot.search (f.during w) permission).filter (!p ·.id) := by
    refine Snapshot.search_eq_filter (p := (!p ·)) fun o ho => ?_
    rw [Bool.not_eq_true', Bool.eq_false_iff, Ne, hp o ho, hunion]
    exact ⟨fun h => ⟨.inr h, fun h' => hdisjoint o h' h⟩, fun h => h.1.resolve_left h.2⟩
  obtain ⟨r, a, b, hr, ha, hb, hsum⟩ := Report.exists_sumOf (hbooked.filter _) hstay hrange
    l.snapshot.readable f w w₁ w₂ options p
  refine ⟨r, a, b, ?_, ?_, ?_, hsum⟩
  · rw [Snapshot.run_during hids options fun o ho => ho]
    exact hr
  · rw [Snapshot.run_during hids options fun o ho => (hunion o).2 (.inl ho), hfirst]
    exact ha
  · rw [Snapshot.run_during hids options fun o ho => (hunion o).2 (.inr ho), hsecond]
    exact hb

theorem run_twoDays_sumOf :
    let first : Instant := ⟨0, 0, by decide⟩
    let second : Instant := ⟨86400, 0, by decide⟩
    ∃ l visible visible₁ visible₂, Ledger.new.load .twoDays = .ok l ∧
      l.store.search (Filters.none.during ⟨first, second⟩) .everything = .ok visible ∧
      l.store.search (Filters.none.during ⟨first, first⟩) .everything = .ok visible₁ ∧
      l.store.search (Filters.none.during ⟨second, second⟩) .everything = .ok visible₂ ∧
      TaxesStay visible ∧ InRange (adjustmentsIn visible) ∧
      ∃ report report₁ report₂,
        Report.run l.store (Filters.none.during ⟨first, second⟩) .everything ⟨true⟩ = .ok report ∧
        Report.run l.store (Filters.none.during ⟨first, first⟩) .everything ⟨true⟩ = .ok report₁ ∧
        Report.run l.store (Filters.none.during ⟨second, second⟩) .everything ⟨true⟩ = .ok report₂ ∧
        report.SumOf report₁ report₂ := by
  intro first second
  obtain ⟨l, hload, hreached, hstore⟩ := Ledger.exists_load (d := .twoDays) rfl Dataset.distinct_twoDays
  let s := Snapshot.ofDataset Dataset.twoDays.sorted.asRead
  have hsearch (w : Window) : l.store.search (Filters.none.during w) .everything =
      .ok (s.search (Filters.none.during w) .everything) := by
    rw [hstore]
    rfl
  have horders : s.orders = Dataset.twoDays.orders := by cbv
  have hvisible : s.search (Filters.none.during ⟨first, second⟩) .everything =
      Dataset.twoDays.orders := by cbv
  have hgap : ∀ o ∈ s.orders, ∀ t ∈ o.completedAt, t ≤ first ∨ second ≤ t := by
    rw [horders]
    decide
  have hle : first ≤ second := by decide
  have hnot : ¬second ≤ first := by decide
  obtain ⟨hdisjoint, hunion⟩ := s.search_adjacent .none .everything hle hle hnot hgap
  have hstay : TaxesStay (s.search (Filters.none.during ⟨first, second⟩) .everything) := by
    rw [hvisible]
    unfold TaxesStay
    decide
  have hrange : InRange (adjustmentsIn (s.search (Filters.none.during ⟨first, second⟩) .everything)) := by
    rw [hvisible]
    unfold InRange
    decide
  exact ⟨l, _, _, _, hload, hsearch _, hsearch _, hsearch _, hstay, hrange,
    run_windows_sumOf hreached ⟨true⟩ (hsearch _) (hsearch _) (hsearch _) hdisjoint hunion hstay hrange⟩

end MarketFees
