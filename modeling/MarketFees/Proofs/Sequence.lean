import Mathlib.Data.List.Forall2
import Mathlib.Data.List.SplitBy

namespace MarketFees

variable {ε : Type}

theorem ok_bind {a : α} {f : α → Except ε β} : (Except.ok a >>= f) = f a :=
  rfl

theorem bind_eq_ok {x : Except ε α} {f : α → Except ε β} {b : β} :
    (x >>= f) = .ok b ↔ ∃ a, x = .ok a ∧ f a = .ok b := by
  cases x <;> simp [bind, Except.bind]

theorem bind_congr_ok {x : Except ε α} {f g : α → Except ε β} (h : ∀ a, x = .ok a → f a = g a) :
    (x >>= f) = (x >>= g) := by
  cases x with
  | error e => rfl
  | ok a => exact h a rfl

theorem map_bind_map {x : Except ε α} {g : α → α'} {f : α → Except ε β} {f' : α' → Except ε β'}
    {k : β → β'} (h : ∀ a, f' (g a) = (f a).map k) : (x.map g >>= f') = (x >>= f).map k := by
  cases x with
  | error e => rfl
  | ok a => exact h a

theorem bind_map {x : Except ε α} {f : α → Except ε β} {f' : α → Except ε β'} {k : β → β'}
    (h : ∀ a, f' a = (f a).map k) : (x >>= f') = (x >>= f).map k := by
  cases x with
  | error e => rfl
  | ok a => exact h a

theorem mapM_map_map {f : α → Except ε β} {f' : α' → Except ε β'} {g : α → α'} {k : β → β'}
    {l : List α} (h : ∀ a ∈ l, f' (g a) = (f a).map k) :
    (l.map g).mapM f' = (l.mapM f).map (List.map k) := by
  induction l with
  | nil => rfl
  | cons a rest ih =>
    rw [List.map_cons, List.mapM_cons, List.mapM_cons, h a (List.mem_cons_self ..)]
    refine map_bind_map fun b => ?_
    rw [ih fun c hc => h c (List.mem_cons_of_mem _ hc)]
    exact map_bind_map fun bs => rfl

theorem mapM_congr {f g : α → Except ε β} {l : List α} (h : ∀ a ∈ l, f a = g a) :
    l.mapM f = l.mapM g := by
  induction l with
  | nil => rfl
  | cons a rest ih =>
    rw [List.mapM_cons, List.mapM_cons, h a (List.mem_cons_self ..),
      ih fun b hb => h b (List.mem_cons_of_mem _ hb)]

/-- Lists whose elements do not differ in what a step depends on. -/
theorem mapM_eq_of_map_eq {f : α → Except ε β} {g : α → γ} {l m : List α} (h : l.map g = m.map g)
    (hf : ∀ a b, g a = g b → f a = f b) : l.mapM f = m.mapM f := by
  induction l generalizing m with
  | nil => rw [List.map_eq_nil_iff.1 h.symm]
  | cons a rest ih =>
    obtain ⟨b, rest', rfl, hb, hrest⟩ := List.map_eq_cons_iff.1 h.symm
    rw [List.mapM_cons, List.mapM_cons, hf a b hb.symm, ih hrest.symm]

/-- Of a step only that part of the result matters that what follows depends on. -/
theorem map_bind_congr {x x' : Except ε α} {k : α → γ} {f f' : α → Except ε β} {k' : β → δ}
    (hx : x.map k = x'.map k) (hf : ∀ a a', k a = k a' → (f a).map k' = (f' a').map k') :
    (x >>= f).map k' = (x' >>= f').map k' := by
  cases x with
  | error e =>
    cases x' with
    | error e' =>
      obtain rfl := Except.error.inj hx
      rfl
    | ok a' => cases hx
  | ok a =>
    cases x' with
    | error e' => cases hx
    | ok a' => exact hf a a' (Except.ok.inj hx)

theorem mapM_map_congr {f f' : α → Except ε β} {g : α → γ} {k : β → δ} {l m : List α}
    (h : l.map g = m.map g) (hf : ∀ a a', g a = g a' → (f a).map k = (f' a').map k) :
    (l.mapM f).map (List.map k) = (m.mapM f').map (List.map k) := by
  induction l generalizing m with
  | nil =>
    rw [List.map_eq_nil_iff.1 h.symm]
    rfl
  | cons a rest ih =>
    obtain ⟨a', rest', rfl, ha, hrest⟩ := List.map_eq_cons_iff.1 h.symm
    rw [List.mapM_cons, List.mapM_cons]
    apply map_bind_congr (hf a a' ha.symm)
    intro b b' hb
    apply map_bind_congr (ih hrest.symm)
    intro bs bs' hbs
    apply congrArg Except.ok
    rw [List.map_cons, List.map_cons, hb, hbs]

theorem mapM_eq_ok {f : α → Except ε β} {g : α → β} {l : List α} (h : ∀ a ∈ l, f a = .ok (g a)) :
    l.mapM f = .ok (l.map g) := by
  rw [mapM_congr h]
  exact List.mapM_pure

theorem mapM_eq_ok_iff {f : α → Except ε β} {l : List α} {results : List β} :
    l.mapM f = .ok results ↔ List.Forall₂ (fun a b => f a = .ok b) l results := by
  induction l generalizing results with
  | nil => simp [pure, Except.pure, eq_comm]
  | cons a rest ih =>
    rw [List.mapM_cons, bind_eq_ok, List.forall₂_cons_left_iff]
    constructor
    · rintro ⟨b, hb, h⟩
      obtain ⟨bs, hbs, h⟩ := bind_eq_ok.1 h
      cases h
      exact ⟨b, bs, hb, ih.1 hbs, rfl⟩
    · rintro ⟨b, bs, hb, hbs, rfl⟩
      exact ⟨b, hb, bind_eq_ok.2 ⟨bs, ih.2 hbs, rfl⟩⟩

theorem map_eq_map_iff {f : α → β} {g : α → γ} (h : ∀ a b, f a = f b ↔ g a = g b) {l m : List α} :
    l.map f = m.map f ↔ l.map g = m.map g := by
  simp only [← List.forall₂_eq_eq_eq, List.forall₂_map_left_iff, List.forall₂_map_right_iff, h]

theorem exists_forall₂ {r : α → β → Prop} {g : γ → β} {p : α → γ → Prop} {as : List α} {bs : List β}
    (h : List.Forall₂ r as bs) (hpick : ∀ a ∈ as, ∀ b, r a b → ∃ c, g c = b ∧ p a c) :
    ∃ cs : List γ, cs.map g = bs ∧ List.Forall₂ p as cs := by
  induction h with
  | nil => exact ⟨[], rfl, .nil⟩
  | cons hab hrest ih =>
    obtain ⟨c, hc, hp⟩ := hpick _ (List.mem_cons_self ..) _ hab
    obtain ⟨cs, hcs, hps⟩ := ih fun a ha => hpick a (List.mem_cons_of_mem _ ha)
    exact ⟨c :: cs, by rw [List.map_cons, hc, hcs], .cons hp hps⟩

theorem exists_of_mem_mapM {f : α → Except ε β} {l : List α} {results : List β}
    (h : l.mapM f = .ok results) {b : β} (hb : b ∈ results) : ∃ a ∈ l, f a = .ok b := by
  induction mapM_eq_ok_iff.1 h with
  | nil => simp at hb
  | cons hab hrest ih =>
    rcases List.mem_cons.1 hb with rfl | hb
    · exact ⟨_, List.mem_cons_self .., hab⟩
    · obtain ⟨a, ha, hab⟩ := ih (mapM_eq_ok_iff.2 hrest) hb
      exact ⟨a, List.mem_cons_of_mem _ ha, hab⟩

theorem exists_of_mem_of_mapM {f : α → Except ε β} {l : List α} {results : List β}
    (h : l.mapM f = .ok results) {a : α} (ha : a ∈ l) : ∃ b ∈ results, f a = .ok b := by
  induction mapM_eq_ok_iff.1 h with
  | nil => simp at ha
  | cons hab hrest ih =>
    rcases List.mem_cons.1 ha with rfl | ha
    · exact ⟨_, List.mem_cons_self .., hab⟩
    · obtain ⟨b, hb, hab⟩ := ih (mapM_eq_ok_iff.2 hrest) ha
      exact ⟨b, List.mem_cons_of_mem _ hb, hab⟩

theorem exists_mapM_eq_ok {f : α → Except ε β} {l : List α} (h : ∀ a ∈ l, ∃ b, f a = .ok b) :
    ∃ results, l.mapM f = .ok results := by
  induction l with
  | nil => exact ⟨[], rfl⟩
  | cons a rest ih =>
    obtain ⟨b, hb⟩ := h a (List.mem_cons_self ..)
    obtain ⟨bs, hbs⟩ := ih fun c hc => h c (List.mem_cons_of_mem _ hc)
    exact ⟨b :: bs, by rw [List.mapM_cons, hb, hbs]; rfl⟩

theorem map_of_mapM {f : α → Except ε β} {g : β → γ} {k : α → γ} {l : List α} {results : List β}
    (h : l.mapM f = .ok results) (hkey : ∀ a b, f a = .ok b → g b = k a) : results.map g = l.map k := by
  induction mapM_eq_ok_iff.1 h with
  | nil => rfl
  | @cons a b as bs hab hrest ih =>
    rw [List.map_cons, List.map_cons, hkey a b hab, ih (mapM_eq_ok_iff.2 hrest)]

def failure? : Except ε α → Option ε
  | .ok _ => none
  | .error e => some e

theorem map_const_mapM {g : α → Except ε β} {l : List α} {c : γ} :
    (l.mapM g).map (fun _ => c) = (l.findSome? fun a => failure? (g a)).elim (.ok c) .error := by
  induction l with
  | nil => rfl
  | cons a rest ih =>
    rw [List.mapM_cons, List.findSome?_cons]
    cases g a with
    | error e => rfl
    | ok b =>
      rw [failure?, ← ih]
      cases rest.mapM g <;> rfl

/-- Steps in turn fail as the first of them that fails, or give the results of all. -/
theorem mapM_elim {failure : α → Option γ} {g : α → β} {e : γ → ε} {l : List α} :
    (l.mapM fun a => (failure a).elim (Except.ok (g a)) (Except.error ∘ e)) =
      (l.findSome? failure).elim (Except.ok (l.map g)) (Except.error ∘ e) := by
  induction l with
  | nil => rfl
  | cons a rest ih =>
    rw [List.mapM_cons, List.findSome?_cons, ih]
    cases failure a with
    | some c => rfl
    | none => cases rest.findSome? failure <;> rfl

/-- Steps that depend on nothing but the results of steps that succeed. -/
theorem mapM_eq_of_mapM {f : α → Except ε β} {g : α → Except ε γ} {k : β → Except ε γ} {l : List α}
    {results : List β} (h : l.mapM f = .ok results) (hstep : ∀ a b, f a = .ok b → g a = k b) :
    l.mapM g = results.mapM k := by
  induction mapM_eq_ok_iff.1 h with
  | nil => rfl
  | @cons a b as bs hab hrest ih =>
    rw [List.mapM_cons, List.mapM_cons, hstep a b hab, ih (mapM_eq_ok_iff.2 hrest)]

theorem mapM_flatten {f : α → Except ε β} {parts : List (List α)} :
    parts.flatten.mapM f = (parts.mapM (List.mapM f)).map List.flatten := by
  induction parts with
  | nil => rfl
  | cons part rest ih =>
    rw [List.flatten_cons, List.mapM_append, List.mapM_cons, ih]
    cases part.mapM f with
    | error e => rfl
    | ok bs => cases rest.mapM (List.mapM f) <;> rfl

theorem mapM_filter {f : α → Except ε β} {p : α → Bool} {q : β → Bool} {l : List α} {results : List β}
    (h : l.mapM f = .ok results) (hkeep : ∀ a b, f a = .ok b → q b = p a) :
    (l.filter p).mapM f = .ok (results.filter q) := by
  induction mapM_eq_ok_iff.1 h with
  | nil => rfl
  | @cons a b as bs hab hrest ih =>
    have ih := ih (mapM_eq_ok_iff.2 hrest)
    rw [List.filter_cons, List.filter_cons, hkeep a b hab]
    split
    · rw [List.mapM_cons, hab, ih]
      rfl
    · exact ih

theorem flatMap_filter_of_eq_nil {p : α → Bool} {f : α → List β} {l : List α}
    (h : ∀ a ∈ l, p a = false → f a = []) : (l.filter p).flatMap f = l.flatMap f := by
  induction l with
  | nil => rfl
  | cons a rest ih =>
    have hrest := ih fun b hb => h b (List.mem_cons_of_mem _ hb)
    rw [List.filter_cons, List.flatMap_cons]
    split
    · rw [List.flatMap_cons, hrest]
    · next hp =>
      rw [h a (List.mem_cons_self ..) (Bool.eq_false_iff.2 hp), hrest]
      rfl

theorem exists_map_eq {f : α → β} {p : α → Prop} {l : List β} (h : ∀ b ∈ l, ∃ a, f a = b ∧ p a) :
    ∃ as : List α, as.map f = l ∧ ∀ a ∈ as, p a := by
  induction l with
  | nil => exact ⟨[], rfl, by simp⟩
  | cons b rest ih =>
    obtain ⟨a, ha, hp⟩ := h b (List.mem_cons_self ..)
    obtain ⟨as, has, hps⟩ := ih fun c hc => h c (List.mem_cons_of_mem _ hc)
    exact ⟨a :: as, by rw [List.map_cons, ha, has], List.forall_mem_cons.2 ⟨hp, hps⟩⟩

theorem takeWhile_run {p : α → Bool} {run rest : List α} (hrun : ∀ a ∈ run, p a = true)
    (hrest : ∀ a ∈ rest.head?, p a = false) : (run ++ rest).takeWhile p = run := by
  rw [List.takeWhile_append_of_pos hrun]
  cases rest with
  | nil => simp
  | cons a rest => simp [hrest a rfl]

theorem dropWhile_run {p : α → Bool} {run rest : List α} (hrun : ∀ a ∈ run, p a = true)
    (hrest : ∀ a ∈ rest.head?, p a = false) : (run ++ rest).dropWhile p = rest := by
  rw [List.dropWhile_append_of_pos hrun]
  cases rest with
  | nil => simp
  | cons a rest => simp [hrest a rfl]

theorem splitBy_map {r : β → β → Bool} {f : α → β} {l : List α} :
    (l.map f).splitBy r = (l.splitBy fun a b => r (f a) (f b)).map (List.map f) := by
  have hloop (l : List α) (a : α) (part : List α) (parts : List (List α)) :
      List.splitBy.loop r (l.map f) (f a) (part.map f) (parts.map (List.map f)) =
        (List.splitBy.loop (fun a b => r (f a) (f b)) l a part parts).map (List.map f) := by
    induction l generalizing a part parts with
    | nil => simp [List.splitBy.loop]
    | cons b rest ih =>
      rw [List.map_cons, List.splitBy.loop, List.splitBy.loop]
      cases r (f a) (f b) with
      | true => exact ih b (a :: part) parts
      | false =>
        have hstep := ih b [] ((a :: part).reverse :: parts)
        simpa using hstep
  cases l with
  | nil => rfl
  | cons a rest => exact hloop rest a [] []

end MarketFees
