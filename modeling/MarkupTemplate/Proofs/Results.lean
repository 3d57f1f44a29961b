import Mathlib.Data.List.Basic

/-!
# Computations that can fail

What has been done by a computation that could have failed and has not. `Gives`: the result of a
computation has one property, or its fault another.
-/

namespace MarkupTemplate

variable {ε α β : Type}

theorem bind_eq_ok {x : Except ε α} {f : α → Except ε β} {b : β} :
    x >>= f = .ok b ↔ ∃ a, x = .ok a ∧ f a = .ok b := by
  constructor
  · intro h
    cases x with
    | ok a => exact ⟨a, rfl, h⟩
    | error e => cases h
  · rintro ⟨a, rfl, h⟩
    exact h

theorem map_eq_ok {x : Except ε α} {f : α → β} {b : β} :
    f <$> x = .ok b ↔ ∃ a, x = .ok a ∧ f a = b := by
  constructor
  · intro h
    cases x with
    | ok a => cases h; exact ⟨a, rfl, rfl⟩
    | error e => cases h
  · rintro ⟨a, rfl, rfl⟩
    rfl

theorem eq_ok_of_toOption {x : Except ε α} {a : α} (h : x.toOption = some a) : x = .ok a := by
  cases x with
  | error e => cases h
  | ok b => exact congrArg _ (Option.some.inj h)

theorem exists_mem_of_any {p : α → Prop} [DecidablePred p] {x : Except ε (List α)}
    (h : x.toOption.any fun as => as.any (p ·)) : ∃ as, x = .ok as ∧ ∃ a ∈ as, p a := by
  obtain ⟨as, has, hany⟩ := (Option.any_eq_true ..).1 h
  obtain ⟨a, ha, hp⟩ := List.any_eq_true.1 hany
  exact ⟨as, eq_ok_of_toOption has, a, ha, of_decide_eq_true hp⟩

/-- What each step keeps holds after all of them. -/
theorem foldlM_keeps {P : β → Prop} {f : β → α → Except ε β} {as : List α} {b c : β}
    (step : ∀ a ∈ as, ∀ b c, P b → f b a = .ok c → P c) (hb : P b) (h : as.foldlM f b = .ok c) :
    P c := by
  induction as generalizing b with
  | nil => cases h; exact hb
  | cons a as ih =>
    rw [List.foldlM_cons] at h
    obtain ⟨b', hb', h⟩ := bind_eq_ok.1 h
    exact ih (fun a ha => step a (by simp [ha])) (step a (by simp) b b' hb hb') h

/-- What the step of an item does is done after all steps, if the others leave it so. -/
theorem foldlM_reaches {D : α → β → Prop} {f : β → α → Except ε β} {as : List α} {b c : β}
    (step : ∀ a b c, f b a = .ok c → D a c) (keep : ∀ a a' b c, f b a' = .ok c → D a b → D a c)
    (h : as.foldlM f b = .ok c) : ∀ a ∈ as, D a c := by
  induction as generalizing b with
  | nil => exact List.forall_mem_nil _
  | cons a as ih =>
    rw [List.foldlM_cons] at h
    obtain ⟨b', hb', hrest⟩ := bind_eq_ok.1 h
    intro x hx
    rcases List.mem_cons.1 hx with rfl | hx
    · exact foldlM_keeps (fun a' _ b c hb h => keep x a' b c h hb) (step x b b' hb') hrest
    · exact ih hrest x hx

/-- Steps that change nothing change nothing together. -/
theorem foldlM_fixed {f : β → α → Except ε β} {as : List α} {b : β} (h : ∀ a ∈ as, f b a = .ok b) :
    as.foldlM f b = .ok b := by
  induction as with
  | nil => rfl
  | cons a as ih =>
    rw [List.foldlM_cons, h a (by simp)]
    exact ih fun a ha => h a (by simp [ha])

theorem mapM_succeeds {f : α → Except ε β} {as : List α} (h : ∀ a ∈ as, ∃ b, f a = .ok b) :
    ∃ bs, as.mapM f = .ok bs := by
  induction as with
  | nil => exact ⟨[], rfl⟩
  | cons a as ih =>
    obtain ⟨b, hb⟩ := h a (by simp)
    obtain ⟨bs, hbs⟩ := ih fun a ha => h a (by simp [ha])
    exact ⟨b :: bs, by rw [List.mapM_cons, hb, hbs]; rfl⟩

/-- Each of the results of a list comes from one of its items. -/
theorem mem_of_mapM_ok {f : α → Except ε β} {as : List α} {bs : List β} (h : as.mapM f = .ok bs) {b : β}
    (hb : b ∈ bs) : ∃ a ∈ as, f a = .ok b := by
  induction as generalizing bs with
  | nil => cases h; cases hb
  | cons a as ih =>
    rw [List.mapM_cons] at h
    obtain ⟨b', hb', h⟩ := bind_eq_ok.1 h
    obtain ⟨rest, hr, h⟩ := bind_eq_ok.1 h
    cases h
    rcases List.mem_cons.1 hb with rfl | hb
    · exact ⟨a, by simp, hb'⟩
    · obtain ⟨a', ha', hf⟩ := ih hr hb
      exact ⟨a', by simp [ha'], hf⟩

/-- Each of the items of a list has its result. -/
theorem mapM_reaches {f : α → Except ε β} {as : List α} {bs : List β} (h : as.mapM f = .ok bs) {a : α}
    (ha : a ∈ as) : ∃ b ∈ bs, f a = .ok b := by
  induction as generalizing bs with
  | nil => cases ha
  | cons first as ih =>
    rw [List.mapM_cons] at h
    obtain ⟨b, hb, h⟩ := bind_eq_ok.1 h
    obtain ⟨rest, hr, h⟩ := bind_eq_ok.1 h
    cases h
    rcases List.mem_cons.1 ha with rfl | ha
    · exact ⟨b, by simp, hb⟩
    · obtain ⟨b', hb', hf⟩ := ih hr ha
      exact ⟨b', by simp [hb'], hf⟩

/-- What can be read off each result is what can be read off its item. -/
theorem map_of_mapM {γ : Type} {f : α → Except ε β} {g : β → γ} {k : α → γ} {as : List α} {bs : List β}
    (h : as.mapM f = .ok bs) (hg : ∀ a b, f a = .ok b → g b = k a) : bs.map g = as.map k := by
  induction as generalizing bs with
  | nil => cases h; rfl
  | cons a as ih =>
    rw [List.mapM_cons] at h
    obtain ⟨b, hb, h⟩ := bind_eq_ok.1 h
    obtain ⟨rest, hr, h⟩ := bind_eq_ok.1 h
    cases h
    rw [List.map_cons, List.map_cons, hg a b hb, ih hr]

theorem length_of_mapM {f : α → Except ε β} {as : List α} {bs : List β} (h : as.mapM f = .ok bs) :
    bs.length = as.length := by
  have := congrArg List.length (map_of_mapM (g := fun _ => ()) (k := fun _ => ()) h fun _ _ _ => rfl)
  simpa using this

/-- The results for some of the items, which their results tell, are the results that are told so. -/
theorem mapM_filter {f : α → Except ε β} {p : α → Bool} {q : β → Bool} {as : List α} {bs : List β}
    (h : as.mapM f = .ok bs) (hpq : ∀ a b, f a = .ok b → q b = p a) :
    (as.filter p).mapM f = .ok (bs.filter q) := by
  induction as generalizing bs with
  | nil => cases h; rfl
  | cons a as ih =>
    rw [List.mapM_cons] at h
    obtain ⟨b, hb, h⟩ := bind_eq_ok.1 h
    obtain ⟨rest, hr, h⟩ := bind_eq_ok.1 h
    cases h
    rw [List.filter_cons, List.filter_cons, hpq a b hb]
    split
    · rw [List.mapM_cons, hb, ih hr]
      rfl
    · exact ih hr

/-- Items of related lists at one place are related. -/
theorem rel_getElem? {R : α → β → Prop} {as : List α} {bs : List β} (h : List.Forall₂ R as bs) (i : Nat) :
    Option.Rel R as[i]? bs[i]? := by
  induction h generalizing i with
  | nil => exact .none
  | cons h _ ih =>
    cases i with
    | zero => exact .some h
    | succ i => exact ih i

/-- Pairs of one name with related parts. -/
def Named (R : α → β → Prop) (x : String × α) (y : String × β) : Prop :=
  y.1 = x.1 ∧ R x.2 y.2

theorem rel_lookup {R : α → β → Prop} {xs : List (String × α)} {ys : List (String × β)}
    (h : List.Forall₂ (Named R) xs ys) (name : String) : Option.Rel R (xs.lookup name) (ys.lookup name) := by
  induction h with
  | nil => exact .none
  | cons h _ ih =>
    rw [List.lookup_cons, List.lookup_cons, h.1]
    split
    · exact .some h.2
    · exact ih

theorem names_of_named {R : α → β → Prop} {xs : List (String × α)} {ys : List (String × β)}
    (h : List.Forall₂ (Named R) xs ys) : ys.map Prod.fst = xs.map Prod.fst := by
  induction h with
  | nil => rfl
  | cons h _ ih => rw [List.map_cons, List.map_cons, h.1, ih]

/-! ### Results and faults -/

/-- The result of a computation has a property, or its fault another. -/
inductive Gives (P : α → Prop) (E : ε → Prop) : Except ε α → Prop
  | ok {a : α} (h : P a) : Gives P E (.ok a)
  | error {e : ε} (h : E e) : Gives P E (.error e)

namespace Gives

variable {P : α → Prop} {Q : β → Prop} {E : ε → Prop} {x : Except ε α}

theorem of_ok (h : Gives P E x) {a : α} (hx : x = .ok a) : P a := by
  subst hx
  cases h with
  | ok h => exact h

theorem of_error (h : Gives P E x) {e : ε} (hx : x = .error e) : E e := by
  subst hx
  cases h with
  | error h => exact h

theorem refl (x : Except ε α) : Gives (x = .ok ·) (x = .error ·) x := by
  cases x with
  | ok a => exact .ok rfl
  | error e => exact .error rfl

theorem imp {P' : α → Prop} (h : Gives P E x) (hP : ∀ a, x = .ok a → P a → P' a) : Gives P' E x := by
  cases h with
  | ok h => exact .ok (hP _ rfl h)
  | error h => exact .error h

theorem weaken {E' : ε → Prop} (h : Gives P E x) (hE : ∀ e, E e → E' e) : Gives P E' x := by
  cases h with
  | ok h => exact .ok h
  | error h => exact .error (hE _ h)

theorem bind {f : α → Except ε β} (hx : Gives P E x) (hf : ∀ a, x = .ok a → P a → Gives Q E (f a)) :
    Gives Q E (x >>= f) := by
  cases hx with
  | ok h => exact hf _ rfl h
  | error h => exact .error h

theorem map {f : α → β} (hx : Gives P E x) (hf : ∀ a, P a → Q (f a)) : Gives Q E (f <$> x) := by
  cases hx with
  | ok h => exact .ok (hf _ h)
  | error h => exact .error h

/-- What each step keeps holds after all of them, and each step can fail. -/
theorem foldlM {f : β → α → Except ε β} {as : List α} {b : β}
    (step : ∀ a ∈ as, ∀ b, Q b → Gives Q E (f b a)) (hb : Q b) : Gives Q E (as.foldlM f b) := by
  induction as generalizing b with
  | nil => exact .ok hb
  | cons a as ih =>
    rw [List.foldlM_cons]
    exact (step a (by simp) b hb).bind fun c _ hc => ih (fun a ha => step a (by simp [ha])) hc

theorem mapM {f : α → Except ε β} {as : List α} (h : ∀ a ∈ as, Gives Q E (f a)) :
    Gives (fun bs => ∀ b ∈ bs, Q b) E (as.mapM f) := by
  induction as with
  | nil => exact .ok (by simp)
  | cons a as ih =>
    rw [List.mapM_cons]
    refine (h a (by simp)).bind fun b _ hb => (ih fun a ha => h a (by simp [ha])).bind
      fun bs _ hbs => .ok ?_
    intro c hc
    rcases List.mem_cons.1 hc with rfl | hc
    · exact hb
    · exact hbs c hc

end Gives

/-! ### One computation behind another -/

/-- The second computation gives a result wherever the first one does, and the results are related. -/
def Follows {ε' α' : Type} (R : α → α' → Prop) (x : Except ε α) (x' : Except ε' α') : Prop :=
  ∀ a, x = .ok a → ∃ a', x' = .ok a' ∧ R a a'

namespace Follows

variable {ε' α' β' : Type} {R : α → α' → Prop} {S : β → β' → Prop} {x : Except ε α} {x' : Except ε' α'}

theorem ok {a : α} {a' : α'} (h : R a a') : Follows R (.ok a : Except ε α) (.ok a' : Except ε' α') := fun b hb => by
  cases hb
  exact ⟨a', rfl, h⟩

theorem error (e : ε) : Follows R (.error e) x' := fun _ h => by cases h

theorem refl {R : α → α → Prop} (h : ∀ a, R a a) (x : Except ε α) : Follows R x x := fun a ha => ⟨a, ha, h a⟩

theorem bind {f : α → Except ε β} {f' : α' → Except ε' β'} (h : Follows R x x')
    (hf : ∀ a a', R a a' → Follows S (f a) (f' a')) : Follows S (x >>= f) (x' >>= f') := fun b hb => by
  obtain ⟨a, ha, hb⟩ := bind_eq_ok.1 hb
  obtain ⟨a', ha', hr⟩ := h a ha
  obtain ⟨b', hb', hs⟩ := hf a a' hr b hb
  exact ⟨b', bind_eq_ok.2 ⟨a', ha', hb'⟩, hs⟩

theorem map {f : α → β} {f' : α' → β'} (h : Follows R x x') (hf : ∀ a a', R a a' → S (f a) (f' a')) :
    Follows S (f <$> x) (f' <$> x') := fun b hb => by
  obtain ⟨a, ha, rfl⟩ := map_eq_ok.1 hb
  obtain ⟨a', ha', hr⟩ := h a ha
  exact ⟨f' a', map_eq_ok.2 ⟨a', ha', rfl⟩, hf a a' hr⟩

theorem foldlM {γ γ' : Type} {T : γ → γ' → Prop} {f : β → γ → Except ε β} {f' : β' → γ' → Except ε' β'}
    {as : List γ} {as' : List γ'} (has : List.Forall₂ T as as')
    (step : ∀ a a' b b', T a a' → S b b' → Follows S (f b a) (f' b' a')) {b : β} {b' : β'} (hb : S b b') :
    Follows S (as.foldlM f b) (as'.foldlM f' b') := by
  induction has generalizing b b' with
  | nil => exact .ok hb
  | cons ha _ ih =>
    rw [List.foldlM_cons, List.foldlM_cons]
    exact (step _ _ _ _ ha hb).bind fun _ _ hc => ih hc

theorem mapM {γ γ' : Type} {T : γ → γ' → Prop} {f : γ → Except ε β} {f' : γ' → Except ε' β'} {as : List γ}
    {as' : List γ'} (has : List.Forall₂ T as as') (step : ∀ a a', T a a' → Follows S (f a) (f' a')) :
    Follows (List.Forall₂ S) (as.mapM f) (as'.mapM f') := by
  induction has with
  | nil => exact .ok .nil
  | cons ha _ ih =>
    rw [List.mapM_cons, List.mapM_cons]
    exact (step _ _ ha).bind fun _ _ hb => ih.bind fun _ _ hbs => .ok (.cons hb hbs)

end Follows

end MarkupTemplate
