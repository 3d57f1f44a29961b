import Mathlib.Data.List.Forall2
import MarkupTemplate.Proofs.Results

/-!
# Two computations side by side

Two computations go together if both give results, which are related, or both fail, for whatever reason. Steps
that go together do so behind each other and over lists whose items are related.
-/

namespace MarkupTemplate

variable {ε α α' β β' : Type}

/-- The two are the same as far as `f` sees. -/
abbrev Same {γ : Type} (f : α → γ) (a a' : α) : Prop :=
  f a = f a'

theorem forall₂_same {γ : Type} {f : α → γ} {as as' : List α} :
    List.Forall₂ (Same f) as as' ↔ as.map f = as'.map f := by
  rw [← List.forall₂_eq_eq_eq, List.forall₂_map_left_iff, List.forall₂_map_right_iff]

theorem forall₂_zip {R : α → α' → Prop} {S : β → β' → Prop} {as : List α} {as' : List α'} {bs : List β}
    {bs' : List β'} (ha : List.Forall₂ R as as') (hb : List.Forall₂ S bs bs') :
    List.Forall₂ (fun p p' => R p.1 p'.1 ∧ S p.2 p'.2) (as.zip bs) (as'.zip bs') := by
  induction ha generalizing bs bs' with
  | nil => exact .nil
  | cons ha _ ih =>
    cases hb with
    | nil => exact .nil
    | cons hb hbs => exact .cons ⟨ha, hb⟩ (ih hbs)

theorem isSome_of_rel {R : α → α' → Prop} {o : Option α} {o' : Option α'} (h : Option.Rel R o o') :
    o.isSome = o'.isSome := by
  cases h <;> rfl

theorem rel_filter {R : α → α' → Prop} {o : Option α} {o' : Option α'} (h : Option.Rel R o o') (keep : Bool) :
    Option.Rel R (o.filter fun _ => keep) (o'.filter fun _ => keep) := by
  cases h with
  | none => exact .none
  | some h =>
    cases keep
    · exact .none
    · exact .some h

/-- Both computations give results that are related, or both fail. -/
inductive Together (R : α → α' → Prop) : Except ε α → Except ε α' → Prop
  | ok {a : α} {a' : α'} (h : R a a') : Together R (.ok a) (.ok a')
  | error (e e' : ε) : Together R (.error e) (.error e')

namespace Together

variable {R : α → α' → Prop} {S : β → β' → Prop} {x : Except ε α} {x' : Except ε α'}

theorem refl {R : α → α → Prop} (h : ∀ a, R a a) (x : Except ε α) : Together R x x := by
  cases x with
  | ok a => exact .ok (h a)
  | error e => exact .error e e

theorem bind {f : α → Except ε β} {f' : α' → Except ε β'} (h : Together R x x')
    (hf : ∀ a a', R a a' → Together S (f a) (f' a')) : Together S (x >>= f) (x' >>= f') := by
  cases h with
  | ok h => exact hf _ _ h
  | error e e' => exact .error e e'

theorem map {f : α → β} {f' : α' → β'} (h : Together R x x') (hf : ∀ a a', R a a' → S (f a) (f' a')) :
    Together S (f <$> x) (f' <$> x') := by
  cases h with
  | ok h => exact .ok (hf _ _ h)
  | error e e' => exact .error e e'

theorem foldlM {f : β → α → Except ε β} {f' : β' → α' → Except ε β'} {as : List α} {as' : List α'} {b : β}
    {b' : β'} (has : List.Forall₂ R as as')
    (step : ∀ a a' b b', R a a' → S b b' → Together S (f b a) (f' b' a')) (hb : S b b') :
    Together S (as.foldlM f b) (as'.foldlM f' b') := by
  induction has generalizing b b' with
  | nil => exact .ok hb
  | cons ha _ ih =>
    rw [List.foldlM_cons, List.foldlM_cons]
    exact (step _ _ _ _ ha hb).bind fun _ _ hc => ih hc

/-- The same computation, and then steps that go together. -/
theorem bind_same {f f' : α → Except ε β} {S : β → β → Prop} (x : Except ε α)
    (hf : ∀ a, Together S (f a) (f' a)) : Together S (x >>= f) (x >>= f') := by
  cases x with
  | ok a => exact hf a
  | error e => exact .error e e

theorem mapM {f : α → Except ε β} {f' : α' → Except ε β'} {as : List α} {as' : List α'}
    (has : List.Forall₂ R as as') (step : ∀ a a', R a a' → Together S (f a) (f' a')) :
    Together (List.Forall₂ S) (as.mapM f) (as'.mapM f') := by
  induction has with
  | nil => exact .ok .nil
  | cons ha _ ih =>
    rw [List.mapM_cons, List.mapM_cons]
    exact (step _ _ ha).bind fun _ _ hb => ih.bind fun _ _ hbs => .ok (.cons hb hbs)

theorem of_toOption {γ : Type} {f : α → γ} {f' : α' → γ} (h : x.toOption.map f = x'.toOption.map f') :
    Together (fun a a' => f a = f' a') x x' := by
  cases x with
  | ok a =>
    cases x' with
    | ok a' => exact .ok (Option.some.inj h)
    | error e' => cases h
  | error e =>
    cases x' with
    | ok a' => cases h
    | error e' => exact .error e e'

theorem mapM_same {γ : Type} {f f' : α → Except ε β} {k : β → γ}
    (h : ∀ a, Together (Same k) (f a) (f' a)) (as : List α) :
    Together (Same (List.map k)) (as.mapM f) (as.mapM f') := by
  induction as with
  | nil => exact .ok rfl
  | cons a as ih =>
    rw [List.mapM_cons, List.mapM_cons]
    refine (h a).bind fun b b' hb => ih.bind fun bs bs' hbs => .ok ?_
    rw [Same, List.map_cons, List.map_cons, hb, hbs]

/-- One gives a result if the other does. -/
theorem ok_iff (h : Together R x x') : (∃ a, x = .ok a) ↔ ∃ a', x' = .ok a' := by
  cases h with
  | ok h => exact ⟨fun _ => ⟨_, rfl⟩, fun _ => ⟨_, rfl⟩⟩
  | error e e' =>
    constructor
    · rintro ⟨a, ha⟩
      cases ha
    · rintro ⟨a, ha⟩
      cases ha

theorem of_ok (h : Together R x x') {a : α} {a' : α'} (hx : x = .ok a) (hx' : x' = .ok a') : R a a' := by
  subst hx hx'
  cases h with
  | ok h => exact h

end Together

end MarkupTemplate
