import Mathlib.Algebra.Group.Nat.Defs
import Mathlib.Data.List.Basic
import MarkupTemplate.Key.Basic
import MarkupTemplate.Proofs.Text.Utf8

/-!
# Keys determine what they are derived from

Each part of what is digested stands behind a tag and its length, so the octets that are digested can be
cut into the parts again in one way only (`KeyInputs.octets_inj`), as long as lengths fit in 64 bits. Keys
are 64 digits each, and determine the digest.
-/

namespace MarkupTemplate

/-- Parts that can be cut off from whatever follows them. -/
def SelfDelimiting {α β : Type} (P : α → Prop) (f : α → List β) : Prop :=
  ∀ {a b : α} {r s : List β}, P a → P b → f a ++ r = f b ++ s → a = b ∧ r = s

namespace SelfDelimiting

variable {α β γ : Type} {P : α → Prop} {f : α → List β}

theorem flatMap (hf : SelfDelimiting P f) : ∀ {as bs : List α} {r s : List β},
    as.length = bs.length → (∀ a ∈ as, P a) → (∀ b ∈ bs, P b) →
    as.flatMap f ++ r = bs.flatMap f ++ s → as = bs ∧ r = s
  | [], [], r, s, _, _, _, h => ⟨rfl, h⟩
  | [], _ :: _, r, s, hl, _, _, _ => by cases hl
  | _ :: _, [], r, s, hl, _, _, _ => by cases hl
  | a :: as, b :: bs, r, s, hl, ha, hb, h => by
    rw [List.flatMap_cons, List.flatMap_cons, List.append_assoc, List.append_assoc] at h
    obtain ⟨hab, h⟩ := hf (ha a (by simp)) (hb b (by simp)) h
    obtain ⟨hl, h⟩ := flatMap hf (Nat.succ.inj hl) (fun a h => ha a (by simp [h]))
      (fun b h => hb b (by simp [h])) h
    exact ⟨by rw [hab, hl], h⟩

theorem pair {Q : γ → Prop} {g : γ → List β} (hf : SelfDelimiting P f) (hg : SelfDelimiting Q g) :
    SelfDelimiting (fun p : α × γ => P p.1 ∧ Q p.2) fun p => f p.1 ++ g p.2 := by
  intro p q r s hp hq h
  rw [List.append_assoc, List.append_assoc] at h
  obtain ⟨h₁, h⟩ := hf hp.1 hq.1 h
  obtain ⟨h₂, h⟩ := hg hp.2 hq.2 h
  exact ⟨Prod.ext h₁ h₂, h⟩

end SelfDelimiting

namespace KeyInputs

theorem length_count (n : Nat) : (count n).length = 8 := by simp [count]

theorem count_selfDelimiting : SelfDelimiting (· < 2 ^ 64) count := by
  intro n m r s hn hm h
  obtain ⟨h, hr⟩ := List.append_inj h (by rw [length_count, length_count])
  refine ⟨?_, hr⟩
  have hb : ∀ i < 8, (n / 2 ^ (8 * i)) % 256 = (m / 2 ^ (8 * i)) % 256 := fun i hi => by
    have h := congrArg (fun octets => (octets[i]?.map UInt8.toNat)) h
    simpa [count, hi, Nat.shiftRight_eq_div_pow, UInt8.toNat_ofNat] using h
  -- the octets are digits to base 256, so they determine the number digit by digit
  have hmod : ∀ k ≤ 8, n % 2 ^ (8 * k) = m % 2 ^ (8 * k) := by
    intro k hk
    induction k with
    | zero => rw [Nat.mul_zero, Nat.pow_zero, Nat.mod_one, Nat.mod_one]
    | succ k ih =>
      rw [Nat.mul_succ, Nat.pow_add, Nat.mod_mul, Nat.mod_mul, ih (by omega)]
      exact congrArg (m % 2 ^ (8 * k) + 2 ^ (8 * k) * ·) (hb k (by omega))
  have h := hmod 8 (by omega)
  rwa [Nat.mod_eq_of_lt hn, Nat.mod_eq_of_lt hm] at h

theorem part_inj {t u : Char} {xs ys r s : List UInt8} (hx : xs.length < 2 ^ 64)
    (hy : ys.length < 2 ^ 64) (h : part t xs ++ r = part u ys ++ s) :
    UInt8.ofNat t.toNat = UInt8.ofNat u.toNat ∧ xs = ys ∧ r = s := by
  rw [part, part, List.cons_append, List.cons_append, List.append_assoc, List.append_assoc] at h
  obtain ⟨ht, h⟩ := List.cons.inj h
  obtain ⟨hl, h⟩ := count_selfDelimiting hx hy h
  obtain ⟨hxy, h⟩ := List.append_inj h hl
  exact ⟨ht, hxy, h⟩

/-- A text whose length fits in 64 bits. -/
def TextFits (s : String) : Prop :=
  (Text.encodeUtf8 s).length < 2 ^ 64

instance (s : String) : Decidable (TextFits s) :=
  inferInstanceAs (Decidable ((Text.encodeUtf8 s).length < 2 ^ 64))

theorem textPart_selfDelimiting (tag : Char) : SelfDelimiting TextFits (textPart tag) := by
  intro s t r r' hs ht h
  obtain ⟨-, h, hr⟩ := part_inj hs ht h
  exact ⟨Text.encodeUtf8_inj h, hr⟩

theorem filenamePart_selfDelimiting :
    SelfDelimiting (fun name : Option String => ∀ s ∈ name, TextFits s) filenamePart := by
  intro a b r s ha hb h
  cases a with
  | none =>
    cases b with
    | none => exact ⟨rfl, (part_inj (by simp) (by simp) h).2.2⟩
    | some name => exact absurd (part_inj (by simp) (hb name rfl) h).1 (by decide)
  | some name =>
    cases b with
    | none => exact absurd (part_inj (ha name rfl) (by simp) h).1 (by decide)
    | some other =>
      obtain ⟨hn, h⟩ := textPart_selfDelimiting 'F' (ha name rfl) (hb other rfl) h
      exact ⟨by rw [hn], h⟩

/-- The number of items, and then each of them. -/
def items {α : Type} (tag : Char) (f : α → List UInt8) (as : List α) : List UInt8 :=
  part tag (count as.length) ++ as.flatMap f

theorem items_selfDelimiting {α : Type} (tag : Char) {P : α → Prop} {f : α → List UInt8}
    (hf : SelfDelimiting P f) :
    SelfDelimiting (fun as : List α => as.length < 2 ^ 64 ∧ ∀ a ∈ as, P a) (items tag f) := by
  intro as bs r s has hbs h
  rw [items, items, List.append_assoc, List.append_assoc] at h
  obtain ⟨-, hl, h⟩ := part_inj (by simp [length_count]) (by simp [length_count]) h
  have hl := (count_selfDelimiting (r := []) (s := []) has.1 hbs.1 (by rw [hl])).1
  exact hf.flatMap hl has.2 hbs.2 h

/-- All texts and numbers of items have lengths of at most 64 bits. -/
structure Fits (inputs : KeyInputs) : Prop where
  template : TextFits inputs.template
  filename : ∀ name ∈ inputs.filename, TextFits name
  imports : inputs.imports.length < 2 ^ 64 ∧ ∀ text ∈ inputs.imports, TextFits text
  globalTypes : inputs.globalTypes.length < 2 ^ 64 ∧
    ∀ g ∈ inputs.globalTypes, TextFits g.1 ∧ TextFits g.2
  dependencies : inputs.dependencies.names.length < 2 ^ 64 ∧
    ∀ name ∈ inputs.dependencies.names, TextFits name

theorem textFits_mode (mode : TemplateMode) : TextFits mode.name := by
  cases mode <;> decide +kernel

theorem mode_inj {m n : TemplateMode} (h : m.name = n.name) : m = n := by
  cases m <;> cases n <;> first | rfl | exact absurd h (by decide)

theorem octets_eq (inputs : KeyInputs) : inputs.octets =
    textPart 'T' inputs.template ++ (textPart 'M' inputs.mode.name ++ (filenamePart inputs.filename ++
      (items 'I' (textPart 'i') inputs.imports ++
        (items 'G' (fun g => textPart 'n' g.1 ++ textPart 't' g.2) inputs.globalTypes ++
          (items 'D' (textPart 'd') inputs.dependencies.names ++ []))))) := by
  simp [octets, items, Fields.names]

/-- What is digested determines what it is derived from. -/
theorem octets_inj {x y : KeyInputs} (hx : x.Fits) (hy : y.Fits) (h : x.octets = y.octets) : x = y := by
  rw [octets_eq, octets_eq] at h
  obtain ⟨htemplate, h⟩ := textPart_selfDelimiting 'T' hx.template hy.template h
  obtain ⟨hmode, h⟩ := textPart_selfDelimiting 'M' (textFits_mode _) (textFits_mode _) h
  obtain ⟨hfilename, h⟩ := filenamePart_selfDelimiting hx.filename hy.filename h
  obtain ⟨himports, h⟩ := items_selfDelimiting 'I' (textPart_selfDelimiting 'i') hx.imports hy.imports h
  obtain ⟨htypes, h⟩ := items_selfDelimiting 'G'
    (SelfDelimiting.pair (textPart_selfDelimiting 'n') (textPart_selfDelimiting 't'))
    hx.globalTypes hy.globalTypes h
  obtain ⟨hnames, -⟩ := items_selfDelimiting 'D' (textPart_selfDelimiting 'd')
    hx.dependencies hy.dependencies h
  have hdependencies : x.dependencies = y.dependencies :=
    List.map_injective_iff.2 (fun _ _ h => Prod.ext h rfl) hnames
  cases x
  cases y
  simp only at htemplate hmode hfilename himports htypes hdependencies
  rw [htemplate, mode_inj hmode, hfilename, himports, htypes, hdependencies]

end KeyInputs

/-! ### Digits of keys -/

namespace TemplateKey

theorem length_digest (message : List UInt8) : (Sha256.digest message).length = 32 := by
  simp [Sha256.digest, Sha256.octetsOf]

theorem isDigit_digitChar : ∀ n < 16, isDigit (Nat.digitChar n) := by decide

theorem digitChar_inj : ∀ n < 16, ∀ m < 16, Nat.digitChar n = Nat.digitChar m → n = m := by decide

theorem hexOctet_selfDelimiting : SelfDelimiting (fun _ => True) hexOctet := by
  intro a b r s _ _ h
  have ha := a.toNat_lt
  have hb := b.toNat_lt
  obtain ⟨hhigh, h⟩ := List.cons.inj h
  obtain ⟨hlow, h⟩ := List.cons.inj h
  have hhigh := digitChar_inj _ (by omega) _ (by omega) hhigh
  have hlow := digitChar_inj _ (by omega) _ (by omega) hlow
  exact ⟨UInt8.toNat.inj (by omega), h⟩

theorem parse?_derive (inputs : KeyInputs) : parse? (derive inputs).text = some (derive inputs) := by
  have hlength : ((Sha256.digest inputs.octets).flatMap hexOctet).length = 64 := by
    rw [List.length_flatMap]
    simp [hexOctet, length_digest, List.map_const']
  have hdigits : ((Sha256.digest inputs.octets).flatMap hexOctet).all isDigit := by
    rw [List.all_eq_true]
    intro c hc
    obtain ⟨b, -, hc⟩ := List.mem_flatMap.1 hc
    have hb := b.toNat_lt
    simp only [hexOctet, List.mem_cons, List.not_mem_nil, or_false] at hc
    rcases hc with rfl | rfl <;> exact isDigit_digitChar _ (by omega)
  simp only [parse?, derive, String.toList_ofList, hlength, hdigits]
  rfl

/-- Equal keys have equal digests. -/
theorem digest_eq_of_derive {x y : KeyInputs} (h : derive x = derive y) :
    Sha256.digest x.octets = Sha256.digest y.octets := by
  have h := String.ofList_injective (TemplateKey.mk.inj h)
  refine (hexOctet_selfDelimiting.flatMap (r := []) (s := []) ?_ (fun _ _ => trivial)
    (fun _ _ => trivial) ?_).1
  · rw [length_digest, length_digest]
  · rw [h]

/-- What is digested determines every input, so equal keys of different inputs are a collision of the
digest. -/
theorem inputs_of_octets {x y : KeyInputs} (hx : x.Fits) (hy : y.Fits) :
    (x.octets = y.octets → x = y) ∧
      (derive x = derive y → x ≠ y →
        x.octets ≠ y.octets ∧ Sha256.digest x.octets = Sha256.digest y.octets) := by
  have hinj : x.octets = y.octets → x = y := KeyInputs.octets_inj hx hy
  exact ⟨hinj, fun hkey hne => ⟨fun h => hne (hinj h), digest_eq_of_derive hkey⟩⟩

/-- Two inputs in which the same text is a file name and an import. -/
def named : KeyInputs := ⟨"p", .markup, some "i", [], [("n", "t")], [("d", ())]⟩

@[inherit_doc named]
def importing : KeyInputs := ⟨"p", .markup, none, ["i"], [("n", "t")], [("d", ())]⟩

theorem inputs_of_octets_named : named.Fits ∧ importing.Fits ∧ named.octets ≠ importing.octets ∧
    (derive named = derive importing →
      Sha256.digest named.octets = Sha256.digest importing.octets) := by
  have hnamed : named.Fits := by
    constructor
    all_goals decide +kernel
  have himporting : importing.Fits := by
    constructor
    all_goals decide +kernel
  have hne : named ≠ importing := by decide
  obtain ⟨hoctets, hkeys⟩ := inputs_of_octets hnamed himporting
  exact ⟨hnamed, himporting, fun h => hne (hoctets h), fun h => (hkeys h hne).2⟩

end TemplateKey

end MarkupTemplate
