import MarkupTemplate.Artifact.Expression
import Mathlib.Data.List.Basic

/-!
# Expressions that are read back

Data made of an expression stands for the expression (`Expression.ofJson?_toJson`). Each kind of expression
is a variant of its own, so reading takes the case that writing took; it recurses on a height, and any bound
of the data's height will do.
-/

namespace MarkupTemplate

namespace Json

variable {α : Type} {read : Json → Option α}

/-- A list is read back if its items are. -/
theorem listOf?_map {f : α → Json} (as : List α) (h : ∀ a ∈ as, read (f a) = some a) :
    listOf? read (array (as.map f)) = some as := by
  show (as.map f).mapM read = some as
  induction as with
  | nil => rfl
  | cons a as ih =>
    rw [List.map_cons, List.mapM_cons, h a (by simp), ih fun b hb => h b (by simp [hb])]
    rfl

/-- An optional value is read back if it is and is not written as nothing. -/
theorem optionalField_ofOption {f : α → Json} {o : Option α}
    (h : ∀ a ∈ o, read (f a) = some a ∧ f a ≠ null) :
    optionalField read (some (ofOption f o)) = some o := by
  cases o with
  | none => rfl
  | some a =>
    obtain ⟨hread, hne⟩ := h a rfl
    have hfield : optional? read (f a) = some <$> read (f a) := by
      unfold optional?
      split
      · next heq => exact absurd heq hne
      · rfl
    show optional? read (f a) = some (some a)
    rw [hfield, hread]
    rfl

@[simp] theorem required_some (read : Json → Option α) (j : Json) : required read (some j) = read j := rfl

@[simp] theorem text?_string (s : String) : text? (string s) = some s := rfl

@[simp] theorem bool?_bool (b : Bool) : bool? (bool b) = some b := rfl

@[simp] theorem nat?_int (n : Nat) : nat? (int n) = some n := by
  simp [nat?]

@[simp] theorem variant?_variant (name : String) (content : Json) :
    variant? (variant name content) = some (name, content) := rfl

@[simp] theorem variant?_string (name : String) : variant? (string name) = some (name, null) := rfl

theorem height_pos (j : Json) : 0 < j.height := by
  cases j <;> simp [height]

theorem height_le_heightItems {j : Json} {items : List Json} (h : j ∈ items) :
    j.height ≤ heightItems items := by
  induction items with
  | nil => cases h
  | cons item items ih =>
    rw [heightItems]
    rcases List.mem_cons.1 h with rfl | h
    · exact Nat.le_max_left ..
    · exact Nat.le_trans (ih h) (Nat.le_max_right ..)

@[simp] theorem height_variant (name : String) (content : Json) :
    (variant name content).height = content.height + 1 := by
  simp [variant, height, heightMembers]

end Json

open Json

theorem Path.ofJson?_toJson (p : Path) : Path.ofJson? p.toJson = some p := by
  have hsegments : listOf? text? (.array (p.segments.map .string)) = some p.segments :=
    listOf?_map p.segments fun _ _ => rfl
  simp [Path.toJson, Path.ofJson?, record?, membersNamed, hsegments]

theorem Literal.ofJson?_toJson (l : Literal) : Literal.ofJson? l.toJson = some l := by
  cases l with
  | int n =>
    have hn : Numeric.int64? n.toInt = some n := by
      rw [Numeric.int64?, if_pos ⟨n.minValue_le_toInt, n.toInt_le⟩, Int64.ofInt_toInt]
    simp [Literal.toJson, Literal.ofJson?, int64?, hn]
  | float x => rfl

namespace Expression

mutual

-- The recursion is on the expression; the height of its data is how deep it has to be read.
theorem read_toJson : ∀ (e : Expression) {height : Nat}, e.toJson.height ≤ height →
    read height e.toJson = some e
  | e, 0, h => absurd e.toJson.height_pos (by omega)
  | path p, height + 1, _ => by simp [toJson, read, Path.ofJson?_toJson]
  | alternatives es, height + 1, h => by
    have hle : heightItems (toJsonAll es) ≤ height := by
      simp [toJson, Json.height] at h
      omega
    have hes := mapM_read_toJsonAll es hle
    simp [toJson, read, listOf?, items?, hes]
  | string parts, height + 1, h => by
    have hle : heightItems (toJsonParts parts) ≤ height + 1 := by
      simp [toJson, Json.height] at h
      omega
    have hparts := mapM_read_toJsonParts parts hle
    simp [toJson, read, listOf?, items?, hparts]
  | not e, height + 1, h => by
    have hle : e.toJson.height ≤ height := by simpa [toJson] using h
    have he := read_toJson e hle
    simp [toJson, read, he]
  | anyPath paths, height + 1, _ => by
    have hpaths := listOf?_map paths fun p _ => Path.ofJson?_toJson p
    simp [toJson, read, hpaths]
  | literal l, height + 1, _ => by simp [toJson, read, Literal.ofJson?_toJson]
  | nothing, height + 1, _ => by simp [toJson, read]
  | default, height + 1, _ => by simp [toJson, read]
  | host code, height + 1, _ => by simp [toJson, read]

theorem mapM_read_toJsonAll : ∀ (es : List Expression) {height : Nat},
    heightItems (toJsonAll es) ≤ height → (toJsonAll es).mapM (read height) = some es
  | [], _, _ => rfl
  | e :: es, height, h => by
    simp only [toJsonAll, heightItems, Nat.max_le] at h
    rw [toJsonAll, List.mapM_cons, read_toJson e h.1, mapM_read_toJsonAll es h.2]
    rfl

theorem mapM_read_toJsonParts : ∀ (parts : List StringPart) {height : Nat},
    heightItems (toJsonParts parts) ≤ height + 1 →
      (toJsonParts parts).mapM (readPart (read height)) = some parts
  | [], _, _ => rfl
  | .text s :: parts, height, h => by
    simp only [toJsonParts, heightItems, Nat.max_le] at h
    rw [toJsonParts, List.mapM_cons, mapM_read_toJsonParts parts h.2]
    simp [readPart]
  | .interpolation e :: parts, height, h => by
    simp only [toJsonParts, heightItems, Nat.max_le, height_variant, Nat.add_le_add_iff_right] at h
    rw [toJsonParts, List.mapM_cons, mapM_read_toJsonParts parts h.2]
    simp [readPart, read_toJson e h.1]

end

theorem ofJson?_toJson (e : Expression) : ofJson? e.toJson = some e :=
  read_toJson e (Nat.le_refl _)

end Expression

theorem Location.ofJson?_toJson (l : Location) : Location.ofJson? l.toJson = some l := by
  obtain ⟨⟨line, column, offset⟩, _ | filename⟩ := l
  · simp [Location.toJson, Location.ofJson?, record?, membersNamed, optionalField]
  · simp [Location.toJson, Location.ofJson?, record?, membersNamed, optionalField, optional?]

end MarkupTemplate
