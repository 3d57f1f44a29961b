import MarkupTemplate.Proofs.Json.Numbers
import MarkupTemplate.Proofs.Json.Strings

/-!
# Data that a JSON text keeps

Data is kept if its numbers are and its arrays and objects do not nest too deep (`IsKept`). Reading goes as
the data does: what is written for a value is read as the value, whatever follows it (`value?_write`), so the
whole text is read as the data (`read?_write`).
-/

namespace MarkupTemplate.Json

/-- A number that is read as it was written. -/
inductive IsKeptNumber : Json → Prop
  | int {n : Int} (h : IsWord n) : IsKeptNumber (int n)
  | float {x : Float} (h : number? (writeFloat x).toList = some (float x, [])) : IsKeptNumber (float x)

/-- At most `depth` arrays and objects are around each other, and numbers are read as they were written. -/
inductive IsKept : Nat → Json → Prop
  | null (depth : Nat) : IsKept depth null
  | bool (depth : Nat) (b : Bool) : IsKept depth (bool b)
  | string (depth : Nat) (s : String) : IsKept depth (string s)
  | number (depth : Nat) {j : Json} (h : IsKeptNumber j) : IsKept depth j
  | array {depth : Nat} {items : List Json} (h : ∀ j ∈ items, IsKept depth j) :
      IsKept (depth + 1) (array items)
  | object {depth : Nat} {members : List (String × Json)} (h : ∀ m ∈ members, IsKept depth m.2) :
      IsKept (depth + 1) (object members)

variable {cs rest : List Char} {size depth : Nat} {j : Json}

/-- A float is read as it was written. -/
def keepsFloat (x : Float) : Bool :=
  match number? (writeFloat x).toList with
  | some (float y, []) => y = x
  | _ => false

/-- `IsKept`, computed. -/
def keeps : Nat → Json → Bool
  | _, null => true
  | _, bool _ => true
  | _, string _ => true
  | _, int n => decide (IsWord n)
  | _, float x => keepsFloat x
  | depth + 1, array items => items.all (keeps depth)
  | depth + 1, object members => members.all fun m => keeps depth m.2
  | _, _ => false

theorem keepsFloat_iff {x : Float} : keepsFloat x ↔ number? (writeFloat x).toList = some (float x, []) := by
  unfold keepsFloat
  constructor
  · intro h
    split at h
    · next y heq => rw [heq, of_decide_eq_true h]
    · cases h
  · intro h
    rw [h]
    exact decide_eq_true rfl

theorem isKept_of_keeps : ∀ {depth : Nat} {j : Json}, keeps depth j → IsKept depth j
  | _, null, _ => .null _
  | _, bool _, _ => .bool _ _
  | _, string _, _ => .string _ _
  | _, int n, h => .number _ (.int (by simpa [keeps] using h))
  | _, float x, h => .number _ (.float (keepsFloat_iff.1 (by simpa [keeps] using h)))
  | _ + 1, array items, h => .array fun j hj => isKept_of_keeps (List.all_eq_true.1 h j hj)
  | _ + 1, object members, h => .object fun m hm => isKept_of_keeps (List.all_eq_true.1 h m hm)
  | 0, array _, h => by cases h
  | 0, object _, h => by cases h
  | _, unfit, h => by simp [keeps] at h

theorem IsKept.keeps (h : IsKept depth j) : keeps depth j := by
  induction h with
  | null | bool | string => simp [Json.keeps]
  | number depth h =>
    cases h with
    | int h => simpa [Json.keeps] using h
    | float h => simpa [Json.keeps] using keepsFloat_iff.2 h
  | array _ ih => simpa [Json.keeps] using ih
  | object _ ih =>
    rw [Json.keeps, List.all_eq_true]
    exact ih

instance (depth : Nat) (j : Json) : Decidable (IsKept depth j) :=
  decidable_of_iff _ ⟨isKept_of_keeps, IsKept.keeps⟩

/-! ### How a value begins -/

/-- A text that begins with no blank and no closing bracket. -/
def BeginsValue (cs : List Char) : Prop :=
  ∃ c more, cs = c :: more ∧ isGap c = false ∧ c ≠ ']' ∧ c ≠ '\x7d'

theorem skipGap_cons {c : Char} (h : isGap c = false) : skipGap (c :: cs) = c :: cs := by
  rw [skipGap, List.dropWhile_cons, h]
  rfl

theorem BeginsValue.skipGap (h : BeginsValue cs) (rest : List Char) : skipGap (cs ++ rest) = cs ++ rest := by
  obtain ⟨c, more, rfl, hc, -⟩ := h
  exact skipGap_cons hc

theorem beginsValue_writeString (s : String) (more : List Char) :
    BeginsValue ((writeString s).toList ++ more) :=
  ⟨'"', _, by simp [writeString]; rfl, by decide, by decide, by decide⟩

theorem beginsValue_number {behind : List Char} (h : number? cs = some (j, behind)) : BeginsValue cs := by
  obtain ⟨c, more, rfl, hc⟩ := exists_of_number? h
  refine ⟨c, more, rfl, ?_, ?_, ?_⟩
  · by_cases hgap : isGap c
    · simp only [isGap, Bool.or_eq_true, beq_iff_eq] at hgap
      rcases hgap with ((rfl | rfl) | rfl) | rfl <;> rcases hc with hc | hc <;> exact absurd hc (by decide)
    · exact Bool.eq_false_iff.2 hgap
  all_goals
    rintro rfl
    rcases hc with hc | hc <;> exact absurd hc (by decide)

/-- A number is written as it is read. -/
theorem IsKeptNumber.number? (h : IsKeptNumber j) : number? (write j).toList = some (j, []) := by
  cases h with
  | int h => simpa only [write] using number?_int h
  | float h => simpa only [write] using h

theorem IsKept.beginsValue (h : IsKept depth j) : BeginsValue (write j).toList := by
  cases h with
  | null => exact ⟨'n', _, by simp only [write]; rfl, by decide, by decide, by decide⟩
  | bool _ b =>
    cases b
    · exact ⟨'f', _, by simp only [write]; rfl, by decide, by decide, by decide⟩
    · exact ⟨'t', _, by simp only [write]; rfl, by decide, by decide, by decide⟩
  | string _ s =>
    have := beginsValue_writeString s []
    simpa only [write, List.append_nil] using this
  | number _ h => exact beginsValue_number h.number?
  | array =>
    exact ⟨'[', _, by simp only [write, String.toList_append]; rfl, by decide, by decide, by decide⟩
  | object =>
    exact ⟨'\x7b', _, by simp only [write, String.toList_append]; rfl, by decide, by decide, by decide⟩

/-! ### Sequences -/

section Sequences

variable {α : Type} {entries : List (String × α)} {texts : List String} {text : String}

theorem toList_intercalate_cons (text other : String) (texts : List String) :
    (",".intercalate (text :: other :: texts)).toList =
      text.toList ++ ',' :: (",".intercalate (other :: texts)).toList := by
  rw [String.intercalate_cons_cons, String.toList_append, String.toList_append, List.append_assoc]
  rfl

theorem length_le_intercalate (h : text ∈ texts) :
    text.toList.length ≤ (",".intercalate texts).toList.length := by
  induction texts with
  | nil => cases h
  | cons first texts ih =>
    cases texts with
    | nil =>
      rw [List.mem_singleton.1 h, String.intercalate_singleton]
    | cons other texts =>
      rw [toList_intercalate_cons, List.length_append, List.length_cons]
      rcases List.mem_cons.1 h with rfl | h
      · omega
      · have := ih h
        omega

/-- There are no more texts than commas between them, and one. -/
theorem length_le_intercalate_succ (texts : List String) :
    texts.length ≤ (",".intercalate texts).toList.length + 1 := by
  induction texts with
  | nil => exact Nat.zero_le _
  | cons first texts ih =>
    cases texts with
    | nil => simp
    | cons other texts =>
      rw [toList_intercalate_cons, List.length_append, List.length_cons (a := first),
        List.length_cons (a := ',')]
      omega

/-- Entries that are read from their texts are read from the texts between commas. -/
theorem sequence?_intercalate {item? : Reader α} {close : Char} (hclose : close = ']' ∨ close = '\x7d')
    (hitem : ∀ e ∈ entries, BeginsValue e.1.toList ∧
      ∀ rest, Delimits rest → item? (e.1.toList ++ rest) = some (e.2, rest))
    (hne : entries ≠ []) {fuel : Nat} (hfuel : entries.length ≤ fuel) (rest : List Char) :
    sequence? item? close fuel ((",".intercalate (entries.map (·.1))).toList ++ close :: rest) =
      some (entries.map (·.2), rest) := by
  induction entries generalizing fuel with
  | nil => exact absurd rfl hne
  | cons e entries ih =>
    obtain ⟨fuel, rfl⟩ := Nat.exists_eq_add_of_lt (Nat.lt_of_lt_of_le (Nat.zero_lt_succ _) hfuel)
    obtain ⟨hbegins, hread⟩ := hitem e (by simp)
    -- the last entry ends at the bracket, every other one at a comma
    cases entries with
    | nil =>
      have hd : Delimits (close :: rest) := .cons (.inr hclose)
      have hgap : isGap close = false ∧ close ≠ ',' := by rcases hclose with rfl | rfl <;> decide
      simp only [List.map_cons, List.map_nil, String.intercalate_singleton, sequence?,
        hbegins.skipGap, hread _ hd, Option.bind_eq_bind, Option.bind_some, skipGap_cons hgap.1, hgap.2,
        if_false, if_true]
    | cons other entries =>
      have hd (cs : List Char) : Delimits (',' :: cs) := .cons (.inl rfl)
      have hgap : isGap ',' = false := by decide
      have hfewer : (other :: entries).length ≤ 0 + fuel := by
        rw [List.length_cons] at hfuel
        omega
      have hmore := ih (fun e he => hitem e (by simp [he])) (by simp) hfewer
      simp only [List.map_cons] at hmore ⊢
      rw [toList_intercalate_cons, List.append_assoc, List.cons_append]
      simp only [sequence?, hbegins.skipGap, hread _ (hd _), Option.bind_eq_bind, Option.bind_some,
        skipGap_cons hgap, if_true, hmore]

/-- The same between brackets. -/
theorem enclosed?_intercalate {item? : Reader α} {close : Char} (hclose : close = ']' ∨ close = '\x7d')
    (hitem : ∀ e ∈ entries, BeginsValue e.1.toList ∧
      ∀ rest, Delimits rest → item? (e.1.toList ++ rest) = some (e.2, rest))
    (hsize : entries.length ≤ size) (rest : List Char) :
    enclosed? size item? close ((",".intercalate (entries.map (·.1))).toList ++ close :: rest) =
      some (entries.map (·.2), rest) := by
  cases entries with
  | nil =>
    have hgap : isGap close = false := by rcases hclose with rfl | rfl <;> decide
    simp [enclosed?, skipGap_cons hgap]
  | cons e entries =>
    have hseq := sequence?_intercalate hclose hitem (by simp) hsize rest
    -- the first item begins the sequence, so no bracket closes it at once
    obtain ⟨c, more, hcs, hgap, hne⟩ : BeginsValue
        ((",".intercalate ((e :: entries).map (·.1))).toList ++ close :: rest) := by
      obtain ⟨c, more, hc, hg⟩ := (hitem e (by simp)).1
      cases entries with
      | nil => exact ⟨c, more ++ close :: rest, by simp [hc], hg⟩
      | cons other entries =>
        exact ⟨c, _, by rw [List.map_cons, List.map_cons, toList_intercalate_cons, hc]; rfl, hg⟩
    rw [hcs] at hseq ⊢
    have hc : c ≠ close := by
      rcases hclose with rfl | rfl
      · exact hne.1
      · exact hne.2
    rw [enclosed?, skipGap_cons hgap]
    simpa only [hc, if_false] using hseq

end Sequences

/-! ### Values -/

theorem writeItems_eq (items : List Json) : writeItems items = items.map write := by
  induction items with
  | nil => rfl
  | cons item items ih => rw [writeItems, ih, List.map_cons]

/-- A member of an object as it is written. -/
def writeMember (m : String × Json) : String :=
  writeString m.1 ++ ":" ++ write m.2

theorem writeMembers_eq (members : List (String × Json)) :
    writeMembers members = members.map writeMember := by
  induction members with
  | nil => rfl
  | cons m members ih => rw [writeMembers, ih, List.map_cons, writeMember]

/-- A name is read with the colon behind it. -/
theorem memberName?_write (name : String) (hsize : name.toList.length < size) (hb : BeginsValue cs) :
    memberName? size ((writeString name).toList ++ ':' :: (cs ++ rest)) = some (some name, cs ++ rest) := by
  have hcolon : isGap ':' = false := by decide
  simp only [memberName?, string?_writeString name _ hsize, Option.bind_eq_bind, Option.bind_some,
    skipGap_cons hcolon, hb.skipGap]

theorem ofItems_of_isKept {items : List Json} (h : ∀ j ∈ items, IsKept depth j) :
    ofItems items = array items := by
  unfold ofItems
  split
  · next hany =>
    obtain ⟨j, hj, hunfit⟩ := List.any_eq_true.1 hany
    cases h j hj with
    | number _ h => cases h <;> cases hunfit
    | _ => cases hunfit
  · rfl

theorem ofMembers_named (members : List (String × Json)) :
    ofMembers (members.map fun m => (some m.1, m.2)) = object members := by
  have hnamed : (members.map fun m => (some m.1, m.2)).mapM namedMember? = some members := by
    induction members with
    | nil => rfl
    | cons m members ih => simp [List.mapM_cons, namedMember?, ih]
  rw [ofMembers, hnamed]
  rfl

/-- A value without parts is read the same at any depth. -/
theorem value?_scalar {c : Char} (hc : c ≠ '[' ∧ c ≠ '\x7b') :
    value? size depth (c :: cs) = scalar? size (c :: cs) := by
  cases depth with
  | zero =>
    unfold value?
    split
    · next heq => cases heq; exact absurd rfl hc.1
    · next heq => cases heq; exact absurd rfl hc.2
    · rfl
  | succ depth =>
    unfold value?
    split
    · next heq => cases heq; exact absurd rfl hc.1
    · next heq => cases heq; exact absurd rfl hc.2
    · rfl

theorem scalar?_number {c : Char} (hc : c = '-' ∨ c.isDigit) :
    scalar? size (c :: cs) = number? (c :: cs) := by
  unfold scalar?
  split
  case h_5 => rfl
  all_goals
    next heq =>
      cases heq
      rcases hc with hc | hc <;> exact absurd hc (by decide)

theorem value?_number (h : IsKeptNumber j) (hr : Delimits rest) :
    value? size depth ((write j).toList ++ rest) = some (j, rest) := by
  have hn := number?_append hr h.number?
  obtain ⟨c, more, hcs, hc⟩ := exists_of_number? h.number?
  rw [hcs, List.cons_append] at hn ⊢
  have hne : c ≠ '[' ∧ c ≠ '\x7b' := by
    constructor <;> rintro rfl <;> rcases hc with hc | hc <;> exact absurd hc (by decide)
  rw [value?_scalar hne, scalar?_number hc, hn, List.nil_append]

theorem value?_string (s : String) (hsize : (writeString s).toList.length < size) (rest : List Char) :
    value? size depth ((writeString s).toList ++ rest) = some (string s, rest) := by
  have hs := string?_writeString s rest (Nat.lt_trans (length_lt_writeString s) hsize)
  have hcs : (writeString s).toList ++ rest = '"' :: (s.toList.flatMap writeChar ++ '"' :: rest) := by
    simp [writeString]
  rw [hcs] at hs ⊢
  rw [value?_scalar (by decide)]
  simp [scalar?, hs]

/-- An array is read as it was written if its items are. -/
theorem value?_array {items : List Json} (h : ∀ j ∈ items, IsKept depth j)
    (hread : ∀ j ∈ items, (write j).toList.length < size → ∀ rest, Delimits rest →
      value? size depth ((write j).toList ++ rest) = some (j, rest))
    (hsize : (write (array items)).toList.length < size) (rest : List Char) :
    value? size (depth + 1) ((write (array items)).toList ++ rest) = some (array items, rest) := by
  have htext : (write (array items)).toList ++ rest = '[' ::
      ((",".intercalate ((items.map fun j => (write j, j)).map (·.1))).toList ++ ']' :: rest) := by
    simp [write, writeItems_eq, Function.comp_def]
  have hlen : (",".intercalate (items.map write)).toList.length + 2 < size := by
    simpa [write, writeItems_eq] using hsize
  have hitems : ∀ e ∈ items.map fun j => (write j, j), BeginsValue e.1.toList ∧
      ∀ rest, Delimits rest → value? size depth (e.1.toList ++ rest) = some (e.2, rest) := by
    intro e he
    obtain ⟨j, hj, rfl⟩ := List.mem_map.1 he
    have hle := length_le_intercalate (List.mem_map_of_mem (f := write) hj)
    exact ⟨(h j hj).beginsValue, hread j hj (by omega)⟩
  have hcount : (items.map fun j => (write j, j)).length ≤ size := by
    have := length_le_intercalate_succ (items.map write)
    rw [List.length_map] at this ⊢
    omega
  have hread := enclosed?_intercalate (.inl rfl) hitems hcount rest
  rw [htext, value?]
  simp only [Bracket.close, hread, Option.map_some]
  simp [Function.comp_def, ofItems_of_isKept h]

/-- A member is read as it was written if its value is. -/
theorem member?_write {m : String × Json} (h : IsKept depth m.2)
    (hread : (write m.2).toList.length < size → ∀ rest, Delimits rest →
      value? size depth ((write m.2).toList ++ rest) = some (m.2, rest))
    (hsize : (writeMember m).toList.length < size) :
    BeginsValue (writeMember m).toList ∧ ∀ rest, Delimits rest →
      member? size (value? size depth) ((writeMember m).toList ++ rest) = some ((some m.1, m.2), rest) := by
  have hname := length_lt_writeString m.1
  have hparts : (writeMember m).toList = (writeString m.1).toList ++ ':' :: (write m.2).toList := by
    simp [writeMember]
  simp only [hparts, List.length_append, List.length_cons] at hsize ⊢
  refine ⟨beginsValue_writeString _ _, fun rest hr => ?_⟩
  rw [List.append_assoc, List.cons_append, member?, memberName?_write m.1 (by omega) h.beginsValue]
  simp only [Option.bind_eq_bind, Option.bind_some, hread (by omega) rest hr]

/-- An object is read as it was written if the values of its members are. -/
theorem value?_object {members : List (String × Json)} (h : ∀ m ∈ members, IsKept depth m.2)
    (hread : ∀ m ∈ members, (write m.2).toList.length < size → ∀ rest, Delimits rest →
      value? size depth ((write m.2).toList ++ rest) = some (m.2, rest))
    (hsize : (write (object members)).toList.length < size) (rest : List Char) :
    value? size (depth + 1) ((write (object members)).toList ++ rest) = some (object members, rest) := by
  have htext : (write (object members)).toList ++ rest = '\x7b' ::
      ((",".intercalate ((members.map fun m => (writeMember m, (some m.1, m.2))).map (·.1))).toList ++
        '\x7d' :: rest) := by
    simp [write, writeMembers_eq, Function.comp_def]
  have hlen : (",".intercalate (members.map writeMember)).toList.length + 2 < size := by
    simpa [write, writeMembers_eq] using hsize
  have hmembers : ∀ e ∈ members.map fun m => (writeMember m, (some m.1, m.2)), BeginsValue e.1.toList ∧
      ∀ rest, Delimits rest →
        member? size (value? size depth) (e.1.toList ++ rest) = some (e.2, rest) := by
    intro e he
    obtain ⟨m, hm, rfl⟩ := List.mem_map.1 he
    have hle := length_le_intercalate (List.mem_map_of_mem (f := writeMember) hm)
    exact member?_write (h m hm) (hread m hm) (by omega)
  have hcount : (members.map fun m => (writeMember m, (some m.1, m.2))).length ≤ size := by
    have := length_le_intercalate_succ (members.map writeMember)
    rw [List.length_map] at this ⊢
    omega
  have hread := enclosed?_intercalate (.inr rfl) hmembers hcount rest
  rw [htext, value?]
  simp only [Bracket.close, hread, Option.map_some]
  simp [Function.comp_def, ofMembers_named]

/-- What is written for a value is read as the value. -/
theorem value?_write (h : IsKept depth j) (hsize : (write j).toList.length < size) (rest : List Char)
    (hr : Delimits rest) : value? size depth ((write j).toList ++ rest) = some (j, rest) := by
  induction h generalizing rest with
  | null =>
    simp only [write]
    exact value?_scalar (by decide)
  | bool _ b =>
    cases b
    all_goals
      simp only [write]
      exact value?_scalar (by decide)
  | string _ s =>
    simp only [write] at hsize ⊢
    exact value?_string s hsize rest
  | number _ h => exact value?_number h hr
  | array h ih => exact value?_array h ih hsize rest
  | object h ih => exact value?_object h ih hsize rest

/-- Data that a text keeps is read from the text. -/
theorem read?_write (h : IsKept depthLimit j) : read? (write j) = some j := by
  have hread := value?_write h (Nat.lt_succ_self _) [] .nil
  have hskip := h.beginsValue.skipGap []
  rw [List.append_nil] at hread hskip
  have hend : (skipGap []).isEmpty = true := rfl
  simp only [read?, hskip, hread, Option.bind_eq_bind, Option.bind_some, hend, if_true]

end MarkupTemplate.Json
