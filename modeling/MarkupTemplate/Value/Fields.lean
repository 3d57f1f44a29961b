/-!
# Named fields

Fields are kept in ascending order of their names, by code points, each name once. Putting a value
under a name that is there replaces the old value.
-/

namespace MarkupTemplate

/-- Values under names, in the order of the names. -/
abbrev Fields (α : Type) := List (String × α)

namespace Fields

variable {α : Type}

/-- The value under a name. -/
def get? (fields : Fields α) (name : String) : Option α :=
  fields.lookup name

/-- There is a value under the name. -/
def has (fields : Fields α) (name : String) : Bool :=
  (fields.get? name).isSome

/-- Puts a value under a name. -/
def insert (name : String) (a : α) : Fields α → Fields α
  | [] => [(name, a)]
  | (other, b) :: rest =>
    if name = other then (name, a) :: rest
    else if name < other then (name, a) :: (other, b) :: rest
    else (other, b) :: insert name a rest

/-- Puts values under names one after another; of one name the last value stays. -/
def ofList (entries : List (String × α)) : Fields α :=
  entries.foldl (fun fields entry => insert entry.1 entry.2 fields) []

/-- The names. -/
def names (fields : Fields α) : List String :=
  fields.map (·.1)

theorem get?_insert (name other : String) (a : α) (fields : Fields α) :
    get? (insert name a fields) other = if other = name then some a else get? fields other := by
  induction fields with
  | nil =>
    by_cases h : other = name
    · simp [insert, get?, h]
    · have hb : (other == name) = false := by simpa using h
      simp [insert, get?, h, List.lookup_cons, hb]
  | cons head rest ih =>
    obtain ⟨key, b⟩ := head
    unfold insert
    split
    · next hk =>
      subst hk
      by_cases h : other = name
      · simp [get?, h]
      · have hb : (other == name) = false := by simpa using h
        simp [get?, h, List.lookup_cons, hb]
    · next hk =>
      split
      · by_cases h : other = name
        · simp [get?, h]
        · have hb : (other == name) = false := by simpa using h
          simp [get?, h, List.lookup_cons, hb]
      · by_cases ho : other = key
        · have h : ¬other = name := fun e => hk (e ▸ ho)
          subst ho
          simp [get?, h]
        · have hb : (other == key) = false := by simpa using ho
          simpa [get?, List.lookup_cons, hb] using ih

end Fields

end MarkupTemplate
