import MarkupTemplate.Markup.Entity
import MarkupTemplate.Program.Basic

/-!
# Start tags with computed attributes

Of several computed values for one name the last one counts, in the place of the first. An attribute of
the source is written in its own place: as it stands if nothing or `default` is computed for it, not at
all if the value is nothing or false, and otherwise with the value between its quotes. Computed
attributes that the source does not have follow in order.
-/

namespace MarkupTemplate

/-- How values are turned into text. -/
abbrev ValueFormatter := Value → String

/-- Computed values by attribute name. -/
abbrev ComputedValues := List (String × Value)

namespace ComputedValues

/-- The values with one more, which takes the place of an earlier one for its name. -/
def put (name : String) (v : Value) : ComputedValues → ComputedValues
  | [] => [(name, v)]
  | (other, w) :: rest => if other = name then (name, v) :: rest else (other, w) :: put name v rest

/-- The value for a name, and the other values. -/
def take? (name : String) : ComputedValues → Option (Value × ComputedValues)
  | [] => none
  | (other, w) :: rest =>
    if other = name then some (w, rest)
    else (take? name rest).map fun found => (found.1, (other, w) :: found.2)

end ComputedValues

/-- The text of a computed attribute value; none if the attribute is dropped. A true value stands for
the attribute's own name. -/
def attributeText (format : ValueFormatter) (name : String) : Value → Option String
  | .nothing => none
  | .default => none
  | .bool false => none
  | .bool true => some (escapeAttribute name)
  | v => some (escapeAttribute (format v))

namespace StaticAttribute

/-- The attribute with a computed value in place of its own. -/
def rewritten (format : ValueFormatter) (a : StaticAttribute) (v : Value) : String :=
  if v.isDefault then a.source
  else
    match attributeText format a.name v with
    | none => ""
    | some text =>
      attributeSource a.leading a.name a.equals (some text) (some (a.quote.getD '"'))

end StaticAttribute

/-- The attributes of the source, and the computed values that none of them takes. -/
def writeAttributes (format : ValueFormatter) (values : ComputedValues) :
    List StaticAttribute → String × ComputedValues
  | [] => ("", values)
  | a :: rest =>
    match values.take? a.name with
    | none =>
      let (text, left) := writeAttributes format values rest
      (a.source ++ text, left)
    | some (v, values) =>
      let (text, left) := writeAttributes format values rest
      (a.rewritten format v ++ text, left)

/-- An attribute that the source does not have. -/
def newAttribute (format : ValueFormatter) (entry : String × Value) : String :=
  match attributeText format entry.1 entry.2 with
  | none => ""
  | some text => attributeSource " " entry.1 none (some text) (some '"')

/-- The start tag with computed values. -/
def TagPlan.startTag (format : ValueFormatter) (tag : TagPlan) (values : ComputedValues) : String :=
  let (text, left) := writeAttributes format values tag.attributes
  "<" ++ tag.name ++ text ++ String.join (left.map (newAttribute format)) ++ tag.close

end MarkupTemplate
