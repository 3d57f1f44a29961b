import MarkupTemplate.Artifact.Program
import MarkupTemplate.Proofs.Artifact.Expressions
import MarkupTemplate.Proofs.Value.Fields

/-!
# Programs that are read back

Data made of a program stands for the program (`Program.ofJson?_toJson`), for every kind of operation. Records
are read by the names of their fields and operations by the names of their variants; blocks are inside
operations, so the proof for these is one induction. The names of macros are kept in order, and reading puts
them in order.
-/

namespace MarkupTemplate

open Json

theorem LocatedExpression.ofJson?_toJson (e : LocatedExpression) : ofJson? e.toJson = some e := by
  simp [toJson, ofJson?, record?, membersNamed, Expression.ofJson?_toJson, Location.ofJson?_toJson]

theorem LocatedExpression.toJson_ne_null (e : LocatedExpression) : e.toJson ≠ .null := by
  simp [toJson]

theorem BindingKind.ofJson?_name (kind : BindingKind) : ofJson? (.string kind.name) = some kind := by
  cases kind <;> simp [name, ofJson?]

theorem Omission.ofJson?_toJson (omission : Omission) : ofJson? omission.toJson = some omission := by
  cases omission with
  | never => simp [toJson, ofJson?]
  | always => simp [toJson, ofJson?]
  | when e => simp [toJson, ofJson?, e.ofJson?_toJson]

theorem optionalText (o : Option String) : optionalField text? (some (Json.ofOption .string o)) = some o :=
  optionalField_ofOption fun s _ => ⟨rfl, by simp⟩

theorem StaticAttribute.ofJson?_toJson (a : StaticAttribute) : ofJson? a.toJson = some a := by
  have hquote : optionalField char? (some (Json.ofOption (fun c => .string (String.singleton c)) a.quote)) =
      some a.quote := optionalField_ofOption fun c _ => ⟨by simp [char?], by simp⟩
  simp [toJson, ofJson?, record?, membersNamed, optionalText, hquote]

theorem ComputedAttribute.ofJson?_toJson (a : ComputedAttribute) : ofJson? a.toJson = some a := by
  simp [toJson, ofJson?, record?, membersNamed, LocatedExpression.ofJson?_toJson]

theorem TagPlan.ofJson?_toJson (tag : TagPlan) : ofJson? tag.toJson = some tag := by
  have hattributes := listOf?_map tag.attributes fun a _ => a.ofJson?_toJson
  have hcomputed := listOf?_map tag.computed fun a _ => a.ofJson?_toJson
  simp [toJson, ofJson?, record?, membersNamed, optionalText, Omission.ofJson?_toJson, hattributes, hcomputed]

theorem MacroTarget.ofJson?_toJson (target : MacroTarget) : ofJson? target.toJson = some target := by
  cases target with
  | known id => simp [toJson, ofJson?]
  | computed e => simp [toJson, ofJson?, e.ofJson?_toJson]

theorem Argument.ofJson?_toJson (a : Argument) : ofJson? a.toJson = some a := by
  cases a with
  | value e => simp [toJson, ofJson?, e.ofJson?_toJson]
  | default => simp [toJson, ofJson?]

theorem Argument.ofJsonNamed?_toJsonNamed (entry : String × Argument) :
    ofJsonNamed? (toJsonNamed entry) = some entry := by
  simp [toJsonNamed, ofJsonNamed?, record?, membersNamed, Argument.ofJson?_toJson]

/-! ### Operations -/

namespace Operation

/-- The blocks right inside an operation. -/
def bodies : Operation → List Block
  | emit _ _ fallback => [fallback]
  | condition _ body => [body]
  | .repeat _ _ body => [body]
  | element _ body => [body]
  | onError body _ _ => [body]
  | callMacro _ fills _ _ => fills.map (·.2)
  | slot _ fallback => [fallback]
  | _ => []

theorem toJsonAll_eq (ops : List Operation) : toJsonAll ops = ops.map toJson := by
  induction ops with
  | nil => rfl
  | cons op ops ih => rw [toJsonAll, ih, List.map_cons]

theorem toJsonFills_eq (fills : List (String × List Operation)) : toJsonFills fills =
    fills.map fun fill => .object [("name", .string fill.1), ("body", .array (toJsonAll fill.2))] := by
  induction fills with
  | nil => rfl
  | cons fill fills ih => rw [toJsonFills, ih, List.map_cons]

variable {block : Json → Option Block}

/-- An operation is read back if the blocks right inside it are. -/
theorem readVariant_toJson (op : Operation)
    (h : ∀ body ∈ op.bodies, block (.array (toJsonAll body)) = some body) :
    ((variant? op.toJson).bind fun v => readVariant block v.1 v.2) = some op := by
  cases op with
  | literal text => rfl
  | emit e asMarkup fallback =>
    have hb := h fallback (by simp [bodies])
    simp only [toJson, variant?_variant, Option.bind_some]
    -- which record is read depends on the name of the variant alone, so this is by computation
    show (record? _ _ >>= _) = _
    simp [record?, membersNamed, e.ofJson?_toJson, hb]
  | pushScope => rfl
  | popScope => rfl
  | define kind name e =>
    simp only [toJson, variant?_variant, Option.bind_some]
    show (record? _ _ >>= _) = _
    simp [record?, membersNamed, e.ofJson?_toJson, kind.ofJson?_name]
  | condition test body =>
    have hb := h body (by simp [bodies])
    simp only [toJson, variant?_variant, Option.bind_some]
    show (record? _ _ >>= _) = _
    simp [record?, membersNamed, test.ofJson?_toJson, hb]
  | «repeat» name items body =>
    have hb := h body (by simp [bodies])
    simp only [toJson, variant?_variant, Option.bind_some]
    show (record? _ _ >>= _) = _
    simp [record?, membersNamed, items.ofJson?_toJson, hb]
  | element tag body =>
    have hb := h body (by simp [bodies])
    simp only [toJson, variant?_variant, Option.bind_some]
    show (record? _ _ >>= _) = _
    simp [record?, membersNamed, tag.ofJson?_toJson, hb]
  | onError body handler asMarkup =>
    have hb := h body (by simp [bodies])
    simp only [toJson, variant?_variant, Option.bind_some]
    show (record? _ _ >>= _) = _
    simp [record?, membersNamed, handler.ofJson?_toJson, hb]
  | callMacro target fills arguments location =>
    have hfills : listOf? (readFill block) (.array (toJsonFills fills)) = some fills := by
      rw [toJsonFills_eq]
      refine listOf?_map fills fun fill hf => ?_
      have hb := h fill.2 (List.mem_map_of_mem hf)
      simp [readFill, record?, membersNamed, hb]
    have harguments := listOf?_map arguments fun a _ => Argument.ofJsonNamed?_toJsonNamed a
    simp only [toJson, variant?_variant, Option.bind_some]
    show (record? _ _ >>= _) = _
    simp [record?, membersNamed, target.ofJson?_toJson, hfills, harguments, location.ofJson?_toJson]
  | slot name fallback =>
    have hb := h fallback (by simp [bodies])
    simp only [toJson, variant?_variant, Option.bind_some]
    show (record? _ _ >>= _) = _
    simp [record?, membersNamed, hb]

/-- The data of a block is less high than that of the operation around it. -/
theorem height_lt_of_mem_bodies {op : Operation} {body : Block} (h : body ∈ op.bodies) :
    heightItems (toJsonAll body) < op.toJson.height := by
  cases op with
  | callMacro target fills arguments location =>
    obtain ⟨fill, hf, rfl⟩ := List.mem_map.1 h
    have hle := height_le_heightItems (List.mem_map_of_mem
      (f := fun fill => Json.object [("name", .string fill.1), ("body", .array (toJsonAll fill.2))]) hf)
    simp only [height, heightMembers] at hle
    simp only [toJson, height_variant, height, heightMembers, toJsonFills_eq]
    omega
  | literal | pushScope | popScope | define => cases h
  | _ =>
    rw [List.mem_singleton.1 h]
    simp only [toJson, height_variant, height, heightMembers]
    omega

/-- An operation is read back with any bound of the height of its data. -/
theorem read_toJson (op : Operation) {height : Nat} (h : op.toJson.height ≤ height) :
    read height op.toJson = some op := by
  induction height generalizing op with
  | zero => exact absurd op.toJson.height_pos (by omega)
  | succ height ih =>
    refine readVariant_toJson op fun body hb => ?_
    rw [toJsonAll_eq]
    refine listOf?_map body fun inner hi => ih inner ?_
    have hbody := height_lt_of_mem_bodies hb
    have hinner := height_le_heightItems (List.mem_map_of_mem (f := toJson) hi)
    rw [← toJsonAll_eq] at hinner
    omega

end Operation

theorem Block.ofJson?_toJsonAll (ops : Block) :
    Block.ofJson? (.array (Operation.toJsonAll ops)) = some ops := by
  rw [Operation.toJsonAll_eq]
  refine listOf?_map ops fun op hop => op.read_toJson ?_
  have := height_le_heightItems (List.mem_map_of_mem (f := Operation.toJson) hop)
  rw [height]
  omega

/-! ### Macros and their names -/

theorem TypeTag.ofJson?_name (type : TypeTag) : ofJson? (.string type.name) = some type := by
  cases type <;> rfl

theorem Parameter.ofJson?_toJson (p : Parameter) : ofJson? p.toJson = some p := by
  have hdefault : optionalField LocatedExpression.ofJson?
      (some (Json.ofOption LocatedExpression.toJson p.default?)) = some p.default? :=
    optionalField_ofOption fun e _ => ⟨e.ofJson?_toJson, e.toJson_ne_null⟩
  simp [toJson, ofJson?, record?, membersNamed, TypeTag.ofJson?_name, hdefault]

theorem Macro.ofJson?_toJson (m : Macro) : ofJson? m.toJson = some m := by
  have hparameters := listOf?_map m.parameters fun p _ => p.ofJson?_toJson
  simp [toJson, ofJson?, record?, membersNamed, optionalText, hparameters, Block.ofJson?_toJsonAll,
    Location.ofJson?_toJson]

/-- An object of values is read back if they are. -/
theorem Json.mapOf?_map {α : Type} {read : Json → Option α} {f : α → Json} (entries : List (String × α))
    (h : ∀ entry ∈ entries, read (f entry.2) = some entry.2) :
    mapOf? read (.object (entries.map fun entry => (entry.1, f entry.2))) = some entries := by
  show (entries.map _).mapM _ = _
  induction entries with
  | nil => rfl
  | cons entry entries ih =>
    rw [List.map_cons, List.mapM_cons, ih fun e he => h e (by simp [he]), h entry (by simp)]
    rfl

/-- Names that ascend, and those under each alias, are read back. -/
theorem macroNamesOfJson?_macroNamesToJson {names : Fields (Fields Nat)} (h : Fields.IsSorted names)
    (hunder : ∀ entry ∈ names, Fields.IsSorted entry.2) :
    macroNamesOfJson? (macroNamesToJson names) = some names := by
  have hplaces : ∀ entry ∈ names, Fields.ofList <$> mapOf? nat?
      (.object (entry.2.map fun place => (place.1, .int place.2))) = some entry.2 := by
    intro entry he
    have hread := mapOf?_map (f := fun n : Nat => .int n) entry.2 fun place _ => nat?_int place.2
    rw [hread]
    exact congrArg some (hunder entry he).ofList
  have hread : mapOf? (fun j => Fields.ofList <$> mapOf? nat? j) (macroNamesToJson names) = some names :=
    mapOf?_map (f := fun places : Fields Nat => .object (places.map fun place => (place.1, .int place.2)))
      names hplaces
  rw [macroNamesOfJson?, hread]
  exact congrArg some h.ofList

theorem Program.ofJson?_toJson {program : Program} (h : Fields.IsSorted program.namespaces)
    (hunder : ∀ entry ∈ program.namespaces, Fields.IsSorted entry.2) :
    ofJson? program.toJson = some program := by
  have hmacros := listOf?_map program.macros fun m _ => m.ofJson?_toJson
  simp [toJson, ofJson?, record?, membersNamed, Block.ofJson?_toJsonAll, hmacros,
    macroNamesOfJson?_macroNamesToJson h hunder]

end MarkupTemplate
