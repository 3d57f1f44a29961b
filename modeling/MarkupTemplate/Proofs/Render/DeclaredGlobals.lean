import MarkupTemplate.Proofs.Render.MacroNames
import MarkupTemplate.Proofs.Render.Parameters

/-!
# Declared global variables

A type leaves the values alone that it admits (`TypeTag.coerce_eq_self_iff`), and what it makes of others are such
values, so a value is changed once at most (`TypeTag.coerce_coerce`). A declared global variable starts with a value
of its type (`Template.get?_rootFrame`), and a parameter of the same type takes this value over as it is
(`RenderContext.bindParameter_of_admits`).
-/

namespace MarkupTemplate

theorem EvalFault.message_expectedType (tag : TypeTag) (kind : ValueKind) :
    (EvalFault.mismatch (.expectedType tag kind)).message =
      "Type error: expected " ++ tag.name ++ " but got a " ++ kind.name ++ " value" := by
  have hstart : "Type error: expected " = "Type error: " ++ "expected " := by decide
  show "Type error: " ++ ("expected " ++ tag.name ++ " but got a " ++ kind.name ++ " value") = _
  simp only [hstart, String.append_assoc]

namespace TypeTag

variable {tag : TypeTag} {v w : Value} {fault : EvalFault}

/-- A type leaves what it admits as it is. -/
theorem coerce_eq_self (h : tag.Admits v) : tag.coerce v = .ok v := by
  rcases h with h | h
  · cases v <;> cases h
    cases tag <;> rfl
  · cases tag
    case any => cases v <;> rfl
    all_goals
      have hkind := h _ rfl
      cases v <;> cases hkind
      rfl

theorem coerce_eq_self_iff : tag.coerce v = .ok v ↔ tag.Admits v :=
  ⟨coerce_admitted, coerce_eq_self⟩

/-- What a type has made of a value it leaves as it is. -/
theorem coerce_coerce (h : tag.coerce v = .ok w) : tag.coerce w = .ok w :=
  coerce_eq_self_iff.2 (coerce_admitted h)

theorem coerce_nothing (tag : TypeTag) : tag.coerce .nothing = .ok .nothing :=
  coerce_eq_self (.inl rfl)

/-- A value is refused for its kind. -/
theorem fault_of_coerce (h : tag.coerce v = .error fault) : fault = .mismatch (.expectedType tag v.kind) := by
  unfold coerce at h
  dsimp only at h
  split at h
  all_goals
    try split at h
    all_goals
      cases h
      try rfl

end TypeTag

namespace Template

variable {program : Program} {requirements : Requirements} {template : Template} {globals frame : Frame}
  {name typeName : String} {tag : TypeTag}

theorem get?_bindAll_of_mem {more : List (String × Value)} (hn : (more.map Prod.fst).Nodup) {binding : String × Value}
    (hb : binding ∈ more) : Fields.get? (bindAll frame more) binding.1 = some binding.2 := by
  obtain ⟨before, after, rfl⟩ := List.append_of_mem hb
  refine get?_bindAll_append fun entry he hname => ?_
  rw [List.map_append, List.map_cons] at hn
  have hafter := (List.nodup_cons.1 (List.nodup_append.1 hn).2.1).1
  exact hafter (hname ▸ List.mem_map_of_mem he)

/-- A declared global variable starts as the value given for it, or nothing, as one of its type. -/
theorem get?_rootFrame (ha : program.accept requirements = .ok template)
    (hs : Fields.IsSorted requirements.globalTypes) (hf : template.rootFrame globals = .ok frame)
    (hd : (name, typeName) ∈ requirements.globalTypes) (ht : TypeTag.parse? typeName = some tag) :
    ∃ w, tag.coerce ((globals.get? name).getD .nothing) = .ok w ∧
      ((∀ binding ∈ program.macroBindings, binding.1 ≠ name) → frame.get? name = some w) := by
  obtain ⟨declared, hdeclared, h⟩ := bind_eq_ok.1 hf
  cases h
  have hglobals := (Program.libraries_of_accept ha).2
  have hprogram := (Program.accept_ok ha).1
  have hmem : (name, some tag) ∈ template.globals := by
    rw [hglobals, ← ht]
    exact List.mem_map_of_mem (f := fun g => (g.1, TypeTag.parse? g.2)) hd
  obtain ⟨binding, hbinding, hdeclare⟩ := mapM_reaches hdeclared hmem
  unfold declaredGlobal at hdeclare
  dsimp only at hdeclare
  split at hdeclare <;> cases hdeclare
  next w hw =>
  refine ⟨w, hw, fun hmacros => ?_⟩
  have hnames : (declared.map Prod.fst).Nodup := by
    have hsame : declared.map Prod.fst = template.globals.map Prod.fst :=
      map_of_mapM hdeclared fun global binding h => by
        unfold declaredGlobal at h
        dsimp only at h
        split at h
        · cases h
          rfl
        · split at h <;> cases h
          rfl
    rw [hsame, hglobals, List.map_map]
    exact hs.nodup_names
  rw [hprogram, get?_bindAll_of_ne hmacros]
  exact get?_bindAll_of_mem hnames hbinding

end Template

namespace RenderContext

variable {context : RenderContext} {σ : Scope} {arguments : List (String × Argument)} {p : Parameter}
  {source : Option LocatedExpression} {w : Value}

/-- A parameter takes over a value that its type admits. -/
theorem bindParameter_of_admits (hs : p.Source arguments source) (hw : context.given σ source = .ok w)
    (h : p.type.Admits w) (location : Location) :
    context.bindParameter σ arguments location p = .ok (p.name, w) := by
  have hcoerce : coerceFor p source location w = .ok w := by
    unfold coerceFor
    rw [TypeTag.coerce_eq_self h]
  rw [bindParameter_eq, ← eq_source? hs, hw]
  show (do return (p.name, ← coerceFor p source location w) : Except RenderFault (String × Value)) = _
  rw [hcoerce]
  rfl

/-- The value of a variable is given by its name. -/
theorem given_variable {name : String} (h : σ.get? name = some w) (text : String) (location : Location) :
    context.given σ (some ⟨text, .path ⟨name, []⟩, location⟩) = .ok w := by
  have hpath : (Expression.path ⟨name, []⟩).evaluate context.host σ = .ok w := by
    simp only [Expression.evaluate, Path.resolve, h]
    rfl
  rw [given, value, hpath]

end RenderContext

/-- What a type makes of a value that it accepts is nothing or of its kind, and making it of this type again changes
nothing. Nothing is accepted and stays nothing, and a value that is refused is refused as a type error that names its
kind. So a declared global variable starts, unless macros have its name, with a value of its type that it gives by
its name as long as it has it, and that a parameter of the same type takes over as it is. -/
theorem TypeTag.coerced_once (tag : TypeTag) (v : Value) :
    (∀ w, tag.coerce v = .ok w → tag.Admits w ∧ tag.coerce w = .ok w) ∧ tag.coerce .nothing = .ok .nothing ∧
    (∀ fault, tag.coerce v = .error fault → fault.typeName = "TypeError" ∧
      fault.message = "Type error: expected " ++ tag.name ++ " but got a " ++ v.kind.name ++ " value") ∧
    ∀ (program : Program) (requirements : Requirements) (template : Template) (globals frame : Frame)
        (name typeName : String), program.accept requirements = .ok template →
      Fields.IsSorted requirements.globalTypes → template.rootFrame globals = .ok frame →
      (name, typeName) ∈ requirements.globalTypes → TypeTag.parse? typeName = some tag →
      ∃ w, tag.coerce ((globals.get? name).getD .nothing) = .ok w ∧
        ((∀ binding ∈ program.macroBindings, binding.1 ≠ name) → frame.get? name = some w) ∧
        (∀ (context : RenderContext) (σ : Scope) (text : String) (location : Location), σ.get? name = some w →
          context.given σ (some ⟨text, .path ⟨name, []⟩, location⟩) = .ok w) ∧
        ∀ (context : RenderContext) (σ : Scope) (arguments : List (String × Argument)) (p : Parameter)
            (source : Option LocatedExpression) (location : Location), p.type = tag → p.Source arguments source →
          context.given σ source = .ok w → context.bindParameter σ arguments location p = .ok (p.name, w) := by
  refine ⟨fun w hw => ⟨coerce_admitted hw, coerce_coerce hw⟩, coerce_nothing tag, fun fault hf => ?_, ?_⟩
  · obtain rfl := fault_of_coerce hf
    exact ⟨rfl, EvalFault.message_expectedType tag v.kind⟩
  · intro program requirements template globals frame name typeName ha hs hf hd ht
    obtain ⟨w, hw, hstart⟩ := Template.get?_rootFrame ha hs hf hd ht
    refine ⟨w, hw, hstart, fun context σ text location h => RenderContext.given_variable h text location, ?_⟩
    rintro context σ arguments p source location rfl hsource hgiven
    exact RenderContext.bindParameter_of_admits hsource hgiven (coerce_admitted hw) location

/-- A global variable of this name is declared as an integer. -/
def declaredInteger : Requirements :=
  ⟨[("n", "integer")], []⟩

theorem TypeTag.coerced_once_declaredInteger : ∃ program template frame,
    Program.compile (MemoryStore.ofTexts []).provider .markup RenderContext.typedParameters = .ok program ∧
    program.accept declaredInteger = .ok template ∧ template.rootFrame [("n", .str " 41 ")] = .ok frame ∧
    frame.get? "n" = some (.int 41) ∧ ∀ (context : RenderContext) (p : Parameter), p.type = .int →
      context.bindParameter (.ofGlobals frame) [(p.name, .value ⟨"n", .path ⟨"n", []⟩, default⟩)] default p =
        .ok (p.name, .int 41) := by
  have hd : (Program.compile (MemoryStore.ofTexts []).provider .markup RenderContext.typedParameters).toOption.any
      fun program => (program.accept declaredInteger).toOption.any fun template =>
        (template.rootFrame [("n", .str " 41 ")]).toOption.isSome ∧
          program.macroBindings.all (·.1 ≠ "n") := by
    decide +kernel
  obtain ⟨program, hp, hd⟩ := (Option.any_eq_true ..).1 hd
  obtain ⟨template, ha, hd⟩ := (Option.any_eq_true ..).1 hd
  obtain ⟨hf, hmacros⟩ := of_decide_eq_true hd
  obtain ⟨frame, hf⟩ := Option.isSome_iff_exists.1 hf
  have hmacros : ∀ binding ∈ program.macroBindings, binding.1 ≠ "n" := by simpa using hmacros
  have hcoerced := (TypeTag.coerced_once .int (.str " 41 ")).2.2.2
  obtain ⟨w, hw, hstart, hvariable, hparameter⟩ := hcoerced program declaredInteger template [("n", .str " 41 ")] frame
    "n" "integer" (eq_ok_of_toOption ha) (List.pairwise_singleton _ _) (eq_ok_of_toOption hf) (by decide) rfl
  have hread : TypeTag.int.coerce (.str " 41 ") = .ok (.int 41) := by
    rfl
  cases hread.symm.trans hw
  refine ⟨program, template, frame, eq_ok_of_toOption hp, eq_ok_of_toOption ha, eq_ok_of_toOption hf, hstart hmacros,
    fun context p htype => ?_⟩
  have hsource : p.Source [(p.name, .value ⟨"n", .path ⟨"n", []⟩, default⟩)] (some ⟨"n", .path ⟨"n", []⟩, default⟩) :=
    @Parameter.Source.passed p _ [] [] _ rfl (by simp)
  exact hparameter context _ _ p _ default htype hsource (hvariable context _ _ _ (hstart hmacros))

end MarkupTemplate
