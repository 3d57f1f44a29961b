import MarkupTemplate.Proofs.Host.Values
import MarkupTemplate.Render.Template

/-!
# Prepared code

A runtime that prepares code reads it and checks the functions it calls, and keeps what it has read. A program
is accepted when each piece of host code in its expressions is prepared, so its expressions never fail in their
host code, whatever the variables (`Program.evaluate_gives`).
-/

namespace MarkupTemplate

open Value (HandlesIn)
open EvalFault (NotHost)

namespace HostRuntime

variable {runtime next : HostRuntime} {code : String} {e : HostExpr}

/-- What is prepared is what has been read, and calls known functions only. -/
def IsChecked (runtime : HostRuntime) : Prop :=
  ∀ entry ∈ runtime.prepared, Host.parse entry.1 = .ok entry.2 ∧
    ∀ f ∈ entry.2.called, (Host.findFunction? runtime.libraries f).isSome

/-- The code is prepared. -/
def Prepares (runtime : HostRuntime) (code : String) : Prop :=
  code ∈ runtime.prepared.map (·.1)

/-- The code is read, calls known functions only, is evaluated as if it were read on the spot, and never
fails as host code. -/
structure Serves (runtime : HostRuntime) (code : String) : Prop where
  read : ∃ e, runtime.prepared.lookup code = some e ∧ Host.parse code = .ok e ∧
    ∀ f ∈ e.called, (Host.findFunction? runtime.libraries f).isSome
  onTheSpot : ∀ σ, runtime.evaluate code σ = (HostRuntime.ofLibraries runtime.libraries).evaluate code σ
  evaluates : ∀ σ problem, runtime.evaluate code σ ≠ .error (.host problem)

theorem Prepares.lookup (h : runtime.Prepares code) : ∃ e, runtime.prepared.lookup code = some e := by
  rw [← Option.isSome_iff_exists, List.lookup_isSome_iff]
  simpa [Prepares] using h

/-- What has been prepared stays, and so do the libraries. -/
theorem prepare_ok (h : runtime.prepare code = .ok next) :
    next.libraries = runtime.libraries ∧ next.Prepares code ∧
      (∀ other, runtime.Prepares other → next.Prepares other) ∧ (runtime.IsChecked → next.IsChecked) := by
  unfold prepare at h
  split at h
  · next hknown =>
    cases h
    obtain ⟨e, he⟩ := Option.isSome_iff_exists.1 hknown
    refine ⟨rfl, ?_, fun _ ho => ho, fun hc => hc⟩
    exact List.mem_map.2 ⟨(code, e), Fields.mem_of_get? he, rfl⟩
  · obtain ⟨e, he, h⟩ := bind_eq_ok.1 h
    split at h
    · cases h
    · next hknown =>
      cases h
      refine ⟨rfl, List.mem_cons_self, fun _ ho => List.mem_cons_of_mem _ ho, fun hc entry hentry => ?_⟩
      rcases List.mem_cons.1 hentry with rfl | hentry
      · refine ⟨he, fun f hf => ?_⟩
        have := List.find?_eq_none.1 hknown f hf
        simpa [Option.isSome_iff_ne_none] using this
      · exact hc entry hentry

theorem IsChecked.ofLibraries (libraries : List Host.Library) : (ofLibraries libraries).IsChecked :=
  List.forall_mem_nil _

namespace IsChecked

variable {K : MacroHandle → Prop} {σ : Scope}

theorem parse (hc : runtime.IsChecked) (h : runtime.prepared.lookup code = some e) :
    Host.parse code = .ok e :=
  (hc _ (Fields.mem_of_get? h)).1

theorem isRunnable (hc : runtime.IsChecked) (h : runtime.prepared.lookup code = some e) :
    e.IsRunnable runtime.libraries :=
  ⟨Host.isTame_of_parse (hc.parse h), (hc _ (Fields.mem_of_get? h)).2⟩

/-- Prepared code is evaluated as if it were read on the spot. -/
theorem evaluate_eq (hc : runtime.IsChecked) (code : String) (σ : Scope) :
    runtime.evaluate code σ = (HostRuntime.ofLibraries runtime.libraries).evaluate code σ := by
  unfold evaluate
  cases h : runtime.prepared.lookup code with
  | none => rfl
  | some e =>
    show eval runtime.libraries σ e = _
    simp only [HostRuntime.ofLibraries, List.lookup_nil, hc.parse h]

theorem evaluate_gives (hc : runtime.IsChecked) (hp : runtime.Prepares code) (hσ : σ.HandlesIn K) :
    Gives (HandlesIn K) NotHost (runtime.evaluate code σ) := by
  obtain ⟨e, he⟩ := hp.lookup
  unfold evaluate
  rw [he]
  exact eval_gives hσ e (hc.isRunnable he)

theorem serves (hc : runtime.IsChecked) (hp : runtime.Prepares code) : runtime.Serves code where
  read := by
    obtain ⟨e, he⟩ := hp.lookup
    exact ⟨e, he, hc.parse he, (hc.isRunnable he).2⟩
  onTheSpot := hc.evaluate_eq code
  evaluates σ problem h := by
    have hσ : σ.HandlesIn fun _ => True := .of_forall (fun _ => trivial) σ
    exact (hc.evaluate_gives hp hσ).of_error h problem rfl

end IsChecked

end HostRuntime

/-! ### Expressions -/

section

variable {K : MacroHandle → Prop} {σ : Scope} {run : HostEvaluator}

theorem Path.follow_gives (p : Path) {v : Value} (hv : v.HandlesIn K) (segments : List String) :
    Gives (HandlesIn K) NotHost (p.follow v segments) := by
  induction segments generalizing v with
  | nil => exact .ok hv
  | cons segment segments ih =>
    unfold Path.follow
    split
    · next part hpart => exact ih (hv.get? hpart)
    · exact .error (.navigation _ _ _)

theorem Path.resolve_gives (hσ : σ.HandlesIn K) (p : Path) : Gives (HandlesIn K) NotHost (p.resolve σ) := by
  unfold Path.resolve
  split
  · next v hv => exact p.follow_gives (hσ.get? hv) p.segments
  · exact .error (.undefinedVariable _)

namespace Expression

mutual

/-- An expression takes the handles of its value from the variables, and fails in its host code only if a
piece of that does. -/
theorem evaluate_gives (hσ : σ.HandlesIn K) : ∀ e : Expression,
    (∀ code ∈ e.hostCode, Gives (HandlesIn K) NotHost (run code σ)) →
    Gives (HandlesIn K) NotHost (e.evaluate run σ)
  | .path p, _ => p.resolve_gives hσ
  | .alternatives es, h => by
    rw [evaluate]
    exact evaluateFirst_gives hσ es h (.mismatch _)
  | .string parts, h => by
    rw [evaluate]
    exact (evaluateParts_gives hσ parts h).map fun s _ => Value.handlesIn_str s
  | .not e, h => by
    rw [evaluate]
    exact (evaluate_gives hσ e h).map fun v _ => Value.handlesIn_bool _
  | .anyPath paths, _ => .ok (Value.handlesIn_bool _)
  | .literal (.int n), _ => Value.gives_int n
  | .literal (.float x), _ => Value.gives_float x
  | .nothing, _ => .ok Value.handlesIn_nothing
  | .default, _ => .ok Value.handlesIn_default
  | .host code, h => h code (by simp [hostCode])

theorem evaluateFirst_gives (hσ : σ.HandlesIn K) : ∀ es : List Expression,
    (∀ code ∈ hostCodeAll es, Gives (HandlesIn K) NotHost (run code σ)) →
    ∀ {fault : EvalFault}, fault.NotHost → Gives (HandlesIn K) NotHost (evaluateFirst run σ fault es)
  | [], _, _, hf => .error hf
  | e :: es, h, _, _ => by
    have he := evaluate_gives hσ e fun code hc => h code (List.mem_append_left _ hc)
    rw [evaluateFirst]
    split
    · next v hv => exact .ok (he.of_ok hv)
    · next fault hfault =>
      split
      · exact evaluateFirst_gives hσ es (fun code hc => h code (List.mem_append_right _ hc))
          (he.of_error hfault)
      · exact .error (he.of_error hfault)

theorem evaluateParts_gives (hσ : σ.HandlesIn K) : ∀ parts : List StringPart,
    (∀ code ∈ hostCodeParts parts, Gives (HandlesIn K) NotHost (run code σ)) →
    Gives (fun _ => True) NotHost (evaluateParts run σ parts)
  | [], _ => .ok trivial
  | .text s :: parts, h => by
    rw [evaluateParts]
    exact (evaluateParts_gives hσ parts h).map fun _ _ => trivial
  | .interpolation e :: parts, h => by
    rw [evaluateParts]
    exact (evaluate_gives hσ e fun code hc => h code (List.mem_append_left _ hc)).bind fun _ _ _ =>
      (evaluateParts_gives hσ parts fun code hc => h code (List.mem_append_right _ hc)).bind
        fun _ _ _ => .ok trivial

end

end Expression

end

/-! ### Accepted programs -/

namespace Program

variable {program : Program} {requirements : Requirements} {template : Template}

theorem prepareCode_ok {host next : HostRuntime} {piece : String × Location}
    (h : prepareCode host piece = .ok next) : host.prepare piece.1 = .ok next := by
  unfold prepareCode at h
  split at h
  · next hp =>
    cases h
    exact hp
  · cases h

/-- A program that is accepted has all of its host code prepared. -/
theorem accept_ok (h : program.accept requirements = .ok template) :
    template.program = program ∧ template.host.IsChecked ∧
      ∀ e ∈ program.expressions, ∀ code ∈ e.expression.hostCode, template.host.Prepares code := by
  unfold accept at h
  dsimp only at h
  split at h
  case h_2 => cases h
  obtain ⟨libraries, -, h⟩ := bind_eq_ok.1 h
  obtain ⟨host, hhost, h⟩ := bind_eq_ok.1 h
  cases h
  refine ⟨rfl, ?_, fun e he code hcode => ?_⟩
  · exact foldlM_keeps (fun _ _ _ _ hc h => (HostRuntime.prepare_ok (prepareCode_ok h)).2.2.2 hc)
      (HostRuntime.IsChecked.ofLibraries libraries) hhost
  · have hall := foldlM_reaches (D := fun piece host => HostRuntime.Prepares host piece.1)
      (fun piece _ _ h => (HostRuntime.prepare_ok (prepareCode_ok h)).2.1)
      (fun piece _ _ _ h hp => (HostRuntime.prepare_ok (prepareCode_ok h)).2.2.1 piece.1 hp) hhost
    exact hall (code, e.location) (List.mem_flatMap.2 ⟨e, he, List.mem_map_of_mem hcode⟩)

/-- The runtime of an accepted program has the libraries asked for. -/
theorem libraries_of_accept (h : program.accept requirements = .ok template) :
    Host.libraries requirements.dependencies.names = .ok template.host.libraries ∧
      template.globals = requirements.globalTypes.map fun g => (g.1, TypeTag.parse? g.2) := by
  unfold accept at h
  dsimp only at h
  split at h
  case h_2 => cases h
  next libraries hlibraries =>
  obtain ⟨_, hl, h⟩ := bind_eq_ok.1 h
  cases hl
  obtain ⟨host, hhost, h⟩ := bind_eq_ok.1 h
  cases h
  have hkept : host.libraries = libraries :=
    foldlM_keeps (P := fun host => HostRuntime.libraries host = libraries)
      (fun _ _ _ _ hb h => (HostRuntime.prepare_ok (prepareCode_ok h)).1.trans hb) rfl hhost
  rw [hlibraries, ← hkept]
  exact ⟨rfl, rfl⟩

/-- No expression of an accepted program fails in its host code. -/
theorem evaluate_gives (h : program.accept requirements = .ok template) {e : LocatedExpression}
    (he : e ∈ program.expressions) {K : MacroHandle → Prop} {σ : Scope} (hσ : σ.HandlesIn K) :
    Gives (HandlesIn K) NotHost (e.expression.evaluate template.host.evaluate σ) := by
  obtain ⟨-, hchecked, hprepared⟩ := accept_ok h
  exact Expression.evaluate_gives hσ e.expression fun code hcode =>
    hchecked.evaluate_gives (hprepared e he code hcode) hσ

end Program

end MarkupTemplate
