import MarkupTemplate.Evaluation.Scope
import MarkupTemplate.Proofs.Results
import MarkupTemplate.Proofs.Value.Fields
import MarkupTemplate.Value.Coerce

/-!
# The macro handles in values

Which handles a value holds, at any depth, and that no way of taking values apart, coercing them or binding
them to variables makes a handle that was not there before. The handles are told by a property `K` that all of
them have.
-/

namespace MarkupTemplate

/-- The fault does not come from host code that cannot be evaluated. -/
def EvalFault.NotHost (fault : EvalFault) : Prop :=
  ∀ problem, fault ≠ .host problem

namespace EvalFault.NotHost

theorem undefinedVariable (name : String) : (EvalFault.undefinedVariable name).NotHost := by
  intro problem h
  cases h

theorem navigation (path segment : String) (obstacle : Obstacle) :
    (EvalFault.navigation path segment obstacle).NotHost := by
  intro problem h
  cases h

theorem mismatch (m : Mismatch) : (EvalFault.mismatch m).NotHost := by
  intro problem h
  cases h

end EvalFault.NotHost

namespace Value

mutual

/-- The handles in a value. -/
def handles : Value → List MacroHandle
  | list items => handlesOf items
  | map fields => handlesUnder fields
  | handle m => [m]
  | _ => []

/-- The handles in values. -/
def handlesOf : List Value → List MacroHandle
  | [] => []
  | v :: vs => v.handles ++ handlesOf vs

/-- The handles in fields. -/
def handlesUnder : List (String × Value) → List MacroHandle
  | [] => []
  | (_, v) :: fields => v.handles ++ handlesUnder fields

end

/-- All handles in a value have a property. -/
def HandlesIn (K : MacroHandle → Prop) (v : Value) : Prop :=
  ∀ m ∈ v.handles, K m

variable {K : MacroHandle → Prop} {m : MacroHandle} {v w : Value} {items : List Value}
  {fields : List (String × Value)}

theorem mem_handlesOf : m ∈ handlesOf items ↔ ∃ v ∈ items, m ∈ v.handles := by
  induction items with
  | nil => simp [handlesOf]
  | cons v items ih => simp [handlesOf, ih]

theorem mem_handlesUnder : m ∈ handlesUnder fields ↔ ∃ field ∈ fields, m ∈ field.2.handles := by
  induction fields with
  | nil => simp [handlesUnder]
  | cons field fields ih =>
    obtain ⟨name, v⟩ := field
    simp [handlesUnder, ih]

@[simp] theorem handlesIn_list : (list items).HandlesIn K ↔ ∀ v ∈ items, v.HandlesIn K := by
  simp only [HandlesIn, handles, mem_handlesOf]
  exact ⟨fun h v hv m hm => h m ⟨v, hv, hm⟩, fun h m ⟨v, hv, hm⟩ => h v hv m hm⟩

@[simp] theorem handlesIn_map : (map fields).HandlesIn K ↔ ∀ field ∈ fields, field.2.HandlesIn K := by
  simp only [HandlesIn, handles, mem_handlesUnder]
  exact ⟨fun h field hf m hm => h m ⟨field, hf, hm⟩, fun h m ⟨field, hf, hm⟩ => h field hf m hm⟩

@[simp] theorem handlesIn_handle : (handle m).HandlesIn K ↔ K m := by
  simp [HandlesIn, handles]

@[simp] theorem handlesIn_nothing : nothing.HandlesIn K := List.forall_mem_nil _

@[simp] theorem handlesIn_default : default.HandlesIn K := List.forall_mem_nil _

@[simp] theorem handlesIn_bool (b : Bool) : (bool b).HandlesIn K := List.forall_mem_nil _

@[simp] theorem handlesIn_int (n : Int64) : (int n).HandlesIn K := List.forall_mem_nil _

@[simp] theorem handlesIn_float (x : Float) : (float x).HandlesIn K := List.forall_mem_nil _

@[simp] theorem handlesIn_str (s : String) : (str s).HandlesIn K := List.forall_mem_nil _

@[simp] theorem handlesIn_ofNat (n : Nat) : (ofNat n).HandlesIn K := List.forall_mem_nil _

theorem HandlesIn.of_eq_nil (h : v.handles = []) : v.HandlesIn K := by
  intro m hm
  rw [h] at hm
  cases hm

theorem HandlesIn.get? (h : v.HandlesIn K) {segment : String} (hw : v.get? segment = some w) :
    w.HandlesIn K := by
  unfold Value.get? at hw
  split at hw
  · exact handlesIn_map.1 h _ (Fields.mem_of_get? hw)
  · obtain ⟨i, -, hi⟩ := Option.bind_eq_some_iff.1 hw
    exact handlesIn_list.1 h w (List.mem_of_getElem? hi)
  · cases hw

section Results

variable {E : EvalFault → Prop}

theorem gives_bool (b : Bool) : Gives (HandlesIn K) E (.ok (bool b)) := .ok (handlesIn_bool b)

theorem gives_int (n : Int64) : Gives (HandlesIn K) E (.ok (int n)) := .ok (handlesIn_int n)

theorem gives_float (x : Float) : Gives (HandlesIn K) E (.ok (float x)) := .ok (handlesIn_float x)

theorem gives_str (s : String) : Gives (HandlesIn K) E (.ok (str s)) := .ok (handlesIn_str s)

theorem gives_mismatch {α : Type} {P : α → Prop} (m : Mismatch) :
    Gives P EvalFault.NotHost (.error (.mismatch m)) := .error (.mismatch m)

end Results

/-- A value of a declared type has no handle that the value given has not. -/
theorem HandlesIn.coerce (h : v.HandlesIn K) (tag : TypeTag) :
    Gives (HandlesIn K) EvalFault.NotHost (tag.coerce v) := by
  unfold TypeTag.coerce
  dsimp only
  -- what is read from a string is decided first, so that no other case is tried against it
  split
  all_goals first
    | (split <;> first | exact gives_int _ | exact gives_float _ | exact gives_mismatch _)
    | exact .ok handlesIn_nothing
    | exact .ok h
    | exact gives_bool _
    | exact gives_int _
    | exact gives_float _
    | exact gives_str _
    | exact gives_mismatch _

end Value

/-! ### Variables -/

/-- All handles in a frame have a property. -/
def Frame.HandlesIn (K : MacroHandle → Prop) (frame : Frame) : Prop :=
  ∀ entry ∈ frame, entry.2.HandlesIn K

/-- All handles in the variables have a property. -/
structure Scope.HandlesIn (K : MacroHandle → Prop) (σ : Scope) : Prop where
  inner : ∀ frame ∈ σ.inner, frame.HandlesIn K
  root : σ.root.HandlesIn K

section

variable {K : MacroHandle → Prop} {v : Value} {name : String}

namespace Frame.HandlesIn

variable {frame : Frame}

theorem nil : HandlesIn K [] := List.forall_mem_nil _

theorem insert (h : frame.HandlesIn K) (hv : v.HandlesIn K) (name : String) :
    HandlesIn K (Fields.insert name v frame) := by
  intro entry he
  rcases Fields.mem_insert he with rfl | he
  · exact hv
  · exact h entry he

theorem get? (h : frame.HandlesIn K) (hv : Fields.get? frame name = some v) : v.HandlesIn K :=
  h _ (Fields.mem_of_get? hv)

theorem insertAll (h : frame.HandlesIn K) {entries : List (String × Value)}
    (he : ∀ entry ∈ entries, entry.2.HandlesIn K) :
    HandlesIn K (entries.foldl (fun frame entry => Fields.insert entry.1 entry.2 frame) frame) := by
  induction entries generalizing frame with
  | nil => exact h
  | cons entry entries ih =>
    exact ih (h.insert (he entry (by simp)) entry.1) fun e hm => he e (by simp [hm])

end Frame.HandlesIn

namespace Scope.HandlesIn

variable {σ : Scope}

theorem of_forall (h : ∀ m, K m) (σ : Scope) : σ.HandlesIn K :=
  ⟨fun _ _ _ _ m _ => h m, fun _ _ m _ => h m⟩

theorem ofGlobals {frame : Frame} (h : frame.HandlesIn K) : (Scope.ofGlobals frame).HandlesIn K :=
  ⟨List.forall_mem_nil _, h⟩

theorem get? (h : σ.HandlesIn K) (hv : σ.get? name = some v) : v.HandlesIn K := by
  unfold Scope.get? at hv
  rcases Option.or_eq_some_iff.1 hv with hv | ⟨-, hv⟩
  · obtain ⟨frame, hf, hv⟩ := List.exists_of_findSome?_eq_some hv
    exact (h.inner frame hf).get? hv
  · exact h.root.get? hv

theorem push (h : σ.HandlesIn K) : σ.push.HandlesIn K where
  inner frame hf := by
    rcases List.mem_cons.1 hf with rfl | hf
    · exact .nil
    · exact h.inner frame hf
  root := h.root

theorem pop (h : σ.HandlesIn K) : σ.pop.HandlesIn K :=
  ⟨fun frame hf => h.inner frame (List.mem_of_mem_tail hf), h.root⟩

theorem truncate (h : σ.HandlesIn K) (d : Nat) : (σ.truncate d).HandlesIn K :=
  ⟨fun frame hf => h.inner frame (List.mem_of_mem_drop hf), h.root⟩

theorem defineGlobal (h : σ.HandlesIn K) (hv : v.HandlesIn K) (name : String) :
    (σ.defineGlobal name v).HandlesIn K :=
  ⟨h.inner, h.root.insert hv name⟩

theorem defineLocal (h : σ.HandlesIn K) (hv : v.HandlesIn K) (name : String) :
    (σ.defineLocal name v).HandlesIn K := by
  unfold Scope.defineLocal
  split
  · exact ⟨List.forall_mem_nil _, h.root.insert hv name⟩
  · next frame outer heq =>
    have hinner := heq ▸ h.inner
    refine ⟨fun f hf => ?_, h.root⟩
    rcases List.mem_cons.1 hf with rfl | hf
    · exact (hinner frame (by simp)).insert hv name
    · exact hinner f (by simp [hf])

theorem assign (hv : v.HandlesIn K) : ∀ {frames more : List Frame}, (∀ f ∈ frames, f.HandlesIn K) →
    Scope.assign name v frames = some more → ∀ f ∈ more, Frame.HandlesIn K f
  | frame :: frames, more, h, hm => by
    unfold Scope.assign at hm
    split at hm
    · cases hm
      intro f hf
      rcases List.mem_cons.1 hf with rfl | hf
      · exact (h frame (by simp)).insert hv name
      · exact h f (by simp [hf])
    · obtain ⟨rest, hr, rfl⟩ := Option.map_eq_some_iff.1 hm
      intro f hf
      rcases List.mem_cons.1 hf with rfl | hf
      · exact h f (by simp)
      · exact assign hv (fun f hf => h f (by simp [hf])) hr f hf

theorem set (h : σ.HandlesIn K) (hv : v.HandlesIn K) (name : String) :
    Gives (Scope.HandlesIn K) EvalFault.NotHost (σ.set name v) := by
  unfold Scope.set
  split
  · next inner hi => exact .ok ⟨assign hv h.inner hi, h.root⟩
  · split
    · exact .ok (h.defineGlobal hv name)
    · exact .error (.undefinedVariable name)

end Scope.HandlesIn

end

end MarkupTemplate
