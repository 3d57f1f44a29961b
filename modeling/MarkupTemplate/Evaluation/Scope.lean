import MarkupTemplate.Evaluation.Fault
import MarkupTemplate.Value.Basic

/-!
# Variables

Variables live in a chain of frames, from the innermost to the root frame, which holds the globals and
is never removed. A look-up takes the innermost binding; a definition writes the innermost frame, a
global one the root, and an assignment the innermost frame that has the name.
-/

namespace MarkupTemplate

/-- The variables of one frame. -/
abbrev Frame := Fields Value

/-- A chain of frames. -/
structure Scope where
  /-- The frames above the root, the innermost first. -/
  inner : List Frame
  /-- The globals. -/
  root : Frame
  deriving Inhabited

namespace Scope

/-- A scope with these globals. -/
def ofGlobals (globals : Frame) : Scope := ⟨[], globals⟩

/-- The number of frames. -/
def depth (s : Scope) : Nat := s.inner.length + 1

/-- The scope with an empty frame inside. -/
def push (s : Scope) : Scope := ⟨[] :: s.inner, s.root⟩

/-- The scope without its innermost frame, if that is not the root. -/
def pop (s : Scope) : Scope := ⟨s.inner.tail, s.root⟩

/-- The scope with its outermost `depth` frames, at least the root. -/
def truncate (s : Scope) (depth : Nat) : Scope :=
  ⟨s.inner.drop (s.inner.length - (depth - 1)), s.root⟩

/-- The innermost value of a variable. -/
def get? (s : Scope) (name : String) : Option Value :=
  (s.inner.findSome? (·.get? name)).or (s.root.get? name)

/-- Binds a variable in the innermost frame. -/
def defineLocal (s : Scope) (name : String) (v : Value) : Scope :=
  match s.inner with
  | [] => ⟨[], s.root.insert name v⟩
  | frame :: outer => ⟨frame.insert name v :: outer, s.root⟩

/-- Binds a variable in the root frame. -/
def defineGlobal (s : Scope) (name : String) (v : Value) : Scope :=
  ⟨s.inner, s.root.insert name v⟩

/-- Binds a name again in the first of the frames that has it. -/
def assign (name : String) (v : Value) : List Frame → Option (List Frame)
  | [] => none
  | frame :: frames =>
    if frame.has name then some (frame.insert name v :: frames)
    else (assign name v frames).map (frame :: ·)

/-- Binds a variable again where it is bound. -/
def set (s : Scope) (name : String) (v : Value) : Except EvalFault Scope :=
  match assign name v s.inner with
  | some inner => .ok ⟨inner, s.root⟩
  | none =>
    if s.root.has name then .ok (s.defineGlobal name v) else .error (.undefinedVariable name)

end Scope

end MarkupTemplate
