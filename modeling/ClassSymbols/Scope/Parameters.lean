import ClassSymbols.Declaration.Parameter

/-!
# Type parameters in scope

The type parameters that can be referred to at some point, in frames: one for each enclosing
declaration that has any, the innermost first. Lookups take the first match, frame by frame and in
each frame in order.

## Main definitions

* `ParameterScope` — the frames, none of which is empty.
* `ParameterScope.push` — a further innermost frame.
* `ParameterScope.findWithDepth?`, `ParameterScope.find?`, `ParameterScope.findByName?` — lookups.
-/

namespace ClassSymbols

/-- The type parameters in scope. -/
structure ParameterScope where
  frames : List (List TypeParameter) := []
  frames_ne_nil : ∀ frame ∈ frames, frame ≠ [] := by simp

namespace ParameterScope

def empty : ParameterScope := {}

instance : Inhabited ParameterScope := ⟨empty⟩

/-- The scope with `parameters` as a further innermost frame. No parameters make no frame. -/
def push (scope : ParameterScope) (parameters : List TypeParameter) : ParameterScope :=
  if h : parameters = [] then scope
  else
    { frames := parameters :: scope.frames
      frames_ne_nil := by
        intro frame member
        rcases List.mem_cons.1 member with rfl | member
        · exact h
        · exact scope.frames_ne_nil frame member }

/-- The first parameter with number `id` in the frames, and the number of frames passed over on the
way to it, after the `passed` frames before them. -/
def findFrom (id : UInt32) (passed : Nat) : List (List TypeParameter) → Option (TypeParameter × Nat)
  | [] => none
  | frame :: rest =>
    match frame.find? (·.id == id) with
    | some parameter => some (parameter, passed)
    | none => findFrom id (passed + 1) rest

/-- The first parameter with number `id`, and how many frames are inside the one that holds it. The
depth is a 16-bit number. -/
def findWithDepth? (scope : ParameterScope) (id : UInt32) : Option (TypeParameter × UInt16) :=
  (findFrom id 0 scope.frames).map fun (parameter, depth) => (parameter, UInt16.ofNat depth)

def find? (scope : ParameterScope) (id : UInt32) : Option TypeParameter :=
  (scope.findWithDepth? id).map Prod.fst

def findByName? (scope : ParameterScope) (name : String) : Option TypeParameter :=
  scope.frames.findSome? fun frame => frame.find? (·.name == name)

def size (scope : ParameterScope) : Nat := scope.frames.flatten.length

def isEmpty (scope : ParameterScope) : Bool := scope.frames.isEmpty

end ParameterScope

end ClassSymbols
