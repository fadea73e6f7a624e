import ClassSymbols.Proofs.Data.Traversal
import ClassSymbols.Proofs.Ty.Renaming
import ClassSymbols.Scope.Types

/-!
# Renaming declarations in contexts

A type that is read in a renamed context is the renamed type, and one that cannot be read cannot be
read there, for the same reason.

## Main definitions

* `ScopeContext.rename` — a context in which declarations are renamed.

## Main statements

* `ScopeContext.readType_rename` — types that are read in a renamed context.
-/

namespace ClassSymbols

variable (f : DeclId → DeclId)

def TypeParameter.rename (parameter : TypeParameter) : TypeParameter :=
  { parameter with
    owner := f parameter.owner
    upperBounds := parameter.upperBounds.map (Ty.rename f) }

def ParameterScope.rename (scope : ParameterScope) : ParameterScope where
  frames := scope.frames.map (List.map (TypeParameter.rename f))
  frames_ne_nil frame h := by
    obtain ⟨old, ho, rfl⟩ := List.mem_map.1 h
    simpa using scope.frames_ne_nil old ho

def ScopeContext.rename (context : ScopeContext) : ScopeContext :=
  { context with
    fragment := f context.fragment
    parameters := context.parameters.rename f
    declarations := context.declarations.map f }

variable {f}

@[simp] theorem TypeParameter.asType_rename (parameter : TypeParameter) :
    (parameter.rename f).asType = parameter.asType.rename f := by
  simp [asType, rename]

/-! ## Parameters in scope -/

namespace ParameterScope

variable (scope : ParameterScope)

theorem rename_push (parameters : List TypeParameter) :
    (scope.push parameters).rename f =
      (scope.rename f).push (parameters.map (TypeParameter.rename f)) := by
  by_cases none : parameters = []
  · simp [push, none]
  · simp [push, none, rename]

theorem findFrom_rename (id : UInt32) (passed : Nat) (frames : List (List TypeParameter)) :
    findFrom id passed (frames.map (List.map (TypeParameter.rename f))) =
      (findFrom id passed frames).map fun found => (found.1.rename f, found.2) := by
  induction frames generalizing passed with
  | nil => rfl
  | cons frame rest ih =>
    have first : (frame.map (TypeParameter.rename f)).find? (·.id == id) =
        (frame.find? (·.id == id)).map (TypeParameter.rename f) := List.find?_map ..
    rw [List.map_cons, findFrom, findFrom, first]
    cases frame.find? (·.id == id) with
    | none => exact ih (passed + 1)
    | some parameter => rfl

theorem find?_rename (id : UInt32) :
    (scope.rename f).find? id = (scope.find? id).map (TypeParameter.rename f) := by
  rw [find?, find?, findWithDepth?, findWithDepth?, rename, findFrom_rename]
  cases findFrom id 0 scope.frames <;> rfl

theorem findByName?_rename (name : String) :
    (scope.rename f).findByName? name = (scope.findByName? name).map (TypeParameter.rename f) := by
  change (scope.frames.map (List.map (TypeParameter.rename f))).findSome? _ = _
  rw [findByName?]
  induction scope.frames with
  | nil => rfl
  | cons frame rest ih =>
    have first : (frame.map (TypeParameter.rename f)).find? (·.name == name) =
        (frame.find? (·.name == name)).map (TypeParameter.rename f) := List.find?_map ..
    rw [List.map_cons, List.findSome?_cons, List.findSome?_cons, first]
    cases frame.find? (·.name == name) with
    | none => exact ih
    | some parameter => rfl

end ParameterScope

/-! ## Types -/

namespace ScopeContext

variable {context : ScopeContext}

theorem rename_withParameters (context : ScopeContext) (parameters : List TypeParameter) :
    (context.withParameters parameters).rename f =
      (context.rename f).withParameters (parameters.map (TypeParameter.rename f)) := by
  simp [withParameters, rename, ParameterScope.rename_push]

theorem rename_enter (context : ScopeContext) (declaration : DeclId)
    (parameters : List TypeParameter) (types : Option TypeTable) :
    (context.enter declaration parameters types).rename f =
      (context.rename f).enter (f declaration) (parameters.map (TypeParameter.rename f)) types := by
  simp [enter, rename, ParameterScope.rename_push]

theorem rename_owner (context : ScopeContext) : (context.rename f).owner = f context.owner := by
  simp only [owner, rename, List.getLastD_eq_getLast?, List.getLast?_map]
  cases context.declarations.getLast? <;> rfl

theorem readClassifier_rename (classifier : Classifier) :
    (context.rename f).readClassifier classifier =
      (context.readClassifier classifier).map (Ty.rename f) := by
  cases classifier with
  | className index =>
    exact Except.bind_translate_right fun id => congrArg Except.ok (Ty.rename_ofClass f id).symm
  | typeParameter id =>
    simp only [readClassifier, rename, ParameterScope.find?_rename]
    cases context.parameters.find? id with
    | none => rfl
    | some parameter => exact congrArg Except.ok parameter.asType_rename
  | typeParameterName index =>
    refine Except.bind_translate_right fun name => ?_
    simp only [rename, ParameterScope.findByName?_rename]
    cases context.parameters.findByName? name with
    | none => rfl
    | some parameter => exact congrArg Except.ok parameter.asType_rename

theorem readArgument_rename {read read' : TypeRef → Except SymbolError Ty}
    (translates : ∀ ref, read' ref = (read ref).map (Ty.rename f)) (record : ArgumentRecord) :
    readArgument read' record = (readArgument read record).map (TypeArgument.rename f) := by
  match record with
  | .mk .star _ => rfl
  | .mk (.varying variance) (some ref) =>
    simp only [readArgument, translates]
    cases read ref <;> rfl
  | .mk (.varying _) none => rfl

theorem readWithin_rename (room : Nat) (record : TypeRecord) :
    (context.rename f).readWithin room record =
      (context.readWithin room record).map (Ty.rename f) := by
  induction room generalizing record with
  | zero => rfl
  | succ room ih =>
    obtain ⟨classifier, arguments, nullable⟩ := record
    have below (ref : TypeRef) : (context.lookupType ref >>= (context.rename f).readWithin room) =
        (context.lookupType ref >>= context.readWithin room).map (Ty.rename f) :=
      Except.bind_translate_right ih
    refine Except.bind_translate (readClassifier_rename classifier) fun head => ?_
    refine Except.bind_translate (mapM_translate_right (readArgument_rename below) arguments)
      fun others => ?_
    cases nullable <;> simp [pure, Except.pure, Except.map]

/-- A type that is read in a renamed context is the renamed type, or cannot be read for the same
reason. -/
theorem readType_rename (ref : TypeRef) :
    (context.rename f).readType ref = (context.readType ref).map (Ty.rename f) :=
  Except.bind_translate_right fun record => readWithin_rename _ record

end ScopeContext

end ClassSymbols
