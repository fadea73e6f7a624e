import ClassSymbols.Overrides.Relation

/-!
# Member signatures

The parts of a member that decide what it can override, as a subclass sees them: the types are those
after the substitution of the supertype that the member comes from, and references to the member's
own type parameters only keep their position.

## Main definitions

* `Signature` — the signatures.
* `Signature.of?` — the signature of a declaration.
* `Signature.SameShape` — whether two members would clash in one class.
* `Signature.check` — whether one member may override another.
-/

namespace ClassSymbols

/-- The two kinds of members that can override. -/
inductive MemberKind where
  | function
  | property
  deriving DecidableEq, Repr

/-- The parts of a member that decide overriding. `isVar` is false for functions. -/
structure Signature where
  kind : MemberKind
  name : String
  receiver : Option Ty
  typeParameterCount : Nat
  valueParameters : List Ty
  returnType : Ty
  isVar : Bool
  deriving DecidableEq

/-- What a check of an override finds: that it is valid, that it is invalid for a reason, or that
the two members have nothing to do with each other. -/
inductive OverrideCheck where
  | overridable
  | conflict (reason : String)
  | unrelated
  deriving DecidableEq, Repr

/-- The type in which references to the type parameters of `own` only keep their position. -/
def Ty.anonymize (own : DeclId) (type : Ty) : Ty :=
  type.mapParameters fun ref =>
    if ref.owner = own then
      some (.ofParameter .invalid ref.index ("#" ++ toString ref.index))
    else none

namespace Signature

/-- The signature of a declaration after a substitution; only functions and properties have one. -/
def of? (declaration : Declaration) (substitution : Substitution) : Option Signature :=
  let project (type : Ty) := (type.substitute substitution).anonymize declaration.id
  match declaration.kind with
  | .function data =>
    some {
      kind := .function
      name := declaration.name
      receiver := data.receiver.map project
      typeParameterCount := data.typeParameters.length
      valueParameters := data.valueParameters.map fun parameter => project parameter.type
      returnType := project data.returnType
      isVar := false }
  | .property data =>
    some {
      kind := .property
      name := declaration.name
      receiver := data.receiver.map project
      typeParameterCount := data.typeParameters.length
      valueParameters := []
      returnType := project data.type
      isVar := data.isVar }
  | _ => none

/-- Whether two members would clash in one class. Neither the result type nor mutability matters. -/
def SameShape (a b : Signature) : Prop :=
  a.kind = b.kind ∧ a.name = b.name ∧ a.receiver = b.receiver ∧
    a.typeParameterCount = b.typeParameterCount ∧ a.valueParameters = b.valueParameters

instance (a b : Signature) : Decidable (a.SameShape b) := by
  unfold SameShape; infer_instance

theorem SameShape.refl (a : Signature) : a.SameShape a := ⟨rfl, rfl, rfl, rfl, rfl⟩

theorem SameShape.symm {a b : Signature} (h : a.SameShape b) : b.SameShape a :=
  ⟨h.1.symm, h.2.1.symm, h.2.2.1.symm, h.2.2.2.1.symm, h.2.2.2.2.symm⟩

theorem SameShape.trans {a b c : Signature} (h : a.SameShape b) (g : b.SameShape c) :
    a.SameShape c :=
  ⟨h.1.trans g.1, h.2.1.trans g.2.1, h.2.2.1.trans g.2.2.1, h.2.2.2.1.trans g.2.2.2.1,
    h.2.2.2.2.trans g.2.2.2.2⟩

/-- Whether the result type of an override goes with that of the inherited member. That of a mutable
member also is the type that its setter takes, so it must stay the same. -/
def resultFits (declared inherited : Signature) (relation : TypeRelation) (store : Store) : Bool :=
  if inherited.isVar then declared.returnType == inherited.returnType
  else relation.holds store declared.returnType inherited.returnType

/-- Whether a declared member may override an inherited one. -/
def check (declared inherited : Signature) (relation : TypeRelation) (store : Store) :
    OverrideCheck :=
  if ¬declared.SameShape inherited then .unrelated
  else if inherited.isVar && !declared.isVar then
    .conflict ("`val " ++ declared.name ++ "` cannot override `var " ++ inherited.name ++ "`")
  else if declared.resultFits inherited relation store then .overridable
  else
    .conflict ("type `" ++ declared.returnType.display ++
      "` is not compatible with inherited type `" ++ inherited.returnType.display ++ "`")

end Signature

end ClassSymbols
