import ClassSymbols.Overrides.Synthesis
import ClassSymbols.Proofs.Loading.Renaming

/-!
# Renaming declarations in signatures

The signature of a renamed member is the renamed signature. Checks of overrides find the same in
renamed signatures, and the fake override of a renamed member is the renamed fake override.

## Main definitions

* `Signature.rename` — a signature in which the owners of type parameters are renamed.

## Main statements

* `Signature.of?_rename`, `Signature.check_rename` — signatures of renamed members, and checks of
  them.
* `Declaration.fakeOverride_rename` — fake overrides of renamed members.
-/

namespace ClassSymbols

variable {f : DeclId → DeclId}

/-! ## Signatures -/

def Signature.rename (f : DeclId → DeclId) (signature : Signature) : Signature :=
  { signature with
    receiver := signature.receiver.map (Ty.rename f)
    valueParameters := signature.valueParameters.map (Ty.rename f)
    returnType := signature.returnType.rename f }

section Injective

variable (injective : Function.Injective f)
include injective

theorem Ty.rename_anonymize (fixed : f .invalid = .invalid) (own : DeclId) (type : Ty) :
    (type.anonymize own).rename f = (type.rename f).anonymize (f own) := by
  refine rename_mapParameters (fun ref => ?_) type
  simp only [ParameterRef.rename, injective.eq_iff]
  split
  · simp [fixed]
  · rfl

theorem Signature.of?_rename (fixed : f .invalid = .invalid) {substitution renamed : Substitution}
    (h : substitution.Renames f renamed) (declaration : Declaration) :
    of? (declaration.rename f) renamed = (of? declaration substitution).map (rename f) := by
  have project (type : Ty) : ((type.substitute substitution).anonymize declaration.id).rename f =
      ((type.rename f).substitute renamed).anonymize (f declaration.id) := by
    rw [Ty.rename_anonymize injective fixed, h.rename_substitute]
  obtain ⟨id, name, container, annotations, origin, kind⟩ := declaration
  cases kind <;>
    simp [of?, Declaration.rename, DeclKind.rename, rename, ValueParameter.rename, project,
      Function.comp_def]

omit injective in
theorem Signature.of?_silent (declaration : Declaration) (substitution : Substitution) :
    of? declaration.silent substitution = of? declaration substitution := by
  obtain ⟨_, _, _, _, _, kind⟩ := declaration
  cases kind <;> rfl

theorem Option.map_rename_inj {a b : Option Ty} :
    a.map (Ty.rename f) = b.map (Ty.rename f) ↔ a = b :=
  (Option.map_injective fun _ _ => (Ty.rename_inj injective).1).eq_iff

theorem List.map_rename_inj {as bs : List Ty} :
    as.map (Ty.rename f) = bs.map (Ty.rename f) ↔ as = bs :=
  (List.map_injective_iff.2 fun _ _ => (Ty.rename_inj injective).1).eq_iff

theorem Signature.rename_inj {a b : Signature} : a.rename f = b.rename f ↔ a = b := by
  obtain ⟨_, _, _, _, _, _, _⟩ := a
  obtain ⟨_, _, _, _, _, _, _⟩ := b
  simp [rename, Ty.rename_inj injective, Option.map_rename_inj injective,
    List.map_rename_inj injective]

theorem Signature.sameShape_rename {a b : Signature} :
    (a.rename f).SameShape (b.rename f) ↔ a.SameShape b := by
  simp [SameShape, rename, Option.map_rename_inj injective, List.map_rename_inj injective]

/-- The check of renamed signatures finds the same, if the result types compare in the same way. -/
theorem Signature.check_rename {a b : Signature} {relation : TypeRelation} {s t : Store}
    (compares : relation.holds t (a.returnType.rename f) (b.returnType.rename f) =
      relation.holds s a.returnType b.returnType) :
    (a.rename f).check (b.rename f) relation t = a.check b relation s := by
  have fits : (a.rename f).resultFits (b.rename f) relation t = a.resultFits b relation s := by
    unfold resultFits
    have same : ((a.rename f).returnType == (b.rename f).returnType) =
        (a.returnType == b.returnType) := by
      rw [Bool.eq_iff_iff, beq_iff_eq, beq_iff_eq]
      exact Ty.rename_inj injective
    rw [same]
    exact congrArg (if b.isVar then _ else ·) compares
  simp only [check, fits, Signature.sameShape_rename injective]
  simp only [rename, Ty.display_rename]

end Injective

/-! ## Fake overrides -/

theorem TypeParameter.instantiate_rename {substitution renamed : Substitution}
    (h : substitution.Renames f renamed) (owner : DeclId) (parameter : TypeParameter) :
    (parameter.instantiate owner substitution).rename f =
      (parameter.rename f).instantiate (f owner) renamed := by
  simp [instantiate, rename, h.rename_substitute, Function.comp_def]

theorem ValueParameter.instantiate_rename {substitution renamed : Substitution}
    (h : substitution.Renames f renamed) (parameter : ValueParameter) :
    (parameter.instantiate substitution).rename f = (parameter.rename f).instantiate renamed := by
  simp [instantiate, rename, h.rename_substitute, Function.comp_def]

theorem Declaration.reown_rename (injective : Function.Injective f)
    {substitution renamed : Substitution} (h : substitution.Renames f renamed)
    (source : Declaration) (id : DeclId) :
    (source.reown id substitution).Renames f ((source.rename f).reown (f id) renamed) := by
  unfold reown
  rw [typeParameters_rename]
  induction source.typeParameters generalizing substitution renamed with
  | nil => exact h
  | cons parameter rest ih =>
    have first :=
      h.insert injective source.id parameter.index (.ofParameter id parameter.index parameter.name)
    rw [Ty.rename_ofParameter] at first
    exact ih first

theorem Declaration.fakeOverride_silent (source : Declaration) (id owner : DeclId)
    (substitution : Substitution) (overridden : List DeclId) :
    source.silent.fakeOverride id owner substitution overridden =
      source.fakeOverride id owner substitution overridden := by
  obtain ⟨_, _, _, _, _, kind⟩ := source
  cases kind <;> rfl

/-- The fake override of a renamed member. -/
theorem Declaration.fakeOverride_rename (injective : Function.Injective f)
    {substitution renamed : Substitution} (h : substitution.Renames f renamed)
    (source : Declaration) (callable : source.isCallable = true) (id owner : DeclId)
    (overridden : List DeclId) :
    (source.fakeOverride id owner substitution overridden).rename f =
      (source.rename f).fakeOverride (f id) (f owner) renamed (overridden.map f) := by
  have owned := source.reown_rename injective h id
  obtain ⟨_, _, _, _, _, kind⟩ := source
  cases kind with
  | function data =>
    simp [fakeOverride, rename, DeclKind.rename, DeclKind.instantiate, Function.comp_def,
      TypeParameter.instantiate_rename owned, ValueParameter.instantiate_rename owned,
      owned.rename_substitute]
  | property data =>
    simp [fakeOverride, rename, DeclKind.rename, DeclKind.instantiate, Function.comp_def,
      TypeParameter.instantiate_rename owned, owned.rename_substitute]
  | _ => cases callable

end ClassSymbols
