import ClassSymbols.Proofs.Resolution.Homes
import ClassSymbols.Proofs.Ty.Mentions

/-!
# What result types mention

A fake override has the types of a declared member, with the arguments of supertypes in them. So the
result types of all effective members of a class mention no classes but those that declared members
and supertypes above it mention, and the root.

## Main definitions

* `Declaration.resultType?` — the type that overriding compares.
* `Grasps` — whether class ids include all those that declared members and supertypes above a class
  mention.

## Main statements

* `Grasps.within_resultType` — the result types of effective members mention no others.
-/

namespace ClassSymbols

open Relation

def Declaration.resultType? (declaration : Declaration) : Option Ty :=
  match declaration.kind with
  | .function data => some data.returnType
  | .property data => some data.type
  | _ => none

theorem Declaration.isCallable_of_resultType? {declaration : Declaration} {type : Ty}
    (h : declaration.resultType? = some type) : declaration.isCallable = true := by
  unfold resultType? at h
  unfold isCallable
  split at h <;> simp_all

theorem Declaration.resultType?_fakeOverride (source : Declaration) (id owner : DeclId)
    (substitution : Substitution) (overridden : List DeclId) :
    (source.fakeOverride id owner substitution overridden).resultType? =
      source.resultType?.map (·.substitute (source.reown id substitution)) := by
  obtain ⟨_, _, _, _, _, kind⟩ := source
  cases kind <;> rfl

theorem Signature.returnType_eq {declaration : Declaration} {substitution : Substitution}
    {signature : Signature} (h : of? declaration substitution = some signature) :
    ∃ type, declaration.resultType? = some type ∧
      signature.returnType = (type.substitute substitution).anonymize declaration.id := by
  obtain ⟨id, name, container, annotations, origin, kind⟩ := declaration
  cases kind with
  | function data =>
    obtain rfl := Option.some.inj h
    exact ⟨data.returnType, rfl, rfl⟩
  | property data =>
    obtain rfl := Option.some.inj h
    exact ⟨data.type, rfl, rfl⟩
  | _ => cases h

theorem Substitution.Within.reown {K : ClassId → Prop} {substitution : Substitution}
    (h : substitution.Within K) (source : Declaration) (id : DeclId) :
    (source.reown id substitution).Within K := by
  unfold Declaration.reown
  induction source.typeParameters generalizing substitution with
  | nil => exact h
  | cons parameter rest ih => exact ih (h.insert_ofParameter _ _ _ _)

/-- Whether class ids include the root and those that the declared members of a class and the
supertypes with members mention, and those that the ones of the classes mention whose results its
result was computed from. -/
structure Grasps (log : List Computation) (w : Workspace) (K : ClassId → Prop) (id : DeclId) :
    Prop where
  any : K .any
  supertypes : ∀ {c}, c ∈ log → ReflTransGen (Offers log) id c.owner →
    ∀ m ∈ c.members, m.supertype.Within K
  results : ∀ {c}, c ∈ log → ReflTransGen (Offers log) id c.owner →
    ∀ {x}, x ∈ c.declared → ∀ {declaration type},
    w.store.get? x = some declaration → declaration.resultType? = some type → type.Within K

namespace Grasps

variable {loads : Prop} {origin w : Workspace} {log : List Computation} {c : Computation}
  {id : DeclId} {K : ClassId → Prop} (h : Grasps log w K id)
include h

/-- The substitution of a supertype brings nothing else. -/
theorem within_substitution (hc : c ∈ log) (above : ReflTransGen (Offers log) id c.owner)
    {member : Inherited} {x : DeclId}
    (seen : c.before.store.inheritedAs? c.members x = some member) :
    member.substitution.Within K := by
  obtain ⟨m, hm, e⟩ := exists_of_substitutionFor? (Store.inheritedAs?_eq_some_iff.1 seen).2.1
  rw [e]
  exact .ofSupertype (h.supertypes hc above m hm) h.any m.owner

variable (fresh : origin.Fresh) (history : History loads origin log w)
include fresh history

/-- The result types of fake overrides mention nothing else. -/
theorem within_of_pending {before : List Computation} {v : Workspace}
    (history' : History loads origin before v) (inside : before ⊆ log) :
    ∀ c ∈ before, ReflTransGen (Offers log) id c.owner →
      ∀ fake ∈ c.synthesis.pending, ∀ type, fake.resultType? = some type → type.Within K := by
  have facts := history.facts fresh
  induction history' with
  | start => simp
  | read _ _ ih => exact ih inside
  | load _ _ _ ih => exact ih inside
  | @compute before c earlier follows ih =>
    rintro other (_ | ⟨_, ho⟩) above fake hf type ht
    · have hc := inside List.mem_cons_self
      have inside := List.Subset.trans (List.subset_cons_self c before) inside
      have facts' := earlier.facts fresh
      obtain ⟨declarations, inherited, reads, result, -⟩ := follows.exists_run facts'.sound
      rw [result] at hf
      obtain ⟨next, name, bucket, settles, -, rfl⟩ := SynthesisInput.mem_pending_run_iff.1 hf
      have source := settles.mem_inherited ((c.input declarations).specificOf_mem bucket)
      have seen := reads.mem_inherited_iff.1 source
      rw [SynthesisInput.fakeFor, Declaration.resultType?_fakeOverride] at ht
      obtain ⟨sourceType, hs, rfl⟩ := Option.map_eq_some_iff.1 ht
      refine Ty.Within.substitute ?_ ((h.within_substitution hc above seen).reown _ _)
      -- The source is declared in an ancestor, or was made for one before.
      obtain ⟨m, hm, listed⟩ := reads.listed source
      obtain ⟨c', hc', owner, offered⟩ := follows.offered m hm
      obtain ⟨g, hg, has, path⟩ := earlier.exists_home fresh c' hc' _ (offered ▸ listed)
      have offers : Offers log c.owner c'.owner := ⟨c, hc, rfl, m, hm, owner.symm⟩
      have above' :=
        above.trans (.head offers (ReflTransGen.mono (fun _ _ => Offers.mono inside) _ _ path))
      have stored := reads.get?_eq source
      rcases has with hd | ⟨fake', hf', e⟩
      · have plain := Declaration.class?_eq_none_of_isCallable (reads.isCallable source)
        have later := (facts.finished c hc).1.trans (facts.finished c hc).2
        exact h.results (inside hg) above' hd (later.store.get?_of_class?_eq_none stored plain) hs
      · have known := facts'.get?_of_mem_pending hg hf'
        rw [e] at known
        obtain rfl := Option.some.inj (known.symm.trans stored)
        exact ih inside g hg above' _ hf' sourceType hs
    · exact ih (List.Subset.trans (List.subset_cons_self _ _) inside) other ho above fake hf type ht

/-- The result types of effective members mention nothing else. -/
theorem within_resultType (hc : c ∈ log) (above : ReflTransGen (Offers log) id c.owner) {x : DeclId}
    (has : c.Has x) {declaration : Declaration} (stored : w.store.get? x = some declaration)
    {type : Ty} (ht : declaration.resultType? = some type) : type.Within K := by
  rcases has with hd | ⟨fake, hf, rfl⟩
  · exact h.results hc above hd stored ht
  · obtain rfl :=
      Option.some.inj (((history.facts fresh).get?_of_mem_pending hc hf).symm.trans stored)
    exact h.within_of_pending fresh history history (List.Subset.refl _) c hc above fake hf type ht

end Grasps

end ClassSymbols
