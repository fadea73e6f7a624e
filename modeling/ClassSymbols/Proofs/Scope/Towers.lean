import ClassSymbols.Scope.Tower
import Mathlib.Data.List.Chain
import Mathlib.Data.List.Induction

/-!
# Chains that make a tower

A tower stands on a module and a package fragment, and goes up through declarations each of which is
contained in the one below. The context at its top is that of the fragment, with one layer for each
of them: the innermost table wins, and parameters are looked up from the top down.

## Main definitions

* `Tower.Stacked` — the chains that make a tower.
* `ScopeContext.inside`, `ScopeContext.insideAll` — one layer of a context, and all layers of it.
* `Tower.Describes` — what a tower knows of its chain.

## Main statements

* `Tower.build_of_stacked` — the tower of a chain, as a fold over its layers.
* `Tower.build_cases` — a chain makes a tower that describes it, or is malformed.
-/

namespace ClassSymbols

/-! ## Parameters in scope -/

namespace ParameterScope

variable (scope : ParameterScope)

@[simp] theorem flatten_push (parameters : List TypeParameter) :
    (scope.push parameters).frames.flatten = parameters ++ scope.frames.flatten := by
  unfold push
  split
  · next none => simp [none]
  · rfl

/-- Frames only matter for the depth: a parameter is the first match in all of them. -/
theorem map_fst_findFrom (id : UInt32) (passed : Nat) (frames : List (List TypeParameter)) :
    (findFrom id passed frames).map Prod.fst = frames.flatten.find? (·.id == id) := by
  induction frames generalizing passed with
  | nil => rfl
  | cons frame rest ih =>
    rw [List.flatten_cons, List.find?_append, findFrom]
    cases frame.find? (·.id == id) with
    | none => exact ih (passed + 1)
    | some parameter => rfl

theorem find?_eq (id : UInt32) : scope.find? id = scope.frames.flatten.find? (·.id == id) := by
  rw [find?, findWithDepth?, Option.map_map, ← map_fst_findFrom id 0]
  rfl

theorem findByName?_eq (name : String) :
    scope.findByName? name = scope.frames.flatten.find? (·.name == name) := List.find?_flatten.symm

end ParameterScope

/-! ## Layers -/

/-- Whether a declaration may be contained in a package fragment or in a declaration of one. -/
def Declaration.isInner (declaration : Declaration) : Bool :=
  !declaration.isModule && declaration.package?.isNone

theorem Declaration.ownTypes?_of_isInner {declaration : Declaration}
    (inner : declaration.isInner = true) :
    declaration.ownTypes? = declaration.class?.map (·.types) := by
  obtain ⟨id, name, container, annotations, origin, kind⟩ := declaration
  cases kind <;> first | rfl | cases inner

namespace ScopeContext

/-- The context inside a declaration, in the context around it. -/
def inside (context : ScopeContext) (declaration : Declaration) : ScopeContext :=
  context.enter declaration.id declaration.typeParameters (declaration.class?.map (·.types))

/-- The context inside the last of some declarations, each of which is inside the one before. -/
def insideAll (context : ScopeContext) (enclosing : List Declaration) : ScopeContext :=
  enclosing.foldl inside context

variable (context : ScopeContext) (enclosing : List Declaration)

@[simp] theorem insideAll_concat (declaration : Declaration) :
    context.insideAll (enclosing ++ [declaration]) =
      (context.insideAll enclosing).inside declaration :=
  List.foldl_concat ..

theorem fragment_insideAll : (context.insideAll enclosing).fragment = context.fragment := by
  induction enclosing using List.reverseRecOn with
  | nil => rfl
  | append_singleton before declaration ih => rw [insideAll_concat, ← ih]; rfl

theorem names_insideAll : (context.insideAll enclosing).names = context.names := by
  induction enclosing using List.reverseRecOn with
  | nil => rfl
  | append_singleton before declaration ih => rw [insideAll_concat, ← ih]; rfl

theorem declarations_insideAll :
    (context.insideAll enclosing).declarations = context.declarations ++ enclosing.map (·.id) := by
  induction enclosing using List.reverseRecOn with
  | nil => simp [insideAll]
  | append_singleton before declaration ih => simp [inside, enter, ih]

theorem flatten_parameters_insideAll : (context.insideAll enclosing).parameters.frames.flatten =
    enclosing.reverse.flatMap (·.typeParameters) ++ context.parameters.frames.flatten := by
  induction enclosing using List.reverseRecOn with
  | nil => rfl
  | append_singleton before declaration ih => simp [inside, enter, ih]

/-- The innermost class brings the type table. -/
theorem types_insideAll (inner : ∀ declaration ∈ enclosing, declaration.isInner = true) :
    (context.insideAll enclosing).types =
      (enclosing.reverse.findSome? (·.ownTypes?)).getD context.types := by
  induction enclosing using List.reverseRecOn with
  | nil => rfl
  | append_singleton before declaration ih =>
    have ih := ih fun other ho => inner other (List.mem_append_left _ ho)
    have own := Declaration.ownTypes?_of_isInner (inner declaration (by simp))
    rw [insideAll_concat, List.reverse_concat, List.findSome?_cons, own, inside, enter, ih]
    cases declaration.class? <;> rfl

end ScopeContext

namespace Tower

/-! ## Acceptance -/

theorem getLast?_chain (tower : Tower) : tower.chain.getLast? = some tower.parent := by
  simp [chain, parent, List.getLast?_cons, List.getLastD_eq_getLast?]

def Holds (outer inner : Declaration) : Prop := inner.container = some outer.id

instance : DecidableRel Holds :=
  fun outer inner => inferInstanceAs (Decidable (inner.container = some outer.id))

/-- The chains that make a tower: a module, a package fragment, and then declarations that are
neither, each of them contained in the one before, as the fragment is in the module. -/
def Stacked : List Declaration → Prop
  | module :: fragment :: enclosing =>
    module.isModule = true ∧ fragment.package?.isSome = true ∧
      List.IsChain Holds (module :: fragment :: enclosing) ∧
      ∀ declaration ∈ enclosing, declaration.isInner = true
  | _ => False

/-- A chain may go on with a declaration that is contained in the last one. -/
theorem stacked_concat_iff {module fragment declaration : Declaration}
    {enclosing : List Declaration} :
    Stacked (module :: fragment :: (enclosing ++ [declaration])) ↔
      Stacked (module :: fragment :: enclosing) ∧
      Holds (enclosing.getLastD fragment) declaration ∧ declaration.isInner = true := by
  have linked : List.IsChain Holds (module :: fragment :: (enclosing ++ [declaration])) ↔
      List.IsChain Holds (module :: fragment :: enclosing) ∧
      Holds (enclosing.getLastD fragment) declaration := by
    rw [← List.cons_append, ← List.cons_append, List.isChain_append]
    simp [List.getLast?_cons, List.getLastD_eq_getLast?]
  simp only [Stacked, linked, List.forall_mem_append, List.forall_mem_singleton]
  tauto

theorem Stacked.concat {before : List Declaration} {last declaration : Declaration}
    (h : Stacked (before ++ [last])) (holds : Holds last declaration)
    (inner : declaration.isInner = true) :
    Stacked (before ++ [last] ++ [declaration]) := by
  match before with
  | [] => cases h
  | [module] => exact stacked_concat_iff.2 ⟨h, holds, inner⟩
  | module :: fragment :: enclosing =>
    refine stacked_concat_iff.2
      ⟨h, (?_ : Holds ((enclosing ++ [last]).getLastD fragment) declaration), inner⟩
    rwa [List.getLastD_concat]

theorem checkLinks_cases (chain : List Declaration) :
    List.IsChain Holds chain ∧ checkLinks chain = .ok () ∨
      ¬List.IsChain Holds chain ∧ ∃ reason, checkLinks chain = .error (.malformedChain reason) := by
  induction chain with
  | nil => exact .inl ⟨.nil, rfl⟩
  | cons outer rest ih =>
    cases rest with
    | nil => exact .inl ⟨.singleton outer, rfl⟩
    | cons inner rest =>
      rw [List.isChain_cons_cons, checkLinks]
      by_cases holds : inner.container = some outer.id
      · rw [if_pos holds]
        simpa [Holds, holds] using ih
      · rw [if_neg holds]
        exact .inr ⟨fun linked => holds linked.1, _, rfl⟩

theorem layer_cases (context : ScopeContext) (declaration : Declaration) :
    declaration.isInner = true ∧ layer context declaration = .ok (context.inside declaration) ∨
      declaration.isInner = false ∧
        ∃ reason, layer context declaration = .error (.malformedChain reason) := by
  obtain ⟨id, name, container, annotations, origin, kind⟩ := declaration
  cases kind with
  | module => exact .inr ⟨rfl, _, rfl⟩
  | package data => exact .inr ⟨rfl, _, rfl⟩
  | _ => exact .inl ⟨rfl, rfl⟩

theorem foldlM_layer_cases (context : ScopeContext) (enclosing : List Declaration) :
    (∀ declaration ∈ enclosing, declaration.isInner = true) ∧
        enclosing.foldlM layer context = .ok (context.insideAll enclosing) ∨
      ¬(∀ declaration ∈ enclosing, declaration.isInner = true) ∧
        ∃ reason, enclosing.foldlM layer context = .error (.malformedChain reason) := by
  induction enclosing generalizing context with
  | nil => exact .inl ⟨by simp, rfl⟩
  | cons declaration rest ih =>
    rw [List.foldlM_cons]
    rcases layer_cases context declaration with ⟨inner, layered⟩ | ⟨outer, reason, refused⟩
    · rw [layered]
      simpa [inner, bind, Except.bind, ScopeContext.insideAll] using ih (context.inside declaration)
    · rw [refused]
      refine .inr ⟨fun inner => ?_, reason, rfl⟩
      simp [outer] at inner

/-- The chain of a tower gives it back, layer by layer. -/
theorem build_of_stacked {module fragment : Declaration} {data : PackageData}
    {enclosing : List Declaration} (package : fragment.kind = .package data)
    (stacked : Stacked (module :: fragment :: enclosing)) :
    build (module :: fragment :: enclosing) = .ok {
      module, fragment, enclosing
      context :=
  (ScopeContext.ofFragment fragment.id data.names data.types).insideAll enclosing } := by
  obtain ⟨first, -, linked, inner⟩ := stacked
  have links : checkLinks (module :: fragment :: enclosing) = .ok () := by
    have cases := checkLinks_cases (module :: fragment :: enclosing)
    tauto
  have layers : enclosing.foldlM layer (.ofFragment fragment.id data.names data.types) =
      .ok ((ScopeContext.ofFragment fragment.id data.names data.types).insideAll enclosing) := by
    have cases := foldlM_layer_cases (.ofFragment fragment.id data.names data.types) enclosing
    tauto
  simp [build, first, package, links, layers, bind, Except.bind, pure, Except.pure]

/-- Any other chain is malformed. -/
theorem build_of_not_stacked {chain : List Declaration} (loose : ¬Stacked chain) :
    ∃ reason, build chain = .error (.malformedChain reason) := by
  match chain with
  | [] => exact ⟨_, rfl⟩
  | module :: rest =>
    cases first : module.isModule with
    | false => exact ⟨_, by simp [build, first, throw, throwThe, MonadExceptOf.throw]; rfl⟩
    | true =>
      match rest with
      | [] => exact ⟨_, by simp [build, first, throw, throwThe, MonadExceptOf.throw]; rfl⟩
      | fragment :: enclosing =>
        cases package : fragment.kind with
        | package data =>
          have second : fragment.package?.isSome = true := by simp [Declaration.package?, package]
          rcases checkLinks_cases (module :: fragment :: enclosing) with ⟨linked, links⟩ |
            ⟨-, reason, links⟩
          · rcases foldlM_layer_cases (.ofFragment fragment.id data.names data.types) enclosing with
              ⟨inner, -⟩ | ⟨-, reason, layers⟩
            · exact absurd ⟨first, second, linked, inner⟩ loose
            · exact ⟨reason, by simp [build, first, package, links, layers, bind, Except.bind]⟩
          · exact ⟨reason, by simp [build, first, package, links, bind, Except.bind]⟩
        | _ => exact ⟨_, by simp [build, first, package, throw, throwThe, MonadExceptOf.throw]; rfl⟩

theorem stacked_of_build {chain : List Declaration} {tower : Tower}
    (built : build chain = .ok tower) : Stacked chain := by
  by_contra loose
  obtain ⟨reason, refused⟩ := build_of_not_stacked loose
  cases built.symm.trans refused

/-- A tower consists of the declarations of its chain and the context that they make up layer by
layer. -/
theorem exists_of_build {chain : List Declaration} {tower : Tower}
    (built : build chain = .ok tower) :
    ∃ data, tower.fragment.kind = .package data ∧
      chain = tower.module :: tower.fragment :: tower.enclosing ∧
      tower.context =
        (ScopeContext.ofFragment tower.fragment.id data.names data.types).insideAll
          tower.enclosing := by
  match chain, stacked_of_build built with
  | module :: fragment :: enclosing, stacked =>
    cases package : fragment.kind with
    | package data =>
      obtain rfl := Except.ok.inj (built.symm.trans (build_of_stacked package stacked))
      exact ⟨data, package, rfl, rfl⟩
    | _ => simp [Stacked, Declaration.package?, package] at stacked

/-! ## Descriptions -/

/-- What a tower knows of its chain: the innermost type table, the names of the fragment, the
declarations above the fragment, and their parameters, those of the innermost declaration first. If
the declarations are stored, its path is that of its context. -/
structure Describes (tower : Tower) (chain : List Declaration) : Prop where
  chain_eq : tower.chain = chain
  types : chain.reverse.findSome? (·.ownTypes?) = some tower.context.types
  names : ∃ fragment data, chain[1]? = some fragment ∧ fragment.package? = some data ∧
    tower.context.fragment = fragment.id ∧ tower.context.names = data.names
  declarations : tower.context.declarations = (chain.drop 2).map (·.id)
  find? : ∀ id, tower.context.parameters.find? id =
    ((chain.drop 2).reverse.flatMap (·.typeParameters)).find? (·.id == id)
  findByName? : ∀ name, tower.context.parameters.findByName? name =
    ((chain.drop 2).reverse.flatMap (·.typeParameters)).find? (·.name == name)
  path : ∀ store : Store, (∀ declaration ∈ chain, store.get? declaration.id = some declaration) →
    tower.context.path store = tower.path

theorem exists_describes {chain : List Declaration} (stacked : Stacked chain) :
    ∃ tower, build chain = .ok tower ∧ tower.Describes chain := by
  match chain, stacked with
  | module :: fragment :: enclosing, stacked =>
    have ⟨first, second, _, inner⟩ := stacked
    obtain ⟨data, package⟩ := Option.isSome_iff_exists.1 second
    have kind : fragment.kind = .package data := by
      unfold Declaration.package? at package
      split at package <;> simp_all
    refine ⟨_, build_of_stacked kind stacked, rfl, ?_, ⟨fragment, data, rfl, package, ?_, ?_⟩, ?_,
      ?_, ?_, ?_⟩
    · have lowest : module.ownTypes? = none := by
        unfold Declaration.isModule at first
        split at first <;> simp_all [Declaration.ownTypes?]
      have outermost : fragment.ownTypes? = some data.types := by simp [Declaration.ownTypes?, kind]
      simp only [List.reverse_cons, List.findSome?_append, ScopeContext.types_insideAll _ _ inner,
        ScopeContext.ofFragment]
      cases enclosing.reverse.findSome? (·.ownTypes?) <;> simp [lowest, outermost]
    · exact ScopeContext.fragment_insideAll ..
    · exact ScopeContext.names_insideAll ..
    · exact ScopeContext.declarations_insideAll ..
    · intro id
      simp [ParameterScope.find?_eq, ScopeContext.flatten_parameters_insideAll,
        ScopeContext.ofFragment, ParameterScope.empty]
    · intro name
      simp [ParameterScope.findByName?_eq, ScopeContext.flatten_parameters_insideAll,
        ScopeContext.ofFragment, ParameterScope.empty]
    · intro store stored
      have ids : (fragment :: enclosing).map (·.id) = fragment.id :: ([] ++ enclosing.map (·.id)) :=
        rfl
      rw [ScopeContext.path, path, ScopeContext.fragment_insideAll,
        ScopeContext.declarations_insideAll]
      refine congrArg Text.dotted (Eq.trans (congrArg _ ids.symm) ?_)
      rw [List.map_map]
      refine List.map_congr_left fun declaration hd => ?_
      simp [stored declaration (List.mem_cons_of_mem _ hd)]

theorem describes_of_build {chain : List Declaration} {tower : Tower}
    (built : build chain = .ok tower) :
    tower.Describes chain := by
  obtain ⟨tower', built', describes⟩ := exists_describes (stacked_of_build built)
  exact Except.ok.inj (built'.symm.trans built) ▸ describes

/-- A chain makes a tower iff it starts with a module and a package fragment, goes on with
declarations that are neither, and each is contained in the one before. The tower describes the
chain. Any other chain is malformed. -/
theorem build_cases (chain : List Declaration) :
    (Stacked chain ∧ ∃ tower, build chain = .ok tower ∧ tower.Describes chain) ∨
      (¬Stacked chain ∧ ∃ reason, build chain = .error (.malformedChain reason)) := by
  by_cases stacked : Stacked chain
  · exact .inl ⟨stacked, exists_describes stacked⟩
  · exact .inr ⟨stacked, build_of_not_stacked stacked⟩

end Tower

end ClassSymbols
