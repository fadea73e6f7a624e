import ClassSymbols.Proofs.Scope.Towers
import ClassSymbols.Proofs.Store.Growth
import ClassSymbols.Proofs.Store.Ownership

/-!
# Places of declarations

Modules are contained in nothing, package fragments in modules, and every other declaration in a
package fragment or in a declaration of one. The containers around a declaration determine the
context inside it, and a class keeps that context for its members.

## Main definitions

* `Store.Inside` — the context inside a stored declaration.
* `Declaration.Within` — whether a declaration belongs into a context.
* `Store.Placed` — whether a declaration is contained in a stored one, and belongs into the context
  inside it.

## Main statements

* `Store.Chain.mono`, `Store.Inside.mono`, `Store.Placed.mono` — chains and places stay as they are.
* `Store.Inside.unique` — there is at most one context inside a declaration.
* `Tower.inside_of_build`, `Store.Inside.exists_tower` — it is that of the tower of the
  declaration's chain.
-/

namespace ClassSymbols

/-! ## Notes of what has been read -/

namespace Declaration

variable (declaration : Declaration)

@[simp] theorem isModule_unread : declaration.unread.isModule = declaration.isModule := by
  obtain ⟨id, name, container, annotations, origin, kind⟩ := declaration
  cases kind <;> rfl

@[simp] theorem package?_unread : declaration.unread.package? = declaration.package? := by
  obtain ⟨id, name, container, annotations, origin, kind⟩ := declaration
  cases kind <;> rfl

@[simp] theorem isInner_unread : declaration.unread.isInner = declaration.isInner := by
  simp [isInner]

@[simp] theorem typeParameters_unread :
    declaration.unread.typeParameters = declaration.typeParameters := by
  obtain ⟨id, name, container, annotations, origin, kind⟩ := declaration
  cases kind <;> rfl

@[simp] theorem inside_unread (context : ScopeContext) :
    context.inside declaration.unread = context.inside declaration := by
  obtain ⟨id, name, container, annotations, origin, kind⟩ := declaration
  cases kind <;> rfl

theorem isInner_of_class? {declaration : Declaration} {data : ClassData}
    (h : declaration.class? = some data) :
    declaration.isInner = true := by
  obtain ⟨id, name, container, annotations, origin, kind⟩ := declaration
  cases kind <;> first | rfl | cases h

theorem isInner_of_isCallable {declaration : Declaration} (h : declaration.isCallable = true) :
    declaration.isInner = true := by
  obtain ⟨id, name, container, annotations, origin, kind⟩ := declaration
  cases kind <;> first | rfl | cases h

theorem kind_eq_of_package? {declaration : Declaration} {data : PackageData}
    (h : declaration.package? = some data) : declaration.kind = .package data := by
  unfold package? at h
  split at h
  · next found => rw [found, Option.some.inj h]
  · cases h

end Declaration

namespace Store

variable {s t : Store}

/-! ## Chains -/

/-- A chain stays, up to notes of what has been read. -/
theorem Chain.mono (wider : s.Extends t) {id : DeclId} {chain : List Declaration}
    (h : s.Chain id chain) :
    ∃ chain', t.Chain id chain' ∧ chain'.map Declaration.unread = chain.map Declaration.unread := by
  induction h with
  | root stored outermost module =>
    obtain ⟨declaration', stored', same⟩ := wider.kept stored
    refine ⟨[declaration'], .root stored' ?_ ?_, by simp [same]⟩
    · exact (Declaration.congr_unread Declaration.container_unread same).trans outermost
    · exact (Declaration.congr_unread Declaration.isModule_unread same).trans module
  | inner stored inside _ ih =>
    obtain ⟨declaration', stored', same⟩ := wider.kept stored
    obtain ⟨above', chained, unread⟩ := ih
    refine ⟨above' ++ [declaration'], .inner stored' ?_ chained, by simp [same, unread]⟩
    exact (Declaration.congr_unread Declaration.container_unread same).trans inside

/-! ## Contexts inside declarations -/

/-- Whether a context is the one inside the declaration under an id: that of a package fragment, or
one layer more than the context inside the declaration's container. -/
inductive Inside (store : Store) : DeclId → ScopeContext → Prop
  | fragment {id : DeclId} {declaration : Declaration} {data : PackageData} :
    store.get? id = some declaration →
      declaration.package? = some data → Inside store id (.ofFragment id data.names data.types)
  | inner {id container : DeclId} {declaration : Declaration} {context : ScopeContext} :
      store.get? id = some declaration → declaration.isInner = true →
      declaration.container = some container →
      Inside store container context → Inside store id (context.inside declaration)

theorem Inside.mono (kept : ∀ {id declaration}, s.get? id = some declaration →
      ∃ declaration', t.get? id = some declaration' ∧ declaration'.unread = declaration.unread)
    {id : DeclId} {context : ScopeContext} (h : s.Inside id context) : t.Inside id context := by
  induction h with
  | fragment stored package =>
    obtain ⟨d', stored', same⟩ := kept stored
    exact .fragment stored'
      ((Declaration.congr_unread Declaration.package?_unread same).trans package)
  | @inner id container declaration context stored inner inside _ ih =>
    obtain ⟨d', stored', same⟩ := kept stored
    rw [← Declaration.congr_unread (Declaration.inside_unread · context) same]
    refine .inner stored' ?_ ?_ ih
    · exact (Declaration.congr_unread Declaration.isInner_unread same).trans inner
    · exact (Declaration.congr_unread Declaration.container_unread same).trans inside

/-- There is at most one context inside a declaration. -/
theorem Inside.unique {id : DeclId} {context context' : ScopeContext} (h : s.Inside id context)
    (h' : s.Inside id context') : context = context' := by
  induction h generalizing context' with
  | fragment stored package =>
    cases h' with
    | fragment stored' package' =>
      obtain rfl := Option.some.inj (stored.symm.trans stored')
      rw [Option.some.inj (package.symm.trans package')]
    | inner stored' inner _ _ =>
      obtain rfl := Option.some.inj (stored.symm.trans stored')
      simp [Declaration.isInner, package] at inner
  | inner stored inner inside _ ih =>
    cases h' with
    | fragment stored' package =>
      obtain rfl := Option.some.inj (stored.symm.trans stored')
      simp [Declaration.isInner, package] at inner
    | inner stored' _ inside' outer =>
      obtain rfl := Option.some.inj (stored.symm.trans stored')
      obtain rfl := Option.some.inj (inside.symm.trans inside')
      rw [ih outer]

end Store

@[simp] theorem ScopeContext.owner_inside (context : ScopeContext) (declaration : Declaration) :
    (context.inside declaration).owner = declaration.id := by
  simp [inside, enter, owner]

theorem Store.Inside.owner_eq {s : Store}
    (keyed : ∀ {id declaration}, s.get? id = some declaration → declaration.id = id) {id : DeclId}
    {context : ScopeContext} (h : s.Inside id context) : context.owner = id := by
  cases h with
  | fragment => rfl
  | inner stored _ _ _ => rw [ScopeContext.owner_inside, keyed stored]

/-! ## Places -/

/-- Whether a declaration belongs into a context: it is contained in the innermost declaration there
and, if it is a class, keeps the context inside it for its members. -/
structure Declaration.Within (declaration : Declaration) (context : ScopeContext) : Prop where
  container : declaration.container = some context.owner
  inner : declaration.isInner = true
  deferred : ∀ data, declaration.class? = some data →
    ∃ reading, data.members = .deferred reading ∧ reading.context = context.inside declaration

theorem Declaration.Within.congr {d d' : Declaration} (same : d'.unread = d.unread)
    {context : ScopeContext} (h : d.Within context) : d'.Within context where
  container := (Declaration.congr_unread Declaration.container_unread same).trans h.container
  inner := (Declaration.congr_unread Declaration.isInner_unread same).trans h.inner
  deferred data' hc' := by
    obtain ⟨data, hc, e⟩ := Declaration.exists_class?_of_unread_eq same.symm hc'
    obtain ⟨reading, hr, keeps⟩ := h.deferred data hc
    have members : data'.members.unread = data.members.unread := (congrArg ClassData.members e).symm
    obtain ⟨loaded, hr'⟩ := ClassMembers.exists_deferred_of_unread_eq (hr ▸ members)
    exact ⟨_, hr',
      keeps.trans (Declaration.congr_unread (Declaration.inside_unread · context) same.symm)⟩

namespace Store

/-- Whether a declaration is a module, a package fragment of a stored module, or belongs into the
context inside a stored declaration. -/
inductive Placed (store : Store) (declaration : Declaration) : Prop where
  | module (module : declaration.isModule = true) (outermost : declaration.container = none)
  | fragment (module : DeclId) (outer : Declaration) (package : declaration.package?.isSome = true)
      (container : declaration.container = some module) (stored : store.get? module = some outer)
      (outermost : outer.isModule = true)
  | inner (context : ScopeContext) (inside : store.Inside context.owner context)
      (within : declaration.Within context)

variable {s t : Store} {d d' : Declaration}

/-- Modules are the declarations that are contained in nothing. -/
theorem Placed.isModule_iff (h : s.Placed d) : d.isModule = true ↔ d.container = none := by
  cases h with
  | module module outermost => simp [module, outermost]
  | fragment module outer package container stored outermost =>
    obtain ⟨data, package⟩ := Option.isSome_iff_exists.1 package
    simp [container, Declaration.isModule, Declaration.kind_eq_of_package? package]
  | inner context inside within =>
    have inner := within.inner
    simp only [Declaration.isInner, Bool.and_eq_true, Bool.not_eq_true'] at inner
    simp [within.container, inner.1]

/-- A declaration that is neither a module nor a package fragment belongs into a context. -/
theorem Placed.exists_within (h : s.Placed d) (inner : d.isInner = true) :
    ∃ context : ScopeContext, s.Inside context.owner context ∧ d.Within context := by
  cases h with
  | module module _ => simp [Declaration.isInner, module] at inner
  | fragment _ _ package _ _ _ =>
    obtain ⟨data, package⟩ := Option.isSome_iff_exists.1 package
    simp [Declaration.isInner, package] at inner
  | inner context inside within => exact ⟨context, inside, within⟩

theorem Placed.mono (kept : ∀ {id declaration}, s.get? id = some declaration →
      ∃ declaration', t.get? id = some declaration' ∧ declaration'.unread = declaration.unread)
    (same : d'.unread = d.unread) (h : s.Placed d) : t.Placed d' := by
  cases h with
  | module module outermost =>
    refine .module ?_ ?_
    · exact (Declaration.congr_unread Declaration.isModule_unread same).trans module
    · exact (Declaration.congr_unread Declaration.container_unread same).trans outermost
  | fragment module outer package container stored outermost =>
    obtain ⟨outer', stored', same'⟩ := kept stored
    refine .fragment module outer' ?_ ?_ stored' ?_
    · rwa [Declaration.congr_unread Declaration.package?_unread same]
    · exact (Declaration.congr_unread Declaration.container_unread same).trans container
    · exact (Declaration.congr_unread Declaration.isModule_unread same').trans outermost
  | inner context inside within => exact .inner context (inside.mono kept) (within.congr same)

end Store

/-! ## Towers -/

section Towers

variable {s : Store}

namespace Tower

variable {module fragment : Declaration} {enclosing : List Declaration}

/-- The layers of stored declarations make up the context inside the last one. -/
theorem inside_of_stacked {data : PackageData} (package : fragment.package? = some data)
    (stored : ∀ declaration ∈ module :: fragment :: enclosing,
      s.get? declaration.id = some declaration)
    (stacked : Stacked (module :: fragment :: enclosing)) :
    s.Inside (enclosing.getLastD fragment).id
      ((ScopeContext.ofFragment fragment.id data.names data.types).insideAll enclosing) := by
  induction enclosing using List.reverseRecOn with
  | nil => exact .fragment (stored fragment (by simp)) package
  | append_singleton before declaration ih =>
    obtain ⟨stacked, holds, inner⟩ := stacked_concat_iff.1 stacked
    have outer := ih (fun other ho => stored other (by simp at ho ⊢; tauto)) stacked
    rw [ScopeContext.insideAll_concat, List.getLastD_concat]
    exact .inner (stored declaration (by simp)) inner holds outer

/-- The tower of stored declarations has the context inside the last one. -/
theorem inside_of_build {chain : List Declaration} {tower : Tower}
    (stored : ∀ declaration ∈ chain, s.get? declaration.id = some declaration)
    (built : build chain = .ok tower) :
    s.Inside tower.parent.id tower.context := by
  match chain, stacked_of_build built with
  | module :: fragment :: enclosing, stacked =>
    obtain ⟨data, package⟩ := Option.isSome_iff_exists.1 stacked.2.1
    have inside := inside_of_stacked package stored stacked
    have found := build_of_stacked (Declaration.kind_eq_of_package? package) stacked
    obtain rfl := Except.ok.inj (built.symm.trans found)
    exact inside

end Tower

/-- The tower of the chain of a declaration has the context inside the declaration. -/
theorem Store.Chain.inside_of_build {id : DeclId} {chain : List Declaration} {tower : Tower}
    (keyed : ∀ {id declaration}, s.get? id = some declaration → declaration.id = id)
    (leads : s.Chain id chain) (built : Tower.build chain = .ok tower) :
    s.Inside id tower.context := by
  have inside := Tower.inside_of_build (leads.stored keyed) built
  obtain ⟨_, -, same, -⟩ := Tower.exists_of_build built
  obtain ⟨above, declaration, rfl, stored⟩ := leads.exists_concat
  have last := tower.getLast?_chain
  rw [Tower.chain, ← same, List.getLast?_concat] at last
  obtain rfl := Option.some.inj last
  rwa [keyed stored] at inside

namespace Store.Inside

variable {id : DeclId} {context : ScopeContext} {chain : List Declaration} (wf : s.WellFormed)
  (placed : ∀ {id declaration}, s.get? id = some declaration → s.Placed declaration)
include wf placed

/-- If there is a context inside a declaration then its chain makes a tower. -/
theorem stacked (h : s.Inside id context) (leads : s.Chain id chain) : Tower.Stacked chain := by
  induction h generalizing chain with
  | @fragment id declaration data stored package =>
    have outer : declaration.isModule = false := by
      simp [Declaration.isModule, Declaration.kind_eq_of_package? package]
    cases leads with
    | root stored' _ module =>
      obtain rfl := Option.some.inj (stored.symm.trans stored')
      simp [outer] at module
    | inner stored' inside above =>
      obtain rfl := Option.some.inj (stored.symm.trans stored')
      cases placed stored with
      | module module _ => simp [outer] at module
      | inner _ _ within => simpa [Declaration.isInner, package] using within.inner
      | fragment module outermost _ container at_top module' =>
        obtain rfl := Option.some.inj (inside.symm.trans container)
        have none := (placed at_top).isModule_iff.1 module'
        cases above with
        | inner stored' inside _ =>
          obtain rfl := Option.some.inj (at_top.symm.trans stored')
          cases none.symm.trans inside
        | root stored' _ _ =>
          obtain rfl := Option.some.inj (at_top.symm.trans stored')
          have holds : Tower.Holds outermost declaration := by
            rw [Tower.Holds, wf.keyed at_top, container]
          exact ⟨module', by simp [package], List.isChain_pair.2 holds, by simp⟩
  | @inner id container declaration context stored inner inside _ ih =>
    cases leads with
    | root stored' _ module =>
      obtain rfl := Option.some.inj (stored.symm.trans stored')
      simp [Declaration.isInner, module] at inner
    | inner stored' inside' above =>
      obtain rfl := Option.some.inj (stored.symm.trans stored')
      obtain rfl := Option.some.inj (inside.symm.trans inside')
      have stacked := ih above
      obtain ⟨before, last, rfl, at_last⟩ := above.exists_concat
      have holds : Tower.Holds last declaration := by rw [Tower.Holds, wf.keyed at_last, inside]
      exact stacked.concat holds inner

/-- The context inside a declaration is that of the tower of its chain. -/
theorem exists_tower (h : s.Inside id context) (leads : s.Chain id chain) :
    ∃ tower, Tower.build chain = .ok tower ∧ tower.context = context := by
  obtain ⟨tower, built, -⟩ := Tower.exists_describes (h.stacked wf placed leads)
  exact ⟨tower, built, (leads.inside_of_build wf.keyed built).unique h⟩

end Store.Inside

end Towers

end ClassSymbols
