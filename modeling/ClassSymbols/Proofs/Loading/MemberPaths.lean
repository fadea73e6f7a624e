import ClassSymbols.Proofs.Loading.Modules
import ClassSymbols.Proofs.Text.Dotted

/-!
# Paths through members

A path leads from the top-level classes of a package fragment through the members of one class after
the other. The members of the class at its end are read, too, before it is found, so that a path to
a class fails if the members of that class cannot be read.

## Main definitions

* `Store.FirstNamed` — the first of some declarations that has a name.
* `PathLeads` — where names lead to, if only the classes that they pass through are read.

## Main statements

* `PathLeads.unique` — names lead to one declaration.
* `PathLeads.gives_followPath_iff` — what following names that lead somewhere gives.
* `exists_pathLeads` — names that can be followed lead somewhere.
* `findMemberPath_finds` — the paths that are found, and those that are not because of the members
  at their end.
-/

namespace ClassSymbols

def Store.FirstNamed (store : Store) (candidates : List DeclId) (name : String) (id : DeclId) :
    Prop :=
  ∃ before after declaration,
    candidates = before ++ id :: after ∧ store.get? id = some declaration ∧
    declaration.name = name ∧ ∀ other ∈ before, ∀ d, store.get? other = some d → d.name ≠ name

/-- Whether names lead from some declarations to the one under an id: the first name is that of one
of them, and every later one that of a member of the class reached so far. The members of the
classes on the way are read, which takes the store `s` to `t`. -/
inductive PathLeads : Store → List DeclId → List String → DeclId → Store → Prop
  | last {s : Store} {candidates : List DeclId} {name : String} {id : DeclId} :
    s.FirstNamed candidates name id →
      PathLeads s candidates [name] id s
  | through {s s₁ t : Store} {candidates members : List DeclId} {name : String} {rest : List String}
      {owner id : DeclId} :
      s.FirstNamed candidates name owner → Gives (classMembers owner) s (.ok members) s₁ →
      PathLeads s₁ members rest id t → PathLeads s candidates (name :: rest) id t

variable {s s' t : Store} {id : DeclId}

/-! ## One step -/

theorem Store.FirstNamed.mem {candidates : List DeclId} {name : String}
    (h : s.FirstNamed candidates name id) :
    id ∈ candidates := by
  obtain ⟨before, after, _, rfl, -⟩ := h
  exact List.mem_append_right before List.mem_cons_self

theorem findNamed?_eq_some_iff {candidates : List DeclId} {name : String} :
    findNamed? s candidates name = some id ↔ s.FirstNamed candidates name id := by
  simp only [findNamed?, List.find?_eq_some_iff_append, Store.FirstNamed, Option.any_eq_true,
    Bool.not_eq_true', Option.any_eq_false, beq_iff_eq, beq_eq_false_iff_ne]
  constructor
  · rintro ⟨⟨declaration, stored, named⟩, before, after, split, others⟩
    exact ⟨before, after, declaration, split, stored, named, others⟩
  · rintro ⟨before, after, declaration, split, stored, named, others⟩
    exact ⟨⟨declaration, stored, named⟩, before, after, split, others⟩

theorem Store.FirstNamed.unique {candidates : List DeclId} {name : String} {id' : DeclId}
    (h : s.FirstNamed candidates name id) (h' : s.FirstNamed candidates name id') : id = id' :=
  Option.some.inj ((findNamed?_eq_some_iff.2 h).symm.trans (findNamed?_eq_some_iff.2 h'))

/-- Only classes have members that can be asked for. -/
theorem exists_isClass_of_classMembers {members : List DeclId}
    (h : Gives (classMembers id) s (.ok members) t) :
    ∃ data, s.IsClass id data := by
  rcases classMembers_cases h with ⟨_, contra, -⟩ | ⟨_, -, known, -⟩ |
    ⟨declaration, data, _, stored, hk, -⟩
  · cases contra
  · obtain ⟨data, isClass, -⟩ := Store.members?_eq_some_iff.1 known
    exact ⟨data, isClass⟩
  · exact ⟨data, declaration, stored, by simp [Declaration.class?, hk]⟩

theorem gives_membersIfClass_iff {data : ClassData} (isClass : s.IsClass id data)
    {r : Except SymbolError (List DeclId)} :
    Gives (membersIfClass id) s r t ↔ Gives (classMembers id) s r t := by
  obtain ⟨declaration, stored, hc⟩ := isClass
  rw [membersIfClass, gives_get_bind_iff, stored, Option.any_some, hc, Option.isSome_some,
    if_pos rfl]

theorem gives_membersIfClass_of_forall_not (other : ∀ data, ¬ s.IsClass id data) :
    Gives (membersIfClass id) s (.ok []) s := by
  rw [membersIfClass, gives_get_bind_iff, if_neg]
  · exact gives_pure_iff.2 ⟨rfl, rfl⟩
  · simp only [Option.any_eq_true, Option.isSome_iff_exists]
    rintro ⟨declaration, stored, data, hc⟩
    exact other data ⟨declaration, stored, hc⟩

/-- A name is followed to the first declaration that has it, and on from its members. -/
theorem gives_followPath_cons_iff {path : String} {found owner : DeclId} {candidates : List DeclId}
    {name : String} {rest : List String} (first : s.FirstNamed candidates name owner)
    {r : Except SymbolError DeclId} :
    Gives (followPath path found candidates (name :: rest)) s r t ↔
      Gives (do followPath path owner (← membersIfClass owner) rest) s r t := by
  rw [followPath, gives_get_bind_iff, findNamed?_eq_some_iff.2 first]

/-! ## Whole paths -/

section Paths

variable {path : String} {found : DeclId} {candidates : List DeclId} {names : List String}

/-- Names lead to one declaration, and leave one store. -/
theorem PathLeads.unique (h : PathLeads s candidates names id t) {id' : DeclId} {t' : Store}
    (h' : PathLeads s candidates names id' t') : id = id' ∧ t = t' := by
  induction h with
  | last first =>
    cases h' with
    | last first' => exact ⟨first.unique first', rfl⟩
    | through _ _ nothing => cases nothing
  | through first asked leads ih =>
    cases h' with
    | last _ => cases leads
    | through first' asked' leads' =>
      obtain rfl := first.unique first'
      obtain ⟨e, rfl⟩ := asked.unique asked'
      obtain rfl := Except.ok.inj e
      exact ih leads'

/-- Names that lead somewhere are followed to it, and then its members are read, if it is a
class. -/
theorem PathLeads.gives_followPath_iff (leads : PathLeads s candidates names id t)
    {r : Except SymbolError DeclId} :
    Gives (followPath path found candidates names) s r s' ↔
      ∃ r', Gives (membersIfClass id) t r' s' ∧ r = r'.map fun _ => id := by
  induction leads generalizing found with
  | last first =>
    rw [gives_followPath_cons_iff first, ← gives_bind_pure_iff]
    rfl
  | @through s s₁ t candidates members name rest owner id first asked _ ih =>
    obtain ⟨data, isClass⟩ := exists_isClass_of_classMembers asked
    have read := (gives_membersIfClass_iff isClass).2 asked
    rw [gives_followPath_cons_iff first, gives_bind_iff, ← @ih owner]
    constructor
    · rintro (⟨e, -, failed⟩ | ⟨members', s₂, read', later⟩)
      · cases (failed.unique read).1
      · obtain ⟨e, rfl⟩ := read'.unique read
        obtain rfl := Except.ok.inj e
        exact later
    · intro later
      exact .inr ⟨members, s₁, read, later⟩

/-- Names that can be followed lead somewhere. -/
theorem exists_pathLeads (some : names ≠ [])
    (h : Gives (followPath path found candidates names) s (.ok id) s') :
    ∃ t, PathLeads s candidates names id t := by
  induction names generalizing s found candidates with
  | nil => exact absurd rfl some
  | cons name rest ih =>
    cases named : findNamed? s candidates name with
    | none =>
      rw [followPath, gives_get_bind_iff, named] at h
      cases (gives_throw_iff.1 h).1
    | some owner =>
      have first := findNamed?_eq_some_iff.1 named
      rcases gives_bind_iff.1 ((gives_followPath_cons_iff first).1 h) with ⟨_, contra, -⟩ |
        ⟨members, s₁, read, later⟩
      · cases contra
      cases rest with
      | nil =>
        obtain ⟨e, -⟩ := gives_pure_iff.1 later
        obtain rfl := Except.ok.inj e
        exact ⟨s, .last first⟩
      | cons next rest =>
        -- what is not a class has no members, and nothing is found among them
        obtain ⟨t, leads⟩ := ih (List.cons_ne_nil next rest) later
        rcases membersIfClass_cases read with asked | ⟨e, -⟩
        · exact ⟨t, .through first asked leads⟩
        · obtain rfl := Except.ok.inj e
          have none : findNamed? s₁ [] next = none := rfl
          rw [followPath, gives_get_bind_iff, none] at later
          cases (gives_throw_iff.1 later).1

end Paths

/-- A path is found iff it leads to a declaration and, if that is a class, the members of that class
can be read. If they cannot be read the path fails for that reason, though it leads to the class. -/
theorem findMemberPath_finds (s : Store) (fragment : LoadedFragment) (path : String) (id : DeclId) :
    ((∃ s', Gives (findMemberPath fragment path) s (.ok id) s') ↔
      ∃ t, PathLeads s fragment.classes (Text.dottedSegments path) id t ∧
        ∀ data, t.IsClass id data → ∃ members t', Gives (classMembers id) t (.ok members) t') ∧
    ∀ t data e t', PathLeads s fragment.classes (Text.dottedSegments path) id t →
      t.IsClass id data →
      Gives (classMembers id) t (.error e) t' →
      Gives (findMemberPath fragment path) s (.error e) t' := by
  refine ⟨⟨?_, ?_⟩, ?_⟩
  · rintro ⟨s', h⟩
    obtain ⟨t, leads⟩ := exists_pathLeads (Text.dottedSegments_ne_nil path) h
    refine ⟨t, leads, fun data isClass => ?_⟩
    obtain ⟨r, read, e⟩ := leads.gives_followPath_iff.1 h
    cases r with
    | error _ => cases e
    | ok members => exact ⟨members, s', (gives_membersIfClass_iff isClass).1 read⟩
  · rintro ⟨t, leads, readable⟩
    have follow {members : List DeclId} {s' : Store}
      (read : Gives (membersIfClass id) t (.ok members) s') :
        Gives (findMemberPath fragment path) s (.ok id) s' :=
      leads.gives_followPath_iff.2 ⟨.ok members, read, rfl⟩
    by_cases isClass : ∃ data, t.IsClass id data
    · obtain ⟨data, isClass⟩ := isClass
      obtain ⟨members, t', read⟩ := readable data isClass
      exact ⟨t', follow ((gives_membersIfClass_iff isClass).2 read)⟩
    · exact ⟨t, follow (gives_membersIfClass_of_forall_not (not_exists.1 isClass))⟩
  · intro t data e t' leads isClass failed
    exact leads.gives_followPath_iff.2 ⟨.error e, (gives_membersIfClass_iff isClass).2 failed, rfl⟩

/-- A module with a class `A` that has a function without a name. -/
def namelessFunctionModule : SymbolTable where
  module := "m"
  fragments := .ofList [("p", {
    names := {
      strings := ["A"]
      qualifiedNames := [{ shortName := 0, kind := .classifier }] }
    types := {}
    classes := [
      { qualifiedName := 0,
        functions := [{ name := 7, returnType := .inline (.mk (.className 0) [] false) }] }]
    records := [] })]

/-- The path to the class `A` is not found, because the members of `A` cannot be read. -/
theorem findMemberPath_finds_of_namelessFunction :
    let s := Store.empty.after (loadAll namelessFunctionModule)
    PathLeads s [⟨3⟩] ["A"] ⟨3⟩ s ∧
    ∃ e t, Gives (findMemberPath ⟨⟨2⟩, [⟨3⟩]⟩ "A") s (.error e) t := by
  intro s
  have leads : PathLeads s [⟨3⟩] ["A"] ⟨3⟩ s := .last ⟨[], [], _, rfl, rfl, rfl, by simp⟩
  obtain ⟨data, isClass⟩ : ∃ data, s.IsClass ⟨3⟩ data := ⟨_, _, rfl, rfl⟩
  obtain ⟨e, t, failed⟩ : ∃ e t, Gives (classMembers ⟨3⟩) s (.error e) t := ⟨_, _, rfl⟩
  exact ⟨leads, e, t,
    (findMemberPath_finds s ⟨⟨2⟩, [⟨3⟩]⟩ "A" ⟨3⟩).2 s data e t leads isClass failed⟩

/-- In a module that was loaded, a path can lead to a class that is not found. -/
theorem not_forall_findMemberPath :
    ¬ ∀ (table : SymbolTable) (module : LoadedModule) (s : Store) (name : String)
    (fragment : LoadedFragment), loadAll table .empty = .ok module s →
    module.fragments.get? name = some fragment →
    ∀ (path : String) (id : DeclId), (∃ s', Gives (findMemberPath fragment path) s (.ok id) s') ↔
      ∃ t, PathLeads s fragment.classes (Text.dottedSegments path) id t := by
  intro all
  obtain ⟨module, s, loaded, found, leads, failed⟩ :
      ∃ module s, loadAll namelessFunctionModule .empty = .ok module s ∧
        module.fragments.get? "p" = some ⟨⟨2⟩, [⟨3⟩]⟩ ∧ s.FirstNamed [⟨3⟩] "A" ⟨3⟩ ∧
        ∃ e t, Gives (findMemberPath ⟨⟨2⟩, [⟨3⟩]⟩ "A") s (.error e) t :=
    ⟨_, _, rfl, rfl, ⟨[], [], _, rfl, rfl, rfl, by simp⟩, _, _, rfl⟩
  obtain ⟨e, t, failed⟩ := failed
  obtain ⟨s', given⟩ := (all _ module s "p" _ loaded found "A" ⟨3⟩).2 ⟨s, .last leads⟩
  cases (given.unique failed).1

end ClassSymbols
