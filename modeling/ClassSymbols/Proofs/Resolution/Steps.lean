import ClassSymbols.Overrides.Effective
import ClassSymbols.Proofs.Data.Sequence
import ClassSymbols.Proofs.Data.Traversal
import ClassSymbols.Proofs.Store.Growth

/-!
# The steps of a resolution

A resolution answers from the results that are kept, or resolves the supertypes in their order and
then computes a result. Whatever passes from these steps to the whole holds of every resolution,
whether it succeeds or fails.

## Main definitions

* `BoundedRule` — a property of resolutions with limited room that passes from their steps to the
  whole.
* `ResolutionRule` — such a property that does not depend on the room.

## Main statements

* `BoundedRule.resolveWithin`, `ResolutionRule.resolveWithin` — such a property holds of every
  resolution.
* `resolutionRule_of_preserved` — what computations preserve.
-/

namespace ClassSymbols

/-! ## Computations on workspaces -/

theorem gives_onStore_iff {α : Type} {action : StoreM α} {w w' : Workspace}
    {r : Except SymbolError α} :
    Gives (EffectiveM.onStore action) w r w' ↔
      ∃ store, Gives action w.store r store ∧ w' = { w with store } := by
  cases h : action w.store <;> cases r <;> simp [Gives, EffectiveM.onStore, h, eq_comm, and_comm]

def Workspace.after {α : Type} (w : Workspace) (action : EffectiveM α) : Workspace :=
  match action w with
  | .ok _ w' => w'
  | .error _ w' => w'

theorem Workspace.exists_gives_after {α : Type} (w : Workspace) (action : EffectiveM α) :
    ∃ r, Gives action w r (w.after action) := by
  unfold after
  cases h : action w with
  | ok a w' => exact ⟨.ok a, gives_ok_iff.2 h⟩
  | error e w' => exact ⟨.error e, gives_error_iff.2 h⟩

/-! ## Requests -/

section Request

variable {w : Workspace} {visiting : List DeclId} {id : DeclId}

/-- A class is answered from its result, or computed if it is not being resolved already. -/
theorem request_eq_ok {request : Request} (h : w.request visiting id = .ok request) :
    ∃ data, w.store.IsClass id data ∧
      ((∃ synthesis, request = .kept synthesis ∧
          w.effective.cache.get? (id, data.supertypes) = some synthesis) ∨
        ∃ name, request = .compute name data ∧
          w.effective.cache.get? (id, data.supertypes) = none ∧ id ∉ visiting) := by
  unfold Workspace.request at h
  obtain ⟨declaration, stored, h⟩ := Except.bind_eq_ok_iff.1 h
  have stored := Store.resolve_eq_ok_iff.1 stored
  split at h
  · cases h
  · next data hc =>
    refine ⟨data, ⟨declaration, stored, hc⟩, ?_⟩
    split at h
    · next synthesis kept => exact .inl ⟨synthesis, (Except.ok.inj h).symm, kept⟩
    · next miss =>
      by_cases busy : visiting.contains id = true
      · rw [if_pos busy] at h
        cases h
      · rw [if_neg busy] at h
        exact .inr ⟨_, (Except.ok.inj h).symm, miss, by simpa using busy⟩

/-- A class is refused only while it is being resolved. -/
theorem request_eq_error {data : ClassData} (stored : w.store.IsClass id data) {e : SymbolError}
    (h : w.request visiting id = .error e) :
    id ∈ visiting ∧ ∃ reason, e = .malformedChain reason := by
  obtain ⟨declaration, stored, hc⟩ := stored
  unfold Workspace.request at h
  rw [Store.resolve_eq_ok_iff.2 stored] at h
  simp only [bind, Except.bind, hc] at h
  split at h
  · cases h
  · by_cases busy : visiting.contains id = true
    · rw [if_pos busy] at h
      exact ⟨by simpa using busy, _, (Except.error.inj h).symm⟩
    · rw [if_neg busy] at h
      cases h

/-- A resolution is refused, answers with a result that is kept, or computes one. -/
theorem gives_request {compute : String → ClassData → EffectiveM OverrideSynthesis}
    {r : Except SymbolError OverrideSynthesis} {w' : Workspace}
    (h : Gives (do
      let workspace ← get
      match workspace.request visiting id with
      | .error e => throw e
      | .ok (.kept synthesis) => return synthesis
      | .ok (.compute name data) => compute name data) w r w') :
    (∃ e, w.request visiting id = .error e ∧ r = .error e ∧ w' = w) ∨
      ∃ data, w.store.IsClass id data ∧
      ((∃ synthesis, w.effective.cache.get? (id, data.supertypes) = some synthesis ∧
          r = .ok synthesis ∧ w' = w) ∨
        ∃ name, w.effective.cache.get? (id, data.supertypes) = none ∧ id ∉ visiting ∧
          Gives (compute name data) w r w') := by
  have answer := gives_get_bind_iff.1 h
  cases asked : w.request visiting id with
  | error e =>
    rw [asked] at answer
    exact .inl ⟨e, rfl, gives_throw_iff.1 answer⟩
  | ok request =>
    rw [asked] at answer
    obtain ⟨data, stored, ⟨synthesis, rfl, kept⟩ | ⟨name, rfl, miss, free⟩⟩ := request_eq_ok asked
    · exact .inr ⟨data, stored, .inl ⟨synthesis, kept, gives_pure_iff.1 answer⟩⟩
    · exact .inr ⟨data, stored, .inr ⟨name, miss, free, answer⟩⟩

/-- A resolution of a class without a result is refused, or computes one. -/
theorem gives_request_of_missed {compute : String → ClassData → EffectiveM OverrideSynthesis}
    {data : ClassData} (isClass : w.store.IsClass id data)
    (miss : w.effective.cache.get? (id, data.supertypes) = none)
    {r : Except SymbolError OverrideSynthesis} {w' : Workspace}
    (h : Gives (do
      let workspace ← get
      match workspace.request visiting id with
      | .error e => throw e
      | .ok (.kept synthesis) => return synthesis
      | .ok (.compute name data) => compute name data) w r w') :
    (∃ e, r = .error e) ∨ ∃ name, Gives (compute name data) w r w' := by
  rcases gives_request h with ⟨e, -, rfl, -⟩ |
    ⟨data', isClass', ⟨_, kept, -, -⟩ | ⟨name, -, -, made⟩⟩
  · exact .inl ⟨e, rfl⟩
  · rw [isClass.unique isClass', kept] at miss
    cases miss
  · exact .inr ⟨name, isClass.unique isClass' ▸ made⟩

end Request

/-! ## Resolutions -/

/-- A property of resolutions, and one of the members of supertypes, that pass from steps to the
whole. Both speak of the room for further classes, of the classes that are being resolved, of a
result or an error, and of the workspaces before and after. -/
structure BoundedRule
    (P : Nat → List DeclId → Workspace → DeclId → Except SymbolError OverrideSynthesis → Workspace →
      Prop)
    (Q : Nat → List DeclId → Workspace → List Ty → Except SymbolError (List SupertypeMembers) →
      Workspace → Prop) : Prop where
  /-- A class that is refused changes nothing. -/
  refused {room visiting w id e} :
    w.request visiting id = .error e → P room visiting w id (.error e) w
  /-- A result that is kept is the answer. -/
  kept {room visiting w id data synthesis} : w.store.IsClass id data →
    w.effective.cache.get? (id, data.supertypes) = some synthesis →
    P room visiting w id (.ok synthesis) w
  /-- Without room, no result is computed. -/
  full {visiting w id data reason} : w.store.IsClass id data →
    w.effective.cache.get? (id, data.supertypes) = none → id ∉ visiting →
    P 0 visiting w id (.error (.malformedChain reason)) w
  /-- If a supertype cannot be resolved, nothing is computed. -/
  blocked {room visiting w id data e w'} : w.store.IsClass id data →
    w.effective.cache.get? (id, data.supertypes) = none → id ∉ visiting →
    Q room (id :: visiting) w data.supertypes (.error e) w' →
      P (room + 1) visiting w id (.error e) w'
  /-- A result is computed from the members of the supertypes. -/
  computed {room visiting w id data members w₁ r w'} : w.store.IsClass id data →
    w.effective.cache.get? (id, data.supertypes) = none → id ∉ visiting →
    Q room (id :: visiting) w data.supertypes (.ok members) w₁ →
    Gives (computeFrom id data members) w₁ r w' → P (room + 1) visiting w id r w'
  /-- No supertypes have no members. -/
  none {room visiting w} : Q room visiting w [] (.ok []) w
  /-- A supertype whose class is not found is left out. -/
  skipped {room visiting w supertype rest r w'} :
    supertype.classId?.bind w.store.findClass? = Option.none →
    Q room visiting w rest r w' → Q room visiting w (supertype :: rest) r w'
  /-- The class of a supertype is found and cannot be resolved. -/
  stopped {room visiting w supertype rest owner e w'} :
    supertype.classId?.bind w.store.findClass? = some owner →
    P room visiting w owner (.error e) w' → Q room visiting w (supertype :: rest) (.error e) w'
  /-- The class of a supertype is resolved, and then one of the further supertypes is not. -/
  halted {room visiting w supertype rest owner synthesis w₁ e w'} :
    supertype.classId?.bind w.store.findClass? = some owner →
    P room visiting w owner (.ok synthesis) w₁ → Q room visiting w₁ rest (.error e) w' →
    Q room visiting w (supertype :: rest) (.error e) w'
  /-- The class of a supertype is resolved, and then the further supertypes are. -/
  found {room visiting w supertype rest owner synthesis w₁ members w'} :
    supertype.classId?.bind w.store.findClass? = some owner →
    P room visiting w owner (.ok synthesis) w₁ → Q room visiting w₁ rest (.ok members) w' →
    Q room visiting w (supertype :: rest)
      (.ok (⟨supertype, owner, synthesis.set.memberIds⟩ :: members)) w'

namespace BoundedRule

variable
  {P : Nat → List DeclId → Workspace → DeclId → Except SymbolError OverrideSynthesis → Workspace →
    Prop}
  {Q : Nat → List DeclId → Workspace → List Ty → Except SymbolError (List SupertypeMembers) →
    Workspace → Prop}
  (rule : BoundedRule P Q)
include rule

/-- With a property of the resolutions of classes comes that of the members of supertypes. -/
theorem supertypeMembers {room : Nat} {visiting : List DeclId}
    {resolve : DeclId → EffectiveM OverrideSynthesis}
    (resolved : ∀ id w r w', Gives (resolve id) w r w' → P room visiting w id r w')
    {supertypes : List Ty} {w w' : Workspace} {r : Except SymbolError (List SupertypeMembers)}
    (h : Gives (ClassSymbols.supertypeMembers resolve supertypes) w r w') :
    Q room visiting w supertypes r w' := by
  induction supertypes generalizing w w' r with
  | nil =>
    obtain ⟨rfl, rfl⟩ := gives_pure_iff.1 h
    exact rule.none
  | cons supertype rest ih =>
    replace h := gives_get_bind_iff.1 h
    cases search : supertype.classId?.bind w.store.findClass? with
    | none =>
      simp only [search] at h
      exact rule.skipped search (ih h)
    | some owner =>
      simp only [search] at h
      rcases gives_bind_iff.1 h with ⟨e, rfl, stopped⟩ | ⟨synthesis, w₁, first, later⟩
      · exact rule.stopped search (resolved _ _ _ _ stopped)
      · rcases gives_bind_iff.1 later with ⟨e, rfl, halted⟩ | ⟨members, w₂, others, done⟩
        · exact rule.halted search (resolved _ _ _ _ first) (ih halted)
        · obtain ⟨rfl, rfl⟩ := gives_pure_iff.1 done
          exact rule.found search (resolved _ _ _ _ first) (ih others)

/-- A property that passes from steps to the whole holds of every resolution. -/
theorem resolveWithin {room : Nat} {visiting : List DeclId} {id : DeclId} {w w' : Workspace}
    {r : Except SymbolError OverrideSynthesis}
    (h : Gives (ClassSymbols.resolveWithin room visiting id) w r w') :
    P room visiting w id r w' := by
  induction room generalizing visiting id w w' r with
  | zero =>
    unfold ClassSymbols.resolveWithin at h
    rcases gives_request h with
      ⟨e, asked, rfl, rfl⟩ | ⟨data, stored, ⟨_, kept, rfl, rfl⟩ | ⟨_, miss, free, full⟩⟩
    · exact rule.refused asked
    · exact rule.kept stored kept
    · obtain ⟨rfl, rfl⟩ := gives_throw_iff.1 full
      exact rule.full stored miss free
  | succ room ih =>
    unfold ClassSymbols.resolveWithin at h
    rcases gives_request h with
      ⟨e, asked, rfl, rfl⟩ | ⟨data, stored, ⟨_, kept, rfl, rfl⟩ | ⟨_, miss, free, made⟩⟩
    · exact rule.refused asked
    · exact rule.kept stored kept
    · rcases gives_bind_iff.1 made with ⟨e, rfl, blocked⟩ | ⟨members, w₁, supers, done⟩
      · exact rule.blocked stored miss free (rule.supertypeMembers (fun _ _ _ _ => ih) blocked)
      · exact rule.computed stored miss free (rule.supertypeMembers (fun _ _ _ _ => ih) supers) done

end BoundedRule

/-- A property of resolutions, and one of the members of supertypes, that pass from steps to the
whole whatever the room. Both speak of the classes that are being resolved, of a result or an error,
and of the workspaces before and after. -/
structure ResolutionRule
    (P : List DeclId → Workspace → DeclId → Except SymbolError OverrideSynthesis → Workspace → Prop)
    (Q : List DeclId → Workspace → List Ty → Except SymbolError (List SupertypeMembers) →
      Workspace → Prop) : Prop where
  /-- A resolution that fails at once changes nothing. -/
  failed {visiting w id e} : P visiting w id (.error e) w
  /-- A result that is kept is the answer. -/
  kept {visiting w id data synthesis} : w.store.IsClass id data →
    w.effective.cache.get? (id, data.supertypes) = some synthesis →
    P visiting w id (.ok synthesis) w
  /-- If a supertype cannot be resolved, nothing is computed. -/
  blocked {visiting w id data e w'} : w.store.IsClass id data →
    w.effective.cache.get? (id, data.supertypes) = none → id ∉ visiting →
    Q (id :: visiting) w data.supertypes (.error e) w' → P visiting w id (.error e) w'
  /-- A result is computed from the members of the supertypes. -/
  computed {visiting w id data members w₁ r w'} : w.store.IsClass id data →
    w.effective.cache.get? (id, data.supertypes) = none → id ∉ visiting →
    Q (id :: visiting) w data.supertypes (.ok members) w₁ →
    Gives (computeFrom id data members) w₁ r w' → P visiting w id r w'
  /-- No supertypes have no members. -/
  none {visiting w} : Q visiting w [] (.ok []) w
  /-- A supertype whose class is not found is left out. -/
  skipped {visiting w supertype rest r w'} :
    supertype.classId?.bind w.store.findClass? = Option.none →
    Q visiting w rest r w' → Q visiting w (supertype :: rest) r w'
  /-- The class of a supertype is found and cannot be resolved. -/
  stopped {visiting w supertype rest owner e w'} :
    supertype.classId?.bind w.store.findClass? = some owner →
    P visiting w owner (.error e) w' → Q visiting w (supertype :: rest) (.error e) w'
  /-- The class of a supertype is resolved, and then one of the further supertypes is not. -/
  halted {visiting w supertype rest owner synthesis w₁ e w'} :
    supertype.classId?.bind w.store.findClass? = some owner →
    P visiting w owner (.ok synthesis) w₁ → Q visiting w₁ rest (.error e) w' →
    Q visiting w (supertype :: rest) (.error e) w'
  /-- The class of a supertype is resolved, and then the further supertypes are. -/
  found {visiting w supertype rest owner synthesis w₁ members w'} :
    supertype.classId?.bind w.store.findClass? = some owner →
    P visiting w owner (.ok synthesis) w₁ → Q visiting w₁ rest (.ok members) w' →
    Q visiting w (supertype :: rest)
      (.ok (⟨supertype, owner, synthesis.set.memberIds⟩ :: members)) w'

namespace ResolutionRule

variable
  {P : List DeclId → Workspace → DeclId → Except SymbolError OverrideSynthesis → Workspace → Prop}
  {Q : List DeclId → Workspace → List Ty → Except SymbolError (List SupertypeMembers) → Workspace →
    Prop}
  (rule : ResolutionRule P Q)
include rule

/-- The rule for any room. -/
theorem bounded : BoundedRule (fun _ => P) (fun _ => Q) where
  refused _ := rule.failed
  kept := rule.kept
  full _ _ _ := rule.failed
  blocked := rule.blocked
  computed := rule.computed
  none := rule.none
  skipped := rule.skipped
  stopped := rule.stopped
  halted := rule.halted
  found := rule.found

/-- A property that passes from steps to the whole holds of every resolution. -/
theorem resolveWithin {room : Nat} {visiting : List DeclId} {id : DeclId} {w w' : Workspace}
    {r : Except SymbolError OverrideSynthesis}
    (h : Gives (ClassSymbols.resolveWithin room visiting id) w r w') : P visiting w id r w' :=
  rule.bounded.resolveWithin h

/-- A property that passes from steps to the whole holds of every query. -/
theorem effectiveSynthesis {id : DeclId} {w w' : Workspace}
    {r : Except SymbolError OverrideSynthesis}
    (h : Gives (ClassSymbols.effectiveSynthesis id) w r w') : P [] w id r w' :=
  rule.resolveWithin h

end ResolutionRule

/-- What the computation of a result preserves, every resolution preserves. -/
theorem resolutionRule_of_preserved {Holds : Workspace → Prop}
    (preserved : ∀ {id data members w r w'}, Holds w → Gives (computeFrom id data members) w r w' →
      Holds w') :
    ResolutionRule (fun _ w _ _ w' => Holds w → Holds w') (fun _ w _ _ w' => Holds w → Holds w')
      where
  failed holds := holds
  kept _ _ holds := holds
  blocked _ _ _ supers holds := supers holds
  computed _ _ _ supers made holds := preserved (supers holds) made
  none holds := holds
  skipped _ others holds := others holds
  stopped _ first holds := first holds
  halted _ first others holds := others (first holds)
  found _ first others holds := others (first holds)

end ClassSymbols
