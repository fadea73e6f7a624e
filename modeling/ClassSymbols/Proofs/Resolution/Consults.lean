import ClassSymbols.Proofs.Resolution.Searches

/-!
# What a resolution consults

A resolution asks the store for the classes of supertypes. If the comparison of result types reads
the store, it also asks for classes that result types mention. If the classes that it asks for are
found from a point before on, it does not matter when it asks.

## Main definitions

* `Store.Consults` — the class ids that the resolution of a class may ask for.
* `Settled` — whether all that is found from a point before the first resolution on.
* `Workspace.SettledSearch` — what is found while classes are resolved, if it is settled.

## Main statements

* `consults_of_asks` — the resolution of a class consults what the classes above ask for.
* `History.Facts.findClass?_of_settled` — while a class is resolved, what is settled is found.
-/

namespace ClassSymbols

/-- The class ids that the resolution of a class may ask for: those of the supertypes of the class
and of its ancestors. If the comparison of result types reads the store, they are also those of the
root, and those that these supertypes, the result types of declared members, and the supertypes of
classes that are found in turn mention. -/
inductive Store.Consults (store : Store) (relation : TypeRelation) (id : DeclId) : ClassId → Prop
  | supertype {a : DeclId} {data : ClassData} {supertype : Ty} {k : ClassId} :
      Relation.ReflTransGen store.Parent id a → store.IsClass a data → supertype ∈ data.supertypes →
      supertype.classId? = some k → Consults store relation id k
  | root : relation.ReadsStore → Consults store relation id .any
  | mentioned {a : DeclId} {data : ClassData} {supertype : Ty} {k : ClassId} : relation.ReadsStore →
      Relation.ReflTransGen store.Parent id a → store.IsClass a data → supertype ∈ data.supertypes →
      k ∈ supertype.classIds → Consults store relation id k
  | result {a member : DeclId} {members : List DeclId} {declaration : Declaration} {type : Ty}
      {k : ClassId} :
      relation.ReadsStore → Relation.ReflTransGen store.Parent id a →
        store.members? a = some members →
      member ∈ members → store.get? member = some declaration →
        declaration.resultType? = some type →
      k ∈ type.classIds → Consults store relation id k
  | further {j k : ClassId} {a : DeclId} {data : ClassData} {supertype : Ty} : relation.ReadsStore →
      Consults store relation id j → store.findClass? j = some a → store.IsClass a data →
      supertype ∈ data.supertypes → k ∈ supertype.classIds → Consults store relation id k

/-- The class ids that the resolution of a class may ask for in a workspace. -/
abbrev Workspace.Consults (w : Workspace) (id : DeclId) : ClassId → Prop :=
  w.store.Consults w.effective.options.relation id

/-- Whether a point of a history is before each resolution of a class or an ancestor, and what these
consult is found there as at the end. -/
structure Settled (u w : Workspace) (log : List Computation) (id : DeclId) : Prop where
  sound : u.store.Sound
  indexed : u.store.Indexed
  started : ∀ c ∈ log, Relation.ReflTransGen w.store.Parent id c.owner → u.LeadsTo c.start
  same : ∀ {k}, w.Consults id k → w.store.findClass? k = u.store.findClass? k

variable {loads : Prop} {origin u v w : Workspace} {log : List Computation} {c : Computation}
  {a id : DeclId}

/-! ## Searches -/

/-- What is found while a class above another one is resolved, if it is what is found in the end. -/
def Workspace.SettledSearch (w : Workspace) (id : DeclId) : Search := fun a k found =>
  Relation.ReflTransGen w.store.Parent id a ∧ w.Consults id k ∧ w.store.findClass? k = found

theorem above_of_uses {b : DeclId} (above : Relation.ReflTransGen w.store.Parent id a)
    (uses : Relation.ReflTransGen (w.store.Uses (w.SettledSearch id)) a b) :
    Relation.ReflTransGen w.store.Parent id b := by
  induction uses with
  | refl => exact above
  | tail _ step ih =>
    obtain ⟨data, isClass, supertype, hs, k, named, -, -, found⟩ := step
    exact ih.tail ⟨data, isClass, supertype, hs, by rw [named, Option.bind_some, found]⟩

/-- What a class above another one asks for, the resolution of this one consults. -/
theorem consults_of_asks (above : Relation.ReflTransGen w.store.Parent id a) {k : ClassId}
    (asks : w.store.Asks w.effective.options.relation (w.SettledSearch id) a k) :
    w.Consults id k := by
  induction asks with
  | supertype isClass hs named => exact .supertype above isClass hs named
  | root looks => exact .root looks
  | mentioned looks uses isClass hs hk =>
    exact .mentioned looks (above_of_uses above uses) isClass hs hk
  | result looks uses listed hm stored ht hk =>
    exact .result looks (above_of_uses above uses) listed hm stored ht hk
  | further looks _ found isClass hs hk ih => exact .further looks ih found.2.2 isClass hs hk

/-! ## Settled points -/

/-- What a resolution consults is found in between as at the end. -/
theorem Settled.findClass?_eq (settled : Settled u w log id) (before : u.LeadsTo v)
    (after : v.LeadsTo w) {k : ClassId} (consulted : w.Consults id k) :
    v.store.findClass? k = w.store.findClass? k := by
  have same := settled.same consulted
  refine (before.store.findClass?_between after.store (fun {a} found => ?_) same).trans same.symm
  obtain ⟨_, _, stored, -⟩ := settled.indexed k a found
  exact settled.sound.allocated stored

namespace History.Facts

variable (facts : Facts loads origin log w) (settled : Settled u w log id)
include facts settled

/-- While a class is resolved, what is settled is found as in the end. -/
theorem findClass?_of_settled (hc : c ∈ log) {k : ClassId} {found : Option DeclId}
    (search : w.SettledSearch id c.owner k found) (before : c.start.LeadsTo v)
    (after : v.LeadsTo c.before) :
    v.store.findClass? k = found := by
  obtain ⟨above, consulted, rfl⟩ := search
  obtain ⟨step, later⟩ := facts.finished c hc
  exact settled.findClass?_eq ((settled.started c hc above).trans before)
    (after.trans (step.trans later)) consulted

/-- If a class has a result, all its ancestors have. -/
theorem exists_result (fresh : origin.Fresh) (start : ∃ c ∈ log, c.owner = id) {a : DeclId}
    (above : Relation.ReflTransGen w.store.Parent id a) : ∃ c ∈ log, c.owner = a := by
  induction above with
  | refl => exact start
  | @tail a b above parent ih =>
    obtain ⟨c, hc, rfl⟩ := ih
    obtain ⟨data, isClass, supertype, hs, found⟩ := parent
    obtain ⟨k, named, found⟩ := Option.bind_eq_some_iff.1 found
    obtain ⟨-, _, _, follows, -⟩ := facts.follows c hc
    have same {supertype : Ty} (hs : supertype ∈ c.supertypes) {k : ClassId}
      (named : supertype.classId? = some k)
        {v : Workspace} (before : c.start.LeadsTo v) (after : v.LeadsTo c.before) :
        v.store.findClass? k = w.store.findClass? k := by
      rw [← facts.isClass hc isClass] at hs
      exact facts.findClass?_of_settled settled hc ⟨above, .supertype above isClass hs named, rfl⟩
        before after
    have hs := facts.isClass hc isClass ▸ hs
    have listed : (supertype, b) ∈ c.members.map fun m => (m.supertype, m.owner) := by
      rw [follows.matched_of_steady fun _ hs _ named v before after =>
        (same hs named before after).trans (same hs named follows.resolved (.refl _)).symm,
        List.mem_filterMap]
      refine ⟨supertype, hs, ?_⟩
      rw [named, Option.bind_some, same hs named follows.resolved (.refl _), found]
      rfl
    obtain ⟨m, hm, e⟩ := List.mem_map.1 listed
    obtain ⟨c', hc', owner, -⟩ := facts.exists_offered hc fresh hm
    exact ⟨c', hc', owner.trans (Prod.mk.inj e).2⟩

end History.Facts

end ClassSymbols
