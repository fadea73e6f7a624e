import ClassSymbols.Loading.Record
import ClassSymbols.Proofs.Loading.Members
import ClassSymbols.Proofs.Scope.Renaming

/-!
# Renaming declarations in records

A record that is read at a renamed site, under the renamed id, is the renamed declaration, and one
that cannot be read cannot be read there, for the same reason. The path of a site is for error
messages only.

## Main definitions

* `Declaration.rename` — a declaration in which declarations are renamed.

## Main statements

* `Site.readClass_rename`, `Site.readFunction_rename`, `Site.readConstructor_rename`,
  `Site.readProperty_rename` — declarations that are read at a renamed site.
* `Site.readClass_of_path`, … — declarations that are read at a site with another path.
-/

namespace ClassSymbols

variable (f : DeclId → DeclId)

def ValueParameter.rename (parameter : ValueParameter) : ValueParameter :=
  { parameter with
    type := parameter.type.rename f
    varargElement := parameter.varargElement.map (Ty.rename f) }

def ClassMembers.rename : ClassMembers → ClassMembers
  | .eager members => .eager (members.map f)
  | .deferred reading =>
    .deferred { reading with
      context := reading.context.rename f
      loaded := reading.loaded.map (List.map f) }

def ClassData.rename (data : ClassData) : ClassData :=
  { data with
    typeParameters := data.typeParameters.map (TypeParameter.rename f)
    supertypes := data.supertypes.map (Ty.rename f)
    members := data.members.rename f }

def DeclKind.rename : DeclKind → DeclKind
  | .module => .module
  | .package data => .package data
  | .classifier data => .classifier (data.rename f)
  | .function data =>
    .function { data with
      typeParameters := data.typeParameters.map (TypeParameter.rename f)
      receiver := data.receiver.map (Ty.rename f)
      valueParameters := data.valueParameters.map (ValueParameter.rename f)
      returnType := data.returnType.rename f
      overridden := data.overridden.map f }
  | .constructor data =>
    .constructor { data with
      valueParameters := data.valueParameters.map (ValueParameter.rename f)
      returnType := data.returnType.rename f }
  | .property data =>
    .property { data with
      typeParameters := data.typeParameters.map (TypeParameter.rename f)
      receiver := data.receiver.map (Ty.rename f)
      type := data.type.rename f
      overridden := data.overridden.map f }
  | .localVariable data => .localVariable { data with type := data.type.rename f }
  | .holder typeParameters => .holder (typeParameters.map (TypeParameter.rename f))

/-- The declaration in which all declarations that it refers to are renamed, and it itself. -/
def Declaration.rename (declaration : Declaration) : Declaration :=
  { declaration with
    id := f declaration.id
    container := declaration.container.map f
    kind := declaration.kind.rename f }

variable {f}

namespace Declaration

variable (declaration : Declaration)

@[simp] theorem class?_rename :
    (declaration.rename f).class? = declaration.class?.map (ClassData.rename f) := by
  obtain ⟨_, _, _, _, _, kind⟩ := declaration
  cases kind <;> rfl

@[simp] theorem visibility_rename : (declaration.rename f).visibility = declaration.visibility := by
  obtain ⟨_, _, _, _, _, kind⟩ := declaration
  cases kind <;> rfl

@[simp] theorem typeParameters_rename :
    (declaration.rename f).typeParameters =
      declaration.typeParameters.map (TypeParameter.rename f) := by
  obtain ⟨_, _, _, _, _, kind⟩ := declaration
  cases kind <;> rfl

theorem unread_rename : (declaration.rename f).unread = declaration.unread.rename f := by
  obtain ⟨_, _, _, _, _, kind⟩ := declaration
  cases kind with
  | classifier data =>
    obtain ⟨_, _, _, _, _, _, _, _, _ | _⟩ := data <;> rfl
  | _ => rfl

end Declaration

/-! ## Silent declarations -/

/-- The declaration without what it says about overriding. -/
def Declaration.silent (declaration : Declaration) : Declaration :=
  { declaration with
    kind := match declaration.kind with
      | .function data => .function { data with overridden := [] }
      | .property data => .property { data with overridden := [] }
      | kind => kind }

namespace Declaration

variable (declaration : Declaration)

@[simp] theorem isCallable_silent : declaration.silent.isCallable = declaration.isCallable := by
  obtain ⟨_, _, _, _, _, kind⟩ := declaration
  cases kind <;> rfl

@[simp] theorem visibility_silent : declaration.silent.visibility = declaration.visibility := by
  obtain ⟨_, _, _, _, _, kind⟩ := declaration
  cases kind <;> rfl

theorem silent_rename (f : DeclId → DeclId) :
    (declaration.rename f).silent = declaration.silent.rename f := by
  obtain ⟨_, _, _, _, _, kind⟩ := declaration
  cases kind <;> rfl

end Declaration

/-! ## Records -/

namespace Site

variable {context : ScopeContext} {path path' : String} {id : DeclId} {declaration : Declaration}

/-! ### Paths -/

theorem reporting_eq_ok_iff {α : Type} {site : Site} {symbol : String}
    {result : Except SymbolError α} {a : α} :
    site.reporting symbol result = .ok a ↔ result = .ok a := Except.mapError_eq_ok_iff

theorem readFunction_of_path {record : FunctionRecord}
    (h : readFunction ⟨context, path⟩ id record = .ok declaration) :
    readFunction ⟨context, path'⟩ id record = .ok declaration := by
  simpa only [readFunction, readName, reporting_eq_ok_iff, Except.bind_eq_ok_iff] using h

theorem readProperty_of_path {record : PropertyRecord}
    (h : readProperty ⟨context, path⟩ id record = .ok declaration) :
    readProperty ⟨context, path'⟩ id record = .ok declaration := by
  simpa only [readProperty, readName, reporting_eq_ok_iff, Except.bind_eq_ok_iff] using h

theorem readClass_of_path {record : ClassRecord}
    (h : readClass ⟨context, path⟩ id record = .ok declaration) :
    readClass ⟨context, path'⟩ id record = .ok declaration := by
  simpa only [readClass, readClassData, reporting_eq_ok_iff, Except.bind_eq_ok_iff] using h

theorem readConstructor_of_path {owner : DeclId} {data : ClassData} {record : ConstructorRecord}
    (h : readConstructor ⟨context, path⟩ owner data id record = .ok declaration) :
    readConstructor ⟨context, path'⟩ owner data id record = .ok declaration := by
  simpa only [readConstructor, reporting_eq_ok_iff, Except.bind_eq_ok_iff] using h

/-! ### Renamed sites -/

theorem reporting_translate {α β : Type} (site : Site) {symbol : String} {x : Except SymbolError α}
    {x' : Except SymbolError β} {g : α → β} (h : x' = x.map g) :
    reporting ⟨site.context.rename f, site.path⟩ symbol x' = (site.reporting symbol x).map g := by
  subst h
  cases x <;> rfl

theorem readTypeParameters_rename (owner : DeclId) (records : List TypeParameterRecord) :
    readTypeParameters (context.rename f) (f owner) records =
      (readTypeParameters context owner records).map (List.map (TypeParameter.rename f)) := by
  have named (numbered : TypeParameterRecord × Nat) :
      readParameterHead (context.rename f) (f owner) numbered =
        (readParameterHead context owner numbered).map (TypeParameter.rename f) :=
    Except.bind_translate_right fun name => rfl
  refine Except.bind_translate (mapM_translate_right named _) fun heads => ?_
  have bounded (numbered : TypeParameter × TypeParameterRecord) :
      readBounds ((context.rename f).withParameters (heads.map (TypeParameter.rename f)))
          (Prod.map (TypeParameter.rename f) id numbered) =
        (readBounds (context.withParameters heads) numbered).map (TypeParameter.rename f) := by
    rw [← ScopeContext.rename_withParameters]
    exact Except.bind_translate (mapM_translate_right ScopeContext.readType_rename _) fun types =>
      rfl
  rw [List.zip_map_left]
  exact mapM_translate bounded _

theorem readValueParameter_rename (record : ValueParameterRecord) :
    readValueParameter (context.rename f) record =
      (readValueParameter context record).map (ValueParameter.rename f) := by
  refine Except.bind_translate_right fun name => ?_
  refine Except.bind_translate (ScopeContext.readType_rename record.type) fun type => ?_
  refine Except.bind_translate
    (Option.mapM_translate ScopeContext.readType_rename record.varargElement) fun element => ?_
  exact Except.bind_translate_right fun annotations => rfl

theorem withRoot_rename (classId : ClassId) (supertypes : List Ty) :
    withRoot classId (supertypes.map (Ty.rename f)) =
      (withRoot classId supertypes).map (Ty.rename f) := by
  unfold withRoot
  rw [List.isEmpty_map]
  split <;> simp

/-- A function that is read at a renamed site is the renamed function, or cannot be read for the
same reason. -/
theorem readFunction_rename (record : FunctionRecord) :
    readFunction ⟨context.rename f, path⟩ (f id) record =
      (readFunction ⟨context, path⟩ id record).map (Declaration.rename f) := by
  refine Except.bind_translate_right fun name => reporting_translate ⟨context, path⟩ ?_
  refine Except.bind_translate (readTypeParameters_rename id record.typeParameters)
    fun parameters => ?_
  rw [← ScopeContext.rename_withParameters]
  refine Except.bind_translate (Option.mapM_translate ScopeContext.readType_rename record.receiver)
    fun receiver => ?_
  refine Except.bind_translate
    (mapM_translate_right readValueParameter_rename record.valueParameters) fun values => ?_
  refine Except.bind_translate (ScopeContext.readType_rename record.returnType) fun type => ?_
  refine Except.bind_translate_right fun annotations => ?_
  simp [ScopeContext.rename_owner, Declaration.rename, DeclKind.rename, pure, Except.pure,
    Except.map]

/-- A constructor that is read at a renamed site is the renamed constructor, or cannot be read for
the same reason. -/
theorem readConstructor_rename {data data' : ClassData}
    (self : data'.selfType = data.selfType.rename f) (owner : DeclId) (record : ConstructorRecord) :
    readConstructor ⟨context.rename f, path⟩ (f owner) data' (f id) record =
      (readConstructor ⟨context, path⟩ owner data id record).map (Declaration.rename f) := by
  refine reporting_translate ⟨context, path⟩ ?_
  refine Except.bind_translate
    (mapM_translate_right readValueParameter_rename record.valueParameters) fun values => ?_
  refine Except.bind_translate_right fun annotations => ?_
  simp [Declaration.rename, DeclKind.rename, self, pure, Except.pure, Except.map]

/-- A property that is read at a renamed site is the renamed property, or cannot be read for the
same reason. -/
theorem readProperty_rename (record : PropertyRecord) :
    readProperty ⟨context.rename f, path⟩ (f id) record =
      (readProperty ⟨context, path⟩ id record).map (Declaration.rename f) := by
  refine Except.bind_translate_right fun name => reporting_translate ⟨context, path⟩ ?_
  refine Except.bind_translate (readTypeParameters_rename id record.typeParameters)
    fun parameters => ?_
  rw [← ScopeContext.rename_withParameters]
  refine Except.bind_translate (Option.mapM_translate ScopeContext.readType_rename record.receiver)
    fun receiver => ?_
  refine Except.bind_translate (ScopeContext.readType_rename record.returnType) fun type => ?_
  refine Except.bind_translate_right fun annotations => ?_
  simp [ScopeContext.rename_owner, Declaration.rename, DeclKind.rename, pure, Except.pure,
    Except.map]

theorem readClassData_rename (classId : ClassId) (record : ClassRecord) :
    readClassData ⟨context.rename f, path⟩ (f id) classId record =
      (readClassData ⟨context, path⟩ id classId record).map (ClassData.rename f) := by
  have base : (context.rename f).enter (f id) [] (some (.ofRecord record.typeTable)) =
      (context.enter id [] (some (.ofRecord record.typeTable))).rename f :=
    (ScopeContext.rename_enter context id [] _).symm
  unfold readClassData
  dsimp only
  rw [base]
  refine Except.bind_translate (readTypeParameters_rename id record.typeParameters)
    fun parameters => ?_
  rw [← ScopeContext.rename_withParameters]
  refine Except.bind_translate (mapM_translate_right ScopeContext.readType_rename record.supertypes)
    fun supertypes => ?_
  simp [withRoot_rename, ClassData.rename, ClassMembers.rename, pure, Except.pure, Except.map]

/-- A class that is read at a renamed site is the renamed class, or cannot be read for the same
reason. -/
theorem readClass_rename (record : ClassRecord) :
    readClass ⟨context.rename f, path⟩ (f id) record =
      (readClass ⟨context, path⟩ id record).map (Declaration.rename f) := by
  refine Except.bind_translate_right fun classId => reporting_translate ⟨context, path⟩ ?_
  refine Except.bind_translate (readClassData_rename classId record) fun data => ?_
  refine Except.bind_translate_right fun annotations => ?_
  simp [ScopeContext.rename_owner, Declaration.rename, DeclKind.rename, pure, Except.pure,
    Except.map]

end Site

end ClassSymbols
