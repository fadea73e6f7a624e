import ClassSymbols.Proofs.Table.Paths

/-!
# Class ids tell paths apart

When the strings of a table are nonempty and without dots, the package names and the class names on
the path of an entry can be read off its class id, and the id of a nested class is taken apart into
the enclosing class and the name.

## Main statements

* `NameTable.spelledId_eq_iff` — which paths spell the same class id.
* `NameTable.classId_lossless` — two entries have one class id iff their paths have the same names,
  and the id of a class entry is that of its parent with one more name.
-/

namespace ClassSymbols.NameTable

variable {names : NameTable} {index : UInt32} {path other : List (QualifiedNameKind × String)}
  {shortName : String}

/-! ## Names on a path -/

theorem IsPath.mem_strings (h : names.IsPath index path) :
    ∀ entry ∈ path, entry.2 ∈ names.strings := by
  induction h with
  | outermost found named => simpa using List.mem_of_getElem? named
  | inner found named rest ih => simpa using ⟨List.mem_of_getElem? named, fun _ _ => ih _⟩

theorem forall_mem_packageNames {P : String → Prop} (h : ∀ entry ∈ path, P entry.2) :
    ∀ name ∈ packageNames path, P name := by
  grind [packageNames]

theorem forall_mem_classNames {P : String → Prop} (h : ∀ entry ∈ path, P entry.2) :
    ∀ name ∈ classNames path, P name := by
  grind [classNames]

@[simp] theorem packageNames_cons_classifier (shortName : String)
    (path : List (QualifiedNameKind × String)) :
    packageNames ((.classifier, shortName) :: path) = packageNames path := by
  simp [packageNames]

@[simp] theorem classNames_cons_classifier (shortName : String)
    (path : List (QualifiedNameKind × String)) :
    classNames ((.classifier, shortName) :: path) = classNames path ++ [shortName] := by
  simp [classNames]

/-! ## Class ids -/

/-- Two paths of plain names spell one class id iff they have the same packages and the same
classes, and both have a local class or neither has. -/
theorem spelledId_eq_iff (plain : ∀ entry ∈ path, Text.IsPlain entry.2)
    (otherPlain : ∀ entry ∈ other, Text.IsPlain entry.2) :
    spelledId path = spelledId other ↔
      packageNames path = packageNames other ∧ classNames path = classNames other ∧
      ((∃ entry ∈ path, entry.1 = .localClass) ↔ ∃ entry ∈ other, entry.1 = .localClass) := by
  have packages : Text.dotted (packageNames path) = Text.dotted (packageNames other) ↔ _ :=
    Text.dotted_inj (forall_mem_packageNames plain) (forall_mem_packageNames otherPlain)
  have classes : Text.dotted (classNames path) = Text.dotted (classNames other) ↔ _ :=
    Text.dotted_inj (forall_mem_classNames plain) (forall_mem_classNames otherPlain)
  rw [← isLocal_spelledId, ← isLocal_spelledId, ← Bool.eq_iff_iff, ← packages, ← classes]
  exact Iff.of_eq (ClassId.mk.injEq ..)

/-- The class id of a class below a path is what the path spells with one more name, and is taken
apart into them. -/
theorem spelledId_cons_classifier (nonempty : classNames path ≠ [])
    (plain : ∀ entry ∈ path, Text.IsPlain entry.2) (last : Text.IsPlain shortName) :
    spelledId ((.classifier, shortName) :: path) = (spelledId path).nested shortName ∧
      (spelledId ((.classifier, shortName) :: path)).outer? = some (spelledId path) ∧
      (spelledId ((.classifier, shortName) :: path)).shortName = shortName := by
  have dotless : ∀ name ∈ classNames path, '.' ∉ name.toList :=
    fun name hn => (forall_mem_classNames plain name hn).2
  refine ⟨?_, ?_, ?_⟩
  · simp [spelledId, ClassId.nested, Text.dotted_concat nonempty]
  · simp [spelledId, ClassId.outer?, Text.outerSegments?_dotted_concat nonempty dotless last.2]
  · simp [spelledId, ClassId.shortName, Text.lastSegment_dotted_concat dotless last.2]

/-- In a table of nonempty strings without dots, two entries have one class id iff their paths have
the same packages and the same classes and both have a local class or neither has. The class id of a
class entry is that of its parent with one more name, and is taken apart into the two. -/
theorem classId_lossless (names : NameTable) (plain : ∀ text ∈ names.strings, Text.IsPlain text) :
    (∀ index other id otherId, names.classId index = .ok id → names.classId other = .ok otherId →
      ∃ path otherPath, names.IsPath index path ∧ names.IsPath other otherPath ∧
        (id = otherId ↔ packageNames path = packageNames otherPath ∧
          classNames path = classNames otherPath ∧
          ((∃ entry ∈ path, entry.1 = .localClass) ↔ ∃ entry ∈ otherPath, entry.1 = .localClass))) ∧
    (∀ index parent name shortName id outer,
      names.qualifiedNames[index.toNat]? = some ⟨some parent, name, .classifier⟩ →
      names.strings[name.toNat]? = some shortName →
      names.classId index = .ok id → names.classId parent = .ok outer →
        id = outer.nested shortName ∧ id.outer? = some outer ∧ id.shortName = shortName) := by
  have plainPath {index path} (h : names.IsPath index path) :
      ∀ entry ∈ path, Text.IsPlain entry.2 :=
    fun entry he => plain _ (h.mem_strings entry he)
  constructor
  · intro index other id otherId spelled otherSpelled
    obtain ⟨path, leads, -, -, rfl⟩ := classId_eq_ok_iff.1 spelled
    obtain ⟨otherPath, otherLeads, -, -, rfl⟩ := classId_eq_ok_iff.1 otherSpelled
    exact ⟨path, otherPath, leads, otherLeads,
      spelledId_eq_iff (plainPath leads) (plainPath otherLeads)⟩
  · intro index parent name shortName id outer found named spelled outerSpelled
    obtain ⟨path, leads, -, -, rfl⟩ := classId_eq_ok_iff.1 spelled
    obtain ⟨outerPath, outerLeads, -, some, rfl⟩ := classId_eq_ok_iff.1 outerSpelled
    obtain rfl := leads.unique (.inner found named outerLeads)
    exact spelledId_cons_classifier some (plainPath outerLeads)
      (plain _ (List.mem_of_getElem? named))

/-- A class in a class in two packages, and a class in a package in a class in a package. -/
def sharedNames : NameTable where
  strings := ["org", "demo", "Outer", "Inner"]
  qualifiedNames :=
    [⟨none, 0, .package⟩, ⟨some 0, 1, .package⟩, ⟨some 1, 2, .classifier⟩, ⟨some 2, 3, .classifier⟩,
    ⟨some 0, 2, .classifier⟩, ⟨some 4, 1, .package⟩, ⟨some 5, 3, .classifier⟩]

theorem classId_lossless_sharedNames :
    (∃ path otherPath, sharedNames.IsPath 3 path ∧ sharedNames.IsPath 6 otherPath ∧
      packageNames path = packageNames otherPath ∧ classNames path = classNames otherPath) ∧
    sharedNames.classId 3 = .ok (ClassId.nested ⟨"org.demo", "Outer", false⟩ "Inner") ∧
    (ClassId.mk "org.demo" "Outer.Inner" false).outer? = some ⟨"org.demo", "Outer", false⟩ ∧
    (ClassId.mk "org.demo" "Outer.Inner" false).shortName = "Inner" := by
  have lossless := classId_lossless sharedNames (by decide +kernel)
  have spelled : sharedNames.classId 3 = .ok ⟨"org.demo", "Outer.Inner", false⟩ := by decide +kernel
  have otherSpelled : sharedNames.classId 6 = .ok ⟨"org.demo", "Outer.Inner", false⟩ := by
    decide +kernel
  have outerSpelled : sharedNames.classId 2 = .ok ⟨"org.demo", "Outer", false⟩ := by decide +kernel
  obtain ⟨path, otherPath, leads, otherLeads, same⟩ := lossless.1 3 6 _ _ spelled otherSpelled
  have ⟨nested, enclosing, last⟩ := lossless.2 3 2 3 "Inner" _ _ rfl rfl spelled outerSpelled
  have ⟨packages, classes, _⟩ := same.1 rfl
  exact ⟨⟨path, otherPath, leads, otherLeads, packages, classes⟩, by rw [spelled, nested],
    enclosing, last⟩

end ClassSymbols.NameTable
