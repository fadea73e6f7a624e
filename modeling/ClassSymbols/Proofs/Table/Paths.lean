import ClassSymbols.Proofs.Data.Traversal
import ClassSymbols.Proofs.Text.Dotted
import ClassSymbols.Table.Names

/-!
# Paths of qualified names

The parent links of an entry lead to an entry without a parent, out of the table, or round a cycle.
The class id of the entry is what a path of the first sort spells, if the path is not too long. In a
validated table no link leads out of the table, so a path that is given up has too many entries, and
one round a cycle has.

## Main definitions

* `NameTable.IsPath` — the kinds and short names of the entries that the parent links lead through.
* `NameTable.ancestor?` — the entry some parent links away.
* `NameTable.packageNames`, `NameTable.classNames` — the names on a path, outermost first.

## Main statements

* `NameTable.path_eq_ok_iff`, `NameTable.path_eq_error_iff` — what following the links gives.
* `NameTable.classId_exact` — what the class id of an entry is, and why an entry of a validated
  table has none.
-/

namespace ClassSymbols.NameTable

variable {names : NameTable} {index : UInt32} {path : List (QualifiedNameKind × String)}
  {room : Nat}

/-- The kinds and short names of the entries that the parent links lead through, the entry `index`
first and an entry without a parent last. -/
inductive IsPath (names : NameTable) : UInt32 → List (QualifiedNameKind × String) → Prop where
  | outermost {index name : UInt32} {kind : QualifiedNameKind} {shortName : String}
      (found : names.qualifiedNames[index.toNat]? = some ⟨none, name, kind⟩)
      (named : names.strings[name.toNat]? = some shortName) : IsPath names index [(kind, shortName)]
  | inner {index parent name : UInt32} {kind : QualifiedNameKind} {shortName : String}
      {path : List (QualifiedNameKind × String)}
      (found : names.qualifiedNames[index.toNat]? = some ⟨some parent, name, kind⟩)
      (named : names.strings[name.toNat]? = some shortName) (rest : IsPath names parent path) :
      IsPath names index ((kind, shortName) :: path)

def parent? (names : NameTable) (index : UInt32) : Option UInt32 :=
  names.qualifiedNames[index.toNat]?.bind (·.parent)

def ancestor? (names : NameTable) : Nat → UInt32 → Option UInt32
  | 0, index => some index
  | links + 1, index => (names.parent? index).bind (names.ancestor? links)

def packageNames (path : List (QualifiedNameKind × String)) : List String :=
  ((path.filter (·.1 == .package)).map Prod.snd).reverse

def classNames (path : List (QualifiedNameKind × String)) : List String :=
  ((path.filter (·.1 != .package)).map Prod.snd).reverse

def spelledId (path : List (QualifiedNameKind × String)) : ClassId where
  package := Text.dotted (packageNames path)
  relative := Text.dotted (classNames path)
  isLocal := path.any (·.1 == .localClass)

/-! ## Lookups -/

theorem qualifiedName_eq_ok_iff {entry : QualifiedNameRecord} :
    names.qualifiedName index = .ok entry ↔ names.qualifiedNames[index.toNat]? = some entry := by
  cases h : names.qualifiedNames[index.toNat]? <;> simp [qualifiedName, h]

theorem string_eq_ok_iff {text : String} :
    names.string index = .ok text ↔ names.strings[index.toNat]? = some text := by
  cases h : names.strings[index.toNat]? <;> simp [string, h]

/-- A table is accepted iff every entry has a short name, and a parent if it is linked to one, but
not itself. -/
theorem validate_eq_ok_iff : names.validate = .ok () ↔
    ∀ (position : Nat) (entry : QualifiedNameRecord), names.qualifiedNames[position]? = some entry →
      entry.shortName.toNat < names.strings.length ∧
        ∀ parent, entry.parent = some parent →
          parent.toNat < names.qualifiedNames.length ∧ parent.toNat ≠ position := by
  have sound (position : Nat) (entry : QualifiedNameRecord) : names.fault? position entry = none ↔
      entry.shortName.toNat < names.strings.length ∧
        ∀ parent, entry.parent = some parent →
          parent.toNat < names.qualifiedNames.length ∧ parent.toNat ≠ position := by
    cases linked : entry.parent <;> grind [fault?]
  rw [validate]
  split
  · next fault found =>
    obtain ⟨⟨entry, position⟩, listed, faulty⟩ := List.exists_of_findSome?_eq_some found
    refine iff_of_false nofun fun all => ?_
    cases ((sound position entry).2
      (all position entry (List.mem_zipIdx_iff_getElem?.1 listed))).symm.trans faulty
  · next found =>
    refine iff_of_true rfl fun position entry listed => (sound position entry).1 ?_
    exact List.findSome?_eq_none_iff.1 found (entry, position)
      (List.mem_zipIdx_iff_getElem?.2 listed)

/-! ## Paths -/

theorem IsPath.length_pos (h : names.IsPath index path) : 0 < path.length := by
  cases h <;> simp

/-- The links of an entry lead through one path at most. -/
theorem IsPath.unique {other : List (QualifiedNameKind × String)} (h : names.IsPath index path)
    (ho : names.IsPath index other) : path = other := by
  induction h generalizing other with
  | outermost found named => cases ho <;> grind
  | inner found named rest ih => cases ho <;> grind

/-- As many links can be followed as there are entries on the path after the first. -/
theorem IsPath.isSome_ancestor?_iff (h : names.IsPath index path) (links : Nat) :
    (names.ancestor? links index).isSome ↔ links < path.length := by
  induction h generalizing links with
  | outermost found named => cases links <;> simp [ancestor?, parent?, found]
  | inner found named rest ih => cases links <;> simp [ancestor?, parent?, found, ih]

theorem ancestor?_add (first links : Nat) (index : UInt32) :
    names.ancestor? (first + links) index =
      (names.ancestor? first index).bind (names.ancestor? links) := by
  induction first generalizing index with
  | zero => simp [ancestor?]
  | succ first ih => rw [Nat.succ_add, ancestor?, ancestor?, Option.bind_assoc, funext ih]

/-- A shorter way can be followed where a longer one can. -/
theorem isSome_ancestor?_of_le {fewer links : Nat} (le : fewer ≤ links)
    (h : (names.ancestor? links index).isSome) : (names.ancestor? fewer index).isSome := by
  obtain ⟨more, rfl⟩ := Nat.exists_eq_add_of_le le
  rw [ancestor?_add] at h
  exact Option.isSome_of_isSome_bind h

/-- From an entry on a cycle, or under one, the links can be followed without end. -/
theorem isSome_ancestor?_of_cycle {reached period : Nat} {entry : UInt32}
    (under : names.ancestor? reached index = some entry)
    (cycle : names.ancestor? (period + 1) entry = some entry) (links : Nat) :
    (names.ancestor? links index).isSome := by
  have around (turns : Nat) : names.ancestor? (turns * (period + 1)) entry = some entry := by
    induction turns with
    | zero => simp [ancestor?]
    | succ turns ih => rw [Nat.succ_mul, ancestor?_add, ih, Option.bind_some, cycle]
  have far : (names.ancestor? (reached + links * (period + 1)) index).isSome := by
    rw [ancestor?_add, under, Option.bind_some, around]
    rfl
  have near : links ≤ reached + links * (period + 1) :=
    (Nat.le_mul_of_pos_right links (Nat.succ_pos period)).trans (Nat.le_add_left _ reached)
  exact isSome_ancestor?_of_le near far

/-! ## Following the links -/

/-- Following the links gives the path, if there is one with no more entries than there is room
for. -/
theorem path_eq_ok_iff (start : UInt32) :
    names.path start room index = .ok path ↔ names.IsPath index path ∧ path.length ≤ room := by
  induction room generalizing index path with
  | zero =>
    refine iff_of_false (by simp [NameTable.path]) fun ⟨h, short⟩ => ?_
    have := h.length_pos
    omega
  | succ room ih =>
    simp only [NameTable.path, Except.bind_eq_ok_iff, qualifiedName_eq_ok_iff, string_eq_ok_iff]
    constructor
    · rintro ⟨⟨parent?, name, kind⟩, found, shortName, named, h⟩
      cases parent? with
      | none =>
        obtain rfl : [(kind, shortName)] = path := by simpa [pure, Except.pure] using h
        exact ⟨.outermost found named, by simp⟩
      | some parent =>
        simp only [Except.bind_eq_ok_iff, ih] at h
        obtain ⟨rest, ⟨leads, short⟩, h⟩ := h
        obtain rfl := Except.ok.inj h
        exact ⟨.inner found named leads, by simpa using short⟩
    · rintro ⟨h, short⟩
      cases h with
      | outermost found named => exact ⟨_, found, _, named, rfl⟩
      | inner found named rest =>
        refine ⟨_, found, _, named, ?_⟩
        simp only [Except.bind_eq_ok_iff]
        exact ⟨_, ih.2 ⟨rest, by simpa using short⟩, rfl⟩

/-- The path of an entry of a validated table is given up iff there are more links than there is
room for. -/
theorem path_eq_error_iff (valid : names.validate = .ok ())
    (inside : index.toNat < names.qualifiedNames.length) {start : UInt32} {error : TableError} :
    names.path start room index = .error error ↔
      error = .corrupt "qualified name" s!"parent links of entry #{start} form a cycle" ∧
        (names.ancestor? room index).isSome := by
  induction room generalizing index with
  | zero => simp [NameTable.path, ancestor?, eq_comm]
  | succ room ih =>
    have found := List.getElem?_eq_getElem inside
    have ⟨short, linkedInside⟩ := validate_eq_ok_iff.1 valid _ _ found
    simp only [ancestor?, parent?, found, Option.bind_some]
    generalize names.qualifiedNames[index.toNat] = entry at found short linkedInside ⊢
    have named := List.getElem?_eq_getElem short
    simp only [NameTable.path, qualifiedName_eq_ok_iff.2 found, string_eq_ok_iff.2 named, bind,
      Except.bind]
    cases linked : entry.parent with
    | none => simp [pure, Except.pure]
    | some parent =>
      have later := ih (linkedInside parent linked).1
      cases given : names.path start room parent <;> simp_all [pure, Except.pure]

/-! ## Class ids -/

theorem classNames_eq_nil_iff : classNames path = [] ↔ ∀ entry ∈ path, entry.1 = .package := by
  simp [classNames, List.filter_eq_nil_iff]

theorem isLocal_spelledId (path : List (QualifiedNameKind × String)) :
    (spelledId path).isLocal ↔ ∃ entry ∈ path, entry.1 = .localClass := by
  simp [spelledId]

theorem classIdOfPath?_eq (path : List (QualifiedNameKind × String)) :
    classIdOfPath? path = if classNames path = [] then none else some (spelledId path) := by
  by_cases none : path.filter (·.1 != .package) = [] <;>
    simp [classIdOfPath?, spelledId, packageNames, classNames, List.filter_reverse, none]

theorem classId_eq (names : NameTable) (index : UInt32) :
    names.classId index = (names.path index Limits.qualifiedNameDepth index).bind fun path =>
      if classNames path = [] then .error (.notAClassName index) else .ok (spelledId path) := by
  rw [classId]
  refine bind_congr fun path => ?_
  by_cases none : classNames path = [] <;>
    simp only [classIdOfPath?_eq, none, if_true, if_false] <;> rfl

theorem classId_eq_ok_iff {id : ClassId} : names.classId index = .ok id ↔
    ∃ path, names.IsPath index path ∧ path.length ≤ Limits.qualifiedNameDepth ∧
      classNames path ≠ [] ∧ spelledId path = id := by
  have spelled (path : List (QualifiedNameKind × String)) :
      (if classNames path = [] then Except.error (TableError.notAClassName index)
        else .ok (spelledId path)) = .ok id ↔
        classNames path ≠ [] ∧ spelledId path = id := by
    by_cases none : classNames path = [] <;> simp [none]
  rw [classId_eq]
  refine Except.bind_eq_ok_iff.trans (exists_congr fun path => ?_)
  rw [path_eq_ok_iff, spelled, and_assoc]

theorem classId_eq_error_iff {error : TableError} : names.classId index = .error error ↔
    (error = .notAClassName index ∧
      ∃ path, names.IsPath index path ∧ path.length ≤ Limits.qualifiedNameDepth ∧
      classNames path = []) ∨ names.path index Limits.qualifiedNameDepth index = .error error := by
  simp only [← and_assoc, ← path_eq_ok_iff index, classId_eq]
  cases names.path index Limits.qualifiedNameDepth index <;> grind [Except.bind]

/-- An entry has a class id iff its parent links end after at most 256 entries and a class is among
them. The id joins the packages and the classes on the path by dots, outermost first, and is local
iff a local class is among them. In a validated table an entry has no class id only because there is
no class on its path or because the links can be followed 256 times, which they can be round a
cycle. -/
theorem classId_exact (names : NameTable) (index : UInt32) :
    (∀ id, names.classId index = .ok id ↔ ∃ path, names.IsPath index path ∧ path.length ≤ 256 ∧
      (∃ entry ∈ path, entry.1 ≠ .package) ∧ id.package = ".".intercalate (packageNames path) ∧
      id.relative = ".".intercalate (classNames path) ∧
      (id.isLocal ↔ ∃ entry ∈ path, entry.1 = .localClass)) ∧
    (names.validate = .ok () → index.toNat < names.qualifiedNames.length →
      ∀ error, names.classId index = .error error ↔
        (error = .notAClassName index ∧
          ∃ path, names.IsPath index path ∧ path.length ≤ 256 ∧
            ∀ entry ∈ path, entry.1 = .package) ∨
        (error = .corrupt "qualified name" s!"parent links of entry #{index} form a cycle" ∧
          (names.ancestor? 256 index).isSome)) ∧
    (∀ path, names.IsPath index path →
      ∀ links, (names.ancestor? links index).isSome ↔ links < path.length) ∧
    (∀ reached period entry, names.ancestor? reached index = some entry →
      names.ancestor? (period + 1) entry = some entry →
      ∀ links, (names.ancestor? links index).isSome) := by
  refine ⟨fun id => ?_, fun valid inside error => ?_, fun path h => h.isSome_ancestor?_iff,
    fun reached period entry => isSome_ancestor?_of_cycle⟩
  · have spelled (path : List (QualifiedNameKind × String)) :
        classNames path ≠ [] ∧ spelledId path = id ↔
          (∃ entry ∈ path, entry.1 ≠ .package) ∧ id.package = ".".intercalate (packageNames path) ∧
            id.relative = ".".intercalate (classNames path) ∧
              (id.isLocal ↔ ∃ entry ∈ path, entry.1 = .localClass) := by
      rw [Ne, classNames_eq_nil_iff, ← isLocal_spelledId, ← Bool.eq_iff_iff]
      cases id
      simp only [spelledId, Text.dotted_eq_intercalate, ClassId.mk.injEq, eq_comm]
      grind
    simp only [classId_eq_ok_iff, spelled, Limits.qualifiedNameDepth]
  · simp only [classId_eq_error_iff, path_eq_error_iff valid inside, classNames_eq_nil_iff,
      Limits.qualifiedNameDepth]

/-- A local class in a package in a class in a package, and two entries that are each other's
parents. -/
def entangled : NameTable where
  strings := ["org", "demo", "Outer", "Inner"]
  qualifiedNames :=
    [⟨none, 0, .package⟩, ⟨some 0, 2, .classifier⟩, ⟨some 1, 1, .package⟩, ⟨some 2, 3, .localClass⟩,
    ⟨some 5, 0, .package⟩, ⟨some 4, 2, .classifier⟩]

theorem classId_exact_entangled : entangled.validate = .ok () ∧
    entangled.classId 3 = .ok ⟨"org.demo", "Outer.Inner", true⟩ ∧
    entangled.classId 0 = .error (.notAClassName 0) ∧
    entangled.classId 4 = .error
      (.corrupt "qualified name" "parent links of entry #4 form a cycle") := by
  have valid : entangled.validate = .ok () := by decide +kernel
  refine ⟨valid, ?_, ?_, ?_⟩
  · have leads : entangled.IsPath 3
        [(.localClass, "Inner"), (.package, "demo"), (.classifier, "Outer"), (.package, "org")] :=
      .inner rfl rfl (.inner rfl rfl (.inner rfl rfl (.outermost rfl rfl)))
    exact ((classId_exact entangled 3).1 _).2
      ⟨_, leads, by decide, by decide, by decide +kernel, by decide +kernel, by decide⟩
  · exact ((classId_exact entangled 0).2.1 valid (by decide) _).2
      (.inl ⟨rfl, _, .outermost rfl rfl, by decide, by decide⟩)
  · have followed := (classId_exact entangled 4).2.2.2 0 1 4 rfl rfl 256
    exact ((classId_exact entangled 4).2.1 valid (by decide) _).2
      (.inr ⟨by decide +kernel, followed⟩)

end ClassSymbols.NameTable
