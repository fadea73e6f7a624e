import ClassSymbols.Proofs.Subtyping.Steps

/-!
# Subtyping of classes without arguments

Where classes list class types without arguments only, to follow supertypes is to walk along links
between classes, which may lead in a circle. Each link uses up one step of a comparison, so a
comparison ends, and it accepts what the walk reaches in as many links as there is room for. A walk
that meets the class without values has met a type below all.

## Main definitions

* `Store.Plain` — stores in which classes list class types without arguments.

## Main statements

* `Store.Plain.belowWithin_iff` — a comparison with any room.
* `holds_hierarchy_iff_leads` — the relation that follows supertypes, with the room that it has.
-/

namespace ClassSymbols

namespace Store

def Plain (store : Store) : Prop :=
  ∀ {k id supertype}, store.Lists k id supertype →
    ∃ l nullable, supertype = (Ty.ofClass l).withNullable nullable

variable {store : Store} {k l : ClassId} {nullable nullable' : Bool} {room : Nat}

/-- Without arguments there is nothing but the class and nullability to compare. -/
theorem structurallyBelow_ofClass_iff :
    ((Ty.ofClass k).withNullable nullable).structurallyBelow
      ((Ty.ofClass l).withNullable nullable') = true ↔
      (nullable = true → nullable' = true) ∧
        (k = .nothing ∨ (l = .any ∧ nullable' = true) ∨ k = l) := by
  rw [Ty.structurallyBelow_iff]
  simp [Ty.isNothing, Ty.isAny, Ty.classId?, Ty.ofClass, Ty.withNullable]

/-- A class is below the nullable root, and below the root if it is not nullable and there is room
for a step. -/
theorem belowWithin_any (le : nullable = true → nullable' = true)
    (above : nullable' = true ∨ 0 < room) :
    store.belowWithin room ((Ty.ofClass k).withNullable nullable)
      ((Ty.ofClass .any).withNullable nullable') = true := by
  by_cases top : nullable' = true
  · exact belowWithin_of_structurallyBelow
      (structurallyBelow_ofClass_iff.2 ⟨le, .inr (.inl ⟨rfl, top⟩)⟩)
  · obtain ⟨less, rfl⟩ : ∃ less, room = less + 1 :=
      ⟨room - 1, by have := above.resolve_left top; omega⟩
    exact belowWithin_succ_iff.2 (.root rfl (Bool.eq_false_iff.2 (mt le top)))

namespace Plain

variable (plain : store.Plain)
include plain

/-- The supertypes of a class are those that it links to. -/
theorem mem_supertypesOf_iff {supertype : Ty} :
    supertype ∈ store.supertypesOf ((Ty.ofClass k).withNullable nullable) ↔
      ∃ j, store.LinksTo k j ∧ (Ty.ofClass j).withNullable nullable = supertype := by
  rw [Store.mem_supertypesOf_iff]
  constructor
  · rintro ⟨_, id, listed, named, lists, rfl⟩
    obtain rfl := Option.some.inj named
    obtain ⟨j, nullable', rfl⟩ := plain lists
    exact ⟨j, ⟨id, _, lists, rfl⟩, rfl⟩
  · rintro ⟨j, ⟨id, listed, lists, named⟩, rfl⟩
    obtain ⟨j', nullable', rfl⟩ := plain lists
    obtain rfl : j' = j := Option.some.inj named
    exact ⟨k, id, _, rfl, lists, rfl⟩

/-- A walk along links is followed as far as there is room, to the other class or to the class
without values. -/
theorem belowWithin_of_leads (le : nullable = true → nullable' = true) {links : Nat}
    (within : links ≤ room) {m : ClassId} (leads : Leads store.LinksTo links k m)
    (ends : m = .nothing ∨ m = l) :
    store.belowWithin room ((Ty.ofClass k).withNullable nullable)
      ((Ty.ofClass l).withNullable nullable') = true := by
  induction leads generalizing room with
  | refl =>
    exact belowWithin_of_structurallyBelow
      (structurallyBelow_ofClass_iff.2 ⟨le, ends.imp_right .inr⟩)
  | @head links k j _ step rest ih =>
    by_cases same : k = l
    · exact belowWithin_of_structurallyBelow
        (structurallyBelow_ofClass_iff.2 ⟨le, .inr (.inr same)⟩)
    -- the first link leads to a supertype from which there is less to go
    obtain ⟨less, rfl⟩ : ∃ less, room = less + 1 := ⟨room - 1, by omega⟩
    have mem : (Ty.ofClass j).withNullable nullable ∈
      store.supertypesOf ((Ty.ofClass k).withNullable nullable) :=
      plain.mem_supertypesOf_iff.2 ⟨j, step, rfl⟩
    exact belowWithin_succ_iff.2
      (.supertype rfl rfl same le mem (ih (Nat.le_of_succ_le_succ within) ends))

/-- A comparison that accepts has met the root, or has walked to the other class or to the class
without values. -/
theorem exists_leads_of_belowWithin
    (h : store.belowWithin room ((Ty.ofClass k).withNullable nullable)
      ((Ty.ofClass l).withNullable nullable') = true) :
    (nullable = true → nullable' = true) ∧ ((l = .any ∧ (nullable' = true ∨ 0 < room)) ∨
      ∃ links ≤ room, ∃ m, Leads store.LinksTo links k m ∧ (m = .nothing ∨ m = l)) := by
  have here {room : Nat} {k : ClassId} (ends : k = .nothing ∨ k = l) :
      ∃ links ≤ room, ∃ m, Leads store.LinksTo links k m ∧ (m = .nothing ∨ m = l) :=
    ⟨0, Nat.zero_le room, k, .refl k, ends⟩
  have alike {room : Nat} {k : ClassId}
      (h : ((Ty.ofClass k).withNullable nullable).structurallyBelow
        ((Ty.ofClass l).withNullable nullable') = true) :
      (nullable = true → nullable' = true) ∧ ((l = .any ∧ (nullable' = true ∨ 0 < room)) ∨
        ∃ links ≤ room, ∃ m, Leads store.LinksTo links k m ∧ (m = .nothing ∨ m = l)) := by
    obtain ⟨le, nothing | ⟨root, top⟩ | same⟩ := structurallyBelow_ofClass_iff.1 h
    · exact ⟨le, .inr (here (.inl nothing))⟩
    · exact ⟨le, .inl ⟨root, .inl top⟩⟩
    · exact ⟨le, .inr (here (.inr same))⟩
  induction room generalizing k with
  | zero => exact alike h
  | succ room ih =>
    cases belowWithin_succ_iff.1 h with
    | structural h => exact alike h
    | root root same =>
      obtain rfl : nullable = false := same
      exact ⟨nofun, .inl ⟨Option.some.inj (Ty.isAny_iff.1 root), .inr (Nat.succ_pos room)⟩⟩
    | arguments hsub hsup le =>
      exact ⟨le, .inr (here (.inr (Option.some.inj (hsub.trans hsup.symm))))⟩
    | supertype _ _ _ le mem h =>
      obtain ⟨j, step, rfl⟩ := plain.mem_supertypesOf_iff.1 mem
      obtain ⟨-, ⟨root, -⟩ | ⟨links, within, m, leads, ends⟩⟩ := ih h
      · exact ⟨le, .inl ⟨root, .inr (Nat.succ_pos room)⟩⟩
      · exact ⟨le, .inr ⟨links + 1, Nat.succ_le_succ within, m, .head step leads, ends⟩⟩

/-- Two class types without arguments compare as their nullability does, if the second one is the
root, or if the first class leads to the second one or to the class without values in as many links
as there is room for. With no room at all only the nullable root is known to be above all. -/
theorem belowWithin_iff :
    store.belowWithin room ((Ty.ofClass k).withNullable nullable)
      ((Ty.ofClass l).withNullable nullable') = true ↔
      (nullable = true → nullable' = true) ∧ ((l = .any ∧ (nullable' = true ∨ 0 < room)) ∨
        ∃ links ≤ room, Leads store.LinksTo links k l ∨ Leads store.LinksTo links k .nothing) := by
  constructor
  · intro h
    obtain ⟨le, root | ⟨links, within, m, leads, rfl | rfl⟩⟩ := plain.exists_leads_of_belowWithin h
    · exact ⟨le, .inl root⟩
    · exact ⟨le, .inr ⟨links, within, .inr leads⟩⟩
    · exact ⟨le, .inr ⟨links, within, .inl leads⟩⟩
  · rintro ⟨le, ⟨rfl, room⟩ | ⟨links, within, leads | leads⟩⟩
    · exact belowWithin_any le room
    · exact plain.belowWithin_of_leads le within leads (.inr rfl)
    · exact plain.belowWithin_of_leads le within leads (.inl rfl)

end Plain

end Store

/-- Between class types without arguments, the relation that follows supertypes is reachability in
at most 128 links. A class is below the root, and below all if it reaches the class without
values. -/
theorem holds_hierarchy_iff_leads {store : Store} (plain : store.Plain) (k l : ClassId)
    (nullable nullable' : Bool) :
    TypeRelation.hierarchy.holds store ((Ty.ofClass k).withNullable nullable)
        ((Ty.ofClass l).withNullable nullable') = true ↔
      (nullable = true → nullable' = true) ∧
        (l = .any ∨
          ∃ links ≤ 128, Leads store.LinksTo links k l ∨ Leads store.LinksTo links k .nothing) := by
  have room : 0 < Limits.typeDepth := by decide
  refine plain.belowWithin_iff.trans (and_congr_right fun _ => or_congr_left ?_)
  exact and_iff_left (.inr room)

/-- Two classes that list one another, one of which also lists a class that is not stored. -/
def circular : List Declaration :=
  [.plainClass ⟨1⟩ "Ping" ["Pong"] [], .plainClass ⟨2⟩ "Pong" ["Ping", "Missing", "Ping"] []]

/-- The first class is below the missing one, by way of the second class. -/
theorem holds_hierarchy_iff_leads_circular :
    let store := Store.empty.receive ⟨3⟩ circular
    store.Plain ∧ Leads store.LinksTo 2 ⟨"", "Ping", false⟩ ⟨"", "Missing", false⟩ ∧
      TypeRelation.hierarchy.holds store (.ofClass ⟨"", "Ping", false⟩)
        (Ty.ofClass ⟨"", "Missing", false⟩).makeNullable = true := by
  intro store
  have plain : store.Plain := by
    intro k id supertype lists
    have each : ∀ declaration ∈ circular,
      ∀ data ∈ declaration.class?, ∀ supertype ∈ data.supertypes,
        ∃ l ∈ supertype.classId?, supertype = (Ty.ofClass l).withNullable supertype.nullable := by
          decide
    obtain ⟨l, -, same⟩ := lists.of_declared each
    exact ⟨l, _, same⟩
  have ping : store.LinksTo ⟨"", "Ping", false⟩ ⟨"", "Pong", false⟩ :=
    ⟨⟨1⟩, .ofClass ⟨"", "Pong", false⟩, ⟨rfl, _, ⟨_, rfl, rfl⟩, by simp⟩, rfl⟩
  have pong : store.LinksTo ⟨"", "Pong", false⟩ ⟨"", "Missing", false⟩ :=
    ⟨⟨2⟩, .ofClass ⟨"", "Missing", false⟩, ⟨rfl, _, ⟨_, rfl, rfl⟩, by simp⟩, rfl⟩
  have leads := Leads.head ping (.head pong (.refl _))
  refine ⟨plain, leads, ?_⟩
  exact (holds_hierarchy_iff_leads plain _ _ false true).2 ⟨nofun, .inr ⟨2, by decide, .inl leads⟩⟩

end ClassSymbols
