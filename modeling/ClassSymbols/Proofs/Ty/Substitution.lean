import ClassSymbols.Proofs.Data.Grouping
import ClassSymbols.Proofs.Ty.Parameters
import Mathlib.Data.List.Nodup

/-!
# Substitutions as maps

What a substitution replaces is a matter of looking up keys. The one of a supertype has an entry for
each argument. A composition has the replacements of the inner substitution, seen through the outer
one, and those of the outer one that the inner one does not cover, so to apply it is to apply the
inner and then the outer substitution.

## Main statements

* `Substitution.get?_ofSupertype` — what the arguments of a supertype replace.
* `Substitution.get?_compose` — what a composition replaces.
* `Ty.substitute_compose` — a composition applies the inner and then the outer substitution.
-/

namespace ClassSymbols

@[simp] theorem Ty.substitute_identity (type : Ty) : type.substitute .identity = type :=
  type.mapParameters_none

namespace Substitution

theorem entries_ofSupertype (owner : DeclId) (supertype : Ty) :
    (ofSupertype owner supertype).entries =
    supertype.arguments.zipIdx.map fun numbered =>
      ((owner, numbered.2), replacementOfArgument numbered.1) := by
  refine OrderedMap.entries_ofList ?_
  rw [List.map_map]
  refine List.Nodup.of_map Prod.snd ?_
  rw [List.map_map]
  change (supertype.arguments.zipIdx.map Prod.snd).Nodup
  rw [List.zipIdx_map_snd]
  exact List.nodup_range'

/-- The arguments of a supertype replace the parameters of its class that have their positions. -/
theorem get?_ofSupertype (owner : DeclId) (supertype : Ty) (key : DeclId × Nat) :
    (ofSupertype owner supertype).get? key =
      if key.1 = owner then supertype.arguments[key.2]?.map replacementOfArgument else none := by
  refine Option.ext fun type => ?_
  rw [← OrderedMap.mem_entries_iff, entries_ofSupertype, List.mem_map]
  obtain ⟨other, index⟩ := key
  split
  · next same =>
    obtain rfl : other = owner := same
    simp [List.mem_zipIdx_iff_getElem?]
  · next apart =>
    have apart : owner ≠ other := Ne.symm apart
    simp [apart]

variable (outer inner : Substitution)

/-- The composition lists the replacements of the inner substitution first. -/
theorem entries_compose : (outer.compose inner).entries =
    inner.entries.map (Prod.map id (·.substitute outer)) ++
      outer.entries.filter fun entry => !inner.contains entry.1 := by
  have nodup : ((inner.entries.map (Prod.map id (·.substitute outer)) ++
      outer.entries.filter fun entry => !inner.contains entry.1).map Prod.fst).Nodup := by
    rw [List.map_append, List.map_map, List.nodup_append]
    refine ⟨inner.nodup_keys, outer.nodup_keys.sublist (List.filter_sublist.map Prod.fst), ?_⟩
    rintro key ha _ hb rfl
    obtain ⟨entry, hb, rfl⟩ := List.mem_map.1 hb
    have known : inner.contains entry.1 = true := (inner.mem_keys_iff entry.1).1 ha
    simp [known] at hb
  exact OrderedMap.entries_ofList nodup

/-- A composition has the replacements of the inner substitution with the outer one applied to them,
and of the outer one what the inner one does not replace. -/
theorem get?_compose (key : DeclId × Nat) :
    (outer.compose inner).get? key = match inner.get? key with
      | some type => some (type.substitute outer)
      | none => outer.get? key := by
  rw [OrderedMap.get?, entries_compose, OrderedMap.lookup_append, OrderedMap.lookup_map,
    OrderedMap.lookup_filter fun key => !inner.contains key]
  unfold OrderedMap.contains OrderedMap.get?
  cases OrderedMap.lookup key inner.entries <;> simp

theorem replacement?_compose :
    (outer.compose inner).replacement? = Ty.andThen inner.replacement? outer.replacement? :=
  funext fun ref => get?_compose outer inner (ref.owner, ref.index)

end Substitution

/-- To apply a composition is to apply the inner substitution and then the outer one. -/
theorem Ty.substitute_compose (outer inner : Substitution) (type : Ty) :
    type.substitute (outer.compose inner) = (type.substitute inner).substitute outer := by
  rw [substitute, Substitution.replacement?_compose, ← mapParameters_mapParameters]
  rfl

end ClassSymbols
