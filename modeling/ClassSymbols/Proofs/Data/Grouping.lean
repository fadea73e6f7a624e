import ClassSymbols.Data.OrderedMap
import Mathlib.Data.List.Basic
import Mathlib.Data.List.Induction

/-!
# Grouped lists in ordered maps

An entry of a map is what the map has under its key. A map whose values are lists grows by appending
to one of them; then its listing grows by one element, and no other group changes. A list that is
grouped element by element has its keys in the order of their first elements.

## Main definitions

* `Blocks` — whether a list falls into one block for each key.

## Main statements

* `OrderedMap.mem_entries_iff` — the entries are the view of the map.
* `OrderedMap.flatten_alter_perm` — appending to a group adds one element to the listing.
* `OrderedMap.keys_foldl_alter`, `OrderedMap.getD_foldl_alter` — the keys and the groups of a
  grouped list.
* `Blocks.eq_flatMap_filter`, `Blocks.eraseDups_keys` — a list in blocks lists the elements of each
  key in turn.
-/

namespace ClassSymbols

/-! ## First occurrences -/

section FirstOccurrences

variable {κ α : Type} [DecidableEq κ] [DecidableEq α]

theorem eraseDups_concat (list : List κ) (k : κ) :
    (list ++ [k]).eraseDups = if k ∈ list then list.eraseDups else list.eraseDups ++ [k] := by
  rw [List.eraseDups_append]
  by_cases known : k ∈ list <;> simp [List.removeAll, List.eraseDups_cons, known]

/-- Repetitions do not matter to the first occurrences of what is made from a list. -/
theorem eraseDups_filterMap_eraseDups (f : α → Option κ) (list : List α) :
    (list.eraseDups.filterMap f).eraseDups = (list.filterMap f).eraseDups := by
  induction list using List.reverseRecOn with
  | nil => rfl
  | append_singleton list a ih =>
    rw [eraseDups_concat, List.filterMap_append]
    cases made : f a with
    | none => split <;> simp [made, ih]
    | some k =>
      have last : [a].filterMap f = [k] := by simp [made]
      rw [last, eraseDups_concat]
      by_cases known : a ∈ list
      · rw [if_pos known, if_pos (List.mem_filterMap.2 ⟨a, known, made⟩), ih]
      · rw [if_neg known, List.filterMap_append, last, eraseDups_concat, ih]
        simp

end FirstOccurrences

namespace OrderedMap

/-! ## Entries -/

variable {κ α : Type} [DecidableEq κ]

theorem lookup_eq_some_iff {entries : List (κ × α)} (h : (entries.map Prod.fst).Nodup) {k : κ}
    {a : α} : lookup k entries = some a ↔ (k, a) ∈ entries := by
  induction entries with
  | nil => simp [lookup]
  | cons entry rest ih =>
    obtain ⟨j, b⟩ := entry
    rw [List.map_cons, List.nodup_cons] at h
    by_cases hj : j = k
    · subst hj
      have absent : (j, a) ∉ rest := fun hm => h.1 (List.mem_map.2 ⟨_, hm, rfl⟩)
      simp [lookup, absent, eq_comm]
    · simp [lookup, hj, ih h.2, Ne.symm hj]

theorem mem_entries_iff (m : OrderedMap κ α) {k : κ} {a : α} :
    (k, a) ∈ m.entries ↔ m.get? k = some a :=
  (lookup_eq_some_iff m.nodup_keys).symm

/-- The entries are what the map has under its keys. -/
theorem entries_eq_map_keys (m : OrderedMap κ α) (default : α) :
    m.entries = m.keys.map fun k => (k, (m.get? k).getD default) := by
  have own : ∀ entry ∈ m.entries, (entry.1, (m.get? entry.1).getD default) = entry :=
    fun entry listed => by
    rw [m.mem_entries_iff.1 listed, Option.getD_some]
  rw [keys, List.map_map]
  exact ((List.map_congr_left own).trans (List.map_id _)).symm

theorem values_eq_map_keys (m : OrderedMap κ α) (default : α) :
    m.values = m.keys.map fun k => (m.get? k).getD default := by
  rw [values, m.entries_eq_map_keys default, List.map_map]
  rfl

/-- A map has at most one entry for a key. -/
theorem filter_entries (m : OrderedMap κ α) (k : κ) :
    m.entries.filter (·.1 = k) = ((m.get? k).map (k, ·)).toList := by
  obtain ⟨entries, nodup⟩ := m
  change entries.filter (·.1 = k) = ((lookup k entries).map (k, ·)).toList
  induction entries with
  | nil => rfl
  | cons entry rest ih =>
    obtain ⟨j, a⟩ := entry
    obtain ⟨new, nodup'⟩ := List.nodup_cons.1 nodup
    by_cases own : j = k
    · subst own
      have others : rest.filter (·.1 = j) = [] := List.filter_eq_nil_iff.2 fun other ho same =>
        new (List.mem_map.2 ⟨other, ho, of_decide_eq_true same⟩)
      simp [lookup, others]
    · simp [lookup, own, ih nodup']

theorem lookup_append (k : κ) (before after : List (κ × α)) :
    lookup k (before ++ after) = (lookup k before).or (lookup k after) := by
  induction before with
  | nil => rfl
  | cons entry rest ih => grind [lookup]

theorem lookup_map {β : Type} (f : α → β) (k : κ) (entries : List (κ × α)) :
    lookup k (entries.map (Prod.map id f)) = (lookup k entries).map f := by
  induction entries with
  | nil => rfl
  | cons entry rest ih => grind [lookup]

theorem lookup_filter (p : κ → Bool) (k : κ) (entries : List (κ × α)) :
    lookup k (entries.filter fun entry => p entry.1) = if p k then lookup k entries else none := by
  induction entries with
  | nil => simp [lookup]
  | cons entry rest ih => grind [lookup]

theorem replaceOrAppend_of_lookup_eq_none {k : κ} {a : α} {entries : List (κ × α)}
    (absent : lookup k entries = none) : replaceOrAppend k a entries = entries ++ [(k, a)] := by
  induction entries with
  | nil => rfl
  | cons entry rest ih =>
    obtain ⟨j, b⟩ := entry
    by_cases hj : j = k
    · simp [lookup, hj] at absent
    · simp only [lookup, hj, if_false] at absent
      simp [replaceOrAppend, hj, ih absent]

/-- The entry of a new key comes last. -/
theorem entries_insert_of_get?_eq_none {m : OrderedMap κ α} {k : κ} {a : α}
    (absent : m.get? k = none) :
    (m.insert k a).entries = m.entries ++ [(k, a)] :=
  replaceOrAppend_of_lookup_eq_none absent

/-- The value of a new key comes last. -/
theorem values_insert_of_get?_eq_none {m : OrderedMap κ α} {k : κ} {a : α}
    (absent : m.get? k = none) :
    (m.insert k a).values = m.values ++ [a] := by
  simp [values, entries_insert_of_get?_eq_none absent]

@[simp] theorem get?_alter (m : OrderedMap κ α) (k j : κ) (f : Option α → α) :
    (m.alter k f).get? j = if k = j then some (f (m.get? k)) else m.get? j := by
  simp [alter]

omit [DecidableEq κ] in
@[simp] theorem keys_empty : (empty : OrderedMap κ α).keys = [] := rfl

theorem keys_alter (m : OrderedMap κ α) (k : κ) (f : Option α → α) :
    (m.alter k f).keys = if k ∈ m.keys then m.keys else m.keys ++ [k] :=
  m.keys_insert k _

/-- Pairs with different keys are the entries of the map that stores them in turn. -/
theorem entries_ofList {pairs : List (κ × α)} (nodup : (pairs.map Prod.fst).Nodup) :
    (ofList pairs).entries = pairs := by
  unfold ofList
  induction pairs using List.reverseRecOn with
  | nil => rfl
  | append_singleton before pair ih =>
    rw [List.map_append, List.nodup_append] at nodup
    obtain ⟨others, -, apart⟩ := nodup
    have stored := ih others
    rw [List.foldl_append, List.foldl_cons, List.foldl_nil, entries_insert_of_get?_eq_none, stored]
    -- a key that is there is the key of an earlier pair
    rw [Option.eq_none_iff_forall_ne_some]
    intro a found
    rw [← mem_entries_iff, stored] at found
    exact apart _ (List.mem_map_of_mem found) _ (by simp) rfl

/-- What a map has that stores pairs in turn is in one of them. -/
theorem mem_of_get?_ofList {pairs : List (κ × α)} {k : κ} {a : α}
    (found : (ofList pairs).get? k = some a) :
    (k, a) ∈ pairs := by
  unfold ofList at found
  induction pairs using List.reverseRecOn with
  | nil => cases found
  | append_singleton before pair ih =>
    rw [List.foldl_append, List.foldl_cons, List.foldl_nil, get?_insert] at found
    split at found
    · next own =>
      obtain rfl := Option.some.inj found
      exact List.mem_append_right _ (List.mem_singleton.2 (by rw [← own]))
    · exact List.mem_append_left _ (ih found)

theorem flatten_replaceOrAppend_perm (k : κ) (a : α) (entries : List (κ × List α)) :
    List.Perm ((replaceOrAppend k ((lookup k entries).getD [] ++ [a]) entries).map Prod.snd).flatten
      ((entries.map Prod.snd).flatten ++ [a]) := by
  induction entries with
  | nil => simp [replaceOrAppend, lookup]
  | cons entry rest ih =>
    obtain ⟨j, b⟩ := entry
    by_cases hj : j = k
    · simp only [replaceOrAppend, lookup, hj, if_true, List.map_cons, List.flatten_cons,
        Option.getD_some, List.append_assoc]
      exact List.perm_append_comm.append_left b
    · simp only [replaceOrAppend, lookup, hj, if_false, List.map_cons, List.flatten_cons,
        List.append_assoc]
      exact ih.append_left b

/-- Appending an element to a group adds it to the listing of all groups. -/
theorem flatten_alter_perm (m : OrderedMap κ (List α)) (k : κ) (a : α) :
    List.Perm (m.alter k fun group => group.getD [] ++ [a]).values.flatten
      (m.values.flatten ++ [a]) :=
  flatten_replaceOrAppend_perm k a m.entries

/-! ## Lists that are grouped element by element -/

section Grouped

variable {β : Type} (key : β → κ)

/-- The keys that a list adds come after those that were there, in the order of their first
elements. -/
theorem keys_foldl_alter (f : β → Option α → α) (list : List β) (m : OrderedMap κ α) :
    (list.foldl (fun m b => m.alter (key b) (f b)) m).keys =
      m.keys ++ (list.map key).eraseDups.filter (· ∉ m.keys) := by
  induction list using List.reverseRecOn with
  | nil => simp
  | append_singleton list b ih =>
    rw [List.foldl_append, List.foldl_cons, List.foldl_nil, keys_alter, ih, List.map_append,
      List.map_singleton, eraseDups_concat]
    by_cases old : key b ∈ m.keys <;> by_cases seen : key b ∈ list.map key <;> simp [old, seen]

/-- A group takes up the elements with its key, in their order. -/
theorem getD_foldl_alter (value : β → α) (list : List β) (m : OrderedMap κ (List α)) (k : κ) :
    ((list.foldl (fun m b => m.alter (key b) fun group => group.getD [] ++ [value b]) m).get?
      k).getD [] =
      (m.get? k).getD [] ++ (list.filter (key · = k)).map value := by
  induction list generalizing m with
  | nil => simp
  | cons b list ih =>
    rw [List.foldl_cons, ih, get?_alter]
    by_cases h : key b = k <;> simp [h]

end Grouped

end OrderedMap

/-! ## Lists in blocks -/

/-- Whether a list falls into one block for each of some keys, in their order. Blocks may be
empty. -/
inductive Blocks {κ α : Type} (key : α → κ) : List κ → List α → Prop
  | nil : Blocks key [] []
  | cons {k : κ} {ks : List κ} {block rest : List α} (first : ∀ a ∈ block, key a = k)
      (later : Blocks key ks rest) : Blocks key (k :: ks) (block ++ rest)

namespace Blocks

variable {κ α β : Type} {key : α → κ} {ks : List κ} {list : List α}

theorem key_mem (h : Blocks key ks list) {a : α} (ha : a ∈ list) : key a ∈ ks := by
  induction h with
  | nil => cases ha
  | cons first _ ih =>
    rcases List.mem_append.1 ha with here | there
    · exact first a here ▸ List.mem_cons_self
    · exact List.mem_cons_of_mem _ (ih there)

/-- The blocks of lists that are made from pairs with a key. -/
theorem flatMap_pairs (pairs : List (κ × β)) {f : κ × β → List α}
    (keyed : ∀ pair ∈ pairs, ∀ a ∈ f pair, key a = pair.1) :
    Blocks key (pairs.map Prod.fst) (pairs.flatMap f) := by
  induction pairs with
  | nil => exact .nil
  | cons pair rest ih =>
    exact .cons (keyed pair List.mem_cons_self) (ih fun p hp => keyed p (List.mem_cons_of_mem _ hp))

theorem flatMap {key' : β → κ} (h : Blocks key ks list) {f : α → List β}
    (keyed : ∀ a ∈ list, ∀ b ∈ f a, key' b = key a) : Blocks key' ks (list.flatMap f) := by
  induction h with
  | nil => exact .nil
  | @cons k ks block rest first _ ih =>
    rw [List.flatMap_append]
    refine .cons (fun b hb => ?_) (ih fun a ha => keyed a (List.mem_append_right _ ha))
    obtain ⟨a, ha, hb⟩ := List.mem_flatMap.1 hb
    exact (keyed a (List.mem_append_left _ ha) b hb).trans (first a ha)

theorem of_map {f : β → α} {list : List β} (h : Blocks key ks (list.map f)) :
    Blocks (key ∘ f) ks list := by
  generalize mapped : list.map f = image at h
  induction h generalizing list with
  | nil =>
    obtain rfl := List.map_eq_nil_iff.1 mapped
    exact .nil
  | cons first _ ih =>
    obtain ⟨block, rest, rfl, rfl, later⟩ := List.map_eq_append_iff.1 mapped
    exact .cons (fun b hb => first _ (List.mem_map_of_mem hb)) (ih later)

variable [DecidableEq κ]

/-- A list in blocks lists the elements with the first key, those with the second key, and so on. -/
theorem eq_flatMap_filter (h : Blocks key ks list) (nodup : ks.Nodup) :
    list = ks.flatMap fun k => list.filter (key · = k) := by
  induction h with
  | nil => rfl
  | @cons k ks block rest first later ih =>
    obtain ⟨new, nodup'⟩ := List.nodup_cons.1 nodup
    have own : (block ++ rest).filter (key · = k) = block := by
      have kept : block.filter (key · = k) = block := List.filter_eq_self.2 (by simpa using first)
      have foreign : rest.filter (key · = k) = [] :=
      List.filter_eq_nil_iff.2 fun a ha e => new (of_decide_eq_true e ▸ later.key_mem ha)
      rw [List.filter_append, kept, foreign, List.append_nil]
    have others : ks.flatMap (fun k' => (block ++ rest).filter (key · = k')) =
        ks.flatMap fun k' => rest.filter (key · = k') := by
      refine List.flatMap_congr fun k' hk' => ?_
      have foreign : block.filter (key · = k') = [] := by
        refine List.filter_eq_nil_iff.2 fun a ha e => new ?_
        rwa [← first a ha, of_decide_eq_true e]
      rw [List.filter_append, foreign, List.nil_append]
    rw [List.flatMap_cons, own, others, ← ih nodup']

/-- The keys of a list in blocks come in the order of the blocks. -/
theorem eraseDups_keys (h : Blocks key ks list) (nodup : ks.Nodup) :
    (list.map key).eraseDups = ks.filter (· ∈ list.map key) := by
  induction h with
  | nil => rfl
  | @cons k ks block rest first later ih =>
    obtain ⟨new, nodup'⟩ := List.nodup_cons.1 nodup
    have absent : k ∉ rest.map key := fun listed => by
      obtain ⟨a, ha, rfl⟩ := List.mem_map.1 listed
      exact new (later.key_mem ha)
    cases block with
    | nil => rw [List.nil_append, List.filter_cons, if_neg (by simpa using absent), ih nodup']
    | cons a block =>
      obtain rfl := first a List.mem_cons_self
      have same : block.map key = List.replicate block.length (key a) := by
        refine List.map_eq_replicate_iff.2 fun b hb => first b (List.mem_cons_of_mem _ hb)
      have fresh : (rest.map key).filter (fun k' => !k' == key a) = rest.map key :=
        List.filter_eq_self.2 fun k' hk' => by simpa using fun e : k' = key a => absent (e ▸ hk')
      have later' : ks.filter (· ∈ (a :: block ++ rest).map key) =
          ks.filter (· ∈ rest.map key) := by
        refine List.filter_congr fun k' hk' => decide_eq_decide.2 ?_
        have other : k' ≠ key a := fun e => new (e ▸ hk')
        simp [same, other]
      rw [List.filter_cons, if_pos (by simp), later', ← ih nodup', List.cons_append, List.map_cons,
        List.map_append, same, List.eraseDups_cons, List.filter_append, fresh]
      simp

end Blocks

end ClassSymbols
