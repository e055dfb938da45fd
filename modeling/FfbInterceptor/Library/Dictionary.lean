import Mathlib.Data.List.Nodup
import Mathlib.Data.List.Perm.Subperm

/-! Dictionaries: lists of entries with pairwise different keys, new ones at the end. -/
namespace FfbInterceptor.Library
variable {κ α β : Type}

structure Dictionary (κ α : Type) where
  entries : List (κ × α)
  nodup : (entries.map Prod.fst).Nodup

namespace Dictionary

def empty : Dictionary κ α := ⟨[], List.nodup_nil⟩

def keys (d : Dictionary κ α) : List κ := d.entries.map Prod.fst

def values (d : Dictionary κ α) : List α := d.entries.map Prod.snd

def count (d : Dictionary κ α) : Nat := d.entries.length

def map (f : κ → α → β) (d : Dictionary κ α) : Dictionary κ β where
  entries := d.entries.map fun e => (e.1, f e.1 e.2)
  nodup := by
    rw [List.map_map]
    exact d.nodup

@[simp] theorem keys_map (f : κ → α → β) (d : Dictionary κ α) : (d.map f).keys = d.keys := by
  simp [keys, map]

@[simp] theorem length_keys (d : Dictionary κ α) : d.keys.length = d.count := List.length_map _

section Lookup

variable [DecidableEq κ]

def find? (d : Dictionary κ α) (k : κ) : Option α := d.entries.lookup k

def contains (d : Dictionary κ α) (k : κ) : Bool := (d.find? k).isSome

def remove (d : Dictionary κ α) (k : κ) : Dictionary κ α where
  entries := d.entries.filter fun e => e.1 ≠ k
  nodup := d.nodup.sublist (List.filter_sublist.map Prod.fst)

theorem lookup_eq_some_iff {entries : List (κ × α)} (h : (entries.map Prod.fst).Nodup) {k : κ} {v : α} :
    entries.lookup k = some v ↔ (k, v) ∈ entries := by
  induction entries with
  | nil => simp
  | cons e entries ih =>
    obtain ⟨hnew, hrest⟩ := List.nodup_cons.mp h
    rw [List.lookup_cons, List.mem_cons]
    by_cases hk : k = e.1
    · subst hk
      have hother : (e.1, v) ∉ entries := fun hm => hnew (List.mem_map.mpr ⟨_, hm, rfl⟩)
      simp [hother, Prod.ext_iff, eq_comm]
    · have hne : (k, v) ≠ e := by
        rintro rfl
        exact hk rfl
      have hbeq : (k == e.1) = false := by simp [hk]
      simp only [hbeq, hne, ih hrest, false_or]

theorem find?_eq_some_iff {d : Dictionary κ α} {k : κ} {v : α} :
    d.find? k = some v ↔ (k, v) ∈ d.entries :=
  lookup_eq_some_iff d.nodup

theorem contains_iff {d : Dictionary κ α} {k : κ} : d.contains k = true ↔ k ∈ d.keys := by
  rw [contains, Option.isSome_iff_exists, keys, List.mem_map]
  constructor
  · rintro ⟨v, hv⟩
    exact ⟨(k, v), find?_eq_some_iff.mp hv, rfl⟩
  · rintro ⟨⟨_, v⟩, he, rfl⟩
    exact ⟨v, find?_eq_some_iff.mpr he⟩

/-- The indexer's setter: it replaces a value in place or adds an entry. -/
def set (d : Dictionary κ α) (k : κ) (v : α) : Dictionary κ α :=
  if h : d.contains k = true then d.map fun k' v' => if k' = k then v else v'
  else
    { entries := d.entries ++ [(k, v)]
      nodup := by
        rw [List.map_append, List.map_singleton, List.nodup_append]
        refine ⟨d.nodup, List.nodup_singleton k, ?_⟩
        intro a ha b hb
        rw [List.mem_singleton.mp hb]
        rintro rfl
        exact h (contains_iff.mpr ha) }

@[simp] theorem find?_empty (k : κ) : (empty : Dictionary κ α).find? k = none := rfl

@[simp] theorem find?_map (f : κ → α → β) (d : Dictionary κ α) (k : κ) :
    (d.map f).find? k = (d.find? k).map (f k) := by
  ext w
  rw [find?_eq_some_iff, Option.map_eq_some_iff]
  simp only [map, List.mem_map, Prod.mk.injEq]
  constructor
  · rintro ⟨⟨k', v⟩, he, rfl, hw⟩
    exact ⟨v, find?_eq_some_iff.mpr he, hw⟩
  · rintro ⟨v, hv, hw⟩
    exact ⟨(k, v), find?_eq_some_iff.mp hv, rfl, hw⟩

theorem find?_set_self (d : Dictionary κ α) (k : κ) (v : α) : (d.set k v).find? k = some v := by
  rw [set]
  split
  · rename_i h
    obtain ⟨w, hw⟩ := Option.isSome_iff_exists.mp h
    simp [hw]
  · exact find?_eq_some_iff.mpr (List.mem_append_right _ (List.mem_singleton_self _))

theorem find?_set_of_ne (d : Dictionary κ α) {k k' : κ} (v : α) (h : k' ≠ k) :
    (d.set k v).find? k' = d.find? k' := by
  rw [set]
  split
  · simp [h]
  · ext w
    rw [find?_eq_some_iff, find?_eq_some_iff]
    simp [h]

theorem find?_set (d : Dictionary κ α) (k k' : κ) (v : α) :
    (d.set k v).find? k' = if k' = k then some v else d.find? k' := by
  split
  · rename_i h
    rw [h, find?_set_self]
  · rename_i h
    exact find?_set_of_ne d v h

theorem find?_remove (d : Dictionary κ α) (k k' : κ) :
    (d.remove k).find? k' = if k' = k then none else d.find? k' := by
  ext v
  split
  · rename_i h
    rw [find?_eq_some_iff]
    simp [remove, h]
  · rename_i h
    rw [find?_eq_some_iff, find?_eq_some_iff]
    simp [remove, h]

theorem contains_set (d : Dictionary κ α) (k k' : κ) (v : α) :
    (d.set k v).contains k' = (decide (k' = k) || d.contains k') := by
  rw [contains, find?_set]
  split
  · rename_i h
    simp [h]
  · rename_i h
    simp [contains, h]

theorem contains_map (f : κ → α → β) (d : Dictionary κ α) (k : κ) : (d.map f).contains k = d.contains k := by
  rw [contains, find?_map, Option.isSome_map, contains]

theorem count_eq_of_contains {d : Dictionary κ α} {d' : Dictionary κ β}
    (h : ∀ k, d'.contains k = d.contains k) : d'.count = d.count := by
  have hperm : d'.keys.Perm d.keys := by
    refine (List.perm_ext_iff_of_nodup d'.nodup d.nodup).mpr ?_
    intro k
    have hk : d'.contains k = true ↔ d.contains k = true := by rw [h k]
    exact contains_iff.symm.trans (hk.trans contains_iff)
  rw [← length_keys, ← length_keys, hperm.length_eq]

theorem count_le_of_contains {d : Dictionary κ α} {d' : Dictionary κ β}
    (h : ∀ k, d'.contains k = true → d.contains k = true) : d'.count ≤ d.count := by
  have hsubset : d'.keys ⊆ d.keys := fun k hk => contains_iff.mp (h k (contains_iff.mpr hk))
  rw [← length_keys, ← length_keys]
  exact (List.subperm_of_subset d'.nodup hsubset).length_le

theorem count_set_le (d : Dictionary κ α) (k : κ) (v : α) : (d.set k v).count ≤ d.count + 1 := by
  rw [set]
  split
  · simp [count, map]
  · simp [count]

theorem count_remove_le (d : Dictionary κ α) (k : κ) : (d.remove k).count ≤ d.count :=
  List.length_filter_le _ _

theorem count_remove_lt {d : Dictionary κ α} {k : κ} (h : d.contains k = true) :
    (d.remove k).count < d.count := by
  obtain ⟨v, hv⟩ := Option.isSome_iff_exists.mp h
  refine List.length_filter_lt_length_iff_exists.mpr ⟨(k, v), find?_eq_some_iff.mp hv, ?_⟩
  simp

end Lookup

end Dictionary

end FfbInterceptor.Library
