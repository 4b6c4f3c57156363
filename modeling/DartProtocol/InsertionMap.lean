import Mathlib.Data.List.Nodup
import Mathlib.Data.List.Basic

/-!
# Insertion-ordered finite maps

The map of a scripting runtime: writing an existing key keeps its position, writing a new key
appends it, deleting a key closes the gap, and iteration follows the list of entries.  The entries
carry their key-uniqueness as a field, so an ill-formed map cannot be built and every operation
below has to keep it.

* `get`, `has`, `set`, `delete`, `retain`, `mapValues` — the operations;
* `mem_entries_iff_get` — iteration and lookup see the same contents;
* `get_set`, `get_delete`, `get_retain` — how each operation changes lookup;
* `size_delete_lt` — deleting a present key shrinks the map, the measure behind draining loops.
-/

universe u v w

/-- A finite map that remembers the order in which its keys were first written. -/
structure InsertionMap (κ : Type u) (ν : Type v) where
  entries : List (κ × ν)
  nodup : (entries.map Prod.fst).Nodup

namespace InsertionMap

variable {κ : Type u} {ν : Type v}

theorem ext {m m' : InsertionMap κ ν} (h : m.entries = m'.entries) : m = m' := by
  cases m
  cases m'
  simpa using h

instance [DecidableEq κ] [DecidableEq ν] : DecidableEq (InsertionMap κ ν) := fun m m' =>
  decidable_of_iff (m.entries = m'.entries) ⟨ext, fun h => by rw [h]⟩

/-- The map without entries. -/
def empty : InsertionMap κ ν := ⟨[], List.nodup_nil⟩

instance : EmptyCollection (InsertionMap κ ν) := ⟨empty⟩

instance : Inhabited (InsertionMap κ ν) := ⟨empty⟩

/-- The keys in iteration order. -/
def keys (m : InsertionMap κ ν) : List κ := m.entries.map Prod.fst

/-- The values in iteration order. -/
def values (m : InsertionMap κ ν) : List ν := m.entries.map Prod.snd

/-- The number of entries. -/
def size (m : InsertionMap κ ν) : ℕ := m.entries.length

section Lookup

variable [DecidableEq κ]

/-- First value stored under `k` in an entry list. -/
def lookup (k : κ) : List (κ × ν) → Option ν
  | [] => none
  | e :: es => if e.1 = k then some e.2 else lookup k es

/-- Overwrite the entry of `k` in place, or append one. -/
def upsert (k : κ) (v : ν) : List (κ × ν) → List (κ × ν)
  | [] => [(k, v)]
  | e :: es => if e.1 = k then (k, v) :: es else e :: upsert k v es

theorem mem_of_lookup {k : κ} {v : ν} :
    ∀ {es : List (κ × ν)}, lookup k es = some v → (k, v) ∈ es := by
  intro es
  induction es with
  | nil => intro h; simp [lookup] at h
  | cons e es ih =>
    intro h
    by_cases hk : e.1 = k
    · rw [lookup, if_pos hk] at h
      cases h
      rw [← hk]
      exact List.mem_cons_self
    · rw [lookup, if_neg hk] at h
      exact List.mem_cons_of_mem _ (ih h)

theorem lookup_of_mem {k : κ} {v : ν} :
    ∀ {es : List (κ × ν)}, (es.map Prod.fst).Nodup → (k, v) ∈ es → lookup k es = some v := by
  intro es
  induction es with
  | nil => intro _ h; simp at h
  | cons e es ih =>
    intro hnd h
    rw [List.map_cons, List.nodup_cons] at hnd
    rcases List.mem_cons.mp h with rfl | h
    · simp [lookup]
    · have hk : e.1 ≠ k := by
        intro hk
        apply hnd.1
        rw [hk]
        exact List.mem_map_of_mem (f := Prod.fst) h
      rw [lookup, if_neg hk]
      exact ih hnd.2 h

theorem map_fst_upsert (k : κ) (v : ν) (es : List (κ × ν)) :
    (upsert k v es).map Prod.fst
      = if k ∈ es.map Prod.fst then es.map Prod.fst else es.map Prod.fst ++ [k] := by
  induction es with
  | nil => simp [upsert]
  | cons e es ih =>
    by_cases hk : e.1 = k
    · simp [upsert, hk]
    · have hk' : ¬ k = e.1 := fun h => hk h.symm
      rw [upsert, if_neg hk, List.map_cons, ih]
      by_cases hm : k ∈ es.map Prod.fst <;> simp [hm, hk']

theorem nodup_upsert (k : κ) (v : ν) {es : List (κ × ν)} (h : (es.map Prod.fst).Nodup) :
    ((upsert k v es).map Prod.fst).Nodup := by
  rw [map_fst_upsert]
  split
  · exact h
  · rename_i hk
    rw [List.nodup_append]
    refine ⟨h, List.nodup_singleton k, ?_⟩
    intro a ha b hb
    rw [List.mem_singleton] at hb
    rintro rfl
    exact hk (hb ▸ ha)

theorem upsert_upsert (k : κ) (v v' : ν) (es : List (κ × ν)) :
    upsert k v' (upsert k v es) = upsert k v' es := by
  induction es with
  | nil => simp [upsert]
  | cons e es ih =>
    by_cases hk : e.1 = k
    · simp [upsert, hk]
    · simp [upsert, hk, ih]

/-- A new key goes to the end. -/
theorem upsert_of_not_mem {k : κ} (v : ν) {es : List (κ × ν)} (h : k ∉ es.map Prod.fst) :
    upsert k v es = es ++ [(k, v)] := by
  induction es with
  | nil => rfl
  | cons e es ih =>
    rw [List.map_cons, List.mem_cons, not_or] at h
    rw [upsert, if_neg (Ne.symm h.1), ih h.2]
    rfl

theorem lookup_upsert (k j : κ) (v : ν) (es : List (κ × ν)) :
    lookup j (upsert k v es) = if k = j then some v else lookup j es := by
  induction es with
  | nil => rfl
  | cons e es ih =>
    by_cases hk : e.1 = k
    · by_cases hj : k = j
      · simp [upsert, lookup, hk, hj]
      · have : e.1 ≠ j := hk ▸ hj
        simp [upsert, lookup, hk, hj]
    · rw [upsert, if_neg hk, lookup, ih, lookup]
      by_cases hj : k = j
      · have : e.1 ≠ j := hj ▸ hk
        simp [hj, this]
      · simp [hj]

theorem lookup_filter (p : κ → ν → Bool) (k : κ) {es : List (κ × ν)}
    (hnd : (es.map Prod.fst).Nodup) :
    lookup k (es.filter fun e => p e.1 e.2) = (lookup k es).filter (p k) := by
  induction es with
  | nil => rfl
  | cons e es ih =>
    rw [List.map_cons, List.nodup_cons] at hnd
    by_cases hk : e.1 = k
    · subst hk
      cases hp : p e.1 e.2 with
      | true => simp [hp, lookup, Option.filter]
      | false =>
        -- the only entry of this key is dropped, and no other one can answer the lookup
        have hnone : lookup e.1 es = none := by
          cases hl : lookup e.1 es with
          | none => rfl
          | some v => exact absurd (List.mem_map_of_mem (f := Prod.fst) (mem_of_lookup hl)) hnd.1
        rw [List.filter_cons_of_neg (by simp [hp]), ih hnd.2, hnone]
        simp [lookup, Option.filter, hp]
    · cases hp : p e.1 e.2 with
      | true => simp [hp, lookup, hk, ih hnd.2]
      | false =>
        rw [List.filter_cons_of_neg (by simp [hp]), ih hnd.2]
        simp [lookup, hk]

end Lookup

variable [DecidableEq κ]

/-! ### The operations -/

/-- The value stored under `k`. -/
def get (m : InsertionMap κ ν) (k : κ) : Option ν := lookup k m.entries

/-- Is there an entry for `k`? -/
def has (m : InsertionMap κ ν) (k : κ) : Bool := (m.get k).isSome

/-- Write `v` under `k`. -/
def set (m : InsertionMap κ ν) (k : κ) (v : ν) : InsertionMap κ ν :=
  ⟨upsert k v m.entries, nodup_upsert k v m.nodup⟩

/-- Keep the entries that satisfy `p`. -/
def retain (m : InsertionMap κ ν) (p : κ → ν → Bool) : InsertionMap κ ν :=
  ⟨m.entries.filter fun e => p e.1 e.2,
    m.nodup.sublist (List.filter_sublist.map Prod.fst)⟩

/-- Remove the entry of `k`. -/
def delete (m : InsertionMap κ ν) (k : κ) : InsertionMap κ ν :=
  m.retain fun j _ => decide (j ≠ k)

/-- Apply `f` to every value, keys and order untouched. -/
def mapValues {μ : Type w} (m : InsertionMap κ ν) (f : κ → ν → μ) : InsertionMap κ μ :=
  ⟨m.entries.map fun e => (e.1, f e.1 e.2), by
    rw [List.map_map]
    exact m.nodup⟩

/-- Build a map by writing the listed pairs from left to right. -/
def ofList (l : List (κ × ν)) : InsertionMap κ ν :=
  l.foldl (fun m e => m.set e.1 e.2) empty

/-! ### Lookup after each operation -/

@[simp] theorem get_empty (k : κ) : (∅ : InsertionMap κ ν).get k = none := rfl

theorem mem_entries_iff_get {m : InsertionMap κ ν} {k : κ} {v : ν} :
    (k, v) ∈ m.entries ↔ m.get k = some v :=
  ⟨lookup_of_mem m.nodup, mem_of_lookup⟩

theorem get_set (m : InsertionMap κ ν) (k j : κ) (v : ν) :
    (m.set k v).get j = if k = j then some v else m.get j :=
  lookup_upsert k j v m.entries

@[simp] theorem get_set_self (m : InsertionMap κ ν) (k : κ) (v : ν) :
    (m.set k v).get k = some v := by
  rw [get_set, if_pos rfl]

/-- Of two writes to a key the last one counts. -/
theorem set_set (m : InsertionMap κ ν) (k : κ) (v v' : ν) : (m.set k v).set k v' = m.set k v' :=
  ext (upsert_upsert k v v' m.entries)

theorem entries_foldl_set {es : List (κ × ν)} {m : InsertionMap κ ν}
    (h : ((m.entries ++ es).map Prod.fst).Nodup) :
    (es.foldl (fun m e => m.set e.1 e.2) m).entries = m.entries ++ es := by
  induction es generalizing m with
  | nil => exact (List.append_nil _).symm
  | cons e es ih =>
    have hnew : e.1 ∉ m.entries.map Prod.fst := by
      intro hmem
      rw [List.map_append, List.nodup_append] at h
      exact h.2.2 e.1 hmem e.1 List.mem_cons_self rfl
    have hset : (m.set e.1 e.2).entries = m.entries ++ [e] := upsert_of_not_mem e.2 hnew
    rw [List.foldl_cons, ih (by rwa [hset, List.append_assoc]), hset, List.append_assoc]
    rfl

/-- Writing out a map and reading it in again. -/
theorem ofList_entries (m : InsertionMap κ ν) : ofList m.entries = m :=
  ext (entries_foldl_set (m := empty) m.nodup)

theorem get_set_of_ne (m : InsertionMap κ ν) {k j : κ} (v : ν) (h : k ≠ j) :
    (m.set k v).get j = m.get j := by
  rw [get_set, if_neg h]

theorem get_retain (m : InsertionMap κ ν) (p : κ → ν → Bool) (k : κ) :
    (m.retain p).get k = (m.get k).filter (p k) :=
  lookup_filter p k m.nodup

theorem get_retain_eq_some {m : InsertionMap κ ν} {p : κ → ν → Bool} {k : κ} {v : ν} :
    (m.retain p).get k = some v ↔ m.get k = some v ∧ p k v = true := by
  rw [get_retain, Option.filter_eq_some_iff]

theorem get_delete (m : InsertionMap κ ν) (k j : κ) :
    (m.delete k).get j = if k = j then none else m.get j := by
  rw [delete, get_retain]
  by_cases h : k = j
  · subst h
    cases m.get k <;> simp [Option.filter]
  · have h' : ¬ j = k := fun e => h e.symm
    cases m.get j <;> simp [Option.filter, h, h']

@[simp] theorem get_delete_self (m : InsertionMap κ ν) (k : κ) : (m.delete k).get k = none := by
  rw [get_delete, if_pos rfl]

theorem get_delete_of_ne (m : InsertionMap κ ν) {k j : κ} (h : k ≠ j) :
    (m.delete k).get j = m.get j := by
  rw [get_delete, if_neg h]

theorem get_mapValues {μ : Type w} (m : InsertionMap κ ν) (f : κ → ν → μ) (k : κ) :
    (m.mapValues f).get k = (m.get k).map (f k) := by
  show lookup k (m.entries.map fun e => (e.1, f e.1 e.2)) = (lookup k m.entries).map (f k)
  induction m.entries with
  | nil => rfl
  | cons e es ih =>
    by_cases hk : e.1 = k
    · subst hk
      simp [lookup]
    · simp [lookup, hk, ih]

theorem has_iff {m : InsertionMap κ ν} {k : κ} : m.has k = true ↔ ∃ v, m.get k = some v := by
  rw [has, Option.isSome_iff_exists]

theorem has_eq_false_iff {m : InsertionMap κ ν} {k : κ} : m.has k = false ↔ m.get k = none := by
  rw [has, Option.isSome_eq_false_iff, Option.isNone_iff_eq_none]

theorem mem_keys_iff {m : InsertionMap κ ν} {k : κ} : k ∈ m.keys ↔ ∃ v, m.get k = some v := by
  constructor
  · intro h
    obtain ⟨⟨k', v⟩, hmem, rfl⟩ := List.mem_map.mp h
    exact ⟨v, mem_entries_iff_get.mp hmem⟩
  · rintro ⟨v, h⟩
    exact List.mem_map.mpr ⟨(k, v), mem_entries_iff_get.mpr h, rfl⟩

theorem mem_values_iff {m : InsertionMap κ ν} {v : ν} : v ∈ m.values ↔ ∃ k, m.get k = some v := by
  constructor
  · intro h
    obtain ⟨⟨k, v'⟩, hmem, rfl⟩ := List.mem_map.mp h
    exact ⟨k, mem_entries_iff_get.mp hmem⟩
  · rintro ⟨k, h⟩
    exact List.mem_map.mpr ⟨(k, v), mem_entries_iff_get.mpr h, rfl⟩

/-! ### Size -/

/-- Deleting a present key shrinks the map. -/
theorem size_delete_lt {m : InsertionMap κ ν} {k : κ} (h : m.has k = true) :
    (m.delete k).size < m.size := by
  obtain ⟨v, hv⟩ := has_iff.mp h
  have hmem := mem_entries_iff_get.mpr hv
  refine Nat.lt_of_le_of_ne (List.length_filter_le _ _) ?_
  intro hlen
  have hall := List.length_filter_eq_length_iff.mp hlen (k, v) hmem
  simp at hall

theorem size_eq_zero_iff {m : InsertionMap κ ν} : m.size = 0 ↔ ∀ k, m.get k = none := by
  constructor
  · intro h k
    rw [size, List.length_eq_zero_iff] at h
    rw [get, h]
    rfl
  · intro h
    rw [size, List.length_eq_zero_iff]
    rw [List.eq_nil_iff_forall_not_mem]
    rintro ⟨k, v⟩ hmem
    rw [mem_entries_iff_get, h k] at hmem
    cases hmem

end InsertionMap
