import Mathlib.Data.List.Nodup
import Ps2Servers.Lib.Tables

/-!
# Least recently used

A cache in front of a store that may fail, as the list of its entries with the least recently used one
first. A use of a key moves it behind the others, and a new key drops as many of the oldest as it
takes to stay within the limit.
-/

namespace Ps2Servers.Lru

open Tables (lookup_isSome)

variable {κ α : Type*} [BEq κ]

/-- The cache behind a use of a key. Without room for one entry it stays as it is. -/
def use (limit : Nat) (cache : List (κ × α)) (key : κ) (value : α) : List (κ × α) :=
  if (cache.lookup key).isSome then cache.filter (fun e => e.1 != key) ++ [(key, value)]
  else if limit = 0 then cache
  else cache.drop (cache.length + 1 - limit) ++ [(key, value)]

/-- Of keys that are used one after the other, each is in the cache at its turn, or in the store. -/
def Served (limit : Nat) (store : κ → Option α) : List (κ × α) → List κ → Prop
  | _, [] => True
  | cache, key :: keys =>
      ∃ value, (cache.lookup key).or (store key) = some value ∧
        Served limit store (use limit cache key value) keys

section

variable {limit : Nat} {store : κ → Option α} {cache : List (κ × α)} {key : κ} {value : α}

theorem use_of_lookup (h : cache.lookup key = some value) :
    use limit cache key value = cache.filter (fun e => e.1 != key) ++ [(key, value)] := by
  unfold use
  rw [h]
  rfl

theorem use_of_lookup_none (h : cache.lookup key = none) (hlimit : limit ≠ 0) :
    use limit cache key value = cache.drop (cache.length + 1 - limit) ++ [(key, value)] := by
  unfold use
  rw [h, if_neg (by simp), if_neg hlimit]

theorem use_zero (h : cache.lookup key = none) : use 0 cache key value = cache := by
  unfold use
  rw [h]
  rfl

theorem served_cons (h : (cache.lookup key).or (store key) = some value) (keys : List κ) :
    Served limit store cache (key :: keys) ↔ Served limit store (use limit cache key value) keys := by
  constructor
  · rintro ⟨value', hvalue', hkeys⟩
    rw [h] at hvalue'
    cases hvalue'
    exact hkeys
  · exact fun hkeys => ⟨value, h, hkeys⟩

/-- A key in neither of them is not served. -/
theorem not_served_cons (h : (cache.lookup key).or (store key) = none) (keys : List κ) :
    ¬ Served limit store cache (key :: keys) := by
  rintro ⟨value, hvalue, -⟩
  rw [h] at hvalue
  cases hvalue

theorem mem_use {e : κ × α} (h : e ∈ use limit cache key value) : e ∈ cache ∨ e = (key, value) := by
  unfold use at h
  split at h
  · rcases List.mem_append.mp h with h | h
    · exact Or.inl (List.mem_of_mem_filter h)
    · exact Or.inr (List.mem_singleton.mp h)
  split at h
  · exact Or.inl h
  · rcases List.mem_append.mp h with h | h
    · exact Or.inl (List.mem_of_mem_drop h)
    · exact Or.inr (List.mem_singleton.mp h)

end

/-! ## What a use keeps -/

variable [LawfulBEq κ] {limit : Nat} {cache : List (κ × α)} {key : κ} {value : α}

/-- A key that is there once is taken out once. -/
theorem length_filter_key (hnodup : (cache.map Prod.fst).Nodup) (hkey : key ∈ cache.map Prod.fst) :
    (cache.filter fun e => e.1 != key).length + 1 = cache.length := by
  have hone : cache.countP (fun e => e.1 == key) = 1 := by
    rw [← List.count_eq_one_of_mem hnodup hkey, List.count, List.countP_map]
    rfl
  have hsplit := cache.length_eq_countP_add_countP (p := fun e => e.1 == key)
  rw [hone] at hsplit
  rw [← List.countP_eq_length_filter, hsplit, Nat.add_comm]
  congr 1
  exact List.countP_congr fun e _ => by simp

theorem nodup_use (hnodup : (cache.map Prod.fst).Nodup) :
    ((use limit cache key value).map Prod.fst).Nodup := by
  have hnew {l : List (κ × α)} (hl : l.Sublist cache) (hkey : key ∉ l.map Prod.fst) :
      ((l ++ [(key, value)]).map Prod.fst).Nodup := by
    rw [List.map_append, List.map_singleton]
    refine (hnodup.sublist (hl.map Prod.fst)).append (List.nodup_singleton key) ?_
    rw [List.disjoint_singleton]
    exact hkey
  unfold use
  split
  · refine hnew List.filter_sublist ?_
    intro hmem
    obtain ⟨e, he, hkey⟩ := List.mem_map.mp hmem
    have hne := (List.mem_filter.mp he).2
    rw [hkey] at hne
    simp at hne
  case isFalse hlookup =>
    split
    · exact hnodup
    · refine hnew (List.drop_sublist _ _) ?_
      intro hmem
      obtain ⟨e, he, hkey⟩ := List.mem_map.mp hmem
      exact hlookup (lookup_isSome.mpr (List.mem_map.mpr ⟨e, List.mem_of_mem_drop he, hkey⟩))

/-- A cache within its limit stays so. -/
theorem length_use_le (hnodup : (cache.map Prod.fst).Nodup) (hlength : cache.length ≤ limit) :
    (use limit cache key value).length ≤ limit := by
  unfold use
  split
  case isTrue hlookup =>
    have hone := length_filter_key hnodup (lookup_isSome.mp hlookup)
    rw [List.length_append, List.length_singleton, hone]
    exact hlength
  case isFalse =>
    split
    · exact hlength
    · rw [List.length_append, List.length_drop, List.length_singleton]
      omega

end Ps2Servers.Lru
