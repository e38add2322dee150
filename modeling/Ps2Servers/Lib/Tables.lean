import Mathlib.Data.List.Nodup
import Mathlib.Data.List.Perm.Basic

/-!
# Tables

A dictionary as the list of its entries. The first entry of a key is the one that
counts, and a table without repeated keys gives every entry back. Assignments
and deletions keep it so.
-/

namespace Ps2Servers.Tables

variable {κ α : Type*} [BEq κ] [LawfulBEq κ]

theorem lookup_isSome {l : List (κ × α)} {key : κ} :
    (l.lookup key).isSome ↔ key ∈ l.map Prod.fst := by
  induction l with
  | nil => simp
  | cons p l ih =>
      by_cases h : key = p.1
      · simp [h]
      · have hbeq : (key == p.1) = false := beq_eq_false_iff_ne.mpr h
        rw [List.lookup_cons, hbeq, ih]
        simp [h]

theorem mem_of_lookup {l : List (κ × α)} {key : κ} {a : α} (h : l.lookup key = some a) :
    (key, a) ∈ l := by
  obtain ⟨l₁, l₂, rfl, -⟩ := List.lookup_eq_some_iff.mp h
  simp

/-- Without repeated keys every entry is found. -/
theorem lookup_of_mem {l : List (κ × α)} (hl : (l.map Prod.fst).Nodup) {key : κ} {a : α}
    (h : (key, a) ∈ l) : l.lookup key = some a := by
  obtain ⟨l₁, l₂, rfl⟩ := List.append_of_mem h
  refine List.lookup_eq_some_iff.mpr ⟨l₁, l₂, rfl, fun p hp => ?_⟩
  rw [List.map_append, List.map_cons, List.nodup_append] at hl
  have hne : key ≠ p.1 := fun heq =>
    hl.2.2 p.1 (List.mem_map_of_mem hp) key List.mem_cons_self heq.symm
  simpa using hne

/-! ## Assignments -/

/-- `table[key] = a`. -/
def assign (l : List (κ × α)) (key : κ) (a : α) : List (κ × α) :=
  if (l.lookup key).isSome then l.map fun p => if p.1 == key then (p.1, a) else p
  else l ++ [(key, a)]

theorem mem_assign {l : List (κ × α)} {key : κ} {a : α} {p : κ × α} (h : p ∈ assign l key a) :
    p ∈ l ∨ p = (key, a) := by
  unfold assign at h
  split at h
  · obtain ⟨q, hq, rfl⟩ := List.mem_map.mp h
    split
    · rename_i hkey
      right
      rw [eq_of_beq hkey]
    · exact Or.inl hq
  · rcases List.mem_append.mp h with h | h
    · exact Or.inl h
    · exact Or.inr (List.mem_singleton.mp h)

theorem nodup_assign {l : List (κ × α)} (hl : (l.map Prod.fst).Nodup) (key : κ) (a : α) :
    ((assign l key a).map Prod.fst).Nodup := by
  unfold assign
  split
  · rw [List.map_map]
    have hsame : (Prod.fst ∘ fun p : κ × α => if p.1 == key then (p.1, a) else p) = Prod.fst := by
      funext p
      rw [Function.comp_apply]
      split <;> rfl
    rw [hsame]
    exact hl
  · rename_i hnew
    rw [lookup_isSome] at hnew
    rw [List.map_append, List.nodup_append]
    refine ⟨hl, List.nodup_singleton _, ?_⟩
    rintro p hp q hq rfl
    rw [List.mem_singleton.mp hq] at hp
    exact hnew hp

theorem lookup_assign_self (l : List (κ × α)) (key : κ) (a : α) :
    (assign l key a).lookup key = some a := by
  unfold assign
  split
  · rename_i hknown
    induction l with
    | nil => cases hknown
    | cons p l ih =>
        rw [List.map_cons]
        by_cases hkey : p.1 = key
        · simp [hkey]
        · have hp : (p.1 == key) = false := beq_false_of_ne hkey
          have hbeq : (key == p.1) = false := beq_false_of_ne fun h => hkey h.symm
          rw [List.lookup_cons, hbeq] at hknown
          rw [hp, if_neg Bool.false_ne_true, List.lookup_cons, hbeq]
          exact ih hknown
  · rename_i hnew
    have hnone : l.lookup key = none := Option.not_isSome_iff_eq_none.mp hnew
    rw [List.lookup_append, hnone, Option.none_or, List.lookup_cons_self]

theorem lookup_assign_of_ne {key other : κ} (h : other ≠ key) (l : List (κ × α)) (a : α) :
    (assign l key a).lookup other = l.lookup other := by
  have hne : (other == key) = false := beq_false_of_ne h
  unfold assign
  split
  · rename_i hknown
    clear hknown
    induction l with
    | nil => rfl
    | cons p l ih =>
        rw [List.map_cons]
        by_cases hkey : p.1 = key
        · have hbeq : (p.1 == key) = true := beq_iff_eq.mpr hkey
          have hother : (other == p.1) = false := by
            rw [hkey]
            exact hne
          rw [hbeq, if_pos rfl, List.lookup_cons, List.lookup_cons, hother, ih]
        · have hbeq : (p.1 == key) = false := beq_false_of_ne hkey
          rw [hbeq, if_neg Bool.false_ne_true, List.lookup_cons, List.lookup_cons, ih]
  · have hnone : [(key, a)].lookup other = none := by
      rw [List.lookup_cons, hne, List.lookup_nil]
    rw [List.lookup_append, hnone, Option.or_none]

/-- Keys that go by other names. -/
theorem map_assign {κ' β : Type*} [BEq κ'] [LawfulBEq κ'] {f : κ → κ'}
    (hf : ∀ k k', f k = f k' → k = k') (g : α → β) (l : List (κ × α)) (key : κ) (a : α) :
    (assign l key a).map (Prod.map f g) = assign (l.map (Prod.map f g)) (f key) (g a) := by
  have hkeys : (f key ∈ (l.map (Prod.map f g)).map Prod.fst) ↔ key ∈ l.map Prod.fst := by
    rw [List.map_map]
    constructor
    · intro h
      obtain ⟨e, he, heq⟩ := List.mem_map.mp h
      exact hf _ _ heq ▸ List.mem_map_of_mem he
    · intro h
      obtain ⟨e, he, rfl⟩ := List.mem_map.mp h
      exact List.mem_map.mpr ⟨e, he, rfl⟩
  have hbeq (k : κ) : (f k == f key) = (k == key) := by
    rw [Bool.eq_iff_iff, beq_iff_eq, beq_iff_eq]
    exact ⟨hf k key, congrArg f⟩
  unfold assign
  by_cases h : key ∈ l.map Prod.fst
  · rw [if_pos (lookup_isSome.mpr h), if_pos (lookup_isSome.mpr (hkeys.mpr h)), List.map_map,
      List.map_map]
    apply List.map_congr_left
    intro e _
    simp only [Function.comp_apply, Prod.map, hbeq]
    split <;> rfl
  · rw [if_neg (mt lookup_isSome.mp h), if_neg (fun hs => h (hkeys.mp (lookup_isSome.mp hs))),
      List.map_append]
    rfl

/-- `del table[key]`. -/
def erase (l : List (κ × α)) (key : κ) : List (κ × α) := l.filter fun p => !(p.1 == key)

theorem lookup_erase_self (l : List (κ × α)) (key : κ) : (erase l key).lookup key = none := by
  rw [← Option.not_isSome_iff_eq_none, lookup_isSome]
  intro hmem
  obtain ⟨p, hp, hkey⟩ := List.mem_map.mp hmem
  simp [erase, hkey] at hp

theorem lookup_erase_of_ne {key other : κ} (h : other ≠ key) (l : List (κ × α)) :
    (erase l key).lookup other = l.lookup other := by
  unfold erase
  induction l with
  | nil => rfl
  | cons p l ih =>
      by_cases hkey : p.1 = key
      · have hother : (other == p.1) = false := beq_false_of_ne (hkey ▸ h)
        rw [List.filter_cons_of_neg (by simp [hkey]), ih, List.lookup_cons, hother]
      · rw [List.filter_cons_of_pos (by simp [hkey]), List.lookup_cons, List.lookup_cons, ih]

omit [LawfulBEq κ] in
theorem nodup_erase {l : List (κ × α)} (hl : (l.map Prod.fst).Nodup) (key : κ) :
    ((erase l key).map Prod.fst).Nodup :=
  hl.sublist (List.filter_sublist.map _)

/-- Without the key nothing is deleted. -/
theorem erase_of_not_mem {l : List (κ × α)} {key : κ} (h : key ∉ l.map Prod.fst) :
    erase l key = l := by
  refine List.filter_eq_self.mpr fun p hp => ?_
  have hne : p.1 ≠ key := fun heq => h (heq ▸ List.mem_map_of_mem hp)
  simp [hne]

/-- The keys that are left. -/
theorem map_erase {l : List (κ × α)} (hl : (l.map Prod.fst).Nodup) (key : κ) :
    (erase l key).map Prod.fst = (l.map Prod.fst).erase key := by
  induction l with
  | nil => rfl
  | cons p l ih =>
      rw [List.map_cons, List.nodup_cons] at hl
      by_cases hkey : p.1 = key
      · have hnot : key ∉ l.map Prod.fst := hkey ▸ hl.1
        have hcons : erase (p :: l) key = erase l key :=
          List.filter_cons_of_neg (by simp [hkey])
        rw [hcons, erase_of_not_mem hnot, List.map_cons, hkey, List.erase_cons_head]
      · have hcons : erase (p :: l) key = p :: erase l key :=
          List.filter_cons_of_pos (by simp [hkey])
        rw [hcons, List.map_cons, List.map_cons, ih hl.2, List.erase_cons_tail (by simpa using hkey)]

/-- Tables with the same entries are as long as each other. -/
theorem length_eq_of_lookup {β : Type*} {l : List (κ × α)} {l' : List (κ × β)}
    (hl : (l.map Prod.fst).Nodup) (hl' : (l'.map Prod.fst).Nodup)
    (h : ∀ key, (l.lookup key).isSome = (l'.lookup key).isSome) : l.length = l'.length := by
  have hperm : (l.map Prod.fst).Perm (l'.map Prod.fst) := by
    refine (List.perm_ext_iff_of_nodup hl hl').mpr fun key => ?_
    rw [← lookup_isSome, ← lookup_isSome, h]
  have hlength := hperm.length_eq
  rw [List.length_map, List.length_map] at hlength
  exact hlength

/-- An entry that is deleted and put at the end. -/
theorem perm_erase {l : List (κ × α)} (hl : (l.map Prod.fst).Nodup) {key : κ} {a : α}
    (h : l.lookup key = some a) : l.Perm (erase l key ++ [(key, a)]) := by
  obtain ⟨l₁, l₂, rfl⟩ := List.append_of_mem (mem_of_lookup h)
  rw [List.map_append, List.map_cons, List.nodup_append, List.nodup_cons] at hl
  have hbefore : key ∉ l₁.map Prod.fst := fun hmem =>
    hl.2.2 key hmem key List.mem_cons_self rfl
  have herase : erase (l₁ ++ (key, a) :: l₂) key = l₁ ++ l₂ := by
    have hparts : erase (l₁ ++ (key, a) :: l₂) key = erase l₁ key ++ erase ((key, a) :: l₂) key :=
      List.filter_append _ _
    have hcons : erase ((key, a) :: l₂) key = erase l₂ key := List.filter_cons_of_neg (by simp)
    rw [hparts, hcons, erase_of_not_mem hbefore, erase_of_not_mem hl.2.1.1]
  rw [herase, List.append_assoc]
  exact (List.perm_append_left_iff l₁).mpr (List.perm_append_singleton (key, a) l₂).symm

/-- What is found among the entries that meet a condition. -/
theorem lookup_filter {l : List (κ × α)} (hl : (l.map Prod.fst).Nodup) (cond : κ × α → Bool)
    (key : κ) : (l.filter cond).lookup key = (l.lookup key).filter fun a => cond (key, a) := by
  have hkeys : ((l.filter cond).map Prod.fst).Nodup := hl.sublist (List.filter_sublist.map _)
  cases hlookup : l.lookup key with
  | none =>
      rw [Option.filter_none]
      refine Option.not_isSome_iff_eq_none.mp fun h => ?_
      have hmem := (List.filter_sublist.map Prod.fst).subset (lookup_isSome.mp h)
      rw [← lookup_isSome, hlookup] at hmem
      cases hmem
  | some a =>
      have hmem := mem_of_lookup hlookup
      cases ha : cond (key, a) with
      | true =>
          rw [Option.filter_some, ha, if_pos rfl]
          exact lookup_of_mem hkeys (List.mem_filter.mpr ⟨hmem, ha⟩)
      | false =>
          rw [Option.filter_some, ha, if_neg Bool.false_ne_true]
          refine Option.not_isSome_iff_eq_none.mp fun h => ?_
          obtain ⟨b, hb⟩ := Option.isSome_iff_exists.mp h
          obtain ⟨hb, hcond⟩ := List.mem_filter.mp (mem_of_lookup hb)
          have hsame := (lookup_of_mem hl hb).symm.trans hlookup
          rw [Option.some.inj hsame, ha] at hcond
          cases hcond

end Ps2Servers.Tables
