import Ps2Servers.Lib.Tables

/-!
# Tables with an age list

A table that must not grow: beside it stands the list of its keys as they came, and the oldest
entries go before one is added. The list may hold a key that has left the table, and one that
came twice. As long as every key of the table is in the list, the table stays below its limit; the
entry that goes is the oldest one only if the list is exactly the keys of the table.
-/

namespace Ps2Servers

/-- A table and its age list, oldest key first. -/
structure Aged (κ α : Type*) where
  entries : List (κ × α)
  age : List κ
  deriving DecidableEq, Repr

namespace Aged

open Tables

variable {κ α : Type*}

def empty : Aged κ α := ⟨[], []⟩

def keys (t : Aged κ α) : List κ := t.entries.map Prod.fst

/-- No key repeats, and the age list holds all of them. -/
structure Covered (t : Aged κ α) : Prop where
  nodup : t.keys.Nodup
  covers : ∀ k ∈ t.keys, k ∈ t.age

theorem covered_empty : (empty : Aged κ α).Covered :=
  ⟨List.nodup_nil, fun _ h => absurd h List.not_mem_nil⟩

/-- The age list is the keys of the table, each once and in the order they came. -/
structure Exact (t : Aged κ α) : Prop where
  nodup : t.keys.Nodup
  age : t.age = t.keys

theorem exact_empty : (empty : Aged κ α).Exact := ⟨List.nodup_nil, rfl⟩

variable [BEq κ]

/-- Keys are taken from the age list and their entries dropped until there is room for one more.
What was dropped comes beside what is left. -/
def evictFrom (cap : Nat) : List κ → List (κ × α) → Aged κ α × List α
  | [], entries => (⟨entries, []⟩, [])
  | oldest :: age, entries =>
      if cap ≤ entries.length then
        let rest := evictFrom cap age (erase entries oldest)
        (rest.1, (entries.lookup oldest).toList ++ rest.2)
      else (⟨entries, oldest :: age⟩, [])

def evict (cap : Nat) (t : Aged κ α) : Aged κ α × List α := evictFrom cap t.age t.entries

/-- An entry comes. -/
def put (t : Aged κ α) (key : κ) (a : α) : Aged κ α := ⟨assign t.entries key a, t.age ++ [key]⟩

/-- An entry leaves the table alone. -/
def delete (t : Aged κ α) (key : κ) : Aged κ α := ⟨erase t.entries key, t.age⟩

/-- An entry leaves the table and the list. -/
def remove (t : Aged κ α) (key : κ) : Aged κ α :=
  if (t.entries.lookup key).isSome then ⟨erase t.entries key, t.age.erase key⟩ else t

/-- What an entry holds changes. -/
def update (t : Aged κ α) (key : κ) (f : α → α) : Aged κ α :=
  ⟨t.entries.map fun e => if e.1 == key then (e.1, f e.2) else e, t.age⟩

@[simp] theorem keys_update (t : Aged κ α) (key : κ) (f : α → α) :
    (t.update key f).keys = t.keys := by
  unfold keys update
  rw [List.map_map]
  congr 1
  funext e
  rw [Function.comp_apply]
  split <;> rfl

@[simp] theorem length_update (t : Aged κ α) (key : κ) (f : α → α) :
    (t.update key f).entries.length = t.entries.length := List.length_map ..

theorem Covered.update {t : Aged κ α} (h : t.Covered) (key : κ) (f : α → α) :
    (t.update key f).Covered := by
  constructor
  · rw [keys_update]
    exact h.nodup
  · rw [keys_update]
    exact h.covers

theorem Exact.update {t : Aged κ α} (h : t.Exact) (key : κ) (f : α → α) :
    (t.update key f).Exact := by
  constructor
  · rw [keys_update]
    exact h.nodup
  · rw [keys_update]
    exact h.age

theorem length_assign_le (l : List (κ × α)) (key : κ) (a : α) :
    (assign l key a).length ≤ l.length + 1 := by
  unfold assign
  split
  · rw [List.length_map]
    exact Nat.le_succ _
  · have hlength : (l ++ [(key, a)]).length = l.length + 1 := List.length_append
    exact Nat.le_of_eq hlength

theorem length_put_le (t : Aged κ α) (key : κ) (a : α) :
    (t.put key a).entries.length ≤ t.entries.length + 1 := length_assign_le _ _ _

variable [LawfulBEq κ]

theorem mem_keys_erase {l : List (κ × α)} {key k : κ} :
    k ∈ (erase l key).map Prod.fst ↔ k ∈ l.map Prod.fst ∧ k ≠ key := by
  constructor
  · intro h
    obtain ⟨e, he, rfl⟩ := List.mem_map.mp h
    obtain ⟨hmem, hne⟩ := List.mem_filter.mp he
    exact ⟨List.mem_map_of_mem hmem, by simpa using hne⟩
  · rintro ⟨h, hne⟩
    obtain ⟨e, he, rfl⟩ := List.mem_map.mp h
    exact List.mem_map_of_mem (List.mem_filter.mpr ⟨he, by simpa using hne⟩)

theorem mem_keys_assign {l : List (κ × α)} {key k : κ} {a : α}
    (h : k ∈ (assign l key a).map Prod.fst) : k ∈ l.map Prod.fst ∨ k = key := by
  obtain ⟨e, he, rfl⟩ := List.mem_map.mp h
  rcases mem_assign he with hold | hnew
  · exact Or.inl (List.mem_map_of_mem hold)
  · rw [hnew]
    exact Or.inr rfl

/-- A key that is not there yet comes at the end. -/
theorem assign_of_not_mem {l : List (κ × α)} {key : κ} (h : key ∉ l.map Prod.fst) (a : α) :
    assign l key a = l ++ [(key, a)] := by
  unfold assign
  rw [if_neg]
  rw [lookup_isSome]
  exact h

/-! ## What goes -/

omit [LawfulBEq κ] in
theorem evictFrom_sublist (cap : Nat) (age : List κ) (entries : List (κ × α)) :
    (evictFrom cap age entries).1.entries.Sublist entries := by
  induction age generalizing entries with
  | nil => exact List.Sublist.refl _
  | cons oldest age ih =>
      unfold evictFrom
      split
      · exact (ih _).trans List.filter_sublist
      · exact List.Sublist.refl _

omit [LawfulBEq κ] in
theorem evict_sublist (cap : Nat) (t : Aged κ α) : (t.evict cap).1.entries.Sublist t.entries :=
  evictFrom_sublist cap t.age t.entries

/-- An entry that is deleted. -/
theorem perm_delete {l : List (κ × α)} (h : (l.map Prod.fst).Nodup) (key : κ) :
    ((l.lookup key).toList ++ (erase l key).map Prod.snd).Perm (l.map Prod.snd) := by
  cases hlookup : l.lookup key with
  | none =>
      have hnot : key ∉ l.map Prod.fst := by
        intro hmem
        have hsome := lookup_isSome.mpr hmem
        rw [hlookup] at hsome
        cases hsome
      rw [erase_of_not_mem hnot]
      exact List.Perm.refl _
  | some a =>
      have hperm := (perm_erase h hlookup).map Prod.snd
      rw [List.map_append] at hperm
      exact List.perm_append_comm.trans hperm.symm

theorem evictFrom_perm (cap : Nat) (age : List κ) {entries : List (κ × α)}
    (h : (entries.map Prod.fst).Nodup) :
    ((evictFrom cap age entries).2 ++ (evictFrom cap age entries).1.entries.map Prod.snd).Perm
      (entries.map Prod.snd) := by
  induction age generalizing entries with
  | nil => exact List.Perm.refl _
  | cons oldest age ih =>
      unfold evictFrom
      split
      · dsimp only
        rw [List.append_assoc]
        exact ((ih (nodup_erase h oldest)).append_left _).trans (perm_delete h oldest)
      · exact List.Perm.refl _

/-- What goes and what is left is what was there. -/
theorem evict_perm (cap : Nat) {t : Aged κ α} (h : t.keys.Nodup) :
    ((t.evict cap).2 ++ (t.evict cap).1.entries.map Prod.snd).Perm (t.entries.map Prod.snd) :=
  evictFrom_perm cap t.age h

theorem remove_entries (t : Aged κ α) (key : κ) : (t.remove key).entries = erase t.entries key := by
  unfold Aged.remove
  split
  · rfl
  · rename_i h
    refine (erase_of_not_mem fun hmem => h ?_).symm
    exact lookup_isSome.mpr hmem

theorem lookup_evictFrom (cap : Nat) (age : List κ) (entries : List (κ × α)) {key : κ}
    (h : key ∈ (evictFrom cap age entries).1.keys) :
    (evictFrom cap age entries).1.entries.lookup key = entries.lookup key := by
  induction age generalizing entries with
  | nil => rfl
  | cons oldest age ih =>
      unfold evictFrom at h ⊢
      split
      · rename_i hfull
        rw [if_pos hfull] at h
        have hne : key ≠ oldest := by
          rintro rfl
          have hsublist := evictFrom_sublist cap age (erase entries key)
          have hmem := (hsublist.map Prod.fst).subset h
          exact (mem_keys_erase.mp hmem).2 rfl
        calc
          (evictFrom cap age (erase entries oldest)).1.entries.lookup key
              = (erase entries oldest).lookup key := ih _ h
          _ = entries.lookup key := lookup_erase_of_ne hne entries
      · rfl

/-- What does not go is as it was. -/
theorem lookup_evict {cap : Nat} {t : Aged κ α} {key : κ} (h : key ∈ (t.evict cap).1.keys) :
    (t.evict cap).1.entries.lookup key = t.entries.lookup key :=
  lookup_evictFrom cap t.age t.entries h

theorem lookup_update_self (t : Aged κ α) (key : κ) (f : α → α) :
    (t.update key f).entries.lookup key = (t.entries.lookup key).map f := by
  unfold Aged.update
  induction t.entries with
  | nil => rfl
  | cons e rest ih =>
      rw [List.map_cons]
      obtain ⟨k, a⟩ := e
      by_cases hkey : k = key
      · subst hkey
        simp
      · have hbeq : (k == key) = false := beq_false_of_ne hkey
        have hsymm : (key == k) = false := beq_false_of_ne fun h => hkey h.symm
        rw [hbeq, if_neg Bool.false_ne_true, List.lookup_cons, List.lookup_cons, hsymm]
        exact ih

theorem lookup_update_of_ne {key other : κ} (h : other ≠ key) (t : Aged κ α) (f : α → α) :
    (t.update key f).entries.lookup other = t.entries.lookup other := by
  unfold Aged.update
  induction t.entries with
  | nil => rfl
  | cons e rest ih =>
      rw [List.map_cons, List.lookup_cons, List.lookup_cons, ih]
      by_cases hkey : e.1 = key
      · have hbeq : (other == e.1) = false := by
          rw [hkey]
          exact beq_false_of_ne h
        rw [if_pos (beq_iff_eq.mpr hkey), hbeq]
      · rw [if_neg fun heq => hkey (eq_of_beq heq)]

/-! ## Limits -/

theorem evictFrom_covered {cap : Nat} (hcap : 0 < cap) {age : List κ} {entries : List (κ × α)}
    (h : Covered ⟨entries, age⟩) :
    (evictFrom cap age entries).1.Covered ∧
      (evictFrom cap age entries).1.entries.length < cap := by
  induction age generalizing entries with
  | nil =>
      have hnil : entries = [] := by
        apply List.eq_nil_iff_forall_not_mem.mpr
        intro e he
        exact absurd (h.covers e.1 (List.mem_map_of_mem he)) List.not_mem_nil
      subst hnil
      exact ⟨h, hcap⟩
  | cons oldest age ih =>
      unfold evictFrom
      split
      · have herased : Covered (⟨erase entries oldest, age⟩ : Aged κ α) := by
          constructor
          · exact nodup_erase h.nodup oldest
          · intro k hk
            obtain ⟨hmem, hne⟩ := mem_keys_erase.mp hk
            exact (List.mem_cons.mp (h.covers k hmem)).resolve_left hne
        exact ih herased
      · rename_i hlt
        exact ⟨h, Nat.lt_of_not_le hlt⟩

theorem Covered.evict {cap : Nat} {t : Aged κ α} (h : t.Covered) (hcap : 0 < cap) :
    (t.evict cap).1.Covered := (evictFrom_covered hcap h).1

/-- There is room for one more. -/
theorem Covered.length_evict_lt {cap : Nat} {t : Aged κ α} (h : t.Covered) (hcap : 0 < cap) :
    (t.evict cap).1.entries.length < cap := (evictFrom_covered hcap h).2

theorem Covered.put {t : Aged κ α} (h : t.Covered) (key : κ) (a : α) : (t.put key a).Covered := by
  constructor
  · exact nodup_assign h.nodup key a
  · intro k hk
    rcases mem_keys_assign hk with hold | rfl
    · exact List.mem_append_left _ (h.covers k hold)
    · exact List.mem_append_right _ List.mem_cons_self

theorem Covered.delete {t : Aged κ α} (h : t.Covered) (key : κ) : (t.delete key).Covered := by
  constructor
  · exact nodup_erase h.nodup key
  · intro k hk
    exact h.covers k (mem_keys_erase.mp hk).1

theorem Covered.remove {t : Aged κ α} (h : t.Covered) (key : κ) : (t.remove key).Covered := by
  unfold Aged.remove
  split
  · constructor
    · exact nodup_erase h.nodup key
    · intro k hk
      obtain ⟨hmem, hne⟩ := mem_keys_erase.mp hk
      exact (List.mem_erase_of_ne hne).mpr (h.covers k hmem)
  · exact h

omit [LawfulBEq κ] in
theorem length_delete_le (t : Aged κ α) (key : κ) :
    (t.delete key).entries.length ≤ t.entries.length := List.length_filter_le ..

omit [LawfulBEq κ] in
theorem length_remove_le (t : Aged κ α) (key : κ) :
    (t.remove key).entries.length ≤ t.entries.length := by
  unfold Aged.remove
  split
  · exact List.length_filter_le ..
  · exact Nat.le_refl _

/-! ## Order -/

theorem evictFrom_exact (cap : Nat) {entries : List (κ × α)}
    (h : (entries.map Prod.fst).Nodup) :
    evictFrom cap (entries.map Prod.fst) entries =
      (⟨entries.drop (entries.length + 1 - cap),
        (entries.drop (entries.length + 1 - cap)).map Prod.fst⟩,
        (entries.take (entries.length + 1 - cap)).map Prod.snd) := by
  induction entries with
  | nil => simp [evictFrom]
  | cons e rest ih =>
      rw [List.map_cons, List.nodup_cons] at h
      rw [List.map_cons, evictFrom]
      split
      · rename_i hle
        have hrest : erase (e :: rest) e.1 = rest := by
          rw [erase, List.filter_cons_of_neg (by simp)]
          exact erase_of_not_mem h.1
        have hcount : (e :: rest).length + 1 - cap = (rest.length + 1 - cap) + 1 := by
          rw [List.length_cons] at hle ⊢
          omega
        rw [hrest, ih h.2, List.lookup_cons_self, hcount, List.drop_succ_cons,
          List.take_succ_cons, List.map_cons]
        rfl
      · rename_i hlt
        have hcount : (e :: rest).length + 1 - cap = 0 := by
          omega
        rw [hcount, List.drop_zero, List.take_zero]
        rfl

/-- The entries that go are the oldest ones. -/
theorem Exact.evict_eq {t : Aged κ α} (h : t.Exact) (cap : Nat) :
    t.evict cap =
      (⟨t.entries.drop (t.entries.length + 1 - cap), t.age.drop (t.entries.length + 1 - cap)⟩,
        (t.entries.take (t.entries.length + 1 - cap)).map Prod.snd) := by
  unfold Aged.evict
  rw [h.age, keys, evictFrom_exact cap h.nodup, List.map_drop]

theorem Exact.evict {t : Aged κ α} (h : t.Exact) (cap : Nat) : (t.evict cap).1.Exact := by
  rw [h.evict_eq]
  constructor
  · exact h.nodup.sublist ((List.drop_sublist _ _).map _)
  · dsimp only
    rw [h.age, keys, keys, List.map_drop]

theorem Exact.put {t : Aged κ α} (h : t.Exact) {key : κ} (hkey : key ∉ t.keys) (a : α) :
    (t.put key a).Exact := by
  constructor
  · exact nodup_assign h.nodup key a
  · unfold Aged.put keys
    rw [assign_of_not_mem hkey, h.age, List.map_append]
    rfl

theorem Exact.delete {t : Aged κ α} (h : t.Exact) {key : κ} (hkey : key ∉ t.keys) :
    (t.delete key).Exact := by
  unfold Aged.delete
  rw [erase_of_not_mem hkey]
  exact h

theorem Exact.remove {t : Aged κ α} (h : t.Exact) (key : κ) : (t.remove key).Exact := by
  unfold Aged.remove
  split
  · constructor
    · exact nodup_erase h.nodup key
    · dsimp only [keys]
      rw [h.age, map_erase h.nodup]
      rfl
  · exact h

end Aged

end Ps2Servers
