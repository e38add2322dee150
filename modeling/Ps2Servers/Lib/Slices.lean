import Mathlib.Data.List.Basic
import Mathlib.Data.List.TakeWhile

/-!
# Indexing and slicing within bounds

Languages with checked slices stop the program where an index or the end of a slice is outside of
what it is taken of. Here such a stop is `none`, so that a program that never stops is one that always
gives `some`.

## Implementation notes

An index that is a constant or a length is a natural number; only a slice between two computed ends
takes integers, which may be negative. A slice may end at the length at most: where a language lets a
slice grow into the capacity of its array, this is stricter.
-/

namespace Ps2Servers.Slices

variable {α : Type*}

/-- `l[i]`. -/
def index (l : List α) (i : Nat) : Option α := l[i]?

/-- `l[lo:hi]`. -/
def between (l : List α) (lo hi : Int) : Option (List α) :=
  if 0 ≤ lo ∧ lo ≤ hi ∧ hi ≤ l.length then some ((l.drop lo.toNat).take (hi - lo).toNat) else none

/-- `l[lo:]`. -/
def suffix (l : List α) (lo : Nat) : Option (List α) := between l lo l.length

/-- `l[:hi]`. -/
def upTo (l : List α) (hi : Nat) : Option (List α) := between l 0 hi

/-- Elements are written over a window that has to be there. -/
def store (l : List α) (off : Nat) (v : List α) : Option (List α) :=
  if off + v.length ≤ l.length then some (l.take off ++ v ++ l.drop (off + v.length)) else none

/-- Windows are written one after the other. -/
def stores (l : List α) (fields : List (Nat × List α)) : Option (List α) :=
  fields.foldlM (fun l field => store l field.1 field.2) l

/-- What does not stop goes on. -/
theorem bind_eq.{u} {β γ : Type u} {x : Option β} {b : β} (h : x = some b) (f : β → Option γ) :
    x >>= f = f b := by
  rw [h, Option.bind_eq_bind, Option.bind_some]

theorem index_eq {l : List α} {i : Nat} (h : i < l.length) : index l i = some l[i] :=
  List.getElem?_eq_getElem h

@[simp] theorem index_zero_cons (a : α) (l : List α) : index (a :: l) 0 = some a := rfl

theorem between_eq {l : List α} {lo hi : Nat} (h : lo ≤ hi) (hl : hi ≤ l.length) :
    between l lo hi = some ((l.drop lo).take (hi - lo)) := by
  have hcount : ((hi : Int) - lo).toNat = hi - lo := by omega
  have hrange : (0 : Int) ≤ lo ∧ (lo : Int) ≤ hi ∧ (hi : Int) ≤ l.length := by omega
  rw [between, if_pos hrange, hcount, Int.toNat_natCast]

theorem suffix_eq {l : List α} {lo : Nat} (h : lo ≤ l.length) : suffix l lo = some (l.drop lo) := by
  have hrest : (l.drop lo).length ≤ l.length - lo := Nat.le_of_eq List.length_drop
  rw [suffix, between_eq h (Nat.le_refl _), List.take_of_length_le hrest]

theorem upTo_eq {l : List α} {hi : Nat} (h : hi ≤ l.length) : upTo l hi = some (l.take hi) :=
  between_eq (Nat.zero_le hi) h

@[simp] theorem suffix_one_cons (a : α) (l : List α) : suffix (a :: l) 1 = some l :=
  suffix_eq (Nat.succ_le_succ (Nat.zero_le _))

theorem index_last (front : List α) (a : α) :
    index (front ++ [a]) ((front ++ [a]).length - 1) = some a := by
  rw [List.length_append, List.length_singleton, Nat.add_sub_cancel]
  exact List.getElem?_concat_length

/-- The last of the pieces between separators is what stands behind the last separator. -/
theorem index_splitOn [DecidableEq α] (a : α) (l : List α) :
    index (l.splitOn a) ((l.splitOn a).length - 1) =
      some (l.reverse.takeWhile (fun b => decide (b ≠ a))).reverse := by
  have hsplit := List.takeWhile_append_dropWhile (p := fun b => decide (b ≠ a)) (l := l.reverse)
  cases hrest : l.reverse.dropWhile (fun b => decide (b ≠ a)) with
  | nil =>
      have hall : l.reverse.takeWhile (fun b => decide (b ≠ a)) = l.reverse := by
        rwa [hrest, List.append_nil] at hsplit
      have hmem : a ∉ l := by
        intro ha
        have hdrop := List.dropWhile_eq_nil_iff.mp hrest a (List.mem_reverse.mpr ha)
        simp at hdrop
      rw [List.splitOn_eq_singleton hmem, hall, List.reverse_reverse]
      rfl
  | cons b rest =>
      have hb : b = a := by
        have hhead := List.head?_dropWhile_not (fun b => decide (b ≠ a)) l.reverse
        rw [hrest] at hhead
        simpa using hhead
      have hclean : a ∉ (l.reverse.takeWhile (fun b => decide (b ≠ a))).reverse := by
        intro ha
        have hne := List.mem_takeWhile_imp (List.mem_reverse.mp ha)
        simp at hne
      have hl : l = rest.reverse ++ a :: (l.reverse.takeWhile (fun b => decide (b ≠ a))).reverse := by
        rw [hrest, hb] at hsplit
        have hreverse := congrArg List.reverse hsplit
        rw [List.reverse_reverse, List.reverse_append, List.reverse_cons, List.append_assoc] at hreverse
        exact hreverse.symm
      have hpieces : l.splitOn a = rest.reverse.splitOn a ++
          [(l.reverse.takeWhile (fun b => decide (b ≠ a))).reverse] := by
        calc l.splitOn a
            = (rest.reverse ++ a :: (l.reverse.takeWhile (fun b => decide (b ≠ a))).reverse).splitOn
                a := congrArg (List.splitOn a) hl
          _ = _ := by
              rw [List.splitOn_append_cons_self, List.splitOn_eq_singleton hclean]
      rw [hpieces]
      exact index_last _ _

/-- An element is sliced out where it comes first. -/
theorem slice_erase [BEq α] {a : α} {l : List α} {i : Nat} (h : l.idxOf? a = some i) :
    i + 1 ≤ l.length ∧ l.take i ++ l.drop (i + 1) = l.erase a := by
  obtain ⟨hi, -⟩ := List.findIdx?_eq_some_iff_getElem.mp h
  rw [List.erase_eq_eraseIdx, h]
  exact ⟨hi, (List.eraseIdx_eq_take_drop_succ l i).symm⟩

/-! ## Buffers -/

/-- The windows lie end to end from `off` on. -/
def Tiled : Nat → List (Nat × List α) → Prop
  | _, [] => True
  | off, (start, v) :: rest => start = off ∧ Tiled (off + v.length) rest

theorem store_append (front v rest : List α) {gap : List α} (h : gap.length = v.length) :
    store (front ++ gap ++ rest) front.length v = some (front ++ v ++ rest) := by
  have hfits : front.length + v.length ≤ (front ++ gap ++ rest).length := by
    rw [List.length_append, List.length_append]
    omega
  have hfront : (front ++ gap ++ rest).take front.length = front := by
    rw [List.append_assoc, List.take_left]
  have hrest : (front ++ gap ++ rest).drop (front.length + v.length) = rest := by
    rw [← h, ← List.length_append, List.drop_left]
  rw [store, if_pos hfits, hfront, hrest]

/-- Windows that tile the front of a buffer that is all `a` are written there. -/
theorem stores_tiled (a : α) (fields : List (Nat × List α)) :
    ∀ (front : List α) (n : Nat), Tiled front.length fields →
      stores (front ++ List.replicate ((fields.flatMap Prod.snd).length + n) a) fields =
        some (front ++ fields.flatMap Prod.snd ++ List.replicate n a) := by
  induction fields with
  | nil =>
      intro front n _
      simp [stores]
  | cons field rest ih =>
      intro front n htiled
      obtain ⟨hstart, hrest⟩ := htiled
      have hbuffer : front ++ List.replicate (((field :: rest).flatMap Prod.snd).length + n) a =
          front ++ List.replicate field.2.length a ++
            List.replicate ((rest.flatMap Prod.snd).length + n) a := by
        rw [List.flatMap_cons, List.length_append, Nat.add_assoc, List.replicate_add,
          List.append_assoc]
      have hstore := store_append front field.2
        (List.replicate ((rest.flatMap Prod.snd).length + n) a)
        (List.length_replicate (n := field.2.length) (a := a))
      have hnext := ih (front ++ field.2) n (by rw [List.length_append]; exact hrest)
      rw [hbuffer, stores, List.foldlM_cons, hstart, hstore]
      calc stores (front ++ field.2 ++ List.replicate ((rest.flatMap Prod.snd).length + n) a) rest
          = some (front ++ field.2 ++ rest.flatMap Prod.snd ++ List.replicate n a) := hnext
        _ = _ := by rw [List.flatMap_cons, List.append_assoc front]

/-- A buffer of zeros is filled by windows that tile it. -/
theorem stores_zeros {a : α} {fields : List (Nat × List α)} {size n : Nat} (htiled : Tiled 0 fields)
    (hsize : size = (fields.flatMap Prod.snd).length + n) :
    stores (List.replicate size a) fields =
      some (fields.flatMap Prod.snd ++ List.replicate n a) := by
  rw [hsize]
  exact stores_tiled a fields [] n htiled

end Ps2Servers.Slices
