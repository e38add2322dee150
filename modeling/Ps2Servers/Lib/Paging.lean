import Mathlib.Data.List.Basic

/-!
# Listings given out item by item

Each answer carries the next item of a listing and says whether it is the last one. When nothing is
left the answers carry nothing.
-/

namespace Ps2Servers.Paging

variable {α : Type*}

/-- The items, each with whether it is the last one. -/
def marked : List α → List (α × Bool)
  | [] => []
  | a :: rest => (a, rest.isEmpty) :: marked rest

theorem marked_append (l : List α) (a : α) :
    marked (l ++ [a]) = l.map (fun b => (b, false)) ++ [(a, true)] := by
  induction l with
  | nil => rfl
  | cons b rest ih =>
      have hmore : (rest ++ [a]).isEmpty = false := by
        cases rest with
        | nil => rfl
        | cons c rest => rfl
      rw [List.cons_append, marked, hmore, ih]
      rfl

theorem map_snd_marked {l : List α} (h : l ≠ []) :
    (marked l).map Prod.snd = List.replicate (l.length - 1) false ++ [true] := by
  have hsplit := marked_append l.dropLast (l.getLast h)
  rw [List.dropLast_append_getLast h] at hsplit
  rw [hsplit, List.map_append, List.map_map, ← List.length_dropLast]
  congr 1
  exact List.map_const'

theorem map_fst_marked (l : List α) : (marked l).map Prod.fst = l := by
  induction l with
  | nil => rfl
  | cons a rest ih => rw [marked, List.map_cons, ih]

theorem length_marked (l : List α) : (marked l).length = l.length := by
  calc
    (marked l).length = ((marked l).map Prod.fst).length := List.length_map _ |>.symm
    _ = l.length := by rw [map_fst_marked]

/-- The answers to so many questions when this is left. -/
def told : List α → Nat → List (Option (α × Bool))
  | _, 0 => []
  | [], n + 1 => none :: told [] n
  | a :: rest, n + 1 => some (a, rest.isEmpty) :: told rest n

theorem told_nil (n : Nat) : told ([] : List α) n = List.replicate n none := by
  induction n with
  | zero => rfl
  | succ n ih => rw [told, ih, List.replicate_succ]

theorem told_succ (l : List α) (n : Nat) :
    told l (n + 1) = (marked l).head? :: told l.tail n := by
  cases l with
  | nil => rfl
  | cons a rest => rfl

/-- The item under a cursor. -/
theorem head?_marked_drop (l : List α) (cursor : Nat) :
    (marked (l.drop cursor)).head? = l[cursor]?.map fun a => (a, decide (cursor + 1 = l.length)) := by
  induction l generalizing cursor with
  | nil => simp [marked]
  | cons a rest ih =>
      cases cursor with
      | zero =>
          cases rest with
          | nil => rfl
          | cons b rest => rfl
      | succ cursor =>
          rw [List.drop_succ_cons, ih, List.getElem?_cons_succ, List.length_cons]
          simp only [Nat.add_right_cancel_iff]

/-- Every item once and in order, the last one marked, and then nothing. -/
theorem told_eq (l : List α) (n : Nat) :
    told l n = ((marked l).take n).map some ++ List.replicate (n - l.length) none := by
  induction l generalizing n with
  | nil =>
      rw [told_nil, marked, List.take_nil, List.map_nil, List.nil_append, List.length_nil, Nat.sub_zero]
  | cons a rest ih =>
      cases n with
      | zero => simp [told]
      | succ n =>
          have hcount : n + 1 - (a :: rest).length = n - rest.length := by
            rw [List.length_cons]
            exact Nat.add_sub_add_right n 1 rest.length
          rw [told, ih, hcount, marked, List.take_succ_cons, List.map_cons, List.cons_append]

end Ps2Servers.Paging
