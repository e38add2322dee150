import Mathlib.Data.List.Infix

/-!
# Wildcard patterns

A pattern is a list of tokens: a run of anything, or one letter of a set. Its width is the length of
the shortest words it can match. What a pattern matches can be cut down to a word of that length that it
matches as well, so two patterns of different widths agree only where the narrow one matches nothing.
-/

namespace Ps2Servers.Glob

variable {α : Type*}

inductive Token (α : Type*)
  | star
  | one (accepts : α → Bool)

/-- The token takes one letter. -/
def Token.isOne : Token α → Bool
  | star => false
  | one _ => true

/-- The word matches the pattern. -/
def Matches : List (Token α) → List α → Bool
  | [], s => s.isEmpty
  | .star :: ts, s => s.tails.any (Matches ts)
  | .one _ :: _, [] => false
  | .one accepts :: ts, a :: s => accepts a && Matches ts s

/-- How many letters a match needs. -/
def width (ts : List (Token α)) : Nat := ts.countP Token.isOne

theorem matches_star {ts : List (Token α)} {s : List α} :
    Matches (.star :: ts) s = true ↔ ∃ t, t <:+ s ∧ Matches ts t = true := by
  rw [Matches, List.any_eq_true]
  constructor
  · rintro ⟨t, ht, hmatch⟩
    exact ⟨t, (List.mem_tails t s).mp ht, hmatch⟩
  · rintro ⟨t, ht, hmatch⟩
    exact ⟨t, (List.mem_tails t s).mpr ht, hmatch⟩

/-- A pattern of letters alone is a word, up to what the letters are compared by. -/
theorem matches_letters {β : Type*} [BEq β] [LawfulBEq β] (f : α → β) {word s : List α} :
    Matches (word.map fun c => .one fun a => f a == f c) s = true ↔ s.map f = word.map f := by
  induction word generalizing s with
  | nil => simp [Matches]
  | cons c word ih =>
      cases s with
      | nil => simp [Matches]
      | cons a s =>
          rw [List.map_cons, Matches, Bool.and_eq_true_iff, beq_iff_eq, ih]
          simp

/-- A match can be cut down to as many letters as the pattern needs. -/
theorem exists_shortest {ts : List (Token α)} {s : List α} (h : Matches ts s = true) :
    ∃ t, t.Sublist s ∧ t.length = width ts ∧ Matches ts t = true := by
  induction ts generalizing s with
  | nil => exact ⟨[], List.nil_sublist s, rfl, rfl⟩
  | cons token ts ih =>
      cases token with
      | star =>
          obtain ⟨u, hu, hmatch⟩ := matches_star.mp h
          obtain ⟨t, ht, hlength, hshort⟩ := ih hmatch
          exact ⟨t, ht.trans hu.sublist, hlength, matches_star.mpr ⟨t, List.suffix_refl t, hshort⟩⟩
      | one accepts =>
          cases s with
          | nil => cases h
          | cons a s =>
              obtain ⟨ha, hmatch⟩ := Bool.and_eq_true_iff.mp h
              obtain ⟨t, ht, hlength, hshort⟩ := ih hmatch
              refine ⟨a :: t, ht.cons_cons a, ?_, Bool.and_eq_true_iff.mpr ⟨ha, hshort⟩⟩
              rw [List.length_cons, hlength]
              exact (List.countP_cons_of_pos rfl).symm

/-- A match is at least as long as the pattern is wide. -/
theorem width_le {ts : List (Token α)} {s : List α} (h : Matches ts s = true) :
    width ts ≤ s.length := by
  obtain ⟨t, ht, hlength, -⟩ := exists_shortest h
  rw [← hlength]
  exact ht.length_le

/-- A pattern that is narrower than another matches something else than it, or nothing. -/
theorem separated {ts us : List (Token α)} (hwidth : width ts < width us) {s : List α}
    (h : Matches ts s = true) : ∃ t, t.Sublist s ∧ t.length = width ts ∧ Matches ts t = true ∧
      Matches us t = false := by
  obtain ⟨t, ht, hlength, hshort⟩ := exists_shortest h
  refine ⟨t, ht, hlength, hshort, ?_⟩
  cases hwide : Matches us t with
  | false => rfl
  | true =>
      have hle := width_le hwide
      omega

end Ps2Servers.Glob
