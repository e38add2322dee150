import Mathlib.Data.List.Basic
import Mathlib.Data.List.TakeWhile

/-!
# Intervals in order

Nonempty intervals of numbers that follow one another without overlap. The last one
that starts at or before a point is the only one that can hold it, so a search by
starting points finds what holds the point, or the gap around it.
-/

namespace Ps2Servers.Intervals

variable {α : Type*} (start stop : α → Nat)

/-- Nonempty, one behind the other. -/
structure Ordered (l : List α) : Prop where
  nonempty : ∀ a ∈ l, start a < stop a
  apart : l.Pairwise fun a b => stop a ≤ start b

/-- `l[bisect_right(starts, x) - 1]`: the last one that starts at or before `x`. -/
def before (l : List α) (x : Nat) : Option α := (l.takeWhile fun a => decide (start a ≤ x)).getLast?

/-- `l[bisect_right(starts, x)]`: the first one that starts behind `x`. -/
def after (l : List α) (x : Nat) : Option α := (l.dropWhile fun a => decide (start a ≤ x)).head?

variable {start stop} {l : List α} {a : α} {x : Nat}

/-- In order, and from `low` up to `high`. -/
structure Between (start stop : α → Nat) (low high : Nat) (l : List α) : Prop where
  ordered : Ordered start stop l
  inside : ∀ a ∈ l, low ≤ start a ∧ stop a ≤ high

theorem Between.nil (low high : Nat) : Between start stop low high [] := by
  refine ⟨⟨?_, List.Pairwise.nil⟩, ?_⟩
  · intro a ha
    cases ha
  · intro a ha
    cases ha

theorem Between.single {low high : Nat} (h : start a < stop a) (hlow : low ≤ start a)
    (hhigh : stop a ≤ high) : Between start stop low high [a] := by
  refine ⟨⟨?_, List.pairwise_singleton _ _⟩, ?_⟩
  · intro b hb
    cases List.mem_singleton.mp hb
    exact h
  · intro b hb
    cases List.mem_singleton.mp hb
    exact ⟨hlow, hhigh⟩

theorem Between.mono {low high low' high' : Nat} (h : Between start stop low high l)
    (hlow : low' ≤ low) (hhigh : high ≤ high') : Between start stop low' high' l := by
  refine ⟨h.ordered, fun a ha => ?_⟩
  have := h.inside a ha
  omega

/-- One part behind the other. -/
theorem Between.append {low middle high : Nat} {k : List α} (hk : Between start stop low middle k)
    (hl : Between start stop middle high l) (hlow : low ≤ middle) (hhigh : middle ≤ high) :
    Between start stop low high (k ++ l) := by
  refine ⟨⟨?_, ?_⟩, ?_⟩
  · intro a ha
    rcases List.mem_append.mp ha with ha | ha
    · exact hk.ordered.nonempty a ha
    · exact hl.ordered.nonempty a ha
  · rw [List.pairwise_append]
    refine ⟨hk.ordered.apart, hl.ordered.apart, fun a ha b hb => ?_⟩
    exact Nat.le_trans (hk.inside a ha).2 (hl.inside b hb).1
  · intro a ha
    rcases List.mem_append.mp ha with ha | ha
    · exact (hk.mono (Nat.le_refl _) hhigh).inside a ha
    · exact (hl.mono hlow (Nat.le_refl _)).inside a ha

theorem Ordered.tail (h : Ordered start stop (a :: l)) : Ordered start stop l :=
  ⟨fun b hb => h.nonempty b (List.mem_cons_of_mem a hb), h.apart.of_cons⟩

theorem Ordered.head_lt (h : Ordered start stop (a :: l)) {b : α} (hb : b ∈ l) :
    start a < start b :=
  Nat.lt_of_lt_of_le (h.nonempty a List.mem_cons_self) (List.rel_of_pairwise_cons h.apart hb)

theorem mem_of_before (h : before start l x = some a) : a ∈ l ∧ start a ≤ x := by
  have hmem : a ∈ l.takeWhile fun a => decide (start a ≤ x) := List.mem_of_getLast? h
  have hle := List.mem_takeWhile_imp hmem
  exact ⟨List.IsPrefix.subset (List.takeWhile_prefix _) hmem, of_decide_eq_true hle⟩

theorem before_cons (b : α) (l : List α) (x : Nat) :
    before start (b :: l) x =
      if start b ≤ x then some ((before start l x).getD b) else none := by
  unfold before
  rw [List.takeWhile_cons]
  by_cases hb : start b ≤ x
  · rw [if_pos (decide_eq_true hb), if_pos hb, List.getLast?_cons]
  · rw [if_neg (by simpa using hb), if_neg hb]
    rfl

/-- The search finds the interval that holds the point. -/
theorem before_of_mem (h : Ordered start stop l) (ha : a ∈ l) (hx : start a ≤ x)
    (hlt : x < stop a) : before start l x = some a := by
  induction l with
  | nil => cases ha
  | cons b rest ih =>
      rw [before_cons]
      rcases List.mem_cons.mp ha with rfl | hrest
      · rw [if_pos hx]
        cases hb : before start rest x with
        | none => rfl
        | some c =>
            have hc := mem_of_before hb
            have hle : stop a ≤ start c := List.rel_of_pairwise_cons h.apart hc.1
            omega
      · have hb := h.head_lt hrest
        rw [if_pos (by omega), ih h.tail hrest]
        rfl

theorem after_cons (b : α) (l : List α) (x : Nat) :
    after start (b :: l) x = if start b ≤ x then after start l x else some b := by
  unfold after
  rw [List.dropWhile_cons]
  by_cases hb : start b ≤ x
  · rw [if_pos (decide_eq_true hb), if_pos hb]
  · rw [if_neg (by simpa using hb), if_neg hb]
    rfl

theorem lt_of_after (h : after start l x = some a) : x < start a ∧ a ∈ l := by
  induction l with
  | nil => cases h
  | cons b rest ih =>
      rw [after_cons] at h
      split at h
      · exact ⟨(ih h).1, List.mem_cons_of_mem b (ih h).2⟩
      · cases h
        exact ⟨by omega, List.mem_cons_self⟩

/-- Behind what starts before `x` and ends before `y`, nothing holds `y` until something
starts behind `x`. -/
theorem gap (h : Ordered start stop l) {y : Nat} (hxy : x ≤ y)
    (hbefore : ∀ a, before start l x = some a → stop a ≤ x)
    (hafter : ∀ a, after start l x = some a → y < start a) (ha : a ∈ l) :
    ¬ (start a ≤ y ∧ y < stop a) := by
  induction l with
  | nil => cases ha
  | cons b rest ih =>
      rw [before_cons] at hbefore
      rw [after_cons] at hafter
      by_cases hb : start b ≤ x
      · rw [if_pos hb] at hbefore hafter
        rcases List.mem_cons.mp ha with rfl | hrest
        · rintro ⟨hlow, hhigh⟩
          cases hc : before start rest x with
          | none =>
              have := hbefore a (by rw [hc]; rfl)
              omega
          | some c =>
              have hc' := mem_of_before hc
              have hle : stop a ≤ start c := List.rel_of_pairwise_cons h.apart hc'.1
              omega
        · apply ih h.tail _ hafter hrest
          intro c hc
          apply hbefore
          rw [hc]
          rfl
      · rw [if_neg hb] at hafter
        have hy := hafter b rfl
        rcases List.mem_cons.mp ha with rfl | hrest
        · omega
        · have := h.head_lt hrest
          omega

/-! ## Without gaps -/

/-- One behind the other without a gap, from `low` up to `high`. -/
inductive Contiguous (start stop : α → Nat) (low : Nat) : Nat → List α → Prop
  | nil : Contiguous start stop low low []
  | snoc {high : Nat} {l : List α} {a : α} (h : Contiguous start stop low high l)
      (hstart : start a = high) (hlt : start a < stop a) :
      Contiguous start stop low (stop a) (l ++ [a])

theorem Contiguous.le {low high : Nat} (h : Contiguous start stop low high l) : low ≤ high := by
  induction h with
  | nil => exact Nat.le_refl low
  | snoc _ hstart hlt ih => omega

theorem Contiguous.between {low high : Nat} (h : Contiguous start stop low high l) :
    Between start stop low high l := by
  induction h with
  | nil => exact Between.nil low low
  | snoc h hstart hlt ih =>
      apply ih.append (Between.single hlt (Nat.le_of_eq hstart.symm) (Nat.le_refl _)) h.le
      omega

section

variable {β : Type*} (piece : α → Nat → β)

/-- What the intervals have at their points, in order. -/
def pieces (start stop : α → Nat) (l : List α) : List β :=
  l.flatMap fun a => (List.range (stop a - start a)).map (piece a)

theorem pieces_concat (l : List α) (a : α) :
    pieces piece start stop (l ++ [a]) =
      pieces piece start stop l ++ (List.range (stop a - start a)).map (piece a) := by
  unfold pieces
  rw [List.flatMap_append, List.flatMap_singleton]

theorem Contiguous.length_pieces {low high : Nat} (h : Contiguous start stop low high l) :
    (pieces piece start stop l).length = high - low := by
  induction h with
  | nil => exact (Nat.sub_self low).symm
  | snoc h hstart hlt ih =>
      have hle := h.le
      rw [pieces_concat, List.length_append, ih, List.length_map, List.length_range]
      omega

/-- At a point is what the interval around it has there. -/
theorem Contiguous.getElem?_pieces {low high : Nat} (h : Contiguous start stop low high l)
    (hlow : low ≤ x) (hhigh : x < high) :
    ∃ a ∈ l, start a ≤ x ∧ x < stop a ∧
      (pieces piece start stop l)[x - low]? = some (piece a (x - start a)) := by
  induction h with
  | nil => omega
  | @snoc high l a h hstart hlt ih =>
      have hle := h.le
      have hlength := h.length_pieces piece
      rw [pieces_concat]
      by_cases hx : x < high
      · obtain ⟨b, hb, hfrom, hto, hpiece⟩ := ih hx
        refine ⟨b, List.mem_append_left _ hb, hfrom, hto, ?_⟩
        rw [List.getElem?_append_left (by omega), hpiece]
      · refine ⟨a, List.mem_append_right _ List.mem_cons_self, by omega, hhigh, ?_⟩
        rw [List.getElem?_append_right (by omega), hlength,
          show x - low - (high - low) = x - start a by omega, List.getElem?_map,
          List.getElem?_range (by omega)]
        rfl

end

end Ps2Servers.Intervals
