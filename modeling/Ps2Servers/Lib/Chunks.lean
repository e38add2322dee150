import Mathlib.Data.List.Basic
import Mathlib.Data.List.Flatten
import Mathlib.Data.List.Range

/-!
# Numbered chunks that add up to one transfer

A transfer arrives as chunks numbered from zero. The receiver takes the chunk whose
number it expects and passes over all others, and each chunk says how many there are:
the transfer is over with the one that reaches this count, or with one that does not fit
any more. What was taken are the chunks 0, 1, 2 and so on in the order they came.
-/

namespace Ps2Servers.Chunks

variable {α : Type*}

structure Chunk (α : Type*) where
  nr : Nat
  body : List α
  /-- How many chunks there are, by this one. -/
  total : Nat
  deriving DecidableEq, Repr

/-- What the messages of a transfer have come to. -/
inductive Assembly (α : Type*)
  | collecting (received : Nat) (data : List α)
  /-- The last message was the last chunk. -/
  | complete (data : List α)
  /-- The last message was a chunk that did not fit. -/
  | refused
  | closed
  deriving DecidableEq, Repr

/-- One more message. One that holds no chunk is `none`. -/
def Assembly.add (limit : Nat) : Assembly α → Option (Chunk α) → Assembly α
  | collecting received data, none => collecting received data
  | collecting received data, some c =>
      if c.nr ≠ received then collecting received data
      else if limit < data.length + c.body.length then refused
      else if c.total ≤ received + 1 then complete (data ++ c.body)
      else collecting (received + 1) (data ++ c.body)
  | _, _ => closed

def assembled (limit : Nat) (messages : List (Option (Chunk α))) : Assembly α :=
  messages.foldl (Assembly.add limit) (.collecting 0 [])

/-- The chunks taken, with one more message. -/
def takeNext (taken : List (Chunk α)) : Option (Chunk α) → List (Chunk α)
  | none => taken
  | some c => if c.nr = taken.length then taken ++ [c] else taken

/-- The chunks with the numbers 0, 1, 2 and so on, in the order they came. -/
def accepted (messages : List (Option (Chunk α))) : List (Chunk α) := messages.foldl takeNext []

theorem add_chunk (limit received : Nat) (data : List α) (c : Chunk α) :
    (Assembly.collecting received data).add limit (some c) =
      if c.nr ≠ received then .collecting received data
      else if limit < data.length + c.body.length then .refused
      else if c.total ≤ received + 1 then .complete (data ++ c.body)
      else .collecting (received + 1) (data ++ c.body) := rfl

/-- A message closes no open transfer without being its last. -/
theorem add_ne_closed {limit received : Nat} (data : List α) (message : Option (Chunk α)) :
    (Assembly.collecting received data).add limit message ≠ .closed := by
  cases message with
  | none => simp [Assembly.add]
  | some c =>
      rw [add_chunk]
      split
      · simp
      split
      · simp
      split <;> simp

theorem assembled_concat (limit : Nat) (messages : List (Option (Chunk α)))
    (message : Option (Chunk α)) :
    assembled limit (messages ++ [message]) = (assembled limit messages).add limit message := by
  simp [assembled]

theorem accepted_concat (messages : List (Option (Chunk α))) (message : Option (Chunk α)) :
    accepted (messages ++ [message]) = takeNext (accepted messages) message := by
  simp [accepted]

/-- The chunks taken carry the numbers from zero. -/
theorem accepted_nr (messages : List (Option (Chunk α))) :
    (accepted messages).map Chunk.nr = List.range (accepted messages).length := by
  induction messages using List.reverseRecOn with
  | nil => rfl
  | append_singleton messages message ih =>
      rw [accepted_concat]
      cases message with
      | none => exact ih
      | some c =>
          by_cases hnr : c.nr = (accepted messages).length
          · simp [takeNext, hnr, ih, List.range_succ]
          · simpa [takeNext, hnr] using ih

/-- What an open transfer holds. -/
structure Holds (limit : Nat) (messages : List (Option (Chunk α))) (received : Nat)
    (data : List α) : Prop where
  count : received = (accepted messages).length
  bodies : data = (accepted messages).flatMap Chunk.body
  fits : data.length ≤ limit

theorem holds_of_collecting {limit : Nat} {messages : List (Option (Chunk α))} {received : Nat}
    {data : List α} (h : assembled limit messages = .collecting received data) :
    Holds limit messages received data := by
  induction messages using List.reverseRecOn generalizing received data with
  | nil =>
      cases h
      exact ⟨rfl, rfl, Nat.zero_le _⟩
  | append_singleton messages message ih =>
      rw [assembled_concat] at h
      cases hopen : assembled limit messages with
      | collecting n d =>
          obtain ⟨hn, hd, hfits⟩ := ih hopen
          rw [hopen] at h
          cases message with
          | none =>
              cases h
              exact ⟨by rw [accepted_concat]; exact hn, by rw [accepted_concat]; exact hd, hfits⟩
          | some c =>
              rw [add_chunk] at h
              have htake : accepted (messages ++ [some c]) =
                  if c.nr = n then accepted messages ++ [c] else accepted messages := by
                rw [accepted_concat, takeNext, hn]
              by_cases hnr : c.nr = n
              · rw [if_neg (not_not.mpr hnr)] at h
                rw [if_pos hnr] at htake
                split at h
                · cases h
                · rename_i hlimit
                  split at h
                  · cases h
                  · cases h
                    refine ⟨?_, ?_, ?_⟩
                    · rw [htake, hn, List.length_append, List.length_singleton]
                    · rw [htake, hd, List.flatMap_append, List.flatMap_singleton]
                    · rw [List.length_append]
                      exact Nat.not_lt.mp hlimit
              · rw [if_pos hnr] at h
                rw [if_neg hnr] at htake
                cases h
                exact ⟨htake ▸ hn, htake ▸ hd, hfits⟩
      | complete d => simp [hopen, Assembly.add] at h
      | refused => simp [hopen, Assembly.add] at h
      | closed => simp [hopen, Assembly.add] at h

/-- The message that completes a transfer is a chunk, and what was transferred are the bodies of
all chunks taken, this one last. -/
theorem complete_concat {limit : Nat} {messages : List (Option (Chunk α))}
    {message : Option (Chunk α)} {data : List α}
    (h : assembled limit (messages ++ [message]) = .complete data) :
    ∃ c, message = some c ∧ accepted (messages ++ [message]) = accepted messages ++ [c] ∧
      data = (accepted (messages ++ [message])).flatMap Chunk.body ∧ data.length ≤ limit := by
  rw [assembled_concat] at h
  cases hopen : assembled limit messages with
  | collecting n d =>
      obtain ⟨hn, hd, -⟩ := holds_of_collecting hopen
      rw [hopen] at h
      cases message with
      | none => cases h
      | some c =>
          rw [add_chunk] at h
          by_cases hnr : c.nr = n
          · have htake : accepted (messages ++ [some c]) = accepted messages ++ [c] := by
              rw [accepted_concat, takeNext, if_pos (hnr.trans hn)]
            rw [if_neg (not_not.mpr hnr)] at h
            split at h
            · cases h
            · rename_i hlimit
              split at h
              · cases h
                refine ⟨c, rfl, htake, ?_, ?_⟩
                · rw [htake, hd, List.flatMap_append, List.flatMap_singleton]
                · rw [List.length_append]
                  exact Nat.not_lt.mp hlimit
              · cases h
          · rw [if_pos hnr] at h
            cases h
  | complete d => simp [hopen, Assembly.add] at h
  | refused => simp [hopen, Assembly.add] at h
  | closed => simp [hopen, Assembly.add] at h

theorem length_of_complete {limit : Nat} {messages : List (Option (Chunk α))} {data : List α}
    (h : assembled limit messages = .complete data) : data.length ≤ limit := by
  obtain rfl | ⟨front, message, rfl⟩ := List.eq_nil_or_concat messages
  · cases h
  · rw [List.concat_eq_append] at h
    obtain ⟨_, -, -, -, hfits⟩ := complete_concat h
    exact hfits

theorem data_of_complete {limit : Nat} {messages : List (Option (Chunk α))} {data : List α}
    (h : assembled limit messages = .complete data) :
    data = (accepted messages).flatMap Chunk.body := by
  obtain rfl | ⟨front, message, rfl⟩ := List.eq_nil_or_concat messages
  · cases h
  · rw [List.concat_eq_append] at h ⊢
    obtain ⟨_, -, -, hdata, -⟩ := complete_concat h
    exact hdata

/-- The chunks from number `k` on of a transfer of `n`. -/
def WholeFrom (n : Nat) : Nat → List (Chunk α) → Prop
  | k, [] => k = n
  | k, c :: rest => c.nr = k ∧ c.total = n ∧ WholeFrom n (k + 1) rest

theorem WholeFrom.le {n : Nat} {chunks : List (Chunk α)} {k : Nat} (h : WholeFrom n k chunks) :
    k ≤ n := by
  induction chunks generalizing k with
  | nil => exact Nat.le_of_eq h
  | cons c rest ih =>
      have hrest := ih h.2.2
      omega

end Ps2Servers.Chunks
