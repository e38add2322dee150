import Ps2Servers.Lib.Glob
import Ps2Servers.Smb2.Host

/-!
# Search patterns

What a QUERY_DIRECTORY lists of a directory. The protocol's patterns know `*` and `?`; the server hands
them to `fnmatch`, which also takes a bracket expression for one character of a set.

## Implementation notes

What a bracket expression matches is left open: nothing depends on it. The server compares texts that
it has lower-cased as a whole, where a capital sigma at the end of a word has a letter of its own and
a dotted capital I makes two; a pattern is about one character after the other. Of `str.lower` it is
asked that the letters it makes stay as they are, that a whole text comes out as long as its characters
one by one, and that it neither makes nor takes away a character that patterns or paths use.
-/

namespace Ps2Servers.Smb2

open Text Glob

def asterisk : CodePoint := .char '*'

def question : CodePoint := .char '?'

def opening : CodePoint := .char '['

def closing : CodePoint := .char ']'

def bang : CodePoint := .char '!'

/-! ## `fnmatch` -/

/-- The text of the bracket expression that `[` and these characters make, if they make one. A `]` that
comes first, or first behind a `!`, belongs to the text. -/
def classOf (rest : Str) : Option Str :=
  let start := if rest.head? = some bang then 1 else 0
  let start := if rest[start]? = some closing then start + 1 else start
  ((rest.drop start).findIdx? (· == closing)).map fun k => rest.take (start + k)

/-- The bracket expression that starts here. -/
def classAt (c : CodePoint) (rest : Str) : Option Str := if c = opening then classOf rest else none

/-- A character of a pattern, outside of a bracket expression. -/
def letter (c : CodePoint) : Token CodePoint :=
  if c = asterisk then .star else if c = question then .one fun _ => true else .one (· == c)

/-- The tokens of a pattern, whose first `skip` characters have been taken. -/
def tokens (inClass : Str → CodePoint → Bool) : (skip : Nat) → Str → List (Token CodePoint)
  | _, [] => []
  | skip + 1, _ :: rest => tokens inClass skip rest
  | 0, c :: rest =>
      match classAt c rest with
      | some text => .one (inClass text) :: tokens inClass (text.length + 1) rest
      | none => letter c :: tokens inClass 0 rest

/-- `fnmatch.fnmatch`. -/
def fnmatch (inClass : Str → CodePoint → Bool) (name pattern : Str) : Bool :=
  Matches (tokens inClass 0 pattern) name

/-- The pattern has a bracket expression. -/
def hasClass : Str → Bool
  | [] => false
  | c :: rest => (classAt c rest).isSome || hasClass rest

/-- A pattern of the protocol. -/
def wildcards (pattern : Str) : List (Token CodePoint) := pattern.map letter

/-! ## `_listing_for` -/

def dots : List Name := [[dot], [dot, dot]]

/-- `str` is compared by its code points. -/
def inOrder : Name → Name → Bool
  | [], _ => true
  | _ :: _, [] => false
  | c :: a, d :: b => decide (c.toNat < d.toNat) || (c.toNat == d.toNat && inOrder a b)

variable {H F : Type} (host : Host H F)

/-- `_listing_for`, where `os.listdir` gives these names. -/
def listingOf (listed : List Name) (pattern : Str) : List Name :=
  let names := listed.mergeSort inOrder
  if pattern ≠ [] ∧ pattern ≠ lit "*" ∧ pattern ≠ lit "*.*" then
    dots ++ names.filter fun n => host.fnmatch (host.letters.lower n) (host.letters.lower pattern)
  else dots ++ names

/-- `_listing_for`. -/
def listingFor (h : H) (path : Path) (pattern : Str) : List Name :=
  match host.listdir h path with
  | .ok listed => listingOf host listed pattern
  | .error _ => listingOf host [] pattern

/-- The pattern of a request: an empty one is `*`. -/
def requested (pattern : Str) : Str := if pattern = [] then lit "*" else pattern

/-! ## What a pattern names -/

/-- A character of a pattern, which stands for itself in either case. -/
def caseless (lower : Str → Str) (c : CodePoint) : Token CodePoint :=
  if c = asterisk then .star else if c = question then .one fun _ => true
  else .one fun d => lower [d] == lower [c]

/-- The name is one of those that the pattern stands for. -/
def Named (lower : Str → Str) (pattern : Str) (name : Name) : Prop :=
  pattern = lit "*.*" ∨ Matches (pattern.map (caseless lower)) name = true

/-- The text is lower-cased one character for another. -/
def Charwise (lower : Str → Str) (s : Str) : Prop :=
  lower s = s.flatMap (fun c => lower [c]) ∧ ∀ c ∈ s, (lower [c]).length = 1

instance (lower : Str → Str) (s : Str) : Decidable (Charwise lower s) :=
  inferInstanceAs (Decidable (_ ∧ _))

/-- A name that a directory can have. -/
def Proper (name : Str) : Prop := name ≠ [] ∧ slash ∉ name ∧ NUL ∉ name

instance (name : Str) : Decidable (Proper name) := inferInstanceAs (Decidable (_ ∧ _))

/-- The text has no character that means something else in a pattern. -/
def Literal (s : Str) : Prop := asterisk ∉ s ∧ question ∉ s ∧ opening ∉ s

instance (s : Str) : Decidable (Literal s) := inferInstanceAs (Decidable (_ ∧ _))

/-- The characters that `str.lower` has to leave alone. -/
def marks : Str := [asterisk, question, opening, dot, slash, NUL]

/-- What is asked of `str.lower`. -/
structure Lowers (lower : Str → Str) : Prop where
  lowered : ∀ s, ∀ c ∈ lower s, lower [c] = [c]
  fixed : ∀ s, (∀ c ∈ s, lower [c] = [c]) → lower s = s
  kept : ∀ s, ∀ c ∈ marks, c ∈ lower s ↔ c ∈ s
  nonempty : ∀ c, lower [c] ≠ []
  length : ∀ s, (lower s).length = (s.flatMap fun c => lower [c]).length

variable {inClass : Str → CodePoint → Bool}

/-! ## Patterns without a bracket expression -/

theorem tokens_of_not_hasClass {pattern : Str} (h : hasClass pattern = false) :
    tokens inClass 0 pattern = wildcards pattern := by
  induction pattern with
  | nil => rfl
  | cons c rest ih =>
      obtain ⟨hclass, hrest⟩ := Bool.or_eq_false_iff.mp h
      have hnone : classAt c rest = none := Option.isSome_eq_false_iff.mp hclass |> Option.isNone_iff_eq_none.mp
      rw [tokens, hnone]
      exact congrArg (letter c :: ·) (ih hrest)

/-! ## Patterns with one -/

/-- A bracket expression ends with a `]`. -/
theorem classOf_eq_some {rest text : Str} (h : classOf rest = some text) :
    ∃ after, rest = text ++ closing :: after := by
  unfold classOf at h
  dsimp only at h
  generalize (if rest[(if rest.head? = some bang then 1 else 0)]? = some closing then
    (if rest.head? = some bang then 1 else 0) + 1 else if rest.head? = some bang then 1 else 0) =
      start at h
  obtain ⟨k, hk, rfl⟩ := Option.map_eq_some_iff.mp h
  obtain ⟨hlt, hclosing, -⟩ := List.findIdx?_eq_some_iff_getElem.mp hk
  rw [List.length_drop] at hlt
  have hindex : start + k < rest.length := by omega
  have hat : rest[start + k] = closing := by
    rw [List.getElem_drop] at hclosing
    simpa using hclosing
  refine ⟨rest.drop (start + k + 1), ?_⟩
  rw [← hat, ← List.drop_eq_getElem_cons hindex, List.take_append_drop]

theorem wildcards_append (a b : Str) : wildcards (a ++ b) = wildcards a ++ wildcards b :=
  List.map_append

theorem width_append {α : Type*} (ts us : List (Token α)) : width (ts ++ us) = width ts + width us :=
  List.countP_append

/-- A bracket expression takes one letter, and two at least as it stands. -/
theorem width_class {c : CodePoint} {rest text : Str} (hclass : classAt c rest = some text)
    (hrest : ∀ skip, width (tokens inClass skip rest) ≤ width (wildcards (rest.drop skip))) :
    width (tokens inClass 0 (c :: rest)) < width (wildcards (c :: rest)) := by
  have hopening : c = opening := by
    by_contra hne
    rw [classAt, if_neg hne] at hclass
    cases hclass
  rw [classAt, if_pos hopening] at hclass
  obtain ⟨after, rfl⟩ := classOf_eq_some hclass
  have hafter := hrest (text.length + 1)
  have hdrop : (text ++ closing :: after).drop (text.length + 1) = after := by
    rw [List.drop_append, List.drop_eq_nil_of_le (Nat.le_succ _)]
    simp
  have htokens : tokens inClass 0 (c :: (text ++ closing :: after)) =
      .one (inClass text) :: tokens inClass (text.length + 1) (text ++ closing :: after) := by
    rw [tokens, classAt, if_pos hopening, hclass]
  have hwide : width (wildcards (c :: (text ++ closing :: after))) =
      1 + (width (wildcards text) + (1 + width (wildcards after))) := by
    have hsplit : c :: (text ++ closing :: after) = [opening] ++ (text ++ ([closing] ++ after)) := by
      rw [hopening]
      rfl
    rw [hsplit, wildcards_append, wildcards_append, wildcards_append, width_append, width_append,
      width_append]
    rfl
  rw [hdrop] at hafter
  have hnarrow : width (tokens inClass 0 (c :: (text ++ closing :: after))) =
      width (tokens inClass (text.length + 1) (text ++ closing :: after)) + 1 := by
    rw [htokens]
    exact List.countP_cons_of_pos rfl
  omega

theorem width_tokens_le (pattern : Str) :
    ∀ skip, width (tokens inClass skip pattern) ≤ width (wildcards (pattern.drop skip)) := by
  induction pattern with
  | nil =>
      intro skip
      exact Nat.zero_le _
  | cons c rest ih =>
      intro skip
      cases skip with
      | succ skip =>
          rw [tokens, List.drop_succ_cons]
          exact ih skip
      | zero =>
          cases hclass : classAt c rest with
          | some text => exact Nat.le_of_lt (width_class hclass ih)
          | none =>
              have hrest := ih 0
              rw [tokens, hclass]
              show width ([letter c] ++ tokens inClass 0 rest) ≤ width ([letter c] ++ wildcards rest)
              rw [width_append, width_append]
              exact Nat.add_le_add_left hrest _

/-- A pattern with a bracket expression is narrower than it is as it stands, and not empty. -/
theorem width_tokens_lt {pattern : Str} (h : hasClass pattern = true) :
    0 < width (tokens inClass 0 pattern) ∧
      width (tokens inClass 0 pattern) < width (wildcards pattern) := by
  induction pattern with
  | nil => cases h
  | cons c rest ih =>
      cases hclass : classAt c rest with
      | some text =>
          refine ⟨?_, width_class hclass (width_tokens_le rest)⟩
          rw [tokens, hclass]
          exact List.countP_pos_iff.mpr ⟨_, List.mem_cons_self, rfl⟩
      | none =>
          obtain ⟨hpos, hlt⟩ := ih (by simpa [hasClass, hclass] using h)
          rw [tokens, hclass]
          show 0 < width ([letter c] ++ tokens inClass 0 rest) ∧
            width ([letter c] ++ tokens inClass 0 rest) < width ([letter c] ++ wildcards rest)
          rw [width_append, width_append]
          omega

/-- What stands in a pattern but its `*` is a name that it stands for. -/
theorem matches_literal (pattern : Str) :
    Matches (wildcards pattern) (pattern.filter (· ≠ asterisk)) = true := by
  induction pattern with
  | nil => rfl
  | cons c rest ih =>
      by_cases hstar : c = asterisk
      · have hletter : letter c = .star := if_pos hstar
        rw [List.filter_cons_of_neg (by simpa using hstar), wildcards, List.map_cons, hletter]
        exact matches_star.mpr ⟨_, List.suffix_refl _, ih⟩
      · rw [List.filter_cons_of_pos (by simpa using hstar), wildcards, List.map_cons]
        unfold letter
        rw [if_neg hstar]
        split
        · exact ih
        · exact Bool.and_eq_true_iff.mpr ⟨beq_self_eq_true c, ih⟩

/-! ## Lower case -/

section Lower

variable {lower : Str → Str}

theorem Lowers.mark (hlower : Lowers lower) {c : CodePoint} (hc : c ∈ marks) : lower [c] = [c] :=
  hlower.lowered [c] c ((hlower.kept [c] c hc).mpr List.mem_cons_self)

theorem Lowers.idem (hlower : Lowers lower) (s : Str) : lower (lower s) = lower s :=
  hlower.fixed _ (hlower.lowered s)

/-- What is left of a text in lower case is in lower case. -/
theorem Lowers.stays (hlower : Lowers lower) {s t : Str} (h : t.Sublist (lower s)) : lower t = t :=
  hlower.fixed t fun c hc => hlower.lowered s c (h.subset hc)

theorem Lowers.proper (hlower : Lowers lower) {s t : Str} (hs : slash ∉ s ∧ NUL ∉ s)
    (ht : t.Sublist (lower s)) (hne : t ≠ []) : Proper t := by
  refine ⟨hne, fun h => ?_, fun h => ?_⟩
  · exact hs.1 ((hlower.kept s slash (by decide)).mp (ht.subset h))
  · exact hs.2 ((hlower.kept s NUL (by decide)).mp (ht.subset h))

theorem charwise_of_fixed {s : Str} (h : ∀ c ∈ s, lower [c] = [c]) (hs : lower s = s) :
    Charwise lower s := by
  refine ⟨hs.trans ?_, fun c hc => by rw [h c hc]; rfl⟩
  have heach : s.flatMap (fun c => lower [c]) = s.flatMap fun c => [c] :=
    List.flatMap_congr h
  rw [heach, List.flatMap_singleton']

/-- Text in lower case is lower-cased one character for another. -/
theorem Lowers.charwise (hlower : Lowers lower) {s t : Str} (h : t.Sublist (lower s)) :
    Charwise lower t :=
  charwise_of_fixed (fun c hc => hlower.lowered s c (h.subset hc)) (hlower.stays h)

/-- The letter that a character becomes, where it becomes one. -/
def lowOf (lower : Str → Str) (c : CodePoint) : CodePoint := (lower [c]).headD c

theorem lower_eq_lowOf {c : CodePoint} (h : (lower [c]).length = 1) :
    lower [c] = [lowOf lower c] := by
  obtain ⟨d, hd⟩ := List.length_eq_one_iff.mp h
  rw [lowOf, hd]
  rfl

theorem flatMap_lowOf {s : Str} (h : ∀ c ∈ s, (lower [c]).length = 1) :
    s.flatMap (fun c => lower [c]) = s.map (lowOf lower) := by
  rw [List.flatMap_congr fun c hc => lower_eq_lowOf (h c hc)]
  exact List.flatMap_pure_eq_map _ _

/-- A character becomes a mark only if it is that mark. -/
theorem Lowers.lowOf_eq_mark (hlower : Lowers lower) {c m : CodePoint}
    (hc : (lower [c]).length = 1) (hm : m ∈ marks) : lowOf lower c = m ↔ c = m := by
  have hkept := hlower.kept [c] m hm
  rw [lower_eq_lowOf hc, List.mem_singleton, List.mem_singleton] at hkept
  exact ⟨fun h => (hkept.mp h.symm).symm, fun h => (hkept.mpr h.symm).symm⟩

/-- Where both are lower-cased one character for another, comparing the whole texts in lower case is
comparing the characters. -/
theorem matches_lower (hlower : Lowers lower) {pattern name : Str} (hp : Charwise lower pattern)
    (hn : Charwise lower name) :
    Matches (wildcards (lower pattern)) (lower name) =
      Matches (pattern.map (caseless lower)) name := by
  have hpm : lower pattern = pattern.map (lowOf lower) := hp.1.trans (flatMap_lowOf hp.2)
  have hnm : lower name = name.map (lowOf lower) := hn.1.trans (flatMap_lowOf hn.2)
  rw [hpm, hnm]
  have hp' := hp.2
  have hn' := hn.2
  clear hp hn hpm hnm
  induction pattern generalizing name with
  | nil => cases name <;> rfl
  | cons c pattern ih =>
      have hc := hp' c List.mem_cons_self
      have hrest (u : Str) := @ih u fun d hd => hp' d (List.mem_cons_of_mem c hd)
      change Matches (letter (lowOf lower c) :: wildcards (pattern.map (lowOf lower))) _ =
        Matches (caseless lower c :: pattern.map (caseless lower)) name
      by_cases hstar : c = asterisk
      · rw [show letter (lowOf lower c) = .star from if_pos ((hlower.lowOf_eq_mark hc (by decide)).mpr hstar),
          show caseless lower c = .star from if_pos hstar, Bool.eq_iff_iff, matches_star, matches_star]
        constructor
        · rintro ⟨t, ht, hmatch⟩
          obtain ⟨u, hu, rfl⟩ := List.suffix_map_iff.mp ht
          rw [hrest u fun d hd => hn' d (hu.subset hd)] at hmatch
          exact ⟨u, hu, hmatch⟩
        · rintro ⟨u, hu, hmatch⟩
          rw [← hrest u fun d hd => hn' d (hu.subset hd)] at hmatch
          exact ⟨_, List.suffix_map_iff.mpr ⟨u, hu, rfl⟩, hmatch⟩
      · have hstar' : lowOf lower c ≠ asterisk := fun h => hstar ((hlower.lowOf_eq_mark hc (by decide)).mp h)
        by_cases hquestion : c = question
        · have hquestion' := (hlower.lowOf_eq_mark hc (m := question) (by decide)).mpr hquestion
          rw [show letter (lowOf lower c) = .one fun _ => true from
              (if_neg hstar').trans (if_pos hquestion'),
            show caseless lower c = .one fun _ => true from (if_neg hstar).trans (if_pos hquestion)]
          cases name with
          | nil => rfl
          | cons d name =>
              have hnext := hrest name fun e he => hn' e (List.mem_cons_of_mem d he)
              exact congrArg _ hnext
        · have hquestion' : lowOf lower c ≠ question :=
            fun h => hquestion ((hlower.lowOf_eq_mark hc (by decide)).mp h)
          rw [show letter (lowOf lower c) = .one (· == lowOf lower c) from
              (if_neg hstar').trans (if_neg hquestion'),
            show caseless lower c = .one fun d => lower [d] == lower [c] from
              (if_neg hstar).trans (if_neg hquestion)]
          cases name with
          | nil => rfl
          | cons d name =>
              have hnext := hrest name fun e he => hn' e (List.mem_cons_of_mem d he)
              have hd := lower_eq_lowOf (hn' d List.mem_cons_self)
              show ((lowOf lower d == lowOf lower c) && _) = ((lower [d] == lower [c]) && _)
              rw [hnext, hd, lower_eq_lowOf hc]
              congr 1
              rw [Bool.eq_iff_iff]
              simp

theorem opening_of_hasClass {s : Str} (h : hasClass s = true) : opening ∈ s := by
  induction s with
  | nil => cases h
  | cons c rest ih =>
      rcases Bool.or_eq_true_iff.mp h with hclass | hrest
      · by_cases hc : c = opening
        · exact hc ▸ List.mem_cons_self
        · rw [classAt, if_neg hc] at hclass
          cases hclass
      · exact List.mem_cons_of_mem c (ih hrest)

theorem Lowers.literal (hlower : Lowers lower) {s : Str} (hs : Literal s) : Literal (lower s) :=
  ⟨fun h => hs.1 ((hlower.kept s _ (by decide)).mp h),
    fun h => hs.2.1 ((hlower.kept s _ (by decide)).mp h),
    fun h => hs.2.2 ((hlower.kept s _ (by decide)).mp h)⟩

theorem caseless_literal {s : Str} (hs : Literal s) :
    s.map (caseless lower) = s.map fun c => .one fun d => lower [d] == lower [c] := by
  refine List.map_congr_left fun c hc => ?_
  have hstar : c ≠ asterisk := fun h => hs.1 (h ▸ hc)
  have hquestion : c ≠ question := fun h => hs.2.1 (h ▸ hc)
  exact (if_neg hstar).trans (if_neg hquestion)

/-- `fnmatch` of a literal text is equality. -/
theorem fnmatch_literal {s : Str} (hs : Literal s) (n : Str) : fnmatch inClass n s = true ↔ n = s := by
  have hclass : hasClass s = false := by
    by_contra h
    exact hs.2.2 (opening_of_hasClass (by simpa using h))
  have hletters : wildcards s = s.map fun c => .one fun d => id d == id c := by
    refine List.map_congr_left fun c hc => ?_
    have hstar : c ≠ asterisk := fun h => hs.1 (h ▸ hc)
    have hquestion : c ≠ question := fun h => hs.2.1 (h ▸ hc)
    exact (if_neg hstar).trans (if_neg hquestion)
  rw [fnmatch, tokens_of_not_hasClass hclass, hletters, matches_letters, List.map_id, List.map_id]

theorem length_le_flatMap {α β : Type*} {f : α → List β} (hf : ∀ a, f a ≠ []) (s : List α) :
    s.length ≤ (s.flatMap f).length := by
  induction s with
  | nil => exact Nat.le_refl 0
  | cons a s ih =>
      have ha := List.length_pos_iff.mpr (hf a)
      rw [List.flatMap_cons, List.length_append, List.length_cons]
      omega

theorem length_lt_flatMap {α β : Type*} {f : α → List β} (hf : ∀ a, f a ≠ []) {s : List α} {a : α}
    (ha : a ∈ s) (hne : (f a).length ≠ 1) : s.length < (s.flatMap f).length := by
  obtain ⟨before, after, rfl⟩ := List.append_of_mem ha
  have hpos := List.length_pos_iff.mpr (hf a)
  have hbefore := length_le_flatMap hf before
  have hafter := length_le_flatMap hf after
  rw [List.flatMap_append, List.flatMap_cons]
  simp only [List.length_append, List.length_cons]
  omega

end Lower

/-! ## The listing -/

variable {host}

theorem mem_listingOf_iff (listed : List Name) (pattern : Str) (n : Name) :
    n ∈ (listingOf host listed pattern).drop 2 ↔ n ∈ listed ∧
      (pattern = [] ∨ pattern = lit "*" ∨ pattern = lit "*.*" ∨
        host.fnmatch (host.letters.lower n) (host.letters.lower pattern) = true) := by
  unfold listingOf
  dsimp only
  split
  · rename_i hplain
    show n ∈ List.filter _ _ ↔ _
    rw [List.mem_filter, List.mem_mergeSort]
    simp [hplain.1, hplain.2.1, hplain.2.2]
  · rename_i hall
    show n ∈ List.mergeSort _ _ ↔ _
    rw [List.mem_mergeSort]
    have hall' : pattern = [] ∨ pattern = lit "*" ∨ pattern = lit "*.*" := by tauto
    exact ⟨fun hn => ⟨hn, by tauto⟩, And.left⟩

/-- Of these names the listing has those that the pattern stands for. -/
def ListsNamed (host : Host H F) (listed : List Name) (pattern : Str) : Prop :=
  ∀ n, n ∈ (listingOf host listed pattern).drop 2 ↔
    n ∈ listed ∧ Named host.letters.lower pattern n

theorem listsNamed_of_not_hasClass (hfnmatch : ∀ n p, host.fnmatch n p = fnmatch inClass n p)
    (hlower : Lowers host.letters.lower) {pattern : Str} (hne : pattern ≠ [])
    (hpattern : Charwise host.letters.lower pattern)
    (hclass : hasClass (host.letters.lower pattern) = false) {listed : List Name}
    (hlisted : ∀ n ∈ listed, Charwise host.letters.lower n) : ListsNamed host listed pattern := by
  intro n
  rw [mem_listingOf_iff]
  apply and_congr_right
  intro hn
  rw [hfnmatch, fnmatch, tokens_of_not_hasClass hclass, matches_lower hlower hpattern (hlisted n hn)]
  have hstar (h : pattern = lit "*") : Matches (pattern.map (caseless host.letters.lower)) n = true := by
    rw [h]
    exact matches_star.mpr ⟨[], List.nil_suffix, rfl⟩
  unfold Named
  tauto

/-- What a pattern with a `[` lists is left to `fnmatch`. -/
theorem mem_listingOf_of_opening {pattern : Str} (hopening : opening ∈ pattern) (n : Name)
    (listed : List Name) : n ∈ (listingOf host listed pattern).drop 2 ↔ n ∈ listed ∧
      host.fnmatch (host.letters.lower n) (host.letters.lower pattern) = true := by
  rw [mem_listingOf_iff]
  apply and_congr_right
  intro _
  constructor
  · rintro (h | h | h | h)
    · rw [h] at hopening
      cases hopening
    · exact absurd (h ▸ hopening) (by decide)
    · exact absurd (h ▸ hopening) (by decide)
    · exact h
  · exact fun h => Or.inr (Or.inr (Or.inr h))

/-- A pattern with a bracket expression is told from what it stands for by a shortest match of
`fnmatch`, or by the pattern as a name where `fnmatch` matches none. -/
theorem exists_not_listsNamed_of_hasClass
    (hfnmatch : ∀ n p, host.fnmatch n p = fnmatch inClass n p) (hlower : Lowers host.letters.lower)
    {pattern : Str} (hplain : slash ∉ pattern ∧ NUL ∉ pattern)
    (hpattern : Charwise host.letters.lower pattern)
    (hclass : hasClass (host.letters.lower pattern) = true) :
    ∃ n, Proper n ∧ Charwise host.letters.lower n ∧ ¬ ListsNamed host [n] pattern := by
  have hopening : opening ∈ pattern :=
    (hlower.kept pattern opening (by decide)).mp (opening_of_hasClass hclass)
  have hspecial : pattern ≠ lit "*.*" := by
    intro h
    rw [h] at hopening
    revert hopening
    decide
  have hmem (n : Name) (hlow : host.letters.lower n = n) :
      n ∈ (listingOf host [n] pattern).drop 2 ↔
        Matches (tokens inClass 0 (host.letters.lower pattern)) n = true := by
    rw [mem_listingOf_of_opening hopening, hfnmatch, hlow, fnmatch]
    exact and_iff_right (List.mem_singleton_self n)
  have hnamed (n : Name) (hn : Charwise host.letters.lower n) (hlow : host.letters.lower n = n) :
      Named host.letters.lower pattern n ↔
        Matches (wildcards (host.letters.lower pattern)) n = true := by
    have hmatches := matches_lower hlower hpattern hn
    rw [hlow] at hmatches
    rw [Named, or_iff_right hspecial, hmatches]
  obtain ⟨hpos, hlt⟩ := @width_tokens_lt inClass _ hclass
  by_cases hany : ∃ m, Proper m ∧
      Matches (tokens inClass 0 (host.letters.lower pattern)) (host.letters.lower m) = true
  · obtain ⟨m, hm, hmatch⟩ := hany
    obtain ⟨t, ht, hlength, hshort, hwide⟩ := separated hlt hmatch
    have hlow := hlower.stays ht
    refine ⟨t, hlower.proper hm.2 ht (List.ne_nil_of_length_pos (by omega)), hlower.charwise ht, ?_⟩
    intro hlists
    have h := ((hlists t).mp ((hmem t hlow).mpr hshort)).2
    rw [hnamed t (hlower.charwise ht) hlow, hwide] at h
    cases h
  · have hliteral := matches_literal (host.letters.lower pattern)
    have hsub : ((host.letters.lower pattern).filter (· ≠ asterisk)).Sublist
        (host.letters.lower pattern) := List.filter_sublist
    generalize (host.letters.lower pattern).filter (· ≠ asterisk) = literal at hliteral hsub
    have hlow := hlower.stays hsub
    have hwide := width_le hliteral
    have hproper := hlower.proper hplain hsub (List.ne_nil_of_length_pos (by omega))
    refine ⟨literal, hproper, hlower.charwise hsub, fun hlists => hany ⟨literal, hproper, ?_⟩⟩
    rw [hlow, ← hmem literal hlow]
    exact (hlists literal).mpr
      ⟨List.mem_singleton_self literal, (hnamed literal (hlower.charwise hsub) hlow).mpr hliteral⟩

/-! ## Texts that are not lower-cased one character for another -/

/-- What a literal text lists, as a pattern, are the names with the same text in lower case. -/
theorem listsNamed_literal_iff (hfnmatch : ∀ n p, host.fnmatch n p = fnmatch inClass n p)
    (hlower : Lowers host.letters.lower) {s : Str} (hs : Literal s) (hne : s ≠ []) (n : Name) :
    ListsNamed host [n] s ↔ (host.letters.lower n = host.letters.lower s ↔
      n.map (fun c => host.letters.lower [c]) = s.map fun c => host.letters.lower [c]) := by
  have hstar : s ≠ lit "*" := by
    rintro rfl
    exact hs.1 (by decide)
  have hall : s ≠ lit "*.*" := by
    rintro rfl
    exact hs.1 (by decide)
  have hlists (m : Name) : m ∈ (listingOf host [n] s).drop 2 ↔
      m ∈ [n] ∧ host.letters.lower m = host.letters.lower s := by
    rw [mem_listingOf_iff, hfnmatch, fnmatch_literal (hlower.literal hs)]
    simp [hne, hstar, hall]
  have hnamed (m : Name) : Named host.letters.lower s m ↔
      m.map (fun c => host.letters.lower [c]) = s.map fun c => host.letters.lower [c] := by
    rw [Named, or_iff_right hall, caseless_literal hs, matches_letters]
  constructor
  · intro h
    have hn := h n
    rw [hlists, hnamed] at hn
    simpa using hn
  · intro h m
    rw [hlists, hnamed]
    apply and_congr_right
    intro hm
    rw [List.mem_singleton.mp hm]
    exact h

/-- A text that lower-casing makes longer, or does not take character by character, has another one
that only one of the two comparisons takes for the same. -/
theorem exists_twin {lower : Str → Str} (hlower : Lowers lower) {s : Str} (hproper : Proper s)
    (hs : Literal s) (hcharwise : ¬ Charwise lower s) :
    ∃ t, Proper t ∧ Literal t ∧ Charwise lower t ∧
      ¬ (lower t = lower s ↔ t.map (fun c => lower [c]) = s.map fun c => lower [c]) := by
  by_cases hone : ∀ c ∈ s, (lower [c]).length = 1
  · -- the letters one by one are a text in lower case that is not the lower case of the whole
    have hletters : s.flatMap (fun c => lower [c]) = s.map (lowOf lower) := flatMap_lowOf hone
    have hlow (c) (hc : c ∈ s) : lower [lowOf lower c] = [lowOf lower c] :=
      hlower.lowered [c] _ (by rw [lower_eq_lowOf (hone c hc)]; exact List.mem_singleton_self _)
    have hfixed : ∀ d ∈ s.map (lowOf lower), lower [d] = [d] := by
      intro d hd
      obtain ⟨c, hc, rfl⟩ := List.mem_map.mp hd
      exact hlow c hc
    have hmark {m : CodePoint} (hm : m ∈ marks) (hnot : m ∉ s) : m ∉ s.map (lowOf lower) := by
      intro hmem
      obtain ⟨c, hc, heq⟩ := List.mem_map.mp hmem
      exact hnot ((hlower.lowOf_eq_mark (hone c hc) hm).mp heq ▸ hc)
    have hsame : (s.map (lowOf lower)).map (fun c => lower [c]) = s.map fun c => lower [c] := by
      rw [List.map_map]
      refine List.map_congr_left fun c hc => ?_
      exact (hlow c hc).trans (lower_eq_lowOf (hone c hc)).symm
    have hwhole := hlower.fixed _ hfixed
    refine ⟨s.map (lowOf lower), ⟨?_, hmark (by decide) hproper.2.1, hmark (by decide) hproper.2.2⟩,
      ⟨hmark (by decide) hs.1, hmark (by decide) hs.2.1, hmark (by decide) hs.2.2⟩,
      charwise_of_fixed hfixed hwhole, fun h => hcharwise ⟨?_, hone⟩⟩
    · exact fun h => hproper.1 (List.map_eq_nil_iff.mp h)
    · rw [← h.mpr hsame, hwhole, hletters]
  · -- the text in lower case is longer
    obtain ⟨c, hc, hlong⟩ : ∃ c ∈ s, (lower [c]).length ≠ 1 := by simpa using hone
    have hlonger : s.length < (lower s).length := by
      rw [hlower.length]
      exact length_lt_flatMap hlower.nonempty hc hlong
    have hsub : (lower s).Sublist (lower s) := List.Sublist.refl _
    refine ⟨lower s, hlower.proper hproper.2 hsub (List.ne_nil_of_length_pos (by omega)),
      hlower.literal hs, hlower.charwise hsub, fun h => ?_⟩
    have hmap := congrArg List.length (h.mp (hlower.idem s))
    rw [List.length_map, List.length_map] at hmap
    omega

theorem requested_of_ne {pattern : Str} (h : pattern ≠ []) : requested pattern = pattern := if_neg h

theorem asciiLower_idem (c : CodePoint) : c.asciiLower.asciiLower = c.asciiLower := by
  cases c with
  | surrogate n => rfl
  | char c =>
      refine congrArg CodePoint.char ?_
      by_cases hup : c.val ≥ 'A'.val ∧ c.val ≤ 'Z'.val
      · have hlow : c.toLower.val = c.val + ('a'.val - 'A'.val) := by
          unfold Char.toLower
          rw [dif_pos hup]
        have hnot : ¬ (c.toLower.val ≥ 'A'.val ∧ c.toLower.val ≤ 'Z'.val) := by
          rw [hlow]
          simp only [UInt32.le_iff_toNat_le, ge_iff_le, UInt32.toNat_add] at hup ⊢
          have h65 : 'A'.val.toNat = 65 := rfl
          have h90 : 'Z'.val.toNat = 90 := rfl
          have h32 : ('a'.val - 'A'.val).toNat = 32 := rfl
          omega
        exact dif_neg hnot
      · have hlow : c.toLower = c := dif_neg hup
        rw [hlow, hlow]

theorem eq_of_asciiLower_eq {c d : CodePoint} (hd : ¬ (0x61 ≤ d.toNat ∧ d.toNat ≤ 0x7a))
    (h : c.asciiLower = d) : c = d := by
  cases c with
  | surrogate n => exact h
  | char c =>
      subst h
      simp only [CodePoint.asciiLower, CodePoint.toNat, CodePoint.char.injEq] at hd ⊢
      unfold Char.toLower at hd ⊢
      split
      · rename_i hup
        rw [dif_pos hup] at hd
        refine absurd ?_ hd
        simp only [Char.toNat, UInt32.le_iff_toNat_le, ge_iff_le, UInt32.toNat_add] at hup ⊢
        have h65 : 'A'.val.toNat = 65 := rfl
        have h90 : 'Z'.val.toNat = 90 := rfl
        have h32 : ('a'.val - 'A'.val).toNat = 32 := rfl
        omega
      · rfl

/-- The letters of the final sigma rule, as far as they are needed here. -/
def cased (c : CodePoint) : Bool :=
  decide (0x61 ≤ c.asciiLower.toNat ∧ c.asciiLower.toNat ≤ 0x7a) ||
    [.char 'α', .char 'Σ', .char 'σ', .char 'ς'].contains c

def sigmaLower (c : CodePoint) : CodePoint := if c = .char 'Σ' then .char 'σ' else c.asciiLower

/-- `str.lower` of Latin letters and of `Σ`, behind a letter or not. -/
def lowerBehind : (behind : Bool) → Str → Str
  | _, [] => []
  | behind, c :: rest =>
      (if c = .char 'Σ' ∧ behind = true ∧ rest.head?.any cased = false then .char 'ς' else sigmaLower c) ::
        lowerBehind (cased c) rest

theorem sigmaLower_idem (c : CodePoint) : sigmaLower (sigmaLower c) = sigmaLower c := by
  unfold sigmaLower
  by_cases hc : c = .char 'Σ'
  · rw [if_pos hc]
    rfl
  · have hne : c.asciiLower ≠ .char 'Σ' := fun h => hc (eq_of_asciiLower_eq (by decide) h)
    rw [if_neg hc, if_neg hne]
    exact asciiLower_idem c

theorem sigmaLower_eq_mark {c m : CodePoint} (hm : m ∈ marks) : sigmaLower c = m ↔ c = m := by
  have hplain : ∀ m ∈ marks, sigmaLower m = m ∧ m ≠ .char 'σ' ∧
      ¬ (0x61 ≤ m.toNat ∧ m.toNat ≤ 0x7a) := by decide
  obtain ⟨hself, hsigma, hletter⟩ := hplain m hm
  constructor
  · intro h
    by_cases hc : c = .char 'Σ'
    · rw [sigmaLower, if_pos hc] at h
      exact absurd h.symm hsigma
    · rw [sigmaLower, if_neg hc] at h
      exact eq_of_asciiLower_eq hletter h
  · rintro rfl
    exact hself

theorem lowerBehind_singleton (c : CodePoint) : lowerBehind false [c] = [sigmaLower c] := by
  simp [lowerBehind]

theorem lowers_lowerBehind : Lowers (lowerBehind false) := by
  constructor
  · suffices h : ∀ behind s, ∀ c ∈ lowerBehind behind s, sigmaLower c = c from fun s c hc => by
      rw [lowerBehind_singleton, h false s c hc]
    intro behind s
    induction s generalizing behind with
    | nil => exact fun c hc => absurd hc List.not_mem_nil
    | cons d rest ih =>
        intro c hc
        rcases List.mem_cons.mp hc with rfl | hc
        · split
          · rfl
          · exact sigmaLower_idem d
        · exact ih _ c hc
  · suffices h : ∀ behind s, (∀ c ∈ s, sigmaLower c = c) → lowerBehind behind s = s from
      fun s hs => h false s fun c hc => by simpa [lowerBehind_singleton] using hs c hc
    intro behind s hs
    induction s generalizing behind with
    | nil => rfl
    | cons d rest ih =>
        have hd := hs d List.mem_cons_self
        have hne : d ≠ .char 'Σ' := by
          rintro rfl
          exact absurd hd (by decide)
        rw [lowerBehind, if_neg fun h => hne h.1, hd, ih _ fun c hc => hs c (List.mem_cons_of_mem d hc)]
  · suffices h : ∀ behind s, ∀ m ∈ marks, m ∈ lowerBehind behind s ↔ m ∈ s from h false
    intro behind s m hm
    induction s generalizing behind with
    | nil => rfl
    | cons d rest ih =>
        rw [lowerBehind, List.mem_cons, List.mem_cons, ih]
        apply or_congr_left
        split
        · rename_i hsigma
          rw [hsigma.1]
          exact iff_of_false (fun h => absurd (h ▸ hm) (by decide)) fun h => absurd (h ▸ hm) (by decide)
        · rw [eq_comm, sigmaLower_eq_mark hm, eq_comm]
  · intro c h
    rw [lowerBehind_singleton] at h
    cases h
  · suffices h : ∀ behind s, (lowerBehind behind s).length = s.length by
      intro s
      have heach : s.flatMap (fun c => lowerBehind false [c]) = s.map sigmaLower :=
        (List.flatMap_congr fun c _ => lowerBehind_singleton c).trans (List.flatMap_pure_eq_map _ _)
      rw [h, heach, List.length_map]
    intro behind s
    induction s generalizing behind with
    | nil => rfl
    | cons d rest ih => exact congrArg (· + 1) (ih _)

/-- A host with one file system without links, where nothing can be changed. -/
def plainHost : Host Unit Unit where
  letters := ⟨List.map CodePoint.asciiUpper, lowerBehind false, List.map CodePoint.asciiLower⟩
  fnmatch := fnmatch fun text c =>
    if text.head? = some bang then !text.tail.contains c else text.contains c
  realpath _ p := p
  stat _ _ := .ok ⟨true, 0, 0, 0, 0, 0, 0⟩
  listdir _ _ := .ok [lit "[a].iso", lit "a.iso", lit "game.iso", lit "αΣα.iso"]
  create h _ := (.error .eacces, h)
  mkdir h _ := (.error .eacces, h)
  remove h _ := (.error .eacces, h)
  rmdir h _ := (.error .eacces, h)
  replace h _ _ := (.error .eacces, h)
  openFile _ _ _ := .error .eacces
  read h f _ _ := (.error (.osError .eacces), f, h)
  write h f _ _ := (.error (.osError .eacces), f, h)
  truncate h f _ := (.error (.osError .eacces), f, h)
  flush h f := (.ok (), f, h)
  close h _ := h
  volume _ _ := ⟨0, 0, 1⟩
  now _ := 0
  realpath_realpath _ _ := rfl
  realpath_create _ _ h := h
  realpath_mkdir _ _ _ _ := rfl
  realpath_close _ _ _ := rfl

end Ps2Servers.Smb2
