/- Path: KiroRs/Stream/TagSearch
   source: src/anthropic/stream.rs
   digest: The searches for thinking tags with every byte position checked find the same tags and
   never stop. -/

import Mathlib.Data.Bool.AllAny
import KiroRs.Lib.Slices
import KiroRs.Stream.ThinkingTags

set_option autoImplicit false
set_option relaxedAutoImplicit false

namespace KiroRs.Stream.TagSearch

open KiroRs.Lib.Bytes
open KiroRs.Lib.Search
open KiroRs.Lib.Slices
open KiroRs.Lib.Text
open KiroRs.Stream.ThinkingTags
open KiroRs.Stream.XmlFilter (Text)

/-- The byte at a position is a quote character. Behind the end there is none. -/
def isQuoteByte (buffer : Text) (pos : Nat) : Bool :=
  (byteAt buffer pos).any (bytes quoteChars).contains

section Search

variable {α : Type} (tag : Text) (judge : Nat → Nat → Run (Option α)) (buffer : Text)

/-- The loop of the three searches. They differ in what they make of an unquoted tag. -/
def searchTag : Nat → Nat → Run (Option α)
  | 0, _ => exhausted
  | rounds + 1, searchStart => do
    match find tag (← startFrom buffer searchStart) with
    | none => pure none
    | some pos =>
      let absolutePos := searchStart + pos
      let hasQuoteBefore := decide (0 < absolutePos) && isQuoteByte buffer (absolutePos - 1)
      let afterPos := absolutePos + byteLength tag
      let hasQuoteAfter := isQuoteByte buffer afterPos
      if hasQuoteBefore || hasQuoteAfter then searchTag rounds (absolutePos + 1)
      else
        match ← judge absolutePos afterPos with
        | some found => pure (some found)
        | none => searchTag rounds (absolutePos + 1)

end Search

def checkedFindRealThinkingStartTag (buffer : Text) : Run (Option Nat) :=
  searchTag thinkingStartTag (fun absolutePos _ => pure (some absolutePos)) buffer
    (byteLength buffer + 1) 0

def boundaryEnd (buffer afterContent : Text) (afterPos : Nat) : Nat :=
  if afterContent.isEmpty then afterPos
  else if (trimChars afterContent).isEmpty then byteLength buffer
  else if "\r\n\r\n".toList.isPrefixOf afterContent then afterPos + 4
  else if "\n\n".toList.isPrefixOf afterContent then afterPos + 2
  else if "\r\n".toList.isPrefixOf afterContent then afterPos + 2
  else if "\n".toList.isPrefixOf afterContent then afterPos + 1
  else afterPos

def checkedFindRealThinkingEndTagWithBoundary (buffer : Text) : Run (Option (Nat × Nat)) :=
  searchTag thinkingEndTag
    (fun absolutePos afterPos => do
      let afterContent ← startFrom buffer afterPos
      pure (some (absolutePos, boundaryEnd buffer afterContent afterPos)))
    buffer (byteLength buffer + 1) 0

def checkedFindRealThinkingEndTagAtBufferEnd (buffer : Text) : Run (Option Nat) :=
  searchTag thinkingEndTag
    (fun absolutePos afterPos => do
      let afterContent ← startFrom buffer afterPos
      pure (if (trimChars afterContent).isEmpty then some absolutePos else none))
    buffer (byteLength buffer + 1) 0

/-- The loop of `find_char_boundary` from a position down. -/
def boundaryBelow (s : Text) : Nat → Nat
  | 0 => 0
  | pos + 1 => if isCharBoundary s (pos + 1) then pos + 1 else boundaryBelow s pos

def findCharBoundary (s : Text) (target : Nat) : Nat :=
  if byteLength s ≤ target then byteLength s
  else if target = 0 then 0
  else boundaryBelow s target

theorem ascii_quoteChars : ∀ c ∈ quoteChars, Ascii c := List.all_iff_forall_prop.mp (by decide)

theorem isQuoteByte_head (a b : Text) :
    isQuoteByte (a ++ b) (byteLength a) = isQuoteChar b.head? := by
  rw [isQuoteByte, byteAt_append]
  cases b with
  | nil => rfl
  | cons c b =>
    have first := List.head?_eq_some_head (String.utf8EncodeChar_ne_nil (c := c))
    have here : (bytes (c :: b)).head? = some ((String.utf8EncodeChar c).head
        String.utf8EncodeChar_ne_nil) := by
      rw [bytes, List.flatMap_cons, List.head?_append, first, Option.some_or]
    rw [here]
    exact contains_byte_iff ascii_quoteChars (List.head_mem _)

theorem isQuoteByte_last (a b : Text) :
    (decide (0 < byteLength a) && isQuoteByte (a ++ b) (byteLength a - 1)) =
      isQuoteChar a.getLast? := by
  cases a using List.reverseRecOn with
  | nil => rfl
  | append_singleton a c =>
    have pos : 0 < byteLength (a ++ [c]) := by
      have size := c.utf8Size_pos
      rw [byteLength_append, byteLength_cons]
      omega
    rw [decide_eq_true pos, Bool.true_and, isQuoteByte, byteAt_pred _ _ pos, List.getLast?_concat]
    have last := List.getLast?_eq_some_getLast (String.utf8EncodeChar_ne_nil (c := c))
    have here : (bytes (a ++ [c])).getLast? = some ((String.utf8EncodeChar c).getLast
        String.utf8EncodeChar_ne_nil) := by
      rw [bytes_append, List.getLast?_append, bytes, bytes, List.flatMap_singleton, last,
        Option.some_or]
    rw [here]
    exact contains_byte_iff ascii_quoteChars (List.getLast_mem _)

variable {tag rest x y : Text} {accepts : Text → Bool} {prev : Option Char}

theorem findTag_of_none (none_yet : splitFind tag rest = none) :
    findTag tag accepts prev rest = none := by
  induction rest generalizing prev with
  | nil => rfl
  | cons c rest ih =>
    unfold splitFind at none_yet
    split_ifs at none_yet with here
    rw [findTag, if_neg (by simp [here]), ih (Option.map_eq_none_iff.mp none_yet)]
    rfl

theorem findTag_of_some (proper : tag ≠ []) (found : splitFind tag rest = some (x, y)) :
    findTag tag accepts prev rest =
      (findTag tag accepts (x.getLast?.or prev) y).map fun p => (x ++ p.1, p.2) := by
  induction rest generalizing prev x with
  | nil =>
    unfold splitFind at found
    rw [if_neg (by simpa using proper)] at found
    cases found
  | cons c rest ih =>
    unfold splitFind at found
    split_ifs at found with here
    · cases found
      rw [List.getLast?_nil, Option.none_or]
      exact Option.map_id'.symm
    · obtain ⟨⟨x', y'⟩, later, same⟩ := Option.map_eq_some_iff.mp found
      cases same
      have last : (c :: x').getLast?.or prev = x'.getLast?.or (some c) := by
        rw [List.getLast?_cons]
        cases x'.getLast? <;> rfl
      rw [findTag, if_neg (by simp [here]), ih later, Option.map_map, last]
      rfl

variable {α : Type} {judge : Nat → Nat → Run (Option α)} {result : Text → Text → α}
  {buffer head : Text} {c : Char} {more : List Char}

/-- With more rounds than characters left, the loop finds what is found in the text. -/
theorem searchTag_eq (opens : tag = c :: more) (one : c.utf8Size = 1)
    (judged : ∀ a b, buffer = a ++ tag ++ b →
      judge (byteLength a) (byteLength a + byteLength tag) =
        pure (if accepts b then some (result a b) else none))
    {rounds : Nat} (split : buffer = head ++ rest) (enough : rest.length < rounds) :
    searchTag tag judge buffer rounds (byteLength head) =
      pure ((findTag tag accepts head.getLast? rest).map fun p => result (head ++ p.1) p.2) := by
  have proper : tag ≠ [] := by
    rw [opens]
    exact List.cons_ne_nil c more
  induction rounds generalizing head rest with
  | zero => exact absurd enough (Nat.not_lt_zero _)
  | succ rounds ih =>
    have sliced : startFrom buffer (byteLength head) = pure rest := by
      rw [split, startFrom_append]
    rw [searchTag, sliced, pure_bind]
    cases found : splitFind tag rest with
    | none =>
      rw [find_eq_none.mpr found, findTag_of_none found]
      rfl
    | some p =>
      obtain ⟨x, y⟩ := p
      obtain ⟨cut_rest, begins⟩ := splitFind_eq_some found
      obtain ⟨after, rfl⟩ := begins
      have whole : buffer = head ++ x ++ tag ++ after := by
        rw [split, cut_rest]
        simp only [List.append_assoc]
      have at_tag : byteLength head + byteLength x = byteLength (head ++ x) :=
        byteLength_append.symm
      have behind : byteLength (head ++ x) + byteLength tag = byteLength (head ++ x ++ tag) :=
        byteLength_append.symm
      have quote_before := isQuoteByte_last (head ++ x) (tag ++ after)
      have quote_after := isQuoteByte_head (head ++ x ++ tag) after
      rw [← List.append_assoc, ← whole] at quote_before
      rw [← whole] at quote_after
      -- the next round begins one byte behind, where the text goes on with the rest of the tag
      have next : byteLength (head ++ x) + 1 = byteLength (head ++ x ++ [c]) := by
        simp only [byteLength_append, byteLength_cons, byteLength_nil, one]
      have split' : buffer = head ++ x ++ [c] ++ (more ++ after) := by
        rw [whole, opens]
        simp only [List.append_assoc, List.cons_append, List.nil_append]
      have shorter : (more ++ after).length < rounds := by
        rw [cut_rest, opens] at enough
        simp only [List.length_append, List.length_cons] at enough ⊢
        omega
      have later := ih split' shorter
      rw [List.getLast?_concat] at later
      rw [find_of_splitFind found, findTag_of_some proper found, opens, List.cons_append, findTag,
        ← List.cons_append, ← opens]
      dsimp only
      rw [at_tag, quote_before, behind, quote_after, next, later]
      rw [List.getLast?_append, List.drop_left, List.isPrefixOf_iff_prefix.mpr ⟨after, rfl⟩,
        Bool.true_and, ← Bool.not_or]
      have judged_here := judged (head ++ x) after whole
      rw [behind] at judged_here
      have goes_on : ((findTag tag accepts (some c) (more ++ after)).map
          fun p => result (head ++ x ++ [c] ++ p.1) p.2) =
          (((findTag tag accepts (some c) (more ++ after)).map fun p => (c :: p.1, p.2)).map
            fun p => (x ++ p.1, p.2)).map fun p => result (head ++ p.1) p.2 := by
        rw [Option.map_map, Option.map_map]
        refine congrArg (Option.map · _) (funext fun p => ?_)
        simp only [Function.comp_apply, List.append_assoc, List.cons_append, List.nil_append]
      cases quoted : isQuoteChar (x.getLast?.or head.getLast?) || isQuoteChar after.head? with
      | true =>
        rw [if_pos rfl, goes_on]
        rfl
      | false =>
        rw [if_neg (by decide), judged_here, pure_bind]
        cases accepted : accepts after with
        | true =>
          simp only [Bool.not_false, Bool.and_self, if_true, Option.map_some, List.append_nil]
        | false =>
          rw [goes_on]
          rfl

theorem searchTag_buffer (accepts : Text → Bool) (result : Text → Text → α) (opens : tag = c :: more) (one : c.utf8Size = 1)
    (judged : ∀ a b, buffer = a ++ tag ++ b →
      judge (byteLength a) (byteLength a + byteLength tag) =
        pure (if accepts b then some (result a b) else none)) :
    searchTag tag judge buffer (byteLength buffer + 1) 0 =
      pure ((findTag tag accepts none buffer).map fun p => result p.1 p.2) :=
  searchTag_eq opens one judged (List.nil_append buffer).symm
    (Nat.lt_succ_of_le (length_le_byteLength buffer))

theorem checkedFindRealThinkingStartTag_eq (buffer : Text) :
    checkedFindRealThinkingStartTag buffer =
      pure ((findRealThinkingStartTag buffer).map fun p => byteLength p.1) := by
  have opens : thinkingStartTag = '<' :: "thinking>".toList := rfl
  refine searchTag_buffer (fun _ => true) (fun a _ => byteLength a) opens (by decide) ?_
  intro a b _
  rw [if_pos rfl]

theorem isEmpty_trimChars (t : Text) : (trimChars t).isEmpty = isBlank t := by
  rw [Bool.eq_iff_iff, List.isEmpty_iff]
  exact ⟨isBlank_of_trimChars, trimChars_of_blank⟩

theorem startFrom_behind {after : Text} (behind : after <:+ buffer) :
    startFrom buffer (byteLength buffer - byteLength after) = pure after := by
  obtain ⟨front, rfl⟩ := behind
  have position : byteLength (front ++ after) - byteLength after = byteLength front := by
    rw [byteLength_append]
    omega
  rw [position, startFrom_append]

theorem startFrom_tag (a tag b : Text) :
    startFrom (a ++ tag ++ b) (byteLength a + byteLength tag) = pure b := by
  rw [← byteLength_append, startFrom_append]

theorem byteLength_drop {line text : Text} (n : Nat) (length : line.length = n)
    (size : byteLength line = n) (starts : line.isPrefixOf text = true) :
    byteLength text = n + byteLength (text.drop n) := by
  obtain ⟨rest, rfl⟩ := List.isPrefixOf_iff_prefix.mp starts
  rw [← length, List.drop_left, byteLength_append, size, length]

theorem boundaryEnd_eq (a tag b : Text) :
    boundaryEnd (a ++ tag ++ b) b (byteLength a + byteLength tag) =
      byteLength (a ++ tag ++ b) - byteLength (skipBoundary b) := by
  have whole : byteLength (a ++ tag ++ b) = byteLength a + byteLength tag + byteLength b := by
    rw [byteLength_append, byteLength_append]
  unfold boundaryEnd skipBoundary
  rw [isEmpty_trimChars, whole]
  by_cases empty : b.isEmpty = true
  · rw [if_pos empty, List.isEmpty_iff.mp empty]
    rfl
  · rw [if_neg empty]
    split_ifs with blank four two crlf newline
    · rfl
    · have length := byteLength_drop 4 (by decide) (by decide) four
      omega
    · have length := byteLength_drop 2 (by decide) (by decide) two
      omega
    · have length := byteLength_drop 2 (by decide) (by decide) crlf
      omega
    · have length := byteLength_drop 1 (by decide) (by decide) newline
      omega
    · omega

theorem opens_thinkingEndTag : thinkingEndTag = '<' :: "/thinking>".toList := rfl

theorem checkedFindRealThinkingEndTagWithBoundary_eq (buffer : Text) :
    checkedFindRealThinkingEndTagWithBoundary buffer =
      pure ((findRealThinkingEndTagWithBoundary buffer).map fun p =>
        (byteLength p.1, byteLength buffer - byteLength p.2)) := by
  have search : checkedFindRealThinkingEndTagWithBoundary buffer =
      pure ((findTag thinkingEndTag (fun _ => true) none buffer).map fun p =>
        (byteLength p.1, byteLength buffer - byteLength (skipBoundary p.2))) := by
    refine searchTag_buffer (fun _ => true) (fun a b => (byteLength a,
      byteLength buffer - byteLength (skipBoundary b))) opens_thinkingEndTag (by decide) ?_
    intro a b whole
    rw [whole, startFrom_tag, pure_bind, boundaryEnd_eq, if_pos rfl]
  rw [search, findRealThinkingEndTagWithBoundary, Option.map_map]
  rfl

theorem checkedFindRealThinkingEndTagAtBufferEnd_eq (buffer : Text) :
    checkedFindRealThinkingEndTagAtBufferEnd buffer =
      pure ((findRealThinkingEndTagAtBufferEnd buffer).map fun p => byteLength p.1) := by
  refine searchTag_buffer isBlank (fun a _ => byteLength a) opens_thinkingEndTag (by decide) ?_
  intro a b whole
  rw [whole, startFrom_tag, pure_bind, isEmpty_trimChars]

theorem boundaryBelow_eq {a b : Text} {c : Char} {target : Nat} (behind : byteLength a ≤ target)
    (before : target < byteLength a + c.utf8Size) :
    boundaryBelow (a ++ c :: b) target = byteLength a := by
  induction target with
  | zero => exact (Nat.le_zero.mp behind).symm
  | succ pos ih =>
    rw [boundaryBelow]
    rcases Nat.eq_or_lt_of_le behind with here | further
    · rw [← here, if_pos (isCharBoundary_append a (c :: b))]
    · rw [not_isCharBoundary further before, if_neg (by decide)]
      exact ih (by omega) (by omega)

/-- The split is at the last boundary that leaves so many bytes, or at the start. -/
theorem splitKeep_spec {n : Nat} {text a b : Text} {c : Char}
    (split : splitKeep n text = (a, c :: b)) :
    byteLength b < n ∧ (a = [] ∨ n ≤ byteLength (c :: b)) := by
  induction text generalizing a with
  | nil => cases split
  | cons d rest ih =>
    unfold splitKeep at split
    split_ifs at split with fits
    · obtain ⟨rfl, kept⟩ := Prod.mk.inj split
      have later : splitKeep n rest = ((splitKeep n rest).1, c :: b) := Prod.ext rfl kept
      obtain ⟨few, enough⟩ := ih later
      refine ⟨few, .inr ?_⟩
      rcases enough with start | enough
      · have whole := splitKeep_append n rest
        rw [start, kept, List.nil_append] at whole
        rw [whole]
        exact fits
      · exact enough
    · cases split
      exact ⟨Nat.lt_of_not_le fits, .inl rfl⟩

theorem findCharBoundary_eq {n : Nat} (keeps : 0 < n) (text : Text) :
    findCharBoundary text (byteLength text - n) = byteLength (splitKeep n text).1 := by
  rcases split : splitKeep n text with ⟨a, kept⟩
  have whole := splitKeep_append n text
  rw [split] at whole
  dsimp only at whole ⊢
  cases kept with
  | nil =>
    have none : text = [] := by
      by_contra nonempty
      exact splitKeep_ne_nil keeps nonempty (by rw [split])
    rw [none] at whole ⊢
    rw [(List.append_eq_nil_iff.mp whole).1]
    rfl
  | cons c b =>
    obtain ⟨few, enough⟩ := splitKeep_spec split
    have size := c.utf8Size_pos
    have behind : byteLength a ≤ byteLength text - n := by
      rw [← whole, byteLength_append]
      rcases enough with rfl | enough
      · exact Nat.zero_le _
      · omega
    have before : byteLength text - n < byteLength a + c.utf8Size := by
      rw [← whole, byteLength_append, byteLength_cons]
      omega
    have inside : ¬ byteLength text ≤ byteLength text - n := by
      rw [← whole, byteLength_append, byteLength_cons]
      omega
    rw [findCharBoundary, if_neg inside]
    split_ifs with start
    · omega
    · rw [← whole] at behind before ⊢
      exact boundaryBelow_eq behind before

end KiroRs.Stream.TagSearch
