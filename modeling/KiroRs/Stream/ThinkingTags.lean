/- Path: KiroRs/Stream/ThinkingTags
   source: src/anthropic/stream.rs
   digest: Where thinking begins and ends in a text, and what a stream holds back of one. -/

import KiroRs.Lib.Text
import KiroRs.Stream.XmlFilter

set_option autoImplicit false
set_option relaxedAutoImplicit false

namespace KiroRs.Stream.ThinkingTags

open KiroRs.Lib.Text
open KiroRs.Stream.XmlFilter (Text)

def thinkingStartTag : Text := "<thinking>".toList
def thinkingEndTag : Text := "</thinking>".toList

def quoteChars : Text := "`\"'\\#!@$%^&*()-_=+[]\x7b\x7d;:<>,.?/".toList

/-- A neighbour of a tag is a quote character. No byte of a longer character is one. -/
def isQuoteChar (c : Option Char) : Bool := c.any quoteChars.contains

/-- The text before the first unquoted tag behind which the text is accepted, and the text behind
it. The text is read behind `prev`. -/
def findTag (tag : Text) (accepts : Text → Bool) : Option Char → Text → Option (Text × Text)
  | _, [] => none
  | prev, c :: rest =>
    let after := (c :: rest).drop tag.length
    if tag.isPrefixOf (c :: rest) && !isQuoteChar prev && !isQuoteChar after.head? &&
        accepts after then some ([], after)
    else (findTag tag accepts (some c) rest).map fun p => (c :: p.1, p.2)

def findRealThinkingStartTag (buffer : Text) : Option (Text × Text) :=
  findTag thinkingStartTag (fun _ => true) none buffer

/-- What is found is a tag of the text, behind which the text is accepted. -/
theorem findTag_eq_some {tag : Text} {accepts : Text → Bool} {prev : Option Char}
    {text before after : Text} (found : findTag tag accepts prev text = some (before, after)) :
    text = before ++ tag ++ after ∧ accepts after = true := by
  induction text generalizing prev before with
  | nil => cases found
  | cons c rest ih =>
    simp only [findTag] at found
    split at found
    · next here =>
      cases found
      simp only [Bool.and_eq_true] at here
      obtain ⟨tail, eq⟩ := List.isPrefixOf_iff_prefix.mp here.1.1.1
      refine ⟨?_, here.2⟩
      rw [← eq, List.drop_left]
      rfl
    · obtain ⟨p, later, eq⟩ := Option.map_eq_some_iff.mp found
      cases eq
      obtain ⟨split, accepted⟩ := ih later
      exact ⟨by rw [split]; rfl, accepted⟩

/-- The text behind an end tag without the line ends that belong to it. -/
def skipBoundary (after : Text) : Text :=
  if isBlank after then []
  else if "\r\n\r\n".toList.isPrefixOf after then after.drop 4
  else if "\n\n".toList.isPrefixOf after then after.drop 2
  else if "\r\n".toList.isPrefixOf after then after.drop 2
  else if "\n".toList.isPrefixOf after then after.drop 1
  else after

theorem solid_drop_of_prefix {line text : Text} (blank : isBlank line = true)
    (starts : line.isPrefixOf text = true) : solid (text.drop line.length) = solid text := by
  obtain ⟨tail, eq⟩ := List.isPrefixOf_iff_prefix.mp starts
  rw [← eq, List.drop_left, solid_append, solid_of_blank blank, List.nil_append]

theorem solid_skipBoundary (after : Text) : solid (skipBoundary after) = solid after := by
  unfold skipBoundary
  split_ifs with blank four two crlf newline
  · exact (solid_of_blank blank).symm
  · exact solid_drop_of_prefix (by decide) four
  · exact solid_drop_of_prefix (by decide) two
  · exact solid_drop_of_prefix (by decide) crlf
  · exact solid_drop_of_prefix (by decide) newline
  · rfl

def findRealThinkingEndTagWithBoundary (buffer : Text) : Option (Text × Text) :=
  (findTag thinkingEndTag (fun _ => true) none buffer).map fun p => (p.1, skipBoundary p.2)

def findRealThinkingEndTagAtBufferEnd (buffer : Text) : Option (Text × Text) :=
  findTag thinkingEndTag isBlank none buffer

def stripNewline : Text → Text
  | '\n' :: rest => rest
  | text => text

theorem stripNewline_append (text : Text) :
    ∃ line, solid line = [] ∧ line ++ stripNewline text = text := by
  unfold stripNewline
  split
  · next rest => exact ⟨['\n'], by decide, rfl⟩
  · exact ⟨[], rfl, rfl⟩

/-- The thinking of a complete text, if it has any, and the rest of the text. -/
def extractThinkingFromCompleteText (text : Text) : Option Text × Text :=
  match findRealThinkingStartTag text with
  | none => (none, text)
  | some (before, afterOpen) =>
    let closed :=
      match findRealThinkingEndTagWithBoundary afterOpen with
      | some found => some found
      | none => (findRealThinkingEndTagAtBufferEnd afterOpen).map fun p => (p.1, trimStart p.2)
    match closed with
    | none => (none, text)
    | some (thinkingRaw, textAfter) =>
      let thinkingContent := stripNewline thinkingRaw
      let remaining := (if isBlank before then [] else before) ++ textAfter
      if thinkingContent.isEmpty then (none, remaining) else (some thinkingContent, remaining)

def byteLen (text : Text) : Nat := (text.map Char.utf8Size).sum

/-- The text split before its last `n` bytes, or before the character they begin in. -/
def splitKeep (n : Nat) : Text → Text × Text
  | [] => ([], [])
  | c :: rest =>
    if n ≤ byteLen rest then (c :: (splitKeep n rest).1, (splitKeep n rest).2)
    else ([], c :: rest)

theorem splitKeep_append (n : Nat) (text : Text) :
    (splitKeep n text).1 ++ (splitKeep n text).2 = text := by
  induction text with
  | nil => rfl
  | cons c rest ih =>
    unfold splitKeep
    split_ifs
    · rw [List.cons_append, ih]
    · rfl

theorem splitKeep_ne_nil {k : Nat} {text : Text} (keeps : 0 < k) (nonempty : text ≠ []) :
    (splitKeep k text).2 ≠ [] := by
  induction text with
  | nil => exact absurd rfl nonempty
  | cons x rest ih =>
    unfold splitKeep
    split_ifs with fits
    · refine ih ?_
      rintro rfl
      have : byteLen [] = 0 := rfl
      omega
    · exact List.cons_ne_nil x rest

end KiroRs.Stream.ThinkingTags
