/- Path: KiroRs/Stream/XmlFilter
   source: src/anthropic/stream.rs, src/kiro/model/events/assistant.rs
   digest: The two layers that take leaked tool calls out of the assistant's text: the cleaning of one
   event, and the filter over the events of a stream. -/

import KiroRs.Lib.Search
import KiroRs.Lib.Text

set_option autoImplicit false
set_option relaxedAutoImplicit false

namespace KiroRs.Stream.XmlFilter

open KiroRs.Lib.Search
open KiroRs.Lib.Text

abbrev Text := List Char

def toolUseXmlPrefix : Text := "<tool_use".toList
def toolUseXmlClose : Text := "</tool_use>".toList

def endsName (suffix : Text) : Bool :=
  match suffix with
  | [] => true
  | c :: _ => isWhitespace c

/-- The head of a tag, up to its `>`, is that of the leaked element and of no other. -/
def isToolUseTag (tagHead : Text) : Bool := endsName (tagHead.drop toolUseXmlPrefix.length)

/-- What the next round of either cleaning loop meets in a text. -/
inductive TagScan where
  /-- no tag begins -/
  | clean
  /-- a tag begins that has no `>` -/
  | cut (before afterStart : Text)
  /-- a tag begins that only starts like the leaked one -/
  | other (before rest : Text)
  /-- a leaked element that ends -/
  | element (before rest : Text)
  /-- a leaked element without an end -/
  | unclosed (before : Text)
  deriving DecidableEq, Repr

def scanTag (rest : Text) : TagScan :=
  match splitFind toolUseXmlPrefix rest with
  | none => .clean
  | some (before, afterStart) =>
    match splitFind ['>'] afterStart with
    | none => .cut before afterStart
    | some (tagHead, fromGt) =>
      if isToolUseTag tagHead then
        match splitFind toolUseXmlClose (fromGt.drop 1) with
        | none => .unclosed before
        | some (_, fromClose) => .element before (fromClose.drop toolUseXmlClose.length)
      else .other before (afterStart.drop toolUseXmlPrefix.length)

theorem solid_of_begins {a b : Text} (pre : a <+: b) (solid_a : solid a ≠ []) : solid b ≠ [] := by
  obtain ⟨tail, rfl⟩ := pre
  rw [solid_append]
  exact List.append_ne_nil_of_left_ne_nil solid_a _

theorem scanTag_spec (rest : Text) : match scanTag rest with
    | .clean => splitFind toolUseXmlPrefix rest = none
    | .cut before afterStart => splitFind toolUseXmlPrefix rest = some (before, afterStart)
    | .other before left => rest = before ++ toolUseXmlPrefix ++ left
    | .element before left => ∃ leak, rest = before ++ leak ++ left ∧ solid leak ≠ []
    | .unclosed before => ∃ leak, rest = before ++ leak ∧ solid leak ≠ [] := by
  unfold scanTag
  cases found : splitFind toolUseXmlPrefix rest with
  | none => rfl
  | some p =>
    obtain ⟨before, afterStart⟩ := p
    obtain ⟨split, pre⟩ := splitFind_eq_some found
    dsimp only
    cases opened : splitFind ['>'] afterStart with
    | none => rfl
    | some q =>
      obtain ⟨tagHead, fromGt⟩ := q
      dsimp only
      cases named : isToolUseTag tagHead with
      | false =>
        obtain ⟨tail, eq⟩ := pre
        show rest = before ++ toolUseXmlPrefix ++ afterStart.drop toolUseXmlPrefix.length
        rw [split, ← eq, List.drop_left, List.append_assoc]
      | true =>
        rw [if_pos rfl]
        cases closed : splitFind toolUseXmlClose (fromGt.drop 1) with
        | none => exact ⟨afterStart, split, solid_of_begins pre (by decide)⟩
        | some r =>
          obtain ⟨body, fromClose⟩ := r
          obtain ⟨inner, close⟩ := splitFind_eq_some closed
          obtain ⟨tail, eq⟩ := close
          refine ⟨tagHead ++ fromGt.take 1 ++ body ++ toolUseXmlClose, ?_, ?_⟩
          · have outer := (splitFind_eq_some opened).1
            rw [← List.take_append_drop 1 fromGt, inner, ← eq] at outer
            rw [split, outer, ← eq, List.drop_left]
            simp only [List.append_assoc]
          · rw [solid_append]
            exact List.append_ne_nil_of_right_ne_nil _ (by decide)

theorem scanTag_shorter {rest before left : Text}
    (scan : scanTag rest = .other before left ∨ scanTag rest = .element before left) :
    left.length < rest.length := by
  have spec := scanTag_spec rest
  rcases scan with scan | scan
  · rw [scan] at spec
    have : 0 < toolUseXmlPrefix.length := by decide
    rw [spec, List.length_append, List.length_append]
    omega
  · rw [scan] at spec
    obtain ⟨leak, split, solid_leak⟩ := spec
    have : 0 < leak.length := by
      rw [List.length_pos_iff]
      rintro rfl
      exact solid_leak rfl
    rw [split, List.length_append, List.length_append]
    omega

theorem scanTag_cut_shorter {rest before afterStart : Text}
    (scan : scanTag rest = .cut before afterStart) :
    (afterStart.drop toolUseXmlPrefix.length).length < rest.length := by
  have spec := scanTag_spec rest
  rw [scan] at spec
  obtain ⟨split, pre⟩ := splitFind_eq_some spec
  have := pre.length_le
  have : 0 < toolUseXmlPrefix.length := by decide
  rw [split, List.length_append, List.length_drop]
  omega

/-- The loop of `strip_tool_use_xml_leaks`, before its result is trimmed. A tag or an element that
does not end takes the rest of the text with it. -/
def stripLoop (rest : Text) : Text :=
  match _scan : scanTag rest with
  | .clean => rest
  | .cut before _ => before
  | .other before left => before ++ toolUseXmlPrefix ++ stripLoop left
  | .element before left => before ++ stripLoop left
  | .unclosed before => before
termination_by rest.length
decreasing_by
  · exact scanTag_shorter (.inl _scan)
  · exact scanTag_shorter (.inr _scan)

def stripToolUseXmlLeaks (content : Text) : Text := trimChars (stripLoop content)

/-- The content of an event as `from_frame` leaves it. -/
def cleanContent (content : Text) : Text :=
  if (splitFind toolUseXmlPrefix content).isSome then stripToolUseXmlLeaks content else content

structure ToolUseXmlLeakFilter where
  buffer : Text := []
  stripping : Bool := false
  deriving DecidableEq, Repr

def isPotentialToolUseTagStart (s : Text) : Bool :=
  s.isPrefixOf toolUseXmlPrefix || endsName (s.drop toolUseXmlPrefix.length)

/-- What a round of the filter's loop lets through, in front of what the next rounds do. -/
def prepend (out : Text) (r : Text × ToolUseXmlLeakFilter) : Text × ToolUseXmlLeakFilter :=
  (out ++ r.1, r.2)

/-- The loop of `filter` over the buffered text while no element is being stripped. -/
def filterLoop (rest : Text) : Text × ToolUseXmlLeakFilter :=
  match _scan : scanTag rest with
  | .clean =>
    let (out, kept) := splitPartial toolUseXmlPrefix rest
    (out, { buffer := kept, stripping := false })
  | .cut before afterStart =>
    if isPotentialToolUseTagStart afterStart then (before, { buffer := [], stripping := true })
    else
      prepend (before ++ toolUseXmlPrefix)
        (filterLoop (afterStart.drop toolUseXmlPrefix.length))
  | .other before left => prepend (before ++ toolUseXmlPrefix) (filterLoop left)
  | .element before left => prepend before (filterLoop left)
  | .unclosed before => (before, { buffer := [], stripping := true })
termination_by rest.length
decreasing_by
  · exact scanTag_cut_shorter _scan
  · exact scanTag_shorter (.inl _scan)
  · exact scanTag_shorter (.inr _scan)

namespace ToolUseXmlLeakFilter

def filter (f : ToolUseXmlLeakFilter) (content : Text) : Text × ToolUseXmlLeakFilter :=
  let rest := f.buffer ++ content
  if f.stripping then
    match splitFind toolUseXmlClose rest with
    | some (_, fromClose) => filterLoop (fromClose.drop toolUseXmlClose.length)
    | none => ([], { buffer := [], stripping := true })
  else filterLoop rest

/-- What is let through at the end of the stream. -/
def finish (f : ToolUseXmlLeakFilter) : Text :=
  if f.buffer.isEmpty then [] else stripToolUseXmlLeaks f.buffer

end ToolUseXmlLeakFilter

end KiroRs.Stream.XmlFilter
