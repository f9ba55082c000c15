/- Path: KiroRs/Stream/FilterSlices
   source: src/anthropic/stream.rs, src/kiro/model/events/assistant.rs
   digest: The two cleaning loops with every byte position checked never stop, end after a round
   for each byte at most, and let through what the loops let through. -/

import Mathlib.Data.Bool.AllAny
import KiroRs.Lib.Slices
import KiroRs.Stream.FilterRuns

set_option autoImplicit false
set_option relaxedAutoImplicit false

namespace KiroRs.Stream.FilterSlices

open KiroRs.Lib.Bytes
open KiroRs.Lib.Checked (minus minus_of_le)
open KiroRs.Lib.Search
open KiroRs.Lib.Slices
open KiroRs.Lib.Text
open KiroRs.Stream.FilterRuns (prefix_ne_nil scanTag_of_none filterLoop_of_none)
open KiroRs.Stream.XmlFilter

def endsNameAt (s : Text) : Bool := (getFrom s (byteLength toolUseXmlPrefix)).any endsName

def checkedIsPotentialToolUseTagStart (s : Text) : Bool :=
  s.isPrefixOf toolUseXmlPrefix || endsNameAt s

/-- The loop of `longest_tool_use_prefix_suffix` from a length down. -/
def longestFrom (s : Text) : Nat → Run Nat
  | 0 => pure 0
  | len + 1 => do
    let start ← checked (minus (byteLength s) (len + 1))
    if isCharBoundary s start then
      let suffix ← startFrom s start
      if suffix.isPrefixOf toolUseXmlPrefix then pure (len + 1) else longestFrom s len
    else longestFrom s len

def longestToolUsePrefixSuffix (s : Text) : Run Nat :=
  longestFrom s (min (byteLength s) (byteLength toolUseXmlPrefix - 1))

/-- What both loops do at the next tag. They differ in what they make of it: of a text without
one, a tag without a `>`, another tag, an element that ends, and one that does not. -/
def atNextTag {α : Type} (rest : Text) (clean : Run α) (cut : Text → Text → Run α)
    (other : Text → Text → Text → Run α) (element : Text → Text → Run α)
    (unclosed : Text → Run α) : Run α :=
  match find toolUseXmlPrefix rest with
  | none => clean
  | some start => do
    let before ← upTo rest start
    let afterStart ← startFrom rest start
    match find ['>'] afterStart with
    | none => cut before afterStart
    | some openEnd => do
      let tagHead ← upTo afterStart openEnd
      if endsNameAt tagHead then do
        let afterOpen ← startFrom afterStart (openEnd + 1)
        match find toolUseXmlClose afterOpen with
        | none => unclosed before
        | some closeStart => do
          let left ← startFrom afterOpen (closeStart + byteLength toolUseXmlClose)
          element before left
      else do
        let name ← upTo afterStart (byteLength toolUseXmlPrefix)
        let left ← startFrom afterStart (byteLength toolUseXmlPrefix)
        other before name left

/-- The loop of `filter`. -/
def filterRounds : Nat → Bool → Text → Text → Run (Text × ToolUseXmlLeakFilter)
  | 0, _, _, _ => exhausted
  | rounds + 1, true, rest, out =>
    match find toolUseXmlClose rest with
    | some closeStart => do
      let left ← startFrom rest (closeStart + byteLength toolUseXmlClose)
      filterRounds rounds false left out
    | none => pure (out, { buffer := [], stripping := true })
  | rounds + 1, false, rest, out =>
    atNextTag rest
      (do
        let keep ← longestToolUsePrefixSuffix rest
        let emitLen := byteLength rest - keep
        let emitted ← upTo rest emitLen
        let buffer ← startFrom rest emitLen
        pure (out ++ emitted, { buffer, stripping := false }))
      (fun before afterStart =>
        if checkedIsPotentialToolUseTagStart afterStart then
          pure (out ++ before, { buffer := [], stripping := true })
        else do
          let name ← upTo afterStart (byteLength toolUseXmlPrefix)
          let left ← startFrom afterStart (byteLength toolUseXmlPrefix)
          filterRounds rounds false left (out ++ before ++ name))
      (fun before name left => filterRounds rounds false left (out ++ before ++ name))
      (fun before left => filterRounds rounds false left (out ++ before))
      (fun before => pure (out ++ before, { buffer := [], stripping := true }))

def checkedFilter (f : ToolUseXmlLeakFilter) (content : Text) :
    Run (Text × ToolUseXmlLeakFilter) :=
  let rest := f.buffer ++ content
  filterRounds (byteLength rest + 1) f.stripping rest []

/-- The loop of `strip_tool_use_xml_leaks`. -/
def stripRounds : Nat → Text → Text → Run Text
  | 0, _, _ => exhausted
  | rounds + 1, rest, out =>
    atNextTag rest (pure (out ++ rest)) (fun before _ => pure (out ++ before))
      (fun before name left => stripRounds rounds left (out ++ before ++ name))
      (fun before left => stripRounds rounds left (out ++ before))
      (fun before => pure (out ++ before))

def checkedStripToolUseXmlLeaks (content : Text) : Run Text :=
  trimChars <$> stripRounds (byteLength content + 1) content []

def checkedFinish (f : ToolUseXmlLeakFilter) : Run Text :=
  if f.buffer.isEmpty then pure [] else checkedStripToolUseXmlLeaks f.buffer

variable {s rest before afterStart tagHead fromGt body left out : Text}

theorem longestFrom_eq {emitted kept : Text} (begins : kept <+: toolUseXmlPrefix)
    (longest : ∀ tail, tail <:+ emitted ++ kept → tail <+: toolUseXmlPrefix → tail <:+ kept)
    {len : Nat} (short : len ≤ byteLength (emitted ++ kept)) (enough : byteLength kept ≤ len) :
    longestFrom (emitted ++ kept) len = pure (byteLength kept) := by
  have total : byteLength (emitted ++ kept) = byteLength emitted + byteLength kept :=
    byteLength_append
  induction len with
  | zero => rw [longestFrom, Nat.le_zero.mp enough]
  | succ len ih =>
    rw [longestFrom, minus_of_le short, checked_ok, pure_bind]
    rcases Nat.eq_or_lt_of_le enough with here | longer
    · have start : byteLength (emitted ++ kept) - (len + 1) = byteLength emitted := by omega
      rw [start, isCharBoundary_append, if_pos rfl, startFrom_append, pure_bind,
        List.isPrefixOf_iff_prefix.mpr begins, if_pos rfl, here]
    · have later := ih (by omega) (by omega)
      cases boundary : isCharBoundary (emitted ++ kept)
          (byteLength (emitted ++ kept) - (len + 1)) with
      | false =>
        rw [if_neg (by decide)]
        exact later
      | true =>
        obtain ⟨front, suffix, split, length⟩ := isCharBoundary_iff.mp boundary
        have size : byteLength suffix = len + 1 := by
          have sum := congrArg byteLength split
          rw [byteLength_append, byteLength_append] at sum
          omega
        have not_begins : ¬ suffix.isPrefixOf toolUseXmlPrefix = true := by
          intro found
          have tail : suffix <:+ emitted ++ kept := ⟨front, split.symm⟩
          obtain ⟨more, eq⟩ := longest suffix tail (List.isPrefixOf_iff_prefix.mp found)
          have sum := congrArg byteLength eq
          rw [byteLength_append] at sum
          omega
        rw [if_pos rfl, ← length, split, startFrom_append, pure_bind, if_neg not_begins, ← split]
        exact later

theorem longestToolUsePrefixSuffix_eq (clean : splitFind toolUseXmlPrefix rest = none) :
    longestToolUsePrefixSuffix rest =
      pure (byteLength (splitPartial toolUseXmlPrefix rest).2) := by
  have whole := splitPartial_append toolUseXmlPrefix rest
  have begins := splitPartial_begins toolUseXmlPrefix rest
  have none_yet := (splitFind_eq_none prefix_ne_nil).mp clean
  have shorter := splitPartial_none_yet none_yet
  have longest : ∀ tail, tail <:+ rest → tail <+: toolUseXmlPrefix →
      tail <:+ (splitPartial toolUseXmlPrefix rest).2 := fun _ => splitPartial_longest
  generalize splitPartial toolUseXmlPrefix rest = split at whole begins shorter longest ⊢
  obtain ⟨emitted, kept⟩ := split
  dsimp only at whole begins shorter longest ⊢
  rw [← whole] at longest ⊢
  have ascii : ∀ c ∈ kept, Ascii c := by
    have all : ∀ c ∈ toolUseXmlPrefix, Ascii c := List.all_iff_forall_prop.mp (by decide)
    exact fun c mem => all c (begins.subset mem)
  have size : byteLength kept ≤ kept.length := byteLength_le_length_iff.mpr ascii
  have length : toolUseXmlPrefix.length = 9 := by decide
  have bytes : byteLength toolUseXmlPrefix = 9 := by decide
  refine longestFrom_eq begins longest (Nat.min_le_left _ _) ?_
  rw [byteLength_append, bytes]
  omega

theorem endsNameAt_of_prefix (pre : toolUseXmlPrefix <+: s) : endsNameAt s = isToolUseTag s := by
  obtain ⟨suffix, rfl⟩ := pre
  rw [endsNameAt, getFrom_append, isToolUseTag, List.drop_left]
  rfl

theorem checkedIsPotential_of_prefix (pre : toolUseXmlPrefix <+: s) :
    checkedIsPotentialToolUseTagStart s = isPotentialToolUseTagStart s := by
  rw [checkedIsPotentialToolUseTagStart, endsNameAt_of_prefix pre]
  rfl

theorem prefix_of_tagHead (pre : toolUseXmlPrefix <+: tagHead ++ '>' :: left) :
    toolUseXmlPrefix <+: tagHead := by
  rcases List.prefix_or_prefix_of_prefix pre (List.prefix_append tagHead ('>' :: left)) with
    whole | part
  · exact whole
  · -- a shorter head would put the `>` into the name
    obtain ⟨more, eq⟩ := part
    rw [← eq, List.prefix_append_right_inj] at pre
    cases more with
    | nil => exact ⟨[], by rw [List.append_nil, ← eq, List.append_nil]⟩
    | cons c more =>
      have first : c = '>' := by
        obtain ⟨_, same⟩ := pre
        cases same
        rfl
      have inside : '>' ∈ toolUseXmlPrefix := by
        rw [← eq, first]
        exact List.mem_append_right _ List.mem_cons_self
      exact absurd inside (by decide)

section NextTag

variable {α : Type} {clean : Run α} {cut : Text → Text → Run α}
  {other : Text → Text → Text → Run α} {element : Text → Text → Run α} {unclosed : Text → Run α}

theorem atNextTag_eq (rest : Text) : atNextTag rest clean cut other element unclosed =
    match scanTag rest with
    | .clean => clean
    | .cut before afterStart => cut before afterStart
    | .other before left => other before toolUseXmlPrefix left
    | .element before left => element before left
    | .unclosed before => unclosed before := by
  unfold atNextTag scanTag
  cases found : splitFind toolUseXmlPrefix rest with
  | none => rw [find_eq_none.mpr found]
  | some p =>
    obtain ⟨before, afterStart⟩ := p
    obtain ⟨split, pre⟩ := splitFind_eq_some found
    rw [find_of_splitFind found, split]
    dsimp only
    rw [upTo_append, startFrom_append, pure_bind, pure_bind]
    cases opened : splitFind ['>'] afterStart with
    | none => rw [find_eq_none.mpr opened]
    | some q =>
      obtain ⟨tagHead, fromGt⟩ := q
      obtain ⟨split_tag, left, rfl⟩ := splitFind_eq_some opened
      rw [find_of_splitFind opened]
      dsimp only
      have behind : byteLength tagHead + 1 = byteLength (tagHead ++ ['>']) := by
        rw [byteLength_append]
        rfl
      have whole : tagHead ++ ['>'] ++ left = afterStart := by
        rw [split_tag, List.append_assoc]
      have named : toolUseXmlPrefix <+: tagHead := prefix_of_tagHead (split_tag ▸ pre)
      have head : upTo afterStart (byteLength tagHead) = pure tagHead := by
        rw [split_tag, upTo_append]
      have opening : startFrom afterStart (byteLength tagHead + 1) = pure left := by
        rw [behind, ← whole, startFrom_append]
      rw [head, pure_bind, endsNameAt_of_prefix named, opening]
      cases tag : isToolUseTag tagHead with
      | false =>
        obtain ⟨tail, eq⟩ := pre
        rw [if_neg (by decide), if_neg (by decide), ← eq, upTo_append, startFrom_append, pure_bind,
          pure_bind, List.drop_left]
      | true =>
        rw [if_pos rfl, if_pos rfl, pure_bind]
        have dropped : (['>'] ++ left).drop 1 = left := rfl
        rw [dropped]
        cases closed : splitFind toolUseXmlClose left with
        | none => rw [find_eq_none.mpr closed]
        | some r =>
          obtain ⟨body, fromClose⟩ := r
          obtain ⟨split_left, tail, rfl⟩ := splitFind_eq_some closed
          rw [find_of_splitFind closed]
          dsimp only
          rw [split_left, ← byteLength_append, ← List.append_assoc, startFrom_append, pure_bind,
            List.drop_left]

end NextTag

theorem prepend_prepend (a b : Text) (r : Text × ToolUseXmlLeakFilter) :
    prepend a (prepend b r) = prepend (a ++ b) r := by
  rw [prepend, prepend, prepend, List.append_assoc]

/-- With more rounds than characters left, the loop lets through what the filter does. -/
theorem filterRounds_eq {rounds : Nat} (enough : rest.length < rounds) (out : Text) :
    filterRounds rounds false rest out = pure (prepend out (filterLoop rest)) := by
  induction rounds generalizing rest out with
  | zero => exact absurd enough (Nat.not_lt_zero _)
  | succ rounds ih =>
    rw [filterRounds, atNextTag_eq]
    cases scan : scanTag rest with
    | clean =>
      have clean : splitFind toolUseXmlPrefix rest = none := by
        have spec := scanTag_spec rest
        rwa [scan] at spec
      have whole := splitPartial_append toolUseXmlPrefix rest
      have position : byteLength rest - byteLength (splitPartial toolUseXmlPrefix rest).2 =
          byteLength (splitPartial toolUseXmlPrefix rest).1 := by
        have total := congrArg byteLength whole
        rw [byteLength_append] at total
        omega
      have emitted := upTo_append (splitPartial toolUseXmlPrefix rest).1
        (splitPartial toolUseXmlPrefix rest).2
      have kept := startFrom_append (splitPartial toolUseXmlPrefix rest).1
        (splitPartial toolUseXmlPrefix rest).2
      rw [whole] at emitted kept
      dsimp only
      rw [longestToolUsePrefixSuffix_eq clean, pure_bind, position, emitted, kept, pure_bind,
        pure_bind, filterLoop_of_none clean]
      rfl
    | cut before afterStart =>
      have shorter := scanTag_cut_shorter scan
      have spec := scanTag_spec rest
      rw [scan] at spec
      obtain ⟨-, pre⟩ := splitFind_eq_some spec
      dsimp only
      rw [filterLoop, scan, checkedIsPotential_of_prefix pre]
      dsimp only
      cases potential : isPotentialToolUseTagStart afterStart with
      | true => rfl
      | false =>
        obtain ⟨tail, rfl⟩ := pre
        rw [List.drop_left] at shorter ⊢
        rw [if_neg (by decide), if_neg (by decide), upTo_append, startFrom_append, pure_bind,
          pure_bind, ih (by omega), prepend_prepend, List.append_assoc]
    | other before left =>
      have shorter := scanTag_shorter (.inl scan)
      rw [filterLoop, scan]
      dsimp only
      rw [ih (by omega), prepend_prepend, List.append_assoc]
    | element before left =>
      have shorter := scanTag_shorter (.inr scan)
      rw [filterLoop, scan]
      dsimp only
      rw [ih (by omega), prepend_prepend]
    | unclosed before =>
      rw [filterLoop, scan]
      rfl

theorem checkedFilter_eq (f : ToolUseXmlLeakFilter) (content : Text) :
    checkedFilter f content = pure (f.filter content) := by
  have short := length_le_byteLength (f.buffer ++ content)
  unfold checkedFilter ToolUseXmlLeakFilter.filter
  dsimp only
  cases stripping : f.stripping with
  | false =>
    rw [filterRounds_eq (by omega), if_neg (by decide)]
    rfl
  | true =>
    rw [if_pos rfl, filterRounds]
    cases found : splitFind toolUseXmlClose (f.buffer ++ content) with
    | none => rw [find_eq_none.mpr found]
    | some p =>
      obtain ⟨inner, fromClose⟩ := p
      obtain ⟨split, left, rfl⟩ := splitFind_eq_some found
      have length : 11 ≤ toolUseXmlClose.length := by decide
      have shorter : left.length < byteLength (f.buffer ++ content) := by
        have total := congrArg List.length split
        simp only [List.length_append] at total short
        omega
      rw [find_of_splitFind found]
      dsimp only
      have position : startFrom (f.buffer ++ content)
          (byteLength inner + byteLength toolUseXmlClose) = pure left := by
        rw [split, ← byteLength_append, ← List.append_assoc, startFrom_append]
      rw [position, pure_bind, filterRounds_eq shorter, List.drop_left]
      rfl

theorem stripRounds_eq {rounds : Nat} (enough : rest.length < rounds) (out : Text) :
    stripRounds rounds rest out = pure (out ++ stripLoop rest) := by
  induction rounds generalizing rest out with
  | zero => exact absurd enough (Nat.not_lt_zero _)
  | succ rounds ih =>
    rw [stripRounds, atNextTag_eq, stripLoop]
    cases scan : scanTag rest with
    | clean => rfl
    | cut before afterStart => rfl
    | other before left =>
      have shorter := scanTag_shorter (.inl scan)
      dsimp only
      rw [ih (by omega)]
      simp only [List.append_assoc]
    | element before left =>
      have shorter := scanTag_shorter (.inr scan)
      dsimp only
      rw [ih (by omega), List.append_assoc]
    | unclosed before => rfl

theorem checkedFinish_eq (f : ToolUseXmlLeakFilter) : checkedFinish f = pure f.finish := by
  unfold checkedFinish ToolUseXmlLeakFilter.finish checkedStripToolUseXmlLeaks
  split_ifs with empty
  · rfl
  · rw [stripRounds_eq (Nat.lt_succ_of_le (length_le_byteLength f.buffer)), map_pure]
    rfl

end KiroRs.Stream.FilterSlices
