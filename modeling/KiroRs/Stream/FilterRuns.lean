/- Path: KiroRs/Stream/FilterRuns
   source: src/anthropic/stream.rs, src/kiro/model/events/assistant.rs
   digest: Whole runs of the leak filter over the pieces of a text: without a tag nothing is lost,
   and single characters are let through up to the first tag. -/

import KiroRs.Stream.XmlFilter

set_option autoImplicit false
set_option relaxedAutoImplicit false

namespace KiroRs.Stream.FilterRuns

open KiroRs.Lib.Search
open KiroRs.Lib.Text
open KiroRs.Stream.XmlFilter

/-- What comes out of the filter for some pieces, and at the end of the stream. -/
def filtered (f : ToolUseXmlLeakFilter) : List Text → Text
  | [] => f.finish
  | piece :: rest => (f.filter piece).1 ++ filtered (f.filter piece).2 rest

/-- What is let through of the contents of consecutive events. -/
def streamed (chunks : List Text) : Text := filtered {} (chunks.map cleanContent)

def Held (buffer : Text) : Prop :=
  buffer <+: toolUseXmlPrefix ∧ buffer.length < toolUseXmlPrefix.length

theorem prefix_ne_nil : toolUseXmlPrefix ≠ [] := by decide

theorem held_nil : Held [] := ⟨List.nil_prefix, by decide⟩

theorem scanTag_of_none {rest : Text} (clean : splitFind toolUseXmlPrefix rest = none) :
    scanTag rest = .clean := by
  unfold scanTag
  rw [clean]

theorem stripLoop_of_none {rest : Text} (clean : splitFind toolUseXmlPrefix rest = none) :
    stripLoop rest = rest := by
  rw [stripLoop, scanTag_of_none clean]

theorem cleanContent_of_none {content : Text}
    (clean : splitFind toolUseXmlPrefix content = none) : cleanContent content = content := by
  unfold cleanContent
  rw [clean]
  rfl

theorem none_of_short {text : Text} (short : text.length < toolUseXmlPrefix.length) :
    splitFind toolUseXmlPrefix text = none := by
  rw [splitFind_eq_none prefix_ne_nil]
  intro inside
  have := inside.length_le
  omega

theorem none_inside {part text : Text} (inside : part <:+: text)
    (clean : splitFind toolUseXmlPrefix text = none) :
    splitFind toolUseXmlPrefix part = none := by
  rw [splitFind_eq_none prefix_ne_nil] at clean ⊢
  intro found
  exact clean (found.trans inside)

theorem solid_of_tag : ∀ c ∈ toolUseXmlPrefix, isWhitespace c = false := by
  have all : toolUseXmlPrefix.all (!isWhitespace ·) = true := by decide
  intro c mem
  simpa only [Bool.not_eq_true'] using List.all_eq_true.mp all c mem

theorem finish_of_held {buffer : Text} (held : Held buffer) (stripping : Bool) :
    ToolUseXmlLeakFilter.finish { buffer, stripping } = buffer := by
  unfold ToolUseXmlLeakFilter.finish
  cases buffer with
  | nil => rfl
  | cons c tail =>
    have no_space : ∀ d ∈ c :: tail, isWhitespace d = false :=
      fun d mem => solid_of_tag d (held.1.subset mem)
    rw [if_neg (by simp), stripToolUseXmlLeaks, stripLoop_of_none (none_of_short held.2),
      trimChars_of_solid no_space]

theorem filterLoop_of_none {rest : Text} (clean : splitFind toolUseXmlPrefix rest = none) :
    filterLoop rest = ((splitPartial toolUseXmlPrefix rest).1,
      { buffer := (splitPartial toolUseXmlPrefix rest).2, stripping := false }) := by
  rw [filterLoop, scanTag_of_none clean]

theorem held_splitPartial {rest : Text} (clean : splitFind toolUseXmlPrefix rest = none) :
    Held (splitPartial toolUseXmlPrefix rest).2 := by
  refine ⟨splitPartial_begins _ _, splitPartial_none_yet ?_⟩
  exact (splitFind_eq_none prefix_ne_nil).mp clean

theorem filter_passing (buffer piece : Text) :
    ToolUseXmlLeakFilter.filter { buffer, stripping := false } piece =
      filterLoop (buffer ++ piece) := by
  unfold ToolUseXmlLeakFilter.filter
  rw [if_neg (by simp)]

theorem filter_stripping_none {buffer piece : Text}
    (no_close : splitFind toolUseXmlClose (buffer ++ piece) = none) :
    ToolUseXmlLeakFilter.filter { buffer, stripping := true } piece =
      ([], { buffer := [], stripping := true }) := by
  unfold ToolUseXmlLeakFilter.filter
  rw [if_pos rfl, no_close]

theorem filter_stripping_some {buffer piece before left : Text}
    (found : splitFind toolUseXmlClose (buffer ++ piece) = some (before, toolUseXmlClose ++ left)) :
    ToolUseXmlLeakFilter.filter { buffer, stripping := true } piece = filterLoop left := by
  unfold ToolUseXmlLeakFilter.filter
  rw [if_pos rfl, found]
  dsimp only
  rw [List.drop_left]

theorem filtered_of_none {buffer : Text} (held : Held buffer) (pieces : List Text)
    (clean : splitFind toolUseXmlPrefix (buffer ++ pieces.flatten) = none) :
    filtered { buffer, stripping := false } pieces = buffer ++ pieces.flatten := by
  induction pieces generalizing buffer with
  | nil =>
    rw [filtered, finish_of_held held]
    simp
  | cons piece pieces ih =>
    rw [List.flatten_cons, ← List.append_assoc] at clean ⊢
    have clean_here := none_inside (List.prefix_append _ _).isInfix clean
    have rejoin := splitPartial_append toolUseXmlPrefix (buffer ++ piece)
    rw [filtered, filter_passing, filterLoop_of_none clean_here]
    rw [← rejoin, List.append_assoc] at clean
    rw [ih (held_splitPartial clean_here) (none_inside (List.suffix_append _ _).isInfix clean),
      ← List.append_assoc, rejoin]

theorem streamed_of_none (chunks : List Text)
    (clean : splitFind toolUseXmlPrefix chunks.flatten = none) :
    streamed chunks = chunks.flatten := by
  have untouched : chunks.map cleanContent = chunks := by
    refine (List.map_congr_left fun chunk mem => ?_).trans (List.map_id chunks)
    exact cleanContent_of_none (none_inside (List.infix_of_mem_flatten mem) clean)
  unfold streamed
  rw [untouched]
  exact filtered_of_none held_nil chunks clean

def singles (text : Text) : List Text := text.map fun c => [c]

theorem cleanContent_singles (text : Text) :
    (singles text).map cleanContent = singles text := by
  unfold singles
  rw [List.map_map]
  refine List.map_congr_left fun c _ => ?_
  exact cleanContent_of_none (none_of_short (show 1 < toolUseXmlPrefix.length by decide))

def upToTag (text : Text) : Text :=
  match splitFind toolUseXmlPrefix text with
  | none => text
  | some (before, _) => before

theorem upToTag_append {text : Text} (clean : splitFind toolUseXmlPrefix text = none)
    (more : Text) : upToTag (text ++ more) = (splitPartial toolUseXmlPrefix text).1 ++
      upToTag ((splitPartial toolUseXmlPrefix text).2 ++ more) := by
  unfold upToTag
  rw [splitFind_append ((splitFind_eq_none prefix_ne_nil).mp clean)]
  cases splitFind toolUseXmlPrefix ((splitPartial toolUseXmlPrefix text).2 ++ more) with
  | none =>
    dsimp only [Option.map_none]
    rw [← List.append_assoc, splitPartial_append]
  | some p => rfl

theorem filtered_singles_stripping (text : Text) :
    filtered { buffer := [], stripping := true } (singles text) = [] := by
  induction text with
  | nil => rfl
  | cons c text ih =>
    have not_closed : splitFind toolUseXmlClose ([] ++ [c]) = none := by
      rw [splitFind_eq_none (by decide)]
      intro inside
      have := inside.length_le
      have : toolUseXmlClose.length = 11 := by decide
      simp at *
      omega
    show (ToolUseXmlLeakFilter.filter _ [c]).1 ++ filtered _ (singles text) = []
    rw [filter_stripping_none not_closed]
    exact ih

theorem filterLoop_tag :
    filterLoop toolUseXmlPrefix = ([], { buffer := [], stripping := true }) := by
  have scan : scanTag toolUseXmlPrefix = .cut [] toolUseXmlPrefix := by decide +kernel
  rw [filterLoop, scan]
  rfl

/-- Single characters are let through up to the first tag, and none behind it. -/
theorem filtered_singles {buffer : Text} (held : Held buffer) (text : Text) :
    filtered { buffer, stripping := false } (singles text) = upToTag (buffer ++ text) := by
  induction text generalizing buffer with
  | nil =>
    unfold upToTag
    rw [List.append_nil, none_of_short held.2]
    exact finish_of_held held false
  | cons c text ih =>
    show (ToolUseXmlLeakFilter.filter _ [c]).1 ++ filtered _ (singles text) = _
    rw [filter_passing, List.append_cons buffer c text]
    cases found : splitFind toolUseXmlPrefix (buffer ++ [c]) with
    | none =>
      rw [filterLoop_of_none found, upToTag_append found, ih (held_splitPartial found)]
    | some p =>
      obtain ⟨before, fromTag⟩ := p
      -- the character completes the tag that was held back
      obtain ⟨split, pre⟩ := splitFind_eq_some found
      have lengths := congrArg List.length split
      have := held.2
      have := pre.length_le
      rw [List.length_append, List.length_append, List.length_singleton] at lengths
      have nothing_before : before = [] := List.length_eq_zero_iff.mp (by omega)
      have whole := pre.eq_of_length (by omega)
      rw [nothing_before, List.nil_append, ← whole] at split
      have found_more := splitFind_extend (x := text) found prefix_ne_nil
      unfold upToTag
      rw [found_more, split, filterLoop_tag, nothing_before]
      exact filtered_singles_stripping text

theorem streamed_singles (text : Text) : streamed (singles text) = upToTag text := by
  unfold streamed
  rw [cleanContent_singles]
  exact filtered_singles held_nil text

end KiroRs.Stream.FilterRuns
