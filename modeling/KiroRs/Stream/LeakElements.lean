/- Path: KiroRs/Stream/LeakElements
   source: src/anthropic/stream.rs, src/kiro/model/events/assistant.rs
   digest: What the two layers make of the front of a leaked tool call, of a whole one, and of a text
   without any. -/

import KiroRs.Stream.LeakSegments

set_option autoImplicit false
set_option relaxedAutoImplicit false

namespace KiroRs.Stream.LeakElements

open KiroRs.Lib.Search
open KiroRs.Lib.Text
open KiroRs.Stream.XmlFilter
open KiroRs.Stream.FilterRuns
open KiroRs.Stream.LeakSegments

/-- The front of a leaked element that has not come to its close tag. -/
def Opens (q : Text) : Prop :=
  ∃ y, q = toolUseXmlPrefix ++ y ∧ named y = true ∧
    ∀ head rest, y = head ++ '>' :: rest → ¬ toolUseXmlClose <:+: rest

def IsElement (q : Text) : Prop :=
  ∃ head body, q = toolUseXmlPrefix ++ (head ++ '>' :: (body ++ toolUseXmlClose)) ∧ '>' ∉ head ∧
    endsName head = true ∧ ¬ toolUseXmlClose <:+: body ++ toolUseXmlClose.dropLast

theorem splitFind_tag (y : Text) :
    splitFind toolUseXmlPrefix (toolUseXmlPrefix ++ y) = some ([], toolUseXmlPrefix ++ y) :=
  (splitFind_eq_some_iff prefix_ne_nil).mpr ⟨rfl, List.prefix_append _ _, by decide⟩

theorem scanTag_of_isElement {q : Text} (element : IsElement q) (left : Text) :
    scanTag (q ++ left) = .element [] left := by
  obtain ⟨head, body, rfl, no_gt, name, first⟩ := element
  have here : Meets [] (toolUseXmlPrefix ++ (head ++ '>' :: (body ++ (toolUseXmlClose ++ left))))
      (.element [] left) := .element no_gt name first
  have := scanTag_of_meets (splitFind_tag _) here
  simpa only [List.append_assoc, List.cons_append] using this

theorem scanTag_of_opens {q : Text} (opens : Opens q) :
    scanTag q = .unclosed [] ∨
      ∃ y, q = toolUseXmlPrefix ++ y ∧ endsName y = true ∧ scanTag q = .cut [] q := by
  obtain ⟨y, rfl, name, no_close⟩ := opens
  by_cases gt : '>' ∈ y
  · obtain ⟨head, rest, rfl, no_gt⟩ := List.eq_append_cons_of_mem gt
    rw [named_append_gt no_gt] at name
    exact .inl (scanTag_of_meets (splitFind_tag _) (.unclosed no_gt name (no_close _ _ rfl)))
  · refine .inr ⟨y, rfl, ?_, scanTag_of_meets (splitFind_tag _) (.cut gt)⟩
    cases y with
    | nil => rfl
    | cons c y =>
      rw [named, Bool.or_eq_true, beq_iff_eq] at name
      refine name.resolve_right fun eq => gt ?_
      rw [eq]
      exact List.mem_cons_self

theorem filterLoop_of_opens {q : Text} (opens : Opens q) :
    filterLoop q = ([], { buffer := [], stripping := true }) := by
  rcases scanTag_of_opens opens with scan | ⟨y, rfl, name, scan⟩
  · rw [filterLoop, scan]
  · have starts : isPotentialToolUseTagStart (toolUseXmlPrefix ++ y) = true := by
      unfold isPotentialToolUseTagStart
      rw [List.drop_left, name, Bool.or_true]
    rw [filterLoop, scan]
    dsimp only
    rw [if_pos starts]

theorem filterLoop_of_isElement {q : Text} (element : IsElement q) (left : Text) :
    filterLoop (q ++ left) = filterLoop left := by
  rw [filterLoop, scanTag_of_isElement element]
  rfl

/-- A text none of whose tags is that of the leaked element. -/
def Untagged (t : Text) : Prop :=
  ∀ before after, t = before ++ toolUseXmlPrefix ++ after → named after = false

theorem Untagged.behind {before left : Text}
    (untagged : Untagged (before ++ toolUseXmlPrefix ++ left)) : Untagged left := by
  intro front after split
  refine untagged (before ++ toolUseXmlPrefix ++ front) after ?_
  rw [split]
  simp only [List.append_assoc]

theorem Untagged.at_tag {rest before afterStart : Text} (untagged : Untagged rest)
    (found : splitFind toolUseXmlPrefix rest = some (before, afterStart)) {y : Text}
    (split : afterStart = toolUseXmlPrefix ++ y) : named y = false := by
  refine untagged before y ?_
  rw [(splitFind_eq_some found).1, split, List.append_assoc]

theorem isPotentialToolUseTagStart_of_named {y : Text} (name : named y = false) :
    isPotentialToolUseTagStart (toolUseXmlPrefix ++ y) = false := by
  unfold isPotentialToolUseTagStart
  cases y with
  | nil => cases name
  | cons c y =>
    rw [named, Bool.or_eq_false_iff] at name
    rw [List.drop_left, endsName, name.1, Bool.or_false, Bool.eq_false_iff, ne_eq,
      List.isPrefixOf_iff_prefix]
    intro short
    have := short.length_le
    rw [List.length_append, List.length_cons] at this
    omega

theorem filterLoop_of_other {y : Text} (name : named y = false) :
    filterLoop (toolUseXmlPrefix ++ y) = prepend toolUseXmlPrefix (filterLoop y) := by
  by_cases gt : '>' ∈ y
  · have scan := scanTag_of_meets (splitFind_tag y) (.other gt name)
    rw [filterLoop, scan]
    rfl
  · have scan := scanTag_of_meets (splitFind_tag y) (.cut gt)
    rw [filterLoop, scan]
    dsimp only
    rw [isPotentialToolUseTagStart_of_named name, if_neg Bool.false_ne_true, List.drop_left]
    rfl

theorem filterLoop_of_untagged {t : Text} (untagged : Untagged t) :
    filterLoop t = (frontOf t, { buffer := heldOf t, stripping := false }) := by
  fun_induction filterLoop t with
  | case1 rest scan out kept eq =>
    unfold frontOf heldOf
    rw [eq]
  | case2 rest before afterStart scan starts =>
    obtain ⟨before', afterStart', found, meets⟩ := exists_meets (by rw [scan]; exact nofun)
    rw [scan] at meets
    cases meets with
    | cut no_gt =>
      rw [isPotentialToolUseTagStart_of_named (untagged.at_tag found rfl)] at starts
      cases starts
  | case3 rest before afterStart scan _ ih =>
    obtain ⟨before', afterStart', found, meets⟩ := exists_meets (by rw [scan]; exact nofun)
    rw [scan] at meets
    cases meets with
    | @cut y no_gt =>
      have split : rest = before ++ toolUseXmlPrefix ++ y := by
        rw [(splitFind_eq_some found).1, List.append_assoc]
      have some : y ≠ [] := by
        rintro rfl
        cases untagged.at_tag found rfl
      rw [List.drop_left] at ih ⊢
      rw [split] at untagged
      rw [ih untagged.behind, split, frontOf_behind_tag before some, heldOf_behind_tag before some]
      rfl
  | case4 rest before left scan ih =>
    obtain ⟨found, gt, -⟩ := exists_other scan
    have split : rest = before ++ toolUseXmlPrefix ++ left := by
      rw [(splitFind_eq_some found).1, List.append_assoc]
    have some := List.ne_nil_of_mem gt
    rw [split] at untagged
    rw [ih untagged.behind, split, frontOf_behind_tag before some, heldOf_behind_tag before some]
    rfl
  | case5 rest before left scan ih =>
    obtain ⟨before', afterStart', found, meets⟩ := exists_meets (by rw [scan]; exact nofun)
    rw [scan] at meets
    cases meets with
    | element no_gt name first =>
      have := untagged.at_tag found rfl
      rw [named_append_gt no_gt, name] at this
      cases this
  | case6 rest before scan =>
    obtain ⟨before', afterStart', found, meets⟩ := exists_meets (by rw [scan]; exact nofun)
    rw [scan] at meets
    cases meets with
    | unclosed no_gt name no_close =>
      have := untagged.at_tag found rfl
      rw [named_append_gt no_gt, name] at this
      cases this

theorem keptSegments_of_no_close {t : Text}
    (no_close : ∀ head rest, t = head ++ '>' :: rest → ¬ toolUseXmlClose <:+: rest) :
    ∃ p, keptSegments t = [p] ∧ (p = t ∨ p ++ toolUseXmlPrefix <+: t) := by
  fun_induction keptSegments t with
  | case1 rest scan => exact ⟨rest, rfl, .inl rfl⟩
  | case2 rest before afterStart scan =>
    have spec := scanTag_spec rest
    rw [scan] at spec
    obtain ⟨split, pre⟩ := splitFind_eq_some spec
    rw [split]
    exact ⟨before, rfl, .inr ((List.prefix_append_right_inj before).mpr pre)⟩
  | case3 rest before left scan ih =>
    have split := scanTag_spec rest
    rw [scan] at split
    subst split
    obtain ⟨p, here, within⟩ := ih fun head more eq =>
      no_close (before ++ toolUseXmlPrefix ++ head) more (by simp only [eq, List.append_assoc])
    refine ⟨before ++ toolUseXmlPrefix ++ p, by rw [here]; rfl, ?_⟩
    rcases within with rfl | within
    · exact .inl rfl
    · rw [List.append_assoc (before ++ toolUseXmlPrefix)]
      exact .inr ((List.prefix_append_right_inj _).mpr within)
  | case4 rest before left scan ih =>
    obtain ⟨before', afterStart, found, meets⟩ := exists_meets (by rw [scan]; exact nofun)
    rw [scan] at meets
    cases meets with
    | @element head body left no_gt name first =>
      refine absurd ?_ (no_close (before ++ toolUseXmlPrefix ++ head)
        (body ++ (toolUseXmlClose ++ left)) ?_)
      · exact (List.prefix_append _ left).isInfix.trans (List.suffix_append body _).isInfix
      · rw [(splitFind_eq_some found).1]
        simp only [List.append_assoc]
  | case5 rest before scan =>
    obtain ⟨before', afterStart, found, meets⟩ := exists_meets (by rw [scan]; exact nofun)
    rw [scan] at meets
    obtain ⟨split, pre⟩ := splitFind_eq_some found
    cases meets with
    | unclosed no_gt name no_close =>
      rw [split]
      exact ⟨before, rfl, .inr ((List.prefix_append_right_inj before).mpr pre)⟩

def leftover (e : Text) : Text :=
  if (splitFind toolUseXmlPrefix e).isSome then trimChars (keptSegments e).flatten else e

theorem leftover_eq (e : Text) : leftover e = cleanContent e := by
  unfold leftover cleanContent stripToolUseXmlLeaks
  rw [flatten_keptSegments]

theorem exists_rest {held e y : Text} (begins : Held held)
    (split : held ++ e = toolUseXmlPrefix ++ y) :
    ∃ rest, e = rest ++ y := by
  obtain ⟨rest, eq⟩ := begins.1
  refine ⟨rest, ?_⟩
  rw [← eq, List.append_assoc, List.append_cancel_left_eq] at split
  exact split

theorem filterLoop_pass {a t : Text}
    (whole : ∀ d, d ≠ [] → d <:+ a → ¬ toolUseXmlPrefix <+: d ++ t)
    (part : ∀ d, d ≠ [] → d <:+ a → ¬ d ++ t <+: toolUseXmlPrefix) :
    filterLoop (a ++ t) = prepend a (filterLoop t) := by
  have search := splitFind_pass whole
  cases found : splitFind toolUseXmlPrefix t with
  | none =>
    rw [found] at search
    rw [filterLoop_of_none search, filterLoop_of_none found, splitPartial_pass part]
    rfl
  | some p =>
    obtain ⟨before, afterStart⟩ := p
    rw [found] at search
    rw [filterLoop.eq_def (a ++ t), filterLoop.eq_def t, scanTag_of_some search,
      scanTag_of_some found, scanFrom_append]
    cases scan : scanFrom before afterStart with
    | clean => exact absurd scan (scanFrom_ne_clean _ _)
    | cut before afterStart =>
      dsimp only [behind]
      split_ifs
      · rfl
      · simp only [prepend, List.append_assoc]
    | other before left => simp only [behind, prepend, List.append_assoc]
    | element before left => simp only [behind, prepend, List.append_assoc]
    | unclosed before => rfl

theorem not_tag_of_suffix {tail d t : Text} (no_lt : '<' ∉ tail) (some : d ≠ [])
    (suffix : d <:+ tail) : ¬ toolUseXmlPrefix <+: d ++ t ∧ ¬ d ++ t <+: toolUseXmlPrefix := by
  cases d with
  | nil => exact absurd rfl some
  | cons c d =>
    have other : c ≠ '<' := by
      rintro rfl
      exact no_lt (suffix.subset List.mem_cons_self)
    rw [show toolUseXmlPrefix = '<' :: "tool_use".toList by decide, List.cons_append,
      List.cons_prefix_cons, List.cons_prefix_cons]
    exact ⟨fun both => other both.1.symm, fun both => other both.1⟩

/-- What is held back and never becomes a tag comes out in front of what follows. -/
theorem filtered_held (pieces : List Text) {held : Text} (begins : Held held)
    (never : ¬ toolUseXmlPrefix <+: held ++ pieces.flatten) :
    filtered { buffer := held, stripping := false } pieces = held ++ filtered {} pieces := by
  induction pieces generalizing held with
  | nil =>
    rw [filtered, finish_of_held begins]
    exact (List.append_nil held).symm
  | cons piece pieces ih =>
    by_cases some : held = []
    · rw [some]
      rfl
    · obtain ⟨tail, rfl, no_lt⟩ := head_of_held begins.1 some
      rw [List.flatten_cons, ← List.append_assoc] at never
      rw [filtered, filtered, filter_passing, filter_passing, List.nil_append]
      have not_whole : ¬ toolUseXmlPrefix <+: '<' :: tail ++ piece :=
        fun whole => never (whole.trans (List.prefix_append _ _))
      by_cases part : '<' :: tail ++ piece <+: toolUseXmlPrefix
      · -- the piece goes on with the tag, and does not complete it
        have held : Held ('<' :: tail ++ piece) := by
          refine ⟨part, part.length_le.lt_of_ne fun eq => not_whole ?_⟩
          rw [part.eq_of_length eq]
        have no_lt_piece : '<' ∉ piece := by
          rw [show toolUseXmlPrefix = '<' :: "tool_use".toList by decide, List.cons_append,
            List.cons_prefix_cons] at part
          intro mem
          have := part.2.subset (List.mem_append_right tail mem)
          revert this
          decide
        have here : filterLoop ('<' :: tail ++ piece) =
            ([], { buffer := '<' :: tail ++ piece, stripping := false }) := by
          have kept : splitPartial toolUseXmlPrefix ('<' :: tail ++ piece) =
              ([], '<' :: tail ++ piece) := by
            rw [List.cons_append, splitPartial]
            exact if_pos (List.isPrefixOf_iff_prefix.mpr part)
          rw [filterLoop_of_none (none_of_short held.2), kept]
        have alone : filterLoop piece = (piece, {}) := by
          have pass := @filterLoop_pass piece []
            (fun d some suffix => (not_tag_of_suffix no_lt_piece some suffix).1)
            (fun d some suffix => (not_tag_of_suffix no_lt_piece some suffix).2)
          rw [List.append_nil] at pass
          rw [pass, filterLoop_of_none (@none_of_short [] (by decide))]
          exact Prod.ext (List.append_nil piece) rfl
        rw [here, alone, List.nil_append, ih held never, List.append_assoc]
      · have pass : filterLoop ('<' :: tail ++ piece) = prepend ('<' :: tail) (filterLoop piece) := by
          refine filterLoop_pass (fun d some suffix => ?_) fun d some suffix => ?_
          · rcases List.suffix_cons_iff.mp suffix with rfl | suffix
            · exact not_whole
            · exact (not_tag_of_suffix no_lt some suffix).1
          · rcases List.suffix_cons_iff.mp suffix with rfl | suffix
            · exact part
            · exact (not_tag_of_suffix no_lt some suffix).2
        rw [pass]
        exact List.append_assoc ..

end KiroRs.Stream.LeakElements
