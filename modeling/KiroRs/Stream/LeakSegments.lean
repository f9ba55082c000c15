/- Path: KiroRs/Stream/LeakSegments
   source: src/anthropic/stream.rs, src/kiro/model/events/assistant.rs
   digest: The stretches of a text between the leaked tool calls, and how the reading of a text goes
   on with the text behind it. -/

import KiroRs.Lib.Seams
import KiroRs.Stream.FilterRuns

set_option autoImplicit false
set_option relaxedAutoImplicit false

namespace KiroRs.Stream.LeakSegments

open KiroRs.Lib.Search
open KiroRs.Lib.Seams
open KiroRs.Lib.Text
open KiroRs.Stream.XmlFilter
open KiroRs.Stream.FilterRuns

/-- The stretches of a text between the leaked elements that the cleaning takes out. -/
def keptSegments (rest : Text) : List Text :=
  match _scan : scanTag rest with
  | .clean => [rest]
  | .cut before _ => [before]
  | .other before left => glue (before ++ toolUseXmlPrefix) (keptSegments left)
  | .element before left => before :: keptSegments left
  | .unclosed before => [before]
termination_by rest.length
decreasing_by
  · exact scanTag_shorter (.inl _scan)
  · exact scanTag_shorter (.inr _scan)

theorem flatten_keptSegments (t : Text) : (keptSegments t).flatten = stripLoop t := by
  fun_induction stripLoop t with
  | case1 rest scan => rw [keptSegments, scan, List.flatten_singleton]
  | case2 rest before afterStart scan => rw [keptSegments, scan, List.flatten_singleton]
  | case3 rest before left scan ih => rw [keptSegments, scan, flatten_glue, ih]
  | case4 rest before left scan ih => rw [keptSegments, scan, List.flatten_cons, ih]
  | case5 rest before scan => rw [keptSegments, scan, List.flatten_singleton]

theorem keptSegments_of_none {t : Text} (clean : splitFind toolUseXmlPrefix t = none) :
    keptSegments t = [t] := by
  rw [keptSegments, scanTag_of_none clean]

theorem keptSegments_of_cut {rest before afterStart : Text}
    (scan : scanTag rest = .cut before afterStart) : keptSegments rest = [before] := by
  rw [keptSegments, scan]

theorem keptSegments_of_other {rest before left : Text} (scan : scanTag rest = .other before left) :
    keptSegments rest = glue (before ++ toolUseXmlPrefix) (keptSegments left) := by
  rw [keptSegments, scan]

theorem keptSegments_of_element {rest before left : Text}
    (scan : scanTag rest = .element before left) :
    keptSegments rest = before :: keptSegments left := by
  rw [keptSegments, scan]

theorem keptSegments_of_unclosed {rest before : Text} (scan : scanTag rest = .unclosed before) :
    keptSegments rest = [before] := by
  rw [keptSegments, scan]

theorem keptSegments_ne_nil (t : Text) : keptSegments t ≠ [] := by
  fun_cases keptSegments t with
  | case1 => exact List.cons_ne_nil _ _
  | case2 => exact List.cons_ne_nil _ _
  | case3 => exact glue_ne_nil _ _
  | case4 => exact List.cons_ne_nil _ _
  | case5 => exact List.cons_ne_nil _ _

/-- The output is the text without its leaks, but for white space at the ends of what is left and
next to what was taken out. -/
def EqualAtSeams (t out : Text) : Prop := Spells (keptSegments t) out

def closes (rest : Text) : Bool :=
  match _scan : scanTag rest with
  | .clean => true
  | .cut _ _ => false
  | .other _ left => closes left
  | .element _ left => closes left
  | .unclosed _ => false
termination_by rest.length
decreasing_by
  · exact scanTag_shorter (.inl _scan)
  · exact scanTag_shorter (.inr _scan)

def heldOf (stretch : Text) : Text := (splitPartial toolUseXmlPrefix stretch).2

def frontOf (stretch : Text) : Text := (splitPartial toolUseXmlPrefix stretch).1

theorem frontOf_append_heldOf (stretch : Text) : frontOf stretch ++ heldOf stretch = stretch :=
  splitPartial_append _ _

theorem heldOf_append (stretch more : Text) :
    heldOf (stretch ++ more) = heldOf (heldOf stretch ++ more) := by
  unfold heldOf
  rw [splitPartial_resume]

theorem frontOf_append (stretch more : Text) :
    frontOf (stretch ++ more) = frontOf stretch ++ frontOf (heldOf stretch ++ more) := by
  unfold frontOf heldOf
  rw [splitPartial_resume]

theorem held_heldOf {stretch : Text} (clean : splitFind toolUseXmlPrefix stretch = none) :
    Held (heldOf stretch) := held_splitPartial clean

theorem head_of_held {held : Text} (begins : held <+: toolUseXmlPrefix) (some : held ≠ []) :
    ∃ tail, held = '<' :: tail ∧ '<' ∉ tail := by
  cases held with
  | nil => exact absurd rfl some
  | cons c tail =>
    rw [show toolUseXmlPrefix = '<' :: "tool_use".toList by decide, List.cons_prefix_cons] at begins
    refine ⟨tail, by rw [begins.1], fun mem => ?_⟩
    have := begins.2.subset mem
    revert this
    decide

theorem eq_of_held_suffix {held longer : Text} (begins : held <+: toolUseXmlPrefix)
    (some : held ≠ []) (begins' : longer <+: toolUseXmlPrefix) (suffix : held <:+ longer) :
    longer = held := by
  obtain ⟨tail, rfl, -⟩ := head_of_held begins some
  obtain ⟨front, rfl⟩ := suffix
  obtain ⟨tail', eq, none⟩ := head_of_held begins' (by simp)
  cases front with
  | nil => rfl
  | cons c front =>
    rw [List.cons_append, List.cons.injEq] at eq
    rw [← eq.2] at none
    exact absurd (by simp) none

/-- Behind a whole tag the search for the front of one begins anew. -/
theorem heldOf_behind_tag (u : Text) {w : Text} (some : w ≠ []) :
    heldOf (u ++ toolUseXmlPrefix ++ w) = heldOf w := by
  have begins : heldOf (u ++ toolUseXmlPrefix ++ w) <+: toolUseXmlPrefix := splitPartial_begins _ _
  have suffix : heldOf (u ++ toolUseXmlPrefix ++ w) <:+ u ++ toolUseXmlPrefix ++ w :=
    ⟨_, frontOf_append_heldOf _⟩
  have here : heldOf w <:+ heldOf (u ++ toolUseXmlPrefix ++ w) := by
    refine splitPartial_longest ?_ (splitPartial_begins _ _)
    exact (show heldOf w <:+ w from ⟨_, frontOf_append_heldOf w⟩).trans (List.suffix_append _ _)
  have short : heldOf (u ++ toolUseXmlPrefix ++ w) <:+ w := by
    rcases List.suffix_or_suffix_of_suffix suffix (List.suffix_append _ w) with short | ⟨d, eq⟩
    · exact short
    · -- the front of the tag would begin inside the tag
      rw [← eq] at begins suffix ⊢
      cases d with
      | nil => exact List.suffix_refl _
      | cons c d =>
        obtain ⟨tail, whole, -⟩ := head_of_held begins (by simp)
        rw [List.cons_append, List.cons.injEq] at whole
        obtain ⟨rfl, -⟩ := whole
        obtain ⟨v, split⟩ := suffix
        rw [← List.append_assoc, List.append_cancel_right_eq] at split
        have inside : '<' :: d <:+ u ++ toolUseXmlPrefix := ⟨v, split⟩
        have length := begins.length_le
        have := List.length_pos_iff.mpr some
        rw [List.length_append] at length
        have within : '<' :: d <:+ toolUseXmlPrefix.tail := by
          refine List.suffix_of_suffix_length_le inside ?_ ?_
          · exact (List.tail_suffix _).trans (List.suffix_append _ _)
          · rw [List.length_tail]
            omega
        exact absurd (within.subset List.mem_cons_self) (by decide)
  exact (splitPartial_longest short begins).eq_of_length_le here.length_le

theorem frontOf_behind_tag (u : Text) {w : Text} (some : w ≠ []) :
    frontOf (u ++ toolUseXmlPrefix ++ w) = u ++ toolUseXmlPrefix ++ frontOf w := by
  have whole := frontOf_append_heldOf (u ++ toolUseXmlPrefix ++ w)
  rw [heldOf_behind_tag u some] at whole
  conv_rhs at whole => rw [← frontOf_append_heldOf w]
  rw [← List.append_assoc, List.append_cancel_right_eq] at whole
  exact whole

/-- What a scan makes of a text in which a tag has been found. -/
def scanFrom (before afterStart : Text) : TagScan :=
  match splitFind ['>'] afterStart with
  | none => .cut before afterStart
  | some (tagHead, fromGt) =>
    if isToolUseTag tagHead then
      match splitFind toolUseXmlClose (fromGt.drop 1) with
      | none => .unclosed before
      | some (_, fromClose) => .element before (fromClose.drop toolUseXmlClose.length)
    else .other before (afterStart.drop toolUseXmlPrefix.length)

def behind (front : Text) : TagScan → TagScan
  | .clean => .clean
  | .cut before afterStart => .cut (front ++ before) afterStart
  | .other before left => .other (front ++ before) left
  | .element before left => .element (front ++ before) left
  | .unclosed before => .unclosed (front ++ before)

theorem scanFrom_append (front before afterStart : Text) :
    scanFrom (front ++ before) afterStart = behind front (scanFrom before afterStart) := by
  unfold scanFrom
  split
  · rfl
  · split_ifs
    · split
      · rfl
      · rfl
    · rfl

theorem scanFrom_ne_clean (before afterStart : Text) : scanFrom before afterStart ≠ .clean := by
  unfold scanFrom
  split
  · exact TagScan.noConfusion
  · split_ifs
    · split
      · exact TagScan.noConfusion
      · exact TagScan.noConfusion
    · exact TagScan.noConfusion

theorem scanTag_of_some {rest before afterStart : Text}
    (found : splitFind toolUseXmlPrefix rest = some (before, afterStart)) :
    scanTag rest = scanFrom before afterStart := by
  unfold scanTag
  rw [found]
  rfl

theorem keptSegments_resume {stretch : Text} (clean : splitFind toolUseXmlPrefix stretch = none)
    (later : Text) : keptSegments (stretch ++ later) =
      glue (frontOf stretch) (keptSegments (heldOf stretch ++ later)) := by
  have search := splitFind_append (x := later) ((splitFind_eq_none prefix_ne_nil).mp clean)
  rw [show (splitPartial toolUseXmlPrefix stretch).2 = heldOf stretch by rfl,
    show (splitPartial toolUseXmlPrefix stretch).1 = frontOf stretch by rfl] at search
  cases found : splitFind toolUseXmlPrefix (heldOf stretch ++ later) with
  | none =>
    rw [found] at search
    rw [keptSegments_of_none search, keptSegments_of_none found, glue, ← List.append_assoc,
      frontOf_append_heldOf]
  | some p =>
    obtain ⟨before, afterStart⟩ := p
    rw [found] at search
    rw [keptSegments.eq_def (stretch ++ later), keptSegments.eq_def (heldOf stretch ++ later),
      scanTag_of_some search, scanTag_of_some found, scanFrom_append]
    cases scan : scanFrom before afterStart with
    | clean => exact absurd scan (scanFrom_ne_clean _ _)
    | cut => rfl
    | other before left =>
      show glue _ _ = glue _ (glue _ _)
      rw [glue_glue, List.append_assoc]
    | element before left => rfl
    | unclosed => rfl

def named (afterName : Text) : Bool :=
  match afterName with
  | [] => true
  | c :: _ => isWhitespace c || c == '>'

/-- What stands behind the front of a tag, and what a scan makes of it. -/
inductive Meets (before : Text) : Text → TagScan → Prop where
  | cut {y : Text} (no_gt : '>' ∉ y) :
      Meets before (toolUseXmlPrefix ++ y) (.cut before (toolUseXmlPrefix ++ y))
  | other {y : Text} (gt : '>' ∈ y) (name : named y = false) :
      Meets before (toolUseXmlPrefix ++ y) (.other before y)
  | unclosed {head rest : Text} (no_gt : '>' ∉ head) (name : endsName head = true)
      (no_close : ¬ toolUseXmlClose <:+: rest) :
      Meets before (toolUseXmlPrefix ++ (head ++ '>' :: rest)) (.unclosed before)
  | element {head body left : Text} (no_gt : '>' ∉ head) (name : endsName head = true)
      (first : ¬ toolUseXmlClose <:+: body ++ toolUseXmlClose.dropLast) :
      Meets before (toolUseXmlPrefix ++ (head ++ '>' :: (body ++ (toolUseXmlClose ++ left))))
        (.element before left)

theorem close_ne_nil : toolUseXmlClose ≠ [] := by decide

theorem splitFind_gt {head : Text} (no_gt : '>' ∉ head) (rest : Text) :
    splitFind ['>'] (head ++ '>' :: rest) = some (head, '>' :: rest) := by
  refine (splitFind_eq_some_iff (List.cons_ne_nil _ _)).mpr ⟨rfl, List.prefix_append ['>'] rest, ?_⟩
  rw [List.dropLast_singleton, List.append_nil, List.singleton_infix_iff]
  exact no_gt

theorem no_gt_of_tag {head : Text} (no_gt : '>' ∉ head) : '>' ∉ toolUseXmlPrefix ++ head := by
  rw [List.mem_append, not_or]
  exact ⟨by decide, no_gt⟩

theorem isToolUseTag_append (head : Text) :
    isToolUseTag (toolUseXmlPrefix ++ head) = endsName head := by
  unfold isToolUseTag
  rw [List.drop_left]

theorem scanFrom_of_head {head rest : Text} (before : Text) (no_gt : '>' ∉ head) :
    scanFrom before (toolUseXmlPrefix ++ (head ++ '>' :: rest)) =
      if endsName head then
        match splitFind toolUseXmlClose rest with
        | none => .unclosed before
        | some (_, fromClose) => .element before (fromClose.drop toolUseXmlClose.length)
      else .other before (head ++ '>' :: rest) := by
  unfold scanFrom
  rw [← List.append_assoc, splitFind_gt (no_gt_of_tag no_gt), List.append_assoc, List.drop_left]
  dsimp only
  rw [isToolUseTag_append]
  rfl

theorem named_append_gt {head : Text} (no_gt : '>' ∉ head) (rest : Text) :
    named (head ++ '>' :: rest) = endsName head := by
  cases head with
  | nil => rfl
  | cons c head =>
    have other : (c == '>') = false := by
      rw [beq_eq_false_iff_ne]
      rintro rfl
      exact no_gt List.mem_cons_self
    show (isWhitespace c || c == '>') = isWhitespace c
    rw [other, Bool.or_false]

theorem scanFrom_of_meets {before afterStart : Text} {scan : TagScan}
    (meets : Meets before afterStart scan) : scanFrom before afterStart = scan := by
  cases meets with
  | cut no_gt =>
    unfold scanFrom
    rw [(splitFind_eq_none (List.cons_ne_nil _ _)).mpr]
    rw [List.singleton_infix_iff]
    exact no_gt_of_tag no_gt
  | other gt name =>
    obtain ⟨head, rest, rfl, no_gt⟩ := List.eq_append_cons_of_mem gt
    rw [named_append_gt no_gt] at name
    rw [scanFrom_of_head before no_gt, name]
    rfl
  | unclosed no_gt name no_close =>
    rw [scanFrom_of_head before no_gt, if_pos name, (splitFind_eq_none close_ne_nil).mpr no_close]
  | @element head body left no_gt name first =>
    have closed : splitFind toolUseXmlClose (body ++ (toolUseXmlClose ++ left)) =
        some (body, toolUseXmlClose ++ left) :=
      (splitFind_eq_some_iff close_ne_nil).mpr ⟨rfl, List.prefix_append _ _, first⟩
    rw [scanFrom_of_head before no_gt, if_pos name, closed]
    dsimp only
    rw [List.drop_left]

theorem meets_scanFrom (before : Text) {afterStart : Text}
    (pre : toolUseXmlPrefix <+: afterStart) :
    Meets before afterStart (scanFrom before afterStart) := by
  obtain ⟨y, rfl⟩ := pre
  by_cases gt : '>' ∈ y
  · obtain ⟨head, rest, rfl, no_gt⟩ := List.eq_append_cons_of_mem gt
    cases name : endsName head with
    | false =>
      have other := @Meets.other before _ gt ((named_append_gt no_gt rest).trans name)
      rw [scanFrom_of_meets other]
      exact other
    | true =>
      rw [scanFrom_of_head before no_gt, if_pos name]
      cases closed : splitFind toolUseXmlClose rest with
      | none => exact .unclosed no_gt name ((splitFind_eq_none close_ne_nil).mp closed)
      | some p =>
        obtain ⟨body, fromClose⟩ := p
        obtain ⟨split, ⟨left, rfl⟩, first⟩ := (splitFind_eq_some_iff close_ne_nil).mp closed
        subst split
        dsimp only
        rw [List.drop_left]
        exact .element no_gt name first
  · rw [scanFrom_of_meets (.cut gt)]
    exact .cut gt

theorem exists_meets {rest : Text} (some : scanTag rest ≠ .clean) :
    ∃ before afterStart, splitFind toolUseXmlPrefix rest = .some (before, afterStart) ∧
      Meets before afterStart (scanTag rest) := by
  cases found : splitFind toolUseXmlPrefix rest with
  | none => exact absurd (scanTag_of_none found) some
  | some p =>
    obtain ⟨before, afterStart⟩ := p
    refine ⟨before, afterStart, rfl, ?_⟩
    rw [scanTag_of_some found]
    exact meets_scanFrom before (splitFind_eq_some found).2

theorem scanTag_of_meets {rest before afterStart : Text} {scan : TagScan}
    (found : splitFind toolUseXmlPrefix rest = some (before, afterStart))
    (meets : Meets before afterStart scan) : scanTag rest = scan := by
  rw [scanTag_of_some found]
  exact scanFrom_of_meets meets

theorem named_append {y : Text} (some : y ≠ []) (later : Text) : named (y ++ later) = named y := by
  cases y with
  | nil => exact absurd rfl some
  | cons c y => rfl

theorem exists_other {rest before left : Text} (scan : scanTag rest = .other before left) :
    splitFind toolUseXmlPrefix rest = some (before, toolUseXmlPrefix ++ left) ∧
      '>' ∈ left ∧ named left = false := by
  obtain ⟨before', afterStart, found, meets⟩ := exists_meets (by rw [scan]; exact nofun)
  rw [scan] at meets
  cases meets with
  | other gt name => exact ⟨found, gt, name⟩

theorem scanTag_other_append {rest before left : Text} (scan : scanTag rest = .other before left)
    (later : Text) : scanTag (rest ++ later) = .other before (left ++ later) := by
  obtain ⟨found, gt, name⟩ := exists_other scan
  refine scanTag_of_meets (splitFind_extend found prefix_ne_nil) ?_
  rw [List.append_assoc]
  refine .other (List.mem_append_left _ gt) ?_
  rw [named_append (List.ne_nil_of_mem gt), name]

theorem scanTag_element_append {rest before left : Text}
    (scan : scanTag rest = .element before left) (later : Text) :
    scanTag (rest ++ later) = .element before (left ++ later) := by
  obtain ⟨before', afterStart, found, meets⟩ := exists_meets (by rw [scan]; exact nofun)
  rw [scan] at meets
  cases meets with
  | element no_gt name first =>
    refine scanTag_of_meets (splitFind_extend found prefix_ne_nil) ?_
    simp only [List.append_assoc, List.cons_append]
    exact .element no_gt name first

/-- How the reading of a text that ends outside of all tags goes on: the last stretch is taken up
again at the end of it that can become a tag. -/
theorem exists_resume {t : Text} (closed : closes t = true) :
    ∃ init stretch, keptSegments t = init ++ [stretch] ∧ Held (heldOf stretch) ∧
      (init = [] → stretch = t) ∧ ∀ later, keptSegments (t ++ later) =
        init ++ glue (frontOf stretch) (keptSegments (heldOf stretch ++ later)) := by
  fun_induction closes t with
  | case1 rest scan =>
    have clean := scanTag_spec rest
    rw [scan] at clean
    refine ⟨[], rest, keptSegments_of_none clean, held_heldOf clean, fun _ => rfl, fun later => ?_⟩
    rw [List.nil_append]
    exact keptSegments_resume clean later
  | case2 => cases closed
  | case3 rest before left scan ih =>
    obtain ⟨init, stretch, here, held, whole, resume⟩ := ih closed
    obtain ⟨-, gt, -⟩ := exists_other scan
    have split := scanTag_spec rest
    rw [scan] at split
    have some := List.ne_nil_of_mem gt
    rw [keptSegments_of_other scan, here]
    cases init with
    | nil =>
      rw [whole rfl] at held resume ⊢
      refine ⟨[], rest, ?_, ?_, fun _ => rfl, fun later => ?_⟩
      · rw [split]
        rfl
      · rw [split, heldOf_behind_tag before some]
        exact held
      · rw [keptSegments_of_other (scanTag_other_append scan later), resume, split,
          frontOf_behind_tag before some, heldOf_behind_tag before some, List.nil_append,
          List.nil_append, glue_glue]
    | cons segment init =>
      refine ⟨(before ++ toolUseXmlPrefix ++ segment) :: init, stretch, rfl, held, nofun, ?_⟩
      intro later
      rw [keptSegments_of_other (scanTag_other_append scan later), resume]
      rfl
  | case4 rest before left scan ih =>
    obtain ⟨init, stretch, here, held, -, resume⟩ := ih closed
    refine ⟨before :: init, stretch, ?_, held, nofun, fun later => ?_⟩
    · rw [keptSegments_of_element scan, here]
      rfl
    · rw [keptSegments_of_element (scanTag_element_append scan later), resume]
      rfl
  | case5 => cases closed

theorem blank_not_mem {b : Text} (blank : isBlank b = true) {c : Char}
    (solid_c : isWhitespace c = false) : c ∉ b := by
  intro mem
  rw [List.all_eq_true.mp blank c mem] at solid_c
  cases solid_c

/-- Behind a tag or an element without an end blanks change nothing. -/
theorem keptSegments_append_blank {t : Text} (opened : closes t = false) {later : Text}
    (blank : isBlank later = true) : keptSegments (t ++ later) = keptSegments t := by
  fun_induction closes t with
  | case1 => cases opened
  | case2 rest before afterStart scan =>
    obtain ⟨before', afterStart', found, meets⟩ := exists_meets (by rw [scan]; exact nofun)
    rw [scan] at meets
    cases meets with
    | @cut y no_gt =>
      have cut : Meets before (toolUseXmlPrefix ++ y ++ later)
          (.cut before (toolUseXmlPrefix ++ (y ++ later))) := by
        rw [List.append_assoc]
        refine .cut ?_
        rw [List.mem_append, not_or]
        exact ⟨no_gt, blank_not_mem blank (by decide)⟩
      rw [keptSegments_of_cut scan]
      exact keptSegments_of_cut (scanTag_of_meets (splitFind_extend found prefix_ne_nil) cut)
  | case3 rest before left scan ih =>
    rw [keptSegments_of_other (scanTag_other_append scan later), ih opened,
      keptSegments_of_other scan]
  | case4 rest before left scan ih =>
    rw [keptSegments_of_element (scanTag_element_append scan later), ih opened,
      keptSegments_of_element scan]
  | case5 rest before scan =>
    obtain ⟨before', afterStart', found, meets⟩ := exists_meets (by rw [scan]; exact nofun)
    rw [scan] at meets
    cases meets with
    | unclosed no_gt name no_close =>
      rw [keptSegments_of_unclosed scan]
      refine keptSegments_of_unclosed (scanTag_of_meets (splitFind_extend found prefix_ne_nil) ?_)
      rw [List.append_assoc, List.append_assoc, List.cons_append]
      refine .unclosed no_gt name fun inside => no_close ?_
      exact infix_of_append_blank (r := "</tool_use".toList) rfl (by decide) blank inside

end KiroRs.Stream.LeakSegments
