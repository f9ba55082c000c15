/- Path: KiroRs/Stream/LeakChunking
   source: src/anthropic/stream.rs, src/kiro/model/events/assistant.rs
   digest: Texts that come out of the two cleaning layers without their leaked tool calls, as they
   are cut into events. -/

import KiroRs.Stream.LeakElements

set_option autoImplicit false
set_option relaxedAutoImplicit false

namespace KiroRs.Stream.LeakChunking

open KiroRs.Lib.Search
open KiroRs.Lib.Seams
open KiroRs.Lib.Text
open KiroRs.Stream.XmlFilter
open KiroRs.Stream.FilterRuns
open KiroRs.Stream.LeakSegments
open KiroRs.Stream.LeakElements

/-- Where the text so far ends: outside of all leaked elements, with the stretch since the last
one, or inside of one, with its front. -/
inductive Place where
  | outside (stretch : Text)
  | inside (element : Text)

def stretchBehind (stretch rest : Text) : Text := (glue stretch (keptSegments rest)).getLastD []

/-- The cleaning of an event leaves of its text `rest`, which stands behind a stretch, what the
cleaning of the whole text does. -/
structure Quiet (stretch rest lead left trail : Text) (later : List Text) : Prop where
  kept : (keptSegments rest).flatten = lead ++ (left ++ trail)
  blank_lead : isBlank lead = true
  blank_trail : isBlank trail = true
  /-- what is trimmed in front stands at a seam -/
  front : lead = [] ∨ isBlank stretch = true ∨ ∃ first second more,
    keptSegments rest = first :: second :: more ∧ isBlank first = true
  /-- what is trimmed behind stands at a seam -/
  behind : trail = [] ∨
    (∃ first more last, keptSegments rest = first :: (more ++ [last]) ∧ isBlank last = true) ∨
    ∃ first more, keptSegments later.flatten = first :: more ∧ isBlank first = true
  /-- no tag is left open, unless nothing follows that can be seen -/
  closed : closes (heldOf stretch ++ rest) = true ∨ isBlank later.flatten = true
  /-- the pieces that are left do not make up a tag among themselves -/
  untagged : Untagged (heldOf stretch ++ left)
  /-- nor with later events -/
  apart : heldOf (heldOf stretch ++ left) = heldOf (stretchBehind stretch rest) ∨
    ¬ toolUseXmlPrefix <+: heldOf (heldOf stretch ++ left) ++ (later.map leftover).flatten

/-- The cuts between the events that both layers get over. -/
inductive Smooth : Place → List Text → Prop where
  | done (stretch : Text) : Smooth (.outside stretch) []
  /-- no leaked element reaches from the earlier events into this one -/
  | passes {stretch e lead trail : Text} {later : List Text}
      (kept : keptSegments (heldOf stretch ++ e) = glue (heldOf stretch) (keptSegments e))
      (quiet : Quiet stretch e lead (leftover e) trail later)
      (next : Smooth (.outside (stretchBehind stretch e)) later) :
      Smooth (.outside stretch) (e :: later)
  /-- the event makes what was held back into a tag with another name, which ends later -/
  | renamed {stretch e left : Text} {c : Char} {later : List Text}
      (tag : heldOf stretch ++ e = toolUseXmlPrefix ++ c :: left)
      (alone : splitFind toolUseXmlPrefix e = none) (name : named (c :: left) = false)
      (gt : '>' ∈ c :: left ++ later.flatten) (next : Smooth (.outside (stretch ++ e)) later) :
      Smooth (.outside stretch) (e :: later)
  /-- the event makes what was held back into the front of a leaked element -/
  | opens {stretch e : Text} {later : List Text} (front : Opens (heldOf stretch ++ leftover e))
      (next : Smooth (.inside (heldOf stretch ++ e)) later) : Smooth (.outside stretch) (e :: later)
  /-- the event makes what was held back into a whole leaked element -/
  | finishes {stretch head rest left trail : Text} {later : List Text}
      (element : IsElement (heldOf stretch ++ head))
      (cleaned : leftover (head ++ rest) = head ++ left)
      (quiet : Quiet [] rest [] left trail later)
      (next : Smooth (.outside (stretchBehind [] rest)) later) :
      Smooth (.outside stretch) ((head ++ rest) :: later)
  /-- the event belongs to the leaked element -/
  | stays {element e : Text} {later : List Text} (no_close : splitFind toolUseXmlClose e = none)
      (next : Smooth (.inside (element ++ e)) later) : Smooth (.inside element) (e :: later)
  /-- nothing that can be seen follows the leaked element -/
  | swallows {element : Text} {others : List Text} (kept : keptSegments element = [] :: others)
      (blank : isBlank others.flatten = true) : Smooth (.inside element) []
  /-- the close tag of the leaked element stands in the event -/
  | ends {element body body' rest left trail : Text} {later : List Text}
      (whole : IsElement (element ++ (body ++ toolUseXmlClose)))
      (first : ¬ toolUseXmlClose <:+: body ++ toolUseXmlClose.dropLast)
      (cleaned : leftover (body ++ toolUseXmlClose ++ rest) = body' ++ toolUseXmlClose ++ left)
      (within : body' <:+ body) (quiet : Quiet [] rest [] left trail later)
      (next : Smooth (.outside (stretchBehind [] rest)) later) :
      Smooth (.inside element) ((body ++ toolUseXmlClose ++ rest) :: later)

def Right : Place → List Text → Prop
  | .outside stretch, chunks => Held (heldOf stretch) →
      Spells (glue (frontOf stretch) (keptSegments (heldOf stretch ++ chunks.flatten)))
        (frontOf stretch ++
          filtered { buffer := heldOf stretch, stripping := false } (chunks.map cleanContent))
  | .inside element, chunks =>
      ∃ segments, keptSegments (element ++ chunks.flatten) = [] :: segments ∧
        Spells segments (filtered { buffer := [], stripping := true } (chunks.map cleanContent))

theorem exists_next {stretch rest : Text} (closed : closes (heldOf stretch ++ rest) = true)
    (kept : keptSegments (heldOf stretch ++ rest) = glue (heldOf stretch) (keptSegments rest)) :
    ∃ init, glue stretch (keptSegments rest) = init ++ [stretchBehind stretch rest] ∧
      Held (heldOf (stretchBehind stretch rest)) ∧ ∀ later,
        glue (frontOf stretch) (keptSegments (heldOf stretch ++ (rest ++ later))) =
          init ++ glue (frontOf (stretchBehind stretch rest))
            (keptSegments (heldOf (stretchBehind stretch rest) ++ later)) := by
  obtain ⟨init, last, here, held, whole, resume⟩ := exists_resume closed
  have glued : glue stretch (keptSegments rest) = glue (frontOf stretch) (init ++ [last]) := by
    rw [← here, kept, glue_glue, frontOf_append_heldOf]
  unfold stretchBehind
  rw [glued]
  cases init with
  | nil =>
    have append : frontOf stretch ++ last = stretch ++ rest := by
      rw [whole rfl, ← List.append_assoc, frontOf_append_heldOf]
    have same : heldOf (stretch ++ rest) = heldOf last := by rw [heldOf_append, whole rfl]
    have front : frontOf (stretch ++ rest) = frontOf stretch ++ frontOf last := by
      rw [frontOf_append, whole rfl]
    have last_eq : (glue (frontOf stretch) ([] ++ [last])).getLastD [] = stretch ++ rest := append
    rw [last_eq, same, front]
    refine ⟨[], congrArg (fun t => [t]) append, held, fun later => ?_⟩
    rw [← List.append_assoc, resume, List.nil_append, List.nil_append, glue_glue]
  | cons segment init =>
    have last_eq : (glue (frontOf stretch) (segment :: init ++ [last])).getLastD [] = last := by
      show ((frontOf stretch ++ segment) :: (init ++ [last])).getLastD [] = last
      rw [List.getLastD_cons, List.getLastD_concat]
    rw [last_eq]
    refine ⟨(frontOf stretch ++ segment) :: init, rfl, held, fun later => ?_⟩
    rw [← List.append_assoc, resume]
    rfl

theorem spells_trimmed {segments : List Text} {x lead left trail y : Text}
    (blank_lead : isBlank lead = true) (blank_trail : isBlank trail = true)
    (front : lead = [] ∨ ∃ before behind,
      segments = before ++ behind ∧ solid x = solid before.flatten)
    (back : trail = [] ∨ ∃ before behind,
      segments = before ++ behind ∧ solid (x ++ left) = solid before.flatten)
    (spells : Spells segments (x ++ (lead ++ (left ++ (trail ++ y))))) :
    Spells segments (x ++ (left ++ y)) := by
  have whole : Spells segments (x ++ (lead ++ (left ++ y))) := by
    rcases back with rfl | ⟨before, behind, rfl, here⟩
    · exact spells
    · have same : solid (x ++ (lead ++ left)) = solid before.flatten := by
        rw [← here]
        simp only [solid_append, solid_of_blank blank_lead, List.nil_append]
      have := Spells.drop (x := x ++ (lead ++ left)) blank_trail same
        (by simpa only [List.append_assoc] using spells)
      simpa only [List.append_assoc] using this
  rcases front with rfl | ⟨before, behind, rfl, here⟩
  · exact whole
  · exact whole.drop blank_lead here

theorem filtered_blank {held : Text} (begins : Held held) {later : List Text}
    (blank : isBlank later.flatten = true) :
    filtered { buffer := held, stripping := false } (later.map cleanContent) =
      held ++ later.flatten := by
  have clean : splitFind toolUseXmlPrefix (held ++ later.flatten) = none := by
    have short := none_of_short begins.2
    rw [splitFind_eq_none prefix_ne_nil] at short ⊢
    exact fun inside => short
      (@infix_of_append_blank _ _ _ 'e' "<tool_us".toList rfl (by decide) blank inside)
  have untouched : later.map cleanContent = later := by
    refine (List.map_congr_left fun chunk mem => ?_).trans (List.map_id later)
    refine cleanContent_of_none (none_inside ?_ clean)
    exact (List.infix_of_mem_flatten mem).trans (List.suffix_append _ _).isInfix
  rw [untouched]
  exact filtered_of_none begins later clean

theorem held_of_untagged {t : Text} (untagged : Untagged t) : Held (heldOf t) := by
  have begins : heldOf t <+: toolUseXmlPrefix := splitPartial_begins _ _
  refine ⟨begins, begins.length_le.lt_of_ne fun whole => ?_⟩
  have ends := frontOf_append_heldOf t
  rw [begins.eq_of_length whole] at ends
  cases untagged (frontOf t) [] (by rw [ends, List.append_nil])

section Quiet

variable {stretch rest lead left trail : Text} {later init : List Text} {last : Text}

theorem Quiet.flatten (quiet : Quiet stretch rest lead left trail later)
    (split : glue stretch (keptSegments rest) = init ++ [last]) :
    init.flatten ++ last = stretch ++ (lead ++ (left ++ trail)) := by
  rw [← quiet.kept, ← flatten_glue, split, List.flatten_append, List.flatten_singleton]

theorem Quiet.solid_flatten (quiet : Quiet stretch rest lead left trail later)
    (split : glue stretch (keptSegments rest) = init ++ [last]) :
    solid init.flatten ++ solid last = solid (stretch ++ left) := by
  rw [← solid_append, quiet.flatten split]
  simp only [solid_append, solid_of_blank quiet.blank_lead, solid_of_blank quiet.blank_trail,
    List.nil_append, List.append_nil]

theorem Quiet.front_seam (quiet : Quiet stretch rest lead left trail later)
    (split : glue stretch (keptSegments rest) = init ++ [last]) (more : List Text) :
    lead = [] ∨ ∃ before behind,
      init ++ more = before ++ behind ∧ solid stretch = solid before.flatten := by
  rcases quiet.front with none | blank | ⟨first, second, others, here, blank⟩
  · exact .inl none
  · exact .inr ⟨[], init ++ more, rfl, solid_of_blank blank⟩
  · rw [here] at split
    cases init with
    | nil => cases split
    | cons segment init =>
      rw [glue, List.cons_append, List.cons.injEq] at split
      refine .inr ⟨[segment], init ++ more, rfl, ?_⟩
      rw [List.flatten_singleton, ← split.1, solid_append, solid_of_blank blank, List.append_nil]

theorem Quiet.back_seam (quiet : Quiet stretch rest lead left trail later)
    (split : glue stretch (keptSegments rest) = init ++ [last]) (nothing : heldOf last = []) :
    trail = [] ∨ ∃ before behind,
      init ++ glue (frontOf last) (keptSegments (heldOf last ++ later.flatten)) =
        before ++ behind ∧ solid (stretch ++ left) = solid before.flatten := by
  rcases quiet.behind with none | ⟨first, more, final, here, blank⟩ | ⟨first, more, here, blank⟩
  · exact .inl none
  · rw [here, glue, ← List.cons_append] at split
    obtain ⟨rfl, same⟩ := List.append_inj' split rfl
    rw [List.cons.injEq] at same
    refine .inr ⟨_, _, rfl, ?_⟩
    rw [← quiet.solid_flatten (by rw [here, glue, ← List.cons_append]), solid_of_blank blank,
      List.append_nil]
  · have front := frontOf_append_heldOf last
    rw [nothing, List.append_nil] at front
    refine .inr ⟨init ++ [last ++ first], more, ?_, ?_⟩
    · rw [nothing, List.nil_append, here, front, List.append_assoc]
      rfl
    · rw [← quiet.solid_flatten split, List.flatten_append, List.flatten_singleton, solid_append,
        solid_append, solid_of_blank blank, List.append_nil]

end Quiet

theorem solid_suffix {held a b : Text} (solid_held : ∀ c ∈ held, isWhitespace c = false)
    (blank : isBlank b = true) (suffix : held <:+ a ++ b) : held = [] ∨ b = [] := by
  rcases List.eq_nil_or_concat' b with none | ⟨b, s, rfl⟩
  · exact .inr none
  · rcases List.eq_nil_or_concat' held with none | ⟨held, c, rfl⟩
    · exact .inl none
    · rw [← List.append_assoc, List.suffix_concat_iff] at suffix
      rcases suffix with none | ⟨t, same, -⟩
      · exact .inl none
      · have last := congrArg List.getLast? same
        rw [List.getLast?_concat, List.getLast?_concat, Option.some.injEq] at last
        have space := List.all_eq_true.mp blank s (List.mem_append_right b List.mem_cons_self)
        rw [← last, solid_held c (List.mem_append_right held List.mem_cons_self)] at space
        cases space

theorem suffix_cases {held x lead left trail : Text}
    (solid_held : ∀ c ∈ held, isWhitespace c = false) (blank_lead : isBlank lead = true)
    (blank_trail : isBlank trail = true) (suffix : held <:+ x ++ (lead ++ (left ++ trail))) :
    held = [] ∨ trail = [] ∧ (lead = [] ∨ held <:+ left) := by
  rw [← List.append_assoc lead, ← List.append_assoc x] at suffix
  rcases solid_suffix solid_held blank_trail suffix with none | rfl
  · exact .inl none
  · rw [List.append_nil, ← List.append_assoc] at suffix
    refine .inr ⟨rfl, ?_⟩
    rcases List.suffix_or_suffix_of_suffix suffix (List.suffix_append _ left) with short | long
    · exact .inr short
    · obtain ⟨d, rfl⟩ := long
      obtain ⟨front, split⟩ := suffix
      rw [← List.append_assoc, List.append_cancel_right_eq] at split
      rcases solid_suffix (fun c mem => solid_held c (List.mem_append_left _ mem)) blank_lead
        ⟨front, split⟩ with none | none
      · rw [none]
        exact .inr (List.suffix_refl _)
      · exact .inl none

theorem suffix_heldOf {held t : Text} (begins : Held held) (suffix : held <:+ t) :
    held <:+ heldOf t := splitPartial_longest suffix begins.1

theorem heldOf_left {stretch lead left trail held : Text} (begins : Held held) (some : held ≠ [])
    (blank_lead : isBlank lead = true) (blank_trail : isBlank trail = true)
    (suffix : held <:+ stretch ++ (lead ++ (left ++ trail))) :
    heldOf (heldOf stretch ++ left) = held := by
  have solid_held : ∀ c ∈ held, isWhitespace c = false :=
    fun c mem => solid_of_tag c (begins.1.subset mem)
  have within : held <:+ heldOf (heldOf stretch ++ left) := by
    obtain ⟨rfl, none | short⟩ := (suffix_cases solid_held blank_lead blank_trail suffix).resolve_left
      some
    · rw [none, List.nil_append, List.append_nil] at suffix
      rw [← heldOf_append]
      exact suffix_heldOf begins suffix
    · exact suffix_heldOf begins (short.trans (List.suffix_append _ _))
  exact eq_of_held_suffix begins.1 some (splitPartial_begins _ _) within

theorem right_of_quiet {stretch rest lead left trail : Text} {later : List Text}
    (kept : keptSegments (heldOf stretch ++ rest) = glue (heldOf stretch) (keptSegments rest))
    (quiet : Quiet stretch rest lead left trail later)
    (next : Right (.outside (stretchBehind stretch rest)) later) :
    Spells (glue (frontOf stretch) (keptSegments (heldOf stretch ++ (rest ++ later.flatten))))
      (frontOf stretch ++ ((filterLoop (heldOf stretch ++ left)).1 ++
        filtered (filterLoop (heldOf stretch ++ left)).2 (later.map cleanContent))) := by
  have begins := held_of_untagged quiet.untagged
  rw [filterLoop_of_untagged quiet.untagged]
  have through : frontOf stretch ++ frontOf (heldOf stretch ++ left) ++
      heldOf (heldOf stretch ++ left) = stretch ++ left := by
    rw [List.append_assoc, frontOf_append_heldOf, ← List.append_assoc, frontOf_append_heldOf]
  cases closed : closes (heldOf stretch ++ rest) with
  | false =>
    have blank := quiet.closed.resolve_left (by rw [closed]; exact nofun)
    have some := glue_ne_nil stretch (keptSegments rest)
    obtain ⟨init, last, split⟩ := (List.eq_nil_or_concat' _).resolve_left some
    have whole := (spells_flatten (glue stretch (keptSegments rest))).append_blank some blank
    rw [flatten_glue, quiet.kept] at whole
    have out : frontOf stretch ++ (frontOf (heldOf stretch ++ left) ++
        (heldOf (heldOf stretch ++ left) ++ later.flatten)) = stretch ++ (left ++ later.flatten) := by
      rw [← List.append_assoc, ← List.append_assoc, through, List.append_assoc]
    dsimp only
    rw [filtered_blank begins blank, out, ← List.append_assoc (heldOf stretch),
      keptSegments_append_blank closed blank, kept, glue_glue, frontOf_append_heldOf]
    refine spells_trimmed quiet.blank_lead quiet.blank_trail ?_ ?_
      (by simpa only [List.append_assoc] using whole)
    · rw [split]
      exact quiet.front_seam split [last]
    · refine .inr ⟨init ++ [last], [], by rw [split, List.append_nil], ?_⟩
      rw [← quiet.solid_flatten split, List.flatten_append, List.flatten_singleton, solid_append]
  | true =>
    obtain ⟨init, split, held, resume⟩ := exists_next closed kept
    rw [resume]
    have whole := (spells_flatten init).append (next held)
    have flat := quiet.flatten split
    rw [← frontOf_append_heldOf (stretchBehind stretch rest), ← List.append_assoc] at flat
    rw [← List.append_assoc] at whole
    by_cases nothing : heldOf (stretchBehind stretch rest) = []
    · -- nothing of the text is held back, though the end of what is left may be
      have out : filtered { buffer := heldOf (heldOf stretch ++ left), stripping := false }
          (later.map cleanContent) =
          heldOf (heldOf stretch ++ left) ++ filtered {} (later.map cleanContent) := by
        rcases quiet.apart with same | never
        · rw [same, nothing]
          rfl
        · rw [funext leftover_eq] at never
          exact filtered_held _ begins never
      have ends : { buffer := heldOf (stretchBehind stretch rest), stripping := false } =
          ({} : ToolUseXmlLeakFilter) := by rw [nothing]
      rw [nothing, List.append_nil] at flat
      dsimp only
      rw [out, ← List.append_assoc, ← List.append_assoc, through, List.append_assoc]
      rw [flat, ends] at whole
      exact spells_trimmed quiet.blank_lead quiet.blank_trail (quiet.front_seam split _)
        (quiet.back_seam split nothing) (by simpa only [List.append_assoc] using whole)
    · have same := heldOf_left held nothing quiet.blank_lead quiet.blank_trail ⟨_, flat⟩
      have solid_held : ∀ c ∈ heldOf (stretchBehind stretch rest), isWhitespace c = false :=
        fun c mem => solid_of_tag c (held.1.subset mem)
      obtain ⟨rfl, seam⟩ := (suffix_cases solid_held quiet.blank_lead quiet.blank_trail
        ⟨_, flat⟩).resolve_left nothing
      dsimp only
      rw [same] at through ⊢
      rw [← List.append_assoc]
      rcases seam with rfl | ⟨l, rfl⟩
      · rw [List.nil_append, List.append_nil, ← through, List.append_cancel_right_eq] at flat
        rw [← flat]
        exact whole
      · rw [List.append_nil, ← List.append_assoc, ← List.append_assoc,
          List.append_cancel_right_eq] at flat
        rw [← List.append_assoc stretch, List.append_cancel_right_eq] at through
        rw [flat, List.append_assoc, List.append_assoc] at whole
        rw [through, List.append_assoc]
        exact @spells_trimmed _ stretch lead l [] _ quiet.blank_lead rfl
          (quiet.front_seam split _) (.inl rfl) whole

theorem spells_behind_element {rest left trail : Text} {later : List Text}
    (quiet : Quiet [] rest [] left trail later)
    (next : Right (.outside (stretchBehind [] rest)) later) :
    Spells (keptSegments (rest ++ later.flatten)) ((filterLoop left).1 ++
      filtered (filterLoop left).2 (later.map cleanContent)) := by
  have step := @right_of_quiet [] rest _ _ _ _ (glue_nil (keptSegments_ne_nil rest)).symm quiet next
  rw [show frontOf [] = [] by rfl, glue_nil (keptSegments_ne_nil _)] at step
  exact step

theorem no_close_leftover {e : Text} (no_close : splitFind toolUseXmlClose e = none) :
    splitFind toolUseXmlClose (leftover e) = none := by
  rw [splitFind_eq_none close_ne_nil] at no_close ⊢
  unfold leftover
  split_ifs
  · obtain ⟨p, kept, within⟩ := keptSegments_of_no_close (t := e) fun head rest split inside =>
      no_close (inside.trans ⟨head ++ ['>'], [], by rw [split]; simp⟩)
    have begins : p <+: e := by
      rcases within with rfl | within
      · exact List.prefix_refl p
      · exact (List.prefix_append p _).trans within
    rw [kept, List.flatten_singleton]
    exact fun inside => no_close ((inside.trans (trimChars_inside p)).trans begins.isInfix)
  · exact no_close

/-- What was held back turns out to be the front of a tag with another name. -/
theorem right_of_renamed {stretch e left : Text} {c : Char} {later : List Text}
    (tag : heldOf stretch ++ e = toolUseXmlPrefix ++ c :: left)
    (alone : splitFind toolUseXmlPrefix e = none) (name : named (c :: left) = false)
    (gt : '>' ∈ c :: left ++ later.flatten) (next : Right (.outside (stretch ++ e)) later) :
    Right (.outside stretch) (e :: later) := by
  intro begins
  obtain ⟨rest, split⟩ := exists_rest begins tag
  have clean : splitFind toolUseXmlPrefix (c :: left) = none :=
    none_inside (split ▸ (List.suffix_append rest (c :: left)).isInfix) alone
  have here : keptSegments (heldOf stretch ++ (e ++ later.flatten)) = glue toolUseXmlPrefix
      (glue (frontOf (c :: left)) (keptSegments (heldOf (c :: left) ++ later.flatten))) := by
    have scan := scanTag_of_meets (splitFind_tag (c :: left ++ later.flatten)) (.other gt name)
    rw [← List.append_assoc, tag, List.append_assoc, keptSegments_of_other scan,
      keptSegments_resume clean, List.nil_append]
  have held : heldOf (stretch ++ e) = heldOf (c :: left) := by
    rw [heldOf_append, tag]
    exact heldOf_behind_tag [] (List.cons_ne_nil _ _)
  have front : frontOf (stretch ++ e) =
      frontOf stretch ++ (toolUseXmlPrefix ++ frontOf (c :: left)) := by
    rw [frontOf_append, tag]
    exact congrArg _ (frontOf_behind_tag [] (List.cons_ne_nil _ _))
  have right := next (held ▸ held_heldOf clean)
  rw [held, front] at right
  have out : filterLoop (toolUseXmlPrefix ++ c :: left) = (toolUseXmlPrefix ++ frontOf (c :: left),
      { buffer := heldOf (c :: left), stripping := false }) := by
    rw [filterLoop_of_other name, filterLoop_of_none clean]
    rfl
  rw [List.flatten_cons, List.map_cons, filtered, filter_passing, here,
    cleanContent_of_none alone, tag, out, glue_glue, glue_glue]
  simpa only [List.append_assoc] using right

theorem right_of_smooth {place : Place} {chunks : List Text} (smooth : Smooth place chunks) :
    Right place chunks := by
  induction smooth with
  | done stretch =>
    intro begins
    rw [List.flatten_nil, List.append_nil, keptSegments_of_none (none_of_short begins.2),
      List.map_nil, filtered, finish_of_held begins, glue]
    exact spells_singleton_iff.mpr rfl
  | passes kept quiet _ ih =>
    intro _
    rw [List.flatten_cons, List.map_cons, filtered, filter_passing, ← leftover_eq]
    exact right_of_quiet kept quiet ih
  | renamed tag alone name gt _ ih => exact right_of_renamed tag alone name gt ih
  | @opens stretch e later front _ ih =>
    intro _
    obtain ⟨segments, here, spells⟩ := ih
    rw [List.append_assoc] at here
    rw [List.flatten_cons, List.map_cons, filtered, filter_passing, here, ← leftover_eq,
      filterLoop_of_opens front, glue, List.append_nil]
    exact .cons rfl spells
  | @finishes stretch head rest left trail later element cleaned quiet _ ih =>
    intro _
    have here : keptSegments (heldOf stretch ++ (head ++ rest ++ later.flatten)) =
        [] :: keptSegments (rest ++ later.flatten) := by
      have scan := scanTag_of_isElement element (rest ++ later.flatten)
      rw [← keptSegments_of_element scan]
      simp only [List.append_assoc]
    have out : filterLoop (heldOf stretch ++ (head ++ left)) = filterLoop left := by
      rw [← List.append_assoc, filterLoop_of_isElement element]
    rw [List.flatten_cons, List.map_cons, filtered, filter_passing, here, ← leftover_eq, cleaned,
      out, glue, List.append_nil]
    exact .cons rfl (spells_behind_element quiet ih)
  | @stays element e later no_close _ ih =>
    obtain ⟨segments, here, spells⟩ := ih
    refine ⟨segments, by rw [List.flatten_cons, ← List.append_assoc, here], ?_⟩
    rw [List.map_cons, filtered, ← leftover_eq, filter_stripping_none (no_close_leftover no_close)]
    exact spells
  | @swallows element others kept blank =>
    exact ⟨others, by rw [List.flatten_nil, List.append_nil, kept], spells_blank blank⟩
  | @ends element body body' rest left trail later whole first cleaned within quiet _ ih =>
    refine ⟨keptSegments (rest ++ later.flatten), ?_, ?_⟩
    · have scan := scanTag_of_isElement whole (rest ++ later.flatten)
      rw [← keptSegments_of_element scan]
      simp only [List.flatten_cons, List.append_assoc]
    · have found : splitFind toolUseXmlClose (body' ++ toolUseXmlClose ++ left) =
          some (body', toolUseXmlClose ++ left) := by
        refine (splitFind_eq_some_iff close_ne_nil).mpr
          ⟨List.append_assoc .., List.prefix_append _ _, fun inside => first (inside.trans ?_)⟩
        obtain ⟨front, rfl⟩ := within
        rw [List.append_assoc]
        exact (List.suffix_append _ _).isInfix
      have step := @filter_stripping_some [] (body' ++ toolUseXmlClose ++ left) body' left found
      rw [List.map_cons, filtered, ← leftover_eq, cleaned, step]
      exact spells_behind_element quiet ih

/-- Cut so, a text comes out of the two layers without its leaks. -/
theorem equalAtSeams_of_smooth {chunks : List Text} (smooth : Smooth (.outside []) chunks) :
    EqualAtSeams chunks.flatten (streamed chunks) := by
  have right := right_of_smooth smooth held_nil
  rw [show frontOf [] = [] by rfl, glue_nil (keptSegments_ne_nil _)] at right
  exact right

theorem untagged_of_none {t : Text} (clean : splitFind toolUseXmlPrefix t = none) : Untagged t := by
  rintro before after rfl
  rw [splitFind_eq_none prefix_ne_nil] at clean
  exact absurd ⟨before, after, rfl⟩ clean

theorem quiet_of_none {stretch e : Text} (clean : splitFind toolUseXmlPrefix (heldOf stretch ++ e) = none)
    (later : List Text) : Quiet stretch e [] e [] later := by
  have alone := none_inside (List.suffix_append (heldOf stretch) e).isInfix clean
  have kept := keptSegments_of_none alone
  refine ⟨?_, rfl, rfl, .inl rfl, .inl rfl, .inl ?_, untagged_of_none clean, .inl ?_⟩
  · rw [kept, List.flatten_singleton, List.append_nil]
    rfl
  · rw [closes, scanTag_of_none clean]
  · rw [stretchBehind, kept, ← heldOf_append]
    rfl

theorem Smooth.plain {stretch e : Text} {later : List Text}
    (clean : splitFind toolUseXmlPrefix (heldOf stretch ++ e) = none)
    (next : Smooth (.outside (stretch ++ e)) later) : Smooth (.outside stretch) (e :: later) := by
  have alone := none_inside (List.suffix_append (heldOf stretch) e).isInfix clean
  have kept := keptSegments_of_none alone
  have whole : leftover e = e := by rw [leftover_eq, cleanContent_of_none alone]
  refine @Smooth.passes stretch e [] [] later ?_ ?_ ?_
  · rw [keptSegments_of_none clean, kept, glue]
  · rw [whole]
    exact quiet_of_none clean later
  · rw [stretchBehind, kept]
    exact next

def twoCalls : List Text :=
  ["Let me look <tool_use a>x</tool_use> at it.<tool".toList, "_use id".toList, "=1>body".toList,
    "</tool_use>Then ".toList, " go.".toList]

theorem equalAtSeams_twoCalls : EqualAtSeams twoCalls.flatten (streamed twoCalls) ∧
    keptSegments twoCalls.flatten =
      ["Let me look ".toList, " at it.".toList, "Then  go.".toList] := by
  refine ⟨equalAtSeams_of_smooth ?_, by decide +kernel⟩
  refine @Smooth.passes [] _ [] [] _ (by decide +kernel) ?_ ?_
  · exact ⟨by decide +kernel, rfl, rfl, .inl rfl, .inl rfl, .inl (by decide +kernel),
      untagged_of_none (by decide +kernel), .inl (by decide +kernel)⟩
  · refine .opens ⟨" id".toList, by decide +kernel, by decide, ?_⟩ (.stays (by decide +kernel) ?_)
    · intro head rest split
      exact absurd (split ▸ List.mem_append_right head List.mem_cons_self) (by decide)
    · refine @Smooth.ends _ [] [] "Then ".toList "Then ".toList [] _ ?_ (by decide +kernel)
        (by decide +kernel) (List.suffix_refl _) (quiet_of_none (by decide +kernel) _)
        (.plain (by decide +kernel) (.done _))
      exact ⟨" id=1".toList, "body".toList, by decide +kernel, by decide, by decide, by decide +kernel⟩

/-- The block is cut behind its opening tag: the piece behind it comes out as it is. -/
theorem close_tag_emitted :
    ¬ ∀ t : Text, ∀ chunks : List Text, chunks.flatten = t → EqualAtSeams t (streamed chunks) := by
  intro same
  have visible := Spells.solid_eq (same "<tool_use a>x</tool_use>hello".toList
    ["<tool_use a>x".toList, "</tool_use>hello".toList] (by decide +kernel))
  revert visible
  decide +kernel

end KiroRs.Stream.LeakChunking
