/- Path: KiroRs/Stream/TagCuts
   source: src/anthropic/stream.rs
   digest: The search for a tag in a text that comes in pieces, the front of which is given away while
   the search goes on: where it finds the tag that the whole text has. -/

import KiroRs.Lib.Bytes
import KiroRs.Stream.TagSearch

set_option autoImplicit false
set_option relaxedAutoImplicit false

namespace KiroRs.Stream.TagCuts

open KiroRs.Lib.Bytes
open KiroRs.Lib.Text
open KiroRs.Stream.XmlFilter (Text)
open KiroRs.Stream.ThinkingTags
open KiroRs.Stream.TagSearch

def seek (tag : Text) (prev : Option Char) (text : Text) : Option (Text × Text) :=
  findTag tag (fun _ => true) prev text

def lastOf (prev : Option Char) (text : Text) : Option Char := text.getLast?.or prev

variable {tag text more before after safe kept : Text} {prev : Option Char} {c : Char}

theorem lastOf_cons (prev : Option Char) (c : Char) (text : Text) :
    lastOf prev (c :: text) = lastOf (some c) text := by
  unfold lastOf
  rw [List.getLast?_cons]
  cases text.getLast? <;> rfl

def isHere (tag : Text) (prev : Option Char) (text : Text) : Bool :=
  tag.isPrefixOf text && !isQuoteChar prev && !isQuoteChar (text.drop tag.length).head?

theorem seek_cons (tag : Text) (prev : Option Char) (c : Char) (rest : Text) :
    seek tag prev (c :: rest) =
      if isHere tag prev (c :: rest) then some ([], (c :: rest).drop tag.length)
      else (seek tag (some c) rest).map fun p => (c :: p.1, p.2) := by
  unfold seek isHere
  rw [findTag, Bool.and_true]

theorem isHere_tag (tag : Text) (prev : Option Char) (tail : Text) :
    isHere tag prev (tag ++ tail) = (!isQuoteChar prev && !isQuoteChar tail.head?) := by
  have starts : tag.isPrefixOf (tag ++ tail) = true :=
    List.isPrefixOf_iff_prefix.mpr (List.prefix_append tag tail)
  unfold isHere
  rw [starts, List.drop_left, Bool.true_and]

theorem isHere_append (long : tag.length < text.length) (more : Text) :
    isHere tag prev (text ++ more) = isHere tag prev text := by
  have same : tag.isPrefixOf (text ++ more) = tag.isPrefixOf text := by
    rw [Bool.eq_iff_iff, List.isPrefixOf_iff_prefix, List.isPrefixOf_iff_prefix]
    refine ⟨fun starts => ?_, fun starts => starts.trans (List.prefix_append text more)⟩
    exact List.prefix_of_prefix_length_le starts (List.prefix_append text more) (by omega)
  have next : ((text ++ more).drop tag.length).head? = (text.drop tag.length).head? := by
    rw [List.drop_append_of_le_length (by omega), List.head?_append]
    cases behind : text.drop tag.length with
    | nil =>
      have := congrArg List.length behind
      rw [List.length_drop, List.length_nil] at this
      omega
    | cons d rest => rfl
  unfold isHere
  rw [same, next]

theorem seek_split (found : seek tag prev text = some (before, after)) :
    text = before ++ tag ++ after ∧ isQuoteChar (lastOf prev before) = false ∧
      isQuoteChar after.head? = false := by
  induction text generalizing prev before with
  | nil => cases found
  | cons c rest ih =>
    rw [seek_cons] at found
    split_ifs at found with here
    · cases found
      unfold isHere at here
      rw [Bool.and_eq_true, Bool.and_eq_true, Bool.not_eq_true', Bool.not_eq_true'] at here
      obtain ⟨tail, eq⟩ := List.isPrefixOf_iff_prefix.mp here.1.1
      refine ⟨?_, here.1.2, here.2⟩
      rw [← eq, List.drop_left]
      rfl
    · obtain ⟨p, later, eq⟩ := Option.map_eq_some_iff.mp found
      cases eq
      obtain ⟨split, unquoted, next⟩ := ih later
      refine ⟨by rw [split]; rfl, ?_, next⟩
      rw [lastOf_cons]
      exact unquoted

/-- What is found stays found, unless a quote character comes right behind the tag. -/
theorem seek_append (found : seek tag prev text = some (before, after))
    (settled : after ≠ [] ∨ isQuoteChar more.head? = false) :
    seek tag prev (text ++ more) = some (before, after ++ more) := by
  induction text generalizing prev before with
  | nil => cases found
  | cons c rest ih =>
    rw [List.cons_append, seek_cons]
    rw [seek_cons] at found
    split_ifs at found with here
    · cases found
      have front : tag.isPrefixOf (c :: rest) = true := by
        unfold isHere at here
        rw [Bool.and_eq_true, Bool.and_eq_true] at here
        exact here.1.1
      obtain ⟨tail, eq⟩ := List.isPrefixOf_iff_prefix.mp front
      have drops : (c :: rest).drop tag.length = tail := by rw [← eq, List.drop_left]
      have whole : c :: (rest ++ more) = tag ++ (tail ++ more) := by
        rw [← List.append_assoc, eq]
        rfl
      rw [← eq, isHere_tag, Bool.and_eq_true, Bool.not_eq_true', Bool.not_eq_true'] at here
      have next : isQuoteChar (tail ++ more).head? = false := by
        cases tail with
        | nil =>
          rw [drops] at settled
          exact settled.resolve_left fun never => never rfl
        | cons d tail => exact here.2
      rw [drops, whole, isHere_tag, here.1, next, if_pos (by decide), List.drop_left]
    · obtain ⟨p, later, eq⟩ := Option.map_eq_some_iff.mp found
      cases eq
      have long : tag.length < (c :: rest).length := by
        have lengths := congrArg List.length (seek_split later).1
        rw [List.length_append, List.length_append] at lengths
        rw [List.length_cons]
        omega
      have not_here : isHere tag prev (c :: (rest ++ more)) = false := by
        rw [← List.cons_append, isHere_append long]
        exact Bool.eq_false_iff.mpr here
      rw [not_here, if_neg Bool.false_ne_true, ih later]
      rfl

theorem length_le_of_append {before' after' : Text}
    (found : seek tag prev text = some (before, after))
    (found' : seek tag prev (text ++ more) = some (before', after')) :
    before.length ≤ before'.length := by
  induction text generalizing prev before before' with
  | nil => cases found
  | cons c rest ih =>
    rw [seek_cons] at found
    split_ifs at found with here
    · cases found
      exact Nat.zero_le _
    · obtain ⟨p, later, eq⟩ := Option.map_eq_some_iff.mp found
      cases eq
      have long : tag.length < (c :: rest).length := by
        have lengths := congrArg List.length (seek_split later).1
        rw [List.length_append, List.length_append] at lengths
        rw [List.length_cons]
        omega
      have not_here : isHere tag prev (c :: rest ++ more) = false := by
        rw [isHere_append long]
        exact Bool.eq_false_iff.mpr here
      rw [List.cons_append] at found' not_here
      rw [seek_cons, not_here, if_neg Bool.false_ne_true] at found'
      obtain ⟨p', later', eq'⟩ := Option.map_eq_some_iff.mp found'
      cases eq'
      have shorter := ih later later'
      rw [List.length_cons, List.length_cons]
      omega

def Narrow (tag : Text) : Prop := tag ≠ [] ∧ ∀ c ∈ tag, c.utf8Size = 1

theorem byteLength_narrow {part : Text} (narrow : ∀ c ∈ part, c.utf8Size = 1) :
    byteLength part = part.length := by
  unfold byteLength
  rw [List.map_congr_left narrow, List.map_const', List.sum_replicate]
  exact Nat.mul_one _

theorem length_lt_of_kept (narrow : Narrow tag) (nonempty : safe ≠ [])
    (wide : tag.length ≤ byteLength kept) (starts : tag <+: safe ++ kept ++ more) :
    tag.length < (safe ++ kept).length := by
  by_contra short
  have inside : safe ++ kept <+: tag :=
    List.prefix_of_prefix_length_le (List.prefix_append _ _) starts (by omega)
  have part : kept <:+: tag := (List.suffix_append safe kept).isInfix.trans inside.isInfix
  have same : byteLength kept = kept.length :=
    byteLength_narrow fun c mem => narrow.2 c (part.subset mem)
  have pos := List.length_pos_iff.mpr nonempty
  rw [List.length_append] at short
  omega

theorem seek_given (narrow : Narrow tag) (wide : tag.length ≤ byteLength kept)
    (none_yet : seek tag prev (safe ++ kept) = none) (more : Text) :
    seek tag prev (safe ++ kept ++ more) =
      (seek tag (lastOf prev safe) (kept ++ more)).map fun p => (safe ++ p.1, p.2) := by
  induction safe generalizing prev with
  | nil =>
    have same : lastOf prev [] = prev := rfl
    rw [same, List.nil_append]
    cases seek tag prev (kept ++ more) <;> rfl
  | cons c safe ih =>
    rw [List.cons_append, seek_cons] at none_yet
    split_ifs at none_yet with here
    have later := ih (Option.map_eq_none_iff.mp none_yet)
    have not_here : isHere tag prev (c :: (safe ++ kept ++ more)) = false := by
      by_contra starts
      rw [Bool.not_eq_false] at starts
      have front : tag.isPrefixOf (c :: (safe ++ kept ++ more)) = true := by
        unfold isHere at starts
        rw [Bool.and_eq_true, Bool.and_eq_true] at starts
        exact starts.1.1
      have long : tag.length < (c :: safe ++ kept).length :=
        length_lt_of_kept narrow (List.cons_ne_nil c safe) wide (List.isPrefixOf_iff_prefix.mp front)
      have same : isHere tag prev (c :: safe ++ kept ++ more) = isHere tag prev (c :: safe ++ kept) :=
        isHere_append long more
      exact here (same.symm.trans starts)
    rw [List.cons_append, List.cons_append, seek_cons, not_here, if_neg Bool.false_ne_true, later,
      lastOf_cons, Option.map_map]
    rfl

theorem seek_blind (tag : Text) (prev : Option Char) (text : Text)
    (blind : isQuoteChar prev = true → isHere tag none text = false) :
    seek tag prev text = seek tag none text := by
  cases text with
  | nil => rfl
  | cons c rest =>
    have same : isHere tag prev (c :: rest) = isHere tag none (c :: rest) := by
      cases quoted : isQuoteChar prev with
      | true =>
        rw [blind quoted]
        unfold isHere
        rw [quoted, Bool.not_true, Bool.and_false, Bool.false_and]
      | false =>
        have clear : isQuoteChar none = false := rfl
        unfold isHere
        rw [quoted, clear]
    rw [seek_cons, seek_cons, same]

/-- A search gave the front of a text away and holds the buffer, in which it finds what the whole
text has. -/
structure Seeks (tag whole given buffer rest : Text) : Prop where
  split : whole = given ++ buffer ++ rest
  finds : seek tag none whole =
    (seek tag none (buffer ++ rest)).map fun p => (given ++ p.1, p.2)
  sighted : isQuoteChar given.getLast? = false ∨ tag.length ≤ byteLength buffer

/-- Where the front ends with a tag that is not behind the first unquoted one, both neighbours of the
tag are quote characters, or neither is. -/
def CutFreely (tag first front back : Text) : Prop :=
  ∀ w, front = w ++ tag → w.length ≤ first.length →
    isQuoteChar w.getLast? = isQuoteChar back.head?

variable {whole given buffer piece rest first last front back : Text}

theorem cutFreely_iff : CutFreely tag first front back ↔
    (tag <:+ front → front.length ≤ first.length + tag.length →
      isQuoteChar (front.take (front.length - tag.length)).getLast? = isQuoteChar back.head?) := by
  constructor
  · rintro free ⟨w, rfl⟩ short
    rw [List.length_append] at short ⊢
    rw [Nat.add_sub_cancel, List.take_left]
    exact free w rfl (by omega)
  · rintro free w rfl short
    have cut := free (List.suffix_append w tag) (by rw [List.length_append]; omega)
    rwa [List.length_append, Nat.add_sub_cancel, List.take_left] at cut

instance : Decidable (CutFreely tag first front back) := decidable_of_iff _ cutFreely_iff.symm

theorem seeks_start (tag whole : Text) : Seeks tag whole [] [] whole where
  split := rfl
  finds := by
    rw [List.nil_append]
    cases seek tag none whole <;> rfl
  sighted := .inl rfl

theorem Seeks.append (s : Seeks tag whole given buffer (piece ++ rest)) :
    Seeks tag whole given (buffer ++ piece) rest where
  split := by rw [s.split, List.append_assoc, List.append_assoc, List.append_assoc]
  finds := by rw [s.finds, List.append_assoc]
  sighted := by
    refine s.sighted.imp_right fun wide => ?_
    have grows : byteLength (buffer ++ piece) = byteLength buffer + byteLength piece :=
      byteLength_append ..
    omega

theorem Seeks.skip (s : Seeks tag whole [] (c :: buffer) rest)
    (not_here : isHere tag none (c :: (buffer ++ rest)) = false)
    (plain : isQuoteChar (some c) = false) : Seeks tag whole [c] buffer rest where
  split := s.split
  finds := by
    have finds := s.finds
    have blind : isQuoteChar (some c) = true → isHere tag none (buffer ++ rest) = false :=
      fun quoted => by rw [plain] at quoted; cases quoted
    rw [List.cons_append, seek_cons, not_here, if_neg Bool.false_ne_true,
      seek_blind tag (some c) _ blind, Option.map_map] at finds
    exact finds
  sighted := .inl plain

theorem getLast?_of_append (front : Text) {back : Text} (nonempty : back ≠ []) :
    (front ++ back).getLast? = back.getLast? := by
  rw [List.getLast?_append, List.getLast?_eq_some_getLast nonempty, Option.some_or]

theorem Seeks.given_le (s : Seeks tag whole given buffer rest)
    (total : seek tag none whole = some (first, last)) : given.length ≤ first.length := by
  rw [s.finds] at total
  obtain ⟨p, -, eq⟩ := Option.map_eq_some_iff.mp total
  cases eq
  rw [List.length_append]
  exact Nat.le_add_right _ _

theorem Seeks.sharp (narrow : Narrow tag) (s : Seeks tag whole given buffer (piece ++ rest))
    (total : seek tag none whole = some (first, last))
    (free : CutFreely tag first (given ++ buffer) piece) (same : buffer ++ piece = tag) :
    isQuoteChar given.getLast? = false := by
  refine s.sighted.elim id fun wide => ?_
  have longer : byteLength (buffer ++ piece) = byteLength buffer + byteLength piece :=
    byteLength_append ..
  have some_bytes : piece.length ≤ byteLength piece := length_le_byteLength piece
  rw [same, byteLength_narrow narrow.2] at longer
  obtain rfl : piece = [] := List.length_eq_zero_iff.mp (by omega)
  rw [List.append_nil] at same
  exact free given (by rw [same]) (s.given_le total)

theorem Seeks.found (s : Seeks tag whole given buffer rest)
    (sharp : buffer = tag → isQuoteChar given.getLast? = false)
    (total : seek tag none whole = some (first, last))
    (free : rest ≠ [] → CutFreely tag first (given ++ buffer) rest)
    (found : seek tag none buffer = some (before, after)) :
    given ++ before = first ∧ after ++ rest = last := by
  obtain ⟨split, unquoted, -⟩ := seek_split found
  have settled : after ≠ [] ∨ isQuoteChar rest.head? = false := by
    by_cases at_end : after = []
    · refine .inr ?_
      by_cases more : rest = []
      · rw [more]
        rfl
      rw [at_end, List.append_nil] at split
      have short : (given ++ before).length ≤ first.length := by
        rw [s.finds] at total
        obtain ⟨p, later, eq⟩ := Option.map_eq_some_iff.mp total
        cases eq
        have shorter := length_le_of_append found later
        rw [List.length_append, List.length_append]
        omega
      have cut := free more (given ++ before) (by rw [split, List.append_assoc]) short
      rw [← cut]
      by_cases first : before = []
      · rw [first, List.append_nil]
        rw [first, List.nil_append] at split
        exact sharp split
      · rw [getLast?_of_append given first]
        unfold lastOf at unquoted
        rw [Option.or_none] at unquoted
        exact unquoted
    · exact .inl at_end
  rw [s.finds, seek_append found settled] at total
  cases total
  exact ⟨rfl, rfl⟩

theorem exists_kept {n : Nat} {text : Text} (split : splitKeep n text = (safe, kept)) (keeps : 0 < n)
    (nonempty : safe ≠ []) : ∃ c r, kept = c :: r ∧ byteLength r < n ∧ n ≤ byteLength kept := by
  cases kept with
  | nil =>
    have whole := splitKeep_append n text
    have none : text = [] := by
      by_contra some_text
      exact splitKeep_ne_nil keeps some_text (by rw [split])
    rw [split, none, List.append_nil] at whole
    exact absurd whole nonempty
  | cons c r =>
    obtain ⟨few, enough⟩ := splitKeep_spec split
    exact ⟨c, r, rfl, few, enough.resolve_left nonempty⟩

theorem kept_eq_tag (narrow : Narrow tag) {text : Text}
    (split : splitKeep tag.length text = (safe, kept)) (nonempty : safe ≠ [])
    (starts : tag <+: kept ++ rest) : kept = tag := by
  obtain ⟨c, r, rfl, few, wide⟩ := exists_kept split (List.length_pos_iff.mpr narrow.1) nonempty
  rcases Nat.lt_or_ge tag.length (c :: r).length with longer | shorter
  · exfalso
    obtain ⟨s, eq⟩ := List.prefix_of_prefix_length_le starts (List.prefix_append _ _)
      (Nat.le_of_lt longer)
    obtain ⟨d, tail, rfl⟩ := List.exists_cons_of_ne_nil narrow.1
    have behind : r = tail ++ s := (List.cons.inj eq).2.symm
    have tail_narrow : byteLength tail = tail.length :=
      byteLength_narrow fun c mem => narrow.2 c (List.mem_cons_of_mem d mem)
    have some_bytes : s.length ≤ byteLength s := length_le_byteLength s
    rw [behind, byteLength_append, tail_narrow, List.length_cons] at few
    rw [behind, List.length_cons, List.length_cons, List.length_append] at longer
    omega
  · have inside : c :: r <+: tag :=
      List.prefix_of_prefix_length_le (List.prefix_append _ _) starts shorter
    have same : byteLength (c :: r) = (c :: r).length :=
      byteLength_narrow fun c mem => narrow.2 c (inside.subset mem)
    exact inside.eq_of_length (by omega)

theorem Seeks.unfinished (s : Seeks tag whole given buffer rest)
    (total : seek tag none whole = some (first, last)) (none_found : seek tag none buffer = none) :
    rest ≠ [] := by
  rintro rfl
  rw [s.finds, List.append_nil, none_found] at total
  cases total

/-- Where nothing is found, the front may be given away. -/
theorem Seeks.missed (narrow : Narrow tag) (s : Seeks tag whole given buffer rest)
    (total : seek tag none whole = some (first, last))
    (free : CutFreely tag first (given ++ buffer) rest) (none_found : seek tag none buffer = none)
    (split : splitKeep tag.length buffer = (safe, kept)) (nonempty : safe ≠ []) :
    Seeks tag whole (given ++ safe) kept rest := by
  have joined : safe ++ kept = buffer := by
    have all := splitKeep_append tag.length buffer
    rw [split] at all
    exact all
  obtain ⟨c, r, -, -, wide⟩ := exists_kept split (List.length_pos_iff.mpr narrow.1) nonempty
  rw [← joined] at none_found
  have given_away := seek_given narrow wide none_found rest
  have finds := s.finds
  rw [← joined, given_away] at finds
  constructor
  · rw [s.split, ← joined, ← List.append_assoc]
  · have blind : isQuoteChar (lastOf none safe) = true → isHere tag none (kept ++ rest) = false := by
      intro quoted
      by_contra starts
      rw [Bool.not_eq_false] at starts
      have front : tag.isPrefixOf (kept ++ rest) = true := by
        unfold isHere at starts
        rw [Bool.and_eq_true, Bool.and_eq_true] at starts
        exact starts.1.1
      have same := kept_eq_tag narrow split nonempty (List.isPrefixOf_iff_prefix.mp front)
      have short : (given ++ safe).length ≤ first.length := by
        rw [finds, Option.map_map] at total
        obtain ⟨p, -, eq⟩ := Option.map_eq_some_iff.mp total
        cases eq
        dsimp only
        rw [List.length_append, List.length_append, List.length_append]
        omega
      have cut := free (given ++ safe) (by rw [← joined, same, List.append_assoc]) short
      rw [getLast?_of_append given nonempty] at cut
      unfold lastOf at quoted
      rw [Option.or_none, cut] at quoted
      rw [same, isHere_tag, quoted] at starts
      exact absurd starts (by decide)
    rw [finds, seek_blind tag _ _ blind, Option.map_map]
    refine congrArg (Option.map · _) (funext fun p => ?_)
    dsimp only [Function.comp_apply]
    rw [List.append_assoc]
  · exact .inr wide

/-- Every piece of a text that is read behind another one begins at a free cut. -/
def FreeFrom (tag first read : Text) (pieces : List Text) : Prop :=
  ∀ front piece back, pieces = front ++ piece :: back →
    CutFreely tag first (read ++ front.flatten) piece

variable {read : Text} {pieces : List Text}

theorem FreeFrom.here (free : FreeFrom tag first read (piece :: pieces)) :
    CutFreely tag first read piece := by
  have cut := free [] piece pieces rfl
  rwa [List.flatten_nil, List.append_nil] at cut

theorem FreeFrom.next (free : FreeFrom tag first read (piece :: pieces)) :
    FreeFrom tag first (read ++ piece) pieces := by
  intro front piece' back split
  have cut := free (piece :: front) piece' back (by rw [split]; rfl)
  rwa [List.flatten_cons, ← List.append_assoc] at cut

theorem FreeFrom.flatten (free : FreeFrom tag first read pieces) (more : pieces.flatten ≠ []) :
    CutFreely tag first read pieces.flatten := by
  induction pieces generalizing read with
  | nil => exact absurd rfl more
  | cons piece pieces ih =>
    cases piece with
    | nil =>
      have later := free.next
      rw [List.append_nil] at later
      exact ih later more
    | cons c piece => exact free.here

end KiroRs.Stream.TagCuts
