/- Path: KiroRs/Lib/FixedWindows
   layer: library
   digest: Counters that start again when their window is over: how much they let pass in a period,
   also where looking and counting are two steps, and what a full window goes back to. -/

import Mathlib.Data.List.Basic
import Mathlib.Data.Nat.Basic

set_option autoImplicit false
set_option relaxedAutoImplicit false

namespace KiroRs.Lib.FixedWindows

structure Window where
  start : Nat
  count : Nat
  deriving DecidableEq, Repr

/-- What is done to a counter: it counts, or it is looked at. Some touches are tracked. -/
inductive Touch where
  | hit (now : Nat) (tracked : Bool)
  | peek (now : Nat) (tracked : Bool)
  deriving DecidableEq, Repr

def Touch.now : Touch → Nat
  | hit now _ | peek now _ => now

section Definitions

variable (width cap limit : Nat)

def Window.roll (now : Nat) (w : Window) : Window :=
  if width ≤ now - w.start then ⟨now, 0⟩ else w

/-- The count stays at `cap` once it is there. -/
def Window.bump (w : Window) : Window := { w with count := min (w.count + 1) cap }

def after : Option Window → Touch → Option Window
  | none, .hit now _ => some ((Window.mk now 0).bump cap)
  | some w, .hit now _ => some ((w.roll width now).bump cap)
  | none, .peek _ _ => none
  | some w, .peek now _ => some (w.roll width now)

def countOf : Option Window → Nat
  | none => 0
  | some w => w.count

/-- The counter behind its touches, the newest of which comes first. -/
def window : List Touch → Option Window
  | [] => none
  | t :: older => after width cap (window older) t

/-- A hit passes if the limit is not exceeded with it, a tracked peek if it is not reached yet. -/
def hitPasses (w : Option Window) (t : Touch) : Bool :=
  match t with
  | .hit _ _ => countOf (after width cap w t) ≤ limit
  | .peek _ _ => false

def peekPasses (w : Option Window) (t : Touch) : Bool :=
  match t with
  | .peek _ tracked => tracked && countOf (after width cap w t) < limit
  | .hit _ _ => false

def hitsPassed : List Touch → Nat
  | [] => 0
  | t :: older =>
    hitsPassed older + if hitPasses width cap limit (window width cap older) t then 1 else 0

def peeksPassed : List Touch → Nat
  | [] => 0
  | t :: older =>
    peeksPassed older + if peekPasses width cap limit (window width cap older) t then 1 else 0

end Definitions

def isHit : Touch → Bool
  | .hit _ _ => true
  | .peek _ _ => false

def isTrackedHit : Touch → Bool
  | .hit _ tracked => tracked
  | .peek _ _ => false

def hits (history : List Touch) : Nat := history.countP isHit

def trackedHits (history : List Touch) : Nat := history.countP isTrackedHit

variable {width cap limit lo hi : Nat} {history recent older : List Touch} {w : Window}

theorem roll_cases (width now : Nat) (w : Window) :
    now - w.start < width ∧ w.roll width now = w ∨
      w.start + width ≤ now ∧ w.roll width now = ⟨now, 0⟩ ∨ width = 0 := by
  by_cases passed : width ≤ now - w.start
  · rcases Nat.eq_zero_or_pos width with zero | pos
    · exact .inr (.inr zero)
    · refine .inr (.inl ⟨by omega, if_pos passed⟩)
  · exact .inl ⟨by omega, if_neg passed⟩

theorem hitPasses_eq (before : Option Window) (now : Nat) (tracked : Bool) :
    (if hitPasses width cap limit before (.hit now tracked) then 1 else 0) =
      if countOf (after width cap before (.hit now tracked)) ≤ limit then 1 else 0 := by
  simp only [hitPasses, decide_eq_true_eq]

/-- The window was open when the period began, or it is the last one of those opened in it. -/
def Placed (width lo hi opened : Nat) (w : Window) : Prop :=
  opened = 0 ∨ lo + width * opened ≤ w.start + width ∧ w.start ≤ hi

theorem Placed.next {opened now : Nat} (placed : Placed width lo hi opened w)
    (gone : w.start + width ≤ now) (range : lo ≤ now ∧ now ≤ hi) :
    Placed width lo hi (opened + 1) ⟨now, 0⟩ := by
  have later : width * (opened + 1) = width * opened + width := Nat.mul_succ width opened
  refine .inr ⟨?_, range.2⟩
  show lo + width * (opened + 1) ≤ now + width
  rcases placed with rfl | ⟨early, -⟩ <;> omega

theorem Placed.opened_le {opened : Nat} (pos : 0 < width) (placed : Placed width lo hi opened w) :
    opened ≤ (hi - lo) / width + 1 := by
  rcases placed with rfl | ⟨early, late⟩
  · exact Nat.zero_le _
  · have whole : opened - 1 ≤ (hi - lo) / width := by
      rw [Nat.le_div_iff_mul_le pos, Nat.sub_mul, Nat.one_mul, Nat.mul_comm]
      omega
    omega

/-- What has passed in the period: the limit for each window that is over, and the count of this
one. -/
def HitsBounded (width limit lo hi passed : Nat) : Option Window → Prop
  | none => passed = 0
  | some w => ∃ opened, passed ≤ limit * opened + min w.count limit ∧ Placed width lo hi opened w

theorem hitsBounded_step (pos : 0 < width) (room : limit < cap) {passed : Nat} {t : Touch}
    {before : Option Window} (range : lo ≤ t.now ∧ t.now ≤ hi)
    (bounded : HitsBounded width limit lo hi passed before) :
    HitsBounded width limit lo hi
      (passed + if hitPasses width cap limit before t then 1 else 0)
      (after width cap before t) := by
  cases before with
  | none =>
    have zero : passed = 0 := bounded
    cases t with
    | peek now tracked => exact zero
    | hit now tracked =>
      rw [hitPasses_eq, zero]
      refine ⟨0, ?_, .inl rfl⟩
      show (0 + if min (0 + 1) cap ≤ limit then 1 else 0) ≤ limit * 0 + min (min (0 + 1) cap) limit
      split_ifs <;> omega
  | some w =>
    obtain ⟨opened, le, placed⟩ := bounded
    have next : limit * (opened + 1) = limit * opened + limit := Nat.mul_succ limit opened
    cases t with
    | peek now tracked =>
      rcases roll_cases width now w with ⟨-, same⟩ | ⟨gone, rolled⟩ | zero
      · rw [after, same]
        exact ⟨opened, le, placed⟩
      · rw [after, rolled]
        refine ⟨opened + 1, ?_, placed.next gone range⟩
        simp only [hitPasses, Bool.false_eq_true, if_false]
        omega
      · omega
    | hit now tracked =>
      rcases roll_cases width now w with ⟨-, same⟩ | ⟨gone, rolled⟩ | zero
      · rw [hitPasses_eq, after, same]
        refine ⟨opened, ?_, placed⟩
        show (passed + if min (w.count + 1) cap ≤ limit then 1 else 0) ≤
          limit * opened + min (min (w.count + 1) cap) limit
        split_ifs <;> omega
      · rw [hitPasses_eq, after, rolled]
        refine ⟨opened + 1, ?_, placed.next gone range⟩
        show (passed + if min (0 + 1) cap ≤ limit then 1 else 0) ≤
          limit * (opened + 1) + min (min (0 + 1) cap) limit
        split_ifs <;> omega
      · omega

theorem hitsPassed_le (pos : 0 < width) (room : limit < cap)
    (range : ∀ t ∈ recent, lo ≤ t.now ∧ t.now ≤ hi) :
    hitsPassed width cap limit (recent ++ older) ≤
      hitsPassed width cap limit older + limit * ((hi - lo) / width + 2) := by
  have bounded : ∃ passed, hitsPassed width cap limit (recent ++ older) =
      hitsPassed width cap limit older + passed ∧
        HitsBounded width limit lo hi passed (window width cap (recent ++ older)) := by
    induction recent with
    | nil =>
      refine ⟨0, rfl, ?_⟩
      rw [List.nil_append]
      cases window width cap older with
      | none => rfl
      | some w => exact ⟨0, Nat.zero_le _, .inl rfl⟩
    | cons t recent ih =>
      obtain ⟨here, before⟩ := List.forall_mem_cons.mp range
      obtain ⟨passed, sum, bounded⟩ := ih before
      refine ⟨passed + if hitPasses width cap limit (window width cap (recent ++ older)) t then 1
        else 0, ?_, hitsBounded_step pos room here bounded⟩
      rw [List.cons_append, hitsPassed, sum, Nat.add_assoc]
  obtain ⟨passed, sum, bounded⟩ := bounded
  rw [sum]
  refine Nat.add_le_add_left ?_ _
  cases final : window width cap (recent ++ older) with
  | none =>
    rw [final] at bounded
    rw [show passed = 0 from bounded]
    exact Nat.zero_le _
  | some w =>
    rw [final] at bounded
    obtain ⟨opened, le, placed⟩ := bounded
    have windows := placed.opened_le pos
    calc passed ≤ limit * opened + limit := by omega
      _ = limit * (opened + 1) := (Nat.mul_succ limit opened).symm
      _ ≤ limit * ((hi - lo) / width + 2) := Nat.mul_le_mul_left limit (by omega)

/-- What has been let through so far and counted, `base` of it before the period, and how much of
what is let through in the period belongs to the window. -/
structure PeeksBounded (width limit c lo hi base passed tracked : Nat) (w : Option Window)
    (opened current : Nat) : Prop where
  total : passed ≤ base + (limit - 1 + c) * opened + current
  current_le : current ≤ limit - 1 + c
  counted : countOf w < limit → current + tracked ≤ countOf w + passed
  placed : ∀ v, w = some v → Placed width lo hi opened v
  fresh : w = none → opened = 0

theorem peekPasses_eq (before : Option Window) (now : Nat) (tracked : Bool) :
    (if peekPasses width cap limit before (.peek now tracked) then 1 else 0) =
      if tracked = true ∧ countOf (after width cap before (.peek now tracked)) < limit then 1
      else 0 := by
  simp only [peekPasses, Bool.and_eq_true, decide_eq_true_eq]

variable {c base passed tracked opened current now : Nat} {v : Option Window}

theorem PeeksBounded.hit
    (bounded : PeeksBounded width limit c lo hi base passed tracked v opened current)
    (pos : 0 < width) (room : limit < cap) (range : lo ≤ now ∧ now ≤ hi) (counted : tracked ≤ passed)
    {more : Nat} (one : more ≤ 1) (mark : Bool) :
    ∃ opened current, PeeksBounded width limit c lo hi base passed (tracked + more)
      (after width cap v (.hit now mark)) opened current := by
  obtain ⟨total, current_le, counts, placed, fresh⟩ := bounded
  cases v with
  | none =>
    cases fresh rfl
    refine ⟨0, current, total, current_le, fun less => ?_, fun w is => .inl rfl, nofun⟩
    have below : min (0 + 1) cap < limit := less
    have before : current + tracked ≤ 0 + passed := counts (by show 0 < limit; omega)
    show current + (tracked + more) ≤ min (0 + 1) cap + passed
    omega
  | some w =>
    have next : (limit - 1 + c) * (opened + 1) = (limit - 1 + c) * opened + (limit - 1 + c) :=
      Nat.mul_succ _ opened
    rcases roll_cases width now w with ⟨-, same⟩ | ⟨gone, rolled⟩ | zero
    · rw [after, same]
      refine ⟨opened, current, total, current_le, fun less => ?_, fun w' is => ?_, nofun⟩
      · have below : min (w.count + 1) cap < limit := less
        have before : current + tracked ≤ w.count + passed := counts (by show w.count < limit; omega)
        show current + (tracked + more) ≤ min (w.count + 1) cap + passed
        omega
      · cases is
        exact placed w rfl
    · rw [after, rolled]
      refine ⟨opened + 1, 0, by omega, Nat.zero_le _, fun _ => ?_, fun w' is => ?_, nofun⟩
      · show 0 + (tracked + more) ≤ min (0 + 1) cap + passed
        omega
      · cases is
        exact (placed w rfl).next gone range
    · omega

theorem PeeksBounded.peek
    (bounded : PeeksBounded width limit c lo hi base passed tracked v opened current)
    (pos : 0 < width) (range : lo ≤ now ∧ now ≤ hi) (counted : tracked ≤ passed) (mark : Bool)
    {more : Nat} (one : more ≤ 1)
    (below : more = 1 → countOf (after width cap v (.peek now mark)) < limit)
    (waiting : passed + more ≤ tracked + c) :
    ∃ opened current, PeeksBounded width limit c lo hi base (passed + more) tracked
      (after width cap v (.peek now mark)) opened current := by
  obtain ⟨total, current_le, counts, placed, fresh⟩ := bounded
  cases v with
  | none =>
    cases fresh rfl
    have room : more = 1 → current + tracked ≤ 0 + passed ∧ 0 < limit :=
      fun is => ⟨counts (below is), below is⟩
    refine ⟨0, current + more, by omega, by omega, fun less => ?_, nofun, fun _ => rfl⟩
    have before : current + tracked ≤ 0 + passed := counts less
    show current + more + tracked ≤ 0 + (passed + more)
    omega
  | some w =>
    have next : (limit - 1 + c) * (opened + 1) = (limit - 1 + c) * opened + (limit - 1 + c) :=
      Nat.mul_succ _ opened
    rcases roll_cases width now w with ⟨-, same⟩ | ⟨gone, rolled⟩ | zero
    · rw [after, same] at below ⊢
      have room : more = 1 → current + tracked ≤ w.count + passed ∧ w.count < limit :=
        fun is => ⟨counts (below is), below is⟩
      refine ⟨opened, current + more, by omega, by omega, fun less => ?_, fun w' is => ?_, nofun⟩
      · have before : current + tracked ≤ w.count + passed := counts less
        show current + more + tracked ≤ w.count + (passed + more)
        omega
      · cases is
        exact placed w rfl
    · rw [after, rolled] at below ⊢
      have room : more = 1 → 0 < limit := below
      refine ⟨opened + 1, more, by omega, by omega, fun _ => ?_, fun w' is => ?_, nofun⟩
      · show more + tracked ≤ 0 + (passed + more)
        omega
      · cases is
        exact (placed w rfl).next gone range
    · omega

/-- Throughout the period, what was counted had been let through, and no more than `c` was let
through and not counted. -/
def Waiting (width cap limit c : Nat) (recent older : List Touch) : Prop :=
  ∀ part, part <:+ recent →
    trackedHits (part ++ older) ≤ peeksPassed width cap limit (part ++ older) ∧
      peeksPassed width cap limit (part ++ older) ≤ trackedHits (part ++ older) + c

theorem peeksBounded (pos : 0 < width) (room : limit < cap)
    (range : ∀ t ∈ recent, lo ≤ t.now ∧ t.now ≤ hi)
    (waiting : Waiting width cap limit c recent older) :
    ∃ opened current, PeeksBounded width limit c lo hi (peeksPassed width cap limit older)
      (peeksPassed width cap limit (recent ++ older)) (trackedHits (recent ++ older))
      (window width cap (recent ++ older)) opened current := by
  induction recent with
  | nil =>
    obtain ⟨counted, -⟩ := waiting [] (List.suffix_refl [])
    rw [List.nil_append] at counted ⊢
    refine ⟨0, 0, Nat.le_refl _, Nat.zero_le _, fun _ => ?_, fun _ _ => .inl rfl, fun _ => rfl⟩
    rw [Nat.zero_add]
    exact Nat.le_trans counted (Nat.le_add_left _ _)
  | cons t recent ih =>
    obtain ⟨here, before⟩ := List.forall_mem_cons.mp range
    have waiting_recent : Waiting width cap limit c recent older := fun part suffix =>
      waiting part (suffix.trans (List.suffix_cons t recent))
    obtain ⟨opened, current, bounded⟩ := ih before waiting_recent
    obtain ⟨counted, -⟩ := waiting_recent recent (List.suffix_refl recent)
    obtain ⟨-, most⟩ := waiting (t :: recent) (List.suffix_refl _)
    rw [List.cons_append] at most ⊢
    cases t with
    | hit now tracked =>
      have none_ : peeksPassed width cap limit (.hit now tracked :: (recent ++ older)) =
          peeksPassed width cap limit (recent ++ older) := rfl
      rw [none_, trackedHits, List.countP_cons]
      refine bounded.hit pos room here counted ?_ tracked
      split_ifs <;> omega
    | peek now tracked =>
      have same : trackedHits (.peek now tracked :: (recent ++ older)) =
          trackedHits (recent ++ older) := by
        rw [trackedHits, List.countP_cons]
        rfl
      rw [same] at most ⊢
      rw [peeksPassed, peekPasses_eq] at most ⊢
      refine bounded.peek pos here counted tracked ?_ (fun passes => ?_) most
      · split_ifs <;> omega
      · split_ifs at passes with both
        exact both.2

theorem peeksPassed_le (pos : 0 < width) (room : limit < cap)
    (range : ∀ t ∈ recent, lo ≤ t.now ∧ t.now ≤ hi)
    (waiting : Waiting width cap limit c recent older) :
    peeksPassed width cap limit (recent ++ older) ≤
      peeksPassed width cap limit older + (limit - 1 + c) * ((hi - lo) / width + 2) := by
  obtain ⟨opened, current, total, current_le, -, placed, fresh⟩ :=
    peeksBounded pos room range waiting
  have windows : opened ≤ (hi - lo) / width + 1 := by
    cases final : window width cap (recent ++ older) with
    | none =>
      rw [fresh final]
      exact Nat.zero_le _
    | some w => exact (placed w final).opened_le pos
  have next : (limit - 1 + c) * (opened + 1) = (limit - 1 + c) * opened + (limit - 1 + c) :=
    Nat.mul_succ _ opened
  have most : (limit - 1 + c) * (opened + 1) ≤ (limit - 1 + c) * ((hi - lo) / width + 2) :=
    Nat.mul_le_mul_left _ (by omega)
  omega

/-- The count of a window goes back to as many hits since it was opened, all within its width. -/
theorem window_cause (pos : 0 < width) (is : window width cap history = some w) :
    ∃ recent opening older, history = recent ++ opening :: older ∧ w.start = opening.now ∧
      (∀ t ∈ recent, t.now - opening.now < width) ∧ w.count ≤ hits (recent ++ [opening]) := by
  induction history generalizing w with
  | nil => cases is
  | cons t older ih =>
    rw [window] at is
    cases before : window width cap older with
    | none =>
      rw [before] at is
      cases t with
      | peek now tracked => cases is
      | hit now tracked =>
        cases is
        exact ⟨[], .hit now tracked, older, rfl, rfl, nofun, Nat.min_le_left _ _⟩
    | some v =>
      obtain ⟨recent, opening, rest, rfl, opened, within, enough⟩ := ih before
      rw [before] at is
      rcases roll_cases width t.now v with ⟨recently, same⟩ | ⟨-, rolled⟩ | zero
      · rw [opened] at recently
        have within' : ∀ u ∈ t :: recent, u.now - opening.now < width :=
          List.forall_mem_cons.mpr ⟨recently, within⟩
        cases t with
        | peek now tracked =>
          have eq : w = v := by
            rw [after, show v.roll width now = v from same] at is
            exact (Option.some.inj is).symm
          rw [eq]
          exact ⟨.peek now tracked :: recent, opening, rest, rfl, opened, within', enough⟩
        | hit now tracked =>
          have eq : w = v.bump cap := by
            rw [after, show v.roll width now = v from same] at is
            exact (Option.some.inj is).symm
          have more : hits (.hit now tracked :: recent ++ [opening]) =
              hits (recent ++ [opening]) + 1 := by
            rw [hits, List.cons_append, List.countP_cons]
            rfl
          rw [eq]
          refine ⟨.hit now tracked :: recent, opening, rest, rfl, opened, within', ?_⟩
          rw [more]
          exact le_trans (Nat.min_le_left _ _) (Nat.succ_le_succ enough)
      · cases t with
        | peek now tracked =>
          rw [after, show v.roll width now = ⟨now, 0⟩ from rolled] at is
          cases is
          exact ⟨[], .peek now tracked, _, rfl, rfl, nofun, Nat.zero_le _⟩
        | hit now tracked =>
          rw [after, show v.roll width now = ⟨now, 0⟩ from rolled] at is
          cases is
          exact ⟨[], .hit now tracked, _, rfl, rfl, nofun, Nat.min_le_left _ _⟩
      · omega

end KiroRs.Lib.FixedWindows
