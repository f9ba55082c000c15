/- Path: KiroRs/Lib/Provenance
   layer: library
   digest: Names that are given again after their bearer is gone, the holders that still have them,
   and the runs in which no holder has a name from before it was last given. -/

import KiroRs.Lib.Traces

set_option autoImplicit false
set_option relaxedAutoImplicit false

namespace KiroRs.Lib.Provenance

open KiroRs.Lib.Traces

variable {σ α κ ι : Type}

/-- Where a holder has its names from, behind a step: it takes them by the step, or they are those
that a holder had before. -/
inductive Origin (κ : Type) where
  | taken
  | kept (holder : κ)

/-- Who holds which names, which name a step gives, and where the holders behind it have theirs
from. -/
structure Names (σ α κ ι : Type) where
  step : σ → α → Option σ
  holds : σ → κ → ι → Prop
  gives : σ → α → Option ι
  origin : σ → α → κ → Origin κ

variable (n : Names σ α κ ι)

def Names.since : List (σ × α) → κ → List (σ × α)
  | [], _ => []
  | (s, a) :: earlier, k =>
    match n.origin s a k with
    | .taken => []
    | .kept k' => (s, a) :: Names.since earlier k'

def Names.Ungiven (name : ι) (steps : List (σ × α)) : Prop :=
  ∀ p ∈ steps, n.gives p.1 p.2 ≠ some name

def Names.Unheld (s : σ) (a : α) : Prop :=
  ∀ name, n.gives s a = some name → ∀ k, ¬ n.holds s k name

/-- A holder that keeps its names has no others than those. -/
def Names.Keeps : Prop :=
  ∀ s a s' k k' name, n.step s a = some s' → n.origin s a k = .kept k' → n.holds s' k name →
    n.holds s k' name

variable {n}

theorem Names.ungiven_cons {s s' : σ} {a : α} {earlier : List (σ × α)} (keeps : n.Keeps)
    (inv : ∀ k name, n.holds s k name → n.Ungiven name (n.since earlier k))
    (unheld : n.Unheld s a) (step : n.step s a = some s') (k : κ) (name : ι)
    (holds : n.holds s' k name) : n.Ungiven name (n.since ((s, a) :: earlier) k) := by
  unfold Names.since
  cases origin : n.origin s a k with
  | taken =>
    intro p mem
    cases mem
  | kept k' =>
    have before := keeps s a s' k k' name step origin holds
    intro p mem
    rcases List.mem_cons.mp mem with rfl | mem
    · exact fun gives => unheld name gives k' before
    · exact inv k' name before p mem

theorem Names.ungiven_since {start s : σ} {trace : List (σ × α)} (keeps : n.Keeps)
    (run : Run n.step start trace s) (unheld : Guarded n.Unheld trace) :
    ∀ k name, n.holds s k name → n.Ungiven name (n.since trace k) := by
  induction run with
  | nil =>
    intro k name _ p mem
    cases mem
  | cons run step ih => exact Names.ungiven_cons keeps (ih unheld.tail) unheld.head step

end KiroRs.Lib.Provenance
