/- Path: KiroRs/Lib/Slots
   layer: library
   digest: Slots that are opened under keys and filled with items sent to a key, and what sending
   leaves of the other slots. -/

import Mathlib.Data.List.Basic
import Mathlib.Data.List.Nodup

set_option autoImplicit false
set_option relaxedAutoImplicit false

namespace KiroRs.Lib.Slots

variable {κ β δ : Type}

/-- What was opened under a key, and what was sent to that key since. -/
structure Slot (κ β δ : Type) where
  key : κ
  content : β
  items : List δ
  deriving DecidableEq

namespace Slot

/-- A slot that nothing was sent to. -/
def fresh (key : κ) (content : β) : Slot κ β δ := ⟨key, content, []⟩

def add (item : δ) (s : Slot κ β δ) : Slot κ β δ := { s with items := s.items ++ [item] }

@[simp] theorem add_key (item : δ) (s : Slot κ β δ) : (s.add item).key = s.key := rfl

@[simp] theorem add_content (item : δ) (s : Slot κ β δ) : (s.add item).content = s.content := rfl

@[simp] theorem add_items (item : δ) (s : Slot κ β δ) :
    (s.add item).items = s.items ++ [item] := rfl

end Slot

def keys (slots : List (Slot κ β δ)) : List κ := slots.map (·.key)

variable [DecidableEq κ] {slots : List (Slot κ β δ)} {key : κ} {item : δ}

/-- An item goes to the slots of its key. -/
def send (slots : List (Slot κ β δ)) (key : κ) (item : δ) : List (Slot κ β δ) :=
  slots.map fun s => if s.key = key then s.add item else s

@[simp] theorem send_nil : send ([] : List (Slot κ β δ)) key item = [] := rfl

theorem send_cons (s : Slot κ β δ) :
    send (s :: slots) key item = (if s.key = key then s.add item else s) :: send slots key item :=
  rfl

theorem send_append (front back : List (Slot κ β δ)) :
    send (front ++ back) key item = send front key item ++ send back key item :=
  List.map_append

@[simp] theorem length_send : (send slots key item).length = slots.length := List.length_map ..

@[simp] theorem keys_send : keys (send slots key item) = keys slots := by
  unfold keys send
  rw [List.map_map]
  refine List.map_congr_left fun s _ => ?_
  dsimp only [Function.comp_apply]
  split_ifs <;> rfl

theorem send_of_not_mem (absent : key ∉ keys slots) : send slots key item = slots := by
  induction slots with
  | nil => rfl
  | cons s slots ih =>
    have ne : s.key ≠ key := fun same => absent (same ▸ List.mem_cons_self)
    have later : key ∉ keys slots := fun mem => absent (List.mem_cons_of_mem _ mem)
    rw [send_cons, if_neg ne, ih later]

theorem send_last {front : List (Slot κ β δ)} {s : Slot κ β δ}
    (nodup : (keys (front ++ [s])).Nodup) :
    send (front ++ [s]) s.key item = front ++ [s.add item] := by
  have absent : s.key ∉ keys front := by
    intro mem
    unfold keys at nodup mem
    rw [List.map_append, List.nodup_append] at nodup
    exact nodup.2.2 _ mem _ (List.mem_singleton.mpr rfl) rfl
  rw [send_append, send_of_not_mem absent, send_cons, if_pos rfl, send_nil]

def ofKind (kind : β → Bool) (slots : List (Slot κ β δ)) : List (Slot κ β δ) :=
  slots.filter fun s => kind s.content

omit [DecidableEq κ] in
@[simp] theorem ofKind_nil (kind : β → Bool) : ofKind kind ([] : List (Slot κ β δ)) = [] := rfl

omit [DecidableEq κ] in
theorem ofKind_cons (kind : β → Bool) (s : Slot κ β δ) :
    ofKind kind (s :: slots) = if kind s.content then s :: ofKind kind slots
      else ofKind kind slots :=
  List.filter_cons

omit [DecidableEq κ] in
theorem ofKind_append (kind : β → Bool) (front back : List (Slot κ β δ)) :
    ofKind kind (front ++ back) = ofKind kind front ++ ofKind kind back :=
  List.filter_append ..

omit [DecidableEq κ] in
theorem mem_ofKind {kind : β → Bool} {s : Slot κ β δ} :
    s ∈ ofKind kind slots ↔ s ∈ slots ∧ kind s.content = true := List.mem_filter

theorem ofKind_send (kind : β → Bool) :
    ofKind kind (send slots key item) = send (ofKind kind slots) key item := by
  induction slots with
  | nil => rfl
  | cons s slots ih =>
    have content : (if s.key = key then s.add item else s).content = s.content := by
      split_ifs <;> rfl
    rw [send_cons, ofKind_cons, ofKind_cons, content]
    by_cases wanted : kind s.content = true
    · rw [if_pos wanted, if_pos wanted, send_cons, ih]
    · rw [if_neg wanted, if_neg wanted, ih]

/-- The slots of some kind stay as they are where none of them has the key. -/
theorem ofKind_send_other {kind : β → Bool}
    (other : ∀ s ∈ slots, s.key = key → kind s.content = false) :
    ofKind kind (send slots key item) = ofKind kind slots := by
  rw [ofKind_send, send_of_not_mem]
  intro mem
  obtain ⟨s, mem_s, same⟩ := List.mem_map.mp mem
  obtain ⟨mem_s, wanted⟩ := mem_ofKind.mp mem_s
  rw [other s mem_s same] at wanted
  cases wanted

theorem mem_send {s : Slot κ β δ} :
    s ∈ send slots key item ↔ ∃ t ∈ slots, s = if t.key = key then t.add item else t := by
  unfold send
  rw [List.mem_map]
  exact ⟨fun ⟨t, mem, eq⟩ => ⟨t, mem, eq.symm⟩, fun ⟨t, mem, eq⟩ => ⟨t, mem, eq.symm⟩⟩

def sendAll (slots : List (Slot κ β δ)) (targets : List κ) (item : δ) : List (Slot κ β δ) :=
  targets.foldl (fun slots key => send slots key item) slots

/-- Each key is served once, in whatever order they come. -/
theorem sendAll_eq {targets : List κ} (nodup : targets.Nodup) :
    sendAll slots targets item = slots.map fun s => if s.key ∈ targets then s.add item else s := by
  induction targets generalizing slots with
  | nil =>
    show slots = _
    simp
  | cons key targets ih =>
    obtain ⟨fresh, nodup⟩ := List.nodup_cons.mp nodup
    show sendAll (send slots key item) targets item = _
    rw [ih nodup]
    unfold send
    rw [List.map_map]
    refine List.map_congr_left fun s _ => ?_
    dsimp only [Function.comp_apply]
    by_cases here : s.key = key
    · have gone : s.key ∉ targets := by rwa [here]
      rw [if_pos here, Slot.add_key, if_neg gone, if_pos (by rw [here]; exact List.mem_cons_self)]
    · have same : s.key ∈ key :: targets ↔ s.key ∈ targets := by
        rw [List.mem_cons]
        exact or_iff_right here
      rw [if_neg here]
      simp only [same]

omit [DecidableEq κ] in
theorem eq_of_key {s t : Slot κ β δ} (nodup : (keys slots).Nodup) (mem_s : s ∈ slots)
    (mem_t : t ∈ slots) (same : s.key = t.key) : s = t :=
  List.inj_on_of_nodup_map nodup mem_s mem_t same

end KiroRs.Lib.Slots
