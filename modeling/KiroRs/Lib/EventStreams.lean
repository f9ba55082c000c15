/- Path: KiroRs/Lib/EventStreams
   layer: library
   digest: The client of a text event stream, character by character, and what it makes of messages
   of one event line and one data line. -/

import Mathlib.Data.List.Basic

set_option autoImplicit false
set_option relaxedAutoImplicit false

namespace KiroRs.Lib.EventStreams

abbrev Chars := List Char

abbrev Message := Chars × Chars

/-- The client between two characters: the line so far, whether the last character ended a line with
a carriage return, and the two buffers of the message so far. -/
structure Client where
  line : Chars := []
  sawReturn : Bool := false
  type : Chars := []
  data : List Chars := []
  deriving DecidableEq, Repr

/-- The part of a line before its first colon, and the one behind it without one leading blank. A
line without a colon is a name. -/
def field (line : Chars) : Chars × Chars :=
  let name := line.takeWhile (· ≠ ':')
  let value := (line.dropWhile (· ≠ ':')).drop 1
  (name, if value.head? = some ' ' then value.drop 1 else value)

def defaultType : Chars := ['m', 'e', 's', 's', 'a', 'g', 'e']

def eventName : Chars := ['e', 'v', 'e', 'n', 't']

def dataName : Chars := ['d', 'a', 't', 'a']

/-- The end of a line. An empty one dispatches the message, if it has data, and a line that begins
with a colon is a comment. -/
def endLine (c : Client) : List Message × Client :=
  if c.line = [] then
    (if c.data = [] then [] else
      [(if c.type = [] then defaultType else c.type, ['\n'].intercalate c.data)],
      { sawReturn := c.sawReturn })
  else
    let (name, value) := field c.line
    if name = eventName then ([], { c with line := [], type := value })
    else if name = dataName then ([], { c with line := [], data := c.data ++ [value] })
    else ([], { c with line := [] })

def receiveChar (c : Client) (x : Char) : List Message × Client :=
  if x = '\n' then
    if c.sawReturn then ([], { c with sawReturn := false }) else endLine c
  else if x = '\r' then endLine { c with sawReturn := true }
  else ([], { c with line := c.line ++ [x], sawReturn := false })

def receive : Client → Chars → List Message × Client
  | c, [] => ([], c)
  | c, x :: rest =>
    let here := receiveChar c x
    let later := receive here.2 rest
    (here.1 ++ later.1, later.2)

/-- Some text that arrives in pieces. -/
def receiveAll : Client → List Chars → List Message × Client
  | c, [] => ([], c)
  | c, piece :: rest =>
    let here := receive c piece
    let later := receiveAll here.2 rest
    (here.1 ++ later.1, later.2)

def Unbroken (t : Chars) : Prop := ∀ x ∈ t, x ≠ '\n' ∧ x ≠ '\r'

/-- A message of one event line and one data line. -/
def frame (m : Message) : Chars :=
  eventName ++ [':', ' '] ++ m.1 ++ ['\n'] ++ (dataName ++ [':', ' '] ++ m.2 ++ ['\n'] ++ ['\n'])

/-- A message that a frame carries as it is. -/
def Plain (m : Message) : Prop := Unbroken m.1 ∧ m.1 ≠ [] ∧ Unbroken m.2

variable {c : Client} {t : Chars}

theorem receive_append (c : Client) (first later : Chars) :
    receive c (first ++ later) = ((receive c first).1 ++ (receive (receive c first).2 later).1,
      (receive (receive c first).2 later).2) := by
  induction first generalizing c with
  | nil => rfl
  | cons x rest ih =>
    simp only [List.cons_append, receive, ih, List.append_assoc]

theorem receiveAll_eq (c : Client) (pieces : List Chars) :
    receiveAll c pieces = receive c pieces.flatten := by
  induction pieces generalizing c with
  | nil => rfl
  | cons piece rest ih => rw [receiveAll, ih, List.flatten_cons, receive_append]

theorem receive_unbroken (fresh : c.sawReturn = false) (unbroken : Unbroken t) :
    receive c t = ([], { c with line := c.line ++ t }) := by
  induction t generalizing c with
  | nil =>
    rw [List.append_nil]
    rfl
  | cons x rest ih =>
    obtain ⟨⟨feed, carriage⟩, rest_unbroken⟩ := List.forall_mem_cons.mp unbroken
    have here : receiveChar c x = ([], { c with line := c.line ++ [x], sawReturn := false }) := by
      rw [receiveChar, if_neg feed, if_neg carriage]
    rw [receive, here]
    simp only [List.nil_append]
    rw [ih rfl rest_unbroken]
    simp only [List.append_assoc, List.singleton_append, fresh]

theorem receive_line (fresh : c.sawReturn = false) (unbroken : Unbroken (c.line ++ t)) :
    receive c (t ++ ['\n']) = endLine { c with line := c.line ++ t } := by
  have rest : Unbroken t := fun x mem => unbroken x (List.mem_append_right _ mem)
  rw [receive_append, receive_unbroken fresh rest]
  simp only [List.nil_append, receive, receiveChar, fresh, Bool.false_eq_true, if_false, if_true,
    List.append_nil]

theorem field_event (value : Chars) :
    field (eventName ++ [':', ' '] ++ value) = (eventName, value) := rfl

theorem field_data (value : Chars) : field (dataName ++ [':', ' '] ++ value) = (dataName, value) := rfl

theorem unbroken_append {first later : Chars} (front : Unbroken first) (back : Unbroken later) :
    Unbroken (first ++ later) := by
  intro x mem
  rcases List.mem_append.mp mem with mem | mem
  · exact front x mem
  · exact back x mem

theorem unbroken_of_all {t : Chars} (all : t.all (fun x => x != '\n' && x != '\r') = true) :
    Unbroken t := by
  intro x mem
  have both := List.all_eq_true.mp all x mem
  rw [Bool.and_eq_true, bne_iff_ne, bne_iff_ne] at both
  exact both

theorem endLine_event (c : Client) (value : Chars) :
    endLine { c with line := eventName ++ [':', ' '] ++ value } =
      ([], { c with line := [], type := value }) := by
  rw [endLine, if_neg (List.append_ne_nil_of_left_ne_nil (by decide) _), field_event]
  rfl

theorem endLine_data (c : Client) (value : Chars) :
    endLine { c with line := dataName ++ [':', ' '] ++ value } =
      ([], { c with line := [], data := c.data ++ [value] }) := by
  rw [endLine, if_neg (List.append_ne_nil_of_left_ne_nil (by decide) _), field_data]
  rfl

/-- The client gets a plain message as it was framed, and waits for the next one. -/
theorem receive_frame {m : Message} (plain : Plain m) : receive {} (frame m) = ([m], {}) := by
  obtain ⟨type, data⟩ := m
  obtain ⟨unbroken_type, named, unbroken_data⟩ : Unbroken type ∧ type ≠ [] ∧ Unbroken data := plain
  have first : receive {} (eventName ++ [':', ' '] ++ type ++ ['\n']) = ([], { type }) := by
    have label : Unbroken (eventName ++ [':', ' ']) := unbroken_of_all (by decide)
    have unbroken : Unbroken (eventName ++ [':', ' '] ++ type) :=
      unbroken_append label unbroken_type
    rw [receive_line (c := {}) (t := eventName ++ [':', ' '] ++ type) rfl unbroken]
    exact endLine_event {} type
  have second : receive { type } (dataName ++ [':', ' '] ++ data ++ ['\n']) =
      ([], { type, data := [data] }) := by
    have label : Unbroken (dataName ++ [':', ' ']) := unbroken_of_all (by decide)
    have unbroken : Unbroken (dataName ++ [':', ' '] ++ data) :=
      unbroken_append label unbroken_data
    rw [receive_line (c := { type }) (t := dataName ++ [':', ' '] ++ data) rfl unbroken]
    exact endLine_data { type } data
  have last : receive { type, data := [data] } ['\n'] = ([(type, data)], {}) := by
    have ended : receive { type, data := [data] } ['\n'] =
        ((endLine { type, data := [data] }).1 ++ [], (endLine { type, data := [data] }).2) := rfl
    rw [ended, endLine, if_pos rfl, if_neg (List.cons_ne_nil _ _), if_neg named,
      List.append_nil, List.intercalate_singleton]
  rw [frame, receive_append, first, receive_append, second]
  exact last

theorem receive_frames {messages : List Message} (plain : ∀ m ∈ messages, Plain m) :
    receive {} (messages.flatMap frame) = (messages, {}) := by
  induction messages with
  | nil => rfl
  | cons m rest ih =>
    obtain ⟨first, others⟩ := List.forall_mem_cons.mp plain
    rw [List.flatMap_cons, receive_append, receive_frame first, ih others]
    rfl

end KiroRs.Lib.EventStreams
