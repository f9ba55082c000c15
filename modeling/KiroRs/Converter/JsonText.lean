/- Path: KiroRs/Converter/JsonText
   digest: The printed text of a JSON value breaks no line, and no two values without fractions
   have the same one. -/

import KiroRs.Converter.Json
import KiroRs.Lib.EventStreams

set_option autoImplicit false
set_option relaxedAutoImplicit false

namespace KiroRs.Converter.JsonText

open KiroRs.Lib
open KiroRs.Lib.EventStreams (Chars Unbroken)
open KiroRs.Converter.Json

def stringText (s : String) : Chars := '"' :: (s.toList.flatMap escapeChar ++ ['"'])

mutual

/-- The text of a value. A list is its first item and a tail that ends it. -/
def text (formatFloat : Int → Int → String) : Value → Chars
  | .null => ['n', 'u', 'l', 'l']
  | .bool true => ['t', 'r', 'u', 'e']
  | .bool false => ['f', 'a', 'l', 's', 'e']
  | .number n => (n.render formatFloat).toList
  | .string s => stringText s
  | .array [] => ['[', ']']
  | .array (v :: rest) => '[' :: (text formatFloat v ++ itemsTail formatFloat rest)
  | .object [] => ['\x7b', '\x7d']
  | .object ((k, v) :: rest) =>
    '\x7b' :: (stringText k ++ ':' :: (text formatFloat v ++ fieldsTail formatFloat rest))

def itemsTail (formatFloat : Int → Int → String) : List Value → Chars
  | [] => [']']
  | v :: rest => ',' :: (text formatFloat v ++ itemsTail formatFloat rest)

def fieldsTail (formatFloat : Int → Int → String) : List (String × Value) → Chars
  | [] => ['\x7d']
  | (k, v) :: rest =>
    ',' :: (stringText k ++ ':' :: (text formatFloat v ++ fieldsTail formatFloat rest))

end

theorem toList_quoted (s : String) : (quoted s).toList = stringText s := String.toList_ofList

theorem toList_join (first : String) (rest : List String) :
    (",".intercalate (first :: rest)).toList =
      first.toList ++ rest.flatMap fun s => ',' :: s.toList := by
  induction rest generalizing first with
  | nil => rw [String.intercalate_singleton, List.flatMap_nil, List.append_nil]
  | cons second rest ih =>
    rw [String.intercalate_cons_cons, String.toList_append, String.toList_append, ih,
      List.flatMap_cons, List.append_assoc]
    rfl

mutual

theorem toList_render (formatFloat : Int → Int → String) :
    ∀ v : Value, (v.render formatFloat).toList = text formatFloat v
  | .null => by rw [Value.render, text]; decide
  | .bool true => by rw [Value.render, text]; decide
  | .bool false => by rw [Value.render, text]; decide
  | .number n => by rw [Value.render, text]
  | .string s => by rw [Value.render, text, toList_quoted]
  | .array [] => by
    rw [Value.render, text, renderItems, String.intercalate_nil]
    decide
  | .array (v :: rest) => by
    have tail := toList_renderItems formatFloat rest
    have first := toList_render formatFloat v
    rw [Value.render, text, renderItems, String.toList_append, String.toList_append, toList_join,
      first, List.append_assoc, List.append_assoc]
    show '[' :: _ = _
    rw [← tail]
    rfl
  | .object [] => by
    rw [Value.render, text, renderFields, String.intercalate_nil]
    decide
  | .object ((k, v) :: rest) => by
    have tail := toList_renderFields formatFloat rest
    have first := toList_render formatFloat v
    rw [Value.render, text, renderFields, String.toList_append, String.toList_append, toList_join,
      String.toList_append, String.toList_append, toList_quoted, first]
    simp only [List.append_assoc]
    show '\x7b' :: _ = _
    rw [← tail]
    rfl

theorem toList_renderItems (formatFloat : Int → Int → String) :
    ∀ items : List Value, ((renderItems formatFloat items).flatMap fun s => ',' :: s.toList) ++
      [']'] = itemsTail formatFloat items
  | [] => by rw [renderItems, itemsTail]; rfl
  | v :: rest => by
    rw [renderItems, itemsTail, List.flatMap_cons, toList_render formatFloat v, List.append_assoc,
      toList_renderItems formatFloat rest]
    rfl

theorem toList_renderFields (formatFloat : Int → Int → String) :
    ∀ fields : List (String × Value),
      ((renderFields formatFloat fields).flatMap fun s => ',' :: s.toList) ++ ['\x7d'] =
        fieldsTail formatFloat fields
  | [] => by rw [renderFields, fieldsTail]; rfl
  | (k, v) :: rest => by
    rw [renderFields, fieldsTail, List.flatMap_cons, String.toList_append, String.toList_append,
      toList_quoted, toList_render formatFloat v, List.append_assoc,
      toList_renderFields formatFloat rest]
    simp only [List.append_assoc, List.cons_append]
    rfl

end

theorem toList_intText (n : Int) : (toString n).toList =
    if 0 ≤ n then Nat.toDigits 10 n.natAbs else '-' :: Nat.toDigits 10 n.natAbs := by
  cases n with
  | ofNat m =>
    rw [if_pos (show (0 : Int) ≤ Int.ofNat m from Int.natCast_nonneg m)]
    exact Nat.toList_repr
  | negSucc m =>
    rw [if_neg (by omega)]
    show ("-" ++ Nat.repr (m + 1)).toList = _
    rw [String.toList_append, Nat.toList_repr]
    rfl

theorem unbroken_digits (n : Nat) : Unbroken (Nat.toDigits 10 n) := by
  intro c mem
  have digit := Nat.isDigit_of_mem_toDigits (by decide) (by decide) mem
  constructor
  · rintro rfl
    cases digit
  · rintro rfl
    cases digit

theorem unbroken_cons {c : Char} {t : Chars} (here : c ≠ '\n' ∧ c ≠ '\r') (rest : Unbroken t) :
    Unbroken (c :: t) := List.forall_mem_cons.mpr ⟨here, rest⟩

theorem hexDigit_solid (n : Nat) : hexDigit n ≠ '\n' ∧ hexDigit n ≠ '\r' := by
  have all : ("0123456789abcdef".toList ++ ['0']).all (fun c => c != '\n' && c != '\r') = true := by
    decide
  have mem : hexDigit n ∈ "0123456789abcdef".toList ++ ['0'] := by
    rw [hexDigit, List.getD_eq_getElem?_getD]
    cases found : "0123456789abcdef".toList[n]? with
    | none => exact List.mem_append_right _ (List.mem_singleton.mpr rfl)
    | some c => exact List.mem_append_left _ (List.mem_of_getElem? found)
  have both := List.all_eq_true.mp all _ mem
  rw [Bool.and_eq_true, bne_iff_ne, bne_iff_ne] at both
  exact both

theorem unbroken_escapeChar (c : Char) : Unbroken (escapeChar c) := by
  unfold escapeChar
  split_ifs with quote slash back tab feed form carriage control
  · exact EventStreams.unbroken_of_all (by decide)
  · exact EventStreams.unbroken_of_all (by decide)
  · exact EventStreams.unbroken_of_all (by decide)
  · exact EventStreams.unbroken_of_all (by decide)
  · exact EventStreams.unbroken_of_all (by decide)
  · exact EventStreams.unbroken_of_all (by decide)
  · exact EventStreams.unbroken_of_all (by decide)
  · have front : Unbroken ['\\', 'u', '0', '0'] := EventStreams.unbroken_of_all (by decide)
    exact EventStreams.unbroken_append front (unbroken_cons (hexDigit_solid _)
      (unbroken_cons (hexDigit_solid _) fun _ none => absurd none List.not_mem_nil))
  · refine unbroken_cons ⟨?_, ?_⟩ fun _ none => absurd none List.not_mem_nil
    · rintro rfl
      exact feed rfl
    · rintro rfl
      exact carriage rfl

theorem unbroken_stringText (s : String) : Unbroken (stringText s) := by
  refine unbroken_cons (by decide) (EventStreams.unbroken_append ?_
    (EventStreams.unbroken_of_all (by decide)))
  intro c mem
  obtain ⟨c', -, mem⟩ := List.mem_flatMap.mp mem
  exact unbroken_escapeChar c' c mem

variable {formatFloat : Int → Int → String}

theorem unbroken_number (floats : ∀ m e, Unbroken (formatFloat m e).toList) (n : Number) :
    Unbroken (n.render formatFloat).toList := by
  cases n with
  | posInt n =>
    rw [Number.render, Nat.toString_eq_repr, Nat.toList_repr]
    exact unbroken_digits _
  | negInt n =>
    rw [Number.render, toList_intText]
    split_ifs
    · exact unbroken_digits _
    · exact unbroken_cons (by decide) (unbroken_digits _)
  | float mantissa exponent => exact floats mantissa exponent

mutual

theorem unbroken_text (floats : ∀ m e, Unbroken (formatFloat m e).toList) :
    ∀ v : Value, Unbroken (text formatFloat v)
  | .null => by rw [text]; exact EventStreams.unbroken_of_all (by decide)
  | .bool true => by rw [text]; exact EventStreams.unbroken_of_all (by decide)
  | .bool false => by rw [text]; exact EventStreams.unbroken_of_all (by decide)
  | .number n => by rw [text]; exact unbroken_number floats n
  | .string s => by rw [text]; exact unbroken_stringText s
  | .array [] => by rw [text]; exact EventStreams.unbroken_of_all (by decide)
  | .array (v :: rest) => by
    rw [text]
    exact unbroken_cons (by decide)
      (EventStreams.unbroken_append (unbroken_text floats v) (unbroken_itemsTail floats rest))
  | .object [] => by rw [text]; exact EventStreams.unbroken_of_all (by decide)
  | .object ((k, v) :: rest) => by
    rw [text]
    exact unbroken_cons (by decide) (EventStreams.unbroken_append (unbroken_stringText k)
      (unbroken_cons (by decide)
        (EventStreams.unbroken_append (unbroken_text floats v) (unbroken_fieldsTail floats rest))))

theorem unbroken_itemsTail (floats : ∀ m e, Unbroken (formatFloat m e).toList) :
    ∀ items : List Value, Unbroken (itemsTail formatFloat items)
  | [] => by rw [itemsTail]; exact EventStreams.unbroken_of_all (by decide)
  | v :: rest => by
    rw [itemsTail]
    exact unbroken_cons (by decide)
      (EventStreams.unbroken_append (unbroken_text floats v) (unbroken_itemsTail floats rest))

theorem unbroken_fieldsTail (floats : ∀ m e, Unbroken (formatFloat m e).toList) :
    ∀ fields : List (String × Value), Unbroken (fieldsTail formatFloat fields)
  | [] => by rw [fieldsTail]; exact EventStreams.unbroken_of_all (by decide)
  | (k, v) :: rest => by
    rw [fieldsTail]
    exact unbroken_cons (by decide) (EventStreams.unbroken_append (unbroken_stringText k)
      (unbroken_cons (by decide)
        (EventStreams.unbroken_append (unbroken_text floats v) (unbroken_fieldsTail floats rest))))

end

/-- What may stand behind a number. -/
def Delimited (t : Chars) : Prop := ∀ c ∈ t.head?, c.isDigit = false

theorem delimited_cons {c : Char} {t : Chars} (here : c.isDigit = false) : Delimited (c :: t) := by
  intro x mem
  cases mem
  exact here

theorem takeWhile_digits {t : Chars} (n : Nat) (delimited : Delimited t) :
    (Nat.toDigits 10 n ++ t).takeWhile Char.isDigit = Nat.toDigits 10 n := by
  have digits : ∀ c ∈ Nat.toDigits 10 n, c.isDigit = true := fun c mem =>
    Nat.isDigit_of_mem_toDigits (by decide) (by decide) mem
  rw [List.takeWhile_append_of_pos digits]
  cases t with
  | nil => exact List.append_nil _
  | cons c rest =>
    rw [List.takeWhile_cons_of_neg (by rw [delimited c rfl]; exact Bool.false_ne_true),
      List.append_nil]

theorem digits_inj {n m : Nat} {a b : Chars} (ends : Delimited a) (ends' : Delimited b)
    (same : Nat.toDigits 10 n ++ a = Nat.toDigits 10 m ++ b) : n = m ∧ a = b := by
  have digits := congrArg (List.takeWhile Char.isDigit) same
  rw [takeWhile_digits n ends, takeWhile_digits m ends'] at digits
  have number := congrArg (fun digits => Nat.ofDigitChars 10 digits 0) digits
  rw [digits] at same
  exact ⟨by simpa only [Nat.ofDigitChars_ten_toDigits] using number, List.append_cancel_left same⟩

theorem digits_ne_minus {n : Nat} {a b : Chars} : Nat.toDigits 10 n ++ a ≠ '-' :: b := by
  intro same
  obtain ⟨c, rest, eq⟩ := List.exists_cons_of_ne_nil (Nat.toDigits_ne_nil (n := n) (b := 10))
  have digit : c.isDigit = true :=
    Nat.isDigit_of_mem_toDigits (n := n) (b := 10) (by decide) (by decide)
      (by rw [eq]; exact List.mem_cons_self)
  rw [eq] at same
  injection same with head
  rw [head] at digit
  cases digit

theorem intText_inj {n m : Int} {a b : Chars} (ends : Delimited a) (ends' : Delimited b)
    (same : (toString n).toList ++ a = (toString m).toList ++ b) : n = m ∧ a = b := by
  rw [toList_intText, toList_intText] at same
  split_ifs at same with pos pos' pos'
  · obtain ⟨eq, rest⟩ := digits_inj ends ends' same
    exact ⟨by omega, rest⟩
  · exact absurd same digits_ne_minus
  · exact absurd same.symm digits_ne_minus
  · obtain ⟨eq, rest⟩ := digits_inj ends ends' (List.cons.inj same).2
    exact ⟨by omega, rest⟩

def hexVal (c : Char) : Nat := "0123456789abcdef".toList.findIdx (· == c)

/-- The character that an escape of one letter stands for. -/
def unescaped (c : Char) : Char :=
  if c = 'b' then Char.ofNat 8
  else if c = 't' then Char.ofNat 9
  else if c = 'n' then Char.ofNat 10
  else if c = 'f' then Char.ofNat 12
  else if c = 'r' then Char.ofNat 13
  else c

/-- The first character that a string's text stands for. -/
def readChar : Chars → Option (Char × Chars)
  | '\\' :: 'u' :: _ :: _ :: h :: l :: rest =>
    some (Char.ofNat (16 * hexVal h + hexVal l), rest)
  | '\\' :: c :: rest => some (unescaped c, rest)
  | c :: rest => some (c, rest)
  | [] => none

theorem readChar_escapeChar (c : Char) (rest : Chars) :
    readChar (escapeChar c ++ rest) = some (c, rest) := by
  have named {n : Nat} (eq : c.toNat = n) : c = Char.ofNat n := by rw [← eq, Char.ofNat_toNat]
  unfold escapeChar
  split_ifs with quote slash back tab feed form carriage control
  · rw [quote]
    rfl
  · rw [slash]
    rfl
  · rw [named back]
    rfl
  · rw [named tab]
    rfl
  · rw [named feed]
    rfl
  · rw [named form]
    rfl
  · rw [named carriage]
    rfl
  · have digits : ∀ n < 32, 16 * hexVal (hexDigit (n / 16)) + hexVal (hexDigit (n % 16)) = n := by
      decide
    show some (Char.ofNat (16 * hexVal (hexDigit (c.toNat / 16)) +
      hexVal (hexDigit (c.toNat % 16))), rest) = _
    rw [digits c.toNat control, Char.ofNat_toNat]
  · rw [List.singleton_append, readChar]
    · intro _ _ _ _ _ eq _
      exact slash eq
    · intro _ _ eq _
      exact slash eq

theorem head_escapeChar (c : Char) : ∃ x rest, escapeChar c = x :: rest ∧ x ≠ '"' := by
  unfold escapeChar
  split_ifs with quote slash
  · exact ⟨_, _, rfl, by decide⟩
  · exact ⟨_, _, rfl, by decide⟩
  · exact ⟨_, _, rfl, by decide⟩
  · exact ⟨_, _, rfl, by decide⟩
  · exact ⟨_, _, rfl, by decide⟩
  · exact ⟨_, _, rfl, by decide⟩
  · exact ⟨_, _, rfl, by decide⟩
  · exact ⟨_, _, rfl, by decide⟩
  · exact ⟨_, _, rfl, quote⟩

theorem escaped_inj {l l' a b : Chars}
    (same : l.flatMap escapeChar ++ '"' :: a = l'.flatMap escapeChar ++ '"' :: b) :
    l = l' ∧ a = b := by
  induction l generalizing l' with
  | nil =>
    cases l' with
    | nil => exact ⟨rfl, (List.cons.inj same).2⟩
    | cons c' rest' =>
      obtain ⟨x, t, eq, solid⟩ := head_escapeChar c'
      rw [List.flatMap_cons, eq] at same
      exact absurd (List.cons.inj same).1.symm solid
  | cons c rest ih =>
    cases l' with
    | nil =>
      obtain ⟨x, t, eq, solid⟩ := head_escapeChar c
      rw [List.flatMap_cons, eq] at same
      exact absurd (List.cons.inj same).1 solid
    | cons c' rest' =>
      rw [List.flatMap_cons, List.flatMap_cons, List.append_assoc, List.append_assoc] at same
      have read := congrArg readChar same
      rw [readChar_escapeChar, readChar_escapeChar] at read
      obtain ⟨rfl, later⟩ := Prod.mk.inj (Option.some.inj read)
      obtain ⟨rfl, behind⟩ := ih later
      exact ⟨rfl, behind⟩

theorem stringText_inj {s s' : String} {a b : Chars}
    (same : stringText s ++ a = stringText s' ++ b) : s = s' ∧ a = b := by
  have inner : (s.toList.flatMap escapeChar ++ ['"']) ++ a =
      (s'.toList.flatMap escapeChar ++ ['"']) ++ b := (List.cons.inj same).2
  rw [List.append_assoc, List.append_assoc] at inner
  obtain ⟨chars, rest⟩ := escaped_inj inner
  exact ⟨String.toList_inj.mp chars, rest⟩

def exactNumber : Number → Bool
  | .posInt _ => true
  | .negInt n => n.toInt < 0
  | .float _ _ => false

mutual

/-- A value whose numbers are all integers, the negative ones as such. -/
def exact : Value → Bool
  | .number n => exactNumber n
  | .array items => exactItems items
  | .object fields => exactFields fields
  | _ => true

def exactItems : List Value → Bool
  | [] => true
  | v :: rest => exact v && exactItems rest

def exactFields : List (String × Value) → Bool
  | [] => true
  | (_, v) :: rest => exact v && exactFields rest

end

def numberOf : Number → Int
  | .posInt n => n.toNat
  | .negInt n => n.toInt
  | .float _ _ => 0

theorem render_exact {n : Number} (ints : exactNumber n = true) :
    n.render formatFloat = toString (numberOf n) := by
  cases n with
  | posInt n => rfl
  | negInt n => rfl
  | float mantissa exponent => cases ints

theorem numberOf_inj {n m : Number} (ints : exactNumber n = true) (ints' : exactNumber m = true)
    (same : numberOf n = numberOf m) : n = m := by
  cases n with
  | posInt n =>
    cases m with
    | posInt m =>
      have nats : n.toNat = m.toNat := Int.ofNat.inj same
      rw [UInt64.toNat_inj.mp nats]
    | negInt m =>
      have negative : m.toInt < 0 := of_decide_eq_true ints'
      have same : (n.toNat : Int) = m.toInt := same
      omega
    | float mantissa exponent => cases ints'
  | negInt n =>
    cases m with
    | posInt m =>
      have negative : n.toInt < 0 := of_decide_eq_true ints
      have same : n.toInt = (m.toNat : Int) := same
      omega
    | negInt m => rw [Int64.toInt_inj.mp same]
    | float mantissa exponent => cases ints'
  | float mantissa exponent => cases ints

/-- The kind of a value, as the first character of its text tells it. -/
def kind : Value → Nat
  | .null => 0
  | .bool true => 1
  | .bool false => 2
  | .number _ => 3
  | .string _ => 4
  | .array _ => 5
  | .object _ => 6

def kindOf (c : Char) : Nat :=
  if c.isDigit || c = '-' then 3
  else if c = 'n' then 0
  else if c = 't' then 1
  else if c = 'f' then 2
  else if c = '"' then 4
  else if c = '[' then 5
  else if c = '\x7b' then 6
  else 7

theorem kind_digits {c : Char} {n : Nat} {rest : Chars} (eq : Nat.toDigits 10 n = c :: rest) :
    kindOf c = 3 := by
  have digit : c.isDigit = true :=
    Nat.isDigit_of_mem_toDigits (n := n) (b := 10) (by decide) (by decide)
      (by rw [eq]; exact List.mem_cons_self)
  rw [kindOf, digit, Bool.true_or, if_pos rfl]

theorem head_text {v : Value} (ints : exact v = true) :
    ∃ c rest, text formatFloat v = c :: rest ∧ kindOf c = kind v := by
  match v with
  | .null => exact ⟨_, _, by rw [text], by decide⟩
  | .bool true => exact ⟨_, _, by rw [text], by decide⟩
  | .bool false => exact ⟨_, _, by rw [text], by decide⟩
  | .number n =>
    rw [exact] at ints
    rw [text, render_exact ints, toList_intText]
    split_ifs
    · obtain ⟨c, rest, eq⟩ :=
        List.exists_cons_of_ne_nil (Nat.toDigits_ne_nil (n := (numberOf n).natAbs) (b := 10))
      exact ⟨c, rest, eq, kind_digits eq⟩
    · exact ⟨_, _, rfl, show kindOf '-' = 3 by decide⟩
  | .string s => exact ⟨_, _, by rw [text, stringText], show kindOf '"' = 4 by decide⟩
  | .array [] => exact ⟨_, _, by rw [text], show kindOf '[' = 5 by decide⟩
  | .array (_ :: _) => exact ⟨_, _, by rw [text], show kindOf '[' = 5 by decide⟩
  | .object [] => exact ⟨_, _, by rw [text], show kindOf '\x7b' = 6 by decide⟩
  | .object ((_, _) :: _) => exact ⟨_, _, by rw [text], show kindOf '\x7b' = 6 by decide⟩

/-- Values of the same text up to some point are of one kind. -/
theorem kind_eq {v w : Value} {a b : Chars} (ints : exact v = true) (ints' : exact w = true)
    (same : text formatFloat v ++ a = text formatFloat w ++ b) : kind v = kind w := by
  obtain ⟨c, rest, eq, is⟩ : ∃ c rest, text formatFloat v = c :: rest ∧ kindOf c = kind v :=
    head_text ints
  obtain ⟨c', rest', eq', is'⟩ : ∃ c rest, text formatFloat w = c :: rest ∧ kindOf c = kind w :=
    head_text ints'
  rw [eq, eq'] at same
  rw [← is, ← is', (List.cons.inj same).1]

theorem text_ne_end {v : Value} {c : Char} {a b : Chars} (ints : exact v = true)
    (ends : kindOf c = 7) : c :: b ≠ text formatFloat v ++ a := by
  intro same
  obtain ⟨c', rest, eq, is⟩ : ∃ c' rest, text formatFloat v = c' :: rest ∧ kindOf c' = kind v :=
    head_text ints
  rw [eq] at same
  rw [(List.cons.inj same).1, is] at ends
  cases v with
  | bool b => cases b <;> cases ends
  | _ => cases ends

theorem delimited_itemsTail (items : List Value) (a : Chars) :
    Delimited (itemsTail formatFloat items ++ a) := by
  cases items with
  | nil =>
    rw [itemsTail]
    exact delimited_cons (by decide)
  | cons v rest =>
    rw [itemsTail]
    exact delimited_cons (by decide)

theorem delimited_fieldsTail (fields : List (String × Value)) (a : Chars) :
    Delimited (fieldsTail formatFloat fields ++ a) := by
  cases fields with
  | nil =>
    rw [fieldsTail]
    exact delimited_cons (by decide)
  | cons p rest =>
    rw [fieldsTail]
    exact delimited_cons (by decide)

mutual

/-- A text reads as one value only. The induction is on the value and its parts. -/
theorem text_inj : ∀ (v w : Value) {a b : Chars}, exact v = true → exact w = true →
    Delimited a → Delimited b → text formatFloat v ++ a = text formatFloat w ++ b → v = w ∧ a = b
  | .null, w, a, b, ints, ints', ends, ends', same => by
    have kinds := kind_eq ints ints' same
    match w, kinds with
    | .null, _ => exact ⟨rfl, List.append_cancel_left same⟩
  | .bool true, w, a, b, ints, ints', ends, ends', same => by
    have kinds := kind_eq ints ints' same
    match w, kinds with
    | .bool true, _ => exact ⟨rfl, List.append_cancel_left same⟩
  | .bool false, w, a, b, ints, ints', ends, ends', same => by
    have kinds := kind_eq ints ints' same
    match w, kinds with
    | .bool false, _ => exact ⟨rfl, List.append_cancel_left same⟩
  | .number n, w, a, b, ints, ints', ends, ends', same => by
    have kinds := kind_eq ints ints' same
    match w, kinds with
    | .number m, _ =>
      rw [exact] at ints ints'
      rw [text, text, render_exact ints, render_exact ints'] at same
      obtain ⟨eq, rest⟩ := intText_inj ends ends' same
      exact ⟨congrArg Value.number (numberOf_inj ints ints' eq), rest⟩
  | .string s, w, a, b, ints, ints', ends, ends', same => by
    have kinds := kind_eq ints ints' same
    match w, kinds with
    | .string s', _ =>
      rw [text, text] at same
      obtain ⟨eq, rest⟩ := stringText_inj same
      exact ⟨congrArg Value.string eq, rest⟩
  | .array [], w, a, b, ints, ints', ends, ends', same => by
    have kinds := kind_eq ints ints' same
    match w, kinds with
    | .array [], _ => exact ⟨rfl, List.append_cancel_left same⟩
    | .array (w :: rest'), _ =>
      rw [exact, exactItems, Bool.and_eq_true] at ints'
      rw [text, text] at same
      simp only [List.cons_append, List.nil_append, List.append_assoc] at same
      have inner := (List.cons.inj same).2
      exact absurd inner (text_ne_end ints'.1 (by decide))
  | .array (v :: rest), w, a, b, ints, ints', ends, ends', same => by
    have kinds := kind_eq ints ints' same
    rw [exact, exactItems, Bool.and_eq_true] at ints
    match w, kinds with
    | .array [], _ =>
      rw [text, text] at same
      simp only [List.cons_append, List.nil_append, List.append_assoc] at same
      have inner := (List.cons.inj same).2
      exact absurd inner.symm (text_ne_end ints.1 (by decide))
    | .array (w :: rest'), _ =>
      rw [exact, exactItems, Bool.and_eq_true] at ints'
      rw [text, text] at same
      simp only [List.cons_append, List.append_assoc] at same
      have inner := (List.cons.inj same).2
      obtain ⟨rfl, later⟩ := text_inj v w ints.1 ints'.1 (delimited_itemsTail rest a)
        (delimited_itemsTail rest' b) inner
      obtain ⟨rfl, behind⟩ := itemsTail_inj rest rest' ints.2 ints'.2 later
      exact ⟨rfl, behind⟩
  | .object [], w, a, b, ints, ints', ends, ends', same => by
    have kinds := kind_eq ints ints' same
    match w, kinds with
    | .object [], _ => exact ⟨rfl, List.append_cancel_left same⟩
    | .object ((k, w) :: rest'), _ =>
      rw [text, text] at same
      have inner := (List.cons.inj same).2
      cases (List.cons.inj inner).1
  | .object ((k, v) :: rest), w, a, b, ints, ints', ends, ends', same => by
    have kinds := kind_eq ints ints' same
    rw [exact, exactFields, Bool.and_eq_true] at ints
    match w, kinds with
    | .object [], _ =>
      rw [text, text] at same
      have inner := (List.cons.inj same).2
      cases (List.cons.inj inner).1
    | .object ((k', w) :: rest'), _ =>
      rw [exact, exactFields, Bool.and_eq_true] at ints'
      rw [text, text] at same
      simp only [List.cons_append, List.append_assoc] at same
      have inner := (List.cons.inj same).2
      obtain ⟨rfl, fields⟩ := stringText_inj inner
      have value := (List.cons.inj fields).2
      obtain ⟨rfl, later⟩ := text_inj v w ints.1 ints'.1 (delimited_fieldsTail rest a)
        (delimited_fieldsTail rest' b) value
      obtain ⟨rfl, behind⟩ := fieldsTail_inj rest rest' ints.2 ints'.2 later
      exact ⟨rfl, behind⟩

theorem itemsTail_inj : ∀ (items items' : List Value) {a b : Chars}, exactItems items = true →
    exactItems items' = true →
    itemsTail formatFloat items ++ a = itemsTail formatFloat items' ++ b → items = items' ∧ a = b
  | [], [], a, b, _, _, same => by
    rw [itemsTail] at same
    exact ⟨rfl, (List.cons.inj same).2⟩
  | [], w :: rest', a, b, _, _, same => by
    rw [itemsTail, itemsTail] at same
    cases (List.cons.inj same).1
  | v :: rest, [], a, b, _, _, same => by
    rw [itemsTail, itemsTail] at same
    cases (List.cons.inj same).1
  | v :: rest, w :: rest', a, b, ints, ints', same => by
    rw [exactItems, Bool.and_eq_true] at ints ints'
    rw [itemsTail, itemsTail] at same
    simp only [List.cons_append, List.append_assoc] at same
    have inner := (List.cons.inj same).2
    obtain ⟨rfl, later⟩ := text_inj v w ints.1 ints'.1 (delimited_itemsTail rest a)
      (delimited_itemsTail rest' b) inner
    obtain ⟨rfl, behind⟩ := itemsTail_inj rest rest' ints.2 ints'.2 later
    exact ⟨rfl, behind⟩

theorem fieldsTail_inj : ∀ (fields fields' : List (String × Value)) {a b : Chars},
    exactFields fields = true → exactFields fields' = true →
    fieldsTail formatFloat fields ++ a = fieldsTail formatFloat fields' ++ b →
      fields = fields' ∧ a = b
  | [], [], a, b, _, _, same => by
    rw [fieldsTail] at same
    exact ⟨rfl, (List.cons.inj same).2⟩
  | [], (k', w) :: rest', a, b, _, _, same => by
    rw [fieldsTail, fieldsTail] at same
    cases (List.cons.inj same).1
  | (k, v) :: rest, [], a, b, _, _, same => by
    rw [fieldsTail, fieldsTail] at same
    cases (List.cons.inj same).1
  | (k, v) :: rest, (k', w) :: rest', a, b, ints, ints', same => by
    rw [exactFields, Bool.and_eq_true] at ints ints'
    rw [fieldsTail, fieldsTail] at same
    simp only [List.cons_append, List.append_assoc] at same
    have inner := (List.cons.inj same).2
    obtain ⟨rfl, fields⟩ := stringText_inj inner
    have value := (List.cons.inj fields).2
    obtain ⟨rfl, later⟩ := text_inj v w ints.1 ints'.1 (delimited_fieldsTail rest a)
      (delimited_fieldsTail rest' b) value
    obtain ⟨rfl, behind⟩ := fieldsTail_inj rest rest' ints.2 ints'.2 later
    exact ⟨rfl, behind⟩

end

mutual

/-- How fractions are written is nothing to a text without them. -/
theorem text_exact (f g : Int → Int → String) :
    ∀ v : Value, exact v = true → text f v = text g v
  | .null, _ => by rw [text, text]
  | .bool true, _ => by rw [text, text]
  | .bool false, _ => by rw [text, text]
  | .number n, ints => by
    rw [exact] at ints
    rw [text, text, render_exact ints, render_exact ints]
  | .string s, _ => by rw [text, text]
  | .array [], _ => by rw [text, text]
  | .array (v :: rest), ints => by
    rw [exact, exactItems, Bool.and_eq_true] at ints
    rw [text, text, text_exact f g v ints.1, itemsTail_exact f g rest ints.2]
  | .object [], _ => by rw [text, text]
  | .object ((k, v) :: rest), ints => by
    rw [exact, exactFields, Bool.and_eq_true] at ints
    rw [text, text, text_exact f g v ints.1, fieldsTail_exact f g rest ints.2]

theorem itemsTail_exact (f g : Int → Int → String) :
    ∀ items : List Value, exactItems items = true → itemsTail f items = itemsTail g items
  | [], _ => by rw [itemsTail, itemsTail]
  | v :: rest, ints => by
    rw [exactItems, Bool.and_eq_true] at ints
    rw [itemsTail, itemsTail, text_exact f g v ints.1, itemsTail_exact f g rest ints.2]

theorem fieldsTail_exact (f g : Int → Int → String) :
    ∀ fields : List (String × Value), exactFields fields = true →
      fieldsTail f fields = fieldsTail g fields
  | [], _ => by rw [fieldsTail, fieldsTail]
  | (k, v) :: rest, ints => by
    rw [exactFields, Bool.and_eq_true] at ints
    rw [fieldsTail, fieldsTail, text_exact f g v ints.1, fieldsTail_exact f g rest ints.2]

end

theorem unbroken_exact {v : Value} (ints : exact v = true) : Unbroken (text formatFloat v) := by
  rw [text_exact formatFloat (fun _ _ => "") v ints]
  exact unbroken_text (fun _ _ => EventStreams.unbroken_of_all (by decide)) v

end KiroRs.Converter.JsonText
