/- Path: KiroRs/Lib/Dicts
   layer: library
   digest: Dictionaries with string keys as lists in key order, and the lookup after each change. -/

import Mathlib.Data.List.Basic
import Mathlib.Data.String.Basic

set_option autoImplicit false
set_option relaxedAutoImplicit false

namespace KiroRs.Lib.Dicts

/-- A dictionary. `insert` keeps the keys in order when they are. -/
abbrev Dict (α : Type) := List (String × α)

variable {α : Type}

def get (d : Dict α) (key : String) : Option α := d.lookup key

def containsKey (d : Dict α) (key : String) : Bool := (get d key).isSome

/-- Sets a key, replacing what it held. -/
def insert : Dict α → String → α → Dict α
  | [], key, value => [(key, value)]
  | (k, v) :: rest, key, value =>
    if key = k then (key, value) :: rest
    else if key < k then (key, value) :: (k, v) :: rest
    else (k, v) :: insert rest key value

/-- `entry(key).or_insert(value)`. -/
def orInsert (d : Dict α) (key : String) (value : α) : Dict α :=
  if containsKey d key then d else insert d key value

def remove (d : Dict α) (key : String) : Dict α := d.filter fun p => p.1 ≠ key

def ofList (entries : List (String × α)) : Dict α :=
  entries.foldl (fun d p => insert d p.1 p.2) []

variable {d : Dict α} {key other : String} {value : α}

@[simp] theorem get_nil : get ([] : Dict α) key = none := rfl

theorem get_cons {k : String} {v : α} :
    get ((k, v) :: d) key = if key = k then some v else get d key := by
  unfold get
  rw [List.lookup_cons]
  by_cases eq : key = k
  · simp [eq]
  · rw [if_neg eq, beq_eq_false_iff_ne.mpr eq]

@[simp] theorem get_insert_self : get (insert d key value) key = some value := by
  induction d with
  | nil => simp [insert, get_cons]
  | cons p rest ih =>
    obtain ⟨k, v⟩ := p
    unfold insert
    split_ifs with eq lt
    · simp [get_cons]
    · simp [get_cons]
    · simp [get_cons, eq, ih]

theorem get_insert_ne (ne : other ≠ key) : get (insert d key value) other = get d other := by
  induction d with
  | nil => simp [insert, get_cons, ne]
  | cons p rest ih =>
    obtain ⟨k, v⟩ := p
    unfold insert
    split_ifs with eq lt
    · subst eq
      simp [get_cons, ne]
    · simp [get_cons, ne]
    · simp [get_cons, ih]

theorem get_insert : get (insert d key value) other = if other = key then some value
    else get d other := by
  split_ifs with eq
  · subst eq
    exact get_insert_self
  · exact get_insert_ne eq

/-- What a key holds after `orInsert` is what it held, or the new value where it held nothing. -/
theorem get_orInsert : get (orInsert d key value) other =
    if other = key then some ((get d key).getD value) else get d other := by
  unfold orInsert containsKey
  cases present : get d key with
  | none =>
    rw [if_neg (by simp), get_insert]
    rfl
  | some v =>
    rw [if_pos (by simp)]
    split_ifs with eq
    · subst eq
      exact present
    · rfl

def keys (d : Dict α) : List String := d.map (·.1)

theorem mem_keys_iff : key ∈ keys d ↔ (get d key).isSome = true := by
  induction d with
  | nil => simp [keys]
  | cons p rest ih =>
    obtain ⟨k, v⟩ := p
    unfold keys at ih ⊢
    rw [List.map_cons, List.mem_cons, get_cons, ih]
    split_ifs with eq
    · simp [eq]
    · simp [eq]

@[simp] theorem get_remove_self : get (remove d key) key = none := by
  have absent : key ∉ keys (remove d key) := by
    intro mem
    obtain ⟨p, mem_p, same⟩ := List.mem_map.mp mem
    have ne := (List.mem_filter.mp mem_p).2
    rw [same] at ne
    simp at ne
  rw [mem_keys_iff] at absent
  simpa using absent

theorem get_remove_ne (ne : other ≠ key) : get (remove d key) other = get d other := by
  induction d with
  | nil => rfl
  | cons p rest ih =>
    obtain ⟨k, v⟩ := p
    unfold remove at ih ⊢
    rw [get_cons]
    by_cases gone : k = key
    · rw [List.filter_cons_of_neg (by simp [gone]), ih, if_neg (by rw [gone]; exact ne)]
    · rw [List.filter_cons_of_pos (by simp [gone]), get_cons, ih]

theorem get_remove : get (remove d key) other = if other = key then none else get d other := by
  split_ifs with eq
  · rw [eq]
    exact get_remove_self
  · exact get_remove_ne eq

theorem mem_iff_get (nodup : (keys d).Nodup) : (key, value) ∈ d ↔ get d key = some value := by
  induction d with
  | nil => simp
  | cons p rest ih =>
    obtain ⟨k, v⟩ := p
    obtain ⟨absent, nodup⟩ := List.nodup_cons.mp nodup
    rw [List.mem_cons, get_cons, ih nodup]
    by_cases eq : key = k
    · have gone : get rest key = none := by
        rw [eq, ← Option.not_isSome_iff_eq_none, ← mem_keys_iff]
        exact absent
      rw [if_pos eq, gone]
      simp [eq, eq_comm]
    · rw [if_neg eq]
      simp [eq]

/-- The keys are in order. -/
def Sorted (d : Dict α) : Prop := (keys d).Pairwise (· < ·)

theorem Sorted.nodup (sorted : Sorted d) : (keys d).Nodup :=
  sorted.imp fun lt => ne_of_lt lt

theorem sorted_nil : Sorted ([] : Dict α) := List.Pairwise.nil

theorem sorted_filter (p : String × α → Bool) (sorted : Sorted d) : Sorted (d.filter p) :=
  List.Pairwise.sublist (List.filter_sublist.map _) sorted

theorem Sorted.remove (sorted : Sorted d) : Sorted (remove d key) := sorted_filter _ sorted

theorem mem_keys_insert : other ∈ keys (insert d key value) ↔ other = key ∨ other ∈ keys d := by
  rw [mem_keys_iff, mem_keys_iff, get_insert]
  split_ifs with eq
  · simp [eq]
  · simp [eq]

theorem Sorted.insert (sorted : Sorted d) : Sorted (insert d key value) := by
  induction d with
  | nil => exact List.pairwise_singleton _ _
  | cons p rest ih =>
    obtain ⟨k, v⟩ := p
    obtain ⟨below, sorted_rest⟩ := List.pairwise_cons.mp sorted
    unfold Dicts.insert
    split_ifs with eq lt
    · subst eq
      exact List.pairwise_cons.mpr ⟨below, sorted_rest⟩
    · refine List.pairwise_cons.mpr ⟨fun other mem => ?_, sorted⟩
      rcases List.mem_cons.mp mem with rfl | later
      · exact lt
      · exact lt_trans lt (below other later)
    · refine List.pairwise_cons.mpr ⟨fun other mem => ?_, ih sorted_rest⟩
      rcases mem_keys_insert.mp mem with rfl | old
      · exact lt_of_le_of_ne (not_lt.mp lt) (Ne.symm eq)
      · exact below other old

theorem remove_eq_self (absent : get d key = none) : remove d key = d := by
  refine List.filter_eq_self.mpr fun p mem => ?_
  have other : p.1 ≠ key := by
    intro eq
    have present := mem_keys_iff.mp (List.mem_map_of_mem mem)
    rw [eq, absent] at present
    cases present
  exact decide_eq_true other

/-- Setting a key to what it holds changes nothing. -/
theorem Sorted.insert_eq_self (sorted : Sorted d) (held : get d key = some value) :
    Dicts.insert d key value = d := by
  induction d with
  | nil => cases held
  | cons p rest ih =>
    obtain ⟨k, v⟩ := p
    obtain ⟨below, sorted_rest⟩ := List.pairwise_cons.mp sorted
    rw [get_cons] at held
    unfold Dicts.insert
    split_ifs at held ⊢ with eq lt
    · cases held
      rw [eq]
    · -- the key would stand after a greater one
      have mem : key ∈ keys rest := mem_keys_iff.mpr (by rw [held]; rfl)
      exact absurd (below key mem) (lt_asymm lt)
    · rw [ih sorted_rest held]

theorem Sorted.orInsert (sorted : Sorted d) : Sorted (orInsert d key value) := by
  unfold Dicts.orInsert
  split_ifs
  · exact sorted
  · exact sorted.insert

variable {β : Type} (f : α → β)

def mapValues (d : Dict α) : Dict β := d.map (Prod.map id f)

theorem keys_mapValues (d : Dict α) : keys (mapValues f d) = keys d := by
  unfold keys mapValues
  rw [List.map_map]
  rfl

theorem mapValues_insert (d : Dict α) (key : String) (value : α) :
    mapValues f (insert d key value) = insert (mapValues f d) key (f value) := by
  induction d with
  | nil => rfl
  | cons p rest ih =>
    obtain ⟨k, v⟩ := p
    have cons : mapValues f ((k, v) :: rest) = (k, f v) :: mapValues f rest := rfl
    rw [insert, cons, insert]
    split_ifs
    · rfl
    · rfl
    · exact congrArg ((k, f v) :: ·) ih

theorem mapValues_remove (d : Dict α) (key : String) :
    mapValues f (remove d key) = remove (mapValues f d) key := by
  unfold mapValues remove
  rw [List.filter_map]
  rfl

end KiroRs.Lib.Dicts
