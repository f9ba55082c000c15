/- Path: KiroRs/Admin/ClientKeyRuns
   source: src/admin/client_keys.rs
   digest: Which client key authenticates, over runs with restarts: the manager refines accounts of
   plaintexts, and its index holds the stored hashes. -/

import KiroRs.Admin.ClientKeys
import KiroRs.Lib.Traces

set_option autoImplicit false
set_option relaxedAutoImplicit false

namespace KiroRs.Admin.ClientKeyRuns

open KiroRs.Lib
open KiroRs.Lib.Traces
open KiroRs.Admin.ClientKeys

structure Account where
  plain : String
  disabled : Bool
  deriving DecidableEq

abbrev Accounts := Nat → Option Account

/-- An operation, with what the outside decides: tokens, times, the order of a scan, and whether a
write to the file succeeds. -/
inductive Op where
  | create (token name : String) (description : Option String) (now : String) (written : Bool)
  | delete (id : Nat) (written : Bool)
  | setDisabled (id : Nat) (disabled written : Bool)
  | updateMeta (id : Nat) (name : Option String) (description : Option (Option String))
      (written : Bool)
  | resetStats (id : Nat) (written : Bool)
  | verifyAndTouch (order : VisitOrder) (presented now : String) (written : Bool)
  | recordUsage (id : Nat)
      (inputTokens outputTokens cacheCreationTokens cacheReadTokens credits : UInt64)
      (now : String)
  | flush (written : Bool)
  | restart (written : Bool)

variable (env : Env)

def run (m : ClientKeyManager) : Op → ClientKeyManager
  | .create token name description now written =>
    (create env token name description now written m).1
  | .delete id written => (delete id written m).1
  | .setDisabled id disabled written => (setDisabled id disabled written m).1
  | .updateMeta id name description written => (updateMeta id name description written m).1
  | .resetStats id written => (resetStats id written m).1
  | .verifyAndTouch order presented now written =>
    (verifyAndTouch env order presented now written m).1
  | .recordUsage id input output cacheCreation cacheRead credits now =>
    recordUsage env id input output cacheCreation cacheRead credits now m
  | .flush written => flushToDisk written m
  | .restart written => load env m.file written

structure Ledger where
  live : Accounts
  saved : Accounts

/-- The accounts after an operation: `id` is the one that a new key is given. -/
def Accounts.after (accounts : Accounts) (id : Nat) : Op → Accounts
  | .create token _ _ _ _ => Function.update accounts id (some ⟨clientKeyPrefix ++ token, false⟩)
  | .delete id _ => Function.update accounts id none
  | .setDisabled id disabled _ =>
    Function.update accounts id ((accounts id).map fun a => { a with disabled := disabled })
  | _ => accounts

def writes (m : ClientKeyManager) : Op → Bool
  | .create _ _ _ _ written => written
  | .delete id written | .setDisabled id _ written | .updateMeta id _ _ written
  | .resetStats id written => written && (m.inner.entries.lookup id).isSome
  | .verifyAndTouch order presented _ written =>
    written && Text.startsWith presented clientKeyPrefix &&
      ((order.visit m.inner.entries.entries).foldl (scanEntry env presented)
        {}).legacyHitHash.isSome
  | .recordUsage .. => false
  | .flush written => written && m.inner.dirtyUsage
  | .restart written => written && (m.file.getD []).any fun ck => !ck.key.isEmpty

/-- A restart returns to the saved accounts; a write saves the accounts of the manager. -/
def Ledger.after (l : Ledger) (m : ClientKeyManager) (op : Op) : Ledger :=
  let live :=
    match op with
    | .restart _ => l.saved
    | _ => l.live.after m.inner.nextId op
  { live := live, saved := if writes env m op then live else l.saved }

/-- The ledger behind a trace, from the accounts of the first file. -/
def ledger (start : Accounts) : List (ClientKeyManager × Op) → Ledger
  | [] => ⟨start, start⟩
  | (m, op) :: trace => (ledger start trace).after env m op

/-- The hashes tell keys apart, and hashes of the two kinds from each other. -/
structure Hashing : Prop where
  keyed_injective : Function.Injective (hashKey env)
  legacy_injective : Function.Injective (legacySha256Hash env)
  disjoint : ∀ a b, hashKey env a ≠ legacySha256Hash env b
  legacy_nonempty : ∀ a, legacySha256Hash env a ≠ ""

def Hashed (hash plain : String) : Prop :=
  hash = hashKey env plain ∨ hash = legacySha256Hash env plain

def StandsFor (ck : ClientKey) (plain : String) : Prop :=
  if ck.key = "" then Hashed env ck.keyHash plain else ck.key = plain

/-- The accounts have distinct plaintexts, all of them known, and ids below a bound. -/
structure Kept (known : List String) (bound : Nat) (accounts : Accounts) : Prop where
  apart : ∀ id id' a a', accounts id = some a → accounts id' = some a' → a.plain = a'.plain →
    id = id'
  known : ∀ id a, accounts id = some a → a.plain ∈ known
  below : ∀ id a, accounts id = some a → id < bound

structure Represents (accounts : Accounts) (entries : Entries) : Prop where
  present : ∀ id e, entries.lookup id = some e → e.id = id ∧ ∃ a, accounts id = some a ∧
    a.disabled = e.disabled ∧ Hashed env e.keyHash a.plain
  complete : ∀ id a, accounts id = some a → ∃ e, entries.lookup id = some e

/-- The index maps the stored hashes to their entries. -/
def Indexed (inner : Inner) : Prop :=
  ∀ hash id, inner.byHash.lookup hash = some id ↔
    ∃ e, inner.entries.lookup id = some e ∧ e.keyHash = hash

structure Describes (accounts : Accounts) (file : List ClientKey) : Prop where
  distinct : (file.map (·.id)).Nodup
  present : ∀ ck ∈ file, ∃ a, accounts ck.id = some a ∧ a.disabled = ck.disabled ∧
    StandsFor env ck a.plain
  complete : ∀ id a, accounts id = some a → ∃ ck ∈ file, ck.id = id

structure Inv (known : List String) (bound : Nat) (l : Ledger) (m : ClientKeyManager) :
    Prop where
  live : Kept known bound l.live
  saved : Kept known bound l.saved
  represents : Represents env l.live m.inner.entries
  indexed : Indexed m.inner
  describes : Describes env l.saved (m.file.getD [])
  next_free : ∀ id a, l.live id = some a → id < m.inner.nextId
  next_le : m.inner.nextId ≤ bound

variable {env} {known : List String} {bound : Nat} {accounts : Accounts} {entries : Entries}

theorem hashKey_ne_empty (key : String) : hashKey env key ≠ "" := by
  intro empty
  have chars := congrArg String.toList empty
  simp [hashKey, keyHashScheme] at chars

theorem Hashed.unique (hashing : Hashing env) {hash a b : String}
    (of_a : Hashed env hash a) (of_b : Hashed env hash b) : a = b := by
  rcases of_a with keyed | legacy
  · rcases of_b with keyed' | legacy'
    · exact hashing.keyed_injective (keyed.symm.trans keyed')
    · exact absurd (keyed.symm.trans legacy') (hashing.disjoint a b)
  · rcases of_b with keyed' | legacy'
    · exact absurd (keyed'.symm.trans legacy) (hashing.disjoint b a)
    · exact hashing.legacy_injective (legacy.symm.trans legacy')

theorem Hashed.ne_empty (hashing : Hashing env) {hash plain : String}
    (hashed : Hashed env hash plain) : hash ≠ "" := by
  rcases hashed with keyed | legacy
  · rw [keyed]
    exact hashKey_ne_empty plain
  · rw [legacy]
    exact hashing.legacy_nonempty plain

theorem Kept.mono {known' : List String} {bound' : Nat} (h : Kept known bound accounts)
    (sub : ∀ key ∈ known, key ∈ known') (le : bound ≤ bound') : Kept known' bound' accounts := by
  refine ⟨h.apart, ?_, ?_⟩
  · intro id a held
    exact sub _ (h.known id a held)
  · intro id a held
    exact lt_of_lt_of_le (h.below id a held) le

theorem Represents.eq_of_hash (hashing : Hashing env) (kept : Kept known bound accounts)
    (h : Represents env accounts entries) {id id' : Nat} {e e' : ClientKey}
    (held : entries.lookup id = some e) (held' : entries.lookup id' = some e')
    (same : e.keyHash = e'.keyHash) : id = id' := by
  obtain ⟨-, a, is_a, -, hashed⟩ := h.present id e held
  obtain ⟨-, a', is_a', -, hashed'⟩ := h.present id' e' held'
  rw [← same] at hashed'
  exact kept.apart id id' a a' is_a is_a' (hashed.unique hashing hashed')

theorem Represents.absent (h : Represents env accounts entries) {id : Nat}
    (none_there : entries.lookup id = none) : accounts id = none := by
  cases held : accounts id with
  | none => rfl
  | some a =>
    obtain ⟨e, found⟩ := h.complete id a held
    rw [none_there] at found
    cases found

theorem Represents.describes (h : Represents env accounts entries) {inner : Inner}
    (same : inner.entries = entries) :
    Describes env accounts ((list inner).map ClientKey.stored) := by
  have mem_list : ∀ ck, ck ∈ list inner ↔ ∃ id, entries.lookup id = some ck := by
    intro ck
    unfold list
    rw [(List.perm_insertionSort _ _).mem_iff, List.mem_map, same]
    constructor
    · rintro ⟨⟨id, e⟩, mem, rfl⟩
      exact ⟨id, AList.mem_lookup_iff.mpr mem⟩
    · rintro ⟨id, found⟩
      exact ⟨⟨id, ck⟩, AList.mem_lookup_iff.mp found, rfl⟩
  refine ⟨?_, ?_, ?_⟩
  · have ids : ((list inner).map ClientKey.stored).map (·.id) = (list inner).map (·.id) := by
      rw [List.map_map]
      rfl
    have perm : ((list inner).map (·.id)).Perm inner.entries.keys := by
      have by_key : inner.entries.keys = (inner.entries.entries.map (·.2)).map (·.id) := by
        rw [List.map_map]
        refine List.map_congr_left fun p mem => ?_
        have found : entries.lookup p.1 = some p.2 := by
          rw [← same]
          exact AList.mem_lookup_iff.mpr mem
        exact (h.present p.1 p.2 found).1.symm
      rw [by_key]
      exact (List.perm_insertionSort _ _).map _
    rw [ids, perm.nodup_iff]
    exact inner.entries.keys_nodup
  · intro ck mem
    obtain ⟨e, listed, rfl⟩ := List.mem_map.mp mem
    obtain ⟨id, found⟩ := (mem_list e).mp listed
    obtain ⟨same_id, a, held, disabled, hashed⟩ := h.present id e found
    refine ⟨a, ?_, disabled, ?_⟩
    · change accounts e.id = some a
      rw [same_id]
      exact held
    · exact (if_pos rfl).mpr hashed
  · intro id a held
    obtain ⟨e, found⟩ := h.complete id a held
    exact ⟨e.stored, List.mem_map_of_mem ((mem_list e).mpr ⟨id, found⟩), (h.present id e found).1⟩

theorem Inv.save {l : Ledger} {m : ClientKeyManager} (h : Inv env known bound l m)
    (written : Bool) :
    Inv env known bound ⟨l.live, if written then l.live else l.saved⟩
      (saveLocked written m) := by
  cases written with
  | false => exact ⟨h.live, h.saved, h.represents, h.indexed, h.describes, h.next_free, h.next_le⟩
  | true =>
    exact ⟨h.live, h.live, h.represents, h.indexed, h.represents.describes rfl, h.next_free,
      h.next_le⟩

def Accounts.switch (accounts : Accounts) (id : Nat) (flag : Bool → Bool) : Accounts :=
  Function.update accounts id ((accounts id).map fun a => { a with disabled := flag a.disabled })

theorem Accounts.switch_same (accounts : Accounts) (id : Nat) :
    accounts.switch id (fun b => b) = accounts := by
  unfold Accounts.switch
  rw [Function.update_eq_self_iff]
  cases accounts id with
  | none => rfl
  | some a => rfl

theorem Accounts.switch_of_none {id : Nat} (flag : Bool → Bool) (absent : accounts id = none) :
    accounts.switch id flag = accounts := by
  unfold Accounts.switch
  rw [absent, Function.update_eq_self_iff, absent]
  rfl

theorem Accounts.switch_eq_some {id other : Nat} {flag : Bool → Bool} {a : Account}
    (held : accounts.switch id flag other = some a) : ∃ b, accounts other = some b ∧
      b.plain = a.plain ∧ a.disabled = if other = id then flag b.disabled else b.disabled := by
  unfold Accounts.switch at held
  rw [Function.update_apply] at held
  split_ifs at held with here
  · subst here
    obtain ⟨b, is_b, rfl⟩ := Option.map_eq_some_iff.mp held
    exact ⟨b, is_b, rfl, (if_pos rfl).symm⟩
  · exact ⟨a, held, rfl, (if_neg here).symm⟩

theorem Kept.switch (h : Kept known bound accounts) (id : Nat) (flag : Bool → Bool) :
    Kept known bound (accounts.switch id flag) := by
  refine ⟨?_, ?_, ?_⟩
  · intro i j a b held held' same
    obtain ⟨a', is_a', plain, -⟩ := Accounts.switch_eq_some held
    obtain ⟨b', is_b', plain', -⟩ := Accounts.switch_eq_some held'
    exact h.apart i j a' b' is_a' is_b' (plain.trans (same.trans plain'.symm))
  · intro i a held
    obtain ⟨a', is_a', plain, -⟩ := Accounts.switch_eq_some held
    rw [← plain]
    exact h.known i a' is_a'
  · intro i a held
    obtain ⟨a', is_a', -⟩ := Accounts.switch_eq_some held
    exact h.below i a' is_a'

theorem Represents.insert (h : Represents env accounts entries) {id : Nat} {e f : ClientKey}
    {flag : Bool → Bool} (found : entries.lookup id = some e) (same_id : f.id = e.id)
    (rehashed : ∀ plain, Hashed env e.keyHash plain → Hashed env f.keyHash plain)
    (switched : f.disabled = flag e.disabled) :
    Represents env (accounts.switch id flag) (entries.insert id f) := by
  obtain ⟨id_eq, a, held, disabled, hashed⟩ := h.present id e found
  refine ⟨?_, ?_⟩
  · intro other g there
    by_cases here : other = id
    · subst here
      rw [AList.lookup_insert] at there
      cases there
      refine ⟨same_id.trans id_eq, ⟨a.plain, flag a.disabled⟩, ?_, ?_, rehashed _ hashed⟩
      · unfold Accounts.switch
        rw [Function.update_self, held]
        rfl
      · rw [switched, disabled]
    · rw [AList.lookup_insert_ne here] at there
      obtain ⟨other_id, b, is_b, rest⟩ := h.present other g there
      refine ⟨other_id, b, ?_, rest⟩
      unfold Accounts.switch
      rw [Function.update_of_ne here]
      exact is_b
  · intro other b is_b
    by_cases here : other = id
    · subst here
      exact ⟨f, AList.lookup_insert _⟩
    · obtain ⟨b', is_b', -⟩ := Accounts.switch_eq_some is_b
      rw [AList.lookup_insert_ne here]
      exact h.complete other b' is_b'

theorem Indexed.insert {inner : Inner} (h : Indexed inner) {id : Nat} {e f : ClientKey}
    (found : inner.entries.lookup id = some e) (same : f.keyHash = e.keyHash) :
    Indexed { inner with entries := inner.entries.insert id f } := by
  intro hash other
  rw [h hash other]
  by_cases here : other = id
  · subst here
    simp only [found, AList.lookup_insert, Option.some.injEq, exists_eq_left', same]
  · simp only [AList.lookup_insert_ne here]

theorem Inv.insert {l : Ledger} {m : ClientKeyManager} (h : Inv env known bound l m) {id : Nat}
    {e f : ClientKey} {flag : Bool → Bool} (found : m.inner.entries.lookup id = some e)
    (same_id : f.id = e.id) (same_hash : f.keyHash = e.keyHash)
    (switched : f.disabled = flag e.disabled) :
    Inv env known bound ⟨l.live.switch id flag, l.saved⟩
      { m with inner := { m.inner with entries := m.inner.entries.insert id f } } := by
  have rehashed : ∀ plain, Hashed env e.keyHash plain → Hashed env f.keyHash plain := by
    intro plain hashed
    rw [same_hash]
    exact hashed
  refine ⟨h.live.switch id flag, h.saved, h.represents.insert found same_id rehashed switched,
    h.indexed.insert found same_hash, h.describes, ?_, h.next_le⟩
  intro other a held
  obtain ⟨a', is_a', -⟩ := Accounts.switch_eq_some held
  exact h.next_free other a' is_a'

theorem Inv.updateEntry {l : Ledger} {m : ClientKeyManager} (h : Inv env known bound l m)
    (f : ClientKey → ClientKey) (flag : Bool → Bool) (id : Nat) (written : Bool)
    (keeps : ∀ e, (f e).id = e.id ∧ (f e).keyHash = e.keyHash ∧ (f e).disabled = flag e.disabled) :
    Inv env known bound
      ⟨l.live.switch id flag,
        if written && (m.inner.entries.lookup id).isSome then l.live.switch id flag else l.saved⟩
      (updateEntry f id written m).1 := by
  unfold ClientKeys.updateEntry
  cases found : m.inner.entries.lookup id with
  | none =>
    rw [Accounts.switch_of_none flag (h.represents.absent found)]
    simpa using h
  | some e =>
    obtain ⟨same_id, same_hash, switched⟩ := keeps e
    have saved := (h.insert found same_id same_hash switched).save written
    simpa using saved

theorem Accounts.update_eq_some {id i : Nat} {given : Option Account} {a : Account}
    (held : Function.update accounts id given i = some a) :
    i = id ∧ given = some a ∨ i ≠ id ∧ accounts i = some a := by
  by_cases here : i = id
  · rw [here, Function.update_self] at held
    exact .inl ⟨here, held⟩
  · rw [Function.update_of_ne here] at held
    exact .inr ⟨here, held⟩

theorem Kept.add (h : Kept known bound accounts) {id : Nat} {plain : String}
    (fresh : plain ∉ known) (le : id ≤ bound) :
    Kept (plain :: known) (bound + 1) (Function.update accounts id (some ⟨plain, false⟩)) := by
  refine ⟨?_, ?_, ?_⟩
  · intro i j a b is_a is_b same
    rcases Accounts.update_eq_some is_a with ⟨rfl, new⟩ | ⟨-, old⟩
    · cases new
      rcases Accounts.update_eq_some is_b with ⟨rfl, -⟩ | ⟨-, old'⟩
      · rfl
      · dsimp only at same
        rw [same] at fresh
        exact absurd (h.known j b old') fresh
    · rcases Accounts.update_eq_some is_b with ⟨rfl, new⟩ | ⟨-, old'⟩
      · cases new
        dsimp only at same
        rw [← same] at fresh
        exact absurd (h.known i a old) fresh
      · exact h.apart i j a b old old' same
  · intro i a is_a
    rcases Accounts.update_eq_some is_a with ⟨-, new⟩ | ⟨-, old⟩
    · cases new
      exact List.mem_cons_self
    · exact List.mem_cons_of_mem _ (h.known i a old)
  · intro i a is_a
    rcases Accounts.update_eq_some is_a with ⟨rfl, -⟩ | ⟨-, old⟩
    · exact Nat.lt_succ_of_le le
    · exact Nat.lt_succ_of_lt (h.below i a old)

theorem Kept.remove (h : Kept known bound accounts) (id : Nat) :
    Kept known bound (Function.update accounts id none) := by
  have old : ∀ i a, Function.update accounts id none i = some a → accounts i = some a := by
    intro i a held
    rcases Accounts.update_eq_some held with ⟨-, none_⟩ | ⟨-, old⟩
    · cases none_
    · exact old
  exact ⟨fun i j a b is_a is_b => h.apart i j a b (old i a is_a) (old j b is_b),
    fun i a is_a => h.known i a (old i a is_a), fun i a is_a => h.below i a (old i a is_a)⟩

theorem Represents.add (h : Represents env accounts entries) {id : Nat} {e : ClientKey}
    {a : Account} (same_id : e.id = id) (same : a.disabled = e.disabled)
    (hashed : Hashed env e.keyHash a.plain) :
    Represents env (Function.update accounts id (some a)) (entries.insert id e) := by
  refine ⟨?_, ?_⟩
  · intro i g there
    by_cases here : i = id
    · subst here
      rw [AList.lookup_insert] at there
      cases there
      exact ⟨same_id, a, Function.update_self _ _ _, same, hashed⟩
    · rw [AList.lookup_insert_ne here] at there
      obtain ⟨other_id, b, is_b, rest⟩ := h.present i g there
      exact ⟨other_id, b, (Function.update_of_ne here _ _).trans is_b, rest⟩
  · intro i b is_b
    rcases Accounts.update_eq_some is_b with ⟨rfl, -⟩ | ⟨ne, old⟩
    · exact ⟨_, AList.lookup_insert _⟩
    · rw [AList.lookup_insert_ne ne]
      exact h.complete i b old

theorem Represents.remove (h : Represents env accounts entries) (id : Nat) :
    Represents env (Function.update accounts id none) (entries.erase id) := by
  refine ⟨?_, ?_⟩
  · intro i g there
    by_cases here : i = id
    · subst here
      rw [AList.lookup_erase] at there
      cases there
    · rw [AList.lookup_erase_ne here] at there
      obtain ⟨same_id, a, is_a, rest⟩ := h.present i g there
      exact ⟨same_id, a, (Function.update_of_ne here _ _).trans is_a, rest⟩
  · intro i a is_a
    rcases Accounts.update_eq_some is_a with ⟨-, none_⟩ | ⟨ne, old⟩
    · cases none_
    · rw [AList.lookup_erase_ne ne]
      exact h.complete i a old

theorem Indexed.add {inner : Inner} (h : Indexed inner) {id next : Nat} {e : ClientKey}
    (free : inner.entries.lookup id = none)
    (new : ∀ i g, inner.entries.lookup i = some g → g.keyHash ≠ e.keyHash) :
    Indexed { inner with
      nextId := next
      byHash := inner.byHash.insert e.keyHash id
      entries := inner.entries.insert id e } := by
  intro hash i
  dsimp only
  by_cases is_new : hash = e.keyHash
  · subst is_new
    rw [AList.lookup_insert]
    by_cases here : i = id
    · subst here
      rw [AList.lookup_insert]
      exact ⟨fun _ => ⟨e, rfl, rfl⟩, fun _ => rfl⟩
    · rw [AList.lookup_insert_ne here]
      constructor
      · intro same
        exact absurd (Option.some.inj same).symm here
      · rintro ⟨g, there, same⟩
        exact absurd same (new i g there)
  · rw [AList.lookup_insert_ne is_new, h hash i]
    by_cases here : i = id
    · subst here
      rw [AList.lookup_insert, free]
      constructor
      · rintro ⟨g, there, -⟩
        cases there
      · rintro ⟨g, there, same⟩
        cases there
        exact absurd same.symm is_new
    · rw [AList.lookup_insert_ne here]

theorem Indexed.remove {inner : Inner} (h : Indexed inner) {id : Nat} {e : ClientKey}
    (found : inner.entries.lookup id = some e)
    (only : ∀ i g, inner.entries.lookup i = some g → g.keyHash = e.keyHash → i = id) :
    Indexed { inner with
      entries := inner.entries.erase id
      byHash := inner.byHash.erase e.keyHash } := by
  intro hash i
  dsimp only
  by_cases gone : hash = e.keyHash
  · subst gone
    rw [AList.lookup_erase]
    constructor
    · intro there
      cases there
    · rintro ⟨g, there, same⟩
      by_cases here : i = id
      · subst here
        rw [AList.lookup_erase] at there
        cases there
      · rw [AList.lookup_erase_ne here] at there
        exact absurd (only i g there same) here
  · rw [AList.lookup_erase_ne gone, h hash i]
    by_cases here : i = id
    · subst here
      rw [AList.lookup_erase, found]
      constructor
      · rintro ⟨g, there, same⟩
        cases there
        exact absurd same.symm gone
      · rintro ⟨g, there, -⟩
        cases there
    · rw [AList.lookup_erase_ne here]

theorem Inv.create (hashing : Hashing env) {l : Ledger} {m : ClientKeyManager}
    (h : Inv env known bound l m) (token name : String) (description : Option String)
    (now : String) (written : Bool) (fresh : clientKeyPrefix ++ token ∉ known)
    (room : bound + 1 < 2 ^ 64) :
    let live := Function.update l.live m.inner.nextId (some ⟨clientKeyPrefix ++ token, false⟩)
    Inv env ((clientKeyPrefix ++ token) :: known) (bound + 1)
      ⟨live, if written then live else l.saved⟩
      (create env token name description now written m).1 := by
  intro live
  have next : (m.inner.nextId + 1) % 2 ^ 64 = m.inner.nextId + 1 := by
    have le := h.next_le
    omega
  have no_entry : m.inner.entries.lookup m.inner.nextId = none := by
    cases there : m.inner.entries.lookup m.inner.nextId with
    | none => rfl
    | some e =>
      obtain ⟨-, a, held, -⟩ := h.represents.present _ e there
      exact absurd (h.next_free _ a held) (Nat.lt_irrefl _)
  have new_hash : ∀ id e, m.inner.entries.lookup id = some e →
      e.keyHash ≠ hashKey env (clientKeyPrefix ++ token) := by
    intro id e there same
    obtain ⟨-, a, held, -, hashed⟩ := h.represents.present id e there
    have plain : a.plain = clientKeyPrefix ++ token :=
      hashed.unique hashing (.inl same)
    rw [← plain] at fresh
    exact fresh (h.live.known id a held)
  let entry := (ClientKeys.create env token name description now written m).2
  suffices memory : Inv env ((clientKeyPrefix ++ token) :: known) (bound + 1) ⟨live, l.saved⟩
      { m with inner :=
        { m.inner with
          nextId := (m.inner.nextId + 1) % 2 ^ 64
          byHash := m.inner.byHash.insert entry.keyHash m.inner.nextId
          entries := m.inner.entries.insert m.inner.nextId entry } } from memory.save written
  refine ⟨h.live.add fresh h.next_le,
    h.saved.mono (fun key mem => List.mem_cons_of_mem _ mem) (Nat.le_succ _),
    h.represents.add rfl rfl (.inl rfl), h.indexed.add no_entry new_hash, h.describes, ?_, ?_⟩
  · intro i a is_a
    change i < (m.inner.nextId + 1) % 2 ^ 64
    rw [next]
    rcases Accounts.update_eq_some is_a with ⟨rfl, -⟩ | ⟨-, old⟩
    · exact Nat.lt_succ_self _
    · exact Nat.lt_succ_of_lt (h.next_free i a old)
  · change (m.inner.nextId + 1) % 2 ^ 64 ≤ bound + 1
    rw [next]
    exact Nat.succ_le_succ h.next_le

theorem Inv.delete (hashing : Hashing env) {l : Ledger} {m : ClientKeyManager}
    (h : Inv env known bound l m) (id : Nat) (written : Bool) :
    let live := Function.update l.live id none
    Inv env known bound
      ⟨live, if written && (m.inner.entries.lookup id).isSome then live else l.saved⟩
      (delete id written m).1 := by
  intro live
  unfold ClientKeys.delete
  cases found : m.inner.entries.lookup id with
  | none =>
    have same : live = l.live :=
      Function.update_eq_self_iff.mpr (h.represents.absent found).symm
    rw [same]
    simpa using h
  | some e =>
    have saved : Inv env known bound ⟨live, l.saved⟩
        { m with inner :=
          { m.inner with
            entries := m.inner.entries.erase id
            byHash := m.inner.byHash.erase e.keyHash } } := by
      refine ⟨h.live.remove id, h.saved, h.represents.remove id, h.indexed.remove found
        fun i g there same => h.represents.eq_of_hash hashing h.live there found same,
        h.describes, ?_, h.next_le⟩
      intro i a is_a
      rcases Accounts.update_eq_some is_a with ⟨-, none_⟩ | ⟨-, old⟩
      · cases none_
      · exact h.next_free i a old
    have written_down := saved.save written
    simpa using written_down

theorem matchesKey_iff {presented : String} {ck : ClientKey} :
    matchesKey env presented ck = true ↔
      ck.disabled = false ∧ Hashed env ck.keyHash presented := by
  simp [matchesKey, Hashed]

theorem scan_of_none {presented : String} {l : List (Sigma fun _ : Nat => ClientKey)}
    (none_matches : ∀ p ∈ l, matchesKey env presented p.2 = false) (scan : Scan) :
    l.foldl (scanEntry env presented) scan = scan := by
  induction l with
  | nil => rfl
  | cons p l ih =>
    have first : scanEntry env presented scan p = scan := by
      unfold scanEntry
      rw [none_matches p List.mem_cons_self]
      rfl
    rw [List.foldl_cons, first]
    exact ih fun q mem => none_matches q (List.mem_cons_of_mem _ mem)

theorem scan_of_only {presented : String} {l : List (Sigma fun _ : Nat => ClientKey)}
    {p : Sigma fun _ : Nat => ClientKey} (only : ∀ q ∈ l, matchesKey env presented q.2 = true →
      q = p) (hit : matchesKey env presented p.2 = true) (mem : p ∈ l) (scan : Scan) :
    l.foldl (scanEntry env presented) scan =
      ⟨some p.1, if p.2.keyHash = legacySha256Hash env presented then some p.2.keyHash
        else scan.legacyHitHash⟩ := by
  induction l generalizing scan with
  | nil => cases mem
  | cons q l ih =>
    have rest : ∀ r ∈ l, matchesKey env presented r.2 = true → r = p :=
      fun r later => only r (List.mem_cons_of_mem _ later)
    rw [List.foldl_cons]
    by_cases matched : matchesKey env presented q.2 = true
    · have same := only q List.mem_cons_self matched
      subst same
      have first : scanEntry env presented scan q =
          ⟨some q.1, if q.2.keyHash = legacySha256Hash env presented then some q.2.keyHash
            else scan.legacyHitHash⟩ := by
        unfold scanEntry
        rw [if_pos matched]
      by_cases again : q ∈ l
      · rw [ih rest again, first]
        dsimp only
        split_ifs
        · rfl
        · rfl
      · rw [first]
        refine scan_of_none (fun r later => ?_) _
        by_contra matched_r
        have same := rest r later (by simpa using matched_r)
        rw [same] at later
        exact again later
    · have first : scanEntry env presented scan q = scan := if_neg matched
      have later : p ∈ l := by
        rcases List.mem_cons.mp mem with rfl | later
        · exact absurd hit matched
        · exact later
      rw [first]
      exact ih rest later scan

theorem Inv.scan_account (hashing : Hashing env) {l : Ledger} {m : ClientKeyManager}
    (h : Inv env known bound l m) {presented : String} {id : Nat}
    (held : l.live id = some ⟨presented, false⟩) (order : VisitOrder) :
    ∃ e, m.inner.entries.lookup id = some e ∧ Hashed env e.keyHash presented ∧
      (order.visit m.inner.entries.entries).foldl (scanEntry env presented) {} =
        ⟨some id, if e.keyHash = legacySha256Hash env presented then some e.keyHash
          else none⟩ := by
  obtain ⟨e, found⟩ := h.represents.complete id _ held
  obtain ⟨-, a, is_a, disabled, hashed⟩ := h.represents.present id e found
  rw [held] at is_a
  cases is_a
  refine ⟨e, found, hashed, ?_⟩
  have perm := order.visit_perm m.inner.entries.entries
  refine scan_of_only (p := ⟨id, e⟩) ?_ (matchesKey_iff.mpr ⟨disabled.symm, hashed⟩) ?_ {}
  · rintro ⟨other, g⟩ mem matched
    have there : m.inner.entries.lookup other = some g :=
      AList.mem_lookup_iff.mpr (perm.mem_iff.mp mem)
    obtain ⟨-, b, is_b, -, hashed'⟩ := h.represents.present other g there
    have plain := hashed'.unique hashing (matchesKey_iff.mp matched).2
    have same := h.live.apart other id b _ is_b held plain
    subst same
    rw [found] at there
    cases there
    rfl
  · exact perm.mem_iff.mpr (AList.mem_lookup_iff.mp found)

theorem Inv.scan_stranger (hashing : Hashing env) {l : Ledger} {m : ClientKeyManager}
    (h : Inv env known bound l m) {presented : String}
    (stranger : ∀ id, l.live id ≠ some ⟨presented, false⟩) (order : VisitOrder) :
    (order.visit m.inner.entries.entries).foldl (scanEntry env presented) {} = {} := by
  refine scan_of_none ?_ {}
  rintro ⟨id, e⟩ mem
  by_contra matched
  have hit := matchesKey_iff.mp (by simpa using matched)
  have found : m.inner.entries.lookup id = some e :=
    AList.mem_lookup_iff.mpr ((order.visit_perm _).mem_iff.mp mem)
  obtain ⟨-, a, is_a, disabled, hashed⟩ := h.represents.present id e found
  have plain := hashed.unique hashing hit.2
  refine stranger id ?_
  rw [is_a, ← plain, ← hit.1, ← disabled]

theorem Inv.authenticates (hashing : Hashing env) {l : Ledger} {m : ClientKeyManager}
    (h : Inv env known bound l m)
    (prefixed : ∀ key ∈ known, Text.startsWith key clientKeyPrefix = true) (order : VisitOrder)
    (presented now : String) (written : Bool) (id : Nat) :
    (verifyAndTouch env order presented now written m).2 = some id ↔
      l.live id = some ⟨presented, false⟩ := by
  have answer : (verifyAndTouch env order presented now written m).2 =
      if Text.startsWith presented clientKeyPrefix then
        ((order.visit m.inner.entries.entries).foldl (scanEntry env presented) {}).hitId
      else none := by
    unfold verifyAndTouch
    by_cases begins : Text.startsWith presented clientKeyPrefix = true
    · rw [begins]
      simp only [Bool.not_true, Bool.false_eq_true, if_false, if_true]
      split
      · rename_i no_hit
        exact no_hit.symm
      · rename_i hit
        split
        · exact hit.symm
        · exact hit.symm
    · rw [Bool.eq_false_iff.mpr begins]
      rfl
  rw [answer]
  by_cases holder : ∃ i, l.live i = some ⟨presented, false⟩
  · obtain ⟨i, held⟩ := holder
    obtain ⟨e, -, -, scanned⟩ := h.scan_account hashing held order
    rw [if_pos (prefixed _ (h.live.known i _ held)), scanned]
    constructor
    · intro same
      cases same
      exact held
    · intro held'
      exact congrArg some (h.live.apart i id _ _ held held' rfl)
  · have stranger : ∀ i, l.live i ≠ some ⟨presented, false⟩ := fun i held => holder ⟨i, held⟩
    rw [h.scan_stranger hashing stranger order]
    constructor
    · intro same
      split_ifs at same
    · exact fun held => absurd held (stranger id)

theorem Indexed.rehash {inner : Inner} (h : Indexed inner) {id : Nat} {e f : ClientKey}
    (found : inner.entries.lookup id = some e) (changed : f.keyHash ≠ e.keyHash)
    (alone : ∀ i g, inner.entries.lookup i = some g →
      g.keyHash = e.keyHash ∨ g.keyHash = f.keyHash → i = id) :
    Indexed { inner with
      entries := inner.entries.insert id f
      byHash := (inner.byHash.erase e.keyHash).insert f.keyHash id } := by
  intro hash i
  dsimp only
  by_cases is_new : hash = f.keyHash
  · subst is_new
    rw [AList.lookup_insert]
    by_cases here : i = id
    · subst here
      rw [AList.lookup_insert]
      exact ⟨fun _ => ⟨f, rfl, rfl⟩, fun _ => rfl⟩
    · rw [AList.lookup_insert_ne here]
      constructor
      · intro same
        exact absurd (Option.some.inj same).symm here
      · rintro ⟨g, there, same⟩
        exact absurd (alone i g there (.inr same)) here
  · rw [AList.lookup_insert_ne is_new]
    by_cases gone : hash = e.keyHash
    · subst gone
      rw [AList.lookup_erase]
      constructor
      · intro there
        cases there
      · rintro ⟨g, there, same⟩
        by_cases here : i = id
        · subst here
          rw [AList.lookup_insert] at there
          cases there
          exact absurd same changed
        · rw [AList.lookup_insert_ne here] at there
          exact absurd (alone i g there (.inl same)) here
    · rw [AList.lookup_erase_ne gone, h hash i]
      by_cases here : i = id
      · subst here
        rw [AList.lookup_insert, found]
        constructor
        · rintro ⟨g, there, same⟩
          cases there
          exact absurd same.symm gone
        · rintro ⟨g, there, same⟩
          cases there
          exact absurd same.symm is_new
      · rw [AList.lookup_insert_ne here]

theorem Inv.verifyAndTouch (hashing : Hashing env) {l : Ledger} {m : ClientKeyManager}
    (h : Inv env known bound l m) (order : VisitOrder) (presented now : String)
    (written : Bool) :
    Inv env known bound
      ⟨l.live,
        if written && Text.startsWith presented clientKeyPrefix &&
          ((order.visit m.inner.entries.entries).foldl (scanEntry env presented)
            {}).legacyHitHash.isSome then l.live
        else l.saved⟩
      (ClientKeys.verifyAndTouch env order presented now written m).1 := by
  unfold ClientKeys.verifyAndTouch
  by_cases begins : Text.startsWith presented clientKeyPrefix = true
  · rw [begins]
    simp only [Bool.not_true, Bool.false_eq_true, if_false, Bool.and_true]
    by_cases holder : ∃ i, l.live i = some ⟨presented, false⟩
    · obtain ⟨id, held⟩ := holder
      obtain ⟨e, found, hashed, scanned⟩ := h.scan_account hashing held order
      rw [scanned]
      simp only [found]
      by_cases legacy : e.keyHash = legacySha256Hash env presented
      · simp only [if_pos legacy, Option.isSome_some, Bool.and_true]
        let f := touch env presented now true e
        have changed : f.keyHash ≠ e.keyHash := by
          intro same
          exact hashing.disjoint presented presented (same.trans legacy)
        have rehashed : ∀ plain, Hashed env e.keyHash plain →
            Hashed env f.keyHash plain := by
          intro plain of_plain
          rw [of_plain.unique hashing hashed]
          exact .inl rfl
        have alone : ∀ i g, m.inner.entries.lookup i = some g →
            g.keyHash = e.keyHash ∨ g.keyHash = f.keyHash → i = id := by
          intro i g there same
          obtain ⟨-, a, is_a, -, of_a⟩ := h.represents.present i g there
          refine h.live.apart i id a _ is_a held ?_
          rcases same with old | new
          · rw [old] at of_a
            exact of_a.unique hashing hashed
          · rw [new] at of_a
            exact of_a.unique hashing (.inl rfl)
        have represents : Represents env (l.live.switch id fun b => b)
            (m.inner.entries.insert id f) := h.represents.insert found rfl rehashed rfl
        rw [Accounts.switch_same] at represents
        have memory : Inv env known bound ⟨l.live, l.saved⟩
            { m with inner :=
              { m.inner with
                entries := m.inner.entries.insert id f
                byHash := (m.inner.byHash.erase e.keyHash).insert f.keyHash id } } :=
          ⟨h.live, h.saved, represents, h.indexed.rehash found changed alone, h.describes,
            h.next_free, h.next_le⟩
        exact memory.save written
      · simp only [if_neg legacy, Option.isSome_none, Bool.and_false, Bool.false_eq_true, if_false]
        let f := touch env presented now false e
        have touched : Inv env known bound ⟨l.live.switch id fun b => b, l.saved⟩
            { m with inner := { m.inner with entries := m.inner.entries.insert id f } } :=
          h.insert found rfl rfl rfl
        rw [Accounts.switch_same] at touched
        exact touched
    · have stranger : ∀ i, l.live i ≠ some ⟨presented, false⟩ := fun i held => holder ⟨i, held⟩
      rw [h.scan_stranger hashing stranger order]
      simpa using h
  · rw [Bool.eq_false_iff.mpr begins]
    simpa using h

@[simp] theorem readEntry_id (ck : ClientKey) : (readEntry env ck).id = ck.id := by
  unfold readEntry scrub
  split_ifs <;> rfl

@[simp] theorem readEntry_disabled (ck : ClientKey) : (readEntry env ck).disabled = ck.disabled := by
  unfold readEntry scrub
  split_ifs <;> rfl

theorem StandsFor.readEntry {ck : ClientKey} {plain : String} (stands : StandsFor env ck plain) :
    Hashed env (readEntry env ck).keyHash plain := by
  unfold StandsFor at stands
  unfold ClientKeys.readEntry ClientKeys.scrub
  dsimp only
  by_cases empty : ck.key = ""
  · rw [if_pos empty] at stands
    rw [if_pos (String.isEmpty_iff.mpr empty)]
    exact stands
  · rw [if_neg empty] at stands
    rw [if_neg (fun is_empty => empty (String.isEmpty_iff.mp is_empty))]
    exact .inl (by rw [stands])

/-- What the loop over the file has made of the entries read so far. -/
private structure Loaded (env : Env) (done : List ClientKey) (loop : LoadLoop) : Prop where
  byId : ∀ id e, loop.byId.lookup id = some e ↔ ∃ ck ∈ done, ck.id = id ∧ readEntry env ck = e
  byHash : ∀ hash id, loop.byHash.lookup hash = some id ↔
    ∃ ck ∈ done, ck.id = id ∧ (readEntry env ck).keyHash = hash
  maxId : ∀ ck ∈ done, ck.id ≤ loop.maxId
  reached : loop.maxId = 0 ∨ ∃ ck ∈ done, ck.id = loop.maxId
  rewrite : loop.needsRewrite = done.any fun ck => !ck.key.isEmpty

private theorem Loaded.step {done : List ClientKey} {loop : LoadLoop}
    (h : Loaded env done loop) {ck : ClientKey} (new_id : ∀ old ∈ done, old.id ≠ ck.id)
    (new_hash : ∀ old ∈ done, (readEntry env old).keyHash ≠ (readEntry env ck).keyHash)
    (nonempty : (readEntry env ck).keyHash ≠ "") :
    Loaded env (done ++ [ck]) (loadEntry env loop ck) := by
  have hashed : (loadEntry env loop ck).byHash =
      loop.byHash.insert (readEntry env ck).keyHash ck.id :=
    if_neg fun empty => nonempty (String.isEmpty_iff.mp empty)
  refine ⟨?_, ?_, ?_, ?_, ?_⟩
  · intro id e
    change (loop.byId.insert ck.id (readEntry env ck)).lookup id = some e ↔ _
    simp only [List.mem_append, List.mem_singleton, or_and_right, exists_or, exists_eq_left]
    by_cases here : id = ck.id
    · subst here
      rw [AList.lookup_insert, Option.some.injEq]
      constructor
      · intro same
        exact .inr ⟨rfl, same⟩
      · rintro (⟨old, mem, same, -⟩ | ⟨-, same⟩)
        · exact absurd same (new_id old mem)
        · exact same
    · rw [AList.lookup_insert_ne here, h.byId]
      exact ⟨.inl, fun either => either.resolve_right fun last => here last.1.symm⟩
  · intro hash id
    rw [hashed]
    simp only [List.mem_append, List.mem_singleton, or_and_right, exists_or, exists_eq_left]
    by_cases here : hash = (readEntry env ck).keyHash
    · subst here
      rw [AList.lookup_insert, Option.some.injEq]
      constructor
      · intro same
        exact .inr ⟨same, rfl⟩
      · rintro (⟨old, mem, -, same⟩ | ⟨same, -⟩)
        · exact absurd same (new_hash old mem)
        · exact same
    · rw [AList.lookup_insert_ne here, h.byHash]
      exact ⟨.inl, fun either => either.resolve_right fun last => here last.2.symm⟩
  · intro other mem
    change other.id ≤ max loop.maxId ck.id
    rcases List.mem_append.mp mem with old | last
    · exact (h.maxId other old).trans (Nat.le_max_left _ _)
    · rw [List.mem_singleton.mp last]
      exact Nat.le_max_right _ _
  · change max loop.maxId ck.id = 0 ∨ ∃ other ∈ done ++ [ck], other.id = max loop.maxId ck.id
    rcases Nat.le_total loop.maxId ck.id with le | le
    · rw [Nat.max_eq_right le]
      exact .inr ⟨ck, List.mem_append_right _ (List.mem_singleton.mpr rfl), rfl⟩
    · rw [Nat.max_eq_left le]
      rcases h.reached with zero | ⟨old, mem, same⟩
      · exact .inl zero
      · exact .inr ⟨old, List.mem_append_left _ mem, same⟩
  · change (loop.needsRewrite || !ck.key.isEmpty) = _
    rw [h.rewrite, List.any_append]
    simp

private theorem loaded_foldl (file : List ClientKey) (distinct : (file.map (·.id)).Nodup)
    (nonempty : ∀ ck ∈ file, (readEntry env ck).keyHash ≠ "")
    (hashes : ∀ ck ∈ file, ∀ ck' ∈ file,
      (readEntry env ck).keyHash = (readEntry env ck').keyHash → ck.id = ck'.id) :
    Loaded env file (file.foldl (loadEntry env) {}) := by
  induction file using List.reverseRecOn with
  | nil =>
    refine ⟨?_, ?_, ?_, .inl rfl, rfl⟩
    · intro id e
      simp
    · intro hash id
      simp
    · intro ck mem
      cases mem
  | append_singleton file ck ih =>
    rw [List.map_append, List.nodup_append] at distinct
    obtain ⟨distinct, -, apart⟩ := distinct
    have mem_last : ck ∈ file ++ [ck] := List.mem_append_right _ (List.mem_singleton.mpr rfl)
    have new_id : ∀ old ∈ file, old.id ≠ ck.id := by
      intro old mem
      exact apart _ (List.mem_map_of_mem mem) _ (List.mem_singleton.mpr rfl)
    have loaded := ih distinct (fun old mem => nonempty old (List.mem_append_left _ mem))
      fun old mem old' mem' => hashes old (List.mem_append_left _ mem) old'
        (List.mem_append_left _ mem')
    rw [List.foldl_append]
    refine loaded.step new_id ?_ (nonempty ck mem_last)
    intro old mem same
    exact new_id old mem (hashes old (List.mem_append_left _ mem) ck mem_last same)

/-- Loading a file gives its accounts back. -/
theorem inv_load (hashing : Hashing env) {file : Option (List ClientKey)}
    (kept : Kept known bound accounts) (describes : Describes env accounts (file.getD []))
    (positive : 0 < bound) (room : bound < 2 ^ 64) (written : Bool) :
    Inv env known bound ⟨accounts, accounts⟩ (load env file written) := by
  have nonempty : ∀ ck ∈ file.getD [], (readEntry env ck).keyHash ≠ "" := by
    intro ck mem
    obtain ⟨a, -, -, stands⟩ := describes.present ck mem
    exact stands.readEntry.ne_empty hashing
  have hashes : ∀ ck ∈ file.getD [], ∀ ck' ∈ file.getD [],
      (readEntry env ck).keyHash = (readEntry env ck').keyHash → ck.id = ck'.id := by
    intro ck mem ck' mem' same
    obtain ⟨a, is_a, -, stands⟩ := describes.present ck mem
    obtain ⟨a', is_a', -, stands'⟩ := describes.present ck' mem'
    have hashed := stands.readEntry
    rw [same] at hashed
    exact kept.apart _ _ a a' is_a is_a' (hashed.unique hashing stands'.readEntry)
  have loaded := loaded_foldl (file.getD []) describes.distinct nonempty hashes
  have le_bound : ((file.getD []).foldl (loadEntry env) {}).maxId + 1 ≤ bound := by
    rcases loaded.reached with zero | ⟨ck, mem, same⟩
    · rw [zero]
      exact positive
    · obtain ⟨a, is_a, -⟩ := describes.present ck mem
      rw [← same]
      exact kept.below _ a is_a
  have next : (((file.getD []).foldl (loadEntry env) {}).maxId + 1) % 2 ^ 64 =
      ((file.getD []).foldl (loadEntry env) {}).maxId + 1 :=
    Nat.mod_eq_of_lt (lt_of_le_of_lt le_bound room)
  have memory : Inv env known bound ⟨accounts, accounts⟩
      { inner :=
          { entries := ((file.getD []).foldl (loadEntry env) {}).byId
            byHash := ((file.getD []).foldl (loadEntry env) {}).byHash
            nextId := (((file.getD []).foldl (loadEntry env) {}).maxId + 1) % 2 ^ 64
            dirtyUsage := false }
        file := file } := by
    refine ⟨kept, kept, ⟨?_, ?_⟩, ?_, describes, ?_, ?_⟩
    · intro id e found
      obtain ⟨ck, mem, rfl, rfl⟩ := (loaded.byId id e).mp found
      obtain ⟨a, is_a, disabled, stands⟩ := describes.present ck mem
      exact ⟨readEntry_id ck, a, is_a, disabled.trans (readEntry_disabled ck).symm, stands.readEntry⟩
    · intro id a held
      obtain ⟨ck, mem, same⟩ := describes.complete id a held
      exact ⟨_, (loaded.byId id _).mpr ⟨ck, mem, same, rfl⟩⟩
    · intro hash id
      rw [loaded.byHash]
      constructor
      · rintro ⟨ck, mem, same, hashed⟩
        exact ⟨_, (loaded.byId id _).mpr ⟨ck, mem, same, rfl⟩, hashed⟩
      · rintro ⟨e, found, hashed⟩
        obtain ⟨ck, mem, same, rfl⟩ := (loaded.byId id e).mp found
        exact ⟨ck, mem, same, hashed⟩
    · intro id a held
      obtain ⟨ck, mem, rfl⟩ := describes.complete id a held
      dsimp only
      rw [next]
      exact Nat.lt_succ_of_le (loaded.maxId ck mem)
    · dsimp only
      rw [next]
      exact le_bound
  unfold load
  dsimp only
  split_ifs
  · have saved := memory.save written
    simpa using saved
  · exact memory

def Op.created : Op → List String
  | .create token _ _ _ _ => [clientKeyPrefix ++ token]
  | _ => []

theorem Inv.run (hashing : Hashing env) {l : Ledger} {m : ClientKeyManager}
    (h : Inv env known bound l m) (op : Op) (positive : 0 < bound)
    (fresh : ∀ key ∈ op.created, key ∉ known) (room : bound + op.created.length < 2 ^ 64) :
    Inv env (op.created ++ known) (bound + op.created.length) (l.after env m op)
      (run env m op) := by
  cases op with
  | create token name description now written =>
    exact h.create hashing token name description now written
      (fresh _ (List.mem_singleton.mpr rfl)) room
  | delete id written => exact h.delete hashing id written
  | setDisabled id disabled written =>
    exact h.updateEntry _ (fun _ => disabled) id written fun e => ⟨rfl, rfl, rfl⟩
  | updateMeta id name description written =>
    have updated := h.updateEntry
      (fun e =>
        { e with name := name.getD e.name, description := description.getD e.description })
      (fun b => b) id written fun e => ⟨rfl, rfl, rfl⟩
    rw [Accounts.switch_same] at updated
    exact updated
  | resetStats id written =>
    have updated := h.updateEntry
      (fun e =>
        { e with
          totalCalls := 0
          totalInputTokens := 0
          totalOutputTokens := 0
          totalCacheCreationTokens := 0
          totalCacheReadTokens := 0
          totalCredits := 0 })
      (fun b => b) id written fun e => ⟨rfl, rfl, rfl⟩
    rw [Accounts.switch_same] at updated
    exact updated
  | verifyAndTouch order presented now written =>
    exact h.verifyAndTouch hashing order presented now written
  | recordUsage id input output cacheCreation cacheRead credits now =>
    have marked : ∀ m : ClientKeyManager, Inv env known bound l m →
        Inv env known bound l { m with inner := { m.inner with dirtyUsage := true } } :=
      fun m h => ⟨h.live, h.saved, h.represents, h.indexed, h.describes, h.next_free, h.next_le⟩
    change Inv env known bound ⟨l.live, l.saved⟩
      (recordUsage env id input output cacheCreation cacheRead credits now m)
    unfold recordUsage
    cases found : m.inner.entries.lookup id with
    | none => exact marked m h
    | some e =>
      let f := addUsage env input output cacheCreation cacheRead credits now e
      have used : Inv env known bound ⟨l.live.switch id fun b => b, l.saved⟩
          { m with inner := { m.inner with entries := m.inner.entries.insert id f } } :=
        h.insert found rfl rfl rfl
      rw [Accounts.switch_same] at used
      exact marked _ used
  | flush written =>
    change Inv env known bound
      ⟨l.live, if written && m.inner.dirtyUsage then l.live else l.saved⟩ (flushToDisk written m)
    unfold flushToDisk
    cases m.inner.dirtyUsage with
    | true =>
      rw [Bool.and_true]
      exact h.save written
    | false =>
      rw [Bool.and_false]
      exact h
  | restart written =>
    have loaded := inv_load hashing h.saved h.describes positive room written
    change Inv env known bound
      ⟨l.saved, if writes env m (.restart written) then l.saved else l.saved⟩ _
    rw [ite_self]
    exact loaded

/-- A file with the plaintexts its entries stand for: they carry the prefix and are distinct. -/
structure KeyFile (env : Env) (rows : List (ClientKey × String)) : Prop where
  stands : ∀ r ∈ rows, StandsFor env r.1 r.2
  prefixed : ∀ r ∈ rows, Text.startsWith r.2 clientKeyPrefix = true
  distinct : (rows.map (·.2)).Nodup

def accountsOf (rows : List (ClientKey × String)) : Accounts := fun id =>
  (rows.find? fun r => r.1.id = id).map fun r => ⟨r.2, r.1.disabled⟩

theorem accountsOf_iff {rows : List (ClientKey × String)} (ids : (rows.map (·.1.id)).Nodup)
    {id : Nat} {a : Account} :
    accountsOf rows id = some a ↔ ∃ r ∈ rows, r.1.id = id ∧ ⟨r.2, r.1.disabled⟩ = a := by
  unfold accountsOf
  rw [Option.map_eq_some_iff]
  constructor
  · rintro ⟨r, found, same⟩
    exact ⟨r, List.mem_of_find?_eq_some found, by simpa using List.find?_some found, same⟩
  · rintro ⟨r, mem, same_id, same⟩
    refine ⟨r, ?_, same⟩
    cases found : rows.find? (fun r => r.1.id = id) with
    | none => exact absurd same_id (by simpa using List.find?_eq_none.mp found r mem)
    | some other =>
      have other_id : other.1.id = id := by simpa using List.find?_some found
      exact congrArg some (List.inj_on_of_nodup_map ids (List.mem_of_find?_eq_some found) mem
        (other_id.trans same_id.symm))

theorem KeyFile.kept {rows : List (ClientKey × String)} (h : KeyFile env rows)
    (ids : (rows.map (·.1.id)).Nodup) {bound : Nat} (below : ∀ r ∈ rows, r.1.id < bound) :
    Kept (rows.map (·.2)) bound (accountsOf rows) := by
  refine ⟨?_, ?_, ?_⟩
  · intro id id' a a' held held' same
    obtain ⟨r, mem, rfl, rfl⟩ := (accountsOf_iff ids).mp held
    obtain ⟨r', mem', rfl, rfl⟩ := (accountsOf_iff ids).mp held'
    rw [List.inj_on_of_nodup_map h.distinct mem mem' same]
  · intro id a held
    obtain ⟨r, mem, rfl, rfl⟩ := (accountsOf_iff ids).mp held
    exact List.mem_map_of_mem mem
  · intro id a held
    obtain ⟨r, mem, rfl, rfl⟩ := (accountsOf_iff ids).mp held
    exact below r mem

theorem KeyFile.describes {rows : List (ClientKey × String)} (h : KeyFile env rows)
    (ids : (rows.map (·.1.id)).Nodup) :
    Describes env (accountsOf rows) (rows.map (·.1)) := by
  refine ⟨?_, ?_, ?_⟩
  · rw [List.map_map]
    exact ids
  · intro ck mem
    obtain ⟨r, mem_r, rfl⟩ := List.mem_map.mp mem
    exact ⟨_, (accountsOf_iff ids).mpr ⟨r, mem_r, rfl, rfl⟩, rfl, h.stands r mem_r⟩
  · intro id a held
    obtain ⟨r, mem, rfl, -⟩ := (accountsOf_iff ids).mp held
    exact ⟨r.1, List.mem_map_of_mem mem, rfl⟩

def createdKeys (trace : List (ClientKeyManager × Op)) : List String :=
  trace.flatMap fun p => p.2.created

theorem startsWith_prefix (token : String) :
    Text.startsWith (clientKeyPrefix ++ token) clientKeyPrefix = true := by
  unfold Text.startsWith
  rw [decide_eq_true_iff, String.toList_append]
  exact List.prefix_append _ _

abbrev Reaches (env : Env) (start : ClientKeyManager)
    (trace : List (ClientKeyManager × Op)) (m : ClientKeyManager) : Prop :=
  Run (fun m op => some (run env m op)) start trace m

/-- Ids of the file leave room below 2^64 for the keys to be made. -/
def Room (rows : List (ClientKey × String)) (count : Nat) : Prop :=
  ∀ id ∈ 0 :: rows.map (·.1.id), id + 1 + count < 2 ^ 64

instance (rows : List (ClientKey × String)) (count : Nat) : Decidable (Room rows count) :=
  inferInstanceAs (Decidable (∀ id ∈ 0 :: rows.map (·.1.id), id + 1 + count < 2 ^ 64))

theorem inv_of_run (hashing : Hashing env) {rows : List (ClientKey × String)}
    {file : Option (List ClientKey)} (keys : KeyFile env rows)
    (reads : file.getD [] = rows.map (·.1)) (ids : (rows.map (·.1.id)).Nodup) {written : Bool}
    {trace : List (ClientKeyManager × Op)} {m : ClientKeyManager}
    (reached : Reaches env (load env file written) trace m)
    (fresh : (createdKeys trace ++ rows.map (·.2)).Nodup) {count : Nat} (room : Room rows count)
    (few : (createdKeys trace).length ≤ count) :
    Inv env (createdKeys trace ++ rows.map (·.2))
      (2 ^ 64 - 1 - count + (createdKeys trace).length)
      (ledger env (accountsOf rows) trace) m := by
  have start := room 0 List.mem_cons_self
  induction reached with
  | nil =>
    have kept : Kept (rows.map (·.2)) (2 ^ 64 - 1 - count) (accountsOf rows) := by
      refine keys.kept ids fun r mem => ?_
      have below := room r.1.id (List.mem_cons_of_mem _ (List.mem_map_of_mem mem))
      omega
    refine inv_load hashing kept ?_ (by omega) (by omega) written
    rw [reads]
    exact keys.describes ids
  | @cons trace s s' op _ taken ih =>
    cases taken
    have split : createdKeys ((s, op) :: trace) = op.created ++ createdKeys trace := rfl
    rw [split] at fresh few ⊢
    rw [List.length_append] at few
    rw [List.append_assoc] at fresh
    obtain ⟨-, fresh_before, apart⟩ := List.nodup_append.mp fresh
    have before := ih fresh_before (by omega)
    have new : ∀ key ∈ op.created, key ∉ createdKeys trace ++ rows.map (·.2) :=
      fun key mem known => apart key mem key known rfl
    have after := before.run hashing op (by omega) new (by omega)
    rw [List.append_assoc, List.length_append, Nat.add_comm op.created.length, ← Nat.add_assoc]
    exact after

/-- A presented key authenticates as the enabled account of that plaintext, if there is one; the
entries are those accounts, and the index maps the stored hashes to them. -/
structure Authenticates (env : Env) (accounts : Accounts) (m : ClientKeyManager) :
    Prop where
  verifies : ∀ order presented now written id,
    (verifyAndTouch env order presented now written m).2 = some id ↔
      accounts id = some ⟨presented, false⟩
  entries : ∀ id, (m.inner.entries.lookup id).map (·.disabled) = (accounts id).map (·.disabled)
  indexed : Indexed m.inner

/-- Along every run, restarts included, a client key authenticates exactly as the account it was
created for, as that account stands; a restart goes back to the accounts last written. -/
theorem authenticates_run (env : Env) (hashing : Hashing env)
    (rows : List (ClientKey × String)) (file : Option (List ClientKey))
    (keys : KeyFile env rows) (reads : file.getD [] = rows.map (·.1))
    (ids : (rows.map (·.1.id)).Nodup) (written : Bool) (trace : List (ClientKeyManager × Op))
    (m : ClientKeyManager) (reached : Reaches env (load env file written) trace m)
    (fresh : (createdKeys trace ++ rows.map (·.2)).Nodup)
    (room : Room rows (createdKeys trace).length) :
    Authenticates env (ledger env (accountsOf rows) trace).live m := by
  have inv := inv_of_run hashing keys reads ids reached fresh room le_rfl
  have prefixed : ∀ key ∈ createdKeys trace ++ rows.map (·.2),
      Text.startsWith key clientKeyPrefix = true := by
    intro key mem
    rcases List.mem_append.mp mem with made | given
    · obtain ⟨p, -, mem_p⟩ := List.mem_flatMap.mp made
      cases op : p.2 with
      | create token name description now written =>
        rw [op] at mem_p
        rw [List.mem_singleton.mp mem_p]
        exact startsWith_prefix token
      | _ =>
        rw [op] at mem_p
        cases mem_p
    · obtain ⟨r, mem_r, rfl⟩ := List.mem_map.mp given
      exact keys.prefixed r mem_r
  refine ⟨?_, ?_, inv.indexed⟩
  · intro order presented now written id
    exact inv.authenticates hashing prefixed order presented now written id
  · intro id
    cases found : m.inner.entries.lookup id with
    | none =>
      rw [inv.represents.absent found]
      rfl
    | some e =>
      obtain ⟨-, a, held, disabled, -⟩ := inv.represents.present id e found
      rw [held]
      exact congrArg some disabled.symm

private def fromTable (table : List (String × String)) (text : String) : String :=
  (table.lookup text).getD ("?" ++ text)

private theorem mem_of_lookup {table : List (String × String)} {text digest : String}
    (found : table.lookup text = some digest) : (text, digest) ∈ table := by
  obtain ⟨front, back, rfl, -⟩ := List.lookup_eq_some_iff.mp found
  exact List.mem_append_right _ List.mem_cons_self

private def firstByte (text : String) : Option UInt8 := text.toByteArray.data.toList.head?

private theorem firstByte_append {front : String} {byte : UInt8} (first : firstByte front = some byte)
    (back : String) : firstByte (front ++ back) = some byte := by
  rw [firstByte, String.toByteArray_append, ByteArray.data_append, Array.toList_append,
    List.head?_append, ← firstByte, first, Option.some_or]

private theorem firstByte_marked (text : String) : firstByte ("?" ++ text) = some 63 :=
  firstByte_append (by decide) text

private theorem fromTable_injective {table : List (String × String)}
    (apart : ∀ p ∈ table, ∀ q ∈ table, p.2 = q.2 → p.1 = q.1)
    (unmarked : ∀ p ∈ table, firstByte p.2 ≠ some 63) :
    Function.Injective (fromTable table) := by
  intro a b same
  unfold fromTable at same
  cases is_a : table.lookup a with
  | some x =>
    have mem_a : (a, x) ∈ table := mem_of_lookup is_a
    cases is_b : table.lookup b with
    | some y =>
      rw [is_a, is_b] at same
      exact apart _ mem_a _ (mem_of_lookup is_b) same
    | none =>
      rw [is_a, is_b] at same
      have marked : x = "?" ++ b := same
      exact absurd (marked ▸ firstByte_marked b) (unmarked _ mem_a)
  | none =>
    cases is_b : table.lookup b with
    | some y =>
      rw [is_a, is_b] at same
      have marked : "?" ++ a = y := same
      exact absurd (marked ▸ firstByte_marked a) (unmarked _ (mem_of_lookup is_b))
    | none =>
      rw [is_a, is_b] at same
      have texts := congrArg String.toList same
      simp only [Option.getD_none, String.toList_append] at texts
      exact String.toList_injective (List.append_cancel_left texts)

/-- The digests of three keys, under the secret `secret`. -/
private def sampleEnv : Env where
  addF64 := fun _ added => added
  rereadF64 := id
  hmac := fromTable [
    ("csk_alpha", "1694ff65e99a0430526dc02a92015c74d2a7638e26cc053d2a3be39e14f768d7"),
    ("csk_beta", "019393b39561626fa7d9d30eae30569f13f85680711eaadd6c78911185ab6f4d"),
    ("csk_gamma", "394ec21e993e59ea864a4818fb0705e7d42bfb2cf2b6570d6988010fba349cf6")]
  sha256 := fromTable [
    ("csk_alpha", "4c58cc3c0f3fced44339031fdf3989dcae1fa2554a8f10a88c2902bea59d1555"),
    ("csk_beta", "9bbba4edc65dcae1964818617656f1686001042e305efed2561f278a19daebaf"),
    ("csk_gamma", "2c5b06554b3944e9bf376817a17ab1587d08175853529811c4c8d6a9cafeee07")]

private theorem hashing_sample : Hashing sampleEnv := by
  have not_keyed : ∀ a, firstByte (legacySha256Hash sampleEnv a) ≠ some 104 := by
    intro a
    change firstByte (fromTable _ a) ≠ some 104
    unfold fromTable
    cases found : List.lookup a _ with
    | none =>
      rw [Option.getD_none, firstByte_marked]
      decide
    | some x =>
      have mem := mem_of_lookup found
      revert mem
      simp only [List.mem_cons, Prod.mk.injEq, List.not_mem_nil, or_false, Option.getD_some]
      rintro (⟨-, rfl⟩ | ⟨-, rfl⟩ | ⟨-, rfl⟩)
      · decide
      · decide
      · decide
  refine ⟨?_, fromTable_injective (by decide) (by decide), ?_, ?_⟩
  · intro a b same
    have texts := congrArg String.toList same
    simp only [hashKey, String.toList_append] at texts
    exact fromTable_injective (by decide) (by decide)
      (String.toList_injective (List.append_cancel_left texts))
  · intro a b same
    refine not_keyed b ?_
    rw [← same, hashKey, String.append_assoc]
    exact firstByte_append (by decide) _
  · intro a empty
    change fromTable _ a = "" at empty
    unfold fromTable at empty
    cases found : List.lookup a _ with
    | none =>
      rw [found] at empty
      have marked := firstByte_marked a
      rw [show "?" ++ a = "" from empty] at marked
      cases marked
    | some x =>
      rw [found] at empty
      have mem := mem_of_lookup found
      rw [show x = "" from empty] at mem
      revert mem
      simp only [List.mem_cons, Prod.mk.injEq, List.not_mem_nil, or_false]
      rintro (⟨-, eq⟩ | ⟨-, eq⟩ | ⟨-, eq⟩)
      · exact absurd eq (by decide)
      · exact absurd eq (by decide)
      · exact absurd eq (by decide)

private def keyedEntry (id : Nat) (key : String) : ClientKey × String :=
  ({ id := id, keyHash := hashKey sampleEnv key, name := "client",
     createdAt := "2026-01-01T00:00:00Z" }, key)

private theorem keyFile_sample {rows : List (ClientKey × String)}
    (keyed : ∀ r ∈ rows, r.1.key = "" ∧ r.1.keyHash = hashKey sampleEnv r.2 ∧
      Text.startsWith r.2 clientKeyPrefix = true)
    (distinct : (rows.map (·.2)).Nodup) : KeyFile sampleEnv rows := by
  refine ⟨?_, fun r mem => (keyed r mem).2.2, distinct⟩
  intro r mem
  obtain ⟨scrubbed, hash, -⟩ := keyed r mem
  exact (if_pos scrubbed).mpr (.inl hash)

def inOrder : VisitOrder := ⟨fun l => l, fun l => List.Perm.refl l⟩

/-- The accounts as the operations leave them, restarts or not. -/
private def history (start : Accounts) (trace : List (ClientKeyManager × Op)) : Accounts :=
  trace.foldr (fun p accounts => accounts.after p.1.inner.nextId p.2) start

/-- The index does not survive a file with one id twice; a key whose deletion was not written comes
back with a restart; and after the last id the counter runs into entries. -/
theorem accounts_not_kept :
    (¬ ∀ (env : Env) (rows : List (ClientKey × String)) (file : Option (List ClientKey)),
      Hashing env → KeyFile env rows → file.getD [] = rows.map (·.1) → Room rows 0 →
        Indexed (load env file true).inner) ∧
    (¬ ∀ (env : Env) (rows : List (ClientKey × String)) (file : Option (List ClientKey))
      (trace : List (ClientKeyManager × Op)) (m : ClientKeyManager),
      Hashing env → KeyFile env rows → file.getD [] = rows.map (·.1) →
        (rows.map (·.1.id)).Nodup → Reaches env (load env file true) trace m →
        (createdKeys trace ++ rows.map (·.2)).Nodup → Room rows (createdKeys trace).length →
        Authenticates env (history (accountsOf rows) trace) m) ∧
    (¬ ∀ (env : Env) (rows : List (ClientKey × String)) (file : Option (List ClientKey))
      (trace : List (ClientKeyManager × Op)) (m : ClientKeyManager),
      Hashing env → KeyFile env rows → file.getD [] = rows.map (·.1) →
        (rows.map (·.1.id)).Nodup → Reaches env (load env file true) trace m →
        (createdKeys trace ++ rows.map (·.2)).Nodup →
        Authenticates env (ledger env (accountsOf rows) trace).live m) := by
  refine ⟨?_, ?_, ?_⟩
  · intro claim
    have indexed := claim sampleEnv [keyedEntry 1 "csk_alpha", keyedEntry 1 "csk_beta"] (some _)
      hashing_sample (keyFile_sample (by decide +kernel) (by decide +kernel)) rfl
      (by decide +kernel)
    obtain ⟨e, found, hash⟩ := (indexed (hashKey sampleEnv "csk_alpha") 1).mp
      (by decide +kernel)
    have stored : (some e).map (·.keyHash) = some (hashKey sampleEnv "csk_beta") := by
      rw [← found]
      decide +kernel
    rw [show e.keyHash = _ from Option.some.inj stored] at hash
    exact absurd hash (by decide +kernel)
  · intro claim
    have kept := claim sampleEnv [keyedEntry 1 "csk_alpha"] (some _) _ _ hashing_sample
      (keyFile_sample (by decide +kernel) (by decide +kernel)) rfl (by decide +kernel)
      (.cons (a := .restart true) (.cons (a := .delete 1 false) .nil rfl) rfl)
      (by decide +kernel) (by decide +kernel)
    have back := (kept.verifies inOrder "csk_alpha" "2026-01-02T00:00:00Z" true 1).mp
      (by decide +kernel)
    cases back
  · intro claim
    have kept := claim sampleEnv
      [keyedEntry (2 ^ 64 - 1) "csk_alpha", keyedEntry 0 "csk_beta"] (some _) _ _ hashing_sample
      (keyFile_sample (by decide +kernel) (by decide +kernel)) rfl (by decide +kernel)
      (.cons (a := .create "gamma" "client" none "2026-01-02T00:00:00Z" true) .nil rfl)
      (by decide +kernel)
    obtain ⟨e, found, hash⟩ := (kept.indexed (hashKey sampleEnv "csk_beta") 0).mp
      (by decide +kernel)
    have stored : (some e).map (·.keyHash) = some (hashKey sampleEnv "csk_gamma") := by
      rw [← found]
      decide +kernel
    rw [show e.keyHash = _ from Option.some.inj stored] at hash
    exact absurd hash (by decide +kernel)

/-- A plaintext, an old hash and a new key, over a deletion and a restart. -/
theorem authenticates_run_upgraded : ∃ trace m,
    Reaches sampleEnv
      (load sampleEnv
        (some [{ id := 3, key := "csk_alpha", name := "old", createdAt := "2026-01-01T00:00:00Z" },
          { id := 7, keyHash := legacySha256Hash sampleEnv "csk_beta", name := "older",
            createdAt := "2026-01-01T00:00:00Z" }]) true) trace m ∧
      (verifyAndTouch sampleEnv inOrder "csk_alpha" "2026-01-03T00:00:00Z" true m).2 = none ∧
      (verifyAndTouch sampleEnv inOrder "csk_beta" "2026-01-03T00:00:00Z" true m).2 = some 7 ∧
      (verifyAndTouch sampleEnv inOrder "csk_gamma" "2026-01-03T00:00:00Z" true m).2 =
        some 8 := by
  let rows : List (ClientKey × String) :=
    [({ id := 3, key := "csk_alpha", name := "old", createdAt := "2026-01-01T00:00:00Z" },
        "csk_alpha"),
      ({ id := 7, keyHash := legacySha256Hash sampleEnv "csk_beta", name := "older",
         createdAt := "2026-01-01T00:00:00Z" }, "csk_beta")]
  have keys : KeyFile sampleEnv rows := by
    refine ⟨?_, by decide +kernel, by decide +kernel⟩
    intro r mem
    rcases List.mem_cons.mp mem with rfl | mem
    · rfl
    · rw [List.mem_singleton.mp mem]
      exact .inr rfl
  have reached : Reaches sampleEnv (load sampleEnv (some (rows.map (·.1))) true) _ _ :=
    .cons (a := .restart true)
      (.cons (a := .delete 3 true)
        (.cons (a := .create "gamma" "new" none "2026-01-02T00:00:00Z" true)
          (.cons (a := .verifyAndTouch inOrder "csk_beta" "2026-01-02T00:00:00Z" true) .nil rfl)
          rfl) rfl) rfl
  have auth := authenticates_run sampleEnv hashing_sample rows _ keys rfl (by decide +kernel)
    true _ _ reached (by decide +kernel) (by decide +kernel)
  refine ⟨_, _, reached, ?_, ?_, ?_⟩
  · decide +kernel
  · exact (auth.verifies inOrder "csk_beta" "2026-01-03T00:00:00Z" true 7).mpr (by decide +kernel)
  · exact (auth.verifies inOrder "csk_gamma" "2026-01-03T00:00:00Z" true 8).mpr (by decide +kernel)

end KiroRs.Admin.ClientKeyRuns
