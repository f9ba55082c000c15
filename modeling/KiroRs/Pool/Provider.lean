/- Path: KiroRs/Pool/Provider
   source: src/kiro/provider.rs
   digest: The bounded cache of clients: its map, the queue of entries that may go, and the order
   in which they go. -/

import Mathlib.Data.List.AList
import KiroRs.Lib.Text
import KiroRs.Lib.Traces
import KiroRs.Pool.Credentials

set_option autoImplicit false
set_option relaxedAutoImplicit false

namespace KiroRs.Pool.Provider

open KiroRs.Lib.Text (eqIgnoreAsciiCase)
open KiroRs.Lib.Traces
open KiroRs.Pool.Credentials (KiroCredentials)

variable {κ γ : Type} [DecidableEq κ]

def clientCacheCap : Nat := 64

/-- `order` is to list the keys that may be evicted, the oldest first. -/
structure ClientCache (κ γ : Type) where
  map : AList (fun _ : κ => γ)
  order : List κ
  protectedKey : κ
  cap : Nat

/-- The loop of `insert`: entries go from the front of the queue until there is room for one
more, or none is left. -/
def makeRoom (cap : Nat) : List κ → AList (fun _ : κ => γ) → List κ × AList (fun _ : κ => γ)
  | [], map => ([], map)
  | evict :: order, map =>
    if cap ≤ (evict :: order).length then makeRoom cap order (map.erase evict)
    else (evict :: order, map)

namespace ClientCache

def new (protectedKey : κ) (initial : γ) (cap : Nat) : ClientCache κ γ :=
  { map := (∅ : AList fun _ : κ => γ).insert protectedKey initial, order := [], protectedKey, cap }

def get (c : ClientCache κ γ) (key : κ) : Option γ := c.map.lookup key

def insert (c : ClientCache κ γ) (key : κ) (client : γ) : ClientCache κ γ :=
  if key = c.protectedKey ∨ (c.map.lookup key).isSome then
    { c with map := c.map.insert key client }
  else
    let room := makeRoom c.cap c.order c.map
    { c with order := room.1 ++ [key], map := room.2.insert key client }

def len (c : ClientCache κ γ) : Nat := c.map.keys.length

end ClientCache

inductive Call (κ γ : Type) where
  | get (key : κ)
  | insert (key : κ) (client : γ)

def Call.on (c : ClientCache κ γ) : Call κ γ → ClientCache κ γ
  | .get _ => c
  | .insert key client => c.insert key client

def step (c : ClientCache κ γ) (call : Call κ γ) : Option (ClientCache κ γ) := some (call.on c)

abbrev Trace (κ γ : Type) := List (ClientCache κ γ × Call κ γ)

/-- The number of the call that made the entry of a key: the newest insertion of the key that
did not find it. -/
def enteredAt (key : κ) : Trace κ γ → Nat
  | [] => 0
  | (_, .get _) :: earlier => enteredAt key earlier
  | (c, .insert k _) :: earlier =>
    if k = key ∧ (c.map.lookup key).isNone then earlier.length + 1 else enteredAt key earlier

/-- A key that may be evicted and entered before all others that may be. -/
def Oldest (trace : Trace κ γ) (c : ClientCache κ γ) (key : κ) : Prop :=
  key ≠ c.protectedKey ∧ key ∈ c.map ∧ ∀ other, other ∈ c.map → other ≠ c.protectedKey →
    other ≠ key → enteredAt key trace < enteredAt other trace

variable {cap : Nat} {order : List κ} {map : AList fun _ : κ => γ} {key other : κ} {client : γ}

theorem makeRoom_order : (makeRoom cap order map).1 = order.drop (order.length + 1 - cap) := by
  induction order generalizing map with
  | nil => exact List.drop_nil.symm
  | cons evict order ih =>
    rw [makeRoom]
    split_ifs with full
    · have count : (evict :: order).length + 1 - cap = order.length + 1 - cap + 1 := by
        simp only [List.length_cons] at full ⊢
        omega
      rw [ih, count, List.drop_succ_cons]
    · have none : (evict :: order).length + 1 - cap = 0 := by omega
      rw [none, List.drop_zero]

theorem mem_makeRoom : other ∈ (makeRoom cap order map).2 ↔
    other ∈ map ∧ other ∉ order.take (order.length + 1 - cap) := by
  induction order generalizing map with
  | nil => simp [makeRoom]
  | cons evict order ih =>
    rw [makeRoom]
    split_ifs with full
    · have count : (evict :: order).length + 1 - cap = order.length + 1 - cap + 1 := by
        simp only [List.length_cons] at full ⊢
        omega
      rw [ih, count, List.take_succ_cons, AList.mem_erase, List.mem_cons]
      tauto
    · have none : (evict :: order).length + 1 - cap = 0 := by omega
      rw [none, List.take_zero]
      exact (and_iff_left List.not_mem_nil).symm

theorem lookup_makeRoom {kept : γ} (found : (makeRoom cap order map).2.lookup key = some kept) :
    map.lookup key = some kept := by
  induction order generalizing map with
  | nil => exact found
  | cons evict order ih =>
    rw [makeRoom] at found
    split_ifs at found with full
    · have before := ih found
      by_cases same : key = evict
      · rw [same, AList.lookup_erase] at before
        cases before
      · rwa [AList.lookup_erase_ne same] at before
    · exact found

theorem enteredAt_le (key : κ) (trace : Trace κ γ) : enteredAt key trace ≤ trace.length := by
  induction trace with
  | nil => exact le_refl 0
  | cons p earlier ih =>
    obtain ⟨c, call⟩ := p
    cases call with
    | get _ => exact ih.trans (Nat.le_succ _)
    | insert k client =>
      rw [enteredAt]
      split_ifs with here
      · exact le_refl _
      · exact ih.trans (Nat.le_succ _)

theorem enteredAt_insert_other {c : ClientCache κ γ} {trace : Trace κ γ} (ne : other ≠ key) :
    enteredAt other ((c, .insert key client) :: trace) = enteredAt other trace := by
  rw [enteredAt, if_neg]
  exact fun here => ne here.1.symm

theorem enteredAt_insert_present {c : ClientCache κ γ} {trace : Trace κ γ}
    (present : (c.map.lookup key).isSome = true) :
    enteredAt other ((c, .insert key client) :: trace) = enteredAt other trace := by
  rw [enteredAt, if_neg]
  rintro ⟨same, absent⟩
  rw [← same] at absent
  simp [Option.isNone_iff_eq_none.mp absent] at present

theorem enteredAt_insert_new {c : ClientCache κ γ} {trace : Trace κ γ}
    (absent : ¬ (c.map.lookup key).isSome = true) :
    enteredAt key ((c, .insert key client) :: trace) = trace.length + 1 := by
  rw [enteredAt, if_pos]
  exact ⟨rfl, Option.not_isSome_iff_eq_none.mp absent ▸ rfl⟩

/-- Map, queue and protected key agree, and the queue lists its keys by age. -/
structure Kept (trace : Trace κ γ) (c : ClientCache κ γ) : Prop where
  present : c.protectedKey ∈ c.map
  nodup : c.order.Nodup
  lists : ∀ key, key ∈ c.order ↔ key ∈ c.map ∧ key ≠ c.protectedKey
  room : c.order.length ≤ max c.cap 1
  aged : c.order.Pairwise fun a b => enteredAt a trace < enteredAt b trace

theorem Kept.new (key : κ) (client : γ) (cap : Nat) : Kept [] (ClientCache.new key client cap) where
  present := (AList.mem_insert _).mpr (.inl rfl)
  nodup := List.nodup_nil
  lists other := by
    refine iff_of_false List.not_mem_nil ?_
    rintro ⟨mem, ne⟩
    rcases (AList.mem_insert _).mp mem with same | mem
    · exact ne same
    · exact AList.notMem_empty _ mem
  room := Nat.zero_le _
  aged := .nil

variable {trace : Trace κ γ} {c : ClientCache κ γ}

theorem Kept.keys_perm (kept : Kept trace c) :
    c.map.keys.Perm (c.protectedKey :: c.order) := by
  have apart : c.protectedKey ∉ c.order := fun mem => ((kept.lists _).mp mem).2 rfl
  refine (List.perm_ext_iff_of_nodup c.map.keys_nodup (kept.nodup.cons apart)).mpr fun key => ?_
  rw [List.mem_cons, kept.lists, ← AList.mem_keys]
  by_cases same : key = c.protectedKey
  · simp [same, kept.present]
  · simp [same]

theorem Kept.len_eq (kept : Kept trace c) : c.len = c.order.length + 1 :=
  kept.keys_perm.length_eq

theorem Kept.overwrite (kept : Kept trace c)
    (there : key = c.protectedKey ∨ (c.map.lookup key).isSome = true) :
    Kept ((c, .insert key client) :: trace) { c with map := c.map.insert key client } := by
  have present : (c.map.lookup key).isSome = true := by
    rcases there with same | found
    · rw [same]
      exact AList.lookup_isSome.mpr kept.present
    · exact found
  have same : ∀ other, other ∈ c.map.insert key client ↔ other ∈ c.map := by
    intro other
    rw [AList.mem_insert]
    refine or_iff_right_of_imp fun eq => ?_
    rw [eq]
    exact AList.lookup_isSome.mp present
  refine ⟨(same _).mpr kept.present, kept.nodup, fun other => ?_, kept.room, ?_⟩
  · exact (kept.lists other).trans (and_congr_left' (same other).symm)
  · refine kept.aged.imp fun {a b} older => ?_
    rwa [enteredAt_insert_present present, enteredAt_insert_present present]

theorem Kept.enter (kept : Kept trace c) (ne : key ≠ c.protectedKey)
    (absent : ¬ (c.map.lookup key).isSome = true) :
    Kept ((c, .insert key client) :: trace)
      { c with
        order := (makeRoom c.cap c.order c.map).1 ++ [key]
        map := (makeRoom c.cap c.order c.map).2.insert key client } := by
  have fresh : key ∉ c.order := fun mem =>
    absent (AList.lookup_isSome.mpr ((kept.lists key).mp mem).1)
  have split := List.take_append_drop (c.order.length + 1 - c.cap) c.order
  have nodup := kept.nodup
  rw [← split] at nodup
  have apart := (List.nodup_append'.mp nodup).2.2
  have stays : (c.order.drop (c.order.length + 1 - c.cap)).Sublist c.order :=
    List.drop_sublist _ _
  refine ⟨?_, ?_, fun other => ?_, ?_, ?_⟩
  · refine (AList.mem_insert _).mpr (.inr (mem_makeRoom.mpr ⟨kept.present, fun mem => ?_⟩))
    exact ((kept.lists _).mp (List.mem_of_mem_take mem)).2 rfl
  · rw [makeRoom_order]
    refine List.nodup_append'.mpr ⟨stays.nodup kept.nodup, List.nodup_singleton _, ?_⟩
    exact List.disjoint_singleton.mpr fun mem => fresh (stays.subset mem)
  · -- a key stays in the map exactly if it stays in the queue
    have both : other ∈ c.order.drop (c.order.length + 1 - c.cap) ↔
        other ∈ c.order ∧ other ∉ c.order.take (c.order.length + 1 - c.cap) := by
      constructor
      · exact fun mem => ⟨stays.subset mem, fun front => apart front mem⟩
      · rintro ⟨mem, front⟩
        rw [← split, List.mem_append] at mem
        exact mem.resolve_left front
    rw [makeRoom_order, List.mem_append, List.mem_singleton, both, kept.lists, AList.mem_insert,
      mem_makeRoom]
    by_cases same : other = key
    · simp [same, ne]
    · simp only [same, or_false, false_or]
      tauto
  · rw [makeRoom_order, List.length_append, List.length_drop, List.length_singleton]
    have room := kept.room
    simp only
    omega
  · rw [makeRoom_order]
    refine List.pairwise_append.mpr ⟨?_, List.pairwise_singleton _ _, ?_⟩
    · refine (kept.aged.sublist stays).imp_of_mem fun {a b} mem_a mem_b older => ?_
      have ne_a : a ≠ key := fun eq => fresh (eq ▸ stays.subset mem_a)
      have ne_b : b ≠ key := fun eq => fresh (eq ▸ stays.subset mem_b)
      rwa [enteredAt_insert_other ne_a, enteredAt_insert_other ne_b]
    · intro a mem b is_key
      rw [List.mem_singleton.mp is_key, enteredAt_insert_new absent]
      have ne_a : a ≠ key := fun eq => fresh (eq ▸ stays.subset mem)
      rw [enteredAt_insert_other ne_a]
      exact Nat.lt_succ_of_le (enteredAt_le a trace)

theorem Kept.insert (kept : Kept trace c) :
    Kept ((c, .insert key client) :: trace) (c.insert key client) := by
  unfold ClientCache.insert
  split_ifs with there
  · exact kept.overwrite there
  · obtain ⟨ne, absent⟩ := not_or.mp there
    exact kept.enter ne absent

theorem Kept.after (kept : Kept trace c) (call : Call κ γ) :
    Kept ((c, call) :: trace) (call.on c) := by
  cases call with
  | get key => exact ⟨kept.present, kept.nodup, kept.lists, kept.room, kept.aged⟩
  | insert key client => exact kept.insert

@[simp] theorem on_protectedKey (call : Call κ γ) : (call.on c).protectedKey = c.protectedKey := by
  cases call with
  | get key => rfl
  | insert key client =>
    simp only [Call.on, ClientCache.insert]
    split_ifs <;> rfl

@[simp] theorem on_cap (call : Call κ γ) : (call.on c).cap = c.cap := by
  cases call with
  | get key => rfl
  | insert key client =>
    simp only [Call.on, ClientCache.insert]
    split_ifs <;> rfl

theorem Kept.evicted_first (kept : Kept trace c) (call : Call κ γ) (before : key ∈ c.map)
    (after : key ∉ (call.on c).map) : ∃ order, c.order = key :: order := by
  cases call with
  | get k => exact absurd before after
  | insert k client =>
    simp only [Call.on, ClientCache.insert] at after
    split_ifs at after with there
    · exact absurd ((AList.mem_insert _).mpr (.inr before)) after
    · have gone : key ∈ c.order.take (c.order.length + 1 - c.cap) := by
        by_contra stays
        exact after ((AList.mem_insert _).mpr (.inr (mem_makeRoom.mpr ⟨before, stays⟩)))
      have room := kept.room
      cases queue : c.order with
      | nil => simp [queue] at gone
      | cons first order =>
        -- no more than one entry goes: the queue is at most one too long
        have alone : c.order.take (c.order.length + 1 - c.cap) ⊆ [first] := by
          rw [queue] at room ⊢
          cases order with
          | nil => exact List.take_subset _ _
          | cons second order =>
            have once : (first :: second :: order).length + 1 - c.cap ≤ 1 := by
              simp only [List.length_cons] at room ⊢
              omega
            exact fun k mem => (List.take_subset_take_left _ once) mem
        exact ⟨order, by rw [List.mem_singleton.mp (alone gone)]⟩

theorem Kept.evicted (kept : Kept trace c) (call : Call κ γ) (before : key ∈ c.map)
    (after : key ∉ (call.on c).map) : Oldest trace c key := by
  obtain ⟨order, queue⟩ := kept.evicted_first call before after
  have first : key ∈ c.order := queue ▸ List.mem_cons_self
  refine ⟨((kept.lists key).mp first).2, before, fun other mem ne other_ne => ?_⟩
  have queued := (kept.lists other).mpr ⟨mem, ne⟩
  have aged := kept.aged
  rw [queue] at aged queued
  exact (List.pairwise_cons.mp aged).1 other ((List.mem_cons.mp queued).resolve_left other_ne)

variable {protectedKey : κ} {initial : γ}

theorem kept_of_run (run : Run step (ClientCache.new protectedKey initial cap) trace c) :
    Kept trace c ∧ c.protectedKey = protectedKey ∧ c.cap = cap := by
  induction run with
  | nil => exact ⟨.new _ _ _, rfl, rfl⟩
  | cons run taken ih =>
    cases taken
    obtain ⟨kept, same_key, same_cap⟩ := ih
    exact ⟨kept.after _, (on_protectedKey _).trans same_key, (on_cap _).trans same_cap⟩

/-- Every run of calls on a new cache keeps map, queue and protected key together, keeps within
the capacity, and goes on to evict nothing but the oldest entry. -/
theorem cache_stays_in_order (positive : 0 < cap)
    (run : Run step (ClientCache.new protectedKey initial cap) trace c) :
    protectedKey ∈ c.map ∧
      c.order.Nodup ∧ (∀ key, key ∈ c.order ↔ key ∈ c.map ∧ key ≠ protectedKey) ∧
      c.len ≤ cap + 1 ∧
      ∀ call : Call κ γ, ∀ key ∈ c.map, key ∉ (call.on c).map → Oldest trace c key := by
  obtain ⟨kept, rfl, rfl⟩ := kept_of_run run
  refine ⟨kept.present, kept.nodup, kept.lists, ?_, fun call key => kept.evicted call⟩
  rw [kept.len_eq]
  have room := kept.room
  omega

theorem cache_stays_in_order_two :
    let full := (ClientCache.new "global" 0 1).insert "a" 1
    "global" ∈ full.map ∧ full.len ≤ 2 ∧ Oldest
      [(ClientCache.new "global" 0 1, .insert "a" 1)] full "a" := by
  intro full
  have run : Run step (ClientCache.new "global" 0 1)
      [(ClientCache.new "global" 0 1, .insert "a" 1)] full := .cons .nil rfl
  obtain ⟨present, _, _, size, oldest⟩ := cache_stays_in_order Nat.one_pos run
  exact ⟨present, size, oldest (.insert "b" 2) "a" (by decide) (by decide)⟩

/-- Without any capacity there is still an entry besides the protected one. -/
example : ((ClientCache.new "global" 0 0).insert "a" 1).len = 2 := by decide

structure ProxyConfig where
  url : String
  username : Option String := none
  password : Option String := none
  deriving DecidableEq, Repr

def proxyDirect : String := "direct"

/-- The proxy of the credential before the global one; `direct` is no proxy at all. -/
def effectiveProxy (credentials : KiroCredentials) (globalProxy : Option ProxyConfig) :
    Option ProxyConfig :=
  match credentials.proxyUrl with
  | none => globalProxy
  | some url =>
    if eqIgnoreAsciiCase url proxyDirect then none
    else match credentials.proxyUsername, credentials.proxyPassword with
      | some username, some password =>
        some { url, username := some username, password := some password }
      | _, _ => some { url }

structure KiroProvider (γ : Type) where
  globalProxy : Option ProxyConfig
  clientCache : ClientCache (Option ProxyConfig) γ

/-- `build_client` with its time limit and the TLS backend of the provider. -/
abbrev Build (γ : Type) := Option ProxyConfig → Except String γ

namespace KiroProvider

def withProxy (build : Build γ) (proxy : Option ProxyConfig) : Except String (KiroProvider γ) := do
  let initialClient ← build proxy
  return { globalProxy := proxy, clientCache := .new proxy initialClient clientCacheCap }

/-- The second half of `client_for`, under the lock of the cache. -/
def clientWith (p : KiroProvider γ) (build : Build γ) (effective : Option ProxyConfig) :
    Except String (γ × KiroProvider γ) :=
  match p.clientCache.get effective with
  | some client => .ok (client, p)
  | none => do
    let client ← build effective
    return (client, { p with clientCache := p.clientCache.insert effective client })

/-- The global proxy is read before the cache is locked, so it may have changed in between. -/
def clientFor (p : KiroProvider γ) (build : Build γ) (credentials : KiroCredentials)
    (globalProxy : Option ProxyConfig) : Except String (γ × KiroProvider γ) :=
  p.clientWith build (effectiveProxy credentials globalProxy)

end KiroProvider

/-- `update_global_proxy` takes two locks one after the other, so it is two actions. -/
inductive Action (γ : Type) where
  | clientFor (build : Build γ) (credentials : KiroCredentials) (globalProxy : Option ProxyConfig)
  | writeGlobalProxy (proxy : Option ProxyConfig)
  | rebuildCache (build : Build γ) (proxy : Option ProxyConfig)

def act (p : KiroProvider γ) : Action γ → Option (KiroProvider γ)
  | .clientFor build credentials globalProxy =>
    (p.clientFor build credentials globalProxy).toOption.map (·.2)
  | .writeGlobalProxy proxy => some { p with globalProxy := proxy }
  | .rebuildCache build proxy =>
    (build proxy).toOption.map fun client =>
      { p with clientCache := .new proxy client clientCacheCap }

def Builds (through : Option ProxyConfig → γ → Prop) : Action γ → Prop
  | .clientFor build _ _ | .rebuildCache build _ =>
    ∀ proxy client, build proxy = .ok client → through proxy client
  | .writeGlobalProxy _ => True

/-- The cache is one that calls have made, and every client of it goes through its key. -/
structure Serves (through : Option ProxyConfig → γ → Prop) (p : KiroProvider γ) : Prop where
  kept : ∃ trace, Kept trace p.clientCache
  cap : p.clientCache.cap = clientCacheCap
  clients : ∀ key client, p.clientCache.get key = some client → through key client

variable {through : Option ProxyConfig → γ → Prop} {p p' : KiroProvider γ}
  {effective : Option ProxyConfig}

theorem get_insert {found : γ} (mem : (c.insert key client).get other = some found) :
    (other = key ∧ found = client) ∨ c.get other = some found := by
  unfold ClientCache.insert ClientCache.get at mem
  by_cases same : other = key
  · subst same
    split_ifs at mem with there
    · exact .inl ⟨rfl, (Option.some.inj ((AList.lookup_insert _).symm.trans mem)).symm⟩
    · exact .inl ⟨rfl, (Option.some.inj ((AList.lookup_insert _).symm.trans mem)).symm⟩
  · split_ifs at mem with there
    · exact .inr ((AList.lookup_insert_ne same).symm.trans mem)
    · exact .inr (lookup_makeRoom ((AList.lookup_insert_ne same).symm.trans mem))

theorem Serves.clientWith (serves : Serves through p) {build : Build γ} {handed : γ}
    (builds : ∀ proxy client, build proxy = .ok client → through proxy client)
    (ran : p.clientWith build effective = .ok (handed, p')) :
    through effective handed ∧ Serves through p' := by
  unfold KiroProvider.clientWith at ran
  cases found : p.clientCache.get effective with
  | some client =>
    rw [found] at ran
    cases ran
    exact ⟨serves.clients effective handed found, serves⟩
  | none =>
    rw [found] at ran
    cases built : build effective with
    | error e =>
      rw [built] at ran
      cases ran
    | ok client =>
      rw [built] at ran
      cases ran
      obtain ⟨trace, kept⟩ := serves.kept
      have fits := builds effective handed built
      refine ⟨fits, ⟨_, kept.insert⟩, ?_, fun key client mem => ?_⟩
      · exact (on_cap (.insert effective handed)).trans serves.cap
      · rcases get_insert mem with ⟨rfl, rfl⟩ | before
        · exact fits
        · exact serves.clients key client before

theorem Serves.new {proxy : Option ProxyConfig} (fits : through proxy client)
    (cached : p.clientCache = .new proxy client clientCacheCap) : Serves through p := by
  refine ⟨⟨[], cached ▸ Kept.new _ _ _⟩, by rw [cached]; rfl, fun key found mem => ?_⟩
  rw [cached] at mem
  by_cases same : key = proxy
  · subst same
    rw [Option.some.inj (mem.symm.trans (AList.lookup_insert _))]
    exact fits
  · have none := (AList.lookup_insert_ne same).symm.trans mem
    cases none

/-- Along every run of the provider the cache holds at most one client besides the capacity, and
every client in it goes through the proxy it is kept under. -/
theorem serves_of_run {build : Build γ} {proxy : Option ProxyConfig} {start : KiroProvider γ}
    {taken : List (KiroProvider γ × Action γ)}
    (builds : ∀ proxy client, build proxy = .ok client → through proxy client)
    (made : KiroProvider.withProxy build proxy = .ok start) (run : Run act start taken p)
    (guarded : Guarded (fun _ action => Builds through action) taken) :
    Serves through p ∧ p.clientCache.len ≤ clientCacheCap + 1 := by
  have first : Serves through start := by
    unfold KiroProvider.withProxy at made
    cases built : build proxy with
    | error e =>
      rw [built] at made
      cases made
    | ok client =>
      rw [built] at made
      cases made
      exact .new (builds proxy client built) rfl
  have serves : Serves through p := by
    refine run.invariant_state first (fun s action s' serves guard stepped => ?_) guarded
    cases action with
    | clientFor build credentials globalProxy =>
      obtain ⟨⟨handed, next⟩, ran, rfl⟩ := Option.map_eq_some_iff.mp stepped
      cases outcome : s.clientFor build credentials globalProxy with
      | error e =>
        rw [outcome] at ran
        cases ran
      | ok answer =>
        rw [outcome] at ran
        cases ran
        exact (serves.clientWith guard outcome).2
    | writeGlobalProxy proxy =>
      cases stepped
      exact ⟨serves.kept, serves.cap, serves.clients⟩
    | rebuildCache build proxy =>
      obtain ⟨client, ran, rfl⟩ := Option.map_eq_some_iff.mp stepped
      cases built : build proxy with
      | error e =>
        rw [built] at ran
        cases ran
      | ok found =>
        rw [built] at ran
        cases ran
        exact .new (guard proxy client built) rfl
  obtain ⟨trace, kept⟩ := serves.kept
  have room := kept.room
  rw [serves.cap] at room
  refine ⟨serves, kept.len_eq ▸ Nat.succ_le_succ (room.trans ?_)⟩
  decide

end KiroRs.Pool.Provider
