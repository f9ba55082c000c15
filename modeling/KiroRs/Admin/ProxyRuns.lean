/- Path: KiroRs/Admin/ProxyRuns
   source: src/admin/proxy_pool.rs
   digest: What holds of the proxies in every run, and what a probe changes. -/

import KiroRs.Admin.ProxyPool

set_option autoImplicit false
set_option relaxedAutoImplicit false

namespace KiroRs.Admin.ProxyRuns

open KiroRs.Lib.Edits
open KiroRs.Lib.Text (startsWith trim)
open KiroRs.Lib.Traces
open KiroRs.Admin.ProxyPool
open KiroRs.Admin.ProxyPool.ProxyPoolManager

structure Sound (entries : List ProxyEntry) : Prop where
  ids : (entries.map (·.id)).Nodup
  urls : (entries.map (·.url)).Nodup
  failures : ∀ e ∈ entries, e.enabled = true → e.consecutiveFailures < maxProxyProbeFailures
  auto_disabled : ∀ e ∈ entries, e.autoDisabled = true → e.enabled = false

def Fit (e : ProxyEntry) : Prop :=
  (e.enabled = true → e.consecutiveFailures < maxProxyProbeFailures) ∧
    (e.autoDisabled = true → e.enabled = false)

/-- No id is given out again, and a check in flight is for proxies as they are or were. -/
structure Consistent (s : PoolState) : Prop where
  sound : Sound s.manager.entries
  below : ∀ e ∈ s.manager.entries, e.id < s.manager.nextId
  stored : ∀ entries, s.file = some entries → Sound entries
  apart : ∀ probe ∈ s.probes, (probe.targets.map (·.1)).Nodup
  known : ∀ probe ∈ s.probes, ∀ target ∈ probe.targets, target.1 < s.manager.nextId ∧
    ∀ e ∈ s.manager.entries, e.id = target.1 → e.url = target.2

variable {m m' : ProxyPoolManager} {s s' : PoolState} {entries : List ProxyEntry}

theorem no_failures : (0 : UInt32) < maxProxyProbeFailures := by decide

theorem sound_nil : Sound [] :=
  ⟨List.nodup_nil, List.nodup_nil, fun _ mem => absurd mem List.not_mem_nil,
    fun _ mem => absurd mem List.not_mem_nil⟩

theorem Sound.fit (sound : Sound entries) {e : ProxyEntry} (mem : e ∈ entries) : Fit e :=
  ⟨sound.failures e mem, sound.auto_disabled e mem⟩

theorem Sound.sublist (sound : Sound entries) {fewer : List ProxyEntry}
    (sub : fewer.Sublist entries) : Sound fewer :=
  ⟨(sub.map _).nodup sound.ids, (sub.map _).nodup sound.urls,
    fun e mem => sound.failures e (sub.subset mem),
    fun e mem => sound.auto_disabled e (sub.subset mem)⟩

theorem Sound.map (sound : Sound entries) {f : ProxyEntry → ProxyEntry}
    (ids : ∀ e, (f e).id = e.id) (urls : ∀ e, (f e).url = e.url)
    (fit : ∀ e, Fit e → Fit (f e)) : Sound (entries.map f) := by
  have fit_all (e : ProxyEntry) (mem : e ∈ entries.map f) : Fit e := by
    obtain ⟨old, there, rfl⟩ := List.mem_map.mp mem
    exact fit old (sound.fit there)
  refine ⟨?_, ?_, fun e mem => (fit_all e mem).1, fun e mem => (fit_all e mem).2⟩
  · rw [List.map_map]
    have same : (·.id) ∘ f = (·.id) := funext ids
    rw [same]
    exact sound.ids
  · rw [List.map_map]
    have same : (·.url) ∘ f = (·.url) := funext urls
    rw [same]
    exact sound.urls

/-- What an operation may do to the manager: keep it well formed, never take an id back, and give
new entries ids that were not given out. -/
structure Grows (m m' : ProxyPoolManager) : Prop where
  sound : Sound m'.entries
  below : ∀ e ∈ m'.entries, e.id < m'.nextId
  next : m.nextId ≤ m'.nextId
  urls : ∀ e ∈ m'.entries, m.nextId ≤ e.id ∨ ∃ old ∈ m.entries, old.id = e.id ∧ old.url = e.url

theorem Grows.trans {m'' : ProxyPoolManager} (first : Grows m m') (second : Grows m' m'') :
    Grows m m'' := by
  refine ⟨second.sound, second.below, Nat.le_trans first.next second.next, ?_⟩
  intro e mem
  rcases second.urls e mem with new | ⟨old, there, id, url⟩
  · exact Or.inl (Nat.le_trans first.next new)
  · rcases first.urls old there with new | ⟨older, there, id', url'⟩
    · exact Or.inl (id ▸ new)
    · exact Or.inr ⟨older, there, id'.trans id, url'.trans url⟩

theorem grows_refl (sound : Sound m.entries) (below : ∀ e ∈ m.entries, e.id < m.nextId) :
    Grows m m :=
  ⟨sound, below, Nat.le_refl _, fun e mem => Or.inr ⟨e, mem, rfl, rfl⟩⟩

theorem grows_insert (sound : Sound m.entries) (below : ∀ e ∈ m.entries, e.id < m.nextId)
    {url : String} (absent : m.hasUrl url = false) (label : Option String) :
    Grows m (m.insert url label).2 := by
  have fresh_id : m.nextId ∉ m.entries.map (·.id) := by
    intro there
    obtain ⟨e, mem, same⟩ := List.mem_map.mp there
    exact absurd (below e mem) (same ▸ Nat.lt_irrefl _)
  have fresh_url : url ∉ m.entries.map (·.url) := by
    intro there
    obtain ⟨e, mem, same⟩ := List.mem_map.mp there
    have other := List.any_eq_false.mp absent e mem
    simp [same] at other
  have fit : ∀ e ∈ (m.insert url label).2.entries, Fit e ∧ e.id < m.nextId + 1 ∧
      (m.nextId ≤ e.id ∨ ∃ old ∈ m.entries, old.id = e.id ∧ old.url = e.url) := by
    intro e mem
    rcases List.mem_append.mp mem with old | new
    · exact ⟨sound.fit old, Nat.lt_succ_of_lt (below e old), Or.inr ⟨e, old, rfl, rfl⟩⟩
    · rw [List.mem_singleton.mp new]
      refine ⟨⟨fun _ => ?_, fun auto => ?_⟩, Nat.lt_succ_self _, Or.inl (Nat.le_refl _)⟩
      · exact no_failures
      · cases auto
  refine ⟨⟨?_, ?_, fun e mem => (fit e mem).1.1, fun e mem => (fit e mem).1.2⟩,
    fun e mem => (fit e mem).2.1, Nat.le_succ _, fun e mem => (fit e mem).2.2⟩
  · simp only [ProxyPoolManager.insert, List.map_append, List.map_singleton]
    exact List.nodup_append'.mpr
      ⟨sound.ids, List.nodup_singleton _, List.disjoint_singleton.mpr fresh_id⟩
  · simp only [ProxyPoolManager.insert, List.map_append, List.map_singleton]
    exact List.nodup_append'.mpr
      ⟨sound.urls, List.nodup_singleton _, List.disjoint_singleton.mpr fresh_url⟩

theorem add_ok {url : String} {label : Option String} {r : ProxyEntry × ProxyPoolManager}
    (ok : m.add url label = .ok r) :
    m.hasUrl (trim url) = false ∧ r = m.insert (trim url) label := by
  unfold add at ok
  by_cases empty : (trim url).isEmpty = true
  · simp [empty, throw, throwThe, MonadExceptOf.throw, bind, Except.bind] at ok
  · cases valid : validateProxyUrl (trim url) with
    | error e => simp [empty, valid, bind, Except.bind] at ok
    | ok _ =>
      cases there : m.hasUrl (trim url) with
      | true =>
        simp [empty, valid, there, throw, throwThe, MonadExceptOf.throw, bind, Except.bind] at ok
      | false =>
        simp [empty, valid, there, bind, Except.bind, pure, Except.pure] at ok
        exact ⟨rfl, ok.symm⟩

theorem batchOne_cases (batch : Batch) (url : String) :
    (batchOne batch url).manager = batch.manager ∨
      (batch.manager.hasUrl (trim url) = false ∧
        (batchOne batch url).manager = (batch.manager.insert (trim url) none).2) := by
  unfold batchOne
  dsimp only
  by_cases skipped : ((trim url).isEmpty || startsWith (trim url) "#") = true
  · rw [if_pos skipped]
    exact Or.inl rfl
  · rw [if_neg skipped]
    cases valid : validateProxyUrl (trim url) with
    | error e => exact Or.inl rfl
    | ok _ =>
      cases there : batch.manager.hasUrl (trim url) with
      | true => exact Or.inl rfl
      | false => exact Or.inr ⟨rfl, rfl⟩

theorem grows_batchOne {batch : Batch} {url : String} (grows : Grows m batch.manager) :
    Grows m (batchOne batch url).manager := by
  rcases batchOne_cases batch url with same | ⟨absent, added⟩
  · rw [same]
    exact grows
  · rw [added]
    exact grows.trans (grows_insert grows.sound grows.below absent none)

theorem grows_batchAdd (sound : Sound m.entries) (below : ∀ e ∈ m.entries, e.id < m.nextId)
    (urls : List String) : Grows m (m.batchAdd urls).manager := by
  have run (batch : Batch) (grows : Grows m batch.manager) :
      Grows m (urls.foldl batchOne batch).manager := by
    induction urls generalizing batch with
    | nil => exact grows
    | cons url urls ih =>
      rw [List.foldl_cons]
      exact ih _ (grows_batchOne grows)
  exact run { manager := m } (grows_refl sound below)

theorem grows_delete (sound : Sound m.entries) (below : ∀ e ∈ m.entries, e.id < m.nextId)
    {id : Nat} (ok : m.delete id = .ok m') : Grows m m' := by
  unfold delete at ok
  dsimp only at ok
  split_ifs at ok
  cases ok
  have sub : (m.entries.filter (·.id ≠ id)).Sublist m.entries := List.filter_sublist
  exact ⟨sound.sublist sub, fun e mem => below e (sub.subset mem), Nat.le_refl _,
    fun e mem => Or.inr ⟨e, sub.subset mem, rfl, rfl⟩⟩

theorem grows_map (sound : Sound m.entries) (below : ∀ e ∈ m.entries, e.id < m.nextId)
    {f : ProxyEntry → ProxyEntry} (ids : ∀ e, (f e).id = e.id) (urls : ∀ e, (f e).url = e.url)
    (fit : ∀ e, Fit e → Fit (f e)) : Grows m { m with entries := m.entries.map f } := by
  refine ⟨sound.map ids urls fit, ?_, Nat.le_refl _, ?_⟩
  · intro e mem
    obtain ⟨old, there, rfl⟩ := List.mem_map.mp mem
    exact ids old ▸ below old there
  · intro e mem
    obtain ⟨old, there, rfl⟩ := List.mem_map.mp mem
    exact Or.inr ⟨old, there, (ids old).symm, (urls old).symm⟩

theorem fit_enable (enabled : Bool) (e : ProxyEntry) : Fit (enable enabled e) := by
  cases enabled with
  | true => exact ⟨fun _ => no_failures, fun auto => absurd auto Bool.false_ne_true⟩
  | false => exact ⟨fun never => absurd never Bool.false_ne_true, fun _ => rfl⟩

theorem enable_id (enabled : Bool) (e : ProxyEntry) : (enable enabled e).id = e.id := by
  cases enabled <;> rfl

theorem enable_url (enabled : Bool) (e : ProxyEntry) : (enable enabled e).url = e.url := by
  cases enabled <;> rfl

theorem grows_setEnabled (sound : Sound m.entries) (below : ∀ e ∈ m.entries, e.id < m.nextId)
    {id : Nat} {enabled : Bool} (ok : m.setEnabled id enabled = .ok m') : Grows m m' := by
  unfold setEnabled at ok
  cases found : modifyFirst (·.id = id) (enable enabled) m.entries with
  | none =>
    rw [found] at ok
    cases ok
  | some changed =>
    rw [found] at ok
    cases ok
    rw [modifyFirst_key sound.ids found]
    apply grows_map sound below
    · intro e
      split_ifs
      · exact enable_id enabled e
      · rfl
    · intro e
      split_ifs
      · exact enable_url enabled e
      · rfl
    · intro e fit
      split_ifs
      · exact fit_enable enabled e
      · exact fit

theorem applyProbeResult_id (e : ProxyEntry) (reply : Reply) :
    (applyProbeResult e reply).1.id = e.id := by
  unfold applyProbeResult
  cases reply.result with
  | ok latencyMs => rfl
  | err error =>
    dsimp only
    split_ifs
    · rfl
    · rfl

theorem applyProbeResult_url (e : ProxyEntry) (reply : Reply) :
    (applyProbeResult e reply).1.url = e.url := by
  unfold applyProbeResult
  cases reply.result with
  | ok latencyMs => rfl
  | err error =>
    dsimp only
    split_ifs
    · rfl
    · rfl

theorem applyProbeResult_disabled {e : ProxyEntry} (disabled : e.enabled = false) (reply : Reply) :
    (applyProbeResult e reply).1.enabled = false ∧
      (applyProbeResult e reply).1.autoDisabled = e.autoDisabled := by
  unfold applyProbeResult
  cases reply.result with
  | ok latencyMs => exact ⟨disabled, rfl⟩
  | err error =>
    dsimp only
    rw [disabled, Bool.and_false, if_neg Bool.false_ne_true]
    exact ⟨rfl, rfl⟩

theorem fit_applyProbeResult {e : ProxyEntry} (fit : Fit e) (reply : Reply) :
    Fit (applyProbeResult e reply).1 := by
  unfold applyProbeResult
  cases reply.result with
  | ok latencyMs => exact ⟨fun _ => no_failures, fit.2⟩
  | err error =>
    dsimp only
    split_ifs with reached
    · exact ⟨fun never => absurd never Bool.false_ne_true, fun _ => rfl⟩
    · refine ⟨fun enabled => ?_, fit.2⟩
      -- the count of an enabled proxy is below the limit, or it would have been disabled
      rw [Bool.and_eq_true, decide_eq_true_eq, not_and] at reached
      rcases Decidable.em (maxProxyProbeFailures ≤ e.consecutiveFailures + 1) with full | below
      · exact absurd enabled (reached full)
      · exact UInt32.not_le.mp below

/-- What a check made of one entry: nothing, or its reply applied to the entry it was for. -/
def ProbedBy (results : List (Target × Reply)) (e e' : ProxyEntry) : Prop :=
  e' = e ∨ ∃ reply, ((e.id, e.url), reply) ∈ results ∧ e' = (applyProbeResult e reply).1

def probed (results : List (Target × Reply)) (e : ProxyEntry) : ProxyEntry :=
  match results.find? (·.1.1 = e.id) with
  | some result => (applyProbeResult e result.2).1
  | none => e

theorem probed_id (results : List (Target × Reply)) (e : ProxyEntry) :
    (probed results e).id = e.id := by
  unfold probed
  split
  · exact applyProbeResult_id e _
  · rfl

theorem probed_url (results : List (Target × Reply)) (e : ProxyEntry) :
    (probed results e).url = e.url := by
  unfold probed
  split
  · exact applyProbeResult_url e _
  · rfl

theorem fit_probed (results : List (Target × Reply)) {e : ProxyEntry} (fit : Fit e) :
    Fit (probed results e) := by
  unfold probed
  split
  · exact fit_applyProbeResult fit _
  · exact fit

theorem applyOne_eq (distinct : (entries.map (·.id)).Nodup) (summary : CheckSummary)
    (result : Target × Reply) : (applyOne (entries, summary) result).1 =
      entries.map fun e => if e.id = result.1.1 then (applyProbeResult e result.2).1 else e := by
  unfold applyOne
  dsimp only
  cases there : entries.find? (·.id = result.1.1) with
  | none =>
    have unchanged (e : ProxyEntry) (mem : e ∈ entries) :
        (if e.id = result.1.1 then (applyProbeResult e result.2).1 else e) = e := by
      have other := List.find?_eq_none.mp there e mem
      exact if_neg (by simpa using other)
    rw [List.map_congr_left unchanged, List.map_id']
  | some entry =>
    dsimp only
    cases found : modifyFirst (·.id = result.1.1) (fun e => (applyProbeResult e result.2).1)
        entries with
    | none =>
      have other := modifyFirst_eq_none.mp found entry (List.mem_of_find?_eq_some there)
      have is := List.find?_some there
      rw [other] at is
      cases is
    | some changed => exact modifyFirst_key distinct found

/-- With targets of their own ids, every entry gets the reply for its id. -/
theorem applyAll_eq (distinct : (entries.map (·.id)).Nodup) {results : List (Target × Reply)}
    (own : (results.map (·.1.1)).Nodup) (summary : CheckSummary) :
    (results.foldl applyOne (entries, summary)).1 = entries.map (probed results) := by
  induction results generalizing entries summary with
  | nil => exact (List.map_id' entries).symm
  | cons result results ih =>
    obtain ⟨once, own⟩ := List.nodup_cons.mp own
    have first := applyOne_eq distinct summary result
    have distinct' : ((applyOne (entries, summary) result).1.map (·.id)).Nodup := by
      rw [first, List.map_map]
      have same : ((·.id) ∘ fun e : ProxyEntry =>
          if e.id = result.1.1 then (applyProbeResult e result.2).1 else e) = (·.id) := by
        funext e
        simp only [Function.comp]
        split_ifs
        · exact applyProbeResult_id e _
        · rfl
      rw [same]
      exact distinct
    rw [List.foldl_cons, ← Prod.mk.eta (p := applyOne (entries, summary) result),
      ih distinct' own, first, List.map_map]
    apply List.map_congr_left
    intro e _
    by_cases same : e.id = result.1.1
    · have later : results.find? (·.1.1 = e.id) = none := by
        apply List.find?_eq_none.mpr
        intro other mem again
        exact once (List.mem_map.mpr ⟨other, mem, (of_decide_eq_true again).trans same⟩)
      have here : (result :: results).find? (·.1.1 = e.id) = some result :=
        List.find?_cons_of_pos (decide_eq_true same.symm)
      simp only [Function.comp, if_pos same, probed, applyProbeResult_id, later, here]
    · have passed : (result :: results).find? (·.1.1 = e.id) = results.find? (·.1.1 = e.id) :=
        List.find?_cons_of_neg fun eq => same (of_decide_eq_true eq).symm
      simp only [Function.comp, if_neg same, probed, passed]

theorem forall₂_applyAll (distinct : (entries.map (·.id)).Nodup)
    {results : List (Target × Reply)} (own : (results.map (·.1.1)).Nodup)
    (known : ∀ result ∈ results, ∀ e ∈ entries, e.id = result.1.1 → e.url = result.1.2) :
    List.Forall₂ (fun e e' => ProbedBy results e e' ∧
      (e.enabled = false → e'.enabled = false ∧ e'.autoDisabled = e.autoDisabled)) entries
      (applyAll entries results).1 := by
  rw [applyAll, applyAll_eq distinct own]
  apply List.forall₂_map_right_iff.mpr
  apply List.forall₂_same.mpr
  intro e mem
  unfold probed
  cases found : results.find? (·.1.1 = e.id) with
  | none => exact ⟨Or.inl rfl, fun disabled => ⟨disabled, rfl⟩⟩
  | some result =>
    have there := List.mem_of_find?_eq_some found
    have id : result.1.1 = e.id := by simpa using List.find?_some found
    have url := known result there e mem id.symm
    refine ⟨Or.inr ⟨result.2, ?_, rfl⟩, fun disabled => applyProbeResult_disabled disabled _⟩
    rw [← id, url]
    exact there

variable {hasPath : Bool} {trace : List (PoolState × Move)}

theorem Consistent.grows (consistent : Consistent s) {manager : ProxyPoolManager}
    (grows : Grows s.manager manager) (unsaved : Nat) :
    Consistent { s with manager, unsaved } := by
  refine ⟨grows.sound, grows.below, consistent.stored, consistent.apart, ?_⟩
  intro probe mem target there
  obtain ⟨below, same⟩ := consistent.known probe mem target there
  refine ⟨Nat.lt_of_lt_of_le below grows.next, ?_⟩
  intro e mem_e id
  rcases grows.urls e mem_e with new | ⟨old, mem_old, same_id, url⟩
  · exact absurd (id ▸ new) (Nat.not_le.mpr below)
  · exact url ▸ same old mem_old (same_id.trans id)

theorem Consistent.settle (consistent : Consistent s) {α : Type} {outcome : Except String α}
    {manager : α → ProxyPoolManager}
    (grows : ∀ a, outcome = .ok a → Grows s.manager (manager a)) :
    Consistent (s.settle outcome manager) := by
  unfold PoolState.settle
  cases outcome with
  | error e => exact consistent
  | ok a => exact consistent.grows (grows a rfl) _

theorem Consistent.eraseIdx (consistent : Consistent s) (n : Nat) :
    Consistent { s with probes := s.probes.eraseIdx n } := by
  have sub := List.eraseIdx_subset (l := s.probes) (k := n)
  exact ⟨consistent.sound, consistent.below, consistent.stored,
    fun probe mem => consistent.apart probe (sub mem),
    fun probe mem => consistent.known probe (sub mem)⟩

theorem Consistent.started (consistent : Consistent s) {probe : Probe}
    (apart : (probe.targets.map (·.1)).Nodup)
    (taken : ∀ target ∈ probe.targets, ∃ e ∈ s.manager.entries, target = (e.id, e.url)) :
    Consistent { s with probes := s.probes ++ [probe] } := by
  refine ⟨consistent.sound, consistent.below, consistent.stored, ?_, ?_⟩
  · intro p mem
    rcases List.mem_append.mp mem with old | new
    · exact consistent.apart p old
    · exact List.mem_singleton.mp new ▸ apart
  · intro p mem
    rcases List.mem_append.mp mem with old | new
    · exact consistent.known p old
    · rw [List.mem_singleton.mp new]
      intro target there
      obtain ⟨e, mem_e, rfl⟩ := taken target there
      refine ⟨consistent.below e mem_e, ?_⟩
      intro other mem_other same
      rw [List.inj_on_of_nodup_map consistent.sound.ids mem_other mem_e same]

theorem consistent_startOne (consistent : Consistent s) (id : Nat) :
    Consistent (s.startOne id) := by
  unfold PoolState.startOne
  cases found : s.manager.entries.find? (·.id = id) with
  | none => exact consistent
  | some e =>
    have mem := List.mem_of_find?_eq_some found
    have is : e.id = id := by simpa using List.find?_some found
    apply consistent.started
    · exact List.nodup_singleton _
    · intro target there
      exact ⟨e, mem, is ▸ List.mem_singleton.mp there⟩

theorem consistent_startAll (consistent : Consistent s) : Consistent s.startAll := by
  unfold PoolState.startAll
  split_ifs with empty
  · exact consistent
  · apply consistent.started
    · have ids : (s.targetsNow.map (·.1)) = (s.manager.entries.filter (·.enabled)).map (·.id) := by
        rw [PoolState.targetsNow, List.map_map]
        rfl
      rw [Probe.targets, ids]
      exact (List.filter_sublist.map _).nodup consistent.sound.ids
    · intro target there
      obtain ⟨e, mem, rfl⟩ := List.mem_map.mp there
      exact ⟨e, List.mem_of_mem_filter mem, rfl⟩

theorem zip_targets (consistent : Consistent s) {probe : Probe} (mem : probe ∈ s.probes)
    {replies : List Reply} (length : probe.targets.length = replies.length) :
    ((probe.targets.zip replies).map (·.1.1)).Nodup ∧
      ∀ result ∈ probe.targets.zip replies, ∀ e ∈ s.manager.entries,
        e.id = result.1.1 → e.url = result.1.2 := by
  constructor
  · have fronts : (probe.targets.zip replies).map (·.1) = probe.targets :=
      List.map_fst_zip (Nat.le_of_eq length)
    have ids := consistent.apart probe mem
    rw [← fronts, List.map_map] at ids
    exact ids
  · intro result there
    exact (consistent.known probe mem result.1 (List.of_mem_zip there).1).2

/-- The end of a check: its replies are applied, or its entry is gone and nothing is. -/
theorem finish_spec {n : Nat} {replies : List Reply} (step : s.finish n replies = some s') :
    ∃ probe, s.probes[n]? = some probe ∧ probe.targets.length = replies.length ∧
      (s' = { s with probes := s.probes.eraseIdx n } ∧
          (∀ e ∈ s.manager.entries, ∀ target ∈ probe.targets, e.id ≠ target.1) ∨
        s' = { s with
          manager := { s.manager with
            entries := (applyAll s.manager.entries (probe.targets.zip replies)).1 }
          unsaved := s.unsaved + 1
          probes := s.probes.eraseIdx n }) := by
  unfold PoolState.finish at step
  cases found : s.probes[n]? with
  | none =>
    rw [found] at step
    cases step
  | some probe =>
    rw [found] at step
    dsimp only at step
    split_ifs at step with uneven
    refine ⟨probe, rfl, not_not.mp uneven, ?_⟩
    cases probe with
    | all targets =>
      cases step
      exact Or.inr rfl
    | one target =>
      obtain ⟨id, url⟩ := target
      dsimp only at step
      split_ifs at step with there
      · cases step
        exact Or.inr rfl
      · cases step
        refine Or.inl ⟨rfl, ?_⟩
        intro e mem target is same
        rw [List.mem_singleton.mp is] at same
        exact there (List.any_eq_true.mpr ⟨e, mem, decide_eq_true same⟩)

theorem consistent_finish (consistent : Consistent s) {n : Nat} {replies : List Reply}
    (step : s.finish n replies = some s') : Consistent s' := by
  obtain ⟨probe, found, length, ⟨rfl, _⟩ | rfl⟩ := finish_spec step
  · exact consistent.eraseIdx n
  · obtain ⟨own, _⟩ := zip_targets consistent (List.mem_of_getElem? found) length
    have grows : Grows s.manager { s.manager with
        entries := (applyAll s.manager.entries (probe.targets.zip replies)).1 } := by
      rw [applyAll, applyAll_eq consistent.sound.ids own]
      exact grows_map consistent.sound consistent.below (probed_id _) (probed_url _)
        fun _ => fit_probed _
    exact (consistent.eraseIdx n).grows grows _

theorem consistent_persist (consistent : Consistent s) {written : Written}
    (step : s.persist written = some s') : Consistent s' := by
  have kept (file : Option (List ProxyEntry)) (unsaved : Nat)
      (stored : ∀ entries, file = some entries → Sound entries) :
      Consistent { s with file, unsaved } :=
    ⟨consistent.sound, consistent.below, stored, consistent.apart, consistent.known⟩
  unfold PoolState.persist at step
  dsimp only at step
  by_cases idle : s.unsaved = 0
  · rw [if_pos idle] at step
    cases step
  · rw [if_neg idle] at step
    cases path : s.hasPath with
    | false =>
      rw [path] at step
      cases step
      exact path ▸ kept s.file _ consistent.stored
    | true =>
      rw [path] at step
      cases written with
      | whole =>
        cases step
        have stored (entries : List ProxyEntry) (same : some s.manager.entries = some entries) :
            Sound entries := Option.some.inj same ▸ consistent.sound
        exact path ▸ kept (some s.manager.entries) _ stored
      | kept =>
        cases step
        exact path ▸ kept s.file _ consistent.stored
      | torn =>
        cases step
        exact path ▸ kept none _ fun _ never => absurd never.symm (Option.some_ne_none _)

theorem le_foldr_max {ids : List Nat} {id : Nat} (mem : id ∈ ids) : id ≤ ids.foldr max 0 := by
  induction ids with
  | nil => cases mem
  | cons first rest ih =>
    rcases List.mem_cons.mp mem with rfl | mem
    · exact Nat.le_max_left _ _
    · exact Nat.le_trans (ih mem) (Nat.le_max_right _ _)

theorem consistent_load {file : Option (List ProxyEntry)}
    (stored : ∀ entries, file = some entries → Sound entries) :
    Consistent { manager := .load file, hasPath, file } := by
  have sound : Sound (file.getD []) := by
    cases file with
    | none => exact sound_nil
    | some entries => exact stored entries rfl
  refine ⟨sound, ?_, stored, ?_, ?_⟩
  · intro e mem
    exact Nat.lt_succ_of_le (le_foldr_max (List.mem_map_of_mem mem))
  · intro probe mem
    cases mem
  · intro probe mem
    cases mem

/-- Every move keeps the pool consistent. -/
theorem consistent_step {move : Move} (consistent : Consistent s)
    (step : s.step move = some s') : Consistent s' := by
  have sound := consistent.sound
  have below := consistent.below
  cases move with
  | add url label =>
    obtain rfl := Option.some.inj step
    apply consistent.settle
    intro r ok
    obtain ⟨absent, rfl⟩ := add_ok ok
    exact grows_insert sound below absent label
  | batchAdd urls =>
    cases step
    unfold PoolState.batchAdd
    dsimp only
    split_ifs
    · exact consistent.grows (grows_batchAdd sound below urls) s.unsaved
    · exact consistent.grows (grows_batchAdd sound below urls) _
  | delete id =>
    cases step
    exact consistent.settle fun _ ok => grows_delete sound below ok
  | setEnabled id enabled =>
    cases step
    exact consistent.settle fun _ ok => grows_setEnabled sound below ok
  | startOne id =>
    cases step
    exact consistent_startOne consistent id
  | startAll =>
    cases step
    exact consistent_startAll consistent
  | finish n replies => exact consistent_finish consistent step
  | abandon n =>
    unfold PoolState.step at step
    dsimp only at step
    split_ifs at step
    cases step
    exact consistent.eraseIdx n
  | persist written => exact consistent_persist consistent step
  | reload =>
    cases step
    exact consistent_load consistent.stored

theorem consistent_run (run : Run PoolState.step (.start hasPath) trace s) : Consistent s := by
  have guarded : Guarded (fun _ _ => True) trace := fun _ _ => trivial
  refine run.invariant_state ?_ ?_ guarded
  · exact consistent_load fun _ never => absurd never.symm (Option.some_ne_none _)
  · intro t move t' consistent _ step
    exact consistent_step consistent step

/-- In every run the proxies are sound, and the end of a check changes the entries in place, each
only by a reply for its id and its URL and none that is disabled to enabled. -/
theorem pool_sound (hasPath : Bool) (trace : List (PoolState × Move)) (s : PoolState)
    (run : Run PoolState.step (.start hasPath) trace s) :
    Sound s.manager.entries ∧
    ∀ n replies s', s.step (.finish n replies) = some s' →
      ∃ probe, s.probes[n]? = some probe ∧
        List.Forall₂ (fun e e' => ProbedBy (probe.targets.zip replies) e e' ∧
          (e.enabled = false → e'.enabled = false ∧ e'.autoDisabled = e.autoDisabled))
          s.manager.entries s'.manager.entries := by
  have consistent := consistent_run run
  refine ⟨consistent.sound, ?_⟩
  intro n replies s' step
  obtain ⟨probe, found, length, ⟨rfl, _⟩ | rfl⟩ := finish_spec step
  · refine ⟨probe, found, List.forall₂_same.mpr ?_⟩
    intro e _
    exact ⟨Or.inl rfl, fun disabled => ⟨disabled, rfl⟩⟩
  · obtain ⟨own, known⟩ := zip_targets consistent (List.mem_of_getElem? found) length
    exact ⟨probe, found, forall₂_applyAll consistent.sound.ids own known⟩

def meanwhile : List Move :=
  [.add " http://127.0.0.1:8080" (some "home"), .persist .whole, .startAll, .setEnabled 1 false]

theorem pool_sound_meanwhile : ∃ trace s s',
    follow PoolState.step [] (.start true) meanwhile = some (trace, s) ∧
      s.step (.finish 0 [⟨.err "timed out", "2026-05-22T10:15:00+00:00"⟩]) = some s' ∧
      Sound s.manager.entries ∧ ∃ probe, s.probes[0]? = some probe ∧
        List.Forall₂ (fun e e' =>
          ProbedBy (probe.targets.zip [⟨.err "timed out", "2026-05-22T10:15:00+00:00"⟩]) e e' ∧
          (e.enabled = false → e'.enabled = false ∧ e'.autoDisabled = e.autoDisabled))
          s.manager.entries s'.manager.entries := by
  have reaches : (follow PoolState.step [] (.start true) meanwhile).isSome = true := by
    decide +kernel
  obtain ⟨⟨trace, s⟩, followed⟩ := Option.isSome_iff_exists.mp reaches
  have run := (follow_run Run.nil followed).1
  obtain ⟨sound, probes⟩ := pool_sound true trace s run
  have applied : ((follow PoolState.step [] (.start true) meanwhile).bind fun reached =>
      reached.2.step (.finish 0 [⟨.err "timed out", "2026-05-22T10:15:00+00:00"⟩])).isSome =
        true := by
    decide +kernel
  obtain ⟨s', step⟩ := Option.isSome_iff_exists.mp applied
  rw [followed, Option.bind_some] at step
  exact ⟨trace, s, s', followed, step, sound, probes 0 _ s' step⟩

end KiroRs.Admin.ProxyRuns
