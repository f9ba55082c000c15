/- Path: KiroRs/Cache/Chains
   source: src/anthropic/cache_metering.rs
   digest: The chain of a request only grows: its text, its tokens and its segments. -/

import KiroRs.Cache.Meter

set_option autoImplicit false
set_option relaxedAutoImplicit false

namespace KiroRs.Cache.Chains

open KiroRs.Converter.Json (Value)
open KiroRs.Converter.Requests (Message)
open KiroRs.Cache.Signatures
open KiroRs.Cache.Segments

variable {H : Type} {env : Env H} {s s' s'' : Chain H}

/-- The segments are digests of beginnings of the text, in the order of their tokens, and the sums
bound each other. -/
structure Sound (env : Env H) (seed : List Char) (s : Chain H) : Prop where
  seeded : seed <+: s.text.toList
  sorted : (s.segments.map (·.cumulativeTokens)).Pairwise (· ≤ ·)
  bounded : ∀ segment ∈ s.segments, segment.cumulativeTokens ≤ s.cacheTokens
  hashed : ∀ segment ∈ s.segments, ∃ text : String, seed <+: text.toList ∧
    text.toList <+: s.text.toList ∧ segment.hash = env.digest text
  covered : s.cacheTokens ≤ s.promptTotalTokens
  fits : s.promptTotalTokens ≤ u32Max

def Holds (s : Chain H) (h : H) (tokens : Nat) : Prop :=
  ∃ segment ∈ s.segments, segment.hash = h ∧ segment.cumulativeTokens = tokens

structure Leads (env : Env H) (s s' : Chain H) : Prop where
  text : s.text.toList <+: s'.text.toList
  kept : ∀ h tokens, Holds s h tokens → Holds s' h tokens
  sound : ∀ seed, Sound env seed s → Sound env seed s' ∧ s.cacheTokens ≤ s'.cacheTokens

theorem Leads.refl (s : Chain H) : Leads env s s :=
  ⟨List.prefix_rfl, fun _ _ => id, fun _ sound => ⟨sound, Nat.le_refl _⟩⟩

theorem Leads.trans (first : Leads env s s') (later : Leads env s' s'') : Leads env s s'' where
  text := first.text.trans later.text
  kept := fun h tokens holds => later.kept h tokens (first.kept h tokens holds)
  sound := by
    intro seed sound
    obtain ⟨sound', more⟩ := first.sound seed sound
    obtain ⟨sound'', still⟩ := later.sound seed sound'
    exact ⟨sound'', Nat.le_trans more still⟩

theorem Leads.foldl {α : Type} {f : Chain H → α → Chain H} (each : ∀ s x, Leads env s (f s x))
    (xs : List α) (s : Chain H) : Leads env s (xs.foldl f s) := by
  induction xs generalizing s with
  | nil => exact .refl s
  | cons x xs ih => exact (each s x).trans (ih (f s x))

theorem le_saturatingAdd {a : Nat} (fits : a ≤ u32Max) (b : Nat) : a ≤ saturatingAdd a b :=
  le_min (Nat.le_add_right a b) fits

theorem saturatingAdd_mono {a b : Nat} (le : a ≤ b) (c : Nat) :
    saturatingAdd a c ≤ saturatingAdd b c :=
  min_le_min_right _ (Nat.add_le_add_right le c)

theorem leads_count (tokens : Nat) (participates : Bool) :
    Leads env s (s.count tokens participates) where
  text := List.prefix_rfl
  kept := fun _ _ => id
  sound := by
    intro seed sound
    have fits : s.cacheTokens ≤ u32Max := Nat.le_trans sound.covered sound.fits
    have more : s.cacheTokens ≤ (s.count tokens participates).cacheTokens := by
      cases participates with
      | true => exact le_saturatingAdd fits tokens
      | false => exact Nat.le_refl _
    refine ⟨⟨sound.seeded, sound.sorted, ?_, sound.hashed, ?_, min_le_right _ _⟩, more⟩
    · exact fun segment mem => Nat.le_trans (sound.bounded segment mem) more
    · cases participates with
      | true => exact saturatingAdd_mono sound.covered tokens
      | false => exact Nat.le_trans sound.covered (le_saturatingAdd sound.fits tokens)

theorem leads_hash (hashText : String) (participates : Bool) :
    Leads env s (s.hash hashText participates) := by
  cases participates with
  | false => exact .refl s
  | true =>
    have longer : s.text.toList <+: (s.text ++ hashText).toList := by
      rw [String.toList_append]
      exact List.prefix_append _ _
    refine ⟨longer, fun _ _ => id, fun seed sound => ⟨⟨sound.seeded.trans longer, sound.sorted,
      sound.bounded, ?_, sound.covered, sound.fits⟩, Nat.le_refl _⟩⟩
    intro segment mem
    obtain ⟨text, begins, within, digests⟩ := sound.hashed segment mem
    exact ⟨text, begins, within.trans longer, digests⟩

theorem leads_feed (hashText tokenText : String) (participates : Bool) :
    Leads env s (s.feed hashText tokenText participates) := by
  unfold Chain.feed
  dsimp only
  split_ifs
  · exact leads_hash hashText participates
  · exact (leads_hash hashText participates).trans (leads_count _ participates)

theorem leads_feedBlock (enabled : Bool) (v : Value) : Leads env s (feedBlock env enabled s v) := by
  unfold feedBlock
  split_ifs
  · exact (leads_hash _ enabled).trans (leads_count _ enabled)
  · exact leads_feed _ _ enabled

variable [DecidableEq H] {enabled : Bool} {ttl : Nat}

/-- A segment that is added is there, and the others stay. -/
theorem pushSegment_spec (segment : Segment H) (segments : List (Segment H)) :
    (∃ before ttl, pushSegment segment segments = before ++ [{ segment with ttlSecs := ttl }] ∧
      (before = segments ∨ ∃ last, segments = before ++ [last] ∧ last.hash = segment.hash ∧
        last.cumulativeTokens = segment.cumulativeTokens)) := by
  unfold pushSegment
  rcases List.eq_nil_or_concat segments with rfl | ⟨before, last, rfl⟩
  · exact ⟨[], segment.ttlSecs, rfl, .inl rfl⟩
  · rw [List.concat_eq_append, List.getLast?_concat]
    dsimp only
    split_ifs with same
    · refine ⟨before, max last.ttlSecs segment.ttlSecs, ?_, .inr ⟨last, rfl, same.1, same.2⟩⟩
      rw [List.dropLast_concat, ← same.1, ← same.2]
    · exact ⟨before ++ [last], segment.ttlSecs, rfl, .inl rfl⟩

theorem leads_commit : Leads env s (s.commit env enabled ttl) := by
  unfold Chain.commit
  split_ifs with skipped
  · exact .refl s
  · obtain ⟨before, ttl', pushed, came⟩ :=
      pushSegment_spec ⟨env.digest s.text, s.cacheTokens, ttl⟩ s.segments
    refine ⟨List.prefix_rfl, ?_, fun seed sound => ⟨⟨sound.seeded, ?_, ?_, ?_, sound.covered,
      sound.fits⟩, Nat.le_refl _⟩⟩
    · rintro h tokens ⟨segment, mem, same, count⟩
      unfold Holds
      dsimp only
      rw [pushed]
      rcases came with rfl | ⟨last, split, same_hash, same_count⟩
      · exact ⟨segment, List.mem_append_left _ mem, same, count⟩
      · rw [split] at mem
        rcases List.mem_append.mp mem with old | new
        · exact ⟨segment, List.mem_append_left _ old, same, count⟩
        · rw [List.mem_singleton.mp new] at same count
          exact ⟨_, List.mem_append_right _ List.mem_cons_self, same_hash.symm.trans same,
            same_count.symm.trans count⟩
    · dsimp only
      rw [pushed, List.map_append, List.pairwise_append]
      have sub : before.Sublist s.segments := by
        rcases came with rfl | ⟨last, split, -⟩
        · exact List.Sublist.refl _
        · rw [split]
          exact List.sublist_append_left _ _
      refine ⟨sound.sorted.sublist (sub.map _), List.pairwise_singleton _ _, ?_⟩
      intro a mem b single
      obtain ⟨segment, there, rfl⟩ := List.mem_map.mp mem
      rw [List.mem_singleton.mp single]
      exact sound.bounded segment (sub.subset there)
    · intro segment mem
      dsimp only at mem
      rw [pushed] at mem
      rcases List.mem_append.mp mem with old | new
      · refine sound.bounded segment ?_
        rcases came with rfl | ⟨last, split, -⟩
        · exact old
        · rw [split]
          exact List.mem_append_left _ old
      · rw [List.mem_singleton.mp new]
    · intro segment mem
      dsimp only at mem
      rw [pushed] at mem
      rcases List.mem_append.mp mem with old | new
      · refine sound.hashed segment ?_
        rcases came with rfl | ⟨last, split, -⟩
        · exact old
        · rw [split]
          exact List.mem_append_left _ old
      · rw [List.mem_singleton.mp new]
        exact ⟨s.text, sound.seeded, List.prefix_rfl, rfl⟩

/-- A commit of hashed tokens leaves their segment. -/
theorem holds_commit (some : 0 < s.cacheTokens) :
    Holds (s.commit env true ttl) (env.digest s.text) s.cacheTokens := by
  obtain ⟨before, ttl', pushed, -⟩ :=
    pushSegment_spec ⟨env.digest s.text, s.cacheTokens, ttl⟩ s.segments
  have open_ : ¬ ((!true || s.cacheTokens == 0) = true) := by
    simp only [Bool.not_true, Bool.false_or, beq_iff_eq]
    omega
  unfold Chain.commit
  rw [if_neg open_]
  refine ⟨⟨env.digest s.text, s.cacheTokens, ttl'⟩, ?_, rfl, rfl⟩
  dsimp only
  rw [pushed]
  exact List.mem_append_right _ List.mem_cons_self

theorem leads_takeBlock (v : Value) : Leads env s (takeBlock env enabled ttl s v) := by
  unfold takeBlock
  dsimp only
  split_ifs
  · exact (leads_feedBlock enabled v).trans leads_commit
  · exact leads_feedBlock enabled v

theorem leads_feedContent (content : Value) :
    Leads env s (feedContent env enabled ttl s content) := by
  unfold feedContent
  split
  · exact leads_feed _ _ enabled
  · exact .foldl (fun s v => leads_takeBlock v) _ _
  · exact .refl _

theorem leads_feedMessage (msg : Message) : Leads env s (feedMessage env enabled ttl s msg) :=
  (leads_feed msg.role "" enabled).trans (leads_feedContent msg.content)

theorem leads_feedMessages (msgs : List Message) :
    Leads env s (feedMessages env enabled ttl s msgs) := by
  induction msgs generalizing s with
  | nil => exact .refl s
  | cons msg rest ih =>
    cases rest with
    | nil => exact leads_feedMessage msg
    | cons next rest => exact (leads_feedMessage msg).trans (leads_commit.trans ih)

theorem leads_feedBase (req : MessagesRequest) : Leads env s (feedBase env enabled ttl req s) := by
  have tools : Leads env s ((req.tools.getD []).foldl (feedTool env enabled) s) :=
    .foldl (fun s t => leads_feed _ _ enabled) _ _
  have system : ∀ s : Chain H, Leads env s (feedSystem enabled s (req.system.getD [])) := by
    intro s
    exact (Leads.foldl (fun s sys => leads_feed _ _ false) _ s).trans
      (.foldl (fun s sys => leads_feed _ _ enabled) _ _)
  unfold feedBase
  dsimp only
  split_ifs
  · exact tools.trans ((system _).trans leads_commit)
  · exact tools.trans (system _)

theorem sound_chainOf (env : Env H) (req : MessagesRequest) (keyId : Nat) :
    Sound env ((isolationSeed req keyId).getD uncacheable).toList (chainOf env req keyId) := by
  have start : Sound env ((isolationSeed req keyId).getD uncacheable).toList
      (seedChain req keyId : Chain H) :=
    ⟨List.prefix_rfl, List.Pairwise.nil, (fun _ mem => by cases mem), (fun _ mem => by cases mem),
      Nat.le_refl _, Nat.zero_le _⟩
  have leads : Leads env (seedChain req keyId) (chainOf env req keyId) :=
    (leads_feedBase req).trans (leads_feedMessages req.messages)
  exact (leads.sound _ start).1

end KiroRs.Cache.Chains
