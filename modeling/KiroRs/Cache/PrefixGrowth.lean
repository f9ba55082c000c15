/- Path: KiroRs/Cache/PrefixGrowth
   source: src/anthropic/cache_metering.rs
   digest: A conversation that grows finds what its beginning committed. -/

import Mathlib.Data.List.Pairwise
import KiroRs.Cache.Chains

set_option autoImplicit false
set_option relaxedAutoImplicit false

namespace KiroRs.Cache.PrefixGrowth

open KiroRs.Lib
open KiroRs.Converter.Json (Value)
open KiroRs.Converter.Requests (Message)
open KiroRs.Cache.Signatures
open KiroRs.Cache.Segments
open KiroRs.Cache.Chains
open KiroRs.Cache.Meter

def withoutControl : Value → Value
  | .object fields => .object (Dicts.remove fields "cache_control")
  | v => v

def printsWhole (v : Value) : Bool :=
  match textOf v "type" with
  | "text" | "thinking" | "redacted_thinking" | "tool_use" | "tool_result" => false
  | "image" => (imageSourceParts v).2.isEmpty
  | _ => true

/-- The block of a later request, whose `cache_control` may have changed. -/
def Remarked (b b' : Value) : Prop := withoutControl b = withoutControl b'

structure Kept (b b' : Value) : Prop where
  alike : Remarked b b'
  quiet : printsWhole b = true → b = b'

theorem Kept.refl (b : Value) : Kept b b := ⟨rfl, fun _ => rfl⟩

theorem get_withoutControl (v : Value) {key : String} (other : key ≠ "cache_control") :
    (withoutControl v).get key = v.get key := by
  cases v with
  | object fields => exact Dicts.get_remove_ne other
  | null | bool _ | number _ | string _ | array _ => rfl

theorem Kept.get {b b' : Value} (kept : Kept b b') {key : String} (other : key ≠ "cache_control") :
    b.get key = b'.get key := by
  rw [← get_withoutControl b other, kept.alike, get_withoutControl b' other]

theorem Kept.textOf {b b' : Value} (kept : Kept b b') {key : String}
    (other : key ≠ "cache_control") : textOf b key = textOf b' key := by
  unfold Signatures.textOf
  rw [kept.get other]

theorem Kept.imageSourceParts {b b' : Value} (kept : Kept b b') :
    imageSourceParts b = imageSourceParts b' := by
  unfold Signatures.imageSourceParts
  rw [kept.get (by decide)]

variable (formatFloat : Int → Int → String)

theorem Kept.canonicalField {b b' : Value} (kept : Kept b b') {key : String}
    (other : key ≠ "cache_control") :
    canonicalField formatFloat b key = canonicalField formatFloat b' key := by
  unfold Signatures.canonicalField
  rw [kept.get other]

theorem Kept.signature {b b' : Value} (kept : Kept b b') :
    blockSignatureValue formatFloat b = blockSignatureValue formatFloat b' := by
  cases whole : printsWhole b with
  | true => rw [kept.quiet whole]
  | false =>
    unfold printsWhole at whole
    unfold blockSignatureValue imageSignatureValue
    rw [← kept.textOf (by decide : "type" ≠ "cache_control"),
      ← kept.textOf (by decide : "text" ≠ "cache_control"),
      ← kept.textOf (by decide : "thinking" ≠ "cache_control"),
      ← kept.textOf (by decide : "data" ≠ "cache_control"),
      ← kept.textOf (by decide : "name" ≠ "cache_control"),
      ← kept.get (by decide : "is_error" ≠ "cache_control"),
      ← kept.canonicalField formatFloat (by decide : "input" ≠ "cache_control"),
      ← kept.canonicalField formatFloat (by decide : "content" ≠ "cache_control"),
      ← kept.imageSourceParts]
    split at whole
    all_goals simp_all

theorem contentField_eq (fields : List (String × Value)) : contentField formatFloat fields =
    ((Dicts.get fields "content").map (blockContentTokenText formatFloat)).getD "" := by
  induction fields with
  | nil =>
    unfold contentField
    rfl
  | cons p rest ih =>
    unfold contentField
    rw [ih, Dicts.get_cons]
    split_ifs <;> rfl

theorem blockTokenText_eq (v : Value) : blockTokenText formatFloat v =
    match plainTokenText formatFloat v with
    | some text => text
    | none =>
      if textOf v "type" = "tool_result" then
        ((v.get "content").map (blockContentTokenText formatFloat)).getD ""
      else canonicalJson formatFloat v := by
  cases v with
  | object fields =>
    unfold blockTokenText
    rw [contentField_eq]
    rfl
  | null | bool _ | number _ | string _ | array _ =>
    unfold blockTokenText
    rfl

theorem Kept.tokenText {b b' : Value} (kept : Kept b b') :
    blockTokenText formatFloat b = blockTokenText formatFloat b' := by
  cases whole : printsWhole b with
  | true => rw [kept.quiet whole]
  | false =>
    rw [blockTokenText_eq, blockTokenText_eq]
    unfold plainTokenText
    unfold printsWhole at whole
    rw [← kept.textOf (by decide : "type" ≠ "cache_control"),
      ← kept.textOf (by decide : "text" ≠ "cache_control"),
      ← kept.textOf (by decide : "thinking" ≠ "cache_control"),
      ← kept.textOf (by decide : "data" ≠ "cache_control"),
      ← kept.textOf (by decide : "name" ≠ "cache_control"),
      ← kept.get (by decide : "content" ≠ "cache_control"),
      ← kept.canonicalField formatFloat (by decide : "input" ≠ "cache_control")]
    split at whole
    all_goals simp_all

/-- A message of a later request, the same up to how its blocks may differ. -/
inductive Alike (r : Value → Value → Prop) : Message → Message → Prop where
  | same (msg : Message) : Alike r msg msg
  | blocks (role : String) {blocks blocks' : List Value} (each : List.Forall₂ r blocks blocks') :
      Alike r ⟨role, .array blocks⟩ ⟨role, .array blocks'⟩

/-- Two chains at the same point of the hashed prompt. The dynamic head of the system messages and
the lifetimes do not count. -/
def SamePoint {H : Type} (s s' : Chain H) : Prop :=
  s.text = s'.text ∧ s.cacheTokens = s'.cacheTokens

variable {H : Type} {env : Env H} {enabled : Bool} {s s' : Chain H}

theorem SamePoint.symm (same : SamePoint s s') : SamePoint s' s := ⟨same.1.symm, same.2.symm⟩

theorem SamePoint.trans {s'' : Chain H} (first : SamePoint s s') (later : SamePoint s' s'') :
    SamePoint s s'' := ⟨first.1.trans later.1, first.2.trans later.2⟩

theorem samePoint_hash (same : SamePoint s s') (hashText : String) (participates : Bool) :
    SamePoint (s.hash hashText participates) (s'.hash hashText participates) := by
  cases participates with
  | true => exact ⟨congrArg (· ++ hashText) same.1, same.2⟩
  | false => exact same

theorem samePoint_count (same : SamePoint s s') (tokens : Nat) (participates : Bool) :
    SamePoint (s.count tokens participates) (s'.count tokens participates) := by
  cases participates with
  | true => exact ⟨same.1, congrArg (saturatingAdd · tokens) same.2⟩
  | false => exact same

theorem samePoint_feed (same : SamePoint s s') (hashText tokenText : String) (participates : Bool) :
    SamePoint (s.feed hashText tokenText participates) (s'.feed hashText tokenText participates) := by
  have hashed : SamePoint (s.hash hashText participates) (s'.hash hashText participates) :=
    samePoint_hash same hashText participates
  unfold Chain.feed
  dsimp only
  split_ifs
  · exact hashed
  · exact samePoint_count hashed _ participates

theorem samePoint_skipped (s : Chain H) (tokenText : String) :
    SamePoint (s.feed "" tokenText false) s := by
  unfold Chain.feed
  dsimp only
  split_ifs
  · exact ⟨rfl, rfl⟩
  · exact ⟨rfl, rfl⟩

theorem samePoint_foldl {α : Type} {f f' : Chain H → α → Chain H}
    (each : ∀ s s' x, SamePoint s s' → SamePoint (f s x) (f' s' x)) (xs : List α)
    (same : SamePoint s s') : SamePoint (xs.foldl f s) (xs.foldl f' s') := by
  induction xs generalizing s s' with
  | nil => exact same
  | cons x xs ih => exact ih (each s s' x same)

/-- The system messages from the first `cache_control` on. -/
def stableSystem (req : MessagesRequest) : List SystemMessage :=
  (req.system.getD []).drop (skipUntil (req.system.getD []))

theorem samePoint_feedSystem (same : SamePoint s s') (req : MessagesRequest) :
    SamePoint (feedSystem enabled s (req.system.getD []))
      (((stableSystem req).map (·.text)).foldl
        (fun s text => s.feed ("sys:" ++ text) text enabled) s') := by
  have skipped : ∀ (systems : List SystemMessage) (s : Chain H),
      SamePoint (systems.foldl (fun s sys => s.feed "" sys.text false) s) s := by
    intro systems
    induction systems with
    | nil => exact fun s => ⟨rfl, rfl⟩
    | cons sys rest ih => exact fun s => (ih _).trans (samePoint_skipped s sys.text)
  unfold feedSystem
  rw [List.foldl_map]
  refine samePoint_foldl ?_ _ ((skipped _ s).trans same)
  exact fun s s' sys same => samePoint_feed same _ _ enabled

theorem samePoint_feedBlock (same : SamePoint s s') {b b' : Value} (kept : Kept b b') :
    SamePoint (feedBlock env enabled s b) (feedBlock env enabled s' b') := by
  have type : b.get "type" = b'.get "type" := kept.get (by decide)
  unfold feedBlock
  rw [← type, kept.signature, kept.tokenText]
  split_ifs with image
  · have signature : imageSignatureValue env.formatFloat b =
        imageSignatureValue env.formatFloat b' := by
      have whole := kept.signature env.formatFloat
      have named : textOf b "type" = "image" := by
        unfold Signatures.textOf
        rw [image]
        rfl
      unfold blockSignatureValue at whole
      rw [← kept.textOf (by decide : "type" ≠ "cache_control"), named] at whole
      exact whole
    rw [signature, kept.imageSourceParts]
    exact samePoint_count (samePoint_hash same _ enabled) _ enabled
  · exact samePoint_feed same _ _ enabled

section

variable [DecidableEq H] {ttl ttl' : Nat}

theorem samePoint_commit (s : Chain H) : SamePoint (s.commit env enabled ttl) s := by
  unfold Chain.commit
  split_ifs
  · exact ⟨rfl, rfl⟩
  · exact ⟨rfl, rfl⟩

theorem samePoint_takeBlock (same : SamePoint s s') {b b' : Value} (kept : Kept b b') :
    SamePoint (takeBlock env enabled ttl s b) (takeBlock env enabled ttl' s' b') := by
  have fed : SamePoint (feedBlock env enabled s b) (feedBlock env enabled s' b') :=
    samePoint_feedBlock same kept
  unfold takeBlock
  dsimp only
  split_ifs
  · exact (samePoint_commit _).trans (fed.trans (samePoint_commit _).symm)
  · exact (samePoint_commit _).trans fed
  · exact fed.trans (samePoint_commit _).symm
  · exact fed

theorem samePoint_blocks {blocks blocks' : List Value} (each : List.Forall₂ Kept blocks blocks')
    (same : SamePoint s s') : SamePoint (blocks.foldl (takeBlock env enabled ttl) s)
      (blocks'.foldl (takeBlock env enabled ttl') s') := by
  induction each generalizing s s' with
  | nil => exact same
  | cons kept _ ih => exact ih (samePoint_takeBlock same kept)

theorem samePoint_feedMessage (same : SamePoint s s') {msg msg' : Message}
    (kept : Alike Kept msg msg') :
    SamePoint (feedMessage env enabled ttl s msg) (feedMessage env enabled ttl' s' msg') := by
  have fed : ∀ role, SamePoint (s.feed role "" enabled) (s'.feed role "" enabled) :=
    fun role => samePoint_feed same role "" enabled
  cases kept with
  | same msg =>
    unfold feedMessage feedContent
    split
    · exact samePoint_feed (fed _) _ _ enabled
    · exact samePoint_blocks (List.forall₂_same.mpr fun b _ => Kept.refl b) (fed _)
    · exact fed _
  | blocks role each => exact samePoint_blocks each (fed role)

theorem samePoint_feedMessages {msgs msgs' : List Message}
    (each : List.Forall₂ (Alike Kept) msgs msgs') (same : SamePoint s s') :
    SamePoint (feedMessages env enabled ttl s msgs) (feedMessages env enabled ttl' s' msgs') := by
  induction each generalizing s s' with
  | nil => exact same
  | cons kept others ih =>
    have fed : SamePoint (feedMessage env enabled ttl s _) (feedMessage env enabled ttl' s' _) :=
      samePoint_feedMessage same kept
    cases others with
    | nil => exact fed
    | cons _ _ => exact ih ((samePoint_commit _).trans (fed.trans (samePoint_commit _).symm))

theorem samePoint_feedBase (same : SamePoint s s') {req req' : MessagesRequest}
    (tools : req.tools.getD [] = req'.tools.getD [])
    (system : (stableSystem req).map (·.text) = (stableSystem req').map (·.text)) :
    SamePoint (feedBase env enabled ttl req s) (feedBase env enabled ttl' req' s') := by
  have fed : SamePoint
      (feedSystem enabled ((req.tools.getD []).foldl (feedTool env enabled) s)
        (req.system.getD []))
      (feedSystem enabled ((req'.tools.getD []).foldl (feedTool env enabled) s')
        (req'.system.getD [])) := by
    have withTools : SamePoint ((req.tools.getD []).foldl (feedTool env enabled) s)
        ((req'.tools.getD []).foldl (feedTool env enabled) s') := by
      rw [tools]
      refine samePoint_foldl ?_ _ same
      intro s s' t same
      exact samePoint_feed same (toolSignature env.formatFloat t) (toolTokenText env.formatFloat t)
        enabled
    refine (samePoint_feedSystem withTools req).trans ?_
    rw [system]
    exact (samePoint_feedSystem ⟨rfl, rfl⟩ req').symm
  unfold feedBase
  dsimp only
  split_ifs
  · exact (samePoint_commit _).trans (fed.trans (samePoint_commit _).symm)
  · exact (samePoint_commit _).trans fed
  · exact fed.trans (samePoint_commit _).symm
  · exact fed

end

def boundary [DecidableEq H] (env : Env H) (req : MessagesRequest) (keyId k : Nat) : Chain H :=
  chainOf env { req with messages := req.messages.take k } keyId

/-- The last block of the last message carries a `cache_control`. -/
def endMarked (msgs : List Message) : Bool :=
  match msgs.getLast? with
  | some ⟨_, .array blocks⟩ => blocks.getLast?.any blockHasCacheControl
  | _ => false

section

variable [DecidableEq H] {ttl ttl' : Nat}

def CutHere (env : Env H) (s : Chain H) : Prop := Holds s (env.digest s.text) s.cacheTokens

theorem cutHere_commit (some : 0 < (s.commit env true ttl).cacheTokens) :
    CutHere env (s.commit env true ttl) := by
  obtain ⟨text, tokens⟩ : SamePoint (s.commit env true ttl) s := samePoint_commit s
  unfold CutHere
  rw [tokens] at some
  rw [text, tokens]
  exact holds_commit some

theorem cutHere_feedMessage {msg : Message} (marked : endMarked [msg] = true)
    (some : 0 < (feedMessage env true ttl s msg).cacheTokens) :
    CutHere env (feedMessage env true ttl s msg) := by
  obtain ⟨role, content⟩ := msg
  cases content with
  | array blocks =>
    rcases List.eq_nil_or_concat blocks with rfl | ⟨before, last, rfl⟩
    · cases marked
    · rw [List.concat_eq_append] at marked some ⊢
      unfold endMarked at marked
      simp only [List.getLast?_singleton, List.getLast?_append, Option.some_or, Option.any_some]
        at marked
      have committed : feedMessage env true ttl s ⟨role, .array (before ++ [last])⟩ =
          (feedBlock env true (before.foldl (takeBlock env true ttl) (s.feed role "" true))
            last).commit env true ttl := by
        unfold feedMessage feedContent
        dsimp only
        rw [List.foldl_append, List.foldl_cons, List.foldl_nil]
        unfold takeBlock
        dsimp only
        rw [if_pos marked]
      rw [committed] at some ⊢
      exact cutHere_commit some
  | null | bool _ | number _ | string _ | object _ => cases marked

/-- Every message but the last one ends a segment, and the last one does where its last block is
marked. -/
theorem holds_feedMessages {msgs : List Message} {k : Nat} (start : 0 < k)
    (within : k < msgs.length ∨ k = msgs.length ∧ endMarked msgs = true)
    (same : SamePoint s s')
    (some : 0 < (feedMessages env true ttl' s' (msgs.take k)).cacheTokens) :
    Holds (feedMessages env true ttl s msgs)
      (env.digest (feedMessages env true ttl' s' (msgs.take k)).text)
      (feedMessages env true ttl' s' (msgs.take k)).cacheTokens := by
  induction msgs generalizing s s' k with
  | nil =>
    rw [List.length_nil] at within
    omega
  | cons msg rest ih =>
    have fed : SamePoint (feedMessage env true ttl s msg) (feedMessage env true ttl' s' msg) :=
      samePoint_feedMessage same (.same msg)
    obtain ⟨k, rfl⟩ : ∃ n, k = n + 1 := ⟨k - 1, by omega⟩
    rw [List.take_succ_cons] at some ⊢
    cases rest with
    | nil =>
      have last : k = 0 ∧ endMarked [msg] = true := by
        rcases within with inside | ⟨all, marked⟩
        · exact absurd (Nat.lt_of_succ_lt_succ inside) (Nat.not_lt_zero k)
        · exact ⟨Nat.succ.inj all, marked⟩
      rw [last.1] at some ⊢
      unfold feedMessages at some ⊢
      rw [List.take_nil] at some ⊢
      rw [← fed.2] at some
      rw [← fed.1, ← fed.2]
      exact cutHere_feedMessage last.2 some
    | cons next rest =>
      cases k with
      | zero =>
        have committed : Holds ((feedMessage env true ttl s msg).commit env true ttl)
            (env.digest (feedMessage env true ttl s msg).text)
            (feedMessage env true ttl s msg).cacheTokens := by
          refine holds_commit ?_
          rw [fed.2]
          exact some
        rw [fed.1, fed.2] at committed
        exact (leads_feedMessages (next :: rest)).kept _ _ committed
      | succ k =>
        refine ih (Nat.succ_pos k) ?_ ((samePoint_commit _).trans
          (fed.trans (samePoint_commit _).symm)) some
        rcases within with inside | ⟨all, marked⟩
        · exact .inl (Nat.lt_of_succ_lt_succ inside)
        · exact .inr ⟨Nat.succ.inj all, marked⟩

theorem holds_feedBase {req : MessagesRequest}
    (some : 0 < (feedBase env true ttl req s).cacheTokens) :
    CutHere env (feedBase env true ttl req s) := by
  unfold feedBase at some ⊢
  dsimp only at some ⊢
  split_ifs at some ⊢ with counted
  · exact cutHere_commit some
  · exact absurd some counted

/-- A request cuts its chain at the boundaries between its messages, behind the system messages,
and at its end when it is marked. -/
theorem holds_boundary {req : MessagesRequest} {keyId k : Nat}
    (enabled : cacheEnabled req keyId = true)
    (within : k < req.messages.length ∨ k = req.messages.length ∧ endMarked req.messages = true)
    (some : 0 < (boundary env req keyId k).cacheTokens) :
    Holds (chainOf env req keyId) (env.digest (boundary env req keyId k).text)
      (boundary env req keyId k).cacheTokens := by
  have cutEnabled : cacheEnabled { req with messages := req.messages.take k } keyId = true :=
    enabled
  have base : SamePoint
      (feedBase env true (detectMaxTtl req) req (seedChain req keyId))
      (feedBase env true (detectMaxTtl { req with messages := req.messages.take k })
        { req with messages := req.messages.take k } (seedChain req keyId)) :=
    samePoint_feedBase ⟨rfl, rfl⟩ rfl rfl
  unfold boundary chainOf at some ⊢
  dsimp only at some ⊢
  rw [cutEnabled] at some ⊢
  rw [enabled]
  cases k with
  | zero =>
    rw [List.take_zero] at some base ⊢
    unfold feedMessages at some
    have committed : CutHere env
        (feedBase env true (detectMaxTtl req) req (seedChain req keyId)) := by
      refine holds_feedBase ?_
      rw [base.2]
      exact some
    unfold CutHere at committed
    rw [base.1, base.2] at committed
    exact (leads_feedMessages req.messages).kept _ _ committed
  | succ k => exact holds_feedMessages (Nat.succ_pos k) within base some

/-- `req'` continues `req`: the same domain, tools and stable system messages, and its messages
begin with those of `req`, up to how the blocks may differ. -/
structure Extends (r : Value → Value → Prop) (req req' : MessagesRequest) (keyId keyId' : Nat) :
    Prop where
  domain : isolationSeed req keyId = isolationSeed req' keyId'
  tools : req.tools.getD [] = req'.tools.getD []
  system : (stableSystem req).map (·.text) = (stableSystem req').map (·.text)
  shared : List.Forall₂ (Alike r) req.messages (req'.messages.take req.messages.length)

theorem samePoint_boundary {req req' : MessagesRequest} {keyId keyId' k : Nat}
    (ext : Extends Kept req req' keyId keyId') (within : k ≤ req.messages.length) :
    SamePoint (boundary env req keyId k) (boundary env req' keyId' k) := by
  have seeds : SamePoint (seedChain req keyId : Chain H) (seedChain req' keyId') := by
    unfold seedChain
    rw [ext.domain]
    exact ⟨rfl, rfl⟩
  have enabled : cacheEnabled { req with messages := req.messages.take k } keyId =
      cacheEnabled { req' with messages := req'.messages.take k } keyId' :=
    congrArg Option.isSome ext.domain
  have shared : List.Forall₂ (Alike Kept) (req.messages.take k) (req'.messages.take k) := by
    have taken := List.forall₂_take k ext.shared
    rw [List.take_take, min_eq_left within] at taken
    exact taken
  unfold boundary chainOf
  dsimp only
  rw [enabled]
  exact samePoint_feedMessages shared (samePoint_feedBase seeds ext.tools ext.system)

end

theorem deepestHit_ge {p : Segment H → Bool} {segments : List (Segment H)}
    (sorted : (segments.map (·.cumulativeTokens)).Pairwise (· ≤ ·)) {segment : Segment H}
    (mem : segment ∈ segments) (hit : p segment = true) :
    segment.cumulativeTokens ≤
      deepestHit (segments.map p) (segments.map (·.cumulativeTokens)) := by
  induction segments generalizing segment with
  | nil => cases mem
  | cons first rest ih =>
    obtain ⟨least, ordered⟩ := List.pairwise_cons.mp sorted
    rw [List.map_cons, List.map_cons]
    cases here : p first with
    | false =>
      unfold deepestHit
      rcases List.mem_cons.mp mem with rfl | mem
      · rw [here] at hit
        cases hit
      · exact ih ordered mem hit
    | true =>
      unfold deepestHit
      split_ifs with later
      · rcases List.mem_cons.mp mem with rfl | mem
        · rw [List.contains_iff_mem] at later
          obtain ⟨next, there, found⟩ := List.mem_map.mp later
          exact Nat.le_trans (least _ (List.mem_map_of_mem there)) (ih ordered there found)
        · exact ih ordered mem hit
      · rcases List.mem_cons.mp mem with rfl | mem
        · exact Nat.le_refl _
        · refine absurd ?_ later
          rw [List.contains_iff_mem, ← hit]
          exact List.mem_map_of_mem mem

theorem deepestHit_le {hits : List Bool} {tokens : List Nat} {bound : Nat}
    (bounded : ∀ t ∈ tokens, t ≤ bound) : deepestHit hits tokens ≤ bound := by
  induction tokens generalizing hits with
  | nil =>
    have none : deepestHit hits [] = 0 := by
      rcases hits with _ | ⟨_ | _, _⟩ <;> rfl
    rw [none]
    exact Nat.zero_le bound
  | cons t rest ih =>
    have others : ∀ t ∈ rest, t ≤ bound := fun t mem => bounded t (List.mem_cons_of_mem _ mem)
    cases hits with
    | nil => exact Nat.zero_le _
    | cons hit hits =>
      cases hit with
      | false => exact ih others
      | true =>
        unfold deepestHit
        split_ifs
        · exact ih others
        · exact bounded t List.mem_cons_self

theorem asI32_of_lt {n : Nat} (small : n < 2147483648) : asI32 n = n := if_pos small

theorem plan_eq [DecidableEq H] (env : Env H) (now : Nat) (m : CacheMeter H)
    (req : MessagesRequest) (keyId : Nat) :
    (computeCacheUsage env now m req keyId).1.cacheCoveredEst =
        asI32 (((chainOf env req keyId).segments.map (·.cumulativeTokens)).getLast?.getD 0) ∧
      (computeCacheUsage env now m req keyId).1.promptTotalEst =
        asI32 (chainOf env req keyId).promptTotalTokens := by
  unfold computeCacheUsage extractSegments
  dsimp only
  cases (chainOf env req keyId).segments with
  | nil => exact ⟨rfl, rfl⟩
  | cons first rest => exact ⟨rfl, rfl⟩

theorem estimates_ordered [DecidableEq H] (env : Env H) (now : Nat) (m : CacheMeter H)
    (req : MessagesRequest) (keyId : Nat) :
    let plan := (computeCacheUsage env now m req keyId).1
    (0 ≤ plan.cacheRead ∧ plan.cacheRead ≤ plan.cacheCoveredEst ∧
      plan.cacheCoveredEst ≤ plan.promptTotalEst) ↔
      (chainOf env req keyId).promptTotalTokens < 2147483648 := by
  have sound := sound_chainOf env req keyId
  have hits := cacheRead_eq env now m req keyId
  obtain ⟨covers, total⟩ := plan_eq env now m req keyId
  dsimp only
  rw [hits, covers, total]
  have last : ((chainOf env req keyId).segments.map (·.cumulativeTokens)).getLast?.getD 0 ≤
      (chainOf env req keyId).promptTotalTokens := by
    refine Nat.le_trans ?_ sound.covered
    cases found : ((chainOf env req keyId).segments.map (·.cumulativeTokens)).getLast? with
    | none => exact Nat.zero_le _
    | some t =>
      obtain ⟨segment, mem, rfl⟩ := List.mem_map.mp (List.mem_of_getLast? found)
      exact sound.bounded segment mem
  have deepest : deepestHit
      ((chainOf env req keyId).segments.map fun s => m.lives now s.hash)
      ((chainOf env req keyId).segments.map (·.cumulativeTokens)) ≤
      ((chainOf env req keyId).segments.map (·.cumulativeTokens)).getLast?.getD 0 := by
    refine deepestHit_le ?_
    intro t mem
    rw [List.getLast?_eq_some_getLast (List.ne_nil_of_mem mem), Option.getD_some]
    exact sound.sorted.rel_getLast mem
  have fits := sound.fits
  unfold u32Max at fits
  constructor
  · intro ordered
    by_contra large
    have negative : asI32 (chainOf env req keyId).promptTotalTokens < 0 := by
      unfold asI32
      rw [if_neg large]
      omega
    omega
  · intro small
    rw [asI32_of_lt small, asI32_of_lt (by omega), asI32_of_lt (by omega)]
    omega

section

variable [DecidableEq H]

def unexpired (m : CacheMeter H) (now : Nat) (hs : List H) : Bool :=
  hs.all fun h => (m.deadline h).all (now < ·)

/-- What happens until `t` evicts nothing and lets none of these entries expire. -/
def undisturbed (env : Env H) (hs : List H) (t : Nat) : CacheMeter H → List (Event H) → Bool
  | m, [] => unexpired m t hs
  | m, event :: events =>
    roomy env m event && (match event with
      | .sweep now => unexpired m now hs
      | _ => true) && undisturbed env hs t (step env m event) events

theorem present_step {event : Event H} {m : CacheMeter H} {hs : List H}
    (room : roomy env m event = true)
    (kept : ∀ now, event = .sweep now → unexpired m now hs = true)
    (present : ∀ h ∈ hs, (m.deadline h).isSome = true) :
    ∀ h ∈ hs, ((step env m event).deadline h).isSome = true := by
  intro h mem
  rw [deadline_step room]
  cases event with
  | measure now req keyId => exact present h mem
  | commitSuccess now req keyId iterate =>
    cases plan : commitOf env req keyId with
    | none =>
      simp only [deadlineStep, plan]
      exact present h mem
    | some c =>
      simp only [deadlineStep, plan]
      split_ifs
      · rfl
      · exact present h mem
  | sweep now =>
    have lives := List.all_eq_true.mp (kept now rfl) h mem
    obtain ⟨d, there⟩ := Option.isSome_iff_exists.mp (present h mem)
    unfold deadlineStep
    dsimp only
    rw [there] at lives ⊢
    rw [Option.all_some] at lives
    rw [Option.filter_some, if_pos lives]
    rfl

theorem lives_of_undisturbed {hs : List H} {t : Nat} {events : List (Event H)}
    {m : CacheMeter H} (calm : undisturbed env hs t m events = true)
    (present : ∀ h ∈ hs, (m.deadline h).isSome = true) :
    ∀ h ∈ hs, (events.foldl (step env) m).lives t h = true := by
  induction events generalizing m with
  | nil =>
    intro h mem
    have unexpired := List.all_eq_true.mp calm h mem
    obtain ⟨d, there⟩ := Option.isSome_iff_exists.mp (present h mem)
    show (m.deadline h).any (t < ·) = true
    rw [there] at unexpired ⊢
    exact unexpired
  | cons event events ih =>
    unfold undisturbed at calm
    rw [Bool.and_eq_true, Bool.and_eq_true] at calm
    obtain ⟨⟨room, kept⟩, calm⟩ := calm
    refine ih calm (present_step room ?_ present)
    rintro now rfl
    exact kept

theorem present_commit {m : CacheMeter H} {now keyId : Nat} {req : MessagesRequest}
    {iterate : List (H × CacheEntry) → List (H × CacheEntry)} {c : CacheCommit H}
    (plan : commitOf env req keyId = some c)
    (room : roomy env m (.commitSuccess now req keyId iterate) = true) :
    ∀ h ∈ c.segmentHashes,
      ((step env m (.commitSuccess now req keyId iterate)).deadline h).isSome = true := by
  intro h mem
  rw [deadline_step room]
  unfold deadlineStep
  dsimp only
  rw [plan]
  dsimp only
  rw [if_pos mem]
  rfl

theorem enabled_of_plan {req : MessagesRequest} {keyId : Nat} {c : CacheCommit H}
    (plan : commitOf env req keyId = some c) : cacheEnabled req keyId = true := by
  unfold commitOf extractSegments at plan
  dsimp only at plan
  split at plan
  · cases plan
  · split_ifs at plan with enabled
    exact enabled

/-- A segment that ends behind the first `k` messages. -/
def EndsAt (env : Env H) (req : MessagesRequest) (keyId k : Nat) (segment : Segment H) : Prop :=
  segment.hash = env.digest (boundary env req keyId k).text ∧
    segment.cumulativeTokens = (boundary env req keyId k).cacheTokens

/-- Behind a committed request, every request that continues it without changing the mark of a
block that prints it reads at least each segment that ended at a boundary between messages where
it cuts too. The estimates of every request are in order while its prompt fits an `i32`. -/
theorem continued_reads (env : Env H) :
    (∀ (m : CacheMeter H) (t₀ : Nat) (req : MessagesRequest) (keyId : Nat)
      (iterate : List (H × CacheEntry) → List (H × CacheEntry)) (c : CacheCommit H)
      (events : List (Event H)) (t : Nat) (req' : MessagesRequest) (keyId' : Nat),
      commitOf env req keyId = some c →
      roomy env m (.commitSuccess t₀ req keyId iterate) = true →
      undisturbed env c.segmentHashes t (step env m (.commitSuccess t₀ req keyId iterate)) events
        = true →
      Extends Kept req req' keyId keyId' →
      (chainOf env req' keyId').promptTotalTokens < 2147483648 →
      ∀ segment ∈ (chainOf env req keyId).segments, ∀ k ≤ req.messages.length,
        EndsAt env req keyId k segment →
        (k < req'.messages.length ∨ endMarked req'.messages = true) →
        segment.cumulativeTokens ≤ (computeCacheUsage env t
          (events.foldl (step env) (step env m (.commitSuccess t₀ req keyId iterate)))
          req' keyId').1.cacheRead) ∧
    ∀ (m : CacheMeter H) (now : Nat) (req : MessagesRequest) (keyId : Nat),
      let plan := (computeCacheUsage env now m req keyId).1
      (0 ≤ plan.cacheRead ∧ plan.cacheRead ≤ plan.cacheCoveredEst ∧
        plan.cacheCoveredEst ≤ plan.promptTotalEst) ↔
        (chainOf env req keyId).promptTotalTokens < 2147483648 := by
  refine ⟨?_, fun m now req keyId => estimates_ordered env now m req keyId⟩
  intro m t₀ req keyId iterate c events t req' keyId' plan room calm ext small segment mem k within
    ends cuts
  have sound := sound_chainOf env req' keyId'
  rw [cacheRead_eq]
  have bound : ∀ hits, deepestHit hits ((chainOf env req' keyId').segments.map
      (·.cumulativeTokens)) < 2147483648 := by
    intro hits
    refine Nat.lt_of_le_of_lt (deepestHit_le ?_) small
    intro n there
    obtain ⟨segment', mem', rfl⟩ := List.mem_map.mp there
    exact Nat.le_trans (sound.bounded segment' mem') sound.covered
  rw [asI32_of_lt (bound _)]
  refine Int.ofNat_le.mpr ?_
  rcases Nat.eq_zero_or_pos segment.cumulativeTokens with none | some
  · rw [none]
    exact Nat.zero_le _
  · have same : SamePoint (boundary env req keyId k) (boundary env req' keyId' k) :=
      samePoint_boundary ext within
    have enabled : cacheEnabled req' keyId' = true := by
      have own := enabled_of_plan plan
      unfold cacheEnabled at own ⊢
      rw [← ext.domain]
      exact own
    have shared : req.messages.length ≤ req'.messages.length := by
      have lengths := ext.shared.length_eq
      rw [List.length_take] at lengths
      omega
    have reached : k < req'.messages.length ∨
        k = req'.messages.length ∧ endMarked req'.messages = true := by
      rcases cuts with inside | marked
      · exact .inl inside
      · rcases Nat.lt_or_ge k req'.messages.length with inside | outside
        · exact .inl inside
        · exact .inr ⟨by omega, marked⟩
    have tokens : 0 < (boundary env req' keyId' k).cacheTokens := by
      rw [← same.2, ← ends.2]
      exact some
    obtain ⟨found, there, hash, count⟩ := holds_boundary enabled reached tokens
    have committed : segment.hash ∈ c.segmentHashes := by
      rw [(commitOf_eq_some plan).1]
      exact List.mem_map_of_mem mem
    have lives := lives_of_undisturbed calm (present_commit plan room) _ committed
    rw [ends.1, same.1, ← hash] at lives
    rw [ends.2, same.2, ← count]
    exact deepestHit_ge sound.sorted there lives

end

def plainEnv : Env String := ⟨id, fun _ _ => 1600, fun _ _ => ""⟩

def document : Value :=
  .object [("source", .object [("data", .string "A report"), ("type", .string "text")]),
    ("type", .string "document")]

def markedDocument : Value :=
  .object [("cache_control", .object [("type", .string "ephemeral")]),
    ("source", .object [("data", .string "A report"), ("type", .string "text")]),
    ("type", .string "document")]

def about (block : Value) (later : List Message) : MessagesRequest :=
  { messages := ⟨"user", .array [block]⟩ :: ⟨"assistant", .string "Noted."⟩ ::
      ⟨"user", .string "Go on."⟩ :: later }

def answered : List Message := [⟨"assistant", .string "Done."⟩, ⟨"user", .string "Thanks."⟩]

def storeAfter (req : MessagesRequest) : CacheMeter String :=
  step plainEnv {} (.commitSuccess 0 req 1 id)

theorem continued_reads_plain :
    ((boundary plainEnv (about document []) 1 2).cacheTokens : Int) ≤
      (computeCacheUsage plainEnv 10 (storeAfter (about document []))
        (about document answered) 1).1.cacheRead := by
  have plan : (commitOf plainEnv (about document []) 1).isSome = true := by decide +kernel
  obtain ⟨c, plan⟩ := Option.isSome_iff_exists.mp plan
  have hashes := (commitOf_eq_some plan).1
  refine (continued_reads plainEnv).1 {} 0 (about document []) 1 id c [] 10
    (about document answered) 1 plan (by decide +kernel) ?_ ⟨rfl, rfl, rfl, ?_⟩
    (by decide +kernel)
    ⟨(boundary plainEnv (about document []) 1 2).text,
      (boundary plainEnv (about document []) 1 2).cacheTokens, 300⟩
    (by decide +kernel) 2 (by decide) ⟨rfl, rfl⟩ (.inl (by decide))
  · rw [hashes]
    decide +kernel
  · exact List.forall₂_same.mpr fun msg _ => .same msg

/-- Marking a document makes every segment behind it a new one. -/
theorem mark_is_read :
    Extends Remarked (about document []) (about markedDocument answered) 1 1 ∧
      roomy plainEnv {} (.commitSuccess 0 (about document []) 1 id) = true ∧
      (∃ c, commitOf plainEnv (about document []) 1 = some c ∧
        undisturbed plainEnv c.segmentHashes 10 (storeAfter (about document [])) [] = true) ∧
      (∃ segment ∈ (chainOf plainEnv (about document []) 1).segments,
        EndsAt plainEnv (about document []) 1 2 segment ∧
        (computeCacheUsage plainEnv 10 (storeAfter (about document []))
          (about markedDocument answered) 1).1.cacheRead < segment.cumulativeTokens) := by
  have plan : (commitOf plainEnv (about document []) 1).isSome = true := by decide +kernel
  obtain ⟨c, plan⟩ := Option.isSome_iff_exists.mp plan
  have hashes := (commitOf_eq_some plan).1
  refine ⟨⟨rfl, rfl, rfl, ?_⟩, by decide +kernel, ⟨c, plan, ?_⟩,
    ⟨(boundary plainEnv (about document []) 1 2).text,
      (boundary plainEnv (about document []) 1 2).cacheTokens, 300⟩, by decide +kernel,
    ⟨rfl, rfl⟩, by decide +kernel⟩
  · refine .cons (.blocks "user" (.cons rfl .nil)) ?_
    exact List.forall₂_same.mpr fun msg _ => .same msg
  · rw [hashes]
    decide +kernel

end KiroRs.Cache.PrefixGrowth
