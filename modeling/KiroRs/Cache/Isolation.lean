/- Path: KiroRs/Cache/Isolation
   source: src/anthropic/cache_metering.rs, src/anthropic/converter.rs
   digest: What the requests of one key and session read of those of others, and when that is
   nothing. -/

import KiroRs.Cache.PrefixGrowth
import KiroRs.Converter.Conversion
import KiroRs.Lib.Unwinding

set_option autoImplicit false
set_option relaxedAutoImplicit false

namespace KiroRs.Cache.Isolation

open KiroRs.Lib
open KiroRs.Lib.Text
open KiroRs.Converter
open KiroRs.Converter.Json
open KiroRs.Converter.Requests (Message)
open KiroRs.Lib.Unwinding
open KiroRs.Cache.Signatures
open KiroRs.Cache.Segments
open KiroRs.Cache.Meter
open KiroRs.Cache.Chains
open KiroRs.Cache.PrefixGrowth

/-- The client key of a request, and the session that the converter finds in its user id. -/
structure Domain where
  keyId : Nat
  session : Except Models.Failure (Option String)
  deriving DecidableEq

def domainOf (cenv : Models.Env) (req : MessagesRequest) (keyId : Nat) : Domain where
  keyId := keyId
  session :=
    match req.metadata.bind (·.userId) with
    | some userId => Conversion.extractSessionId cenv userId
    | none => .ok none

variable {H : Type}

/-- A request of another domain is measured or committed. -/
def Foreign (cenv : Models.Env) (d : Domain) : Event H → Prop
  | .measure _ req keyId => domainOf cenv req keyId ≠ d
  | .commitSuccess _ req keyId _ => domainOf cenv req keyId ≠ d
  | .sweep _ => False

/-- The same event, whatever order the map is gone through in. -/
inductive Alike : Event H → Event H → Prop where
  | measure (now : Nat) (req : MessagesRequest) (keyId : Nat) :
      Alike (.measure now req keyId) (.measure now req keyId)
  | commitSuccess (now : Nat) (req : MessagesRequest) (keyId : Nat)
      (iterate iterate' : List (H × CacheEntry) → List (H × CacheEntry)) :
      Alike (.commitSuccess now req keyId iterate) (.commitSuccess now req keyId iterate')
  | sweep (now : Nat) : Alike (.sweep now) (.sweep now)

variable [DecidableEq H] {env : Env H} {cenv : Models.Env} {d : Domain}

/-- The tokens that a request of the domain reads. -/
def reading (env : Env H) (cenv : Models.Env) (d : Domain) (m : CacheMeter H) :
    Event H → Option Int
  | .measure now req keyId =>
    if domainOf cenv req keyId = d then some (computeCacheUsage env now m req keyId).1.cacheRead
    else none
  | _ => none

def mark : List Char := "_session_".toList

/-- The session is the text behind the first `_session_`, without the white space around it. -/
def SessionBehind (userId session : List Char) : Prop :=
  session ≠ [] ∧ ∃ before after, userId = before ++ mark ++ after ∧
    ¬ mark <:+: before ++ mark.dropLast ∧ session = trimChars after

/-- The user id of the request has the session behind a `_session_`. -/
def Marked (req : MessagesRequest) (session : List Char) : Prop :=
  ∃ userId, req.metadata.bind (·.userId) = some userId ∧ SessionBehind userId.toList session

def blockText (formatFloat : Int → Int → String) (v : Value) : String :=
  if (v.get "type").bind Value.asStr = some "image" then imageSignatureValue formatFloat v
  else blockSignatureValue formatFloat v

def contentTexts (formatFloat : Int → Int → String) : Value → List String
  | .string text => [text]
  | .array blocks => blocks.map (blockText formatFloat)
  | _ => []

def fedText (env : Env H) (req : MessagesRequest) : List Char :=
  ((req.tools.getD []).map (toolSignature env.formatFloat) ++
    ((req.system.getD []).drop (skipUntil (req.system.getD []))).map systemSignature ++
    req.messages.flatMap fun msg => msg.role :: contentTexts env.formatFloat msg.content).flatMap
      String.toList

/-- One name is the other, or goes on to it with what is asked under it. -/
def Meets (name asked name' asked' : List Char) : Prop :=
  name' <+: name ++ asked ∧ name <+: name' ++ asked'

/-- The sessions behind `_session_` do not meet, nor do the client keys where there are none. -/
structure Apart (env : Env H) (req : MessagesRequest) (keyId : Nat) (req' : MessagesRequest)
    (keyId' : Nat) : Prop where
  sessions : ∀ session session', Marked req session → Marked req' session' →
    ¬ Meets session (fedText env req) session' (fedText env req')
  keys : (∀ session, ¬ Marked req session) → (∀ session', ¬ Marked req' session') →
    keyId ≠ 0 → keyId' ≠ 0 →
    ¬ Meets (toString keyId).toList (fedText env req) (toString keyId').toList (fedText env req')

theorem extractSessionId_iff {userId : String} {session : List Char} :
    extractSessionId userId = some (String.ofList session) ↔
      SessionBehind userId.toList session := by
  have proper : mark ≠ [] := by decide
  unfold extractSessionId
  rw [Option.bind_eq_some_iff]
  constructor
  · rintro ⟨⟨before, rest⟩, found, kept⟩
    dsimp only at kept
    split_ifs at kept with empty
    have same : trimChars (rest.drop "_session_".length) = session :=
      String.ofList_injective (Option.some.inj kept)
    obtain ⟨split, ⟨after, rfl⟩, first⟩ := (Search.splitFind_eq_some_iff proper).mp found
    refine ⟨?_, before, after, ?_, first, ?_⟩
    · rintro rfl
      rw [same] at empty
      exact empty rfl
    · rw [split, ← List.append_assoc]
    · rw [← same]
      rfl
  · rintro ⟨nonempty, before, after, split, first, rfl⟩
    refine ⟨(before, mark ++ after), ?_, ?_⟩
    · rw [split, List.append_assoc]
      exact (Search.splitFind_eq_some_iff proper).mpr ⟨rfl, List.prefix_append _ _, first⟩
    · have dropped : (mark ++ after).drop "_session_".length = after := rfl
      dsimp only
      rw [dropped, if_neg]
      exact fun empty => nonempty (List.isEmpty_iff.mp empty)

theorem marked_iff {req : MessagesRequest} {session : List Char} : Marked req session ↔
    (req.metadata.bind (·.userId)).bind extractSessionId = some (String.ofList session) := by
  rw [Option.bind_eq_some_iff]
  exact exists_congr fun userId => and_congr_right fun _ => extractSessionId_iff.symm

theorem unmarked_iff {req : MessagesRequest} : (∀ session, ¬ Marked req session) ↔
    (req.metadata.bind (·.userId)).bind extractSessionId = none := by
  simp only [marked_iff]
  constructor
  · intro none
    rw [Option.eq_none_iff_forall_ne_some]
    intro session found
    refine none session.toList ?_
    rw [found, String.ofList_toList]
  · intro none session found
    rw [none] at found
    cases found

theorem seed_cases {req : MessagesRequest} {keyId : Nat} {seed : String}
    (seeded : isolationSeed req keyId = some seed) :
    (∃ session, Marked req session ∧ seed.toList = "sess:".toList ++ session) ∨
    ((∀ session, ¬ Marked req session) ∧ keyId ≠ 0 ∧
      seed.toList = "key:".toList ++ (toString keyId).toList) := by
  unfold isolationSeed at seeded
  split at seeded
  · next session found =>
    cases seeded
    refine .inl ⟨session.toList, marked_iff.mpr ?_, String.toList_append⟩
    rw [found, String.ofList_toList]
  · next none =>
    split_ifs at seeded with zero
    cases seeded
    exact .inr ⟨unmarked_iff.mpr none, zero, String.toList_append⟩

section

variable {enabled : Bool} {ttl : Nat}

omit [DecidableEq H] in
theorem text_hash (s : Chain H) (hashText : String) :
    (s.hash hashText true).text.toList = s.text.toList ++ hashText.toList :=
  String.toList_append

omit [DecidableEq H] in
theorem text_feed (s : Chain H) (hashText tokenText : String) :
    (s.feed hashText tokenText enabled).text = (s.hash hashText enabled).text := by
  unfold Chain.feed
  dsimp only
  split_ifs <;> rfl

theorem text_commit (s : Chain H) : (s.commit env enabled ttl).text = s.text := by
  unfold Chain.commit
  split_ifs <;> rfl

omit [DecidableEq H] in
theorem text_foldl {α : Type} {f : Chain H → α → Chain H} {piece : α → List Char}
    (each : ∀ s x, (f s x).text.toList = s.text.toList ++ piece x) (xs : List α) (s : Chain H) :
    (xs.foldl f s).text.toList = s.text.toList ++ xs.flatMap piece := by
  induction xs generalizing s with
  | nil => rw [List.foldl_nil, List.flatMap_nil, List.append_nil]
  | cons x xs ih => rw [List.foldl_cons, ih, each, List.flatMap_cons, List.append_assoc]

theorem text_feedContent (s : Chain H) (content : Value) :
    (feedContent env true ttl s content).text.toList =
      s.text.toList ++ (contentTexts env.formatFloat content).flatMap String.toList := by
  have block (s : Chain H) (v : Value) : (takeBlock env true ttl s v).text.toList =
      s.text.toList ++ (blockText env.formatFloat v).toList := by
    have fed : (feedBlock env true s v).text.toList =
        s.text.toList ++ (blockText env.formatFloat v).toList := by
      unfold feedBlock blockText
      split_ifs
      · exact text_hash s _
      · rw [text_feed]
        exact text_hash s _
    unfold takeBlock
    dsimp only
    split_ifs
    · rw [text_commit]
      exact fed
    · exact fed
  cases content with
  | string text =>
    show (s.feed text text true).text.toList = s.text.toList ++ [text].flatMap String.toList
    rw [text_feed, text_hash, List.flatMap_singleton]
  | array blocks =>
    show (blocks.foldl (takeBlock env true ttl) s).text.toList =
      s.text.toList ++ (blocks.map (blockText env.formatFloat)).flatMap String.toList
    rw [text_foldl block, List.flatMap_map]
  | _ => exact (List.append_nil _).symm

theorem text_feedMessages (msgs : List Message) (s : Chain H) :
    (feedMessages env true ttl s msgs).text.toList = s.text.toList ++
      (msgs.flatMap fun msg => msg.role :: contentTexts env.formatFloat msg.content).flatMap
        String.toList := by
  have message (s : Chain H) (msg : Message) : (feedMessage env true ttl s msg).text.toList =
      s.text.toList ++
        (msg.role :: contentTexts env.formatFloat msg.content).flatMap String.toList := by
    unfold feedMessage
    rw [text_feedContent, text_feed, text_hash, List.flatMap_cons, List.append_assoc]
  induction msgs generalizing s with
  | nil => exact (List.append_nil _).symm
  | cons msg rest ih =>
    rw [List.flatMap_cons, List.flatMap_append]
    cases rest with
    | nil =>
      rw [List.flatMap_nil, List.flatMap_nil, List.append_nil]
      exact message s msg
    | cons next rest =>
      show (feedMessages env true ttl ((feedMessage env true ttl s msg).commit env true ttl)
        (next :: rest)).text.toList = _
      rw [ih, text_commit, message, List.append_assoc]

theorem text_chainOf {req : MessagesRequest} {keyId : Nat} {seed : String}
    (seeded : isolationSeed req keyId = some seed) :
    (chainOf env req keyId).text.toList = seed.toList ++ fedText env req := by
  have enabled : cacheEnabled req keyId = true := by
    unfold cacheEnabled
    rw [seeded]
    rfl
  have start : (seedChain req keyId : Chain H).text = seed := by
    unfold seedChain
    rw [seeded]
    rfl
  have tool (s : Chain H) (t : Tool) : (feedTool env true s t).text.toList =
      s.text.toList ++ (toolSignature env.formatFloat t).toList := by
    rw [feedTool, text_feed]
    exact text_hash s _
  have system (s : Chain H) (sys : SystemMessage) : (feedSystemMessage true s sys).text.toList =
      s.text.toList ++ (systemSignature sys).toList := by
    rw [feedSystemMessage, text_feed]
    exact text_hash s _
  have skipped (s : Chain H) (sys : SystemMessage) : (s.feed "" sys.text false).text.toList =
      s.text.toList ++ [] := by
    rw [text_feed, List.append_nil]
    rfl
  have base (s : Chain H) : (feedBase env true (detectMaxTtl req) req s).text.toList =
      s.text.toList ++ ((req.tools.getD []).map (toolSignature env.formatFloat) ++
        ((req.system.getD []).drop (skipUntil (req.system.getD []))).map
          systemSignature).flatMap String.toList := by
    have fed : (feedSystem true ((req.tools.getD []).foldl (feedTool env true) s)
        (req.system.getD [])).text.toList = s.text.toList ++
          ((req.tools.getD []).map (toolSignature env.formatFloat) ++
            ((req.system.getD []).drop (skipUntil (req.system.getD []))).map
              systemSignature).flatMap String.toList := by
      unfold feedSystem
      dsimp only
      rw [text_foldl system, text_foldl skipped, text_foldl tool, List.flatMap_append,
        List.flatMap_map, List.flatMap_map]
      simp only [List.flatMap_eq_nil_iff.mpr fun _ _ => rfl, List.append_nil, List.append_assoc]
    unfold feedBase
    dsimp only
    split_ifs
    · rw [text_commit]
      exact fed
    · exact fed
  unfold chainOf fedText
  dsimp only
  rw [enabled, text_feedMessages, base, start, List.append_assoc, ← List.flatMap_append]

theorem not_uncacheable {req : MessagesRequest} {keyId : Nat} {seed : String} {text : List Char}
    (seeded : isolationSeed req keyId = some seed) (begins : seed.toList <+: text) :
    ¬ uncacheable.toList <+: text := by
  intro other
  rcases seed_cases seeded with ⟨session, -, is⟩ | ⟨-, -, is⟩
  · obtain ⟨rest, rfl⟩ := begins
    rw [is] at other
    exact absurd other (by simp [uncacheable])
  · obtain ⟨rest, rfl⟩ := begins
    rw [is] at other
    exact absurd other (by simp [uncacheable])

theorem Apart.hash_ne (injective : Function.Injective env.digest) {req req' : MessagesRequest}
    {keyId keyId' : Nat} (apart : Apart env req keyId req' keyId')
    (enabled : cacheEnabled req' keyId' = true) {segment segment' : Segment H}
    (mem : segment ∈ (chainOf env req keyId).segments)
    (mem' : segment' ∈ (chainOf env req' keyId').segments) : segment.hash ≠ segment'.hash := by
  intro same
  obtain ⟨text, begins, within, digest⟩ := (sound_chainOf env req keyId).hashed segment mem
  obtain ⟨text', begins', within', digest'⟩ := (sound_chainOf env req' keyId').hashed segment' mem'
  rw [digest, digest'] at same
  cases injective same
  obtain ⟨seed', seeded'⟩ := Option.isSome_iff_exists.mp enabled
  rw [seeded', Option.getD_some] at begins'
  rw [text_chainOf seeded'] at within'
  cases seeded : isolationSeed req keyId with
  | none =>
    rw [seeded, Option.getD_none] at begins
    exact not_uncacheable seeded' begins' begins
  | some seed =>
    rw [seeded, Option.getD_some] at begins
    rw [text_chainOf seeded] at within
    have onto := begins'.trans within
    have back := begins.trans within'
    rcases seed_cases seeded with ⟨session, marked, is⟩ | ⟨unmarked, used, is⟩
    · rcases seed_cases seeded' with ⟨session', marked', is'⟩ | ⟨-, -, is'⟩
      · rw [is, is', List.append_assoc, List.prefix_append_right_inj] at onto back
        exact apart.sessions session session' marked marked' ⟨onto, back⟩
      · rw [is, is'] at onto
        exact absurd onto (by simp)
    · rcases seed_cases seeded' with ⟨session', -, is'⟩ | ⟨unmarked', used', is'⟩
      · rw [is, is'] at onto
        exact absurd onto (by simp)
      · rw [is, is', List.append_assoc, List.prefix_append_right_inj] at onto back
        exact apart.keys unmarked unmarked' used used' ⟨onto, back⟩

end

theorem Marked.unique {req : MessagesRequest} {session session' : List Char}
    (marked : Marked req session) (marked' : Marked req session') : session = session' := by
  have same := (marked_iff.mp marked).symm.trans (marked_iff.mp marked')
  exact String.ofList_injective (Option.some.inj same)

omit [DecidableEq H] in
theorem apart_of_sessions (env : Env H) {req req' : MessagesRequest} (keyId keyId' : Nat)
    {session session' : List Char} (marked : Marked req session) (marked' : Marked req' session')
    (not_in : ¬ session <+: session') (not_of : ¬ session' <+: session) :
    Apart env req keyId req' keyId' where
  sessions := by
    rintro other other' is is' ⟨onto, -⟩
    cases is.unique marked
    cases is'.unique marked'
    rcases List.prefix_or_prefix_of_prefix (List.prefix_append _ _) onto with shorter | longer
    · exact not_in shorter
    · exact not_of longer
  keys := fun unmarked => absurd marked (unmarked session)

omit [DecidableEq H] in
theorem apart_of_marked (env : Env H) {req req' : MessagesRequest} (keyId keyId' : Nat)
    {session : List Char} (marked : Marked req session)
    (unmarked : ∀ session', ¬ Marked req' session') : Apart env req keyId req' keyId' where
  sessions := fun _ session' _ marked' => absurd marked' (unmarked session')
  keys := fun never => absurd marked (never session)

theorem key_digit {keyId : Nat} {c : Char} (mem : c ∈ (toString keyId).toList) :
    c.isDigit = true := by
  rw [Nat.toString_eq_repr, Nat.toList_repr] at mem
  exact Nat.isDigit_of_mem_toDigits (by decide) (by decide) mem

theorem key_injective {keyId keyId' : Nat}
    (same : (toString keyId).toList = (toString keyId').toList) : keyId = keyId' := by
  rw [Nat.toString_eq_repr, Nat.toString_eq_repr, Nat.toList_repr, Nat.toList_repr] at same
  have back := congrArg (fun digits => Nat.ofDigitChars 10 digits 0) same
  simpa only [Nat.ofDigitChars_ten_toDigits] using back

def startsPlain (text : List Char) : Bool := text.head?.all fun c => !c.isDigit

theorem key_ends {keyId keyId' : Nat} {asked : List Char} (plain : startsPlain asked = true)
    (onto : (toString keyId').toList <+: (toString keyId).toList ++ asked)
    (within : (toString keyId).toList <+: (toString keyId').toList) : keyId = keyId' := by
  obtain ⟨more, split⟩ := within
  rw [← split, List.prefix_append_right_inj] at onto
  refine key_injective ?_
  cases more with
  | nil => rw [← split, List.append_nil]
  | cons c more =>
    have digit : c.isDigit = true := by
      refine @key_digit keyId' _ ?_
      rw [← split]
      exact List.mem_append_right _ List.mem_cons_self
    obtain ⟨rest, rfl⟩ := onto
    unfold startsPlain at plain
    rw [List.cons_append, List.head?_cons, Option.all_some, digit] at plain
    cases plain

omit [DecidableEq H] in
theorem apart_of_keys (env : Env H) {req req' : MessagesRequest} {keyId keyId' : Nat}
    (other : keyId ≠ keyId') (plain : startsPlain (fedText env req) = true)
    (plain' : startsPlain (fedText env req') = true)
    (unmarked : ∀ session, ¬ Marked req session) : Apart env req keyId req' keyId' where
  sessions := fun session _ marked => absurd marked (unmarked session)
  keys := by
    rintro - - - - ⟨onto, back⟩
    rcases List.prefix_or_prefix_of_prefix (List.prefix_append _ _) onto with within | within
    · exact other (key_ends plain onto within)
    · exact other (key_ends plain' back within).symm

theorem chainOf_of_seed (env : Env H) {req req' : MessagesRequest} {keyId keyId' : Nat}
    (seeds : isolationSeed req keyId = isolationSeed req' keyId')
    (messages : req.messages = req'.messages) (system : req.system = req'.system)
    (tools : req.tools = req'.tools) : chainOf env req keyId = chainOf env req' keyId' := by
  have ttl : detectMaxTtl req = detectMaxTtl req' := by
    unfold detectMaxTtl
    rw [messages, system, tools]
  have base : ∀ enabled ttl (s : Chain H),
      feedBase env enabled ttl req s = feedBase env enabled ttl req' s := by
    intro enabled ttl s
    unfold feedBase
    rw [system, tools]
  unfold chainOf cacheEnabled seedChain
  dsimp only
  rw [seeds, ttl, messages, base]

theorem session_missed (env : Env H) {req req' : MessagesRequest} (keyId : Nat)
    (unmarked : ∀ session, ¬ Marked req session) (unmarked' : ∀ session, ¬ Marked req' session)
    (messages : req.messages = req'.messages) (system : req.system = req'.system)
    (tools : req.tools = req'.tools) : chainOf env req keyId = chainOf env req' keyId := by
  refine chainOf_of_seed env ?_ messages system tools
  unfold isolationSeed
  rw [unmarked_iff.mp unmarked, unmarked_iff.mp unmarked']

theorem key_missed (env : Env H) {req req' : MessagesRequest} (keyId keyId' : Nat)
    {session : List Char} (marked : Marked req session) (marked' : Marked req' session)
    (messages : req.messages = req'.messages) (system : req.system = req'.system)
    (tools : req.tools = req'.tools) : chainOf env req keyId = chainOf env req' keyId' := by
  refine chainOf_of_seed env ?_ messages system tools
  unfold isolationSeed
  rw [marked_iff.mp marked, marked_iff.mp marked']

def Watched (env : Env H) (cenv : Models.Env) (d : Domain) (events : List (Event H)) (h : H) :
    Prop :=
  ∃ now req keyId, Event.measure now req keyId ∈ events ∧ domainOf cenv req keyId = d ∧
    ∃ segment ∈ (chainOf env req keyId).segments, segment.hash = h

def Agree (watched : H → Prop) (m m' : CacheMeter H) : Prop :=
  ∀ h, watched h → m.deadline h = m'.deadline h

theorem deadlineStep_alike {e e' : Event H} (alike : Alike e e')
    {deadline deadline' : H → Option Nat} {h : H} (agree : deadline h = deadline' h) :
    deadlineStep env deadline e h = deadlineStep env deadline' e' h := by
  cases alike with
  | measure now req keyId => exact agree
  | commitSuccess now req keyId iterate iterate' =>
    simp only [deadlineStep]
    cases commitOf env req keyId with
    | none => exact agree
    | some c => simp only [agree]
  | sweep now => simp only [deadlineStep, agree]

theorem cacheRead_of_agree {watched : H → Prop} {m m' : CacheMeter H} (agree : Agree watched m m')
    {now keyId : Nat} {req : MessagesRequest}
    (all : ∀ segment ∈ (chainOf env req keyId).segments, watched segment.hash) :
    (computeCacheUsage env now m req keyId).1.cacheRead =
      (computeCacheUsage env now m' req keyId).1.cacheRead := by
  have lives : (chainOf env req keyId).segments.map (fun s => m.lives now s.hash) =
      (chainOf env req keyId).segments.map (fun s => m'.lives now s.hash) := by
    refine List.map_congr_left fun segment mem => ?_
    unfold CacheMeter.lives
    rw [agree segment.hash (all segment mem)]
  rw [cacheRead_eq, cacheRead_eq, lives]

theorem deadlineStep_foreign {watched : H → Prop} {e : Event H} (foreign : Foreign cenv d e)
    (unseen : ∀ now req keyId iterate, e = .commitSuccess now req keyId iterate →
      cacheEnabled req keyId = true → ∀ segment ∈ (chainOf env req keyId).segments,
        ¬ watched segment.hash)
    (deadline : H → Option Nat) {h : H} (watches : watched h) :
    deadlineStep env deadline e h = deadline h := by
  cases e with
  | measure now req keyId => rfl
  | commitSuccess now req keyId iterate =>
    simp only [deadlineStep]
    cases plan : commitOf env req keyId with
    | none => rfl
    | some c =>
      refine if_neg fun mem => ?_
      rw [(commitOf_eq_some plan).1] at mem
      obtain ⟨segment, there, rfl⟩ := List.mem_map.mp mem
      exact unseen now req keyId iterate rfl (enabled_of_plan plan) segment there watches
  | sweep now => exact foreign.elim

def Unseen (env : Env H) (cenv : Models.Env) (d : Domain) (watched : H → Prop) (e : Event H) :
    Prop :=
  Foreign cenv d e ∧ ∀ now req keyId iterate, e = .commitSuccess now req keyId iterate →
    cacheEnabled req keyId = true → ∀ segment ∈ (chainOf env req keyId).segments,
      ¬ watched segment.hash

theorem reading_foreign {e : Event H} (foreign : Foreign cenv d e) (m : CacheMeter H) :
    reading env cenv d m e = none := by
  cases e with
  | measure now req keyId => exact if_neg foreign
  | commitSuccess now req keyId iterate => rfl
  | sweep now => rfl

theorem unwinds (events : List (Event H)) :
    Unwinds (step env) (reading env cenv d) (roomy env)
      (Unseen env cenv d (Watched env cenv d events)) (fun e e' => Alike e e' ∧ e ∈ events)
      (Agree (Watched env cenv d events)) where
  symm := fun agree h watches => (agree h watches).symm
  shared := by
    rintro m m' e e' agree ⟨alike, mem⟩ room room'
    refine ⟨fun h watches => ?_, ?_⟩
    · rw [deadline_step room, deadline_step room']
      exact deadlineStep_alike alike (agree h watches)
    · cases alike with
      | measure now req keyId =>
        simp only [reading]
        split_ifs with same
        · rw [cacheRead_of_agree agree]
          exact fun segment there => ⟨now, req, keyId, mem, same, segment, there, rfl⟩
        · rfl
      | commitSuccess now req keyId iterate iterate' => rfl
      | sweep now => rfl
  foreign := by
    rintro m m' e agree ⟨foreign, unseen⟩ room
    refine ⟨fun h watches => ?_, reading_foreign foreign m⟩
    rw [deadline_step room, deadlineStep_foreign foreign unseen m.deadline watches]
    exact agree h watches

/-- Two runs that differ in requests of other domains read the same in a domain, if nothing is
evicted for want of room and what the others commit is apart from what the domain asks for. -/
theorem readings_isolated (env : Env H) (cenv : Models.Env)
    (injective : Function.Injective env.digest) (d : Domain) (m : CacheMeter H)
    {events events' : List (Event H)} (differ : Differ (Foreign cenv d) Alike events events')
    (room : allowedRun (step env) (roomy env) m events = true)
    (room' : allowedRun (step env) (roomy env) m events' = true)
    (apart : ∀ now req keyId, Event.measure now req keyId ∈ events →
      domainOf cenv req keyId = d → ∀ now' req' keyId' iterate,
        (Event.commitSuccess now' req' keyId' iterate ∈ events ∨
          Event.commitSuccess now' req' keyId' iterate ∈ events') →
        domainOf cenv req' keyId' ≠ d → Apart env req keyId req' keyId') :
    outputs (step env) (reading env cenv d) m events =
      outputs (step env) (reading env cenv d) m events' := by
  refine (unwinds events).outputs_eq (differ.mono ?_ fun e mem e' alike => ⟨alike, mem⟩)
    (fun h watches => rfl) room room'
  intro e mem foreign
  refine ⟨foreign, ?_⟩
  rintro now' req' keyId' iterate rfl enabled segment' mem' ⟨now, req, keyId, asked, same, segment,
    there, hash⟩
  exact (apart now req keyId asked same now' req' keyId' iterate mem foreign).hash_ne injective
    enabled there mem' hash

/-- The JSON form of a user id, as the converter reads the two below. -/
def userIdEnv : Models.Env :=
  { Conversion.Env.sample with
    jsonFromStr := fun text =>
      if text = "\x7b\"session_id\":\"0b4445e1-f5be-49e1-87ce-62bbc28ad705\"\x7d" then
        some (.object [("session_id", .string "0b4445e1-f5be-49e1-87ce-62bbc28ad705")])
      else if text = "\x7b\"session_id\":\"7d1e3f02-91c4-4a3b-8f60-2c5ad1b9e877\"\x7d" then
        some (.object [("session_id", .string "7d1e3f02-91c4-4a3b-8f60-2c5ad1b9e877")])
      else none }

def talk (userId : String) : MessagesRequest :=
  { messages := [⟨"user", .string "Hello"⟩, ⟨"assistant", .string "Hi"⟩, ⟨"user", .string "Go on"⟩]
    metadata := some ⟨some userId⟩ }

def firstJson : MessagesRequest :=
  talk "\x7b\"session_id\":\"0b4445e1-f5be-49e1-87ce-62bbc28ad705\"\x7d"

def secondJson : MessagesRequest :=
  talk "\x7b\"session_id\":\"7d1e3f02-91c4-4a3b-8f60-2c5ad1b9e877\"\x7d"

/-- The run of the request alone, and behind the commit of another one. -/
def alone : List (Event String) := [.measure 5 firstJson 1]

def behind (req : MessagesRequest) (keyId : Nat) : List (Event String) :=
  .commitSuccess 0 req keyId id :: alone

def firstMarked : MessagesRequest :=
  talk "user_1_account__session_0b4445e1-f5be-49e1-87ce-62bbc28ad705"

def secondMarked : MessagesRequest :=
  talk "user_1_account__session_7d1e3f02-91c4-4a3b-8f60-2c5ad1b9e877"

/-- A session is asked twice and committed in between. Before it, in one run, comes another session
of the same key, then the key itself without a session. -/
def amongOthers : List (Event String) :=
  [.commitSuccess 0 secondMarked 1 id, .measure 1 firstMarked 1, .commitSuccess 2 secondJson 1 id,
    .commitSuccess 3 firstMarked 1 id, .measure 5 firstMarked 1]

def amongFewer : List (Event String) :=
  [.measure 1 firstMarked 1, .commitSuccess 3 firstMarked 1 id, .commitSuccess 4 secondMarked 12 id,
    .measure 5 firstMarked 1]

theorem marked_first :
    Marked firstMarked "0b4445e1-f5be-49e1-87ce-62bbc28ad705".toList :=
  marked_iff.mpr (by decide +kernel)

theorem marked_second :
    Marked secondMarked "7d1e3f02-91c4-4a3b-8f60-2c5ad1b9e877".toList :=
  marked_iff.mpr (by decide +kernel)

/-- The other sessions and the key are not noticed; what the session stored itself is read. -/
theorem readings_isolated_sessions :
    outputs (step plainEnv) (reading plainEnv userIdEnv (domainOf userIdEnv firstMarked 1)) {}
        amongOthers = [0, 3] ∧
      outputs (step plainEnv) (reading plainEnv userIdEnv (domainOf userIdEnv firstMarked 1)) {}
          amongOthers =
        outputs (step plainEnv) (reading plainEnv userIdEnv (domainOf userIdEnv firstMarked 1)) {}
          amongFewer := by
  have foreign : domainOf userIdEnv secondMarked 1 ≠ domainOf userIdEnv firstMarked 1 ∧
      domainOf userIdEnv secondJson 1 ≠ domainOf userIdEnv firstMarked 1 ∧
      domainOf userIdEnv secondMarked 12 ≠ domainOf userIdEnv firstMarked 1 := by
    decide +kernel
  refine ⟨by decide +kernel, readings_isolated plainEnv userIdEnv (fun _ _ same => same)
    (domainOf userIdEnv firstMarked 1) {} ?_ (by decide +kernel) (by decide +kernel) ?_⟩
  · exact .left foreign.1 (.shared (.measure 1 firstMarked 1) (.left foreign.2.1
      (.shared (.commitSuccess 3 firstMarked 1 id id) (.right foreign.2.2
        (.shared (.measure 5 firstMarked 1) .done)))))
  · intro now req keyId asked same now' req' keyId' iterate committed other
    have first : req = firstMarked ∧ keyId = 1 := by
      simp only [amongOthers, List.mem_cons, reduceCtorEq, Event.measure.injEq, List.not_mem_nil,
        false_or, or_false] at asked
      rcases asked with ⟨-, rfl, rfl⟩ | ⟨-, rfl, rfl⟩
      · exact ⟨rfl, rfl⟩
      · exact ⟨rfl, rfl⟩
    have second : req' = secondMarked ∨ req' = secondJson ∨ req' = firstMarked ∧ keyId' = 1 := by
      simp only [amongOthers, amongFewer, List.mem_cons, reduceCtorEq, Event.commitSuccess.injEq,
        List.not_mem_nil, false_or, or_false] at committed
      rcases committed with (h | h | h) | h | h
      · exact .inl h.2.1
      · exact .inr (.inl h.2.1)
      · exact .inr (.inr ⟨h.2.1, h.2.2.1⟩)
      · exact .inr (.inr ⟨h.2.1, h.2.2.1⟩)
      · exact .inl h.2.1
    obtain ⟨rfl, rfl⟩ := first
    rcases second with rfl | rfl | ⟨rfl, rfl⟩
    · exact apart_of_sessions plainEnv 1 keyId' marked_first marked_second (by decide) (by decide)
    · exact apart_of_marked plainEnv 1 keyId' marked_first
        (unmarked_iff.mpr (by decide +kernel))
    · exact absurd rfl other

/-- Under one key, a session named in JSON reads what another one committed. -/
theorem json_session_reads_other :
    Function.Injective plainEnv.digest ∧
      Differ (Foreign userIdEnv (domainOf userIdEnv firstJson 1)) Alike (behind secondJson 1)
        alone ∧
      allowedRun (step plainEnv) (roomy plainEnv) {} (behind secondJson 1) = true ∧
      allowedRun (step plainEnv) (roomy plainEnv) {} alone = true ∧
      outputs (step plainEnv) (reading plainEnv userIdEnv (domainOf userIdEnv firstJson 1)) {}
        (behind secondJson 1) = [3] ∧
      outputs (step plainEnv) (reading plainEnv userIdEnv (domainOf userIdEnv firstJson 1)) {}
        alone = [0] := by
  have other : domainOf userIdEnv secondJson 1 ≠ domainOf userIdEnv firstJson 1 := by
    decide +kernel
  exact ⟨fun _ _ same => same, .left other (.shared (.measure 5 firstJson 1) .done),
    by decide +kernel, by decide +kernel, by decide +kernel, by decide +kernel⟩

end KiroRs.Cache.Isolation
