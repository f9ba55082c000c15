/- Path: KiroRs/Admin/AdminAccess
   source: src/admin/middleware.rs, src/common/auth.rs
   digest: The rate limiter and the key check in front of the admin API, with requests that interleave
   between their steps: how many keys can be tried, and what a refused request goes back to. -/

import Mathlib.Logic.Function.Basic
import KiroRs.Lib.FixedWindows
import KiroRs.Lib.Text
import KiroRs.Lib.Traces

set_option autoImplicit false
set_option relaxedAutoImplicit false

namespace KiroRs.Admin.AdminAccess

open KiroRs.Lib.FixedWindows
open KiroRs.Lib.Text (contains trim)
open KiroRs.Lib.Traces

/-- A header value, which is text or cannot be read as such. -/
abbrev HeaderValue := Option String

/-- What the middleware reads of a request: its first header of each name, and its path. -/
structure AdminRequest where
  xForwardedFor : Option HeaderValue := none
  xRealIp : Option HeaderValue := none
  xApiKey : Option HeaderValue := none
  authorization : Option HeaderValue := none
  path : String := ""
  deriving DecidableEq, Repr

def stripPrefix (pre s : String) : Option String :=
  if pre.toList <+: s.toList then some (String.ofList (s.toList.drop pre.toList.length)) else none

def extractApiKey (request : AdminRequest) : Option String :=
  match request.xApiKey.join with
  | some key => some key
  | none => request.authorization.join.bind (stripPrefix "Bearer ")

/-- The first address of the list that proxies write, or the one of the nearest proxy. -/
def adminRateKey (request : AdminRequest) : String :=
  let value := (request.xForwardedFor.or request.xRealIp).join
  let first := value.map fun v => trim (String.ofList (v.toList.takeWhile (· ≠ ',')))
  (first.filter fun s => !s.isEmpty).getD "unknown"

def adminRouteIsSensitive (path : String) : Bool :=
  contains path "/client-keys" || contains path "/config" || contains path "/credentials" ||
    contains path "/system/update" || contains path "/traces" || contains path "/auth/"

/-- Sixty seconds, in nanoseconds. -/
def adminRateLimitWindow : Nat := 60 * 10 ^ 9

def adminAuthLimit : Nat := 20

def adminSensitiveLimit : Nat := 60

def countMax : Nat := 2 ^ 32 - 1

/-- `RateBucket`: `start` is its `window_start`. -/
abbrev RateBucket := Window

/-- `ADMIN_RATE_LIMITER`. -/
abbrev Buckets := String → Option RateBucket

def adminRateLimited (map : Buckets) (key : String) (limit now : Nat) : Bool × Buckets :=
  let bucket := (map key).getD ⟨now, 0⟩
  let bucket := if adminRateLimitWindow ≤ now - bucket.start then ⟨now, 0⟩ else bucket
  let bucket := { bucket with count := min (bucket.count + 1) countMax }
  (decide (limit < bucket.count), Function.update map key (some bucket))

def adminRateIsExceeded (map : Buckets) (key : String) (limit now : Nat) : Bool × Buckets :=
  match map key with
  | none => (false, map)
  | some bucket =>
    if adminRateLimitWindow ≤ now - bucket.start then
      (false, Function.update map key (some ⟨now, 0⟩))
    else (decide (limit ≤ bucket.count), map)

def authRateKey (rateKey : String) : String := "auth:" ++ rateKey

inductive Stage where
  /-- Before the limit of sensitive routes. -/
  | arrived (request : AdminRequest)
  /-- Before the limit of wrong keys and the comparison. -/
  | checking (request : AdminRequest)
  /-- The key is wrong, and that is not counted yet. -/
  | mismatched (request : AdminRequest)
  | tooManyRequests (request : AdminRequest) (message : String)
  | unauthorized (request : AdminRequest)
  /-- Handed to the handler. -/
  | next (request : AdminRequest)
  deriving DecidableEq

structure World where
  buckets : Buckets := fun _ => none
  requests : List Stage := []

inductive Act where
  | arrive (request : AdminRequest)
  /-- The request goes on to its next lock, at that time. -/
  | advance (id now : Nat)
  deriving DecidableEq

variable (adminApiKey : String)

def keyMatches (request : AdminRequest) : Bool :=
  match extractApiKey request with
  | some key => key == adminApiKey
  | none => false

def stageStep (buckets : Buckets) (now : Nat) : Stage → Option (Stage × Buckets)
  | .arrived request =>
    if adminRouteIsSensitive request.path then
      let (limited, buckets) :=
        adminRateLimited buckets (adminRateKey request) adminSensitiveLimit now
      some (if limited then .tooManyRequests request "Admin API rate limit exceeded"
        else .checking request, buckets)
    else some (.checking request, buckets)
  | .checking request =>
    let (exceeded, buckets) :=
      adminRateIsExceeded buckets (authRateKey (adminRateKey request)) adminAuthLimit now
    some (if exceeded then .tooManyRequests request "Admin auth rate limit exceeded"
      else if keyMatches adminApiKey request then .next request else .mismatched request, buckets)
  | .mismatched request =>
    let (_, buckets) :=
      adminRateLimited buckets (authRateKey (adminRateKey request)) adminAuthLimit now
    some (.unauthorized request, buckets)
  | .tooManyRequests _ _ | .unauthorized _ | .next _ => none

/-- `admin_auth_middleware`, one request at a time between any two locks. -/
def step (w : World) : Act → Option World
  | .arrive request => some { w with requests := w.requests ++ [.arrived request] }
  | .advance id now =>
    match w.requests[id]? with
    | none => none
    | some stage =>
      (stageStep adminApiKey w.buckets now stage).map fun (stage, buckets) =>
        ⟨buckets, w.requests.set id stage⟩

theorem decide_lt_eq (a b : Nat) : decide (a < b) = !decide (b ≤ a) := by
  rw [← decide_not, decide_eq_decide]
  omega

theorem after_limited (map : Buckets) (key : String) (limit now : Nat) (tracked : Bool) :
    (adminRateLimited map key limit now).2 = Function.update map key
      (after adminRateLimitWindow countMax (map key) (.hit now tracked)) := by
  rw [adminRateLimited]
  cases map key with
  | none =>
    have fresh : ¬ adminRateLimitWindow ≤ now - now := by
      rw [Nat.sub_self]
      decide
    simp only [Option.getD_none, if_neg fresh]
    rfl
  | some bucket => rfl

theorem limited_iff (map : Buckets) (key : String) (limit now : Nat) (tracked : Bool) :
    (adminRateLimited map key limit now).1 =
      !hitPasses adminRateLimitWindow countMax limit (map key) (.hit now tracked) := by
  have bucket := congrFun (after_limited map key limit now tracked) key
  rw [Function.update_self] at bucket
  rw [hitPasses, ← bucket, adminRateLimited]
  simp only [Function.update_self, countOf]
  exact decide_lt_eq _ _

theorem after_exceeded (map : Buckets) (key : String) (limit now : Nat) (tracked : Bool) :
    (adminRateIsExceeded map key limit now).2 = Function.update map key
      (after adminRateLimitWindow countMax (map key) (.peek now tracked)) := by
  rw [adminRateIsExceeded]
  cases held : map key with
  | none => exact (Function.update_eq_self_iff.mpr held.symm).symm
  | some bucket =>
    by_cases passed : adminRateLimitWindow ≤ now - bucket.start
    · simp only [if_pos passed, after, Window.roll]
    · simp only [if_neg passed, after, Window.roll]
      exact (Function.update_eq_self_iff.mpr held.symm).symm

theorem exceeded_iff (map : Buckets) (key : String) {limit : Nat} (pos : 0 < limit) (now : Nat)
    (tracked : Bool) :
    (adminRateIsExceeded map key limit now).1 =
      !decide (countOf (after adminRateLimitWindow countMax (map key) (.peek now tracked)) <
        limit) := by
  rw [adminRateIsExceeded]
  cases map key with
  | none =>
    simp only [after, countOf, pos, decide_true, Bool.not_true]
  | some bucket =>
    by_cases passed : adminRateLimitWindow ≤ now - bucket.start
    · simp only [if_pos passed, after, Window.roll, countOf, pos, decide_true, Bool.not_true]
    · simp only [if_neg passed, after, Window.roll, countOf]
      rw [decide_lt_eq, Bool.not_not]

/-- What a stage does to the bucket of a key. A peek is tracked where the key it goes with is
wrong. -/
def stageTouches (key : String) (now : Nat) : Stage → List Touch
  | .arrived r =>
    if adminRouteIsSensitive r.path = true ∧ adminRateKey r = key then [.hit now false] else []
  | .checking r =>
    if authRateKey (adminRateKey r) = key then [.peek now (!keyMatches adminApiKey r)] else []
  | .mismatched r => if authRateKey (adminRateKey r) = key then [.hit now true] else []
  | .tooManyRequests _ _ | .unauthorized _ | .next _ => []

def touchesAt (key : String) (p : World × Act) : List Touch :=
  match p.2 with
  | .arrive _ => []
  | .advance id now => (p.1.requests[id]?).elim [] (stageTouches adminApiKey key now)

def history (key : String) (trace : List (World × Act)) : List Touch :=
  trace.flatMap (touchesAt adminApiKey key)

def stageTries (client : String) (buckets : Buckets) (now : Nat) : Stage → Bool
  | .checking r =>
    decide (adminRateKey r = client) && !keyMatches adminApiKey r &&
      !(adminRateIsExceeded buckets (authRateKey client) adminAuthLimit now).1
  | _ => false

def triesWrongKey (client : String) (p : World × Act) : Bool :=
  match p.2 with
  | .arrive _ => false
  | .advance id now =>
    (p.1.requests[id]?).any (stageTries adminApiKey client p.1.buckets now)

/-- A request of the client for a sensitive route goes on. -/
def stagePasses (client : String) (buckets : Buckets) (now : Nat) : Stage → Bool
  | .arrived r =>
    adminRouteIsSensitive r.path && decide (adminRateKey r = client) &&
      !(adminRateLimited buckets client adminSensitiveLimit now).1
  | _ => false

def passesSensitive (client : String) (p : World × Act) : Bool :=
  match p.2 with
  | .arrive _ => false
  | .advance id now => (p.1.requests[id]?).any (stagePasses client p.1.buckets now)

def isWaiting (client : String) : Stage → Bool
  | .mismatched r => decide (adminRateKey r = client)
  | _ => false

/-- The wrong keys of the client that are not counted yet. -/
def waiting (client : String) (w : World) : Nat := w.requests.countP (isWaiting client)

variable {adminApiKey} {key client : String} {w w' : World} {act : Act}

theorem authRateKey_inj {a b : String} (same : authRateKey a = authRateKey b) : a = b := by
  have lists := congrArg String.toList same
  rw [authRateKey, authRateKey, String.toList_append, String.toList_append] at lists
  exact String.toList_inj.mp (List.append_cancel_left lists)

theorem stage_cases {id now : Nat} (taken : step adminApiKey w (.advance id now) = some w') :
    ∃ stage next, w.requests[id]? = some stage ∧
      stageStep adminApiKey w.buckets now stage = some (next, w'.buckets) ∧
      w'.requests = w.requests.set id next := by
  rw [step] at taken
  cases held : w.requests[id]? with
  | none =>
    rw [held] at taken
    cases taken
  | some stage =>
    rw [held] at taken
    obtain ⟨⟨next, buckets⟩, moved, rfl⟩ := Option.map_eq_some_iff.mp taken
    exact ⟨stage, next, rfl, moved, rfl⟩

theorem update_eq (map : Buckets) (other : String) (t : Touch) :
    Function.update map other (after adminRateLimitWindow countMax (map other) t) key =
      if other = key then after adminRateLimitWindow countMax (map key) t else map key := by
  by_cases here : other = key
  · rw [if_pos here, here, Function.update_self]
  · rw [if_neg here, Function.update_of_ne (Ne.symm here)]

theorem stage_bucket (key : String) {map map' : Buckets} {now : Nat} {stage next : Stage}
    (moved : stageStep adminApiKey map now stage = some (next, map')) :
    map' key = (stageTouches adminApiKey key now stage).foldr
      (fun t b => after adminRateLimitWindow countMax b t) (map key) := by
  cases stage with
  | arrived r =>
    rw [stageStep] at moved
    rw [stageTouches]
    by_cases sensitive : adminRouteIsSensitive r.path = true
    · rw [if_pos sensitive] at moved
      have buckets : (adminRateLimited map (adminRateKey r) adminSensitiveLimit now).2 = map' :=
        (Prod.mk.inj (Option.some.inj moved)).2
      rw [← buckets, after_limited _ _ _ _ false, update_eq]
      by_cases here : adminRateKey r = key
      · rw [if_pos here, if_pos ⟨sensitive, here⟩]
        rfl
      · rw [if_neg here, if_neg fun both => here both.2]
        rfl
    · rw [if_neg sensitive] at moved
      have buckets : map = map' := (Prod.mk.inj (Option.some.inj moved)).2
      rw [← buckets, if_neg fun both => sensitive both.1]
      rfl
  | checking r =>
    have buckets : (adminRateIsExceeded map (authRateKey (adminRateKey r)) adminAuthLimit now).2 =
        map' := (Prod.mk.inj (Option.some.inj moved)).2
    rw [← buckets, after_exceeded _ _ _ _ (!keyMatches adminApiKey r), update_eq, stageTouches]
    split_ifs <;> rfl
  | mismatched r =>
    have buckets : (adminRateLimited map (authRateKey (adminRateKey r)) adminAuthLimit now).2 =
        map' := (Prod.mk.inj (Option.some.inj moved)).2
    rw [← buckets, after_limited _ _ _ _ true, update_eq, stageTouches]
    split_ifs <;> rfl
  | tooManyRequests r message => cases moved
  | unauthorized r => cases moved
  | next r => cases moved

theorem stageTouches_short (key : String) (now : Nat) (stage : Stage) :
    stageTouches adminApiKey key now stage = [] ∨
      ∃ t, stageTouches adminApiKey key now stage = [t] ∧ t.now = now := by
  cases stage with
  | arrived r =>
    rw [stageTouches]
    split_ifs
    · exact .inr ⟨_, rfl, rfl⟩
    · exact .inl rfl
  | checking r =>
    rw [stageTouches]
    split_ifs
    · exact .inr ⟨_, rfl, rfl⟩
    · exact .inl rfl
  | mismatched r =>
    rw [stageTouches]
    split_ifs
    · exact .inr ⟨_, rfl, rfl⟩
    · exact .inl rfl
  | tooManyRequests r message => exact .inl rfl
  | unauthorized r => exact .inl rfl
  | next r => exact .inl rfl

theorem touchesAt_some {id now : Nat} {stage : Stage} (held : w.requests[id]? = some stage)
    (key : String) :
    touchesAt adminApiKey key (w, .advance id now) = stageTouches adminApiKey key now stage := by
  rw [touchesAt]
  simp only [held, Option.elim_some]

theorem triesWrongKey_some {id now : Nat} {stage : Stage} (held : w.requests[id]? = some stage)
    (client : String) :
    triesWrongKey adminApiKey client (w, .advance id now) =
      stageTries adminApiKey client w.buckets now stage := by
  rw [triesWrongKey]
  simp only [held, Option.any_some]

theorem passesSensitive_some {id now : Nat} {stage : Stage}
    (held : w.requests[id]? = some stage) (client : String) :
    passesSensitive client (w, .advance id now) = stagePasses client w.buckets now stage := by
  rw [passesSensitive]
  simp only [held, Option.any_some]

theorem bucket_step (key : String) (taken : step adminApiKey w act = some w') :
    w'.buckets key = (touchesAt adminApiKey key (w, act)).foldr
      (fun t b => after adminRateLimitWindow countMax b t) (w.buckets key) := by
  cases act with
  | arrive request =>
    cases taken
    rfl
  | advance id now =>
    obtain ⟨stage, next, held, moved, -⟩ := stage_cases taken
    rw [touchesAt_some held]
    exact stage_bucket key moved

theorem touchesAt_short (key : String) (taken : step adminApiKey w act = some w') :
    touchesAt adminApiKey key (w, act) = [] ∨ ∃ t id,
      touchesAt adminApiKey key (w, act) = [t] ∧ act = .advance id t.now := by
  cases act with
  | arrive request => exact .inl rfl
  | advance id now =>
    obtain ⟨stage, next, held, -, -⟩ := stage_cases taken
    rw [touchesAt_some held]
    rcases @stageTouches_short adminApiKey key now stage with none_ | ⟨t, one, rfl⟩
    · exact .inl none_
    · exact .inr ⟨t, id, one, rfl⟩

theorem history_cons (key : String) (p : World × Act) (trace : List (World × Act)) :
    history adminApiKey key (p :: trace) =
      touchesAt adminApiKey key p ++ history adminApiKey key trace := List.flatMap_cons

theorem bucket_of_run {trace : List (World × Act)} (key : String)
    (run : Run (step adminApiKey) {} trace w) :
    w.buckets key = window adminRateLimitWindow countMax (history adminApiKey key trace) := by
  induction run with
  | nil => rfl
  | cons run taken ih =>
    rw [bucket_step key taken, ih, history_cons]
    rcases touchesAt_short key taken with none_ | ⟨t, id, one, -⟩
    · rw [none_]
      rfl
    · rw [one]
      rfl

theorem tried_eq (client : String) (taken : step adminApiKey w act = some w') :
    (touchesAt adminApiKey (authRateKey client) (w, act)).countP
        (peekPasses adminRateLimitWindow countMax adminAuthLimit
          (w.buckets (authRateKey client))) =
      if triesWrongKey adminApiKey client (w, act) then 1 else 0 := by
  cases act with
  | arrive request => rfl
  | advance id now =>
    obtain ⟨stage, next, held, -, -⟩ := stage_cases taken
    rw [touchesAt_some held, triesWrongKey_some held]
    cases stage with
    | arrived r =>
      have idle : stageTries adminApiKey client w.buckets now (.arrived r) = false := rfl
      rw [stageTouches, idle, if_neg Bool.false_ne_true]
      split_ifs <;> rfl
    | checking r =>
      rw [stageTouches, stageTries]
      by_cases here : adminRateKey r = client
      · rw [if_pos (congrArg authRateKey here), List.countP_singleton, peekPasses,
          exceeded_iff _ _ (by decide) now (!keyMatches adminApiKey r), decide_eq_true here,
          Bool.true_and, Bool.not_not]
      · rw [if_neg fun same => here (authRateKey_inj same), decide_eq_false here]
        rfl
    | mismatched r =>
      have idle : stageTries adminApiKey client w.buckets now (.mismatched r) = false := rfl
      rw [stageTouches, idle, if_neg Bool.false_ne_true]
      split_ifs <;> rfl
    | tooManyRequests r message => rfl
    | unauthorized r => rfl
    | next r => rfl

/-- A wrong key that is let through waits to be counted, and it waits no more when it is. -/
theorem stage_balance (client : String) {map map' : Buckets} {now : Nat} {stage next : Stage}
    (moved : stageStep adminApiKey map now stage = some (next, map')) :
    (if isWaiting client next then 1 else 0) +
        (stageTouches adminApiKey (authRateKey client) now stage).countP isTrackedHit =
      (if isWaiting client stage then 1 else 0) +
        if stageTries adminApiKey client map now stage then 1 else 0 := by
  cases stage with
  | arrived r =>
    have idle : isWaiting client next = false := by
      rw [stageStep] at moved
      split_ifs at moved
      · rw [← (Prod.mk.inj (Option.some.inj moved)).1]
        split_ifs <;> rfl
      · rw [← (Prod.mk.inj (Option.some.inj moved)).1]
        rfl
    rw [idle, stageTouches]
    split_ifs <;> first | rfl | contradiction
  | checking r =>
    have now_ : (if (adminRateIsExceeded map (authRateKey (adminRateKey r)) adminAuthLimit now).1
        then Stage.tooManyRequests r "Admin auth rate limit exceeded"
        else if keyMatches adminApiKey r then .next r else .mismatched r) = next :=
      (Prod.mk.inj (Option.some.inj moved)).1
    have same : isWaiting client next = stageTries adminApiKey client map now (.checking r) := by
      rw [← now_, stageTries]
      by_cases here : adminRateKey r = client
      · rw [here]
        cases (adminRateIsExceeded map (authRateKey client) adminAuthLimit now).1 <;>
          cases keyMatches adminApiKey r <;> simp [isWaiting, here]
      · rw [decide_eq_false here]
        split_ifs <;> simp [isWaiting, here]
    have none_ : (stageTouches adminApiKey (authRateKey client) now (.checking r)).countP
        isTrackedHit = 0 := by
      rw [stageTouches]
      split_ifs <;> rfl
    rw [same, none_, Nat.add_zero]
    exact (Nat.zero_add _).symm
  | mismatched r =>
    have now_ : .unauthorized r = next := (Prod.mk.inj (Option.some.inj moved)).1
    rw [← now_, stageTouches]
    by_cases here : adminRateKey r = client
    · rw [if_pos (congrArg authRateKey here)]
      simp [isWaiting, here, isTrackedHit, stageTries]
    · rw [if_neg fun same => here (authRateKey_inj same)]
      simp [isWaiting, here, stageTries]
  | tooManyRequests r message => cases moved
  | unauthorized r => cases moved
  | next r => cases moved

theorem waiting_step (client : String) (taken : step adminApiKey w act = some w') :
    waiting client w' +
        (touchesAt adminApiKey (authRateKey client) (w, act)).countP isTrackedHit =
      waiting client w + if triesWrongKey adminApiKey client (w, act) then 1 else 0 := by
  cases act with
  | arrive request =>
    cases taken
    simp only [waiting, List.countP_append]
    rfl
  | advance id now =>
    obtain ⟨stage, next, held, moved, requests⟩ := stage_cases taken
    obtain ⟨short, at_⟩ := List.getElem?_eq_some_iff.mp held
    have pending : (if isWaiting client stage then 1 else 0) ≤ waiting client w := by
      split_ifs with is
      · exact List.countP_pos_iff.mpr ⟨stage, List.mem_of_getElem? held, is⟩
      · exact Nat.zero_le _
    have changed : waiting client w' = waiting client w - (if isWaiting client stage then 1 else 0) +
        if isWaiting client next then 1 else 0 := by
      rw [waiting, requests, List.countP_set short, at_]
      rfl
    have balance := stage_balance client moved
    rw [touchesAt_some held, triesWrongKey_some held]
    omega

variable {trace recent earlier : List (World × Act)} {lo hi c : Nat}

/-- Every time of the steps is between the two. -/
def Within (lo hi : Nat) (trace : List (World × Act)) : Prop :=
  ∀ p ∈ trace, ∀ id now, p.2 = .advance id now → lo ≤ now ∧ now ≤ hi

/-- No more than `c` wrong keys of the client wait to be counted at once. -/
def FewWaiting (client : String) (c : Nat) (trace : List (World × Act)) (w : World) : Prop :=
  waiting client w ≤ c ∧ ∀ p ∈ trace, waiting client p.1 ≤ c

theorem history_append (key : String) (recent earlier : List (World × Act)) :
    history adminApiKey key (recent ++ earlier) =
      history adminApiKey key recent ++ history adminApiKey key earlier := List.flatMap_append

theorem history_within (key : String) (run : Run (step adminApiKey) {} (recent ++ earlier) w)
    (within : Within lo hi recent) :
    ∀ t ∈ history adminApiKey key recent, lo ≤ t.now ∧ t.now ≤ hi := by
  induction recent generalizing w with
  | nil => exact nofun
  | cons p recent ih =>
    cases run with
    | cons run taken =>
      rw [history_cons]
      intro t mem
      rcases List.mem_append.mp mem with here | before
      · rcases touchesAt_short key taken with none_ | ⟨t', id, one, rfl⟩
        · rw [none_] at here
          cases here
        · rw [one, List.mem_singleton] at here
          rw [here]
          exact within _ List.mem_cons_self id _ rfl
      · exact ih run (fun p mem => within p (List.mem_cons_of_mem _ mem)) t before

theorem tried_of_run (client : String) (run : Run (step adminApiKey) {} trace w) :
    peeksPassed adminRateLimitWindow countMax adminAuthLimit
        (history adminApiKey (authRateKey client) trace) =
      trace.countP (triesWrongKey adminApiKey client) := by
  induction run with
  | nil => rfl
  | cons run taken ih =>
    have tried := tried_eq client taken
    rw [bucket_of_run _ run] at tried
    rw [history_cons, List.countP_cons, ← ih, ← tried]
    rcases touchesAt_short (authRateKey client) taken with none_ | ⟨t, id, one, -⟩
    · rw [none_]
      rfl
    · rw [one, List.countP_singleton]
      rfl

theorem waiting_of_run (client : String) (run : Run (step adminApiKey) {} trace w) :
    waiting client w + trackedHits (history adminApiKey (authRateKey client) trace) =
      trace.countP (triesWrongKey adminApiKey client) := by
  induction run with
  | nil => rfl
  | cons run taken ih =>
    have balance := waiting_step client taken
    rw [history_cons, trackedHits, List.countP_append, List.countP_cons]
    rw [trackedHits] at ih
    omega

theorem waiting_history (run : Run (step adminApiKey) {} (recent ++ earlier) w)
    (few : FewWaiting client c recent w) :
    Waiting adminRateLimitWindow countMax adminAuthLimit c
      (history adminApiKey (authRateKey client) recent)
      (history adminApiKey (authRateKey client) earlier) := by
  induction recent generalizing w with
  | nil =>
    intro part suffix
    have balance := waiting_of_run client run
    have passed := tried_of_run client run
    have most := few.1
    rw [List.suffix_nil.mp suffix, List.nil_append]
    rw [List.nil_append] at balance passed
    omega
  | cons p recent ih =>
    have balance := waiting_of_run client run
    have passed := tried_of_run client run
    have most := few.1
    cases run with
    | cons run taken =>
      have before := ih run
        ⟨few.2 _ List.mem_cons_self, fun p mem => few.2 p (List.mem_cons_of_mem _ mem)⟩
      intro part suffix
      rw [history_cons] at suffix
      rw [List.cons_append, history_cons, history_append] at balance passed
      rcases touchesAt_short (authRateKey client) taken with none_ | ⟨t, id, one, -⟩
      · rw [none_] at suffix
        exact before part suffix
      · rw [one, List.singleton_append] at suffix
        rcases List.suffix_cons_iff.mp suffix with rfl | shorter
        · rw [one, List.singleton_append] at balance passed
          rw [List.cons_append]
          omega
        · exact before part shorter

theorem passed_le (client : String) (taken : step adminApiKey w act = some w') :
    (if passesSensitive client (w, act) then 1 else 0) ≤
      (touchesAt adminApiKey client (w, act)).countP
        (hitPasses adminRateLimitWindow countMax adminSensitiveLimit (w.buckets client)) := by
  split_ifs with passes
  · cases act with
    | arrive request => cases passes
    | advance id now =>
      obtain ⟨stage, next, held, -, -⟩ := stage_cases taken
      rw [passesSensitive_some held] at passes
      rw [touchesAt_some held]
      cases stage with
      | arrived r =>
        rw [stagePasses, Bool.and_eq_true, Bool.and_eq_true, decide_eq_true_eq,
          limited_iff _ _ _ _ false, Bool.not_not] at passes
        rw [stageTouches, if_pos passes.1, List.countP_singleton, if_pos passes.2]
      | checking r => cases passes
      | mismatched r => cases passes
      | tooManyRequests r message => cases passes
      | unauthorized r => cases passes
      | next r => cases passes
  · exact Nat.zero_le _

theorem passed_of_run (client : String) (run : Run (step adminApiKey) {} (recent ++ earlier) w) :
    hitsPassed adminRateLimitWindow countMax adminSensitiveLimit
        (history adminApiKey client earlier) + recent.countP (passesSensitive client) ≤
      hitsPassed adminRateLimitWindow countMax adminSensitiveLimit
        (history adminApiKey client (recent ++ earlier)) := by
  induction recent generalizing w with
  | nil => exact Nat.le_refl _
  | cons p recent ih =>
    cases run with
    | cons run taken =>
      have run : Run (step adminApiKey) {} (recent ++ earlier) _ := run
      have passed := passed_le client taken
      have before := ih run
      rw [bucket_of_run _ run] at passed
      rw [List.cons_append, history_cons, List.countP_cons]
      rcases touchesAt_short client taken with none_ | ⟨t, id, one, -⟩
      · rw [none_, List.countP_nil] at passed
        rw [none_, List.nil_append]
        omega
      · rw [one, List.countP_singleton] at passed
        rw [one, List.singleton_append, hitsPassed]
        omega

private def guess : AdminRequest where
  xForwardedFor := some (some "10.0.0.1, 10.0.0.2")
  xApiKey := some (some "guess")
  path := "/api/admin/client-keys"

private def guessed (id now : Nat) : List Act :=
  [.arrive guess, .advance id now, .advance id now, .advance id now]

/-- One wrong key at the start, nineteen after fifty-nine seconds, twenty after sixty-one. -/
private def earlyGuesses : List Act := guessed 0 0

private def lateGuesses : List Act :=
  (List.range 19).flatMap (fun k => guessed (k + 1) (59 * 10 ^ 9)) ++
    (List.range 20).flatMap fun k => guessed (k + 20) (61 * 10 ^ 9)

/-- A stage counts against a key: a wrong key of a client does under its name in the other
buckets, a request for a sensitive route under its own. -/
def stageMarks (key : String) : Stage → Bool
  | .arrived r => adminRouteIsSensitive r.path && decide (adminRateKey r = key)
  | .mismatched r => decide (authRateKey (adminRateKey r) = key)
  | _ => false

/-- The step counts against a key, at a time that is one of `times`. -/
def marks (key : String) (times : Nat → Bool) (p : World × Act) : Bool :=
  match p.2 with
  | .arrive _ => false
  | .advance id now => times now && (p.1.requests[id]?).any (stageMarks key)

/-- The times of a window opened at `opened`, up to `now`. The clock is read before the lock is
taken, so that either may have been read up to `late` behind the other. -/
def inWindow (late opened now time : Nat) : Bool :=
  decide (opened ≤ time + late ∧ time ≤ now + late ∧ time < opened + adminRateLimitWindow)

/-- No step reads its clock more than `late` before a step that came first. -/
def Punctual (late : Nat) (trace : List (World × Act)) : Prop :=
  trace.Pairwise fun p q => ∀ id now id' now', p.2 = .advance id now → q.2 = .advance id' now' →
    now' ≤ now + late

theorem stage_hits (key : String) (now : Nat) (stage : Stage) :
    (stageTouches adminApiKey key now stage).countP isHit =
      if stageMarks key stage then 1 else 0 := by
  cases stage with
  | arrived r =>
    rw [stageTouches, stageMarks]
    simp only [Bool.and_eq_true, decide_eq_true_eq]
    split_ifs <;> rfl
  | checking r =>
    have unmarked : stageMarks key (.checking r) = false := rfl
    rw [stageTouches, unmarked, if_neg Bool.false_ne_true]
    split_ifs <;> rfl
  | mismatched r =>
    rw [stageTouches, stageMarks]
    simp only [decide_eq_true_eq]
    split_ifs <;> rfl
  | tooManyRequests r message => rfl
  | unauthorized r => rfl
  | next r => rfl

theorem hits_of_run (key : String) (times : Nat → Bool) (run : Run (step adminApiKey) {} trace w) :
    (history adminApiKey key trace).countP (fun t => isHit t && times t.now) =
      trace.countP (marks key times) := by
  induction run with
  | nil => rfl
  | @cons trace s s' act run taken ih =>
    rw [history_cons, List.countP_append, List.countP_cons, ih, Nat.add_comm]
    congr 1
    cases act with
    | arrive request => rfl
    | advance id now =>
      obtain ⟨stage, next, held, -, -⟩ := stage_cases taken
      have counted := @stage_hits adminApiKey key now stage
      rw [touchesAt_some held, marks]
      simp only [held, Option.any_some]
      rcases @stageTouches_short adminApiKey key now stage with
        none_ | ⟨t, one, rfl⟩
      · have unmarked : stageMarks key stage = false := by
          rw [none_, List.countP_nil] at counted
          by_contra marked
          rw [Bool.not_eq_false] at marked
          rw [marked, if_pos rfl] at counted
          cases counted
        rw [none_, unmarked, Bool.and_false]
        rfl
      · have same : isHit t = stageMarks key stage := by
          rw [one, List.countP_singleton] at counted
          revert counted
          cases isHit t <;> cases stageMarks key stage <;> decide
        rw [one, List.countP_singleton, same, Bool.and_comm]

theorem mem_history {key : String} {t : Touch} (run : Run (step adminApiKey) {} trace w)
    (mem : t ∈ history adminApiKey key trace) : ∃ p ∈ trace, ∃ id, p.2 = .advance id t.now := by
  induction run with
  | nil => cases mem
  | cons run taken ih =>
    rw [history_cons] at mem
    rcases List.mem_append.mp mem with here | before
    · rcases touchesAt_short key taken with none_ | ⟨t', id, one, is⟩
      · rw [none_] at here
        cases here
      · rw [one, List.mem_singleton] at here
        exact ⟨_, List.mem_cons_self, id, by rw [here]; exact is⟩
    · obtain ⟨p, there, id, is⟩ := ih before
      exact ⟨p, List.mem_cons_of_mem _ there, id, is⟩

theorem history_punctual {late : Nat} (key : String) (run : Run (step adminApiKey) {} trace w)
    (punctual : Punctual late trace) :
    (history adminApiKey key trace).Pairwise fun t u => u.now ≤ t.now + late := by
  induction run with
  | nil => exact List.Pairwise.nil
  | cons run taken ih =>
    obtain ⟨first, punctual⟩ := List.pairwise_cons.mp punctual
    rw [history_cons]
    rcases touchesAt_short key taken with none_ | ⟨t, id, one, is⟩
    · rw [none_]
      exact ih punctual
    · rw [one]
      refine List.pairwise_cons.mpr ⟨fun u mem => ?_, ih punctual⟩
      obtain ⟨p, there, id', is'⟩ := mem_history run mem
      exact first p there id t.now id' u.now is is'

theorem count_cause {key : String} {bucket : RateBucket} {late now : Nat}
    (run : Run (step adminApiKey) {} trace w) (punctual : Punctual late trace)
    (until_ : ∀ p ∈ trace, ∀ id time, p.2 = .advance id time → time ≤ now + late)
    (held : w.buckets key = some bucket) :
    bucket.start ≤ now + late ∧
      bucket.count ≤ trace.countP (marks key (inWindow late bucket.start now)) := by
  rw [bucket_of_run key run] at held
  obtain ⟨recent, opening, older, eq, opened, within, enough⟩ :=
    window_cause (by decide) held
  have ordered := history_punctual key run punctual
  have until_ (t : Touch) (mem : t ∈ recent ++ opening :: older) : t.now ≤ now + late := by
    rw [← eq] at mem
    obtain ⟨p, there, id, is⟩ := mem_history run mem
    exact until_ p there id t.now is
  rw [eq] at ordered
  have behind := (List.pairwise_append.mp ordered).2.2
  refine ⟨opened ▸ until_ opening (List.mem_append_right _ List.mem_cons_self), ?_⟩
  rw [← hits_of_run key _ run, eq, List.append_cons, opened]
  calc bucket.count ≤ hits (recent ++ [opening]) := enough
    _ ≤ (recent ++ [opening]).countP fun t => isHit t && inWindow late opening.now now t.now := by
      refine List.countP_mono_left fun t mem hit => Bool.and_eq_true_iff.mpr ⟨hit, ?_⟩
      apply decide_eq_true
      rcases List.mem_append.mp mem with before | last
      · have recently := within t before
        have after_opening := behind t before opening List.mem_cons_self
        have early := until_ t (List.mem_append_left _ before)
        unfold adminRateLimitWindow at recently ⊢
        omega
      · have early := until_ opening (List.mem_append_right _ List.mem_cons_self)
        rw [List.mem_singleton.mp last]
        unfold adminRateLimitWindow
        omega
    _ ≤ _ := (List.sublist_append_left _ _).countP_le

/-- What a request that is refused goes back to: as many steps as the limit has, that count against
the key in the window that is open. -/
def Spent (trace : List (World × Act)) (late now limit : Nat) (key : String) : Prop :=
  ∃ opened, opened ≤ now + late ∧ now < opened + adminRateLimitWindow ∧
    limit ≤ trace.countP (marks key (inWindow late opened now))

section Causes

variable {limit now late : Nat}

theorem limited_cause (some_ : 0 < limit) (run : Run (step adminApiKey) {} trace w)
    (punctual : Punctual late trace)
    (until_ : ∀ p ∈ trace, ∀ id time, p.2 = .advance id time → time ≤ now + late)
    (limited : (adminRateLimited w.buckets key limit now).1 = true) :
    Spent trace late now limit key := by
  rw [adminRateLimited] at limited
  cases held : w.buckets key with
  | none =>
    have fresh : ¬ adminRateLimitWindow ≤ now - now := by
      rw [Nat.sub_self]
      decide
    simp only [held, Option.getD_none, if_neg fresh, decide_eq_true_eq] at limited
    omega
  | some bucket =>
    by_cases passed : adminRateLimitWindow ≤ now - bucket.start
    · simp only [held, Option.getD_some, if_pos passed, decide_eq_true_eq] at limited
      omega
    · simp only [held, Option.getD_some, if_neg passed, decide_eq_true_eq] at limited
      obtain ⟨opened, enough⟩ := count_cause run punctual until_ held
      unfold adminRateLimitWindow at passed
      refine ⟨bucket.start, opened, ?_, by omega⟩
      unfold adminRateLimitWindow
      omega

theorem exceeded_cause (run : Run (step adminApiKey) {} trace w) (punctual : Punctual late trace)
    (until_ : ∀ p ∈ trace, ∀ id time, p.2 = .advance id time → time ≤ now + late)
    (exceeded : (adminRateIsExceeded w.buckets key limit now).1 = true) :
    Spent trace late now limit key := by
  rw [adminRateIsExceeded] at exceeded
  cases held : w.buckets key with
  | none =>
    rw [held] at exceeded
    cases exceeded
  | some bucket =>
    rw [held] at exceeded
    by_cases passed : adminRateLimitWindow ≤ now - bucket.start
    · simp only [if_pos passed, Bool.false_eq_true] at exceeded
    · simp only [if_neg passed, decide_eq_true_eq] at exceeded
      obtain ⟨opened, enough⟩ := count_cause run punctual until_ held
      unfold adminRateLimitWindow at passed
      refine ⟨bucket.start, opened, ?_, exceeded.trans enough⟩
      unfold adminRateLimitWindow
      omega

end Causes

def Compared (adminApiKey : String) : Stage → Prop
  | .next r => keyMatches adminApiKey r = true
  | .mismatched r | .unauthorized r => keyMatches adminApiKey r = false
  | _ => True

theorem compared_stage {map map' : Buckets} {now : Nat} {stage next : Stage}
    (moved : stageStep adminApiKey map now stage = some (next, map'))
    (compared : Compared adminApiKey stage) : Compared adminApiKey next := by
  cases stage with
  | arrived r =>
    rw [stageStep] at moved
    split_ifs at moved
    · rw [← (Prod.mk.inj (Option.some.inj moved)).1]
      split_ifs <;> trivial
    · rw [← (Prod.mk.inj (Option.some.inj moved)).1]
      trivial
  | checking r =>
    have now_ : (if (adminRateIsExceeded map (authRateKey (adminRateKey r)) adminAuthLimit now).1
        then Stage.tooManyRequests r "Admin auth rate limit exceeded"
        else if keyMatches adminApiKey r then .next r else .mismatched r) = next :=
      (Prod.mk.inj (Option.some.inj moved)).1
    rw [← now_]
    split_ifs with exceeded matches_
    · trivial
    · exact matches_
    · exact Bool.eq_false_iff.mpr matches_
  | mismatched r =>
    have now_ : .unauthorized r = next := (Prod.mk.inj (Option.some.inj moved)).1
    rw [← now_]
    exact compared
  | tooManyRequests r message => cases moved
  | unauthorized r => cases moved
  | next r => cases moved

theorem compared_of_run (run : Run (step adminApiKey) {} trace w) :
    ∀ stage ∈ w.requests, Compared adminApiKey stage := by
  induction run with
  | nil => exact fun stage never => absurd never List.not_mem_nil
  | @cons trace s s' act run taken ih =>
    cases act with
    | arrive request =>
      cases taken
      intro stage mem
      rcases List.mem_append.mp mem with before | last
      · exact ih stage before
      · rw [List.mem_singleton.mp last]
        trivial
    | advance id now =>
      obtain ⟨stage, next, held, moved, requests⟩ := stage_cases taken
      rw [requests]
      intro stage' mem
      rcases List.mem_or_eq_of_mem_set mem with before | rfl
      · exact ih stage' before
      · exact compared_stage moved (ih stage (List.mem_of_getElem? held))

/-- However requests interleave, a handler has the requests with the admin key alone, and only a
wrong key is unauthorized. Each other refusal goes back to as many requests as its limit has, in
the minute of the window that is open: wrong keys under the name of the client, or requests for
sensitive routes of one that calls itself so. -/
theorem refusals_have_cause {late : Nat} (run : Run (step adminApiKey) {} trace w) :
    (∀ r, (.next r ∈ w.requests → keyMatches adminApiKey r = true) ∧
      (.unauthorized r ∈ w.requests → keyMatches adminApiKey r = false)) ∧
    ∀ id now w' r message, step adminApiKey w (.advance id now) = some w' →
      Punctual late ((w, .advance id now) :: trace) →
      w'.requests[id]? = some (.tooManyRequests r message) →
      message = "Admin auth rate limit exceeded" ∧
          Spent trace late now adminAuthLimit (authRateKey (adminRateKey r)) ∨
        message = "Admin API rate limit exceeded" ∧ adminRouteIsSensitive r.path = true ∧
          Spent trace late now adminSensitiveLimit (adminRateKey r) := by
  refine ⟨fun r => ⟨compared_of_run run _, compared_of_run run _⟩, ?_⟩
  intro id now w' r message taken punctual refused
  obtain ⟨until_, punctual⟩ := List.pairwise_cons.mp punctual
  have until_ : ∀ p ∈ trace, ∀ id' time, p.2 = .advance id' time → time ≤ now + late :=
    fun p mem id' time is => until_ p mem id now id' time rfl is
  obtain ⟨stage, next, held, moved, requests⟩ := stage_cases taken
  obtain ⟨short, -⟩ := List.getElem?_eq_some_iff.mp held
  rw [requests, List.getElem?_set_self short, Option.some.injEq] at refused
  rw [refused] at moved
  cases stage with
  | arrived r' =>
    rw [stageStep] at moved
    split_ifs at moved with sensitive
    · have now_ : (if (adminRateLimited w.buckets (adminRateKey r') adminSensitiveLimit now).1
          then Stage.tooManyRequests r' "Admin API rate limit exceeded" else .checking r') =
          .tooManyRequests r message := (Prod.mk.inj (Option.some.inj moved)).1
      split_ifs at now_ with limited
      obtain ⟨rfl, rfl⟩ := Stage.tooManyRequests.inj now_
      exact .inr ⟨rfl, sensitive, limited_cause (by decide) run punctual until_ limited⟩
    · cases moved
  | checking r' =>
    have now_ : (if (adminRateIsExceeded w.buckets (authRateKey (adminRateKey r')) adminAuthLimit
        now).1 then Stage.tooManyRequests r' "Admin auth rate limit exceeded"
        else if keyMatches adminApiKey r' then .next r' else .mismatched r') =
        .tooManyRequests r message := (Prod.mk.inj (Option.some.inj moved)).1
    split_ifs at now_ with exceeded
    obtain ⟨rfl, rfl⟩ := Stage.tooManyRequests.inj now_
    exact .inl ⟨rfl, exceeded_cause run punctual until_ exceeded⟩
  | mismatched r' => cases moved
  | tooManyRequests r' message => cases moved
  | unauthorized r' => cases moved
  | next r' => cases moved

private def owner : AdminRequest where
  xForwardedFor := some (some "10.0.0.1")
  xApiKey := some (some "secret")
  path := "/api/admin/system"

/-- A client without a key that calls itself after the bucket of wrong keys of another. -/
private def namesake : AdminRequest where
  xForwardedFor := some (some "auth:10.0.0.1")
  path := "/api/admin/config"

private def lockedOut : List Act :=
  ((List.range 20).map fun i => [Act.arrive namesake, .advance i (i + 1)]).flatten ++
    [.arrive owner, .advance 20 30]

private def timely (acts : List Act) : Bool :=
  decide ((acts.filterMap fun act =>
    match act with
    | .arrive _ => none
    | .advance _ now => some now).Pairwise fun now before => before ≤ now)

private theorem punctual_of_timely {trace : List (World × Act)}
    (ordered : timely (trace.map (·.2)) = true) : Punctual 0 trace := by
  have ordered := of_decide_eq_true ordered
  rw [List.pairwise_filterMap, List.pairwise_map] at ordered
  refine ordered.imp fun {p q} both id now id' now' is is' => ?_
  exact both now (by rw [is]) now' (by rw [is'])

theorem refusals_have_cause_namesake : ∃ trace w w', Run (step "secret") {} trace w ∧
    step "secret" w (.advance 20 31) = some w' ∧
    w'.requests[20]? = some (.tooManyRequests owner "Admin auth rate limit exceeded") ∧
    Spent trace 0 31 adminAuthLimit (authRateKey (adminRateKey owner)) := by
  have followed : ((follow (step "secret") [] {} lockedOut).any fun p =>
      timely (.advance 20 31 :: p.1.map (·.2)) &&
        (step "secret" p.2 (.advance 20 31)).any fun w' => decide (w'.requests[20]? =
          some (.tooManyRequests owner "Admin auth rate limit exceeded"))) = true := by
    decide +kernel
  obtain ⟨p, reached, holds⟩ := (Option.any_eq_true _ _).mp followed
  obtain ⟨ordered, holds⟩ := Bool.and_eq_true_iff.mp holds
  obtain ⟨w', taken, refused⟩ := (Option.any_eq_true _ _).mp holds
  have run := (follow_run .nil reached).1
  have is := of_decide_eq_true refused
  have punctual : Punctual 0 ((p.2, .advance 20 31) :: p.1) := punctual_of_timely ordered
  rcases (refusals_have_cause run).2 20 31 w' owner _ taken punctual is with
    ⟨-, spent⟩ | ⟨other, -⟩
  · exact ⟨p.1, p.2, w', run, taken, is, spent⟩
  · exact absurd other (by decide)

end KiroRs.Admin.AdminAccess
