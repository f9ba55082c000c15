/- Path: KiroRs/Login/SocialLogin
   source: src/admin/service.rs, src/kiro/auth/social.rs
   digest: Social logins under way, with browsers, polls, pasted callbacks and the cleaner between
   any two of their steps: what is exchanged for a token, how often, and with what behind it. -/

import KiroRs.Lib.Traces
import KiroRs.Login.Pkce
import KiroRs.Pool.Credentials

set_option autoImplicit false
set_option relaxedAutoImplicit false

namespace KiroRs.Login.SocialLogin

open KiroRs.Lib.Slices (bytes)
open KiroRs.Lib.Wire (Bytes)
open KiroRs.Lib.Traces
open KiroRs.Login.CallbackUrl
open KiroRs.Login.Pkce
open KiroRs.Pool.Credentials (KiroCredentials)

structure StartSocialLoginRequest where
  priority : Nat := 0
  email : Option String := none
  proxyUrl : Option String := none
  authEndpoint : Option String := none

def kiroAuthEndpoint : String := "https://prod.us-east-1.auth.desktop.kiro.dev"

/-- What `try_recv` finds. -/
inductive CallbackRx where
  | empty
  | sent (callback : OAuthCallbackData)
  | closed
  deriving DecidableEq

structure SocialAuthSession where
  authEndpoint : String
  state : String
  codeVerifier : String
  redirectUri : String
  /-- In nanoseconds. -/
  expiresAt : Int
  callbackRx : CallbackRx
  credTemplate : KiroCredentials
  proxy : Option String
  reloginTargetId : Option Nat
  deriving DecidableEq

/-- What is called from outside: the crates, and the text of a time stamp. -/
structure Env where
  urlencoding : Urlencoding
  sha256 : List UInt8 → List UInt8
  rfc3339 : Int → String

/-- What a login is started with. A relogin has a target, which is there. -/
structure Start where
  target : Option Nat := none
  request : StartSocialLoginRequest := {}
  globalProxy : Option String := none
  drawn : List UInt8
  state : String
  /-- The callback port that was free. -/
  port : Nat
  now : Int

def tenMinutes : Int := 600 * 10 ^ 9

variable (env : Env)

/-- The session that `start_social_login` or `start_social_relogin` keeps. -/
def Start.session (start : Start) : SocialAuthSession where
  authEndpoint := start.request.authEndpoint.getD kiroAuthEndpoint
  state := start.state
  codeVerifier := String.ofList (generatePkce env.sha256 start.drawn).1
  redirectUri := "http://127.0.0.1:" ++ toString start.port
  expiresAt := start.now + tenMinutes
  callbackRx := .empty
  credTemplate :=
    match start.target with
    | none =>
      { authMethod := some "social"
        priority := start.request.priority
        email := start.request.email
        proxyUrl := start.request.proxyUrl }
    | some _ => {}
  proxy := start.request.proxyUrl.or start.globalProxy
  reloginTargetId := start.target

/-- The URL that the answer to the start has. -/
def Start.portalUrl (start : Start) : String :=
  buildPortalUrl env.urlencoding start.state
    (String.ofList (generatePkce env.sha256 start.drawn).2) (start.session env).redirectUri

/-- The request of `exchange_code_for_token`. -/
structure TokenRequest where
  url : String
  code : String
  codeVerifier : String
  redirectUri : String
  proxy : Option String
  deriving DecidableEq

def tokenRequest (session : SocialAuthSession) (callback : OAuthCallbackData) : TokenRequest where
  url := session.authEndpoint ++ "/oauth/token"
  code := callback.code
  codeVerifier := session.codeVerifier
  redirectUri :=
    if callback.loginOption = "" then session.redirectUri ++ callback.path
    else session.redirectUri ++ callback.path ++ "?login_option=" ++
      env.urlencoding.encode callback.loginOption
  proxy := session.proxy

structure SocialCreateTokenResponse where
  accessToken : String
  refreshToken : Option String := none
  expiresAt : Option String := none
  expiresIn : Option Int := none
  profileArn : Option String := none

inductive Store where
  | addCredential (new : KiroCredentials)
  | reloginUpdate (targetId : Nat) (refreshToken : String) (metadata : KiroCredentials)
  deriving DecidableEq

def storeOf (session : SocialAuthSession) (now : Int) (token : SocialCreateTokenResponse) :
    Except String Store :=
  match session.reloginTargetId with
  | some targetId =>
    match token.refreshToken with
    | none => .error "Social 登录未返回 refreshToken，无法更新凭据"
    | some refreshToken => .ok (.reloginUpdate targetId refreshToken session.credTemplate)
  | none =>
    .ok (.addCredential
      { session.credTemplate with
        accessToken := some token.accessToken
        refreshToken := token.refreshToken
        expiresAt := token.expiresAt.or
          (token.expiresIn.map fun secs => env.rfc3339 (now + secs * 10 ^ 9))
        profileArn := token.profileArn.or session.credTemplate.profileArn })

inductive LoginAnswer where
  | pending
  | expired
  | success (credentialId : Nat)
  | notFound (id : Nat)
  | internalError (message : String)
  deriving DecidableEq

inductive Stage where
  /-- `poll_social_login`, before its first lock. -/
  | polling (id : String)
  /-- Before the session is removed. -/
  | dropping (id : String) (answer : LoginAnswer)
  /-- `complete_social_login`, before its first lock. -/
  | completing (id : String) (callback : OAuthCallbackData)
  /-- `do_complete_social_login`, before the state is compared. -/
  | checking (id : String) (callback : OAuthCallbackData)
  /-- Before the session is taken out. -/
  | taking (id : String) (callback : OAuthCallbackData)
  /-- The token endpoint has the request. -/
  | exchanging (id : String) (session : SocialAuthSession) (request : TokenRequest)
  | storing (id : String) (store : Store)
  | answered (answer : LoginAnswer)
  /-- The client went away. -/
  | gone
  deriving DecidableEq

abbrev Sessions := String → Option SocialAuthSession

structure World where
  sessions : Sessions := fun _ => none
  calls : List Stage := []

/-- What a step meets: the time, and the answers to what was asked. -/
structure Input where
  now : Int := 0
  token : Except String SocialCreateTokenResponse := .error ""
  stored : Except String Nat := .error ""

inductive Act where
  | start (id : String) (start : Start)
  /-- The callback server of a session has read from a connection. -/
  | browse (id : String) (buf : Bytes)
  /-- The callback server cannot accept. -/
  | serverFails (id : String)
  | poll (id : String)
  | complete (id : String) (callback : OAuthCallbackData)
  | advance (call : Nat) (input : Input)
  /-- The client of a call that waits for an answer is gone. -/
  | cancel (call : Nat)
  | clean (now : Int)

def remove (sessions : Sessions) (id : String) : Sessions :=
  fun other => if other = id then none else sessions other

def setRx (sessions : Sessions) (id : String) (rx : CallbackRx) : Sessions :=
  fun other =>
    if other = id then (sessions other).map fun s => { s with callbackRx := rx } else sessions other

def stageStep (sessions : Sessions) (input : Input) : Stage → Option (Stage × Sessions)
  | .polling id =>
    some (match sessions id with
      | none => (.answered (.notFound 0), sessions)
      | some s =>
        if s.expiresAt ≤ input.now then (.dropping id .expired, sessions)
        else
          match s.callbackRx with
          | .sent callback => (.checking id callback, setRx sessions id .closed)
          | .empty => (.answered .pending, sessions)
          | .closed =>
            (.dropping id (.internalError "Social 登录回调服务器已关闭，请重新发起登录"), sessions))
  | .dropping id answer => some (.answered answer, remove sessions id)
  | .completing id callback =>
    some (match sessions id with
      | none => (.answered (.notFound 0), sessions)
      | some s =>
        if s.expiresAt ≤ input.now then (.answered .expired, sessions)
        else (.checking id callback, sessions))
  | .checking id callback =>
    some (match sessions id with
      | none => (.answered (.notFound 0), sessions)
      | some s =>
        if callback.state ≠ s.state then
          (.answered (.internalError "OAuth state 不匹配，请重新发起登录"), sessions)
        else (.taking id callback, sessions))
  | .taking id callback =>
    some (match sessions id with
      | none => (.answered (.notFound 0), sessions)
      | some s => (.exchanging id s (tokenRequest env s callback), remove sessions id))
  | .exchanging id session _ =>
    some (match input.token.bind (storeOf env session input.now) with
      | .error message => (.answered (.internalError message), sessions)
      | .ok store => (.storing id store, sessions))
  | .storing _ store =>
    some (match input.stored, store with
      | .error message, _ => (.answered (.internalError message), sessions)
      | .ok _, .reloginUpdate targetId _ _ => (.answered (.success targetId), sessions)
      | .ok id, .addCredential _ => (.answered (.success id), sessions))
  | .answered _ | .gone => none

/-- Where a call waits, and ends with its client. -/
def waits : Stage → Bool
  | .exchanging _ _ _ => true
  | .storing _ (.addCredential _) => true
  | _ => false

def step (w : World) : Act → Option World
  | .start id start =>
    some { w with sessions := Function.update w.sessions id (some (start.session env)) }
  | .browse id buf =>
    match w.sessions id with
    | some s =>
      if s.callbackRx = .empty then
        match serve env.urlencoding buf with
        | .loggedIn callback => some { w with sessions := setRx w.sessions id (.sent callback) }
        | .failed _ => some { w with sessions := setRx w.sessions id .closed }
        | .notFound => some w
      else some w
    | none => some w
  | .serverFails id =>
    match w.sessions id with
    | some s =>
      if s.callbackRx = .empty then some { w with sessions := setRx w.sessions id .closed }
      else some w
    | none => some w
  | .poll id => some { w with calls := w.calls ++ [.polling id] }
  | .complete id callback => some { w with calls := w.calls ++ [.completing id callback] }
  | .advance call input =>
    match w.calls[call]? with
    | none => none
    | some stage =>
      (stageStep env w.sessions input stage).map fun (stage, sessions) =>
        ⟨sessions, w.calls.set call stage⟩
  | .cancel call =>
    match w.calls[call]? with
    | none => none
    | some stage =>
      if waits stage then some { w with calls := w.calls.set call .gone } else none
  | .clean now =>
    some { w with sessions := fun id => (w.sessions id).filter fun s => decide (now < s.expiresAt) }

/-- The token request that a step sends, with its session. -/
def exchange (p : World × Act) : Option (String × TokenRequest) :=
  match p.2 with
  | .advance call _ =>
    match p.1.calls[call]? with
    | some (.taking id callback) =>
      (p.1.sessions id).map fun session => (id, tokenRequest env session callback)
    | _ => none
  | _ => none

def stores (p : World × Act) : Option (String × Store) :=
  match p.2 with
  | .advance call input =>
    match p.1.calls[call]? with
    | some (.exchanging id session _) =>
      match input.token.bind (storeOf env session input.now) with
      | .ok store => some (id, store)
      | .error _ => none
    | _ => none
  | _ => none

def forSession {α : Type} (id : String) (o : Option (String × α)) : Bool := o.any (·.1 == id)

/-- The start of a session. -/
def started (id : String) : List (World × Act) → Option Start
  | [] => none
  | (_, .start other start) :: earlier => if other = id then some start else started id earlier
  | _ :: earlier => started id earlier

def isFresh (earlier : List (World × Act)) : Act → Bool
  | .start id _ => (started id earlier).isNone
  | _ => true

/-- Every session has an id of its own. -/
def freshIds : List (World × Act) → Bool
  | [] => true
  | p :: earlier => isFresh earlier p.2 && freshIds earlier

/-- A browser has brought the callback to the server of the session, or it was pasted. -/
def Brought (trace : List (World × Act)) (id : String) (callback : OAuthCallbackData) : Prop :=
  (∃ s buf, (s, Act.browse id buf) ∈ trace ∧ serve env.urlencoding buf = .loggedIn callback) ∨
  ∃ s, (s, Act.complete id callback) ∈ trace

/-- The call of the session was in time when it looked. -/
def InTime (trace : List (World × Act)) (id : String) (start : Start) (call : Nat) : Prop :=
  ∃ s input, (s, Act.advance call input) ∈ trace ∧
    (s.calls[call]? = some (.polling id) ∨ ∃ callback,
      s.calls[call]? = some (.completing id callback)) ∧
    input.now < (start.session env).expiresAt

variable {env} {w w' : World} {act : Act} {trace : List (World × Act)} {id : String}

theorem call_cases {call : Nat} {input : Input} (taken : step env w (.advance call input) = some w') :
    ∃ stage next, w.calls[call]? = some stage ∧
      stageStep env w.sessions input stage = some (next, w'.sessions) ∧
      w'.calls = w.calls.set call next := by
  rw [step] at taken
  cases held : w.calls[call]? with
  | none =>
    rw [held] at taken
    cases taken
  | some stage =>
    rw [held] at taken
    obtain ⟨⟨next, sessions⟩, moved, rfl⟩ := Option.map_eq_some_iff.mp taken
    exact ⟨stage, next, rfl, moved, rfl⟩

/-- A session that is kept, with what its callback channel has. -/
def Kept (before session : SocialAuthSession) : Prop :=
  session = { before with callbackRx := session.callbackRx }

theorem Kept.refl (session : SocialAuthSession) : Kept session session := rfl

theorem setRx_some {sessions : Sessions} {other : String} {rx : CallbackRx}
    {session : SocialAuthSession} (is : setRx sessions other rx id = some session) :
    ∃ before, sessions id = some before ∧ Kept before session ∧
      (session.callbackRx = before.callbackRx ∨ other = id ∧ session.callbackRx = rx) := by
  rw [setRx] at is
  split_ifs at is with here
  · obtain ⟨before, held, rfl⟩ := Option.map_eq_some_iff.mp is
    exact ⟨before, held, rfl, .inr ⟨here.symm, rfl⟩⟩
  · exact ⟨session, is, rfl, .inl rfl⟩

theorem remove_some {sessions : Sessions} {other : String} {session : SocialAuthSession}
    (is : remove sessions other id = some session) : sessions id = some session ∧ id ≠ other := by
  rw [remove] at is
  split_ifs at is with here
  exact ⟨is, here⟩

theorem stage_sessions {sessions sessions' : Sessions} {input : Input} {stage next : Stage}
    (moved : stageStep env sessions input stage = some (next, sessions'))
    {session : SocialAuthSession} (is : sessions' id = some session) :
    ∃ before, sessions id = some before ∧ Kept before session ∧
      (session.callbackRx = before.callbackRx ∨ session.callbackRx = .closed) ∧
      ∀ callback, stage ≠ .taking id callback := by
  have same : ∀ {next' : Stage}, (next', sessions) = (next, sessions') →
      (∀ callback, stage ≠ .taking id callback) → ∃ before, sessions id = some before ∧
        Kept before session ∧ (session.callbackRx = before.callbackRx ∨
          session.callbackRx = .closed) ∧ ∀ callback, stage ≠ .taking id callback := by
    intro next' eq other
    rw [← (Prod.mk.inj eq).2] at is
    exact ⟨session, is, .refl session, .inl rfl, other⟩
  cases stage with
  | polling other =>
    have eq := Option.some.inj moved
    split at eq
    · exact same eq nofun
    · split_ifs at eq
      · exact same eq nofun
      · split at eq
        · rw [← (Prod.mk.inj eq).2] at is
          obtain ⟨before, held, kept, rx⟩ := setRx_some is
          refine ⟨before, held, kept, ?_, nofun⟩
          rcases rx with same' | ⟨-, closed⟩
          · exact .inl same'
          · exact .inr closed
        · exact same eq nofun
        · exact same eq nofun
  | dropping other answer =>
    have eq := Option.some.inj moved
    rw [← (Prod.mk.inj eq).2] at is
    exact ⟨session, (remove_some is).1, .refl session, .inl rfl, nofun⟩
  | completing other callback =>
    have eq := Option.some.inj moved
    split at eq
    · exact same eq nofun
    · split_ifs at eq
      · exact same eq nofun
      · exact same eq nofun
  | checking other callback =>
    have eq := Option.some.inj moved
    split at eq
    · exact same eq nofun
    · split_ifs at eq
      · exact same eq nofun
      · exact same eq nofun
  | taking other callback =>
    have eq := Option.some.inj moved
    split at eq
    · rename_i absent
      rw [← (Prod.mk.inj eq).2] at is
      refine ⟨session, is, .refl session, .inl rfl, fun callback' there => ?_⟩
      rw [(Stage.taking.inj there).1, is] at absent
      cases absent
    · rw [← (Prod.mk.inj eq).2] at is
      obtain ⟨held, ne⟩ := remove_some is
      exact ⟨session, held, .refl session, .inl rfl,
        fun callback' there => ne (Stage.taking.inj there).1.symm⟩
  | exchanging other session' request =>
    have eq := Option.some.inj moved
    split at eq
    · exact same eq nofun
    · exact same eq nofun
  | storing other store =>
    have eq := Option.some.inj moved
    split at eq
    · exact same eq nofun
    · exact same eq nofun
    · exact same eq nofun
  | answered answer => cases moved
  | gone => cases moved

def stageExchange (env : Env) (sessions : Sessions) : Stage → Option (String × TokenRequest)
  | .taking id callback => (sessions id).map fun session => (id, tokenRequest env session callback)
  | _ => none

theorem exchange_advance {call : Nat} {input : Input} {stage : Stage}
    (held : w.calls[call]? = some stage) :
    exchange env (w, .advance call input) = stageExchange env w.sessions stage := by
  rw [exchange]
  simp only [held]
  cases stage <;> rfl

/-- The session was there before the step, which does not take it out. What its channel has came
there with a request. -/
def Stays (env : Env) (w : World) (act : Act) (id : String) (session : SocialAuthSession) : Prop :=
  ∃ before, w.sessions id = some before ∧ Kept before session ∧
    (∀ callback, session.callbackRx = .sent callback → before.callbackRx = .sent callback ∨
      ∃ buf, act = .browse id buf ∧ serve env.urlencoding buf = .loggedIn callback) ∧
    forSession id (exchange env (w, act)) = false

theorem session_cases (taken : step env w act = some w') {session : SocialAuthSession}
    (is : w'.sessions id = some session) :
    (∃ start, act = .start id start ∧ session = start.session env) ∨
      Stays env w act id session := by
  have same : w'.sessions = w.sessions → exchange env (w, act) = none →
      Stays env w act id session := fun eq none_ =>
    ⟨session, by rw [← eq]; exact is, .refl session, fun _ => .inl, by rw [none_]; rfl⟩
  cases act with
  | start other start =>
    cases taken
    have is' : Function.update w.sessions other (some (start.session env)) id = some session := is
    by_cases here : id = other
    · rw [here, Function.update_self] at is'
      exact .inl ⟨start, by rw [here], (Option.some.inj is').symm⟩
    · rw [Function.update_of_ne here] at is'
      exact .inr ⟨session, is', .refl session, fun _ => .inl, rfl⟩
  | browse other buf =>
    rw [step] at taken
    split at taken
    · split_ifs at taken with open_
      · split at taken
        · rename_i served
          cases taken
          obtain ⟨before, held, kept, rx⟩ := setRx_some is
          refine .inr ⟨before, held, kept, fun callback sent => ?_, rfl⟩
          rcases rx with same' | ⟨rfl, brought⟩
          · exact .inl (same' ▸ sent)
          · rw [brought] at sent
            exact .inr ⟨buf, rfl, CallbackRx.sent.inj sent ▸ served⟩
        · cases taken
          obtain ⟨before, held, kept, rx⟩ := setRx_some is
          refine .inr ⟨before, held, kept, fun callback sent => ?_, rfl⟩
          rcases rx with same' | ⟨-, closed⟩
          · exact .inl (same' ▸ sent)
          · rw [closed] at sent
            cases sent
        · cases taken
          exact .inr (same rfl rfl)
      · cases taken
        exact .inr (same rfl rfl)
    · cases taken
      exact .inr (same rfl rfl)
  | serverFails other =>
    rw [step] at taken
    split at taken
    · split_ifs at taken with open_
      · cases taken
        obtain ⟨before, held, kept, rx⟩ := setRx_some is
        refine .inr ⟨before, held, kept, fun callback sent => ?_, rfl⟩
        rcases rx with same' | ⟨-, closed⟩
        · exact .inl (same' ▸ sent)
        · rw [closed] at sent
          cases sent
      · cases taken
        exact .inr (same rfl rfl)
    · cases taken
      exact .inr (same rfl rfl)
  | poll other =>
    cases taken
    exact .inr (same rfl rfl)
  | complete other callback =>
    cases taken
    exact .inr (same rfl rfl)
  | advance call input =>
    obtain ⟨stage, next, held, moved, -⟩ := call_cases taken
    obtain ⟨before, there, kept, rx, other⟩ := stage_sessions moved is
    refine .inr ⟨before, there, kept, fun callback sent => ?_, ?_⟩
    · rcases rx with same' | closed
      · exact .inl (same' ▸ sent)
      · rw [closed] at sent
        cases sent
    · rw [exchange_advance held]
      cases stage with
      | taking other' callback =>
        rw [stageExchange]
        cases w.sessions other' with
        | none => rfl
        | some session' =>
          refine beq_eq_false_iff_ne.mpr fun here => ?_
          have here' : other' = id := here
          exact other callback (by rw [here'])
      | _ => rfl
  | cancel call =>
    rw [step] at taken
    split at taken
    · cases taken
    · split_ifs at taken
      cases taken
      exact .inr (same rfl rfl)
  | clean now =>
    cases taken
    obtain ⟨held, -⟩ := Option.filter_eq_some_iff.mp is
    exact .inr ⟨session, held, .refl session, fun _ => .inl, rfl⟩

/-- The session goes back to its start, and so does the callback in its channel. -/
def SessionBacked (env : Env) (trace : List (World × Act)) (id : String)
    (session : SocialAuthSession) : Prop :=
  ∃ start, started id trace = some start ∧ Kept (start.session env) session ∧
    ∀ callback, session.callbackRx = .sent callback → Brought env trace id callback

def Backed (env : Env) (trace : List (World × Act)) (call : Nat) : Stage → Prop
  | .completing id callback => ∃ s, (s, Act.complete id callback) ∈ trace
  | .checking id callback => ∃ start, started id trace = some start ∧
      Brought env trace id callback ∧ InTime env trace id start call
  | .taking id callback => ∃ start, started id trace = some start ∧
      Brought env trace id callback ∧ InTime env trace id start call ∧ callback.state = start.state
  | _ => True

variable {p : World × Act} {start : Start} {callback : OAuthCallbackData} {call : Nat}

theorem freshIds_tail (fresh : freshIds (p :: trace)) : freshIds trace :=
  (Bool.and_eq_true_iff.mp fresh).2

theorem unstarted_of_fresh (fresh : freshIds ((w, .start id start) :: trace)) :
    started id trace = none := Option.isNone_iff_eq_none.mp (Bool.and_eq_true_iff.mp fresh).1

theorem started_cons (fresh : freshIds (p :: trace)) (is : started id trace = some start) :
    started id (p :: trace) = some start := by
  obtain ⟨s, act⟩ := p
  cases act with
  | start other start' =>
    rw [started]
    split_ifs with here
    · have none_ := unstarted_of_fresh fresh
      rw [here, is] at none_
      cases none_
    · exact is
  | _ => exact is

theorem Brought.cons (brought : Brought env trace id callback) :
    Brought env (p :: trace) id callback := by
  rcases brought with ⟨s, buf, mem, served⟩ | ⟨s, mem⟩
  · exact .inl ⟨s, buf, List.mem_cons_of_mem p mem, served⟩
  · exact .inr ⟨s, List.mem_cons_of_mem p mem⟩

theorem InTime.cons (before : InTime env trace id start call) :
    InTime env (p :: trace) id start call := by
  obtain ⟨s, input, mem, rest⟩ := before
  exact ⟨s, input, List.mem_cons_of_mem p mem, rest⟩

theorem Backed.cons (fresh : freshIds (p :: trace)) {stage : Stage}
    (backed : Backed env trace call stage) : Backed env (p :: trace) call stage := by
  cases stage with
  | completing other callback =>
    obtain ⟨s, mem⟩ := backed
    exact ⟨s, List.mem_cons_of_mem p mem⟩
  | checking other callback =>
    obtain ⟨start, is, brought, early⟩ := backed
    exact ⟨start, started_cons fresh is, brought.cons, early.cons⟩
  | taking other callback =>
    obtain ⟨start, is, brought, early, same⟩ := backed
    exact ⟨start, started_cons fresh is, brought.cons, early.cons, same⟩
  | _ => trivial

theorem backed_stage {input : Input} {stage next : Stage} {sessions' : Sessions}
    (fresh : freshIds ((w, .advance call input) :: trace)) (held : w.calls[call]? = some stage)
    (moved : stageStep env w.sessions input stage = some (next, sessions'))
    (sessions : ∀ id session, w.sessions id = some session → SessionBacked env trace id session)
    (backed : Backed env trace call stage) :
    Backed env ((w, .advance call input) :: trace) call next := by
  cases stage with
  | polling other =>
    have eq := Option.some.inj moved
    split at eq
    · rw [← (Prod.mk.inj eq).1]
      trivial
    · rename_i session there
      split_ifs at eq with late
      · rw [← (Prod.mk.inj eq).1]
        trivial
      · split at eq
        · rename_i callback sent
          obtain ⟨start, is, kept, brought⟩ := sessions other session there
          have expiry : session.expiresAt = (start.session env).expiresAt := by rw [kept]
          rw [← (Prod.mk.inj eq).1]
          refine ⟨start, started_cons fresh is, (brought callback sent).cons, w, input,
            List.mem_cons_self, .inl held, ?_⟩
          rw [← expiry]
          exact not_le.mp late
        · rw [← (Prod.mk.inj eq).1]
          trivial
        · rw [← (Prod.mk.inj eq).1]
          trivial
  | completing other callback =>
    have eq := Option.some.inj moved
    split at eq
    · rw [← (Prod.mk.inj eq).1]
      trivial
    · rename_i session there
      split_ifs at eq with late
      · rw [← (Prod.mk.inj eq).1]
        trivial
      · obtain ⟨start, is, kept, -⟩ := sessions other session there
        obtain ⟨s, pasted⟩ := backed
        have expiry : session.expiresAt = (start.session env).expiresAt := by rw [kept]
        rw [← (Prod.mk.inj eq).1]
        refine ⟨start, started_cons fresh is, .inr ⟨s, List.mem_cons_of_mem _ pasted⟩, w, input,
          List.mem_cons_self, .inr ⟨callback, held⟩, ?_⟩
        rw [← expiry]
        exact not_le.mp late
  | checking other callback =>
    have eq := Option.some.inj moved
    split at eq
    · rw [← (Prod.mk.inj eq).1]
      trivial
    · rename_i session there
      split_ifs at eq with different
      · rw [← (Prod.mk.inj eq).1]
        trivial
      · obtain ⟨start, is, kept, -⟩ := sessions other session there
        obtain ⟨start', is', brought, early⟩ := backed
        rw [is, Option.some.injEq] at is'
        have state : session.state = start.state := by
          rw [kept]
          rfl
        rw [← (Prod.mk.inj eq).1]
        exact ⟨start, started_cons fresh is, brought.cons, (is' ▸ early).cons,
          (not_not.mp different).trans state⟩
  | dropping other answer =>
    rw [← (Prod.mk.inj (Option.some.inj moved)).1]
    trivial
  | taking other callback =>
    have eq := Option.some.inj moved
    split at eq <;> · rw [← (Prod.mk.inj eq).1]; trivial
  | exchanging other session request =>
    have eq := Option.some.inj moved
    split at eq <;> · rw [← (Prod.mk.inj eq).1]; trivial
  | storing other store =>
    have eq := Option.some.inj moved
    split at eq <;> · rw [← (Prod.mk.inj eq).1]; trivial
  | answered answer => cases moved
  | gone => cases moved

theorem getElem?_concat_cases {calls : List Stage} {last stage : Stage}
    (is : (calls ++ [last])[call]? = some stage) : calls[call]? = some stage ∨ stage = last := by
  rw [List.getElem?_append] at is
  split_ifs at is
  · exact .inl is
  · exact .inr (List.mem_singleton.mp (List.mem_of_getElem? is))

theorem calls_cases (taken : step env w act = some w') {stage : Stage}
    (is : w'.calls[call]? = some stage) :
    w.calls[call]? = some stage ∨ (∃ other, stage = .polling other) ∨ stage = .gone ∨
      (∃ other callback, act = .complete other callback ∧ stage = .completing other callback) ∨
      ∃ input before, act = .advance call input ∧ w.calls[call]? = some before ∧
        stageStep env w.sessions input before = some (stage, w'.sessions) := by
  cases act with
  | start other start =>
    cases taken
    exact .inl is
  | browse other buf =>
    rw [step] at taken
    split at taken
    · split_ifs at taken
      · split at taken <;> · cases taken; exact .inl is
      · cases taken
        exact .inl is
    · cases taken
      exact .inl is
  | serverFails other =>
    rw [step] at taken
    split at taken
    · split_ifs at taken <;> · cases taken; exact .inl is
    · cases taken
      exact .inl is
  | poll other =>
    cases taken
    rcases getElem?_concat_cases is with before | last
    · exact .inl before
    · exact .inr (.inl ⟨other, last⟩)
  | complete other callback =>
    cases taken
    rcases getElem?_concat_cases is with before | last
    · exact .inl before
    · exact .inr (.inr (.inr (.inl ⟨other, callback, rfl, last⟩)))
  | advance n input =>
    obtain ⟨before, next, held, moved, calls⟩ := call_cases taken
    rw [calls, List.getElem?_set] at is
    split_ifs at is with here there
    · cases is
      subst here
      exact .inr (.inr (.inr (.inr ⟨input, before, rfl, held, moved⟩)))
    · exact .inl is
  | cancel n =>
    rw [step] at taken
    split at taken
    · cases taken
    · split_ifs at taken
      cases taken
      rw [List.getElem?_set] at is
      split_ifs at is with here there
      · exact .inr (.inr (.inl (Option.some.inj is).symm))
      · exact .inl is
  | clean now =>
    cases taken
    exact .inl is

/-- In every run, sessions and calls are backed by what was done before. -/
structure Known (env : Env) (trace : List (World × Act)) (w : World) : Prop where
  sessions : ∀ id session, w.sessions id = some session → SessionBacked env trace id session
  calls : ∀ call stage, w.calls[call]? = some stage → Backed env trace call stage

theorem Known.step (known : Known env trace w) (taken : step env w act = some w')
    (fresh : freshIds ((w, act) :: trace)) : Known env ((w, act) :: trace) w' := by
  refine ⟨fun id session is => ?_, fun call stage is => ?_⟩
  · rcases session_cases taken is with ⟨start, rfl, rfl⟩ | ⟨before, held, kept, rx, -⟩
    · refine ⟨start, if_pos rfl, .refl _, fun callback sent => ?_⟩
      have none_ : CallbackRx.empty = .sent callback := sent
      cases none_
    · obtain ⟨start, is', kept', brought⟩ := known.sessions id before held
      refine ⟨start, started_cons fresh is', ?_, fun callback sent => ?_⟩
      · rw [Kept, kept, kept']
      · rcases rx callback sent with there | ⟨buf, rfl, served⟩
        · exact (brought callback there).cons
        · exact .inl ⟨w, buf, List.mem_cons_self, served⟩
  · rcases calls_cases taken is with before | ⟨other, rfl⟩ | rfl | ⟨other, callback, rfl, rfl⟩ |
      ⟨input, before, rfl, held, moved⟩
    · exact (known.calls call stage before).cons fresh
    · trivial
    · trivial
    · exact ⟨w, List.mem_cons_self⟩
    · exact backed_stage fresh held moved known.sessions (known.calls call before held)

theorem known_of_run (run : Run (SocialLogin.step env) {} trace w) (fresh : freshIds trace) :
    Known env trace w := by
  induction run with
  | nil =>
    refine ⟨fun id session is => ?_, fun call stage is => ?_⟩
    · have none_ : none = some session := is
      cases none_
    · cases is
  | cons run taken ih => exact (ih (freshIds_tail fresh)).step taken fresh

/-- The token requests of a session so far. -/
def exchanges (env : Env) (id : String) (trace : List (World × Act)) : Nat :=
  trace.countP fun p => forSession id (exchange env p)

def storings (env : Env) (id : String) (trace : List (World × Act)) : Nat :=
  trace.countP fun p => forSession id (stores env p)

def isExchanging (id : String) : Stage → Bool
  | .exchanging other _ _ => other == id
  | _ => false

/-- The calls of the session whose token request has no answer yet. -/
def underWay (id : String) (w : World) : Nat := w.calls.countP (isExchanging id)

def stageStores (env : Env) (input : Input) : Stage → Option (String × Store)
  | .exchanging id session _ =>
    match input.token.bind (storeOf env session input.now) with
    | .ok store => some (id, store)
    | .error _ => none
  | _ => none

theorem stores_advance {call : Nat} {input : Input} {stage : Stage}
    (held : w.calls[call]? = some stage) :
    stores env (w, .advance call input) = stageStores env input stage := by
  rw [stores]
  simp only [held]
  cases stage <;> rfl

/-- A call is under way where it has sent a request, and it is not where it stores the token. -/
theorem stage_balance (id : String) {sessions sessions' : Sessions} {input : Input}
    {stage next : Stage}
    (moved : stageStep env sessions input stage = some (next, sessions')) :
    (if isExchanging id next then 1 else 0) +
        (if forSession id (stageStores env input stage) then 1 else 0) ≤
      (if isExchanging id stage then 1 else 0) +
        if forSession id (stageExchange env sessions stage) then 1 else 0 := by
  cases stage with
  | taking other callback =>
    have eq := Option.some.inj moved
    split at eq
    · rw [← (Prod.mk.inj eq).1]
      exact Nat.zero_le _
    · rename_i session there
      have sends : forSession id (stageExchange env sessions (.taking other callback)) =
          (other == id) := by
        rw [stageExchange, there]
        rfl
      rw [← (Prod.mk.inj eq).1, sends]
      show (if (other == id) = true then 1 else 0) + 0 ≤ 0 + if (other == id) = true then 1 else 0
      omega
  | exchanging other session request =>
    have eq := Option.some.inj moved
    rw [stageStores]
    split at eq
    · rename_i message refused
      rw [← (Prod.mk.inj eq).1]
      simp only [refused]
      exact Nat.zero_le _
    · rename_i store accepted
      rw [← (Prod.mk.inj eq).1]
      simp only [accepted]
      show 0 + (if (other == id) = true then 1 else 0) ≤ (if (other == id) = true then 1 else 0) + 0
      omega
  | polling other =>
    have idle : isExchanging id next = false := by
      have eq := Option.some.inj moved
      split at eq
      · rw [← (Prod.mk.inj eq).1]
        rfl
      · split_ifs at eq
        · rw [← (Prod.mk.inj eq).1]
          rfl
        · split at eq <;> · rw [← (Prod.mk.inj eq).1]; rfl
    rw [idle]
    exact Nat.zero_le _
  | dropping other answer =>
    rw [← (Prod.mk.inj (Option.some.inj moved)).1]
    exact Nat.zero_le _
  | completing other callback =>
    have idle : isExchanging id next = false := by
      have eq := Option.some.inj moved
      split at eq
      · rw [← (Prod.mk.inj eq).1]
        rfl
      · split_ifs at eq <;> · rw [← (Prod.mk.inj eq).1]; rfl
    rw [idle]
    exact Nat.zero_le _
  | checking other callback =>
    have idle : isExchanging id next = false := by
      have eq := Option.some.inj moved
      split at eq
      · rw [← (Prod.mk.inj eq).1]
        rfl
      · split_ifs at eq <;> · rw [← (Prod.mk.inj eq).1]; rfl
    rw [idle]
    exact Nat.zero_le _
  | storing other store =>
    have idle : isExchanging id next = false := by
      have eq := Option.some.inj moved
      split at eq <;> · rw [← (Prod.mk.inj eq).1]; rfl
    rw [idle]
    exact Nat.zero_le _
  | answered answer => cases moved
  | gone => cases moved

theorem underWay_set (id : String) {call : Nat} {stage : Stage} (next : Stage)
    (held : w.calls[call]? = some stage) :
    (w.calls.set call next).countP (isExchanging id) + (if isExchanging id stage then 1 else 0) =
      underWay id w + if isExchanging id next then 1 else 0 := by
  obtain ⟨short, at_⟩ := List.getElem?_eq_some_iff.mp held
  have counted : (if isExchanging id stage then 1 else 0) ≤ underWay id w := by
    split_ifs with is
    · exact List.countP_pos_iff.mpr ⟨stage, List.mem_of_getElem? held, is⟩
    · exact Nat.zero_le _
  have changed := List.countP_set (p := isExchanging id) (a := next) short
  rw [at_] at changed
  rw [changed]
  rw [underWay] at counted ⊢
  omega

theorem balance (id : String) (taken : step env w act = some w') :
    underWay id w' + (if forSession id (stores env (w, act)) then 1 else 0) ≤
      underWay id w + if forSession id (exchange env (w, act)) then 1 else 0 := by
  have same : w'.calls = w.calls → stores env (w, act) = none →
      underWay id w' + (if forSession id (stores env (w, act)) then 1 else 0) ≤
        underWay id w + if forSession id (exchange env (w, act)) then 1 else 0 := by
    intro eq none_
    rw [none_, underWay, eq]
    exact Nat.le_add_right _ _
  cases act with
  | start other start =>
    cases taken
    exact same rfl rfl
  | browse other buf =>
    rw [step] at taken
    split at taken
    · split_ifs at taken
      · split at taken <;> · cases taken; exact same rfl rfl
      · cases taken
        exact same rfl rfl
    · cases taken
      exact same rfl rfl
  | serverFails other =>
    rw [step] at taken
    split at taken
    · split_ifs at taken <;> · cases taken; exact same rfl rfl
    · cases taken
      exact same rfl rfl
  | poll other =>
    cases taken
    simp only [underWay, List.countP_append]
    exact Nat.le_refl _
  | complete other callback =>
    cases taken
    simp only [underWay, List.countP_append]
    exact Nat.le_refl _
  | advance call input =>
    obtain ⟨stage, next, held, moved, calls⟩ := call_cases taken
    have set := underWay_set id next held
    have balanced := stage_balance id moved
    rw [exchange_advance held, stores_advance held, underWay, calls]
    omega
  | cancel call =>
    rw [step] at taken
    split at taken
    · cases taken
    · rename_i stage held
      split_ifs at taken
      cases taken
      have set := underWay_set id .gone held
      have idle : isExchanging id .gone = false := rfl
      have nothing : stores env (w, .cancel call) = none := rfl
      rw [idle] at set
      rw [nothing, underWay]
      simp only [forSession, Option.any_none, Bool.false_eq_true, if_false, Nat.add_zero] at set ⊢
      omega
  | clean now =>
    cases taken
    exact same rfl rfl

/-- What a run has asked for a session, and kept of it. -/
structure Asked (env : Env) (trace : List (World × Act)) (w : World) (id : String) : Prop where
  once : exchanges env id trace ≤ 1
  /-- A session that is still there has asked for nothing. -/
  unused : (w.sessions id).isSome = true → exchanges env id trace = 0
  unstarted : started id trace = none → exchanges env id trace = 0
  stored : underWay id w + storings env id trace ≤ exchanges env id trace

theorem exchange_some {request : TokenRequest} (is : exchange env p = some (id, request)) :
    ∃ call input callback session, p.2 = .advance call input ∧
      p.1.calls[call]? = some (.taking id callback) ∧ p.1.sessions id = some session ∧
      request = tokenRequest env session callback := by
  obtain ⟨s, act⟩ := p
  rw [exchange] at is
  split at is
  · rename_i call input same
    split at is
    · rename_i other callback held
      obtain ⟨session, there, eq⟩ := Option.map_eq_some_iff.mp is
      obtain ⟨rfl, rfl⟩ := Prod.mk.inj eq
      exact ⟨call, input, callback, session, same, held, there, rfl⟩
    · cases is
  · cases is

theorem forSession_exchange (is : forSession id (exchange env p) = true) :
    ∃ request, exchange env p = some (id, request) := by
  obtain ⟨⟨other, request⟩, found, same⟩ := (Option.any_eq_true _ _).mp is
  have here : other = id := eq_of_beq same
  exact ⟨request, here ▸ found⟩

theorem asked_of_run (run : Run (step env) {} trace w) (fresh : freshIds trace) (id : String) :
    Asked env trace w id := by
  induction run with
  | nil => exact ⟨Nat.zero_le _, fun _ => rfl, fun _ => rfl, Nat.le_refl _⟩
  | @cons trace s s' act run taken ih =>
    obtain ⟨once, unused, unstarted, stored⟩ := ih (freshIds_tail fresh)
    have balanced := balance id taken
    have known := known_of_run run (freshIds_tail fresh)
    have counted : exchanges env id ((s, act) :: trace) = exchanges env id trace +
        if forSession id (exchange env (s, act)) then 1 else 0 := List.countP_cons
    have stores_counted : storings env id ((s, act) :: trace) = storings env id trace +
        if forSession id (stores env (s, act)) then 1 else 0 := List.countP_cons
    have held : forSession id (exchange env (s, act)) = true →
        (s.sessions id).isSome = true ∧ (started id trace).isSome = true := by
      intro sends
      obtain ⟨request, found⟩ := forSession_exchange sends
      obtain ⟨call, input, callback, session, -, -, there, -⟩ := exchange_some found
      obtain ⟨start, is, -, -⟩ := known.sessions id session there
      exact ⟨by rw [there]; rfl, by rw [is]; rfl⟩
    refine ⟨?_, fun there => ?_, fun none_ => ?_, by omega⟩
    · rw [counted]
      split_ifs with sends
      · rw [unused (held sends).1]
      · exact once
    · obtain ⟨session, is⟩ := Option.isSome_iff_exists.mp there
      rw [counted]
      rcases session_cases taken is with ⟨start, rfl, -⟩ | ⟨before, was, -, -, other⟩
      · rw [unstarted (unstarted_of_fresh fresh)]
        rfl
      · rw [unused (by rw [was]; rfl), other]
        rfl
    · have before : started id trace = none := by
        cases is : started id trace with
        | none => rfl
        | some start =>
          rw [started_cons fresh is] at none_
          cases none_
      rw [counted, unstarted before, if_neg]
      intro sends
      have some_ := (held sends).2
      rw [before] at some_
      cases some_

/-- In whatever order things happen, a login is exchanged for a token once at most, and one
credential at most is stored of it. The request has the verifier that belongs to the challenge in
the URL of its login, and behind it there is a callback with the state of that login, which a
browser brought or somebody pasted. The call that sends it looked before the login expired. -/
theorem exchanged_once (run : Run (step env) {} trace w) (fresh : freshIds trace) (id : String) :
    exchanges env id trace ≤ 1 ∧ storings env id trace ≤ exchanges env id trace ∧
    ∀ later s act earlier request, trace = later ++ (s, act) :: earlier →
      exchange env (s, act) = some (id, request) →
      ∃ start callback call input, started id earlier = some start ∧ act = .advance call input ∧
        request = tokenRequest env (start.session env) callback ∧
        callback.state = start.state ∧
        start.portalUrl env = buildPortalUrl env.urlencoding callback.state
          (String.ofList (base64urlEncode (env.sha256 (bytes request.codeVerifier.toList))))
          (start.session env).redirectUri ∧
        Brought env earlier id callback ∧ InTime env earlier id start call := by
  obtain ⟨once, -, -, stored⟩ := asked_of_run run fresh id
  refine ⟨once, by omega, ?_⟩
  rintro later s act earlier request rfl found
  obtain ⟨before, -⟩ := run.before
  have fresh_before : freshIds earlier := by
    clear run found once stored before
    induction later with
    | nil => exact freshIds_tail fresh
    | cons p later ih => exact ih (freshIds_tail fresh)
  have known := known_of_run before fresh_before
  obtain ⟨call, input, callback, session, advances, held, there, rfl⟩ := exchange_some found
  obtain ⟨start, is, kept, -⟩ := known.sessions id session there
  obtain ⟨start', is', brought, early, same⟩ := known.calls call _ held
  rw [is, Option.some.injEq] at is'
  subst is'
  have asked : tokenRequest env session callback = tokenRequest env (start.session env) callback := by
    rw [kept]
    rfl
  have verifier : (tokenRequest env session callback).codeVerifier =
      String.ofList (generatePkce env.sha256 start.drawn).1 := by
    rw [asked]
    rfl
  refine ⟨start, callback, call, input, is, advances, asked, same, ?_, brought, early⟩
  rw [verifier, String.toList_ofList, same]
  rfl

private def sampleEnv : Env := ⟨percent, zerosSha256, toString⟩

private def sampleLogin : List Act :=
  [.start "s1" ⟨none, {}, none, List.replicate 32 0, "b7", 3128, 0⟩,
    .browse "s1" (bytes "GET / HTTP/1.1\r\n".toList),
    .browse "s1" (bytes "GET /oauth/callback?code=abc&state=b7 HTTP/1.1\r\n".toList),
    .poll "s1", .poll "s1", .advance 0 { now := 1 }, .advance 1 { now := 2 }, .advance 0 {},
    .advance 0 {}, .advance 0 { now := 9, token := .ok { accessToken := "token" } },
    .advance 0 { stored := .ok 4 }]

theorem exchanged_once_stray : ∃ trace w, Run (step sampleEnv) {} trace w ∧
    storings sampleEnv "s1" trace = 1 ∧ exchanges sampleEnv "s1" trace = 1 := by
  have followed : ((follow (step sampleEnv) [] {} sampleLogin).any fun p =>
      freshIds p.1 && storings sampleEnv "s1" p.1 == 1) = true := by decide +kernel
  obtain ⟨p, reached, holds⟩ := (Option.any_eq_true _ _).mp followed
  obtain ⟨fresh, stored⟩ := Bool.and_eq_true_iff.mp holds
  have run := (follow_run .nil reached).1
  have one : storings sampleEnv "s1" p.1 = 1 := eq_of_beq stored
  obtain ⟨most, covered, -⟩ := exchanged_once run fresh "s1"
  exact ⟨p.1, p.2, run, one, by omega⟩

end KiroRs.Login.SocialLogin
