/- Path: KiroRs/Pool/Credentials
   source: src/kiro/model/credentials.rs, src/kiro/token_manager.rs
   digest: Credentials, their predicates, the expiry tests and the outcome of a token refresh. -/

import KiroRs.Lib.Text

set_option autoImplicit false
set_option relaxedAutoImplicit false

namespace KiroRs.Pool.Credentials

open KiroRs.Lib.Text

structure KiroCredentials where
  id : Option Nat := none
  accessToken : Option String := none
  refreshToken : Option String := none
  profileArn : Option String := none
  expiresAt : Option String := none
  authMethod : Option String := none
  provider : Option String := none
  clientId : Option String := none
  clientSecret : Option String := none
  startUrl : Option String := none
  priority : Nat := 0
  region : Option String := none
  authRegion : Option String := none
  apiRegion : Option String := none
  machineId : Option String := none
  email : Option String := none
  subscriptionTitle : Option String := none
  proxyUrl : Option String := none
  proxyUsername : Option String := none
  proxyPassword : Option String := none
  disabled : Bool := false
  kiroApiKey : Option String := none
  endpoint : Option String := none
  deriving DecidableEq, Repr

/-- The regions of the global configuration. -/
structure Config where
  region : String
  authRegion : Option String
  apiRegion : Option String
  deriving DecidableEq, Repr

def Config.effectiveApiRegion (c : Config) : String := c.apiRegion.getD c.region

/-- What the model takes from outside: the case maps, the parser of time stamps, which answers in
nanoseconds of universal time, and the digest. -/
structure Env where
  caseMaps : CaseMaps
  parseFromRfc3339 : String → Option Int
  sha256Hex : String → String

def builderIdProfileArn : String := "arn:aws:codewhisperer:us-east-1:638616132270:profile/AAAACCCCXXXX"
def socialProfileArn : String := "arn:aws:codewhisperer:us-east-1:699475941385:profile/EHGA3GRVQMUK"
def enterpriseFallbackAccountId : String := "610548660232"
def enterpriseFallbackProfileId : String := "VNECVYCYYAWN"

def isPlaceholderProfileArn (arn : String) : Bool := arn == builderIdProfileArn

def isEnterpriseFallbackProfileArn (arn : String) : Bool :=
  contains arn (":" ++ enterpriseFallbackAccountId ++ ":profile/" ++ enterpriseFallbackProfileId)

def enterpriseFallbackProfileArn (region : Option String) : String :=
  let region :=
    if startsWith (region.getD "us-east-1") "eu-" then "eu-central-1" else "us-east-1"
  "arn:aws:codewhisperer:" ++ region ++ ":" ++ enterpriseFallbackAccountId ++ ":profile/" ++
    enterpriseFallbackProfileId

namespace KiroCredentials

/-- The field is present and matches one of the names, ignoring ASCII case. -/
def named (field : Option String) (names : List String) : Bool :=
  match field with
  | some value => names.any (eqIgnoreAsciiCase value)
  | none => false

def effectiveApiRegion (c : KiroCredentials) (config : Config) : String :=
  c.apiRegion.getD config.effectiveApiRegion

def supportsOpus (env : Env) (c : KiroCredentials) : Bool :=
  match c.subscriptionTitle with
  | some title => !contains (env.caseMaps.toUppercase title) "FREE"
  | none => true

def isApiKeyCredential (c : KiroCredentials) : Bool :=
  c.kiroApiKey.isSome || named c.authMethod ["api_key", "apikey"]

def isEnterpriseIdentity (c : KiroCredentials) : Bool :=
  let normalized := c.startUrl.map fun url => trimEndMatches (trim url) '/'
  let hasEnterpriseStartUrl :=
    normalized.any fun url => url != "" && url != "https://view.awsapps.com/start"
  let hasBuilderIdStartUrl := normalized.any (· == "https://view.awsapps.com/start")
  let idcWithoutBuilderStartUrl := named c.authMethod ["idc"] && !hasBuilderIdStartUrl
  named c.authMethod ["external_idp", "enterprise", "iam_sso"] ||
    named c.provider ["enterprise", "iam_sso"] || idcWithoutBuilderStartUrl ||
    hasEnterpriseStartUrl

def shouldFetchEnterpriseProfileArn (c : KiroCredentials) : Bool :=
  c.isEnterpriseIdentity &&
    match c.profileArn with
    | some arn => isPlaceholderProfileArn arn || isEnterpriseFallbackProfileArn arn
    | none => true

def isSocialLogin (c : KiroCredentials) : Bool :=
  named c.authMethod ["social"] || named c.provider ["github", "google"]

def effectiveRegionHint (c : KiroCredentials) : Option String :=
  (c.apiRegion.or c.region).or c.authRegion

def fillDefaultProfileArnWithRegion (c : KiroCredentials) (defaultRegion : Option String) :
    KiroCredentials :=
  if c.isApiKeyCredential then c
  else if c.profileArn.any (!isPlaceholderProfileArn ·) then c
  else
    { c with profileArn := some <|
        if c.isSocialLogin then socialProfileArn
        else if c.isEnterpriseIdentity then
          enterpriseFallbackProfileArn (c.effectiveRegionHint.or defaultRegion)
        else builderIdProfileArn }

end KiroCredentials

/-- One minute in the unit of `parseFromRfc3339`. -/
def utcMinute : Int := 60000000000

def isTokenExpiringWithin (env : Env) (utcNow : Int) (c : KiroCredentials) (minutes : Int) :
    Option Bool :=
  (c.expiresAt.bind env.parseFromRfc3339).map fun expires =>
    decide (expires ≤ utcNow + minutes * utcMinute)

def isTokenExpired (env : Env) (utcNow : Int) (c : KiroCredentials) : Bool :=
  (isTokenExpiringWithin env utcNow c 5).getD true

def isTokenExpiringSoon (env : Env) (utcNow : Int) (c : KiroCredentials) : Bool :=
  (isTokenExpiringWithin env utcNow c 10).getD false

def needsRefresh (env : Env) (utcNow : Int) (c : KiroCredentials) : Bool :=
  isTokenExpired env utcNow c || isTokenExpiringSoon env utcNow c

/-- A failed refresh: the server revoked the refresh token, or anything else. -/
inductive RefreshError where
  | invalid (message : String)
  | other (message : String)
  deriving DecidableEq, Repr

/-- A successful answer of the token endpoint, its lifetime already added to the clock. -/
structure RefreshResponse where
  accessToken : String
  refreshToken : Option String
  profileArn : Option String
  expiresAt : Option String
  deriving DecidableEq, Repr

def validateRefreshToken (c : KiroCredentials) : Except String Unit :=
  match c.refreshToken with
  | none => .error "缺少 refreshToken"
  | some token =>
      if token.isEmpty then .error "refreshToken 为空"
      else if token.utf8ByteSize < 100 ∨ endsWith token "..." ∨ contains token "..." then
        .error ("refreshToken 已被截断（长度: " ++ toString token.utf8ByteSize ++ " 字符）。\n" ++
          "这通常是 Kiro IDE 为了防止凭证被第三方工具使用而故意截断的。")
      else .ok ()

/-- What a successful answer makes of the credentials it was asked for. -/
def KiroCredentials.refreshed (c : KiroCredentials) (data : RefreshResponse) : KiroCredentials :=
  { c with
    accessToken := some data.accessToken
    refreshToken := data.refreshToken.or c.refreshToken
    profileArn := data.profileArn.or c.profileArn
    expiresAt := data.expiresAt.or c.expiresAt }

/-- The login kind `refresh_token` picks: without an explicit method, IdC when a client is
registered. -/
def KiroCredentials.refreshesAsIdc (c : KiroCredentials) : Bool :=
  let authMethod := c.authMethod.getD
    (if c.clientId.isSome ∧ c.clientSecret.isSome then "idc" else "social")
  ["idc", "builder-id", "iam"].any (eqIgnoreAsciiCase authMethod)

/-- `refresh_token` with the upstream's answer: both login kinds treat the answer alike. -/
def refreshToken (c : KiroCredentials) (answer : Except RefreshError RefreshResponse) :
    Except RefreshError KiroCredentials :=
  if c.isApiKeyCredential then .error (.other "API Key 凭据不支持刷新 Token")
  else
    match validateRefreshToken c with
    | .error message => .error (.other message)
    | .ok _ =>
        if c.refreshesAsIdc ∧ c.clientId = none then .error (.other "IdC 刷新需要 clientId")
        else if c.refreshesAsIdc ∧ c.clientSecret = none then
          .error (.other "IdC 刷新需要 clientSecret")
        else
          match answer with
          | .error e => .error e
          | .ok data => .ok (c.refreshed data)

theorem refreshToken_ok {c new : KiroCredentials} {answer : Except RefreshError RefreshResponse}
    (h : refreshToken c answer = .ok new) : ∃ data, answer = .ok data ∧ new = c.refreshed data := by
  unfold refreshToken at h
  by_cases key : c.isApiKeyCredential
  · rw [if_pos key] at h
    cases h
  · rw [if_neg key] at h
    cases valid : validateRefreshToken c with
    | error message => simp [valid] at h
    | ok _ =>
        simp only [valid] at h
        split_ifs at h
        cases answer with
        | error e => cases h
        | ok data =>
            cases h
            exact ⟨data, rfl, rfl⟩

end KiroRs.Pool.Credentials
