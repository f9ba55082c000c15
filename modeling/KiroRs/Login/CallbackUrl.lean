/- Path: KiroRs/Login/CallbackUrl
   source: src/kiro/auth/social.rs
   digest: The texts of a social login: the URL of the portal, the request that comes back to the
   callback server, and what each side reads of what the other has written. -/

import Mathlib.Data.Bool.AllAny
import KiroRs.Lib.Fields
import KiroRs.Lib.Literals
import KiroRs.Lib.Percents
import KiroRs.Lib.Received
import KiroRs.Lib.Text

set_option autoImplicit false
set_option relaxedAutoImplicit false

namespace KiroRs.Login.CallbackUrl

open KiroRs.Lib
open KiroRs.Lib.Dicts
open KiroRs.Lib.Fields
open KiroRs.Lib.Bytes (Ascii)
open KiroRs.Lib.Percents (isUnreserved unreserved_ascii)
open KiroRs.Lib.Received
open KiroRs.Lib.Slices (bytes bytes_append)
open KiroRs.Lib.Text (startsWith)
open KiroRs.Lib.Wire (Bytes fromUtf8Lossy)

structure Urlencoding where
  encode : String → String
  /-- `none` where the bytes are not UTF-8. -/
  decode : String → Option String

/-- What is documented of the crate. -/
structure Urlencoding.Lawful (u : Urlencoding) : Prop where
  decode_encode : ∀ s, u.decode (u.encode s) = some s
  encoded : ∀ s, ∀ c ∈ (u.encode s).toList, isUnreserved c = true ∨ c = '%'
  unchanged : ∀ s, (∀ c ∈ s.toList, isUnreserved c = true) → u.encode s = s

def kiroPortalUrl : String := "https://app.kiro.dev"

structure OAuthCallbackData where
  code : String
  loginOption : String
  path : String
  state : String
  deriving DecidableEq, Repr

variable (u : Urlencoding)

def buildPortalUrl (state codeChallenge redirectUri : String) : String :=
  let params := "state=" ++ u.encode state ++ "&code_challenge=" ++ u.encode codeChallenge ++
    "&code_challenge_method=S256&redirect_uri=" ++ u.encode redirectUri ++
    "&redirect_from=KiroIDE"
  kiroPortalUrl ++ "/signin?" ++ params

def parseQueryString (query : String) : Dict String :=
  ofList ((fields '&' '=' query.toList).map fun p =>
    (String.ofList p.1, (p.2.map fun v =>
      let withSpace := String.ofList (v.map fun c => if c = '+' then ' ' else c)
      (u.decode withSpace).getD withSpace).getD ""))

def oauthPath : String := "/oauth/callback"

def signinPath : String := "/signin/callback"

def parseCallback (pathAndQuery : String) : Option OAuthCallbackData :=
  match splitOnce '?' pathAndQuery.toList with
  | (_, none) => none
  | (path, some query) =>
    let path := String.ofList path
    if path ≠ oauthPath ∧ path ≠ signinPath then none
    else
      let params := parseQueryString u (String.ofList query)
      if containsKey params "error" then none
      else
        (get params "code").map fun code =>
          ⟨code, (get params "login_option").getD "", path, (get params "state").getD ""⟩

/-- The first of the `lines` of a text. -/
def firstLine (request : List Char) : List Char :=
  match splitOnce '\n' request with
  | (line, none) => line
  | (line, some _) => if line.getLast? = some '\r' then line.dropLast else line

def stripPrefix (pre l : List Char) : Option (List Char) :=
  if pre <+: l then some (l.drop pre.length) else none

def stripSuffix (post l : List Char) : Option (List Char) :=
  if post <:+ l then some (l.take (l.length - post.length)) else none

inductive Answer where
  | loggedIn (callback : OAuthCallbackData)
  | failed (errorMsg : String)
  | notFound
  deriving DecidableEq, Repr

def errorMessage (pathAndQuery : String) : String :=
  ((pathAndQuery.toList.splitOn '?')[1]?.bind fun q =>
    let p := parseQueryString u (String.ofList q)
    (get p "error_description").or (get p "error")).getD "未知错误"

/-- The length of `buf`. -/
def bufLen : Nat := 4096

/-- What the one read of a connection gives: what has arrived of what was sent, no more of it than
the buffer holds. -/
def received (sent : Bytes) (arrived : Nat) : Bytes := sent.take (min arrived bufLen)

def requested (request : List Char) : Option (List Char) :=
  (stripPrefix "GET ".toList (firstLine request)).bind fun s =>
    (stripSuffix " HTTP/1.1".toList s).or (stripSuffix " HTTP/1.0".toList s)

/-- The body of the loop of `run_callback_server`, on what was read of a connection. -/
def serve (buf : Bytes) : Answer :=
  match requested (fromUtf8Lossy buf).toList with
  | none => .notFound
  | some line =>
    let pathAndQuery := String.ofList line
    match parseCallback u pathAndQuery with
    | some callback => .loggedIn callback
    | none =>
      if startsWith pathAndQuery oauthPath || startsWith pathAndQuery signinPath then
        .failed (errorMessage u pathAndQuery)
      else .notFound

/-- The query that a portal writes from named values. -/
def queryText (ps : List (String × String)) : String :=
  String.ofList (written '&' '=' (ps.map fun p => (p.1.toList, (u.encode p.2).toList)))

/-- What of a request names its path and its query. -/
def target (path query : String) : List Char := path.toList ++ '?' :: query.toList

def requestLine (path query : String) : List Char :=
  "GET ".toList ++ (target path query ++ " HTTP/1.1".toList)

/-- A request of a browser that is sent to a path of the callback server. -/
def browserRequest (path query : String) (rest : Bytes) : Bytes :=
  bytes (requestLine path query ++ ['\r', '\n']) ++ rest

def Plain (name : String) : Prop := ∀ c ∈ name.toList, isUnreserved c = true

variable {u} {ps : List (String × String)}

theorem not_mem_unreserved {l : List Char} (each : ∀ c ∈ l, isUnreserved c = true ∨ c = '%')
    {sep : Char} (reserved : isUnreserved sep = false) (other : sep ≠ '%') : sep ∉ l := by
  intro mem
  rcases each sep mem with kept | same
  · rw [reserved] at kept
    cases kept
  · exact other same

theorem parse_queryText (lawful : u.Lawful) (some_ : ps ≠ []) (plain : ∀ p ∈ ps, Plain p.1) :
    parseQueryString u (queryText u ps) = ofList ps := by
  have names : ∀ p ∈ ps.map (fun p => (p.1.toList, (u.encode p.2).toList)),
      '&' ∉ p.1 ∧ '=' ∉ p.1 := by
    intro p mem
    obtain ⟨q, member, rfl⟩ := List.mem_map.mp mem
    have each : ∀ c ∈ q.1.toList, isUnreserved c = true ∨ c = '%' :=
      fun c here => .inl (plain q member c here)
    exact ⟨not_mem_unreserved each (by decide) (by decide),
      not_mem_unreserved each (by decide) (by decide)⟩
  have values : ∀ p ∈ ps.map (fun p => (p.1.toList, (u.encode p.2).toList)), '&' ∉ p.2 := by
    intro p mem
    obtain ⟨q, -, rfl⟩ := List.mem_map.mp mem
    exact not_mem_unreserved (lawful.encoded q.2) (by decide) (by decide)
  have nonempty : ps.map (fun p => (p.1.toList, (u.encode p.2).toList)) ≠ [] := by
    rwa [ne_eq, List.map_eq_nil_iff]
  rw [parseQueryString, queryText, String.toList_ofList,
    fields_written nonempty (by decide) names values, List.map_map, List.map_map]
  congr 1
  conv_rhs => rw [← List.map_id ps]
  refine List.map_congr_left fun p member => ?_
  have spaces : (u.encode p.2).toList.map (fun c => if c = '+' then ' ' else c) =
      (u.encode p.2).toList := by
    conv_rhs => rw [← List.map_id (u.encode p.2).toList]
    refine List.map_congr_left fun c mem => if_neg fun plus => ?_
    rw [plus] at mem
    exact not_mem_unreserved (lawful.encoded p.2) (by decide) (by decide) mem
  simp only [Function.comp_apply, String.ofList_toList, Option.map_some, Option.getD_some, spaces,
    lawful.decode_encode, id_eq]

theorem plain_of_all {s : String} (all : s.toList.all isUnreserved = true) : Plain s :=
  List.all_eq_true.mp all

/-- What `build_portal_url` writes. -/
def portalFields (state codeChallenge redirectUri : String) : List (String × String) :=
  [("state", state), ("code_challenge", codeChallenge), ("code_challenge_method", "S256"),
    ("redirect_uri", redirectUri), ("redirect_from", "KiroIDE")]

theorem buildPortalUrl_eq (lawful : u.Lawful) (state codeChallenge redirectUri : String) :
    buildPortalUrl u state codeChallenge redirectUri =
      kiroPortalUrl ++ "/signin?" ++ queryText u (portalFields state codeChallenge redirectUri) := by
  have method : u.encode "S256" = "S256" := lawful.unchanged _ (plain_of_all (by decide))
  have origin : u.encode "KiroIDE" = "KiroIDE" := lawful.unchanged _ (plain_of_all (by decide))
  have first : "state=".toList = "state".toList ++ ['='] := by simp
  have second : "&code_challenge=".toList = '&' :: "code_challenge".toList ++ ['='] := by simp
  have third : "&code_challenge_method=S256&redirect_uri=".toList =
      '&' :: "code_challenge_method".toList ++ '=' :: "S256".toList ++
        '&' :: "redirect_uri".toList ++ ['='] := by simp
  have last : "&redirect_from=KiroIDE".toList =
      '&' :: "redirect_from".toList ++ '=' :: "KiroIDE".toList := by simp
  refine congrArg (kiroPortalUrl ++ "/signin?" ++ ·) (String.toList_inj.mp ?_)
  simp only [queryText, portalFields, written, List.map_cons, List.map_nil, method, origin,
    String.toList_ofList, String.toList_append]
  rw [first, second, third, last]
  simp only [List.intercalate_cons_cons, List.intercalate_singleton, List.append_assoc,
    List.cons_append, List.nil_append]

theorem not_mem_queryText (lawful : u.Lawful) (plain : ∀ p ∈ ps, Plain p.1) {c : Char}
    (reserved : isUnreserved c = false) (other : c ≠ '%' ∧ c ≠ '&' ∧ c ≠ '=') :
    c ∉ (queryText u ps).toList := by
  have each : ∀ l : List (List Char), (∀ piece ∈ l, c ∉ piece) → c ∉ ['&'].intercalate l := by
    intro l
    induction l with
    | nil => exact fun _ => List.not_mem_nil
    | cons piece l ih =>
      intro pieces mem
      obtain ⟨here, rest⟩ := List.forall_mem_cons.mp pieces
      cases l with
      | nil =>
        rw [List.intercalate_singleton] at mem
        exact here mem
      | cons next l =>
        rw [List.intercalate_cons_cons] at mem
        rcases List.mem_append.mp mem with front | later
        · rcases List.mem_append.mp front with first | sep
          · exact here first
          · exact other.2.1 (List.mem_singleton.mp sep)
        · exact ih rest later
  rw [queryText, String.toList_ofList, written]
  refine each _ fun piece mem inside => ?_
  rw [List.map_map] at mem
  obtain ⟨p, member, rfl⟩ := List.mem_map.mp mem
  rcases List.mem_append.mp inside with name | rest
  · exact not_mem_unreserved (fun x here => .inl (plain p member x here)) reserved other.1 name
  · rcases List.mem_cons.mp rest with same | value
    · exact other.2.2 same
    · exact not_mem_unreserved (lawful.encoded p.2) reserved other.1 value

theorem firstLine_append {line rest : List Char} (unbroken : '\n' ∉ line) :
    firstLine (line ++ '\r' :: '\n' :: rest) = line := by
  have broken : '\n' ∉ line ++ ['\r'] := by
    intro mem
    rcases List.mem_append.mp mem with front | last
    · exact unbroken front
    · cases List.mem_singleton.mp last
  rw [firstLine, show line ++ '\r' :: '\n' :: rest = (line ++ ['\r']) ++ '\n' :: rest by
    rw [List.append_assoc]; rfl, splitOnce_append broken]
  simp only [List.getLast?_append, List.getLast?_singleton, Option.some_or, if_true,
    List.dropLast_concat]

theorem firstLine_of_unbroken {line : List Char} (unbroken : '\n' ∉ line) :
    firstLine line = line := by
  rw [firstLine, splitOnce_none unbroken]

theorem stripPrefix_append (pre l : List Char) : stripPrefix pre (pre ++ l) = some l := by
  rw [stripPrefix, if_pos (List.prefix_append pre l), List.drop_left]

theorem stripSuffix_append (post l : List Char) : stripSuffix post (l ++ post) = some l := by
  rw [stripSuffix, if_pos (List.suffix_append l post), List.length_append, Nat.add_sub_cancel,
    List.take_left]

theorem stripPrefix_eq {pre l rest : List Char} (is : stripPrefix pre l = some rest) :
    l = pre ++ rest := by
  rw [stripPrefix] at is
  split_ifs at is with begins
  obtain ⟨back, rfl⟩ := begins
  rw [List.drop_left] at is
  rw [Option.some.inj is]

theorem stripSuffix_eq {post l front : List Char} (is : stripSuffix post l = some front) :
    l = front ++ post := by
  rw [stripSuffix] at is
  split_ifs at is with ends
  obtain ⟨head, rfl⟩ := ends
  rw [List.length_append, Nat.add_sub_cancel, List.take_left] at is
  rw [Option.some.inj is]

/-- What the callback server makes of the fields of a request. -/
def answerTo (path : String) (fields : Dict String) : Answer :=
  match get fields "error", get fields "code" with
  | none, some code =>
    .loggedIn ⟨code, (get fields "login_option").getD "", path, (get fields "state").getD ""⟩
  | error, _ => .failed (((get fields "error_description").or error).getD "未知错误")

theorem requestLine_eq (path query : String) :
    requestLine path query = "GET ".toList ++ (target path query ++ " HTTP/1.1".toList) := by
  delta requestLine
  rfl

/-- A request line is all ASCII, and it is the version that its second blank begins. -/
structure Lined (path query : String) : Prop where
  ascii : ∀ c ∈ requestLine path query, Ascii c
  unbroken : '\n' ∉ requestLine path query
  unspaced : ' ' ∉ target path query

theorem lined_queryText (lawful : u.Lawful) {path : String}
    (known : path = oauthPath ∨ path = signinPath) (plain : ∀ p ∈ ps, Plain p.1) :
    Lined path (queryText u ps) := by
  have query : ∀ c ∈ (queryText u ps).toList, Ascii c := by
    intro c mem
    by_contra long
    have reserved : isUnreserved c = false :=
      Bool.eq_false_iff.mpr fun kept => long (unreserved_ascii kept)
    have other : c ≠ '%' ∧ c ≠ '&' ∧ c ≠ '=' := by
      refine ⟨?_, ?_, ?_⟩ <;> rintro rfl <;> exact long (by decide)
    exact not_mem_queryText lawful plain reserved other mem
  have unbroken := not_mem_queryText lawful plain (c := '\n') (by decide) (by decide)
  have unspaced := not_mem_queryText lawful plain (c := ' ') (by decide) (by decide)
  have paths : (∀ c ∈ path.toList, Ascii c) ∧ '\n' ∉ path.toList ∧ ' ' ∉ path.toList := by
    rcases known with rfl | rfl
    · exact ⟨List.all_iff_forall_prop.mp (by decide), by decide, by decide⟩
    · exact ⟨List.all_iff_forall_prop.mp (by decide), by decide, by decide⟩
  have front : ∀ c ∈ "GET ".toList, Ascii c := List.all_iff_forall_prop.mp (by decide)
  have back : ∀ c ∈ " HTTP/1.1".toList, Ascii c := List.all_iff_forall_prop.mp (by decide)
  refine ⟨?_, ?_, ?_⟩
  · rw [requestLine_eq, target, List.forall_mem_append, List.forall_mem_append,
      List.forall_mem_append, List.forall_mem_cons]
    exact ⟨front, ⟨paths.1, by decide, query⟩, back⟩
  · rw [requestLine_eq, target, List.mem_append, List.mem_append, List.mem_append, List.mem_cons]
    rintro (front | (mem | broken | mem) | back)
    · exact absurd front (by decide)
    · exact paths.2.1 mem
    · exact absurd broken (by decide)
    · exact unbroken mem
    · exact absurd back (by decide)
  · rw [target, List.mem_append, List.mem_cons]
    rintro (mem | blank | mem)
    · exact paths.2.2 mem
    · exact absurd blank (by decide)
    · exact unspaced mem

theorem serve_none {buf : Bytes} (asked : requested (fromUtf8Lossy buf).toList = none) :
    serve u buf = .notFound := by
  delta serve
  rw [asked]

theorem serve_some {buf : Bytes} {line : List Char}
    (asked : requested (fromUtf8Lossy buf).toList = some line) :
    serve u buf = match parseCallback u (String.ofList line) with
      | some callback => .loggedIn callback
      | none =>
        if startsWith (String.ofList line) oauthPath || startsWith (String.ofList line) signinPath then
          .failed (errorMessage u (String.ofList line))
        else .notFound := by
  delta serve
  rw [asked]

section Paths

variable {path query : String}

theorem requested_alone (lined : Lined path query) :
    requested (requestLine path query) = some (target path query) := by
  rw [requested, firstLine_of_unbroken lined.unbroken, requestLine_eq, stripPrefix_append,
    Option.bind_some, stripSuffix_append, Option.some_or]

theorem requested_whole (lined : Lined path query) (back : List Char) :
    requested (requestLine path query ++ '\r' :: '\n' :: back) = some (target path query) := by
  have line := @firstLine_append (requestLine path query) back lined.unbroken
  rw [requested, line, requestLine_eq, stripPrefix_append, Option.bind_some, stripSuffix_append,
    Option.some_or]

theorem requested_part (lined : Lined path query) {part more : List Char} (cut : more ≠ [])
    (line : part ++ more = requestLine path query) : requested part = none := by
  have unbroken : '\n' ∉ part := fun mem =>
    lined.unbroken (line ▸ List.mem_append_left more mem)
  have alone : firstLine part = part := firstLine_of_unbroken unbroken
  cases asked : requested part with
  | none => rfl
  | some found =>
    exfalso
    rw [requested, alone] at asked
    obtain ⟨s, front, back⟩ := Option.bind_eq_some_iff.mp asked
    rw [stripPrefix_eq front, requestLine_eq, List.append_assoc, List.append_cancel_left_eq] at line
    obtain ⟨p, nine, ends⟩ : ∃ p : List Char, p.length = 8 ∧ s = found ++ ' ' :: p := by
      rcases Option.or_eq_some_iff.mp back with newer | ⟨-, older⟩
      · exact ⟨"HTTP/1.1".toList, rfl, stripSuffix_eq newer⟩
      · exact ⟨"HTTP/1.0".toList, rfl, stripSuffix_eq older⟩
    have behind : (target path query).length ≤ found.length := by
      rw [ends, List.append_assoc] at line
      rcases List.append_eq_append_iff.mp line with ⟨c, is, rest⟩ | ⟨c, is, -⟩
      · cases c with
        | nil => rw [is, List.append_nil]
        | cons x c =>
          rw [List.cons_append, List.cons_append, List.cons.injEq] at rest
          exact absurd (is ▸ rest.1 ▸ List.mem_append_right _ List.mem_cons_self) lined.unspaced
      · rw [is, List.length_append]
        exact Nat.le_add_right _ _
    have length := congrArg List.length line
    have some_more := List.length_pos_of_ne_nil cut
    have version : " HTTP/1.1".toList.length = 9 := rfl
    rw [ends] at length
    simp only [List.length_append, List.length_cons, version, nine] at length
    omega

theorem requested_half (lined : Lined path query) :
    requested (requestLine path query ++ ['\r']) = none := by
  have unbroken : '\n' ∉ requestLine path query ++ ['\r'] := by
    intro mem
    rcases List.mem_append.mp mem with front | last
    · exact lined.unbroken front
    · cases List.mem_singleton.mp last
  cases asked : requested (requestLine path query ++ ['\r']) with
  | none => rfl
  | some found =>
    exfalso
    rw [requested, firstLine_of_unbroken unbroken, requestLine_eq, List.append_assoc,
      stripPrefix_append, Option.bind_some] at asked
    obtain ⟨p, ends⟩ : ∃ c : Char, c ≠ '\r' ∧ ∃ p,
        target path query ++ " HTTP/1.1".toList ++ ['\r'] = p ++ [c] := by
      rcases Option.or_eq_some_iff.mp asked with newer | ⟨-, older⟩
      · exact ⟨'1', by decide, found ++ " HTTP/1.".toList, by
          rw [stripSuffix_eq newer, List.append_assoc]; rfl⟩
      · exact ⟨'0', by decide, found ++ " HTTP/1.".toList, by
          rw [stripSuffix_eq older, List.append_assoc]; rfl⟩
    obtain ⟨other, front, same⟩ := ends
    exact other (List.append_singleton_inj.mp same).2.symm

theorem parseCallback_target (known : path = oauthPath ∨ path = signinPath)
    (unasked : '?' ∉ path.toList) :
    parseCallback u (String.ofList (target path query)) =
      if containsKey (parseQueryString u query) "error" then none
      else (get (parseQueryString u query) "code").map fun code =>
        ⟨code, (get (parseQueryString u query) "login_option").getD "", path,
          (get (parseQueryString u query) "state").getD ""⟩ := by
  have ours : ¬ (path ≠ oauthPath ∧ path ≠ signinPath) := by
    rintro ⟨first, second⟩
    rcases known with same | same
    · exact first same
    · exact second same
  rw [parseCallback, String.toList_ofList, target, splitOnce_append unasked]
  simp only [String.ofList_toList, if_neg ours]

theorem errorMessage_target (paths : '?' ∉ path.toList) (unasked : '?' ∉ query.toList) :
    errorMessage u (String.ofList (target path query)) =
      ((get (parseQueryString u query) "error_description").or
        (get (parseQueryString u query) "error")).getD "未知错误" := by
  have pieces : (target path query).splitOn '?' = [path.toList, query.toList] := by
    have each : ∀ piece ∈ [path.toList, query.toList], '?' ∉ piece := by
      intro piece mem
      rcases List.mem_cons.mp mem with rfl | last
      · exact paths
      · rw [List.mem_singleton.mp last]
        exact unasked
    have two := List.splitOn_intercalate '?' each (List.cons_ne_nil _ _)
    rwa [List.intercalate_cons_cons, List.intercalate_singleton, List.append_assoc] at two
  rw [errorMessage, String.toList_ofList, pieces]
  simp only [List.getElem?_cons_succ, List.getElem?_cons_zero, Option.bind_some,
    String.ofList_toList]

theorem requested_received (lined : Lined path query) (rest : Bytes) (arrived : Nat) :
    requested (fromUtf8Lossy (received (browserRequest path query rest) arrived)).toList =
      if min arrived bufLen = (requestLine path query).length ∨
          (requestLine path query).length + 2 ≤ min arrived bufLen then
        some (target path query)
      else none := by
  have ended : ∀ c ∈ requestLine path query ++ ['\r', '\n'], Ascii c := by
    rw [List.forall_mem_append, List.forall_mem_cons, List.forall_mem_singleton]
    exact ⟨lined.ascii, by decide, by decide⟩
  have size : (bytes (requestLine path query ++ ['\r', '\n'])).length =
      (requestLine path query).length + 2 := by
    rw [length_bytes_of_ascii ended, List.length_append]
    rfl
  rw [received, browserRequest]
  generalize min arrived bufLen = k
  rcases Nat.lt_or_ge k ((requestLine path query).length + 2) with short | long
  · rw [List.take_append_of_le_length (by omega), take_bytes ended, fromUtf8Lossy_bytes]
    rcases Nat.lt_trichotomy k (requestLine path query).length with less | rfl | more
    · rw [if_neg (by omega), List.take_append_of_le_length (by omega)]
      refine requested_part lined (fun none_ => ?_) (List.take_append_drop k _)
      rw [List.drop_eq_nil_iff] at none_
      omega
    · rw [if_pos (.inl rfl), List.take_left]
      exact requested_alone lined
    · have half : k = (requestLine path query).length + 1 := by omega
      rw [if_neg (by omega), half, List.take_length_add_append]
      exact requested_half lined
  · obtain ⟨k', rfl⟩ := Nat.exists_eq_add_of_le long
    rw [if_pos (.inr (by omega)), ← size, List.take_length_add_append]
    obtain ⟨back, read⟩ := fromUtf8Lossy_append ended (rest.take k')
    rw [read, List.append_assoc]
    exact requested_whole lined back

end Paths

/-- A request that a browser brings from a portal is answered for the fields that were written,
where its first line is read in one piece, with its end or without. -/
theorem serve_browserRequest (lawful : u.Lawful) {path : String}
    (known : path = oauthPath ∨ path = signinPath) (some_ : ps ≠ [])
    (plain : ∀ p ∈ ps, Plain p.1) (rest : Bytes) (arrived : Nat) :
    serve u (received (browserRequest path (queryText u ps) rest) arrived) =
      if min arrived bufLen = (requestLine path (queryText u ps)).length ∨
          (requestLine path (queryText u ps)).length + 2 ≤ min arrived bufLen then
        answerTo path (ofList ps)
      else .notFound := by
  have read := parse_queryText lawful some_ plain
  have unasked := not_mem_queryText lawful plain (c := '?') (by decide) (by decide)
  have paths : '?' ∉ path.toList := by
    rcases known with rfl | rfl <;> decide
  have asked := requested_received (lined_queryText lawful known plain) rest arrived
  split_ifs with whole
  · rw [serve_some (asked.trans (if_pos whole))]
    simp only [parseCallback_target known paths, errorMessage_target paths unasked, read]
    have begins : (startsWith (String.ofList (target path (queryText u ps))) oauthPath ||
        startsWith (String.ofList (target path (queryText u ps))) signinPath) = true := by
      rw [Bool.or_eq_true, startsWith, startsWith, String.toList_ofList, target]
      rcases known with rfl | rfl
      · exact .inl (decide_eq_true (List.prefix_append _ _))
      · exact .inr (decide_eq_true (List.prefix_append _ _))
    rw [answerTo, containsKey]
    cases get (ofList ps) "error" with
    | some error => simp only [Option.isSome_some, if_true, begins]
    | none =>
      cases get (ofList ps) "code" with
      | some code => rfl
      | none =>
        simp only [Option.isSome_none, Bool.false_eq_true, if_false, Option.map_none, begins,
          if_true]
  · exact serve_none (asked.trans (if_neg whole))

theorem parseCallback_some {pathAndQuery : String} {callback : OAuthCallbackData}
    (is : parseCallback u pathAndQuery = some callback) :
    ∃ path query, pathAndQuery.toList = target path query ∧ (path = oauthPath ∨ path = signinPath) ∧
      answerTo path (parseQueryString u query) = .loggedIn callback := by
  rw [parseCallback] at is
  have whole := (splitOnce_eq '?' pathAndQuery.toList).2
  cases split : splitOnce '?' pathAndQuery.toList with
  | mk path query =>
    rw [split] at is whole
    cases query with
    | none => cases is
    | some query =>
      simp only at is
      split_ifs at is with other error
      obtain ⟨code, found, rfl⟩ := Option.map_eq_some_iff.mp is
      refine ⟨String.ofList path, String.ofList query, ?_, ?_, ?_⟩
      · rw [target, String.toList_ofList, String.toList_ofList]
        exact whole
      · by_cases first : String.ofList path = oauthPath
        · exact .inl first
        · exact .inr (not_not.mp fun second => other ⟨first, second⟩)
      · have none_ : get (parseQueryString u (String.ofList query)) "error" = none :=
          Option.not_isSome_iff_eq_none.mp error
        rw [answerTo, none_, found]

theorem serve_loggedIn {buf : Bytes} {callback : OAuthCallbackData}
    (is : serve u buf = .loggedIn callback) :
    ∃ path query version, (path = oauthPath ∨ path = signinPath) ∧
      (version = " HTTP/1.1" ∨ version = " HTTP/1.0") ∧
      firstLine (fromUtf8Lossy buf).toList = "GET ".toList ++ (target path query ++ version.toList) ∧
      answerTo path (parseQueryString u query) = .loggedIn callback := by
  cases asked : requested (fromUtf8Lossy buf).toList with
  | none =>
    rw [serve_none asked] at is
    cases is
  | some line =>
    rw [serve_some asked] at is
    have accepted : parseCallback u (String.ofList line) = some callback := by
      cases parsed : parseCallback u (String.ofList line) with
      | some callback' =>
        rw [parsed] at is
        rw [Answer.loggedIn.inj is]
      | none =>
        rw [parsed] at is
        simp only at is
        split_ifs at is
    obtain ⟨path, query, eq, known, answered⟩ := parseCallback_some accepted
    rw [String.toList_ofList] at eq
    obtain ⟨s, front, back⟩ := Option.bind_eq_some_iff.mp asked
    have whole := stripPrefix_eq front
    rcases Option.or_eq_some_iff.mp back with newer | ⟨-, older⟩
    · refine ⟨path, query, " HTTP/1.1", known, .inl rfl, ?_, answered⟩
      rw [whole, stripSuffix_eq newer, eq]
    · refine ⟨path, query, " HTTP/1.0", known, .inr rfl, ?_, answered⟩
      rw [whole, stripSuffix_eq older, eq]

/-- Each side of a login reads what the other has written. The portal has the state, the challenge
and the address of the callback server; the callback server has the fields that come back, in any
order and whatever else is among them, if the one read of up to `bufLen` bytes gives it the whole
first line, and nothing else. It accepts nothing that does not read like that. -/
theorem login_texts_read (lawful : u.Lawful) :
    (∀ state codeChallenge redirectUri, ∃ query,
      buildPortalUrl u state codeChallenge redirectUri = kiroPortalUrl ++ "/signin?" ++ query ∧
        parseQueryString u query = ofList (portalFields state codeChallenge redirectUri)) ∧
    (∀ path ps rest arrived, (path = oauthPath ∨ path = signinPath) → ps ≠ [] →
      (∀ p ∈ ps, Plain p.1) →
      serve u (received (browserRequest path (queryText u ps) rest) arrived) =
        if min arrived bufLen = (requestLine path (queryText u ps)).length ∨
            (requestLine path (queryText u ps)).length + 2 ≤ min arrived bufLen then
          answerTo path (ofList ps)
        else .notFound) ∧
    (∀ buf callback, serve u buf = .loggedIn callback → ∃ path query version,
      (path = oauthPath ∨ path = signinPath) ∧ (version = " HTTP/1.1" ∨ version = " HTTP/1.0") ∧
        firstLine (fromUtf8Lossy buf).toList =
          "GET ".toList ++ (target path query ++ version.toList) ∧
        answerTo path (parseQueryString u query) = .loggedIn callback) := by
  refine ⟨fun state codeChallenge redirectUri => ?_, ?_, fun _ _ => serve_loggedIn⟩
  · refine ⟨_, buildPortalUrl_eq lawful state codeChallenge redirectUri, ?_⟩
    refine parse_queryText lawful (List.cons_ne_nil _ _) (List.forall_iff_forall_mem.mp ?_)
    exact ⟨plain_of_all (s := "state") (by decide),
      plain_of_all (s := "code_challenge") (by decide),
      plain_of_all (s := "code_challenge_method") (by decide),
      plain_of_all (s := "redirect_uri") (by decide),
      plain_of_all (s := "redirect_from") (by decide)⟩
  · exact fun path ps rest arrived known some_ plain =>
      serve_browserRequest lawful known some_ plain rest arrived

def percent : Urlencoding := ⟨Percents.encode, Percents.decode⟩

theorem percent_encode (s : String) : percent.encode s = Percents.encode s := rfl

theorem percent_decode (s : String) : percent.decode s = Percents.decode s := rfl

theorem percent_lawful : percent.Lawful := by
  refine ⟨fun s => ?_, fun s c mem => ?_, fun s kept => ?_⟩
  · rw [percent_encode, percent_decode, Percents.decode_encode]
  · rw [percent_encode] at mem
    exact (Percents.encoded_mem s mem).2
  · rw [percent_encode, Percents.encode_unreserved kept]

theorem login_texts_read_github :
    serve percent (received (browserRequest signinPath (queryText percent
      [("login_option", "github & co"), ("code", "a+b=c"), ("state", "状态")]) []) 4096) =
        .loggedIn ⟨"a+b=c", "github & co", signinPath, "状态"⟩ := by
  refine ((login_texts_read percent_lawful).2.1 signinPath _ [] 4096 (.inr rfl)
    (List.cons_ne_nil _ _) (List.forall_iff_forall_mem.mp ?_)).trans (by decide +kernel)
  exact ⟨plain_of_all (by decide), plain_of_all (by decide), plain_of_all (by decide)⟩

end KiroRs.Login.CallbackUrl
