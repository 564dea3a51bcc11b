import SwaDemo.FailsClosed
import SwaDemo.ShipmentHop
import SwaDemo.TraceDisclosure

/-!
The requests to the Secrets Manager (`apps/carrier/sm_client.go`) as a server reads them: the
form that holds the JWT-SVID, the path whose last segment is the variable, slashes and all, and
the header that holds the token.
-/
namespace SwaSecrets
open SwaTrace SwaCarrier
open SwaHop (pathUnescape pathUnescape_plain pathUnescape_percent pathUnescape_pathEscape
  pathUnescape_plains)

/-! ## The server -/

/-- `url.QueryUnescape` -/
def queryUnescape (s : GoString) : Option GoString :=
  pathUnescape (s.map fun b => if b = 43 then 32 else b)

/-- One pair of a form; a semicolon is refused. -/
def readPair (pair : GoString) : Option (GoString × GoString) :=
  if (59 : UInt8) ∈ pair then none
  else do
    let key ← queryUnescape (pair.takeWhile (· ≠ 61))
    let value ← queryUnescape ((pair.dropWhile (· ≠ 61)).drop 1)
    return (key, value)

/-- `url.ParseQuery`, as far as it has no error. -/
def parseQuery (body : GoString) : Option (List (GoString × GoString)) :=
  ((body.splitOn 38).filter (· ≠ [])).mapM readPair

/-- The segments of a path, each one unescaped. -/
def segments (target : GoString) : Option (List GoString) := (target.splitOn slash).mapM pathUnescape

def authnPath : GoString := goString "/api/authn-jwt/secureWorkloadAccess/conjur/authenticate"

/-- What of a token stands before its first quote: all of it, if it has none. -/
def untilQuote (token : GoString) : GoString := token.takeWhile (· ≠ 34)

theorem untilQuote_plain {token : GoString} (unquoted : (34 : UInt8) ∉ token) :
    untilQuote token = token := by
  refine List.takeWhile_eq_self_iff.mpr fun c mem => ?_
  rw [decide_eq_true_eq]
  rintro rfl
  exact unquoted mem

/-- What stands between the first two quotes of a `Token token="..."`. -/
def quotedToken (header : GoString) : Option GoString :=
  if (goString "Token token=\"").isPrefixOf header then
    some (untilQuote (header.drop (goString "Token token=\"").length))
  else none

/-- What a request asks for. -/
inductive Asked where
  | authn (jwt : GoString)
  | secret (token variable_ : GoString)
  deriving DecidableEq, Repr

def readAuthn (req : HttpRequest) : Option Asked :=
  match parseQuery req.body with
  | some [(key, jwt)] => if key = goString "jwt" then some (.authn jwt) else none
  | _ => none

def readSecret (target : GoString) (req : HttpRequest) : Option Asked :=
  match segments target, (req.headers.lookup "Authorization").bind quotedToken with
  | some [_, api, secrets, account, kind, variable_], some token =>
    if [api, secrets, account, kind] = ["api", "secrets", "conjur", "variable"].map goString then
      some (.secret token variable_)
    else none
  | _, _ => none

/-- The server behind a base URL. -/
def read (base : GoString) (req : HttpRequest) : Option Asked :=
  if base.isPrefixOf req.url then
    if req.method = goString "POST" ∧ req.url.drop base.length = authnPath then readAuthn req
    else if req.method = goString "GET" then readSecret (req.url.drop base.length) req
    else none
  else none

/-! ## The form -/

theorem queryEscape_letter {b c : UInt8} (mem : c ∈ queryEscape [b]) : c ≠ 38 ∧ c ≠ 59 := by
  have digits : ∀ n < 16, upperHex n ≠ 38 ∧ upperHex n ≠ 59 := by decide
  have size := b.toNat_lt
  rw [queryEscape, List.flatMap_cons, List.flatMap_nil, List.append_nil] at mem
  split at mem
  · rename_i kept
    rw [List.mem_singleton.mp mem]
    constructor
    · rintro rfl
      revert kept
      decide
    · rintro rfl
      revert kept
      decide
  · split at mem
    · rw [List.mem_singleton.mp mem]
      decide
    · simp only [percent, List.mem_cons, List.not_mem_nil, or_false] at mem
      rcases mem with rfl | rfl | rfl
      · decide
      · exact digits _ (by omega)
      · exact digits _ (by omega)

theorem queryEscape_cons (b : UInt8) (s : GoString) :
    queryEscape (b :: s) = queryEscape [b] ++ queryEscape s := by
  simp [queryEscape]

theorem queryEscape_mem {s : GoString} {c : UInt8} (mem : c ∈ queryEscape s) : c ≠ 38 ∧ c ≠ 59 := by
  induction s with
  | nil => simp [queryEscape] at mem
  | cons b s ih =>
    rw [queryEscape_cons] at mem
    rcases List.mem_append.mp mem with first | later
    · exact queryEscape_letter first
    · exact ih later

theorem queryUnescape_cons (b : UInt8) (rest : GoString) :
    queryUnescape (queryEscape [b] ++ rest) = (queryUnescape rest).map (b :: ·) := by
  have digits : ∀ n < 16, upperHex n ≠ 43 := by decide
  have size := b.toNat_lt
  rw [queryUnescape, queryEscape, List.flatMap_cons, List.flatMap_nil, List.append_nil, List.map_append]
  split
  · rename_i kept
    have plain : b ≠ 37 ∧ b ≠ 43 := by
      constructor
      · rintro rfl
        revert kept
        decide
      · rintro rfl
        revert kept
        decide
    have same : [b].map (fun b => if b = 43 then (32 : UInt8) else b) = [b] := by simp [plain.2]
    rw [same, List.singleton_append, pathUnescape_plain plain.1]
    rfl
  · split
    · rename_i space
      subst space
      have back : ([43] : GoString).map (fun b => if b = 43 then (32 : UInt8) else b) = [32] := by decide
      rw [back, List.singleton_append, pathUnescape_plain (by decide)]
      rfl
    · have same : (percent b).map (fun b => if b = 43 then (32 : UInt8) else b) = percent b := by
        have first := digits (b.toNat / 16) (by omega)
        have second := digits (b.toNat % 16) (by omega)
        simp [percent, first, second]
      rw [same, pathUnescape_percent]
      rfl

theorem queryUnescape_queryEscape (s : GoString) : queryUnescape (queryEscape s) = some s := by
  induction s with
  | nil => rfl
  | cons b s ih => rw [queryEscape_cons, queryUnescape_cons, ih, Option.map_some]

/-- A form with one field. -/
theorem parseQuery_field {key : GoString} (plain : ∀ c ∈ key, c ≠ 38 ∧ c ≠ 59 ∧ c ≠ 61)
    (known : queryUnescape key = some key) (value : GoString) :
    parseQuery (key ++ 61 :: queryEscape value) = some [(key, value)] := by
  have letters : ∀ c ∈ key ++ 61 :: queryEscape value, c ≠ 38 ∧ c ≠ 59 := by
    intro c mem
    rcases List.mem_append.mp mem with front | behind
    · exact ⟨(plain c front).1, (plain c front).2.1⟩
    · rcases List.mem_cons.mp behind with rfl | later
      · decide
      · exact queryEscape_mem later
  have whole : (key ++ 61 :: queryEscape value).splitOn 38 = [key ++ 61 :: queryEscape value] := by
    refine List.splitOnP_eq_singleton fun c mem => ?_
    simpa using (letters c mem).1
  have stops : ∀ c ∈ key, decide (c ≠ 61) = true := fun c mem => by simpa using (plain c mem).2.2
  have front : (key ++ 61 :: queryEscape value).takeWhile (· ≠ 61) = key := by
    rw [List.takeWhile_append_of_pos stops]
    simp
  have back : ((key ++ 61 :: queryEscape value).dropWhile (· ≠ 61)).drop 1 = queryEscape value := by
    rw [List.dropWhile_append_of_pos stops]
    simp
  have pair : readPair (key ++ 61 :: queryEscape value) = some (key, value) := by
    rw [readPair, if_neg fun mem => (letters 59 mem).2 rfl, front, back, known, queryUnescape_queryEscape]
    rfl
  rw [parseQuery, whole]
  simp [pair]

/-! ## The path -/

theorem pathEscape_slash {s : GoString} {b : UInt8} (mem : b ∈ pathEscape s) : b ≠ slash := by
  have digits : ∀ n < 16, upperHex n ≠ slash := by decide
  obtain ⟨a, _, within⟩ := List.mem_flatMap.mp mem
  split at within
  · rename_i kept
    rw [List.mem_singleton.mp within]
    rintro rfl
    revert kept
    decide
  · have size := a.toNat_lt
    simp only [percent, List.mem_cons, List.not_mem_nil, or_false] at within
    rcases within with rfl | rfl | rfl
    · decide
    · exact digits _ (by omega)
    · exact digits _ (by omega)

/-- The variable is one segment, whatever is in its name. -/
theorem segments_variable (variable_ : GoString) :
    segments (goString "/api/secrets/conjur/variable/" ++ pathEscape variable_) =
      some [[], goString "api", goString "secrets", goString "conjur", goString "variable", variable_] := by
  have parts : goString "/api/secrets/conjur/variable/" ++ pathEscape variable_ =
      [] ++ slash :: (goString "api" ++ slash :: (goString "secrets" ++ slash :: (goString "conjur" ++
        slash :: (goString "variable" ++ slash :: pathEscape variable_)))) := rfl
  have last : (pathEscape variable_).splitOn slash = [pathEscape variable_] := by
    refine List.splitOnP_eq_singleton fun c mem => ?_
    simpa using pathEscape_slash mem
  have plains : ∀ name ∈ ["api", "secrets", "conjur", "variable"],
      (∀ c ∈ goString name, c ≠ slash) ∧ pathUnescape (goString name) = some (goString name) := by
    decide +kernel
  obtain ⟨api, api'⟩ := plains "api" (by simp)
  obtain ⟨secrets, secrets'⟩ := plains "secrets" (by simp)
  obtain ⟨conjur, conjur'⟩ := plains "conjur" (by simp)
  obtain ⟨kind, kind'⟩ := plains "variable" (by simp)
  have back : pathUnescape (pathEscape variable_) = some variable_ := by
    rw [← List.append_nil (pathEscape variable_), pathUnescape_pathEscape]
    simp [pathUnescape]
  rw [segments, parts, splitOn_first (by simp), splitOn_first api, splitOn_first secrets,
    splitOn_first conjur, splitOn_first kind, last]
  simp [pathUnescape, api', secrets', conjur', kind', back]

/-! ## What is asked for -/

theorem untilQuote_closed (token : GoString) : untilQuote (token ++ [34]) = untilQuote token := by
  induction token with
  | nil => rfl
  | cons c token ih =>
    simp only [untilQuote, List.cons_append, List.takeWhile_cons] at ih ⊢
    rw [ih]

theorem quotedToken_read (token : GoString) :
    quotedToken (goString "Token token=\"" ++ token ++ goString "\"") = some (untilQuote token) := by
  have quote : goString "\"" = [34] := by decide
  have begun : (goString "Token token=\"").isPrefixOf (goString "Token token=\"" ++ token ++ [34]) = true := by
    rw [List.append_assoc]
    exact List.isPrefixOf_iff_prefix.mpr (List.prefix_append _ _)
  rw [quote, quotedToken, if_pos begun, List.append_assoc, List.drop_left, untilQuote_closed]

section read
variable (client : SMClient)

theorem authn_read (jwtSVID : GoString) :
    read client.baseURL (client.authnRequest jwtSVID) = some (.authn jwtSVID) := by
  have base : client.baseURL.isPrefixOf (client.authnRequest jwtSVID).url = true :=
    List.isPrefixOf_iff_prefix.mpr (List.prefix_append _ _)
  have target : (client.authnRequest jwtSVID).url.drop client.baseURL.length = authnPath := List.drop_left
  have field : (client.authnRequest jwtSVID).body = goString "jwt" ++ 61 :: queryEscape jwtSVID := rfl
  have form := @parseQuery_field (goString "jwt") (by decide +kernel) (by decide +kernel) jwtSVID
  rw [read, if_pos base, if_pos ⟨rfl, target⟩, readAuthn, field, form]
  simp

theorem secret_read (smToken variableID : GoString) :
    read client.baseURL (client.secretRequest smToken variableID) =
      some (.secret (untilQuote smToken) variableID) := by
  have url : (client.secretRequest smToken variableID).url =
      client.baseURL ++ (goString "/api/secrets/conjur/variable/" ++ pathEscape variableID) :=
    List.append_assoc _ _ _
  have base : client.baseURL.isPrefixOf (client.secretRequest smToken variableID).url = true := by
    rw [url]
    exact List.isPrefixOf_iff_prefix.mpr (List.prefix_append _ _)
  have target : (client.secretRequest smToken variableID).url.drop client.baseURL.length =
      goString "/api/secrets/conjur/variable/" ++ pathEscape variableID := by
    rw [url, List.drop_left]
  have get : (client.secretRequest smToken variableID).method = goString "GET" := rfl
  have differ : goString "GET" ≠ goString "POST" := by decide
  have header : (client.secretRequest smToken variableID).headers.lookup "Authorization" =
      some (goString "Token token=\"" ++ smToken ++ goString "\"") := rfl
  rw [read, if_pos base, get, if_neg fun both => differ both.1, if_pos rfl, target, readSecret,
    segments_variable, header, Option.bind_some, quotedToken_read]
  simp

end read

/-- The questions of a lookup. The client puts the token between quotes as it is. -/
inductive Asks (d : LiveDeps) : List (Option Asked) → Prop where
  | nothing : Asks d []
  | token {svid : SVID} (issued : d.fetchJWTSVID = .ok svid) : Asks d [some (.authn svid.marshal)]
  | secret {svid : SVID} {token : GoString} (issued : d.fetchJWTSVID = .ok svid)
      (answered : d.client.Answered (d.client.authnRequest svid.marshal) token)
      (whole : (34 : UInt8) ∉ token → untilQuote token = token) :
      Asks d [some (.authn svid.marshal), some (.secret (untilQuote token) d.secretID)]

/-- What a server reads in the requests of any lookup: the token of the SVID that was issued, and
    after an answer to it the configured variable, with the token that was answered, up to its
    first quote if it has one. -/
theorem lookup_asks (c : Codec) (fixtures : GoString → Option Payload) (d : LiveDeps) (path : GoString) :
    Asks d ((liveLookup c fixtures d path).requests.map (read d.client.baseURL)) := by
  obtain ⟨exit, ends, shows⟩ := @live_exit c fixtures d path
  have once (req : HttpRequest) : d.client.sent req = [] ∨ d.client.sent req = [req] := by
    unfold SMClient.sent
    cases d.client.http.newRequest req.method req.url with
    | some err => exact Or.inl rfl
    | none => exact Or.inr rfl
  have both {svid : SVID} {token : GoString} (auth : Authenticated d (shipmentID path) svid token) :
      Asks d ([d.client.authnRequest svid.marshal, d.client.secretRequest token d.secretID].map
        (read d.client.baseURL)) := by
    have read_ := secret_read d.client token d.secretID
    rw [List.map_cons, List.map_cons, List.map_nil, authn_read, read_]
    exact .secret auth.issued auth.answered untilQuote_plain
  rw [shows.requests]
  cases exit with
  | badID | noIdentity => exact .nothing
  | noToken svid =>
    rw [Exit.requests]
    rcases once (d.client.authnRequest svid.marshal) with none_ | one
    · rw [none_]
      exact .nothing
    · rw [one, List.map_cons, List.map_nil, authn_read]
      exact .token ends.2.1
  | noSecret svid token =>
    rw [Exit.requests]
    rcases once (d.client.secretRequest token d.secretID) with none_ | one
    · rw [none_, List.map_cons, List.map_nil, authn_read]
      exact .token ends.1.issued
    · rw [one]
      exact both ends.1
  | emptySecret svid token => exact both ends.1
  | miss svid token => exact both ends.1.toAuthenticated
  | found svid token row => exact both ends.1.toAuthenticated

end SwaSecrets
