import MetricRegistry.Api.Backend
import MetricRegistry.Api.Body
import MetricRegistry.Api.Cors

/-! The HTTP interface: the routes it serves below `/api/v1` and `/health`, how each request is
answered, and how failures are told, as plain-text rejections or JSON errors with a code, a
message and a request id. -/

namespace MetricRegistry.Api

open Http

/-- The routes of the interface, with the undecoded path parts they take. -/
inductive Endpoint where
  | resolve
  | byName (raw : String)
  | byKey (raw : String)
  | identity (raw : String)
  | defragment
  | stats
  | live
  | ready
  | health
  deriving DecidableEq, Repr

namespace Endpoint

/-- The route a path takes, if any. -/
def ofPath (path : String) : Option Endpoint :=
  match path.splitOn "/" with
  | ["", "api", "v1", "identities", "resolve"] => some .resolve
  | ["", "api", "v1", "identities", "by-name", n] => if n.isEmpty then none else some (.byName n)
  | ["", "api", "v1", "identities", "by-opaque", k] => if k.isEmpty then none else some (.byKey k)
  | ["", "api", "v1", "identities", i] => if i.isEmpty then none else some (.identity i)
  | ["", "api", "v1", "admin", "defragment"] => some .defragment
  | ["", "api", "v1", "admin", "stats"] => some .stats
  | ["", "health", "live"] => some .live
  | ["", "health", "ready"] => some .ready
  | ["", "health"] => some .health
  | _ => none

/-- The methods a route takes, in the order they are listed. -/
def methods : Endpoint → List String
  | .resolve | .defragment => ["POST"]
  | .identity _ => ["GET", "HEAD", "DELETE"]
  | _ => ["GET", "HEAD"]

end Endpoint

/-- A failure told as a JSON error. -/
inductive ApiError where
  | validation (detail : String)
  | notFound (detail : String)
  | backend (e : BackendError)

namespace ApiError

/-- The status and code of a failure. -/
def statusCode : ApiError → Nat × String
  | .validation _ => (400, "VALIDATION_ERROR")
  | .notFound _ => (404, "NOT_FOUND")
  | .backend (.store .invalidIdentity) => (400, "INVALID_IDENTITY")
  | .backend (.store (.capacityExceeded _)) => (413, "CAPACITY_EXCEEDED")
  | .backend (.store _) => (500, "STORE_ERROR")
  | .backend (.rejected _ _) => (400, "REJECTED")
  | .backend (.task _) => (500, "INTERNAL_ERROR")
  | .backend _ => (502, "UPSTREAM_ERROR")

/-- The message of a failure. -/
def message : ApiError → String
  | .validation d => "Validation error: " ++ d
  | .notFound d => "Not found: " ++ d
  | .backend e => "Backend error: " ++ e.message

end ApiError

/-- Where the interface listens, and the origins it lets call it (any, when none is given). -/
structure ApiConfig where
  host : String := "0.0.0.0"
  port : Nat := 8090
  corsOrigins : List String := []

/-- A configuration on `host` and `port` that lets any origin call. -/
def ApiConfig.new (host : String) (port : Nat) : ApiConfig := { host, port }

/-- The address the interface binds to. -/
def ApiConfig.addr (c : ApiConfig) : String := c.host ++ ":" ++ toString c.port

/-- The interface's state: who may call it, the backend it serves, and how many requests it has
answered, which numbers the request ids. -/
structure Service where
  cors : CorsPolicy
  backend : Backend
  answered : Nat := 0

/-- Requests being answered. -/
abbrev ServiceM := StateM Service

/-- The version the health report gives. -/
def version : String := "0.1.0"

/-- The id of the `n`-th request, shaped like a random UUID. -/
def requestId (n : Nat) : String :=
  let digits := String.ofList (Nat.toDigits 16 n)
  "00000000-0000-4000-8000-" ++ String.ofList (List.replicate (12 - digits.length) '0') ++ digits

/-- The JSON answer to a failure. -/
def errorResponse (e : ApiError) : ServiceM Response := do
  let s ← get
  set { s with answered := s.answered + 1 }
  let (status, code) := e.statusCode
  pure (Response.json status (.obj [("error", .obj [("code", .str code), ("message", .str e.message)]),
    ("request_id", .str (requestId s.answered))]))

/-- Runs a backend call on the service's backend. -/
def onBackend {α : Type} (m : BackendM α) : ServiceM (Except BackendError α) := do
  let s ← get
  match m s.backend with
  | .ok a b => set { s with backend := b }; pure (.ok a)
  | .error e b => set { s with backend := b }; pure (.error e)

/-- A path part decoded: percent-escapes resolved, then read as UTF-8. -/
def decodePart (raw : String) : Option String :=
  String.fromUTF8? ⟨(Net.percentDecode raw.toUTF8.toList).toArray⟩

/-- A 64-bit integer written in decimal with an optional sign. -/
def parseInt64 (text : String) : Option Int64 :=
  let (negative, digits) := match text.toList with
    | '-' :: rest => (true, rest)
    | '+' :: rest => (false, rest)
    | cs => (false, cs)
  if digits.isEmpty || !digits.all Char.isDigit then none
  else
    let n : Int := digits.foldl (fun n c => 10 * n + (c.toNat - 48 : Nat)) 0
    let v := if negative then -n else n
    if -(2 ^ 63) ≤ v && v < 2 ^ 63 then some (Int64.ofInt v) else none

/-- The plain-text answer to a path part that cannot be read. -/
def invalidUrl (detail : String) : Response :=
  Response.plain 400 ("Invalid URL: " ++ detail)

/-- A token character of a media type. -/
def tokenChar (c : Char) : Bool :=
  c.isAlphanum || "!#$%&\x27*+-.^_\x60|~".toList.contains c

/-- Whether a media type's parameters, after its first semicolon, are well formed. -/
def paramsWellFormed : Nat → List Char → Bool
  | 0, _ => false
  | fuel + 1, cs =>
    let cs := cs.dropWhile (· = ' ')
    let name := cs.takeWhile tokenChar
    match cs.drop name.length with
    | '=' :: rest =>
      if name.isEmpty then false
      else
        let (valueOk, after) := match rest with
          | '"' :: more =>
            let body := more.takeWhile (· != '"')
            match more.drop body.length with
            | '"' :: tail => (true, tail)
            | _ => (false, [])
          | _ =>
            let v := rest.takeWhile tokenChar
            (!v.isEmpty, rest.drop v.length)
        if !valueOk then false
        else match after with
          | [] => true
          | ';' :: more => paramsWellFormed fuel more
          | _ => false
    | _ => false

/-- Whether a content type declares JSON: `application/json`, or an `application` subtype with a
`+json` suffix, in any case, with well-formed parameters. -/
def isJsonContentType (value : String) : Bool :=
  let cs := value.toList
  if !(cs.all fun c => (c.toNat ≥ 32 && c.toNat < 127) || c = '\t') then false
  else
    let top := cs.takeWhile tokenChar
    match cs.drop top.length with
    | '/' :: rest =>
      let sub := rest.takeWhile tokenChar
      let after := rest.drop sub.length
      let paramsOk := match after with
        | [] => !sub.isEmpty
        | ';' :: more => !sub.isEmpty && paramsWellFormed (more.length + 1) more
        | _ => false
      let subText := (String.ofList sub).toLower
      let parts := subText.splitOn "+"
      let suffix := if parts.length > 1 then parts.getLast? else none
      let subtype := if parts.length > 1 then "+".intercalate parts.dropLast else subText
      paramsOk && !top.isEmpty && (String.ofList top).toLower = "application" &&
        (subtype = "json" || suffix = some "json")
    | _ => false

/-- The JSON answer to a successful call. -/
def ok (j : Json) : Response := Response.json 200 j

/-- Answers a resolve request. -/
def handleResolve (now : Int64) (req : Request) : ServiceM Response := do
  let declared := (req.header? "content-type").map isJsonContentType
  if declared != some true then
    return Response.plain 415 "Expected request with \x60Content-Type: application/json\x60"
  match ResolveRequest.ofBody req.body with
  | .error e@(.malformed _ _) =>
    pure (Response.plain 400 ("Failed to parse the request body as JSON: " ++ e.message req.body))
  | .error e@(.mistyped _ _ _) =>
    pure (Response.plain 422
      ("Failed to deserialize the JSON body into the target type: " ++ e.message req.body))
  | .ok body =>
    match body.opaqueBytes with
    | .error m => errorResponse (.validation m)
    | .ok key =>
      let name := body.name.filter (!·.isEmpty)
      let key := key.filter (·.size != 0)
      if name.isNone && key.isNone then
        errorResponse (.validation "at least one of name or opaque_key is required")
      else match ← onBackend (Backend.resolve now name key) with
        | .ok g => pure (ok (.obj [("global_id", Json.ofInt64 g)]))
        | .error e => errorResponse (.backend e)

/-- Answers a lookup by name. -/
def handleByName (raw : String) : ServiceM Response := do
  match decodePart raw with
  | none => pure (invalidUrl "Invalid UTF-8 in \x60name\x60")
  | some name =>
    match ← onBackend (Backend.lookupName name) with
    | .ok (some g) => pure (ok (.obj [("global_id", Json.ofInt64 g)]))
    | .ok none => errorResponse (.notFound ("No identity named '" ++ name ++ "'"))
    | .error e => errorResponse (.backend e)

/-- Answers a lookup by opaque key. -/
def handleByKey (raw : String) : ServiceM Response := do
  match decodePart raw with
  | none => pure (invalidUrl "Invalid UTF-8 in \x60key\x60")
  | some text =>
    match decodeOpaque text with
    | .error m => errorResponse (.validation m)
    | .ok key =>
      match ← onBackend (Backend.lookupKey key) with
      | .ok (some g) => pure (ok (.obj [("global_id", Json.ofInt64 g)]))
      | .ok none => errorResponse (.notFound ("No identity with opaque key " ++ text))
      | .error e => errorResponse (.backend e)

/-- Answers a request for a record, or a deletion. -/
def handleIdentity (delete : Bool) (raw : String) : ServiceM Response := do
  match decodePart raw with
  | none => pure (invalidUrl "Invalid UTF-8 in \x60id\x60")
  | some text =>
    match parseInt64 text with
    | none => pure (invalidUrl ("Cannot parse \x60" ++ Text.quoted text ++ "\x60 to a \x60i64\x60"))
    | some g =>
      let missing := ApiError.notFound ("Identity " ++ toString g.toInt ++ " not found")
      if delete then
        match ← onBackend (Backend.delete g) with
        | .ok true => pure (Response.empty 204)
        | .ok false => errorResponse missing
        | .error e => errorResponse (.backend e)
      else
        match ← onBackend (Backend.record g) with
        | .ok (some r) => pure (ok (IdentityView.ofIdentity r).toJson)
        | .ok none => errorResponse missing
        | .error e => errorResponse (.backend e)

/-- Answers a compaction request with the counters before and after. -/
def handleDefragment : ServiceM Response := do
  match ← onBackend (do
      let before ← Backend.stats
      let report ← Backend.defragment
      let after ← Backend.stats
      pure (before, report, after)) with
  | .ok (before, report, after) => pure (ok (defragmentJson before after report))
  | .error e => errorResponse (.backend e)

/-- Whether the backend answers. -/
def backendHealthy : ServiceM Bool := do
  match ← onBackend Backend.stats with
  | .ok _ => pure true
  | .error _ => pure false

/-- Answers a request that a route takes with its method. -/
def handle (now : Int64) (req : Request) : Endpoint → ServiceM Response
  | .resolve => handleResolve now req
  | .byName raw => handleByName raw
  | .byKey raw => handleByKey raw
  | .identity raw => handleIdentity (req.method == "DELETE") raw
  | .defragment => handleDefragment
  | .stats => do
    match ← onBackend Backend.stats with
    | .ok s => pure (ok (statsJson s))
    | .error e => errorResponse (.backend e)
  | .live => pure (Response.empty 200)
  | .ready => do pure (Response.empty (if ← backendHealthy then 200 else 503))
  | .health => do
    let healthy ← backendHealthy
    let s ← get
    pure (ok (.obj [("status", .str (if healthy then "healthy" else "unhealthy")),
      ("store", .str (if healthy then "ok" else "error")), ("backend", .str s.backend.name),
      ("uptime_seconds", .int 0), ("version", .str version)]))

/-- Answers a request; `now` stamps records it creates. -/
def Service.respond (now : Int64) (req : Request) : ServiceM Response := do
  let preflight := req.method == "OPTIONS"
  let r ← match Endpoint.ofPath req.path with
    | none => pure (Response.empty (if preflight then 200 else 404))
    | some ep =>
      let methods := ep.methods
      if methods.contains req.method then do
        let r ← handle now req ep
        pure (if req.method == "HEAD" then r.withoutBody else r)
      else
        pure ((Response.empty (if preflight then 200 else 405)).withHeader "allow" (",".intercalate methods))
  pure ((← get).cors.apply (req.header? "origin") preflight r)

end MetricRegistry.Api
