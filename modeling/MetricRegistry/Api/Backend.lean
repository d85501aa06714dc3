import MetricRegistry.Store.Compaction
import MetricRegistry.Net.Url
import MetricRegistry.Bytes.Hex

/-!
Where a client's identity calls go: to a store in this process, or to a server reached at a base
URL, which no request reaches here because the network is unreachable.
-/
namespace MetricRegistry.Api

open Net

/-- Why a request to a server failed before an answer came. -/
inductive RequestFailure where
  /-- The URL's scheme is not one a client sends requests to. -/
  | badScheme
  /-- No connection could be made. -/
  | unreachable
  deriving DecidableEq, Repr

/-- Why a backend call failed. -/
inductive BackendError where
  | store (e : StoreError)
  | request (url : String) (failure : RequestFailure)
  | rejected (status : Nat) (message : String)
  | remote (status : Nat) (message : String)
  | invalidResponse (detail : String)
  /-- The blocking task a local call ran in failed: the store operation panicked. -/
  | task (detail : String)
  deriving DecidableEq, Repr

/-- The failures beneath a request failure, outermost first. -/
def RequestFailure.causes (url : String) : RequestFailure → List String
  | .badScheme => ["builder error for url (" ++ url ++ "): URL scheme is not allowed",
      "URL scheme is not allowed"]
  | .unreachable =>
    let io := "Network is unreachable (os error 101)"
    let tcp := "tcp connect error: " ++ io
    let connect := "error trying to connect: " ++ tcp
    ["error sending request for url (" ++ url ++ "): " ++ connect, connect, tcp, io]

/-- The message of a backend error followed by the messages of the failures beneath it. -/
def BackendError.causes : BackendError → List String
  | .store e => e.causes
  | .request url f =>
    let inner := f.causes url
    ("Request failed: " ++ inner.headD "") :: inner
  | .rejected status message =>
    ["Rejected by server (" ++ toString status ++ "): " ++ message]
  | .remote status message => ["Server error (" ++ toString status ++ "): " ++ message]
  | .invalidResponse detail => ["Invalid response: " ++ detail]
  | .task detail => ["Background task failed: " ++ detail]

/-- The message of a backend error. -/
def BackendError.message (e : BackendError) : String := e.causes.headD ""

/-- The short name of the kind of a backend error; a store error keeps its own. -/
def BackendError.kind : BackendError → String
  | .store e => e.kind
  | .request _ _ => "Request"
  | .rejected _ _ => "Rejected"
  | .remote _ _ => "Remote"
  | .invalidResponse _ => "InvalidResponse"
  | .task _ => "Task"

/-- A backend: a store in this process, or a server at a base URL. -/
inductive Backend where
  | local (store : Store)
  | remote (base : Url)

/-- Backend calls, which may change a local store. -/
abbrev BackendM := EStateM BackendError Backend

/-- The backend of a server at `base`; the text must be a URL. -/
def Backend.ofBaseUrl (base : String) : Except BackendError Backend :=
  match Url.parse base with
  | .ok u => .ok (.remote u)
  | .error e => .error (.invalidResponse ("bad base URL " ++ base ++ ": " ++ e.message))

namespace Backend

/-- The short name of a backend. -/
def name : Backend → String
  | .local _ => "local"
  | .remote _ => "remote"

/-- The store of a local backend. -/
def store? : Backend → Option Store
  | .local s => some s
  | .remote _ => none

/-- The backend error of a local call whose store operation failed with `e`: the operation runs
in a blocking task, so a panic fails the task, and the store goes on as the panic left it. -/
def localFailure (e : StoreError) : BackendError :=
  if e.isPanic then .task ("task panicked with message " ++ e.message.quote) else .store e

/-- Runs a store operation on the local store. -/
def onStore {α : Type} (m : Store.StoreM α) (s : Store) : BackendM α := fun _ =>
  match m s with
  | .ok a t => .ok a (.local t)
  | .error e t => .error (localFailure e) (.local t)

/-- A request to the endpoint `segments` below the server's interface. -/
def send {α : Type} (base : Url) (segments : List String) : BackendM α :=
  match base.appendSegments (["api", "v1"] ++ segments) with
  | none => throw (.invalidResponse (base.text ++ " cannot be a base URL"))
  | some url =>
    if url.scheme = "http" || url.scheme = "https" then throw (.request url.text .unreachable)
    else throw (.request url.text .badScheme)

/-- The id of a name, an opaque key or both, made when new; `now` stamps a new record. -/
def resolve (now : Int64) (name : Option String) (key : Option ByteArray) : BackendM Int64 := do
  match ← get with
  | .local s => onStore (Store.resolve now name key) s
  | .remote base => send base ["identities", "resolve"]

/-- The id of a name, if any. -/
def lookupName (name : String) : BackendM (Option Int64) := do
  match ← get with
  | .local s => pure (s.lookupName name)
  | .remote base => send base ["identities", "by-name", name]

/-- The id of an opaque key, if any. -/
def lookupKey (key : ByteArray) : BackendM (Option Int64) := do
  match ← get with
  | .local s => pure (s.lookupKey key)
  | .remote base => send base ["identities", "by-opaque", Bytes.hexEncode key]

/-- The live record of an id, if any. -/
def record (globalId : Int64) : BackendM (Option Identity) := do
  match ← get with
  | .local s =>
    match s.get globalId with
    | .ok r => pure r
    | .error e => throw (localFailure e)
  | .remote base => send base ["identities", toString globalId.toInt]

/-- Deletes an id; false when it was not live. -/
def delete (globalId : Int64) : BackendM Bool := do
  match ← get with
  | .local s => onStore (Store.delete globalId) s
  | .remote base => send base ["identities", toString globalId.toInt]

/-- Compacts the log. -/
def defragment : BackendM Store.Report := do
  match ← get with
  | .local s => onStore Store.defragment s
  | .remote base => send base ["admin", "defragment"]

/-- The counters of the store. -/
def stats : BackendM Stats := do
  match ← get with
  | .local s => pure s.stats
  | .remote base => send base ["admin", "stats"]

end Backend

end MetricRegistry.Api
