import MetricRegistry.Json.Print

/-! HTTP requests and responses as values, with lowercase header names that may repeat. -/

namespace MetricRegistry.Http

/-- A request as a server receives it. -/
structure Request where
  method : String
  /-- The path, optionally followed by `?` and a query. -/
  target : String
  headers : List (String × String) := []
  body : ByteArray := ByteArray.empty

/-- A response as a server sends it. -/
structure Response where
  status : Nat
  headers : List (String × String) := []
  body : ByteArray := ByteArray.empty

/-- The path of a request, without its query. -/
def Request.path (r : Request) : String :=
  (r.target.splitOn "?").headD ""

/-- The first value of a header. -/
def Request.header? (r : Request) (name : String) : Option String :=
  (r.headers.find? (·.1 == name)).map (·.2)

/-- A response with no body. -/
def Response.empty (status : Nat) : Response := { status }

/-- A response whose body is a JSON value. -/
def Response.json (status : Nat) (j : Json) : Response :=
  { status, headers := [("content-type", "application/json")], body := (Json.compact j).toUTF8 }

/-- A response whose body is plain text. -/
def Response.plain (status : Nat) (text : String) : Response :=
  { status, headers := [("content-type", "text/plain; charset=utf-8")], body := text.toUTF8 }

/-- The response with one more header. -/
def Response.withHeader (r : Response) (name value : String) : Response :=
  { r with headers := r.headers ++ [(name, value)] }

/-- The response with its body removed, as an answer to `HEAD`. -/
def Response.withoutBody (r : Response) : Response := { r with body := ByteArray.empty }

end MetricRegistry.Http
