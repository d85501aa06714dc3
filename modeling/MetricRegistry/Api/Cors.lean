import MetricRegistry.Http.Message

/-! Which browser origins may call the interface, and the headers that say so. With no origins
configured any origin may call; an `OPTIONS` request is a preflight answered at once. -/

namespace MetricRegistry.Api

open Http

/-- The origins allowed to call the interface. -/
inductive CorsPolicy where
  | anyOrigin
  | origins (allowed : List String)
  deriving DecidableEq, Repr

/-- A text that may stand as a header value: visible ASCII, tabs and bytes beyond ASCII. -/
def validHeaderValue (s : String) : Bool :=
  s.toUTF8.toList.all fun b => (b ≥ 32 && b != 127) || b == 9

/-- The policy for the configured origins; listing `*` is refused with the reason. -/
def CorsPolicy.ofOrigins (configured : List String) : Except String CorsPolicy :=
  if configured.isEmpty then .ok .anyOrigin
  else
    let allowed := configured.filter validHeaderValue
    if allowed.contains "*" then
      .error ("Wildcard origin (\x60*\x60) cannot be passed to \x60AllowOrigin::list\x60. " ++
        "Use \x60AllowOrigin::any()\x60 instead")
    else .ok (.origins allowed)

/-- The headers a response varies with. -/
def varyText : String := "origin, access-control-request-method, access-control-request-headers"

/-- The response with the policy's headers for a request from `origin`. -/
def CorsPolicy.apply (p : CorsPolicy) (origin : Option String) (preflight : Bool) (r : Response) :
    Response :=
  let r := match p, origin with
    | .anyOrigin, _ => r.withHeader "access-control-allow-origin" "*"
    | .origins allowed, some o => if allowed.contains o then r.withHeader "access-control-allow-origin" o else r
    | .origins _, none => r
  let r := r.withHeader "vary" varyText
  if preflight then
    (r.withHeader "access-control-allow-methods" "*").withHeader "access-control-allow-headers" "*"
  else match p with
    | .anyOrigin => r.withHeader "access-control-expose-headers" "*"
    | .origins _ => r

end MetricRegistry.Api
