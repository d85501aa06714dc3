import MetricRegistry.Text.Utf8

/-! Absolute URLs as the URL Standard reads them, without a base, for the addresses a client is
given: scheme, authority with domain, IPv4 or IPv6 host and port, and path; and appending
percent-encoded path segments. -/

namespace MetricRegistry.Net

/-- Why a text is not a URL. -/
inductive UrlError where
  | relativeWithoutBase
  | emptyHost
  | invalidPort
  | invalidIpv4
  | invalidIpv6
  | invalidDomainCharacter
  | invalidInternationalDomain
  deriving DecidableEq, Repr

/-- The text of a URL error. -/
def UrlError.message : UrlError → String
  | .relativeWithoutBase => "relative URL without a base"
  | .emptyHost => "empty host"
  | .invalidPort => "invalid port number"
  | .invalidIpv4 => "invalid IPv4 address"
  | .invalidIpv6 => "invalid IPv6 address"
  | .invalidDomainCharacter => "invalid domain character"
  | .invalidInternationalDomain => "invalid international domain name"

/-- The path of a URL: segments after the authority, or opaque text. -/
inductive UrlPath where
  | segments (parts : List String)
  | opaqueText (text : String)
  deriving DecidableEq, Repr

/-- A parsed absolute URL, its parts already in their serialized form. -/
structure Url where
  scheme : String
  /-- `user:password@host:port` after `//`, when there is an authority. -/
  authority : Option String
  path : UrlPath
  query : Option String
  fragment : Option String
  deriving DecidableEq, Repr

/-- The text of a path. -/
def UrlPath.text : UrlPath → String
  | .segments parts => String.join (parts.map ("/" ++ ·))
  | .opaqueText t => t

/-- The text of a URL. -/
def Url.text (u : Url) : String :=
  u.scheme ++ ":" ++ (match u.authority with | some a => "//" ++ a | none => "") ++ u.path.text ++
    (match u.query with | some q => "?" ++ q | none => "") ++
    (match u.fragment with | some f => "#" ++ f | none => "")

/-! ## Percent-encoding -/

/-- An uppercase hexadecimal digit. -/
def upperHex (n : Nat) : Char := Char.ofNat (if n < 10 then 48 + n else 55 + n)

/-- A byte as `%XY`. -/
def percentByte (b : UInt8) : String :=
  String.ofList ['%', upperHex (b.toNat / 16), upperHex (b.toNat % 16)]

/-- A character, its UTF-8 bytes percent-encoded when `inSet` holds of it or it is not ASCII. -/
def encodeChar (inSet : Char → Bool) (c : Char) : String :=
  if c.toNat < 0x80 && !inSet c then c.toString
  else String.join ((String.singleton c).toUTF8.toList.map percentByte)

/-- The C0 controls and the characters above `~`. -/
def controlSet (c : Char) : Bool := c.toNat < 0x20 || c.toNat > 0x7E

/-- Characters a fragment encodes. -/
def fragmentSet (c : Char) : Bool :=
  controlSet c || c = ' ' || c = '"' || c = '<' || c = '>' || c = '`'

/-- Characters a query encodes; a special URL's query also encodes the apostrophe. -/
def querySet (special : Bool) (c : Char) : Bool :=
  controlSet c || c = ' ' || c = '"' || c = '#' || c = '<' || c = '>' || (special && c = '\'')

/-- Characters a path segment encodes. -/
def pathSet (c : Char) : Bool :=
  fragmentSet c || c = '#' || c = '?' || c = '\x7b' || c = '\x7d'

/-- Characters the user and password encode. -/
def userinfoSet (c : Char) : Bool :=
  pathSet c || c = '/' || c = ':' || c = ';' || c = '=' || c = '@' || c = '[' || c = '\\' ||
    c = ']' || c = '^' || c = '|'

/-- A text with each character encoded by `inSet`. -/
def encodeWith (inSet : Char → Bool) (s : List Char) : String :=
  String.join (s.map (encodeChar inSet))

/-- The value of a hexadecimal digit. -/
def hexDigitValue (c : Char) : Option Nat :=
  if '0' ≤ c && c ≤ '9' then some (c.toNat - 48)
  else if 'a' ≤ c && c ≤ 'f' then some (c.toNat - 87)
  else if 'A' ≤ c && c ≤ 'F' then some (c.toNat - 55)
  else none

/-- Percent-decoded bytes: `%` followed by two hexadecimal digits is the byte they write, any
other byte stands for itself. -/
def percentDecode : List UInt8 → List UInt8
  | [] => []
  | 37 :: h :: l :: rest =>
    match hexDigitValue (Char.ofNat h.toNat), hexDigitValue (Char.ofNat l.toNat) with
    | some a, some b => UInt8.ofNat (16 * a + b) :: percentDecode rest
    | _, _ => 37 :: percentDecode (h :: l :: rest)
  | b :: rest => b :: percentDecode rest

/-! ## Hosts -/

/-- The special schemes and their default ports. -/
def defaultPort : String → Option (Option Nat)
  | "http" | "ws" => some (some 80)
  | "https" | "wss" => some (some 443)
  | "ftp" => some (some 21)
  | "file" => some none
  | _ => none

/-- A scheme with an authority always. -/
def isSpecial (scheme : String) : Bool := (defaultPort scheme).isSome

/-- A character that may not stand in a domain. -/
def forbiddenInDomain (c : Char) : Bool :=
  c.toNat ≤ 0x20 || c.toNat = 0x7F || c = '#' || c = '%' || c = '/' || c = ':' || c = '<' ||
    c = '>' || c = '?' || c = '@' || c = '[' || c = '\\' || c = ']' || c = '^' || c = '|'

/-- A number in one part of an IPv4 address: decimal, `0x` hexadecimal or `0` octal. -/
def ipv4Number (part : List Char) : Option Nat :=
  let (digits, radix) := match part with
    | '0' :: 'x' :: rest | '0' :: 'X' :: rest => (rest, 16)
    | '0' :: rest@(_ :: _) => (rest, 8)
    | other => (other, 10)
  if digits.isEmpty then (if radix = 10 then none else some 0)
  else digits.foldlM (fun n c => do
    let d ← hexDigitValue c
    if d < radix then pure (radix * n + d) else none) 0

/-- The parts of a would-be IPv4 address, a last empty part dropped. -/
def ipv4Parts (host : String) : List (List Char) :=
  let parts := (host.splitOn ".").map String.toList
  if parts.length > 1 && parts.getLast? == some [] then parts.dropLast else parts

/-- A host that ends in a number is read as an IPv4 address. -/
def endsInNumber (host : String) : Bool :=
  match (ipv4Parts host).getLast? with
  | some last => (!last.isEmpty && last.all Char.isDigit) || (ipv4Number last).isSome &&
      (last.take 2 == ['0', 'x'] || last.take 2 == ['0', 'X'])
  | none => false

/-- The dotted text of an IPv4 address. -/
def ipv4Text (n : Nat) : String :=
  ".".intercalate ([3, 2, 1, 0].map fun k => toString (n / 256 ^ k % 256))

/-- An IPv4 address from its parts; each but the last is below 256, the last fills the rest. -/
def parseIpv4 (host : String) : Except UrlError String := do
  let parts := ipv4Parts host
  if parts.length > 4 then throw .invalidIpv4
  let numbers ← match parts.mapM ipv4Number with
    | some ns => pure ns
    | none => throw .invalidIpv4
  let front := numbers.dropLast
  let last := numbers.getLast?.getD 0
  if front.any (· > 255) then throw .invalidIpv4
  if last ≥ 256 ^ (5 - numbers.length) then throw .invalidIpv4
  let value := front.zipIdx.foldl (fun acc (n, i) => acc + n * 256 ^ (3 - i)) last
  pure (ipv4Text value)

/-- Up to four hexadecimal digits of an IPv6 piece and the rest. -/
def ipv6Piece (cs : List Char) : Option (Nat × List Char) :=
  let digits := (cs.takeWhile fun c => (hexDigitValue c).isSome).take 4
  if digits.isEmpty then none
  else some (digits.foldl (fun n c => 16 * n + (hexDigitValue c).getD 0) 0, cs.drop digits.length)

/-- The pieces of an IPv6 address written without compression, or with an embedded IPv4
address at the end. -/
def ipv6Pieces (cs : List Char) : Nat → Except UrlError (List Nat)
  | 0 => .error .invalidIpv6
  | fuel + 1 =>
    match cs with
    | [] => .ok []
    | _ =>
      if cs.contains '.' && !cs.contains ':' then
        match parseIpv4 (String.ofList cs) with
        | .ok text =>
          let ns := (text.splitOn ".").map String.toNat!
          match ns with
          | [a, b, c, d] =>
            if ((String.ofList cs).splitOn ".").length == 4 then .ok [a * 256 + b, c * 256 + d]
            else .error .invalidIpv6
          | _ => .error .invalidIpv6
        | .error _ => .error .invalidIpv6
      else match ipv6Piece cs with
        | some (n, ':' :: rest@(_ :: _)) => do pure (n :: (← ipv6Pieces rest fuel))
        | some (n, []) => .ok [n]
        | _ => .error .invalidIpv6

/-- The eight pieces of an IPv6 address between brackets. -/
def parseIpv6Pieces (text : String) : Except UrlError (List Nat) := do
  let cs := text.toList
  let fuel := cs.length + 1
  match text.splitOn "::" with
  | [_] =>
    let ps ← ipv6Pieces cs fuel
    if ps.length = 8 then pure ps else throw .invalidIpv6
  | [front, back] =>
    let fs ← if front.isEmpty then pure [] else ipv6Pieces front.toList fuel
    let bs ← if back.isEmpty then pure [] else ipv6Pieces back.toList fuel
    if fs.length + bs.length > 7 then throw .invalidIpv6
    pure (fs ++ List.replicate (8 - fs.length - bs.length) 0 ++ bs)
  | _ => throw .invalidIpv6

/-- The longest run of at least two zero pieces, the first of equal ones: start and length. -/
def longestZeros (ps : List Nat) : Option (Nat × Nat) :=
  let step := fun (acc : Option (Nat × Nat) × Nat × Nat) (p : Nat × Nat) =>
    let (best, start, len) := acc
    let (n, i) := p
    if n = 0 then
      let (start, len) := if len = 0 then (i, 1) else (start, len + 1)
      let best := match best with
        | some (_, l) => if len > l then some (start, len) else best
        | none => some (start, len)
      (best, start, len)
    else (best, start, 0)
  match (ps.zipIdx.foldl step (none, 0, 0)).1 with
  | some (s, l) => if l ≥ 2 then some (s, l) else none
  | none => none

/-- Lowercase hexadecimal digits of `n` without leading zeros. -/
def lowerHex (n : Nat) : String :=
  String.ofList (Nat.toDigits 16 n)

/-- The compressed text of an IPv6 address. -/
def ipv6Text (ps : List Nat) : String :=
  match longestZeros ps with
  | some (s, l) =>
    ":".intercalate ((ps.take s).map lowerHex) ++ "::" ++
      ":".intercalate ((ps.drop (s + l)).map lowerHex)
  | none => ":".intercalate (ps.map lowerHex)

/-- A host of a special URL, in its serialized form. -/
def parseHost (text : String) : Except UrlError String := do
  if text.startsWith "[" then
    if !text.endsWith "]" then throw .invalidIpv6
    let inner := ((text.drop 1).dropEnd 1).toString
    return "[" ++ ipv6Text (← parseIpv6Pieces inner) ++ "]"
  let decoded : String ← match String.fromUTF8? ⟨(percentDecode text.toUTF8.toList).toArray⟩ with
    | some s => pure s
    | none => throw .invalidInternationalDomain
  if decoded.toList.any (fun c => c.toNat ≥ 0x80) then throw .invalidInternationalDomain
  let domain := String.map Char.toLower decoded
  if domain.isEmpty then throw .emptyHost
  if domain.toList.any forbiddenInDomain then throw .invalidDomainCharacter
  if endsInNumber domain then parseIpv4 domain else pure domain

/-- A host of a URL whose scheme is not special: percent-encoded, forbidden characters refused. -/
def parseOpaqueHost (text : String) : Except UrlError String := do
  if text.startsWith "[" then
    if !text.endsWith "]" then throw .invalidIpv6
    let inner := ((text.drop 1).dropEnd 1).toString
    return "[" ++ ipv6Text (← parseIpv6Pieces inner) ++ "]"
  if text.toList.any fun c => c != '%' && forbiddenInDomain c && c.toNat > 0x20 then
    throw .invalidDomainCharacter
  if text.toList.any fun c => c = ' ' then throw .invalidDomainCharacter
  pure (encodeWith controlSet text.toList)

/-! ## Reading -/

/-- The scheme and what follows its colon. -/
def splitScheme (cs : List Char) : Option (String × List Char) :=
  match cs with
  | c :: rest =>
    if c.isAlpha then
      let body := rest.takeWhile fun c => c.isAlphanum || c = '+' || c = '-' || c = '.'
      match rest.drop body.length with
      | ':' :: more => some (String.map Char.toLower (String.ofList (c :: body)), more)
      | _ => none
    else none
  | [] => none

/-- The port of an authority: digits at most 65535; empty means none. -/
def parsePort (scheme : String) (text : List Char) : Except UrlError (Option Nat) := do
  if text.isEmpty then return none
  if !text.all Char.isDigit then throw .invalidPort
  let n := text.foldl (fun n c => 10 * n + (c.toNat - 48)) 0
  if n > 65535 then throw .invalidPort
  if defaultPort scheme == some (some n) then pure none else pure (some n)

/-- Splits `host:port`, a colon inside brackets not counting. -/
def splitHostPort (cs : List Char) : List Char × Option (List Char) :=
  let rec go (inside : Bool) (acc : List Char) : List Char → List Char × Option (List Char)
    | [] => (acc.reverse, none)
    | ':' :: rest => if inside then go inside (':' :: acc) rest else (acc.reverse, some rest)
    | '[' :: rest => go true ('[' :: acc) rest
    | ']' :: rest => go false (']' :: acc) rest
    | c :: rest => go inside (c :: acc) rest
  go false [] cs

/-- The serialized authority. -/
def parseAuthority (scheme : String) (cs : List Char) : Except UrlError String := do
  let special := isSpecial scheme
  let (userinfo, hostPort) := match cs.reverse.findIdx? (· = '@') with
    | some i => (some (cs.take (cs.length - 1 - i)), cs.drop (cs.length - i))
    | none => (none, cs)
  let (hostText, portText) := splitHostPort hostPort
  let host ← if hostText.isEmpty then
      (if scheme = "file" then pure "" else if special then throw .emptyHost else pure "")
    else if special then parseHost (String.ofList hostText)
    else parseOpaqueHost (String.ofList hostText)
  if host.isEmpty && (userinfo.isSome || portText.isSome) && special then throw .emptyHost
  let port ← match portText with
    | some p => parsePort scheme p
    | none => pure none
  let user := match userinfo with
    | some u =>
      let (name, pass) := match u.findIdx? (· = ':') with
        | some i => (u.take i, some (u.drop (i + 1)))
        | none => (u, none)
      let nameText := encodeWith userinfoSet name
      let passText := match pass with
        | some p => if p.isEmpty then "" else ":" ++ encodeWith userinfoSet p
        | none => ""
      if nameText.isEmpty && passText.isEmpty then "" else nameText ++ passText ++ "@"
    | none => ""
  pure (user ++ host ++ (match port with | some p => ":" ++ toString p | none => ""))

/-- A segment that is `.` in some spelling. -/
def isSingleDot (s : String) : Bool := s = "." || s.toLower = "%2e"

/-- A segment that is `..` in some spelling. -/
def isDoubleDot (s : String) : Bool :=
  s = ".." || s.toLower = ".%2e" || s.toLower = "%2e." || s.toLower = "%2e%2e"

/-- Path segments with dot segments resolved, each already encoded. -/
def resolveSegments (parts : List String) : List String :=
  let n := parts.length
  (parts.zipIdx.foldl (fun acc (p, i) =>
    let last := i + 1 = n
    if isDoubleDot p then
      let acc := acc.dropLast
      if last then acc ++ [""] else acc
    else if isSingleDot p then (if last then acc ++ [""] else acc)
    else acc ++ [p]) [])

/-- The segments of a path text that starts after its first slash. -/
def pathSegments (special : Bool) (cs : List Char) : List String :=
  let parts := (String.ofList (cs.map fun c => if special && c = '\\' then '/' else c)).splitOn "/"
  resolveSegments (parts.map fun p => encodeWith pathSet p.toList)

/-- Splits off the query and the fragment. -/
def splitTail (cs : List Char) : List Char × Option (List Char) × Option (List Char) :=
  let (beforeHash, frag) := match cs.findIdx? (· = '#') with
    | some i => (cs.take i, some (cs.drop (i + 1)))
    | none => (cs, none)
  match beforeHash.findIdx? (· = '?') with
  | some i => (beforeHash.take i, some (beforeHash.drop (i + 1)), frag)
  | none => (beforeHash, none, frag)

/-- Reads a URL without a base. -/
def Url.parse (input : String) : Except UrlError Url := do
  let cs := input.toList.dropWhile (fun c => c.toNat ≤ 0x20)
  let cs := (cs.reverse.dropWhile (fun c => c.toNat ≤ 0x20)).reverse
  let cs := cs.filter fun c => c != '\t' && c != '\n' && c != '\r'
  let (scheme, rest) ← match splitScheme cs with
    | some r => pure r
    | none => throw .relativeWithoutBase
  let special := isSpecial scheme
  let (body, query, fragment) := splitTail rest
  let query := query.map (encodeWith (querySet special))
  let fragment := fragment.map (encodeWith fragmentSet)
  let isSlash := fun c => c = '/' || (special && c = '\\')
  if special || body.take 2 == ['/', '/'] then
    let afterSlashes := if special then body.dropWhile isSlash else body.drop 2
    let authorityText := afterSlashes.takeWhile fun c => !isSlash c
    let pathText := afterSlashes.drop authorityText.length
    let authority ← parseAuthority scheme authorityText
    let segments := match pathText with
      | [] => if special then [""] else []
      | _ :: more => pathSegments special more
    pure { scheme, authority := some authority, path := .segments segments, query, fragment }
  else match body with
    | '/' :: more =>
      pure { scheme, authority := none, path := .segments (pathSegments false more), query, fragment }
    | _ =>
      pure { scheme, authority := none, path := .opaqueText (encodeWith controlSet body), query,
             fragment }

/-- The URL with `segments` appended to its path: a last empty segment is removed first, and
each new segment is encoded with its slashes. None when the path is opaque. -/
def Url.appendSegments (u : Url) (segments : List String) : Option Url :=
  match u.path with
  | .opaqueText _ => none
  | .segments parts =>
    let parts := if parts.getLast? == some "" then parts.dropLast else parts
    -- a path of one empty segment is the bare root, which the first new segment replaces
    let parts := if parts == [""] then [] else parts
    let special := isSpecial u.scheme
    let encode := fun (s : String) => encodeWith
      (fun c => pathSet c || c = '/' || (special && c = '\\'))
      (s.toList.filter fun c => c != '\t' && c != '\n' && c != '\r')
    let added := (segments.filter fun s => s != "." && s != "..").map encode
    some { u with path := .segments (parts ++ added) }

end MetricRegistry.Net
