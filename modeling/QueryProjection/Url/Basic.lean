import QueryProjection.Url.Form

set_option autoImplicit false

namespace QueryProjection

structure Url where
  scheme : String
  authority : String
  path : String
  query : Option String
  fragment : Option String
  deriving DecidableEq

namespace Url

def toText (url : Url) : String :=
  let query := match url.query with
    | some query => "?" ++ query
    | none => ""
  let fragment := match url.fragment with
    | some fragment => "#" ++ fragment
    | none => ""
  url.scheme ++ "://" ++ url.authority ++ url.path ++ query ++ fragment

def queryPairs (url : Url) : List (String × String) :=
  match url.query with
  | some query => Form.decode query
  | none => []

def withQueryPairs (url : Url) (pairs : List (String × String)) : Url :=
  { url with query := some (Form.encode pairs) }

def keepsExcept (excluded : String) (c : Char) : Bool :=
  0x21 ≤ c.toNat && c.toNat ≤ 0x7E && !excluded.toList.contains c

def encodePart (excluded : String) (chars : List Char) : String :=
  String.ofList (Percent.encode (keepsExcept excluded) chars)

def pathExcluded : String := "\"<>\x60#?\x7b\x7d"

def queryExcluded : String := "\"#<>'"

def fragmentExcluded : String := "\"<>\x60"

def userExcluded : String := pathExcluded ++ "/:;=@[\\]^|"

def isSlash (c : Char) : Bool := c == '/' || c == '\\'

def endsAuthority (c : Char) : Bool := isSlash c || c == '?' || c == '#'

def dotCount (segment : List Char) : Nat :=
  let plain := String.ofList (segment.map Char.toLower)
  if plain == "." || plain == "%2e" then 1
  else if [".." , ".%2e", "%2e.", "%2e%2e"].contains plain then 2
  else 0

def resolveDots : List (List Char) → List (List Char) → List (List Char)
  | kept, [] => kept.reverse
  | kept, segment :: rest =>
      let dots := dotCount segment
      let parent := if dots == 2 then kept.drop 1 else kept
      if dots == 0 then resolveDots (segment :: kept) rest
      else if rest.isEmpty then ([] :: parent).reverse
      else resolveDots parent rest

def readPath (chars : List Char) : String :=
  let slashes := chars.map fun c => if c == '\\' then '/' else c
  let segments := match slashes with
    | '/' :: rest => Text.splitAtChar '/' rest
    | rest => Text.splitAtChar '/' rest
  "/" ++ "/".intercalate ((resolveDots [] segments).map (encodePart pathExcluded))

def defaultService (scheme : String) : String :=
  if scheme == "https" then "443" else "80"

def splitLast (separator : Char) (chars : List Char) : Option (List Char × List Char) :=
  let reversed := chars.reverse
  if reversed.contains separator then
    some (((reversed.dropWhile fun c => c != separator).drop 1).reverse,
      (reversed.takeWhile fun c => c != separator).reverse)
  else none

def trimZeros (digits : List Char) : List Char :=
  match digits.dropWhile fun c => c == '0' with
  | [] => ['0']
  | rest => rest

/-- Host names are in lower case. A service number follows the last colon unless it is the one that
the scheme stands for. -/
def readHost (scheme : String) (chars : List Char) : Option String :=
  let (host, service) := match splitLast ':' chars with
    | some (host, service) => if service.all Char.isDigit then (host, service) else (chars, [])
    | none => (chars, [])
  -- A colon without a number after it is dropped.
  let name := String.ofList (host.map Char.toLower)
  let serviceText := if service.isEmpty then "" else String.ofList (trimZeros service)
  if host.isEmpty then none
  else if serviceText.isEmpty || serviceText == defaultService scheme then some name
  else some (name ++ ":" ++ serviceText)

def readUser (chars : List Char) : String :=
  let user := chars.takeWhile fun c => c != ':'
  let secret := (chars.dropWhile fun c => c != ':').drop 1
  encodePart userExcluded user ++
    (if secret.isEmpty then "" else ":" ++ encodePart userExcluded secret)

def readAuthority (scheme : String) (chars : List Char) : Option String :=
  match splitLast '@' chars with
  | some (user, host) => do
      let name := readUser user
      let host ← readHost scheme host
      return if name.isEmpty then host else name ++ "@" ++ host
  | none => readHost scheme chars

def isIgnored (c : Char) : Bool := c == '\t' || c == '\n' || c == '\r'

def trimControls (chars : List Char) : List Char :=
  let blank := fun (c : Char) => c.toNat ≤ 0x20
  ((chars.dropWhile blank).reverse.dropWhile blank).reverse

def read? (text : String) : Option Url := do
  let chars := (trimControls text.toList).filter fun c => !isIgnored c
  let scheme := String.ofList ((chars.takeWhile fun c => c != ':').map Char.toLower)
  let rest := (chars.dropWhile fun c => c != ':').drop 1
  if scheme != "http" && scheme != "https" then none
  else
    let rest := rest.dropWhile isSlash
    let authority ← readAuthority scheme (rest.takeWhile fun c => !endsAuthority c)
    let rest := rest.dropWhile fun c => !endsAuthority c
    let beforeFragment := rest.takeWhile fun c => c != '#'
    let fragment := rest.dropWhile fun c => c != '#'
    let path := beforeFragment.takeWhile fun c => c != '?'
    let query := beforeFragment.dropWhile fun c => c != '?'
    let part := fun (excluded : String) (chars : List Char) =>
      if chars.isEmpty then none else some (encodePart excluded (chars.drop 1))
    return ⟨scheme, authority, readPath path, part queryExcluded query,
      part fragmentExcluded fragment⟩

end Url

end QueryProjection
