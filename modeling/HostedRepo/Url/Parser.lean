import HostedRepo.Url.Basic

/-!
# Reading URLs

A text is read as a URL, alone or against a base. Blanks and controls around it and line breaks
and tabs within it do not count. Dot segments are resolved while the path is read.
-/

namespace HostedRepo.Url

/-- What a URL is read from: without surrounding controls and spaces, line breaks and tabs. -/
def cleaned (s : List Char) : List Char :=
  let edge (c : Char) : Bool := c ≤ ' '
  let inner := (s.dropWhile edge).reverse.dropWhile edge |>.reverse
  inner.filter fun c => c ≠ '\t' && c ≠ '\n' && c ≠ '\r'

/-- The scheme in lower case, and what follows its colon. -/
def readScheme (s : List Char) : Option (String × List Char) :=
  let isPart (c : Char) : Bool := c.isAlphanum || c == '+' || c == '-' || c == '.'
  match s with
  | [] => none
  | c :: _ =>
    if !c.isAlpha then none
    else match s.dropWhile isPart with
      | ':' :: rest => some (String.ofList ((s.takeWhile isPart).map Char.toLower), rest)
      | _ => none

def isSlash (special : Bool) (c : Char) : Bool := c == '/' || (special && c == '\\')

/-- A segment that stands for the directory itself. -/
def isSingleDot (s : List Char) : Bool :=
  s == ['.'] || s.map Char.toLower == "%2e".toList

/-- A segment that stands for the parent directory. -/
def isDoubleDot (s : List Char) : Bool :=
  ["..", ".%2e", "%2e.", "%2e%2e"].any fun d => s.map Char.toLower == d.toList

/-- A letter and a colon, which name a drive in a `file` path; a bar may stand for the colon. -/
def isDrive (s : List Char) : Bool :=
  match s with
  | [a, b] => a.isAlpha && (b == ':' || b == '|')
  | _ => false

/-- The parts without the last one; a drive that stands alone stays. -/
def shorten (file : Bool) (parts : List String) : List String :=
  match parts with
  | [one] => if file && isDrive one.toList && one.toList.getLast? == some ':' then [one] else []
  | parts => parts.dropLast

/-- Adds a segment to the parts before it. A dot segment at the end of the path leaves an empty
part, so that the written form ends with a slash. -/
def addSegment (file : Bool) (parts : List String) (s : List Char) (last : Bool) : List String :=
  if isDoubleDot s then
    let parts := shorten file parts
    if last then parts ++ [""] else parts
  else if isSingleDot s then
    if last then parts ++ [""] else parts
  else if file && parts.isEmpty && isDrive s then
    parts ++ [String.ofList (s.take 1 ++ [':'])]
  else parts ++ [String.ofList s]

/-- Adds segments one by one. -/
def addSegments (file : Bool) (parts : List String) : List (List Char) → List String
  | [] => parts
  | [s] => addSegment file parts s true
  | s :: rest => addSegments file (addSegment file parts s false) rest

/-- The segments of a path text, encoded, added to the parts before it. -/
def readSegments (scheme : String) (parts : List String) (s : List Char) : List String :=
  let slashes := s.map fun c => if isSlash (isSpecial scheme) c then '/' else c
  addSegments (scheme == "file") parts
    ((Text.splitAt '/' slashes).map (Percent.encode Percent.path))

/-- What belongs to a path: all up to a question mark or number sign. -/
def pathText (s : List Char) : List Char :=
  s.takeWhile fun c => c ≠ '?' && c ≠ '#'

def afterPath (s : List Char) : List Char :=
  s.dropWhile fun c => c ≠ '?' && c ≠ '#'

/-- Query and fragment, encoded. -/
def readTail (scheme : String) (s : List Char) : Option String × Option String :=
  let fragment (f : List Char) : String := String.ofList (Percent.encode Percent.fragment f)
  match s with
  | '?' :: rest =>
    let set := if isSpecial scheme then Percent.specialQuery else Percent.query
    let q := String.ofList (Percent.encode set (rest.takeWhile (· ≠ '#')))
    match rest.dropWhile (· ≠ '#') with
    | '#' :: f => (some q, some (fragment f))
    | _ => (some q, none)
  | '#' :: f => (none, some (fragment f))
  | _ => (none, none)

/-- Scheme and authority with the path, query and fragment read from a text. -/
def withPath (scheme : String) (authority : Option Authority) (parts : List String)
    (s : List Char) : Url :=
  let (query, fragment) := readTail scheme (afterPath s)
  ⟨scheme, authority, .segments (readSegments scheme parts (pathText s)), query, fragment⟩

/-- The host text at the front: up to a colon outside brackets. -/
def hostText (inside : Bool) : List Char → List Char × List Char
  | [] => ([], [])
  | c :: s =>
    if c == ':' && !inside then ([], c :: s)
    else
      let (h, rest) := hostText (if c == '[' then true else if c == ']' then false else inside) s
      (c :: h, rest)

/-- Reads a port after its colon; the scheme's default port and no digits give none. -/
def readPort (scheme : String) (s : List Char) : Except Fault (Option Nat × List Char) :=
  let digits := s.takeWhile Char.isDigit
  let rest := s.dropWhile Char.isDigit
  let ended := match rest with
    | [] => true
    | c :: _ => c == '/' || c == '\\' || c == '?' || c == '#'
  match Host.readDigits 10 digits with
  | none => .error .invalidPort
  | some n =>
    if 65535 < n || !ended then .error .invalidPort
    else if digits.isEmpty || defaultPort scheme = some n then .ok (none, rest)
    else .ok (some n, rest)

/-- Reads the authority after the two slashes, and what follows it. -/
def readAuthority (scheme : String) (s : List Char) : Except Fault (Authority × List Char) := do
  let special := isSpecial scheme
  let ends (c : Char) : Bool := c == '?' || c == '#' || isSlash special c
  let body := s.takeWhile (!ends ·)
  let after := s.dropWhile (!ends ·)
  let info := if '@' ∈ body then Text.beforeLast '@' body else []
  let hostPort := if '@' ∈ body then body.drop (info.length + 1) else body
  if '@' ∈ body && info.isEmpty && hostPort.isEmpty && !after.isEmpty then throw .emptyHost
  let encode (t : List Char) : String := String.ofList (Percent.encode Percent.userinfo t)
  let (user, password) : String × Option String :=
    match Text.splitOnce ':' info with
    | none => (encode info, none)
    | some (u, p) => (encode u, if p.isEmpty then none else some (encode p))
  let (name, portText) := hostText false hostPort
  if special && name.isEmpty then throw .emptyHost
  let host ← if special then Host.readSpecial name else Host.readOpaque name
  if host = .domain "" && (portText.head? == some ':' || !user.isEmpty || password.isSome) then
    throw .emptyHost
  let (port, rest) ← match portText with
    | ':' :: digits => readPort scheme (digits ++ after)
    | _ => pure (none, after)
  return (⟨user, password, host, port⟩, rest)

/-- The path, query and fragment that follow an authority. -/
def withRest (scheme : String) (authority : Authority) (rest : List Char) : Url :=
  let special := isSpecial scheme
  match rest with
  | c :: tail =>
    if isSlash special c then withPath scheme (some authority) [] tail
    else if special || !(c == '?' || c == '#') then withPath scheme (some authority) [] rest
    else
      let (query, fragment) := readTail scheme rest
      ⟨scheme, some authority, .segments [], query, fragment⟩
  | [] =>
    if special then withPath scheme (some authority) [] []
    else ⟨scheme, some authority, .segments [], none, none⟩

/-- Reads what follows the two slashes: authority, path, query and fragment. -/
def readAfterSlashes (scheme : String) (s : List Char) : Except Fault Url := do
  let (authority, rest) ← readAuthority scheme s
  return withRest scheme authority rest

/-- Reads a `file` URL after its scheme; the host `localhost` and a drive count as no host. -/
def readFile (s : List Char) : Except Fault Url := do
  let noHost : Authority := { host := .domain "" }
  match s with
  | a :: b :: rest =>
    if isSlash true a && isSlash true b then
      let ends (c : Char) : Bool := c == '?' || c == '#' || isSlash true c
      let name := rest.takeWhile (!ends ·)
      let after := rest.dropWhile (!ends ·)
      if isDrive name then return withPath "file" (some noHost) [] rest
      let host ← if name.isEmpty then pure (Host.domain "") else Host.readSpecial name
      let host := if host = .domain "localhost" then .domain "" else host
      let tail := match after with
        | c :: tail => if isSlash true c then tail else after
        | [] => []
      return withPath "file" (some { host := host }) [] tail
    else if isSlash true a then return withPath "file" (some noHost) [] (b :: rest)
    else return withPath "file" (some noHost) [] s
  | [a] => return withPath "file" (some noHost) [] (if isSlash true a then [] else [a])
  | [] => return withPath "file" (some noHost) [] []

/-- Reads a relative reference against a base whose path is not opaque. -/
def readRelative (base : Url) (s : List Char) : Except Fault Url := do
  let special := isSpecial base.scheme
  let parts := match base.path with
    | .segments ps => ps
    | .opaqueText _ => []
  match s with
  | [] => return { base with fragment := none }
  | '?' :: _ =>
    let (query, fragment) := readTail base.scheme s
    return { base with query := query, fragment := fragment }
  | c :: rest =>
    if isSlash special c || c == '\\' then
      let slashes := s.takeWhile fun c => c == '/' || c == '\\'
      if slashes.length ≥ 2 then
        let rest := match s with
          | '/' :: '/' :: rest => rest
          | _ => s.drop slashes.length
        readAfterSlashes base.scheme rest
      else return withPath base.scheme base.authority [] rest
    else return withPath base.scheme base.authority parts.dropLast s

/-- Reads a text as a URL, against a base if there is one. -/
def parseWith (base : Option Url) (input : String) : Except Fault Url := do
  let s := cleaned input.toList
  match readScheme s with
  | some (scheme, rest) =>
    let slashes := rest.takeWhile fun c => c == '/' || c == '\\'
    if scheme == "file" then readFile rest
    else if isSpecial scheme then
      match base with
      | some b =>
        if slashes.length < 2 && b.scheme == scheme then readRelative b rest
        else readAfterSlashes scheme (rest.drop slashes.length)
      | none => readAfterSlashes scheme (rest.drop slashes.length)
    else match rest with
      | '/' :: '/' :: rest => readAfterSlashes scheme rest
      | '/' :: rest => return withPath scheme none [] rest
      | _ =>
        let (query, fragment) := readTail scheme (afterPath rest)
        let path := String.ofList (Percent.encode Percent.controls (pathText rest))
        return ⟨scheme, none, .opaqueText path, query, fragment⟩
  | none =>
    match base with
    | none => throw .noBase
    | some b =>
      match s with
      | '#' :: _ => return { b with fragment := (readTail b.scheme s).2 }
      | _ => if b.isOpaque then throw .opaqueBase else readRelative b s

/-- Reads a text as a URL of its own. -/
def parse (input : String) : Except Fault Url := parseWith none input

/-- Reads a reference relative to a URL. -/
def join (base : Url) (reference : String) : Except Fault Url := parseWith (some base) reference

end HostedRepo.Url
