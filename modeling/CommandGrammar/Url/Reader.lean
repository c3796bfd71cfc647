import CommandGrammar.Url
import CommandGrammar.Url.Host
import CommandGrammar.Url.Path

/-!
# Reading addresses

An absolute address in the form browsers read: control characters and spaces around it and line
breaks in it do not count. Six schemes are well known: theirs are hosts, default ports, and
backslashes for slashes.
-/

namespace CommandGrammar.Url

def defaultPort (scheme : String) : Option Nat :=
  match scheme with
  | "http" | "ws" => some 80
  | "https" | "wss" => some 443
  | "ftp" => some 21
  | _ => none

/-- Whether a scheme is well known; files are one of them. -/
def isSpecial (scheme : String) : Bool :=
  ["http", "https", "ws", "wss", "ftp", "file"].contains scheme

/-- The text without surrounding controls and spaces, and without line breaks and tabs. -/
def strip (cs : List Char) : List Char :=
  let low (c : Char) : Bool := c.toNat ≤ 0x20
  let inner := ((cs.dropWhile low).reverse.dropWhile low).reverse
  inner.filter fun c => c != '\t' && c != '\n' && c != '\r'

/-- The scheme in small letters and the text after its colon. -/
def readScheme (cs : List Char) : Option (String × List Char) :=
  match cs.span (· != ':') with
  | (c :: rest, _ :: tail) =>
    if c.isAlpha && rest.all (fun d => d.isAlphanum || d == '+' || d == '-' || d == '.') then
      some (String.ofList ((c :: rest).map Char.toLower), tail)
    else none
  | _ => none

def endsAuthority (special : Bool) (c : Char) : Bool :=
  c == '/' || c == '?' || c == '#' || (special && c == '\\')

/-- The text before the last occurrence of a character, and after it. -/
def splitLast (sep : Char) (cs : List Char) : Option (List Char × List Char) :=
  (Text.splitOnce sep cs.reverse).map fun (right, left) => (left.reverse, right.reverse)

/-- User information: name and password, an empty password left out. -/
def userText (cs : List Char) : Option String :=
  let enc (t : List Char) : String := String.ofList (Percent.encode Percent.inUser t)
  match Text.splitOnce ':' cs with
  | none => if cs.isEmpty then none else some (enc cs)
  | some (name, []) => if name.isEmpty then none else some (enc name)
  | some (name, password) => some (enc name ++ ":" ++ enc password)

/-- The host's text, up to a colon outside brackets, and the rest. -/
def spanHost : (inside : Bool) → List Char → List Char × List Char
  | _, [] => ([], [])
  | inside, c :: rest =>
    if c = ':' && !inside then ([], c :: rest)
    else
      let inside := if c = '[' then true else if c = ']' then false else inside
      let (host, rest) := spanHost inside rest
      (c :: host, rest)

/-- The port after a colon: none if it is left out or the scheme's own. -/
def readPort (scheme : String) : List Char → Option (Option Nat)
  | [] => some none
  | ':' :: [] => some none
  | ':' :: digits => do
    if !digits.all Char.isDigit then none
    let n ← Numeral.natural 10 digits
    if 65535 < n then none
    else if defaultPort scheme = some n then some none
    else some (some n)
  | _ => none

/-- The authority of a text that reaches to its end. -/
def readAuthority (scheme : String) (cs : List Char) : Option Authority := do
  let special := isSpecial scheme
  let (user, place) := match splitLast '@' cs with
    | none => (none, cs)
    | some (user, place) => (some user, place)
  if user.isSome && place.isEmpty then none
  let (host, rest) := spanHost false place
  let host ← if special then Host.special host else Host.general host
  if host.isEmpty && (user.isSome || !rest.isEmpty) then none
  return ⟨user.bind userText, host, ← readPort scheme rest⟩

/-- The host of a file: none, or a host that is not this machine's own name. -/
def readFileHost (cs : List Char) : Option String :=
  if cs.isEmpty then some ""
  else (Host.special cs).map fun h => if h = "localhost" then "" else h

/-- The path, query and fragment of a text. -/
def splitTail (cs : List Char) : List Char × Option (List Char) × Option (List Char) :=
  let (front, fragment) := match Text.splitOnce '#' cs with
    | some (front, fragment) => (front, some fragment)
    | none => (cs, none)
  match Text.splitOnce '?' front with
  | some (path, query) => (path, some query, fragment)
  | none => (front, none, fragment)

/-- A text without the slash it begins with. -/
def dropSlash (cs : List Char) : List Char :=
  match cs with
  | '/' :: rest => rest
  | '\\' :: rest => rest
  | _ => cs

def readFile (cs : List Char) : Option (Authority × String) :=
  let slash (c : Char) : Bool := c == '/' || c == '\\'
  let here (cs : List Char) : Authority × String :=
    ((⟨none, "", none⟩ : Authority), UrlPath.normal true true cs)
  match cs with
  | a :: b :: rest =>
    if slash a && slash b then
      let (host, path) := rest.span fun c => !slash c
      if UrlPath.isDrive host then some (here rest)
      else (readFileHost host).map fun h =>
        let path := dropSlash path
        match UrlPath.resolve true [] (UrlPath.segments true path) with
        | s :: _ =>
          (⟨none, if UrlPath.isDrive s then "" else h, none⟩, UrlPath.normal true true path)
        | [] => (⟨none, h, none⟩, UrlPath.normal true true path)
    else if slash a then some (here (b :: rest))
    else some (here cs)
  | _ => some (here (dropSlash cs))

/-- Authority and path of a well-known scheme other than files. -/
def readSpecial (scheme : String) (cs : List Char) : Option (Authority × String) := do
  let body := cs.dropWhile fun c => c == '/' || c == '\\'
  let (place, path) := body.span fun c => !endsAuthority true c
  return (← readAuthority scheme place, UrlPath.normal true false (dropSlash path))

def readGeneral (scheme : String) (cs : List Char) : Option (Option Authority × String) :=
  match cs with
  | '/' :: '/' :: rest => do
    let (place, path) := rest.span fun c => !endsAuthority false c
    let path := match path with
      | '/' :: rest => UrlPath.normal false false rest
      | _ => ""
    return (some (← readAuthority scheme place), path)
  | '/' :: rest => some (none, UrlPath.normal false false rest)
  | _ => some (none, String.ofList (Percent.encode Percent.controls cs))

/-- The address a text stands for. -/
def ofString? (s : String) : Option Url := do
  let (scheme, rest) ← readScheme (strip s.toList)
  let (body, query, fragment) := splitTail rest
  let (authority, path) ←
    if scheme = "file" then (readFile body).map fun (a, p) => (some a, p)
    else if isSpecial scheme then (readSpecial scheme body).map fun (a, p) => (some a, p)
    else readGeneral scheme body
  return {
    scheme, authority, path
    query := query.map fun q =>
      String.ofList (Percent.encode (Percent.inQuery (isSpecial scheme)) q)
    fragment := fragment.map fun f => String.ofList (Percent.encode Percent.inFragment f) }

end CommandGrammar.Url
