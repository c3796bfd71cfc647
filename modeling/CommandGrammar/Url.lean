/-!
# Addresses of resources

An absolute address: a scheme, for most schemes an authority, a path, and optional query and
fragment. All parts are kept as they are written.
-/

namespace CommandGrammar

/-- Who and where: user information, host and port. -/
structure Authority where
  user : Option String := none
  host : String
  port : Option Nat := none
  deriving DecidableEq, Repr

/-- An absolute address. -/
structure Url where
  scheme : String
  authority : Option Authority
  path : String
  query : Option String := none
  fragment : Option String := none
  deriving DecidableEq, Repr

/-- User information, host and port with their marks. -/
def Authority.text (a : Authority) : String :=
  (a.user.elim "" (· ++ "@")) ++ a.host ++ a.port.elim "" fun p => ":" ++ toString p

/-- The text of an address. Without an authority a path that begins like one has a dot before. -/
def Url.text (u : Url) : String :=
  let place := match u.authority with
    | some a => "//" ++ a.text
    | none => if u.path.startsWith "//" then "/." else ""
  u.scheme ++ ":" ++ place ++ u.path ++ u.query.elim "" ("?" ++ ·) ++ u.fragment.elim "" ("#" ++ ·)

end CommandGrammar
