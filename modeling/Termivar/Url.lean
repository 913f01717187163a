/-
# Parsed URLs

What the sources read of a value of the `url` crate. Parsing itself is not
modelled; where a source parses, the parser is a parameter.
-/
import Mathlib

namespace Termivar

inductive Host where
  | domain (name : String)
  | ipv4 (address : Nat)
  | ipv6 (address : Nat)
  deriving DecidableEq

/-- A parsed URL. `port` is `port_or_known_default`. -/
structure Url where
  (text scheme : String)
  host : Option Host
  port : Option Nat
  path : String
  (query fragment : Option String)
  username : String
  password : Option String
  deriving DecidableEq

/-- The scheme is `http` or `https`. -/
def Url.isHttp (url : Url) : Bool := url.scheme = "http" || url.scheme = "https"

/-- The origin of a URL over HTTP; that of another scheme is opaque and equal
to no origin. -/
def Url.origin (url : Url) : Option (String × Host × Nat) := do
  let host ← url.host
  let port ← url.port
  if url.isHttp then some (url.scheme, host, port) else none

end Termivar
