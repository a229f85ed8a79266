import HealthWatch.Scheme
import HealthWatch.Text.Quoted

/-!
# Endpoints

A network destination: a host and, if one is given, a port. An endpoint is its host and port and
nothing else, so equality is that of the two parts, and the order goes by the host's text first.

`Endpoint.authority` is the text an endpoint is shown by, and `Endpoint.checkTarget` the place a
health check of it goes to.
-/

set_option autoImplicit false

namespace HealthWatch

/-- A host with an optional port. Any text is a host. -/
structure Endpoint where
  host : String
  port : Option UInt16 := none
deriving Repr, DecidableEq, Hashable, Inhabited

namespace Endpoint

/-- The port, or another one where there is none. -/
def portOr (e : Endpoint) (other : UInt16) : UInt16 :=
  e.port.getD other

/-- The same host at a given port. -/
def withPort (e : Endpoint) (port : UInt16) : Endpoint :=
  { e with port := some port }

/-- The same host without a port. -/
def withoutPort (e : Endpoint) : Endpoint :=
  { e with port := none }

/-- The endpoint with a port that says what is assumed anyway left out. -/
def withoutDefaultPort (e : Endpoint) (assumed : UInt16) : Endpoint :=
  if e.port = some assumed then e.withoutPort else e

/-- Where a health check goes: to the overriding port if there is one, else to the endpoint
itself; the scheme's own port is never spelled out. -/
def checkTarget (e : Endpoint) (scheme : Scheme) (override : Option UInt16) : Endpoint :=
  match override with
  | none => e.withoutDefaultPort scheme.defaultPort
  | some port => (e.withPort port).withoutDefaultPort scheme.defaultPort

/-- The characters of the authority text: a host with a colon stands in brackets, a port follows
a colon. -/
def authorityChars (e : Endpoint) : List Char :=
  let host := e.host.toList
  let shown := if host.contains ':' then '[' :: (host ++ [']']) else host
  match e.port with
  | none => shown
  | some port => shown ++ ':' :: Nat.toDigits 10 port.toNat

/-- The authority text of an endpoint. -/
def authority (e : Endpoint) : String :=
  String.ofList e.authorityChars

/-- The order of endpoints: by host, then without a port before any port, then by port. -/
def le (a b : Endpoint) : Bool :=
  if a.host = b.host then
    match a.port, b.port with
    | none, _ => true
    | some _, none => false
    | some p, some q => p ≤ q
  else a.host < b.host

/-- A listing of the fields, for diagnostics. -/
def fields (e : Endpoint) : String :=
  let port := match e.port with
    | none => "None"
    | some port => "Some(" ++ toString port.toNat ++ ")"
  "Endpoint \x7b host: " ++ Text.quoted e.host ++ ", port: " ++ port ++ " \x7d"

end Endpoint

end HealthWatch
