/-!
# Schemes

The protocol an endpoint is checked over. It only fixes the port that an endpoint without one is
reached at, and the word the scheme is known by.
-/

set_option autoImplicit false

namespace HealthWatch

/-- The protocol of a health check. -/
inductive Scheme where
  | http
  | https
deriving Repr, DecidableEq, Inhabited

namespace Scheme

/-- The port that an endpoint without a port is reached at. -/
def defaultPort : Scheme → UInt16
  | http => 80
  | https => 443

/-- The scheme's word, as it stands in settings and in answers. -/
def word : Scheme → String
  | http => "http"
  | https => "https"

/-- The scheme's name in a listing of fields. -/
def title : Scheme → String
  | http => "Http"
  | https => "Https"

/-- The scheme with a word. -/
def ofWord? (word : String) : Option Scheme :=
  [http, https].find? (fun scheme => scheme.word == word)

end Scheme

end HealthWatch
