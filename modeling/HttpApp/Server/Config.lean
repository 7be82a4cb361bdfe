/-
  HttpApp/Server/Config.lean --- how a server is set up.
-/
import HttpApp.Net.Address

set_option autoImplicit false

namespace HttpApp

/-- The setup of a server.  Times are in milliseconds. -/
structure ServerConfig where
  /-- where it listens -/
  address : Address := .loopback 8000
  /-- whether a connection serves more than one request -/
  keepAlive : Bool := true
  /-- how long open connections are waited for at the end -/
  shutdownTimeout : Nat := 30000
  /-- how many bytes a body may have -/
  maxBodySize : Nat := 1048576
  /-- how long a request may take -/
  requestTimeout : Nat := 30000
  deriving DecidableEq, Repr, Inhabited

end HttpApp
