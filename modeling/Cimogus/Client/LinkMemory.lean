import Cimogus.Client.CleanLinks

/-!
# VMess links, one after the other

The closure that reads the query in `vmess_new::Deserialize` is static: it is made in the first call that gets to it,
and refers to the query of that call. Later calls read what has come to the place of a query that is gone.
-/

namespace Cimogus.Client.Serialization.VMessNew

open Lib Lib.Json

/-- A call, with the query that is found where the one of the first call was. -/
structure Call where
  vmessStr : String
  linkAlias : String
  found : Query

variable (qt : Qt)

/-- The call passes the checks before the closure. -/
def reaches (vmessStr : String) : Bool := (qt.url vmessStr).isValid &&
    (((Text.split (qt.url vmessStr).userName '+').filter (· ≠ "tls")).getLast?.getD "") ∈ networkType

/-- The calls of a process; `made` says whether the closure has been made. -/
def results (made : Bool) : List Call → List Deserialized
  | [] => []
  | c :: calls =>
    deserialize qt (if made then some c.found else none) c.vmessStr c.linkAlias ::
      results (made || reaches qt c.vmessStr) calls

def fresh (c : Call) : Deserialized := deserialize qt none c.vmessStr c.linkAlias

variable {qt}

/-- Two links for WebSocket with different hosts. -/
def hostQt : Qt :=
  { bareQt with
    url := fun text =>
      { bareUrl with
        userName := "ws"
        query := [("host", text)] } }

end Cimogus.Client.Serialization.VMessNew
