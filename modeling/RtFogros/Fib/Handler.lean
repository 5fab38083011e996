import RtFogros.Lib.Mealy
import RtFogros.Fib.Structs
import Mathlib.Data.Finset.Basic
import Mathlib.Logic.Function.Basic

/-!
# The forwarding handler

`service_connection_fib_handler` as a machine: its input is what `select!` takes
next, a packet of `fib_rx` or an update of `channel_rx`, and its output the packets
it sends and the lines it logs.  Every branch of the Request arm ends in `continue`
before `sent_requests_by_interface` is reached, so that map stays empty and is left
out.

The clock and the default interface are read with each packet.  A failed `unwrap` ends the task:
`Fib.aborted` takes everything that comes after it and sends nothing.
-/

namespace RtFogros

structure FibHandler (Tx : Type) where
  ribStateTable : GDPName → Option (FIBState Tx) := fun _ => none
  processedRequests : Finset (Option GDPName) := ∅
  requestLatencyTable : GDPName → Option Nat := fun _ => none

/-- The handler's task: in its loop, or past a failed `unwrap`. -/
inductive Fib (Tx : Type) where
  | running (h : FibHandler Tx)
  | aborted

/-- What the handler reads from its surroundings while it serves a packet:
`SystemTime::now` in nanoseconds and `default_net::get_default_interface`, `none`
being its error. -/
structure Reading where
  now : Nat
  defaultInterface : Option String

inductive FibEvent (Tx : Type) where
  | packet (reading : Reading) (pkt : GDPPacket)
  | update (update : FibStateChange Tx)

/-- A packet sent to the entry `dst` that stands at index `slot` of the receivers
of `pkt.gdpname`. -/
structure Sent (Tx : Type) where
  slot : Nat
  dst : FibConnection Tx
  pkt : GDPPacket
deriving DecidableEq

inductive LogLine (Tx : Type) where
  | requestDup (guid source : GDPName)
  | request (guid source : GDPName) (dst : FibConnection Tx)
  | responseDup (guid source : GDPName) (micros : Nat) (description : Option String)
  | response (guid source : GDPName) (micros : Nat) (description : Option String)
deriving DecidableEq

structure FibOutput (Tx : Type) where
  sends : List (Sent Tx) := []
  logs : List (LogLine Tx) := []

namespace FibHandler

variable {Tx : Type}

def receiversOf (h : FibHandler Tx) (topic : GDPName) : List (FibConnection Tx) :=
  match h.ribStateTable topic with
  | some s => s.receivers
  | none => []

/-! ## The packet arm -/

/-- An entry, with its index, that a packet of some action is meant for. -/
def Listens (type : FibConnectionType) (entry : FibConnection Tx × Nat) : Prop :=
  entry.1.state = .running ∧ entry.1.connectionType = type

instance (type : FibConnectionType) (entry : FibConnection Tx × Nat) :
    Decidable (Listens type entry) := inferInstanceAs (Decidable (_ ∧ _))

def sendTo (pkt : GDPPacket) (entry : FibConnection Tx × Nat) : Sent Tx :=
  ⟨entry.2, entry.1, pkt⟩

/-- The loop of the Forward arm, which inserts the guid at every send. -/
def forwardLoop (pkt : GDPPacket) : List (FibConnection Tx × Nat) → Finset (Option GDPName) →
    Finset (Option GDPName) × List (Sent Tx)
  | [], processed => (processed, [])
  | entry :: rest, processed =>
    if Listens .receiver entry then
      let (processed, sends) := forwardLoop pkt rest (insert pkt.guid processed)
      (processed, sendTo pkt entry :: sends)
    else forwardLoop pkt rest processed

def forwardArm (h : FibHandler Tx) (pkt : GDPPacket) : Fib Tx × FibOutput Tx :=
  if pkt.guid ∈ h.processedRequests then (.running h, {})
  else
    let (processed, sends) :=
      forwardLoop pkt (h.receiversOf pkt.gdpname).zipIdx h.processedRequests
    (.running { h with processedRequests := processed }, { sends })

structure RequestLoop (Tx : Type) where
  finished : Bool
  output : FibOutput Tx

/-- The loop of the Request arm.  The packet is sent before its guid is unwrapped
for the log. -/
def requestLoop (defaultNetworkInterface : String) (pkt : GDPPacket) :
    List (FibConnection Tx × Nat) → RequestLoop Tx
  | [] => ⟨true, {}⟩
  | entry :: rest =>
    if Listens .requestReceiver entry then
      match entry.1.interface with
      | none => ⟨false, {}⟩
      | some interface =>
        if interface = "ros" ∨ interface = defaultNetworkInterface then
          match pkt.guid with
          | none => ⟨false, { sends := [sendTo pkt entry] }⟩
          | some guid =>
            let later := requestLoop defaultNetworkInterface pkt rest
            ⟨later.finished,
              { sends := sendTo pkt entry :: later.output.sends
                logs := .request guid pkt.source entry.1 :: later.output.logs }⟩
        else requestLoop defaultNetworkInterface pkt rest
    else requestLoop defaultNetworkInterface pkt rest

def requestArm (h : FibHandler Tx) (reading : Reading) (pkt : GDPPacket) :
    Fib Tx × FibOutput Tx :=
  if pkt.guid ∈ h.processedRequests then
    match pkt.guid with
    | none => (.aborted, {})
    | some guid => (.running h, { logs := [.requestDup guid pkt.source] })
  else
    let h := { h with
      requestLatencyTable := Function.update h.requestLatencyTable pkt.gdpname (some reading.now) }
    match reading.defaultInterface with
    | none => (.running h, {})
    | some defaultNetworkInterface =>
      let loop := requestLoop defaultNetworkInterface pkt (h.receiversOf pkt.gdpname).zipIdx
      (if loop.finished then .running h else .aborted, loop.output)

/-- The Response arm: the entry of the latency table, the clock and the guid are
unwrapped before anything else. -/
def responseArm (h : FibHandler Tx) (reading : Reading) (pkt : GDPPacket) :
    Fib Tx × FibOutput Tx :=
  match h.requestLatencyTable pkt.gdpname, pkt.guid with
  | none, _ | _, none => (.aborted, {})
  | some requested, some guid =>
    if reading.now < requested then (.aborted, {})
    else
      let processingTime := (reading.now - requested) / 1000
      if pkt.guid ∈ h.processedRequests then
        (.running h, { logs := [.responseDup guid pkt.source processingTime pkt.description] })
      else
        let entries := (h.receiversOf pkt.gdpname).zipIdx.filter (Listens .responseReceiver ·)
        (.running { h with processedRequests := insert pkt.guid h.processedRequests },
          { sends := entries.map (sendTo pkt)
            logs := [.response guid pkt.source processingTime pkt.description] })

def packetArm (h : FibHandler Tx) (reading : Reading) (pkt : GDPPacket) : Fib Tx × FibOutput Tx :=
  match pkt.action with
  | .forward => h.forwardArm pkt
  | .request => h.requestArm reading pkt
  | .response => h.responseArm reading pkt
  | _ => (.running h, {})

/-! ## The update arm -/

def startsWith (s pattern : String) : Bool := pattern.toList.isPrefixOf s.toList

/-- The table of `read_binding_table`, absent if it could not be read. -/
abbrev BindingTable := Option (String → Option String)

/-- The test of an interface and an address against the binding table. -/
def filtered (bindingTable : BindingTable) (interface address : String) : Bool :=
  match bindingTable with
  | none => false
  | some table =>
    let inBindingTable := match table interface with
      | some pattern => startsWith address pattern
      | none => false
    interface != "ros" && !inBindingTable

/-- Appends to the receivers of a topic, or creates its entry. -/
def push (h : FibHandler Tx) (topic : GDPName) (dst : FibConnection Tx) : FibHandler Tx :=
  { h with
    ribStateTable := Function.update h.ribStateTable topic
      (some ⟨match h.ribStateTable topic with
        | some v => v.receivers ++ [dst]
        | none => [dst]⟩) }

def updateArm (bindingTable : BindingTable) (h : FibHandler Tx) (update : FibStateChange Tx) :
    Fib Tx :=
  match update.action with
  | .add =>
    if update.connectionType = .receiver ∨ update.connectionType = .requestReceiver ∨
        update.connectionType = .responseReceiver then
      match update.interface, update.address with
      | none, _ | _, none => .aborted
      | some updateInterface, some updateAddress =>
        if filtered bindingTable updateInterface updateAddress then .running h
        else match update.forwardDestination with
          | none => .aborted
          | some tx => .running <| h.push update.topicGdpName
              { state := .running, connectionType := update.connectionType, tx,
                description := update.description, interface := update.interface,
                address := update.address }
    else .running h
  | _ => .running h

end FibHandler

def Fib.step {Tx : Type} (bindingTable : FibHandler.BindingTable) :
    Fib Tx → FibEvent Tx → Fib Tx × FibOutput Tx
  | .aborted, _ => (.aborted, {})
  | .running h, .packet reading pkt => h.packetArm reading pkt
  | .running h, .update update => (h.updateArm bindingTable update, {})

def Fib.initial {Tx : Type} : Fib Tx := .running {}

end RtFogros
