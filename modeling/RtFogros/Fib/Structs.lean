import RtFogros.Packet.Structs

/-!
# The data of the forwarding table

`fib_structs.rs`.  `Tx` is the type of channel handles, `UnboundedSender<GDPPacket>` in the source:
the handler never looks into one.

The ADD updates that the handlers of `ROSManager` send for their channels are written here, in
their four kinds, each with the fields that the source gives it.  `Complete` says of an update that
it carries the fields that the FIB handler unwraps.
-/

namespace RtFogros

inductive FibChangeAction where
  | add
  | pause
  | pauseAdd
  | resume
  | delete
  | state
deriving DecidableEq

inductive FibConnectionType where
  | sender
  | receiver
  | requestSender
  | requestReceiver
  | responseSender
  | responseReceiver
deriving DecidableEq

inductive TopicStateInFIB where
  | running
  | paused
  | deleted
deriving DecidableEq

structure FibStateChange (Tx : Type) where
  action : FibChangeAction
  connectionType : FibConnectionType
  topicGdpName : GDPName
  forwardDestination : Option Tx
  interface : Option String
  address : Option String
  description : Option String

structure FibConnection (Tx : Type) where
  state : TopicStateInFIB
  connectionType : FibConnectionType
  tx : Tx
  description : Option String
  interface : Option String
  address : Option String
deriving DecidableEq

structure FIBState (Tx : Type) where
  receivers : List (FibConnection Tx)

/-! ## The updates of the local ROS handlers -/

section RosUpdates

variable {Tx : Type} (topicGdpName : GDPName) (topicName : String) (rosTx : Tx)

/-- The ADD update of a handler of `ROSManager` for its own channel. -/
def rosUpdate (connectionType : FibConnectionType) (description : String) : FibStateChange Tx :=
  { action := .add, connectionType, topicGdpName, forwardDestination := some rosTx,
    interface := some "ros", description := some description, address := some topicName }

def rosTopicRemotePublisherUpdate : FibStateChange Tx :=
  rosUpdate topicGdpName topicName rosTx .sender "ros topic send"

def rosTopicRemoteSubscriberUpdate : FibStateChange Tx :=
  rosUpdate topicGdpName topicName rosTx .receiver "ros topic receive"

def localRosServiceCallerUpdate : FibStateChange Tx :=
  rosUpdate topicGdpName topicName rosTx .requestReceiver "ros service request"

def remoteRosServiceUpdate : FibStateChange Tx :=
  rosUpdate topicGdpName topicName rosTx .responseReceiver "ros service response"

end RosUpdates

/-- The update carries what the handler unwraps. -/
structure FibStateChange.Complete {Tx : Type} (update : FibStateChange Tx) : Prop where
  interface : update.interface.isSome
  address : update.address.isSome
  forwardDestination : update.forwardDestination.isSome

theorem rosUpdate_complete {Tx : Type} (topicGdpName : GDPName) (topicName : String) (rosTx : Tx)
    (connectionType : FibConnectionType) (description : String) :
    (rosUpdate topicGdpName topicName rosTx connectionType description).Complete :=
  ⟨rfl, rfl, rfl⟩

end RtFogros
