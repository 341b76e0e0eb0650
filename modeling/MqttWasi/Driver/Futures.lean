import MqttWasi.Library.Machine
import MqttWasi.Driver.Run

namespace MqttWasi

-- The future of a request: `AsyncMqttClient::request` once the request has been started, and the
-- `RequestCancellation` that it owns.
structure RequestFuture where
  correlationData : Bytes
  result : Sender
  deriving DecidableEq

def Command.future? : Command → Option RequestFuture
  | request command result => some ⟨command.correlationData, result⟩
  | publish .. | subscribe .. | unsubscribe .. | disconnect .. => none

-- Whether the sending half of the channel that the future waits for is still there.
def MqttConnection.retains (connection : MqttConnection) (future : RequestFuture) : Bool :=
  future ∈ connection.commands.filterMap (·.future?) ||
  (connection.pendingRequests.lookup future.correlationData).any (·.result = future.result)

-- The driver and the futures that are alive: they have neither completed nor been dropped. It is
-- recorded which requests have been registered and which futures have set a cancellation mark, the
-- latest first.
structure Scene where
  driver : Driver
  futures : List RequestFuture := []
  registered : List RequestFuture := []
  cancelled : List RequestFuture := []

namespace Scene

inductive Action
  | driver (input : Input)
  | request (command : RequestCommand) (result : Sender)
  | finish (future : RequestFuture)
  | cancel (future : RequestFuture)
  deriving DecidableEq

-- What only the futures of requests do.
def ofFuture : Input → Bool
  | .submit (.request _ _) | .finishRequest _ | .cancelRequest _ => true
  | _ => false

def start (options : ConnectOptions) (connack : ConnAckPacket) (clock : Clock) : Scene where
  driver := .start options connack clock

-- A future is ready once a reply has been sent or the sending half has been dropped.
def ready (scene : Scene) (future : RequestFuture) : Bool :=
  !scene.driver.connection.retains future || (scene.driver.phase matches .stopped _)

-- A future that is dropped has dropped the receiving half of its channel before.
def step (scene : Scene) : Action → Option Scene
  | .driver input =>
    if ofFuture input then none
    else (scene.driver.step input).map fun driver => { scene with driver }
  | .request command result =>
    (scene.driver.step (.submit (.request command result))).map fun driver =>
      { scene with
        driver
        futures := ⟨command.correlationData, result⟩ :: scene.futures
        registered := ⟨command.correlationData, result⟩ :: scene.registered }
  | .finish future =>
    if future ∈ scene.futures ∧ scene.ready future then
      (scene.driver.step (.finishRequest future.correlationData)).map fun driver =>
        { scene with driver, futures := scene.futures.erase future }
    else
      none
  | .cancel future =>
    if future ∈ scene.futures then
      let marks := scene.driver.connection.requestLifecycle.marks future.correlationData
      (scene.driver.step (.cancelRequest future.correlationData)).map fun driver =>
        { scene with
          driver
          futures := scene.futures.erase future
          cancelled := if marks then future :: scene.cancelled else scene.cancelled }
    else
      none

-- The request that was the last to register some correlation data, and the future that was the
-- last to set a cancellation mark for it.

def registrant (scene : Scene) (correlationData : Bytes) : Option RequestFuture :=
  scene.registered.find? (·.correlationData = correlationData)

def canceller (scene : Scene) (correlationData : Bytes) : Option RequestFuture :=
  scene.cancelled.find? (·.correlationData = correlationData)

-- A request that is registered, and one that has a cancellation mark.

def Registered (scene : Scene) (request : RequestFuture) : Prop :=
  request.correlationData ∈ scene.driver.connection.requestLifecycle.active ∧
    scene.registrant request.correlationData = some request

def Marked (scene : Scene) (request : RequestFuture) : Prop :=
  request.correlationData ∈ scene.driver.connection.requestLifecycle.cancelled ∧
    scene.registrant request.correlationData = some request

-- The driver is about to drop a request because there is a cancellation mark.
def Discards (scene : Scene) (request : RequestFuture) : Prop :=
  request.correlationData ∈ scene.driver.connection.requestLifecycle.cancelled ∧
    match scene.driver.phase with
    | .drainCancellations =>
      (scene.driver.connection.pendingRequests.lookup request.correlationData).any
        (·.result = request.result)
    | .drainCommands (_ + 1) | .recv _ =>
      scene.driver.connection.commands.head?.bind (·.future?) = some request
    | _ => False

end Scene
end MqttWasi
