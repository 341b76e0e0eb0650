import MqttWasi.Driver.Commands
import MqttWasi.Driver.Inbound

namespace MqttWasi
namespace MqttConnection

-- A cancelled waiter becomes a tombstone until its acknowledgement arrives: its frame may already
-- be on the wire.
def buryCancelled : DriverM Unit :=
  modify fun connection =>
    { connection with
      pendingAcks := connection.pendingAcks.mapValues fun pending =>
        if pending.kind.result?.any connection.isClosed then pending.bury else pending }

def expireAck (packetId : UInt16) : DriverM Unit := do
  let connection ← get
  match connection.pendingAcks.lookup packetId with
  | none => return
  | some pending =>
    set { connection with pendingAcks := connection.pendingAcks.adjust packetId PendingAck.bury }
    match pending.kind with
    | .responseSubscribe responseTopic =>
      removeResponseSubscription responseTopic
      failRequestsForTopic responseTopic (.timeout pending.timeoutLabel)
    | .requestPublish correlationData =>
      failRequest correlationData (.timeout pending.timeoutLabel)
    | other => failResult other.result? (.timeout pending.timeoutLabel)

def expireRequest (correlationData : Bytes) : DriverM Unit := do
  let connection ← get
  let cancelled :=
    (connection.pendingRequests.lookup correlationData).any (connection.isClosed ·.result)
  if cancelled then
    discard (removeRequest correlationData)
  else
    failRequest correlationData (.timeout "request response")

def expiredAcks (connection : MqttConnection) (now : Instant) : List UInt16 :=
  (connection.pendingAcks.entries.filter fun e =>
    now ≥ e.snd.deadline && !e.snd.kind.isTombstone).map (·.fst)

def expiredRequests (connection : MqttConnection) (now : Instant) : List Bytes :=
  connection.requestsWhere fun pending =>
    now ≥ pending.deadline || connection.isClosed pending.result

def expireOperations : DriverM Unit := do
  let now ← now
  buryCancelled
  ((← get).expiredAcks now).forM expireAck
  ((← get).expiredRequests now).forM expireRequest

-- Whether the connection has been idle for so long that a PINGREQ is due.
def pingDue (connection : MqttConnection) (now : Instant) (interval : Duration) : Bool :=
  !connection.pingQueued && now - connection.lastWriteAt ≥ interval

def servicePing (now : Instant) (interval : Duration) : DriverM Unit := do
  let connection ← get
  match connection.pingOutstandingSince with
  | some sentAt =>
    if now - sentAt ≥ Duration.fromSecs connection.keepAliveSecs.toNat then
      throw .keepAliveTimeout
  | none =>
    if connection.pingDue now interval then
      check (← enqueue pingreqBytes .pingReq none .driver)
      modify ({ · with pingQueued := true })

def maintainKeepAlive : DriverM Unit := do
  match keepAliveInterval (← get).keepAliveSecs with
  | none          => return
  | some interval => servicePing (← now) interval

def nextWaitDuration : DriverM Duration := do
  let now ← now
  let connection ← get
  let wait := connection.pendingAcks.values.foldl
    (fun wait pending => min wait (pending.deadline - now)) connection.pollInterval
  let wait := connection.pendingRequests.values.foldl
    (fun wait pending => min wait (pending.deadline - now)) wait
  match keepAliveInterval connection.keepAliveSecs with
  | none => return wait
  | some interval =>
    match connection.pingOutstandingSince with
    | some sent => return min wait (sent + Duration.fromSecs connection.keepAliveSecs.toNat - now)
    | none =>
      if connection.pingQueued then return wait
      else return min wait (connection.lastWriteAt + interval - now)

-- What `run` does after `run_inner`.
def finish (result : Except Error Unit) : DriverM Unit := do
  failPending
  if !result.isOk ∧ !(← get).terminalEventSent then
    discard (trySend (.disconnected .transportClosed))

end MqttConnection

open MqttConnection

inductive Pass
  | first
  | second
  deriving DecidableEq

-- Where `flush_outbound` is: at the flush that it may start with, in its loop, or at the flush that
-- it may end with.
inductive FlushStage
  | before
  | writing
  | after
  deriving DecidableEq

-- Where `run` is.
inductive Phase
  | drainCancellations
  | drainCommands (left : Nat)
  | flushOutbound (pass : Pass) (stage : FlushStage)
  | readAvailable (left : Nat)
  | decodeAndDispatch
  | expireOperations
  | maintainKeepAlive
  | wait
  | recv (wait : Duration)
  | stopping (result : Except Error Unit)
  | stopped (result : Except Error Unit)
  deriving DecidableEq

structure Driver where
  connection : MqttConnection
  phase : Phase := .drainCancellations

-- What happens next. The transport, the timer and the holders of the handles may do anything at
-- any time that the driver is ready for.
inductive Input
  | proceed
  | written (result : Except IoError Nat)
  | flushed (result : Except IoError Unit)
  | read (result : Except IoError Bytes)
  | elapsed
  | submit (command : Command)
  | dropReceiver (result : Sender)
  | cancelRequest (correlationData : Bytes)
  | finishRequest (correlationData : Bytes)
  | nextEvent
  | dropHandles
  | reorder (packetId : UInt16) (correlationData : Bytes)
  deriving DecidableEq

namespace Driver

-- Performs an action and goes on to the next phase, unless the action fails.
def perform (action : DriverM α) (next : α → MqttConnection → Phase) (connection : MqttConnection) :
    Driver :=
  match action connection with
  | .ok a connection    => { connection, phase := next a connection }
  | .error e connection => { connection, phase := .stopping (.error e) }

def afterFlush (pass : Pass) (connection : MqttConnection) : Phase :=
  if connection.closing && connection.outbound.isEmpty && !connection.needsFlush then
    .stopping (.ok ())
  else
    match pass with
    | .first  => .readAvailable 64
    | .second => .wait

-- Takes a command from the channel and processes it, or notices that there will be no more.
def takeCommand (connection : MqttConnection) (next idle : Phase) : Option Driver :=
  match connection.commands with
  | command :: commands =>
    some (perform (processCommand command) (fun _ _ => next)
      { connection with commands, taken := connection.taken ++ [command] })
  | [] =>
    if connection.handlesDropped then
      some (perform abandonCommands (fun _ _ => idle) connection)
    else
      none

-- The steps of `run` that do not wait for anything.
def proceed (driver : Driver) : Option Driver :=
  let connection := driver.connection
  match driver.phase with
  | .drainCancellations =>
    some (connection |> perform MqttConnection.drainCancellations
      fun _ connection => .drainCommands connection.maxPendingOperations)
  | .drainCommands 0 => some { connection, phase := .flushOutbound .first .before }
  | .drainCommands (left + 1) =>
    some ((takeCommand connection (.drainCommands left) (.flushOutbound .first .before)).getD
      { connection, phase := .flushOutbound .first .before })
  | .flushOutbound pass .before =>
    if connection.needsFlush then none
    else some { connection, phase := .flushOutbound pass .writing }
  | .flushOutbound pass .writing =>
    if connection.outbound.isEmpty then some { connection, phase := .flushOutbound pass .after }
    else none
  | .flushOutbound pass .after =>
    if connection.needsFlush then none
    else some { connection, phase := afterFlush pass connection }
  | .readAvailable 0 => some { connection, phase := .decodeAndDispatch }
  | .readAvailable (_ + 1) =>
    if connection.readCapacity = 0 then some { connection, phase := .decodeAndDispatch } else none
  | .decodeAndDispatch =>
    some (connection |> perform decodeNext
      fun again _ => if again then .decodeAndDispatch else .expireOperations)
  | .expireOperations =>
    some (perform MqttConnection.expireOperations (fun _ _ => .maintainKeepAlive) connection)
  | .maintainKeepAlive =>
    some (connection |> perform MqttConnection.maintainKeepAlive
      fun _ _ => .flushOutbound .second .before)
  | .wait => some (perform nextWaitDuration (fun wait _ => .recv wait) connection)
  | .recv _ => takeCommand connection .drainCancellations .drainCancellations
  | .stopping result => some (perform (finish result) (fun _ _ => .stopped result) connection)
  | .stopped _ => none

-- The results of the calls of the transport.

def written (driver : Driver) (result : Except IoError Nat) : Option Driver :=
  match driver.phase, driver.connection.outbound with
  | .flushOutbound pass .writing, frame :: rest =>
    some (driver.connection |> perform (writeFront frame rest result)
      fun again _ => .flushOutbound pass (if again then .writing else .after))
  | _, _ => none

def flushed (driver : Driver) (result : Except IoError Unit) : Option Driver :=
  if !driver.connection.needsFlush then
    none
  else
    match driver.phase with
    | .flushOutbound pass .before =>
      some (driver.connection |> perform (flushAccepted result) fun accepted connection =>
        if accepted then .flushOutbound pass .writing else afterFlush pass connection)
    | .flushOutbound pass .after =>
      some (driver.connection |> perform (flushAccepted result) fun _ connection =>
        afterFlush pass connection)
    | _ => none

-- A transport returns at most as many bytes as it was asked for.
def read (driver : Driver) (result : Except IoError Bytes) : Option Driver :=
  match driver.phase with
  | .readAvailable (left + 1) =>
    let capacity := driver.connection.readCapacity
    if capacity = 0 ∨ result.toOption.any (·.length > capacity) then
      none
    else
      some (driver.connection |> perform (readNext result) fun again _ =>
        if again then .readAvailable left else .decodeAndDispatch)
  | _ => none

def elapsed (driver : Driver) : Option Driver :=
  match driver.phase with
  | .recv _ => some { driver with phase := .drainCancellations }
  | _       => none

-- What the holders of the handles can do.

-- `send_command`, after the checks of the operation on its arguments
def submit (driver : Driver) (command : Command) : Option Driver :=
  let connection := driver.connection
  if command.result ≠ connection.nextSender ∨ connection.handlesDropped ∨
      connection.commands.length ≥ connection.commandCapacity ∨
      (driver.phase matches .stopped _) then
    none
  else
    let connection := { connection with
      commands := connection.commands ++ [command], nextSender := connection.nextSender + 1 }
    match command with
    | .publish _ payload _ _ =>
      if payload.length > connection.peerMaxPacketSize then none
      else some { driver with connection }
    | .request request _ =>
      if request.payload.length > connection.peerMaxPacketSize then
        none
      else
        match connection.requestLifecycle.register request.correlationData with
        | .error _ => none
        | .ok requestLifecycle =>
          some { driver with connection := { connection with requestLifecycle } }
    | _ => some { driver with connection }

def onConnection (driver : Driver) (f : MqttConnection → MqttConnection) : Driver :=
  { driver with connection := f driver.connection }

def step (driver : Driver) : Input → Option Driver
  | .proceed        => driver.proceed
  | .written result => driver.written result
  | .flushed result => driver.flushed result
  | .read result    => driver.read result
  | .elapsed        => driver.elapsed
  | .submit command => driver.submit command
  | .dropReceiver result =>
    if result < driver.connection.nextSender then
      driver.onConnection fun connection =>
        { connection with droppedReceivers := result :: connection.droppedReceivers }
    else
      none
  | .cancelRequest correlationData => driver.onConnection fun connection =>
    { connection with requestLifecycle := connection.requestLifecycle.cancel correlationData }
  | .finishRequest correlationData => driver.onConnection fun connection =>
    { connection with requestLifecycle := connection.requestLifecycle.finish correlationData }
  | .nextEvent => driver.onConnection fun connection =>
    { connection with events := connection.events.tail }
  | .dropHandles => driver.onConnection ({ · with handlesDropped := true })
  -- The maps of the source are iterated over in no particular order. Bringing an entry to the
  -- front, again and again, gives any order.
  | .reorder packetId correlationData => driver.onConnection fun connection =>
    { connection with
      pendingAcks := connection.pendingAcks.adjust packetId id
      pendingRequests := connection.pendingRequests.adjust correlationData id }

def start (options : ConnectOptions) (connack : ConnAckPacket) (clock : Clock) : Driver where
  connection := .new options connack clock

-- A run of the driver, given by what happens in it.
def run (driver : Driver) : List Input → Option Driver
  | []              => some driver
  | input :: inputs => (driver.step input).bind (run · inputs)

end Driver
end MqttWasi
