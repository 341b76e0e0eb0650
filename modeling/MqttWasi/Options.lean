import MqttWasi.Frame.Reader

namespace MqttWasi

-- Points in time and lengths of time, in nanoseconds.
abbrev Instant := Nat
abbrev Duration := Nat

def Duration.fromSecs (secs : Nat) : Duration := secs * 1000000000

def Duration.fromMillis (millis : Nat) : Duration := millis * 1000000

-- The platform's clock. Its readings are arbitrary; instants later than `latest` have no
-- representation.
structure Clock where
  readings : Nat → Instant
  ticks : Nat := 0
  latest : Instant

namespace Clock

def now (clock : Clock) : Instant :=
  clock.readings clock.ticks

def tick (clock : Clock) : Clock :=
  { clock with ticks := clock.ticks + 1 }

-- `Instant::checked_add`
def checkedAdd (clock : Clock) (start : Instant) (duration : Duration) : Option Instant :=
  if start + duration ≤ clock.latest then some (start + duration) else none

-- No reading of the clock is so late that the duration could not be added to it.
def InRange (clock : Clock) (duration : Duration) : Prop :=
  ∀ n, clock.readings n + duration ≤ clock.latest

end Clock

def pingInterval (keepAliveSecs : UInt16) : Option Duration :=
  if keepAliveSecs ≠ 0 then some (.fromSecs keepAliveSecs.toNat) else none

structure ConnectOptions where
  clientId : String := ""
  keepAliveSecs : UInt16 := 60
  cleanStart : Bool := true
  username : Option String := none
  password : Option Bytes := none
  connectTimeout : Duration := .fromSecs 10
  ackTimeout : Duration := .fromSecs 10
  pollInterval : Duration := .fromMillis 2
  maxPacketSize : Nat := 1024 * 1024
  maxIncomingMessages : Nat := 256
  commandCapacity : Nat := 64
  eventCapacity : Nat := 256
  maxOutboundQueueBytes : Nat := 4 * 1024 * 1024

def ConnectOptions.validate (options : ConnectOptions) (clock : Clock) : Except Error Unit :=
  if options.connectTimeout = 0 then
    .error (.invalidOptions "connect timeout must be non-zero")
  else if options.ackTimeout = 0 then
    .error (.invalidOptions "ack timeout must be non-zero")
  else if options.pollInterval = 0 then
    .error (.invalidOptions "poll interval must be non-zero")
  else if ¬(2 ≤ options.maxPacketSize ∧ options.maxPacketSize ≤ 268435460) then
    .error (.invalidOptions "invalid maximum packet size")
  else if options.maxIncomingMessages = 0 ∨ options.commandCapacity = 0 ∨
      options.eventCapacity = 0 ∨ options.maxOutboundQueueBytes = 0 then
    .error (.invalidOptions "queue capacities must be non-zero")
  else if (clock.checkedAdd clock.now options.connectTimeout).isNone ∨
      (clock.checkedAdd clock.now options.ackTimeout).isNone then
    .error (.invalidOptions "timeout is too large")
  else
    .ok ()

-- The CONNECT packet both clients open a session with.
def ConnectOptions.connectPacket (options : ConnectOptions) (receiveMaximum : Nat) : ConnectPacket where
  protocolVersion := 5
  cleanStart := options.cleanStart
  keepAlive := options.keepAliveSecs
  clientId := options.clientId
  username := options.username
  password := options.password
  properties := Properties.push (Properties.push {}
      .maximumPacketSize (.u32 (.ofNat options.maxPacketSize)))
      .receiveMaximum (.u16 (.ofNat (min receiveMaximum 65535)))

structure PublishOptions where
  qos : QoS := .atMostOnce
  retain : Bool := false
  properties : Properties := {}
  deriving DecidableEq

end MqttWasi
