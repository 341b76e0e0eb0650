import MqttWasi.Driver.Types

namespace MqttWasi

structure RequestOptions where
  responseTopic : String
  qos : QoS := .atLeastOnce
  timeout : Duration := .fromSecs 30
  properties : Properties := {}
  correlationData : Option Bytes := none

def RequestOptions.validate (options : RequestOptions) (clock : Clock) : Except Error Unit :=
  if options.responseTopic.isEmpty then
    .error (.invalidOptions "response topic must not be empty")
  else if hasWildcard options.responseTopic.toList then
    .error (.invalidOptions "response topic must not contain wildcards")
  else if sharePrefix.isPrefixOf options.responseTopic.toList then
    .error (.invalidOptions "response topic must not use the shared-subscription prefix")
  else if options.timeout = 0 then
    .error (.invalidOptions "request timeout must be non-zero")
  else if (clock.checkedAdd clock.now options.timeout).isNone then
    .error (.invalidOptions "request timeout is too large")
  else
    .ok ()

-- The command that `AsyncMqttClient::request` starts. Correlation data that the caller does not
-- supply is a UUID.
def AsyncMqttClient.request (topic : String) (payload : Bytes) (options : RequestOptions)
    (uuid : Bytes) (clock : Clock) : Except Error RequestCommand := do
  options.validate clock
  let correlationData := options.correlationData.getD uuid
  let properties := options.properties.setResponseTopic options.responseTopic
  return {
    topic, payload, correlationData
    responseTopic := options.responseTopic
    qos := options.qos
    timeout := options.timeout
    properties := properties.setCorrelationData correlationData }

-- A command that a handle can submit. Only `request` makes commands for requests.
def Command.Issued : Command → Prop
  | request command _ => ∃ topic payload options uuid clock,
    AsyncMqttClient.request topic payload options uuid clock = .ok command
  | publish .. | subscribe .. | unsubscribe .. | disconnect .. => True

end MqttWasi
