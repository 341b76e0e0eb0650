import MqttWasi.Options

namespace MqttWasi

-- A blocking transport, given by the results of the calls that are still to come and the bytes it
-- has accepted so far. A call for which no result is left does not return.
structure Transport where
  reads : List (Except IoError Bytes) := []
  writes : List (Except IoError Nat) := []
  flushes : List (Except IoError Unit) := []
  settings : List (Except IoError Unit) := []
  shutdowns : List (Except IoError Unit) := []
  wire : Bytes := []

namespace Transport

-- A transport cannot accept more bytes than it is given.
def write (transport : Transport) (buf : Bytes) : Option (Except IoError Nat × Transport) :=
  match transport.writes with
  | [] => none
  | .ok n :: writes =>
    let n := min n buf.length
    some (.ok n, { transport with writes, wire := transport.wire ++ buf.take n })
  | .error e :: writes => some (.error e, { transport with writes })

-- Reads at most `capacity` bytes; what does not fit is kept for the next call. The end of the
-- stream is an empty read.
def read (transport : Transport) (capacity : Nat) : Option (Except IoError Bytes × Transport) :=
  match transport.reads with
  | [] => none
  | .ok bytes :: reads =>
    let reads := if bytes.length ≤ capacity then reads else .ok (bytes.drop capacity) :: reads
    some (.ok (bytes.take capacity), { transport with reads })
  | .error e :: reads => some (.error e, { transport with reads })

def flush (transport : Transport) : Option (Except IoError Unit × Transport) :=
  match transport.flushes with
  | []                => none
  | result :: flushes => some (result, { transport with flushes })

-- `set_nonblocking`, `set_read_timeout` and `set_write_timeout`
def configure (transport : Transport) : Option (Except IoError Unit × Transport) :=
  match transport.settings with
  | []                 => none
  | result :: settings => some (result, { transport with settings })

def shutdown (transport : Transport) : Option (Except IoError Unit × Transport) :=
  match transport.shutdowns with
  | []                  => none
  | result :: shutdowns => some (result, { transport with shutdowns })

-- The number of calls of `read` that can still return.
def readable (transport : Transport) : Nat :=
  transport.reads.map (fun | .ok bytes => bytes.length + 1 | .error _ => 1) |>.sum

def writeAll (transport : Transport) (buf : Bytes) : Option (Except IoError Unit × Transport) :=
  go (transport.writes.length + 1) transport buf
where
  go : Nat → Transport → Bytes → Option (Except IoError Unit × Transport)
    | 0, _, _ => none
    | calls + 1, transport, buf =>
      if buf = [] then
        some (.ok (), transport)
      else
        (transport.write buf).bind fun (result, transport) =>
          match result with
          | .ok 0       => some (.error { kind := .writeZero }, transport)
          | .ok written => go calls transport (buf.drop written)
          | .error e    =>
            if e.kind = .interrupted then go calls transport buf else some (.error e, transport)

end Transport
end MqttWasi
