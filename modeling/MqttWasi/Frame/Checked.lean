import MqttWasi.Codec.Checked
import MqttWasi.Frame.Reader

-- The frame reader with the panics of its slices and of its subtraction.

namespace MqttWasi.Checked.FrameReader

open Panics (require)

abbrev ReaderM := Panics.Checked Error FrameReader

def push (data : Bytes) : ReaderM Unit := do
  let reader ← get
  let available := reader.remainingCapacity
  if data.length > available then
    -- `data[..available]` and `data.len() - available`
    require (available ≤ data.length)
    let buf := reader.buf ++ data.take available
    set { reader with buf, overflowSize := some (buf.length + (data.length - available)) }
  else
    set { reader with buf := reader.buf ++ data }

def tryDecode : ReaderM (Option Packet) := do
  let reader ← get
  if let some size := reader.overflowSize then
    throw (.error (.packetTooLarge size reader.maxPacketSize))
  loop 2
where
  -- Out of rounds, the loop of the source would go on.
  loop : Nat → ReaderM (Option Packet)
    | 0 => throw .panic
    | rounds + 1 => do
      let reader ← get
      match reader.state with
      | .readingHeader =>
        if reader.buf.isEmpty then
          return none
        match fresh decodeFixedHeader reader.buf with
        | .ok (header, headerLen) =>
          let totalLen := headerLen + header.remainingLength.toNat
          if totalLen > reader.maxPacketSize then
            throw (.error (.packetTooLarge totalLen reader.maxPacketSize))
          set { reader with state := .readingBody header headerLen totalLen }
          loop rounds
        | .error fault =>
          if fault = .error (.malformedPacket "unexpected end of data") then
            return none
          else
            throw fault
      | .readingBody header headerLen totalLen =>
        if reader.buf.length < totalLen then
          return none
        -- `&self.buf[header_len..total_len]` and `self.buf.drain(..total_len)`
        require (headerLen ≤ totalLen ∧ totalLen ≤ reader.buf.length)
        match Packet.decode header ((reader.buf.take totalLen).drop headerLen) with
        | .ok packet =>
          set { reader with buf := reader.buf.drop totalLen, state := .readingHeader }
          return some packet
        | .error fault => throw fault

end MqttWasi.Checked.FrameReader
