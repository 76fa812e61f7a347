import Fitz.Model.Error
import Fitz.Lib.BigEndian

/-!
# Payload and frame codec

`PayloadEncoder` / `PayloadDecoder` and the 15-byte frame header of `src/codec.rs`,
the extension envelope of `src/wire3.rs` and the message types of
`src/protocol.rs` that the connection itself looks at. Machine integers are
`UInt16`, `UInt32` and `UInt64`; lengths and cursors (`usize`) are natural
numbers. The length-prefixed writers panic in the source on fields of `2 ^ 32`
bytes or more, so their model is read on shorter fields only.
-/

namespace Fitz

open BigEndian

/-! ## Message types -/

namespace MessageType

def connect : UInt16 := 1
def hello : UInt16 := 2
def connectRejected : UInt16 := 3
def goaway : UInt16 := 4

end MessageType

/-! ## Payload fields -/

def putU8 (value : UInt8) : Bytes := [value]
def putU16 (value : UInt16) : Bytes := toBe 2 value.toNat
def putU32 (value : UInt32) : Bytes := toBe 4 value.toNat
def putU64 (value : UInt64) : Bytes := toBe 8 value.toNat
def putBytes (bytes : Bytes) : Bytes := toBe 4 bytes.length ++ bytes
def putString (s : String) : Bytes := putBytes s.toUTF8.toList

/-- `PayloadDecoder`: a buffer and the next position to read. -/
structure PayloadDecoder where
  buf : Bytes
  pos : ℕ

def PayloadDecoder.new (buf : Bytes) : PayloadDecoder := ⟨buf, 0⟩

/-- A read moves the decoder on or fails. -/
abbrev Decode (α : Type) := StateT PayloadDecoder (Except FitzError) α

def checkLen (n : ℕ) : Decode Unit := do
  let d ← get
  if d.pos + n > d.buf.length then throw (.codec "Not enough bytes")

/-- The body the fixed-width reads share: check, slice, advance. -/
def getSlice (n : ℕ) : Decode Bytes := do
  checkLen n
  let d ← get
  set { d with pos := d.pos + n }
  return (d.buf.drop d.pos).take n

def getU8 : Decode UInt8 := do return UInt8.ofNat (fromBe (← getSlice 1))
def getU16 : Decode UInt16 := do return UInt16.ofNat (fromBe (← getSlice 2))
def getU32 : Decode UInt32 := do return UInt32.ofNat (fromBe (← getSlice 4))
def getU64 : Decode UInt64 := do return UInt64.ofNat (fromBe (← getSlice 8))

def getBytes : Decode Bytes := do
  let len ← getU32
  getSlice len.toNat

def getString : Decode String := do
  let bytes ← getBytes
  match String.fromUTF8? ⟨bytes.toArray⟩ with
  | some s => return s
  | none => throw (.codec "Invalid UTF-8")

def remaining : Decode ℕ := do
  let d ← get
  return d.buf.length - d.pos

def isEmpty : Decode Bool := do
  let d ← get
  return d.pos ≥ d.buf.length

/-- Runs a decoder over a whole buffer and drops its final position. -/
def Decode.on {α : Type} (m : Decode α) (buf : Bytes) : Result α := do
  let (a, _) ← m.run (.new buf)
  return a

/-! ## Frames -/

def frameHeaderLen : ℕ := 15
def maxMessageSize : ℕ := 1048576
def ackRequested : UInt8 := 1
def responseFinal : UInt8 := 2
def extensionsPresent : UInt8 := 4
def validFlags : UInt8 := ackRequested ||| responseFinal ||| extensionsPresent

structure FrameHeader where
  messageType : UInt16
  flags : UInt8
  correlationId : UInt64
  payloadStart : ℕ
  deriving DecidableEq

/-- The error both frame functions give on flags outside the valid mask. -/
def unsupportedFlags (flags : UInt8) : FitzError :=
  .protocol ("unsupported frame flags 0x" ++ String.ofList (Nat.toDigits 16 flags.toNat))

def tryEncodeFrame (msgType : UInt16) (flags : UInt8) (correlationId : UInt64)
    (payload : Bytes) : Result Bytes :=
  let messageSize := frameHeaderLen + payload.length
  if messageSize > maxMessageSize ∨ payload.length ≥ 2 ^ 32 then
    .error (.frameTooLarge messageSize)
  else if flags &&& ~~~validFlags ≠ 0 then
    .error (unsupportedFlags flags)
  else
    .ok (putU16 msgType ++ putU8 flags ++ putU64 correlationId ++ toBe 4 payload.length ++ payload)

def tryEncodeMessageFrame (msgType : UInt16) (payload : Bytes) : Result Bytes :=
  tryEncodeFrame msgType 0 0 payload

def decodeFrameHeader (buf : Bytes) : Result FrameHeader :=
  if buf.length < frameHeaderLen then
    .error (.codec "truncated Wire 3 frame header")
  else
    let messageType := UInt16.ofNat (fromBe (buf.take 2))
    let flags := buf.getD 2 0
    if flags &&& ~~~validFlags ≠ 0 then
      .error (unsupportedFlags flags)
    else
      let correlationId := UInt64.ofNat (fromBe ((buf.drop 3).take 8))
      let payloadLen := fromBe ((buf.drop 11).take 4)
      let expected := frameHeaderLen + payloadLen
      if expected > maxMessageSize then
        .error (.frameTooLarge expected)
      else if buf.length ≠ expected then
        .error (.codec "Wire 3 frame length does not match payload size")
      else
        .ok ⟨messageType, flags, correlationId, frameHeaderLen⟩

/-! ## Extension envelope -/

namespace Wire3

def malformed : FitzError := .protocol "malformed Wire 3 extension envelope"

/-- The fields after the core: ids strictly increasing from 1. -/
def encodeFields : UInt16 → List (UInt16 × Bytes) → Result Bytes
  | _, [] => .ok []
  | previous, (id, value) :: fields => do
    if id ≤ previous then throw malformed
    let rest ← encodeFields id fields
    return putU16 id ++ putBytes value ++ rest

def encode (core : Bytes) (fields : List (UInt16 × Bytes)) : Result Bytes := do
  let tail ← encodeFields 0 fields
  if fields.isEmpty then throw malformed
  let payload := putBytes core ++ tail
  if payload.length + 15 > maxMessageSize then throw (.frameTooLarge (payload.length + 15))
  return payload

/-- The capability list of a HELLO: `count` strictly increasing identifiers. -/
def capabilityLoop : ℕ → UInt32 → UInt16 → Decode UInt16
  | 0, _, mask => return mask
  | count + 1, previous, mask => do
    let value ← getU32
    if value ≤ previous then throw malformed
    capabilityLoop count value
      (if value = 1 ∨ value = 2 then mask ||| (1 <<< value.toUInt16) else mask)

def decodeCapabilities (value : Bytes) (mask : UInt16) : Result UInt16 :=
  Decode.on (do
    let count ← getU16
    if value.length ≠ 2 + 4 * count.toNat then throw malformed
    capabilityLoop count.toNat 0 mask) value

/-- The `while cursor < payload.len()` loop over the fields. `rest` is
`payload[cursor..]`; every pass moves the cursor by six bytes or more, so as
many passes as there are bytes suffice. -/
def fieldLoop (handshake : Bool) : ℕ → Bytes → Bool → UInt16 → Result (Bool × UInt16)
  | _, [], seen, mask => .ok (seen, mask)
  | 0, _ :: _, _, _ => .error malformed
  | passes + 1, rest, seen, mask => do
    let (id, length) ← Decode.on (do return (← getU16, ← getU32)) rest
    let value := rest.drop 6
    if id = 0 ∨ length.toNat > value.length then throw malformed
    let after := value.drop length.toNat
    if handshake && id == 1 then
      if seen ∨ length.toNat < 2 then throw malformed
      let mask ← decodeCapabilities (value.take length.toNat) mask
      fieldLoop handshake passes after true mask
    else
      fieldLoop handshake passes after seen mask

def decode (payload : Bytes) (messageType : UInt16) (flags : UInt8) : Result (Bytes × UInt16) := do
  let handshake := messageType == MessageType.hello
  if flags &&& extensionsPresent = 0 then
    if handshake then throw malformed else return (payload, 0)
  let coreLength ← getU32.on payload
  let coreEnd := 4 + coreLength.toNat
  if coreEnd ≥ payload.length then throw malformed
  let (seen, mask) ← fieldLoop handshake payload.length (payload.drop coreEnd) false 0
  if handshake && !seen then throw malformed
  return ((payload.take coreEnd).drop 4, mask)

/-! The same function as the source writes it, over a cursor: a slice out of range and
a subtraction below zero panic, and a loop is given as many passes as the payload has
bytes, and one. -/

/-- A result, or nothing where the source panics or goes on for ever. -/
abbrev Checked (α : Type) := ExceptT FitzError Option α

def panicked {α : Type} : Checked α := ExceptT.mk none

def returned {α : Type} (r : Result α) : Checked α := ExceptT.mk (some r)

/-- `&bytes[start..stop]`. -/
def slice (bytes : Bytes) (start stop : ℕ) : Checked Bytes :=
  if start ≤ stop ∧ stop ≤ bytes.length then return (bytes.take stop).drop start else panicked

/-- `m - n` of lengths. -/
def minus (m n : ℕ) : Checked ℕ := if n ≤ m then return m - n else panicked

def fieldLoopAt (payload : Bytes) (handshake : Bool) :
    ℕ → ℕ → Bool → UInt16 → Checked (Bool × UInt16)
  | 0, _, _, _ => panicked
  | passes + 1, cursor, seen, mask => do
    if cursor < payload.length then
      let field ← slice payload cursor payload.length
      let (id, length) ← returned (Decode.on (do return (← getU16, ← getU32)) field)
      let cursor := cursor + 6
      if id = 0 then throw malformed
      let room ← minus payload.length cursor
      if length.toNat > room then throw malformed
      if handshake && id == 1 then
        if seen ∨ length.toNat < 2 then throw malformed
        let value ← slice payload cursor (cursor + length.toNat)
        let mask ← returned (decodeCapabilities value mask)
        fieldLoopAt payload handshake passes (cursor + length.toNat) true mask
      else fieldLoopAt payload handshake passes (cursor + length.toNat) seen mask
    else return (seen, mask)

def decodeAt (payload : Bytes) (messageType : UInt16) (flags : UInt8) :
    Checked (Bytes × UInt16) := do
  let handshake := messageType == MessageType.hello
  if flags &&& extensionsPresent = 0 then
    if handshake then throw malformed else return (payload, 0)
  let coreLength ← returned (getU32.on payload)
  let coreEnd := 4 + coreLength.toNat
  if coreEnd ≥ payload.length then throw malformed
  let (seen, mask) ← fieldLoopAt payload handshake (payload.length + 1) coreEnd false 0
  if handshake && !seen then throw malformed
  return (← slice payload 4 coreEnd, mask)

end Wire3

end Fitz
