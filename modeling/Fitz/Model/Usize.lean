import Fitz.Model.Codec

/-!
# The decoder at a pointer width

`PayloadDecoder` (`src/codec.rs`) with its `usize` arithmetic modulo `2 ^ w`, as a build
without overflow checks computes it; `overflowed` tells whether a sum was too large, where
a build with checks panics. An index or a slice out of range panics in both, and then there
is no result. A read that fails leaves the decoder where it got to.
-/

namespace Fitz.Usize

open BigEndian

structure Decoder where
  buf : Bytes
  pos : ℕ
  /-- a sum was `2 ^ w` or more, or a difference below zero -/
  overflowed : Bool
  deriving DecidableEq

def Decoder.new (buf : Bytes) : Decoder := ⟨buf, 0, false⟩

abbrev Read (α : Type) := ExceptT FitzError (StateT Decoder Option) α

/-- A read at a decoder; none if it panics. -/
def Read.on {α : Type} (m : Read α) (d : Decoder) : Option (Result α × Decoder) := m.run.run d

def outOfRange {α : Type} : Read α := ExceptT.mk fun _ => none

/-- `a + b`. -/
def add (w a b : ℕ) : Read ℕ := do
  if a + b ≥ 2 ^ w then modify fun d => { d with overflowed := true }
  return (a + b) % 2 ^ w

def checkLen (w n : ℕ) : Read Unit := do
  let d ← get
  if (← add w d.pos n) > d.buf.length then throw (.codec "Not enough bytes")

/-- `self.buf[self.pos..self.pos + n]`. -/
def sliceOf (w n : ℕ) : Read Bytes := do
  let d ← get
  let stop ← add w d.pos n
  if d.pos ≤ stop ∧ stop ≤ d.buf.length then return (d.buf.take stop).drop d.pos else outOfRange

/-- `self.pos += n`. -/
def advance (w n : ℕ) : Read Unit := do
  let d ← get
  let pos ← add w d.pos n
  modify fun d => { d with pos := pos }

/-- The body the reads share: check, slice, advance. -/
def getSlice (w n : ℕ) : Read Bytes := do
  checkLen w n
  let bytes ← sliceOf w n
  advance w n
  return bytes

def getU8 (w : ℕ) : Read UInt8 := do
  checkLen w 1
  let d ← get
  match d.buf[d.pos]? with
  | some value => do
    advance w 1
    return value
  | none => outOfRange

def getU16 (w : ℕ) : Read UInt16 := do return UInt16.ofNat (fromBe (← getSlice w 2))
def getU32 (w : ℕ) : Read UInt32 := do return UInt32.ofNat (fromBe (← getSlice w 4))
def getU64 (w : ℕ) : Read UInt64 := do return UInt64.ofNat (fromBe (← getSlice w 8))

/-- The length becomes a `usize` by `as`. -/
def getBytes (w : ℕ) : Read Bytes := do
  let len ← getU32 w
  getSlice w (len.toNat % 2 ^ w)

def getString (w : ℕ) : Read String := do
  let bytes ← getBytes w
  match String.fromUTF8? ⟨bytes.toArray⟩ with
  | some s => return s
  | none => throw (.codec "Invalid UTF-8")

/-- `copy_from_slice` panics on another length than that of the array. -/
def getFixed (w n : ℕ) : Read Bytes := do
  let bytes ← getSlice w n
  if bytes.length = n then return bytes else outOfRange

def remaining (w : ℕ) : Read ℕ := do
  let d ← get
  if d.buf.length < d.pos then modify fun d => { d with overflowed := true }
  return (d.buf.length + 2 ^ w - d.pos) % 2 ^ w

end Fitz.Usize
