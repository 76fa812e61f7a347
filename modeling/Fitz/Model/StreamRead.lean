import Fitz.Model.Codec
import Fitz.Model.Routes

/-!
# Stream READ

The filter set a READ carries and the page that answers it (`src/domains/stream.rs`).
The bytes of a page depend on the scope of the selector: global offsets stand in it only
for a global one.
-/

namespace Fitz

open BigEndian

/-! ## Filters -/

inductive StreamFilterClause
  | equals (value : String)
  | notEquals (value : String)
  | startsWith (value : String)
  | anyOf (values : List String)
  deriving DecidableEq

structure StreamFilterSet where
  clauses : List StreamFilterClause
  deriving DecidableEq

def encodeStreamFilterClause : StreamFilterClause → Result Bytes
  | .equals value => .ok (putU8 0 ++ putString value)
  | .notEquals value => .ok (putU8 1 ++ putString value)
  | .startsWith value => .ok (putU8 2 ++ putString value)
  | .anyOf values =>
    if values.length ≥ 2 ^ 32 then .error (.protocol "too many AnyOf values")
    else .ok (putU8 3 ++ (toBe 4 values.length ++ values.flatMap putString))

/-- The loop over the clauses. -/
def encodeStreamFilterClauses : List StreamFilterClause → Result Bytes
  | [] => .ok []
  | clause :: clauses => do
    let bytes ← encodeStreamFilterClause clause
    let rest ← encodeStreamFilterClauses clauses
    return bytes ++ rest

def encodeStreamFilterSet (filter : StreamFilterSet) : Result Bytes := do
  if filter.clauses.length ≥ 2 ^ 32 then throw (.protocol "too many stream filter clauses")
  let clauses ← encodeStreamFilterClauses filter.clauses
  return putU8 0 ++ putU8 0xF1 ++ (toBe 4 filter.clauses.length ++ clauses)

/-! ## Flags -/

/-- A field behind a flag byte: none at 0, there at 1. -/
def optionalField {α : Type} (refused : UInt8 → FitzError) (get : Decode α) : Decode (Option α) := do
  let flag ← getU8
  if flag = 0 then return none
  else if flag = 1 then return some (← get)
  else throw (refused flag)

/-- A flag byte of its own. -/
def flagField (refused : UInt8 → FitzError) : Decode Bool := do
  let flag ← getU8
  if flag = 0 then return false
  else if flag = 1 then return true
  else throw (refused flag)

def decodeOptionalU64 : Decode (Option UInt64) :=
  optionalField (fun other => .protocol ("invalid optional u64 flag: " ++ toString other)) getU64

def decodeOptionalBytes : Decode (Option Bytes) :=
  optionalField (fun other => .protocol ("invalid optional bytes flag: " ++ toString other)) getBytes

def decodeBoolU8 (field : String) : Decode Bool :=
  flagField fun other => .protocol ("invalid boolean flag for " ++ field ++ ": " ++ toString other)

/-! ## Pages -/

structure StreamRecord where
  route : String
  offset : UInt64
  body : Bytes
  areaOffset : Option UInt64
  realmOffset : Option UInt64
  globalOffset : Option UInt64
  metadata : Option Bytes
  timestamp : UInt64
  deriving DecidableEq

inductive StreamFilteredReason
  | serverFilter
  | permission
  | projection
  deriving DecidableEq

inductive StreamReadItem
  | event (record : StreamRecord)
  | filtered (route : String) (offset : UInt64) (reason : Option StreamFilteredReason)
  | filteredRange (route : String) (fromOffset toOffset : UInt64)
      (reason : Option StreamFilteredReason)
  deriving DecidableEq

structure StreamReadCursor where
  lastResourceOffset : UInt64
  lastAreaOffset : Option UInt64
  lastRealmOffset : Option UInt64
  lastGlobalOffset : Option UInt64
  cursorFingerprint : Option UInt64
  capturedWatermark : Option UInt64
  hasMore : Bool
  deriving DecidableEq

structure StreamReadPage where
  items : List StreamReadItem
  cursor : StreamReadCursor
  deriving DecidableEq

/-- `if global { decode_optional_u64(dec)? } else { None }`. -/
def decodeGlobalU64 (global : Bool) : Decode (Option UInt64) :=
  if global then decodeOptionalU64 else pure none

def decodeStreamRecord (route : String) (global : Bool) : Decode StreamRecord := do
  let offset ← getU64
  let areaOffset ← decodeOptionalU64
  let realmOffset ← decodeOptionalU64
  let globalOffset ← decodeGlobalU64 global
  let body ← getBytes
  let metadata ← decodeOptionalBytes
  let timestamp ← getU64
  return ⟨route, offset, body, areaOffset, realmOffset, globalOffset, metadata, timestamp⟩

def decodeStreamFilteredReason : Decode (Option StreamFilteredReason) := do
  let tag ← getU8
  if tag = 0 then return none
  else if tag = 1 then return some .serverFilter
  else if tag = 2 then return some .permission
  else if tag = 3 then return some .projection
  else throw (.protocol ("invalid stream filtered reason tag: " ++ toString tag))

def decodeStreamReadItem (route : String) (global : Bool) : Decode StreamReadItem := do
  let tag ← getU8
  if tag = 0 then return .event (← decodeStreamRecord route global)
  else if tag = 1 then return .filtered route (← getU64) (← decodeStreamFilteredReason)
  else if tag = 2 then
    return .filteredRange route (← getU64) (← getU64) (← decodeStreamFilteredReason)
  else throw (.protocol ("unknown stream read item tag: " ++ toString tag))

/-- A pass of the loop of `parse_stream_read_page_with_scope`. -/
def readPageItem (global : Bool) : Decode StreamReadItem := do
  let route ← getString
  match validateResponseFixedRoute route "stream" 3 "READ" with
  | .ok () => decodeStreamReadItem route global
  | .error error => throw error

def readPageItems (global : Bool) : ℕ → Decode (List StreamReadItem)
  | 0 => return []
  | n + 1 => do return (← readPageItem global) :: (← readPageItems global n)

def decodeStreamReadCursor (global : Bool) : Decode StreamReadCursor := do
  let lastResourceOffset ← getU64
  let lastAreaOffset ← decodeOptionalU64
  let lastRealmOffset ← decodeOptionalU64
  let lastGlobalOffset ← decodeGlobalU64 global
  let hasMore ← decodeBoolU8 "stream read cursor has_more"
  let cursorFingerprint ← decodeGlobalU64 global
  let capturedWatermark ← decodeGlobalU64 global
  return ⟨lastResourceOffset, lastAreaOffset, lastRealmOffset, lastGlobalOffset,
    cursorFingerprint, capturedWatermark, hasMore⟩

/-- `Vec::with_capacity(count)`: the count of the page. -/
def readCapacity : Decode ℕ := do return (← getU32).toNat

def decodeStreamReadPage (global : Bool) : Decode StreamReadPage := do
  let count ← readCapacity
  let items ← readPageItems global count
  let cursor ← decodeStreamReadCursor global
  if !(← isEmpty) then throw (.protocol "READ response has trailing bytes")
  return ⟨items, cursor⟩

def parseStreamReadPageWithScope (buf : Bytes) (selector : String) : Result StreamReadPage := do
  let global := (← classifyStreamSelector selector) = .global
  if buf = [] then
    return ⟨[], ⟨0, none, none, none, none, none, false⟩⟩
  Decode.on (decodeStreamReadPage global) buf

end Fitz
