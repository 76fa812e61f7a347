import Fitz.Model.Handle
import Fitz.Lib.Machine

/-!
# Calls on one reservation

`extend`, `complete` and `nack` of a `QueueItem` (`src/client_domains/queue.rs`) that any
number of tasks share. The state of the item is an atomic: a step of a call goes to its
next access to that atomic, to the connection or to the end of its request.
-/

namespace Fitz

inductive ItemOp
  | extend (leaseSeconds : UInt64)
  | complete
  | nack (visibilitySeconds : UInt64)
  deriving DecidableEq

/-- It claims the item before its request. -/
def ItemOp.claims : ItemOp → Bool
  | .extend _ => false
  | .complete | .nack _ => true

/-- The operation on the handle. -/
def ItemOp.operation : ItemOp → Operation
  | .extend leaseSeconds => .queueExtend leaseSeconds
  | .complete => .queueComplete
  | .nack visibilitySeconds => .queueNack visibilitySeconds

def QueueItem.request (h : QueueItem) : ItemOp → UInt16 × Bytes
  | .extend leaseSeconds => (MessageType.queueExtend, h.tokenPayload ++ putU64 leaseSeconds)
  | .complete => (MessageType.queueComplete, h.tokenPayload)
  | .nack visibilitySeconds => (MessageType.queueNack, h.tokenPayload ++ putU64 visibilitySeconds)

/-- How far a call has got. -/
inductive ItemStage
  /-- `ensure_current` is about to read the generation -/
  | entered
  /-- and about to load the state -/
  | fenced
  | ensured
  /-- a `nack` is about to exchange the state -/
  | claiming
  /-- the guard exists -/
  | claimed
  /-- awaits the answer to its request -/
  | requesting
  /-- about to store 2 -/
  | acknowledging
  /-- about to drop the guard, and to return unless the future is dropped -/
  | releasing (result : Option (Result Unit))
  | returned (result : Result Unit)
  /-- the future is dropped -/
  | dropped
  deriving DecidableEq

/-- The call is over. -/
def ItemStage.over : Option (Result Unit) → ItemStage
  | some result => .returned result
  | none => .dropped

structure ItemCall where
  op : ItemOp
  stage : ItemStage
  deriving DecidableEq

/-- Where a step of a call leads: its stage, the state of the item, and whether it
called `request`. -/
structure ItemTurn where
  stage : ItemStage
  state : UInt8
  requests : Bool
  deriving DecidableEq

namespace ItemCall

/-- `compare_exchange(0, 1)`. -/
def tryClaim (state : UInt8) : ItemTurn :=
  if state = 0 then ⟨.claimed, 1, false⟩ else ⟨.returned (.error .staleHandle), state, false⟩

def advance (c : ItemCall) (sh : Shared) (item : QueueItem) : ItemTurn :=
  match c.stage with
  | .entered =>
    if sh.generation = item.generation then ⟨.fenced, item.state, false⟩
    else ⟨.returned (.error .staleHandle), item.state, false⟩
  | .fenced =>
    if item.state = 0 then ⟨.ensured, item.state, false⟩
    else ⟨.returned (.error .staleHandle), item.state, false⟩
  | .ensured =>
    match c.op with
    | .extend _ => ⟨.requesting, item.state, true⟩
    | .complete => tryClaim item.state
    | .nack _ =>
      match requireCapability sh 2 with
      | .ok () => ⟨.claiming, item.state, false⟩
      | .error error => ⟨.returned (.error error), item.state, false⟩
  | .claiming => tryClaim item.state
  | .claimed => ⟨.requesting, item.state, true⟩
  | .acknowledging => ⟨.releasing (some (.ok ())), 2, false⟩
  | .releasing result =>
    -- `compare_exchange(1, 0)`
    ⟨.over result, if item.state = 1 then 0 else item.state, false⟩
  | .requesting | .returned _ | .dropped => ⟨c.stage, item.state, false⟩

/-- `request` returns. -/
def answer (c : ItemCall) (item : QueueItem) (response : Result Bytes) : ItemTurn :=
  match c.stage with
  | .requesting =>
    match response.bind decodeQueuePlainOk with
    | .ok () => ⟨if c.op.claims then .acknowledging else .returned (.ok ()), item.state, false⟩
    | .error error =>
      ⟨if c.op.claims then .releasing (some (.error error)) else .returned (.error error),
        item.state, false⟩
  | _ => ⟨c.stage, item.state, false⟩

/-- The future is dropped, where it awaits. -/
def drop (c : ItemCall) (item : QueueItem) : ItemTurn :=
  match c.stage with
  | .requesting => ⟨if c.op.claims then .releasing none else .dropped, item.state, false⟩
  | _ => ⟨c.stage, item.state, false⟩

end ItemCall

/-- A request, and the call that made it. -/
structure ItemRequest where
  call : ℕ
  request : UInt16 × Bytes
  deriving DecidableEq

structure Reservation where
  shared : Shared
  item : QueueItem
  calls : List ItemCall
  /-- history no step reads -/
  requested : List ItemRequest

inductive ItemEvent
  /-- the connection goes on -/
  | connection (shared : Shared)
  | call (op : ItemOp)
  | advance (i : ℕ)
  | answer (i : ℕ) (response : Result Bytes)
  | drop (i : ℕ)

namespace Reservation

/-- What `reserve` made of one entry of its response. -/
def start (shared : Shared) (generation : UInt64) (route : String) (id token : UInt64)
    (body : Bytes) : Reservation :=
  ⟨shared, ⟨generation, route, id, token, body, 0⟩, [], []⟩

/-- One call takes a step. -/
def turn (s : Reservation) (i : ℕ) (f : ItemCall → ItemTurn) : Reservation :=
  match s.calls[i]? with
  | none => s
  | some c =>
    { s with
      item := { s.item with state := (f c).state }
      calls := s.calls.modify i fun c => { c with stage := (f c).stage }
      requested :=
        if (f c).requests then s.requested ++ [⟨i, s.item.request c.op⟩] else s.requested }

def step (s : Reservation) : ItemEvent → Reservation
  | .connection shared => { s with shared := shared }
  | .call op => { s with calls := s.calls ++ [⟨op, .entered⟩] }
  | .advance i => s.turn i fun c => c.advance s.shared s.item
  | .answer i response => s.turn i fun c => c.answer s.item response
  | .drop i => s.turn i fun c => c.drop s.item

end Reservation

end Fitz
