import Mathlib.Data.Nat.Notation

/-!
# Errors and lifecycle states

`FitzError` and the predicates on it that the client consults
(`src/error.rs`), and the lifecycle state published to the application
(`src/lib.rs`).
-/

namespace Fitz

abbrev Bytes := List UInt8

/-- `FitzError`, one constructor a variant. -/
inductive FitzError
  | authentication (message : String)
  | canceled
  | timeout
  | connection (message : String)
  | transport (message : String)
  | protocol (message : String)
  | versionMismatch (code : UInt16) (message : String)
  | codec (message : String)
  | backpressure (message : String)
  | staleHandle
  | domain (code : UInt32) (message : String)
  | domainWire (code : UInt16) (cls effect : UInt8) (message : String)
  | domainError (message : String)
  | leaseAlreadyQueued
  | authFailed (message : String)
  | connectionClosed
  | frameTooLarge (size : ℕ)
  | serializationError (message : String)
  | closed
  deriving DecidableEq

abbrev Result (α : Type) := Except FitzError α

/-- `FitzErrorKind`, the stable categories. -/
inductive FitzErrorKind
  | authentication
  | canceled
  | timeout
  | connection
  | transport
  | protocol
  | backpressure
  | staleHandle
  | domain
  | leaseAlreadyQueued
  | closed
  | connectionClosed
  deriving DecidableEq

def FitzError.kind : FitzError → FitzErrorKind
  | .authentication _ | .authFailed _ => .authentication
  | .canceled => .canceled
  | .timeout => .timeout
  | .connection _ => .connection
  | .transport _ => .transport
  | .protocol _ | .versionMismatch _ _ | .codec _ | .frameTooLarge _ | .serializationError _ => .protocol
  | .backpressure _ => .backpressure
  | .staleHandle => .staleHandle
  | .domain _ _ | .domainWire _ _ _ _ | .domainError _ => .domain
  | .leaseAlreadyQueued => .leaseAlreadyQueued
  | .closed => .closed
  | .connectionClosed => .connectionClosed

def FitzError.isAuthFailure : FitzError → Bool
  | .authentication _ | .authFailed _ => true
  | _ => false

def FitzError.isRetryable : FitzError → Bool
  | .timeout | .connection _ | .transport _ | .backpressure _ | .connectionClosed => true
  | .domainWire code cls effect _ =>
    effect == 0 && (cls == 5 || code == 1053 || code == 5050 || code == 5056 || code == 6051)
  | _ => false

/-- The `Display` text of an error (`to_string`). -/
def FitzError.display : FitzError → String
  | .authentication message => "authentication rejected: " ++ message
  | .canceled => "operation canceled"
  | .timeout => "operation timed out"
  | .connection message => "connection error: " ++ message
  | .transport message => "transport error: " ++ message
  | .protocol message => "protocol error: " ++ message
  | .versionMismatch code message =>
    "wire version mismatch (" ++ toString code ++ "): " ++ message
  | .codec message => "codec error: " ++ message
  | .backpressure message => "backpressure limit reached: " ++ message
  | .staleHandle => "handle belongs to an earlier connection session"
  | .domain code message => "domain error " ++ toString code ++ ": " ++ message
  | .domainWire code cls effect message =>
    "domain error " ++ toString code ++ " (class " ++ toString cls ++ ", effect " ++
      toString effect ++ "): " ++ message
  | .domainError message => "domain error: " ++ message
  | .leaseAlreadyQueued => "lease acquisition is already queued"
  | .authFailed message => "authentication rejected: " ++ message
  | .connectionClosed => "connection is closed"
  | .frameTooLarge size => "frame too large: " ++ toString size
  | .serializationError message => "serialization error: " ++ message
  | .closed => "client is closed"

/-- `ConnectionState`, the value of the lifecycle watch. -/
inductive ConnectionState
  | disconnected
  | connecting
  | connected
  | authenticating
  | authenticated
  | reconnecting
  | closed
  deriving DecidableEq

end Fitz
