/-
# One request of the native client

`termivar-oast/src/client.rs`: how `dispatch_wire` and `read_response_body`
use the boundary they are given, and how the permit answers them. What the
transport brings is an `Exchange`: where a request ends before it is sent,
the readings of the boundary, the head and the chunks of the response, what
other holders of the broker do meanwhile, and what the response parses to.
-/
import Termivar.NativeOast.Permit

namespace Termivar.NativeOast

open Command
open Termivar.Runtime (AccountingOp)

def maxManagementResponseBytes : Nat := 256 * 1024

inductive NativeOastBoundaryRejection where
  | budgetExhausted
  | operationNotPermitted
  | cancelled
  | deadlineExceeded
  | accountingInvariant

/-- Bounded classification of an unexpected response status. -/
inductive NativeOastHttpFailure where
  | accessRejected
  | throttled
  | notFound
  | gone
  | redirectRefused
  | serverFailure
  | unexpected

inductive NativeOastClientErrorKind where
  | clientInitialization
  | requestConstruction
  | boundaryRejected (rejection : NativeOastBoundaryRejection)
  | cancelled
  | deadlineExceeded
  | transportFailure
  | unexpectedStatus
  | responseOriginMismatch
  | unsupportedMedia
  | responseTooLarge
  | malformedResponse
  | protocolMismatch
  | callbackTargetMismatch
  | accountingInvariant

structure NativeOastDispatchAccounting where
  possiblyDispatched : Bool := false
  responseCompleted : Bool := false
  requestBytes : Nat := 0
  requestBodyBytes : Nat := 0
  responseBytes : Nat := 0

structure NativeOastClientError where
  kind : NativeOastClientErrorKind
  httpFailure : Option NativeOastHttpFailure := none
  accounting : NativeOastDispatchAccounting

/-! ### The boundary -/

def boundaryRejectionFor : NativeOastProviderErrorKind → NativeOastBoundaryRejection
  | .cancelled => .cancelled
  | .deadlineExceeded => .deadlineExceeded
  | .requestLimit | .requestByteLimit | .responseByteLimit | .runtimeBudget _
  | .parentBudgetTooSmall => .budgetExhausted
  | .internalInvariant => .accountingInvariant
  | _ => .operationNotPermitted

/-- `begin` of the permit: a refusal is remembered. -/
def begin (operation : NativeOastProviderOperation) (requestBytes requestBodyBytes : Nat)
    (cancelled : Bool) (now : Instant) : BoundaryCommand Unit := do
  modify fun b => { b with permit := { b.permit with lastBoundaryError := none } }
  tryCatch (beginDispatch operation requestBytes requestBodyBytes cancelled now) fun kind => do
    modify fun b => { b with permit := { b.permit with lastBoundaryError := some kind } }
    throw kind

/-! ### The exchange -/

/-- What comes while the body of a response is read. -/
inductive BodyEvent where
  | chunk (bytes : Nat)
  | other (op : AccountingOp)
  | failed (kind : NativeOastClientErrorKind)

/-- What one request meets outside the adapter, and what its response parses
and validates to. -/
structure Exchange (α : Type) where
  (requestBytes requestBodyBytes : Nat)
  /-- The request ends before the boundary is asked. -/
  unsent : Option NativeOastClientErrorKind := none
  cancelled : Bool := false
  now : Instant
  meanwhile : List AccountingOp := []
  /-- The request fails, or its response has the wrong head. -/
  head : Option (NativeOastClientErrorKind × Option NativeOastHttpFailure) := none
  contentLength : Option Nat := none
  body : List BodyEvent
  parsed : Except NativeOastClientErrorKind α
  elapsedMs : Nat

/-- The loop of `read_response_body`, over the accounting of the request. -/
def readResponseBody : List BodyEvent → NativeOastDispatchAccounting →
    Command Boundary NativeOastClientError NativeOastDispatchAccounting
  | [], accounting => return { accounting with responseCompleted := true }
  | .other op :: events, accounting => do
    mapErr (fun _ => ⟨.accountingInvariant, none, accounting⟩) (byOther op)
    readResponseBody events accounting
  | .failed kind :: _, accounting => throw ⟨kind, none, accounting⟩
  | .chunk observed :: events, accounting => do
    let responseBytes ← okOr (checkedAdd u64Max accounting.responseBytes observed)
      (NativeOastClientError.mk .accountingInvariant none accounting)
    let accounting := { accounting with responseBytes }
    let retained ← mapErr (fun _ => ⟨.accountingInvariant, none, accounting⟩)
      (observeResponseBytes observed)
    if retained > observed then throw ⟨.accountingInvariant, none, accounting⟩
    if retained < observed ∨ accounting.responseBytes > maxManagementResponseBytes then
      throw ⟨.responseTooLarge, none, accounting⟩
    readResponseBody events accounting

/-- The response to a request that the boundary admitted. -/
def receive {α : Type} (exchange : Exchange α) (accounting : NativeOastDispatchAccounting) :
    Command Boundary NativeOastClientError (α × NativeOastDispatchAccounting) := do
  mapErr (fun _ => ⟨.accountingInvariant, none, accounting⟩) (byOthers exchange.meanwhile)
  if let some (kind, httpFailure) := exchange.head then throw ⟨kind, httpFailure, accounting⟩
  let b ← get
  let available := min (remainingResponseBytes b) maxManagementResponseBytes
  if exchange.contentLength.any (· > available) then throw ⟨.responseTooLarge, none, accounting⟩
  let accounting ← readResponseBody exchange.body accounting
  match exchange.parsed with
  | .ok value => return (value, accounting)
  | .error kind => throw ⟨kind, none, accounting⟩

/-- `dispatch_wire`, and the checks of the value it returns. -/
def dispatchWire {α : Type} (operation : NativeOastProviderOperation) (exchange : Exchange α) :
    Command Boundary NativeOastClientError (α × NativeOastDispatchAccounting) := do
  let planned : NativeOastDispatchAccounting :=
    { requestBytes := exchange.requestBytes, requestBodyBytes := exchange.requestBodyBytes }
  if let some kind := exchange.unsent then throw ⟨kind, none, planned⟩
  mapErr (fun kind => ⟨.boundaryRejected (boundaryRejectionFor kind), none, planned⟩)
    (begin operation exchange.requestBytes exchange.requestBodyBytes exchange.cancelled exchange.now)
  receive exchange { planned with possiblyDispatched := true }

end Termivar.NativeOast
