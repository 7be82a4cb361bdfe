/-
  HttpApp/Failure.lean --- how handlers and hooks fail.

  A failure is recoverable or fatal.  A recoverable one has a cause and may have
  been given contexts on its way, which are shown in front of the cause, the last
  one first, and do not change what the cause is.  A fatal one is answered and
  then raised again, with the payload of the panic it came from.
-/
import HttpApp.Error
import HttpApp.Validation

set_option autoImplicit false

namespace HttpApp

/-! ## Panics -/

/-- What a panic carries. -/
inductive Payload where
  /-- a text that was fixed before the program ran -/
  | fixed (text : String)
  /-- a text made while the program ran -/
  | made (text : String)
  /-- no text at all -/
  | other
  deriving DecidableEq, Repr, Inhabited

def Payload.text? : Payload → Option String
  | .fixed text => some text
  | .made text => some text
  | .other => none

/-- An unrecoverable failure. -/
structure Fatal where
  message : String
  /-- what the panic carried, if there was one -/
  payload : Option Payload := none
  deriving DecidableEq, Repr, Inhabited

namespace Fatal

/-- The failure that a panic is. -/
def ofPanic (p : Payload) : Fatal := ⟨p.text?.getD "handler panicked", some p⟩

/-- What is raised again: the payload of the panic, or else the message. -/
def raise (f : Fatal) : Payload := f.payload.getD (.made f.message)

/-- A fatal failure where records are shown. -/
def shown (f : Fatal) : String :=
  Text.shownRecord "FatalError"
    [("message", Text.quoted f.message), ("panicked", toString f.payload.isSome)] false

end Fatal

/-! ## Recoverable failures -/

/-- What a recoverable failure is about. -/
inductive Cause where
  /-- a status that the handler chose -/
  | chosen (status : Status) (text : String)
  /-- an error of the framework -/
  | error (e : Error)
  /-- findings about the input -/
  | validation (v : Validation)
  /-- a value that does not have the expected shape -/
  | json (fault : JsonFault)
  /-- a text that is not JSON, in the words of its reader -/
  | jsonText (wording : String)
  /-- a whole number in a simple form that cannot be read -/
  | formNumber (fault : IntegerRange.Fault)
  /-- a text that is no whole number -/
  | wholeNumber (fault : IntegerRange.Fault)
  /-- a text that is no number -/
  | number (text : String)
  /-- a text that is neither `true` nor `false` -/
  | truthValue
  /-- input or output that fails -/
  | io (fault : IoFault)
  /-- a message without a class -/
  | message (text : String)
  deriving Inhabited

namespace Cause

/-- The wording of a cause, and of what lies behind it. -/
def chain : Cause → List String
  | .chosen status text => [status.line ++ ": " ++ text]
  | .error e => e.message :: e.behind?.toList
  | .validation v => [v.message]
  | .json fault => [fault.message]
  | .jsonText wording => [wording]
  | .formNumber fault => [fault.message]
  | .wholeNumber fault => [fault.message]
  | .number text => [Decimal.faultMessage text.toList]
  | .truthValue => ["provided string was not `true` or `false`"]
  | .io fault => [fault.message]
  | .message text => [text]

/-- The status of a cause: its own one if it has one, 400 if the input is to blame, and else 500. -/
def statusCode : Cause → Status
  | .chosen status _ => status
  | .error e => e.status
  | .validation _ | .json _ | .jsonText _ | .formNumber _ | .wholeNumber _ | .number _ | .truthValue =>
    .badRequest
  | .io _ | .message _ => .internalServerError

end Cause

/-- How a handler or a hook fails. -/
inductive Failure where
  /-- a cause, with contexts from the last one to the first -/
  | recoverable (contexts : List String) (cause : Cause)
  | fatal (f : Fatal)
  deriving Inhabited

namespace Failure

/-- A failure for a cause without contexts. -/
def ofCause (c : Cause) : Failure := .recoverable [] c

/-- A failure for an error of the framework. -/
def ofError (e : Error) : Failure := .ofCause (.error e)

instance : Coe Error Failure := ⟨ofError⟩

def ofPanic (p : Payload) : Failure := .fatal (.ofPanic p)

/-- Adds a context to a recoverable failure. -/
def context (text : String) : Failure → Failure
  | .recoverable contexts cause => .recoverable (text :: contexts) cause
  | .fatal f => .fatal f

/-- Whether the failure is raised again after it was answered. -/
def isFatal : Failure → Bool
  | .recoverable .. => false
  | .fatal _ => true

def cause? : Failure → Option Cause
  | .recoverable _ cause => some cause
  | .fatal _ => none

/-- The error of the framework that a failure is about. -/
def error? (f : Failure) : Option Error :=
  match f.cause? with
  | some (.error e) => some e
  | _ => none

/-- The findings that a failure is about. -/
def validation? (f : Failure) : Option Validation :=
  match f.cause? with
  | some (.validation v) => some v
  | _ => none

/-- The wording of a failure: contexts, cause and what lies behind it. -/
def message : Failure → String
  | .recoverable contexts cause => ": ".intercalate (contexts ++ cause.chain)
  | .fatal f => "fatal: " ++ f.message

def statusCode : Failure → Status
  | .recoverable _ cause => cause.statusCode
  | .fatal _ => .internalServerError

@[simp] theorem cause?_context (text : String) (f : Failure) : (f.context text).cause? = f.cause? := by
  cases f <;> rfl

@[simp] theorem statusCode_context (text : String) (f : Failure) :
    (f.context text).statusCode = f.statusCode := by
  cases f <;> rfl

@[simp] theorem isFatal_context (text : String) (f : Failure) : (f.context text).isFatal = f.isFatal := by
  cases f <;> rfl

end Failure

end HttpApp
