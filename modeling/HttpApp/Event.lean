/-
  HttpApp/Event.lean --- events for those who operate an application.
-/

set_option autoImplicit false

namespace HttpApp

/-- How much an event matters. -/
inductive Level where
  | debug | info | warn | error
  deriving DecidableEq, Repr, Inhabited

def Level.name : Level → String
  | .debug => "DEBUG"
  | .info => "INFO"
  | .warn => "WARN"
  | .error => "ERROR"

/-- The value of a field of an event. -/
inductive EventValue where
  | text (s : String)
  | number (n : Nat)
  deriving DecidableEq, Repr, Inhabited

structure Event where
  level : Level
  message : String
  fields : List (String × EventValue) := []
  deriving DecidableEq, Repr, Inhabited

namespace Event

def textField (name value : String) : String × EventValue := (name, .text value)

def numberField (name : String) (value : Nat) : String × EventValue := (name, .number value)

end Event

end HttpApp
