/-
  HttpApp/Method.lean --- request methods.

  Nine methods are supported.  Their order here is the canonical one, in which
  lists of methods are shown.
-/
import HttpApp.Text.Token

set_option autoImplicit false

namespace HttpApp

/-- The supported methods. -/
inductive Method where
  | get | post | put | delete | patch | head | options | trace | connect
  deriving DecidableEq, Repr, Inhabited

namespace Method

/-- All methods in canonical order. -/
def all : List Method := [.get, .post, .put, .delete, .patch, .head, .options, .trace, .connect]

/-- The name of a method in requests. -/
def name : Method → String
  | .get => "GET"
  | .post => "POST"
  | .put => "PUT"
  | .delete => "DELETE"
  | .patch => "PATCH"
  | .head => "HEAD"
  | .options => "OPTIONS"
  | .trace => "TRACE"
  | .connect => "CONNECT"

/-- The name of a method where records are shown. -/
def shown : Method → String
  | .get => "Get"
  | .post => "Post"
  | .put => "Put"
  | .delete => "Delete"
  | .patch => "Patch"
  | .head => "Head"
  | .options => "Options"
  | .trace => "Trace"
  | .connect => "Connect"

/-- The place of a method in the canonical order. -/
def rank : Method → Nat
  | .get => 0
  | .post => 1
  | .put => 2
  | .delete => 3
  | .patch => 4
  | .head => 5
  | .options => 6
  | .trace => 7
  | .connect => 8

/-- The method with a name, case being significant. -/
def ofName? (s : String) : Option Method := all.find? fun m => m.name == s

theorem mem_all (m : Method) : m ∈ all := by cases m <;> decide

theorem rank_injective {m n : Method} (h : m.rank = n.rank) : m = n := by
  cases m <;> cases n <;> first | rfl | (simp [rank] at h)

/-- A method is found by its name. -/
@[simp] theorem ofName?_name (m : Method) : ofName? m.name = some m := by cases m <;> decide

/-- The canonical order is the order of the ranks. -/
theorem all_sorted : all.Pairwise fun m n => m.rank < n.rank := by decide

end Method

end HttpApp
