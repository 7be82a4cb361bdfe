/-
  HttpApp/Demo.lean --- a small application: users, reports and files.
-/
import HttpApp.Hooks
import HttpApp.Router

set_option autoImplicit false

namespace HttpApp.Demo

/-! ## Users -/

structure User where
  id : Int
  name : String
  email : String
  deriving DecidableEq, Repr, Inhabited

def User.toJson (u : User) : Json :=
  .ofMembers [("id", .integer u.id), ("name", .text u.name), ("email", .text u.email)]

/-- What a client tells of a new user: a name and an email address. -/
def newUser : Json.Shape (String × String) :=
  Json.Shape.record "NewUser" ("name", Json.Shape.text) ("email", Json.Shape.text)

/-- What is wrong with a new user. -/
def findings (name email : String) : List Finding :=
  (if (Text.trim name).isEmpty then [.required "name"] else []) ++
    (if email.toList.contains '@' then []
      else [⟨"email", "must be an email address", .invalidFormat⟩])

/-- Shows the user with an identifier; nobody has the identifier zero. -/
def showUser : Handler := (do
  let c ← (Script.look : Script Context)
  let id ← Attempt.ofExcept (c.path "id").int64
  if id = 0 then throw (.ofCause (.chosen .notFound ("no user " ++ toString id)))
  let name := "user-" ++ toString id
  return .render (.structured (User.toJson ⟨id, name, name ++ "@example.com"⟩))
  : Attempt Outcome).run

/-- Takes a new user. -/
def addUser : Handler := (do
  let c ← (Script.look : Script Context)
  let (name, email) ← Attempt.ofExcept (c.body newUser)
  let v : Validation := ⟨findings name email⟩
  unless v.isEmpty do throw (.ofCause (.validation v))
  Script.stage (.status .created)
  return .render (.structured (User.toJson ⟨1, name, email⟩))
  : Attempt Outcome).run

/-! ## Reports, files and redirects -/

/-- Writes a report, which takes a while, on an executor of its own. -/
def writeReport : Handler := (do
  let c ← (Script.look : Script Context)
  let name ← Attempt.ofExcept (c.path "name").text
  return .dispatch (some "reports") (do
    let _ ← (Script.step (.sleep 100) : Script Unit)
    return .render (.text ("report " ++ name ++ " is ready"))
    : Attempt Outcome).run
  : Attempt Outcome).run

/-- Names the file that is asked for. -/
def showFile : Handler := (do
  let c ← (Script.look : Script Context)
  return .render (.text ("file: " ++ (c.path "path").textOr ""))
  : Attempt Outcome).run

/-- Sends a client to the start. -/
def leaveOldHome : Handler := (do
  Attempt.send (.redirect .found "/")
  return .done
  : Attempt Outcome).run

/-! ## The application -/

/-- The application as it is assembled. -/
def router : Except Error Router := do
  let r : Router := {}
  let r := ((r.addHook (.logging false)).addHook .timing).addHook (.crossOrigin {})
  let r := (r.addParser .json).addExecutor "reports" (.pool "reports")
  let r ← r.addRoute .get "/" (.ret (.ok (.render (.text "switchyard is running"))))
  let r ← r.addRoute .get "/users/\x7bid\x7d" showUser
  let r ← r.addRoute .post "/users" addUser
  let r ← r.addRoute .get "/reports/\x7bname\x7d" writeReport
  let r ← r.addRoute .get "/files/*path" showFile
  r.addRoute .get "/old-home" leaveOldHome

end HttpApp.Demo
