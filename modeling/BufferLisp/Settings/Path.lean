import BufferLisp.Text.Blank
import BufferLisp.Text.Split

/-!
# File paths in settings

A path is a root, which may be missing, and parts.  Repeated separators and parts that are a
single dot add nothing, while a double dot stays, since it cannot be resolved without the file
system.  A path that starts with exactly two separators has a root of its own.  A leading part
that starts with `~` stands for the home directory of the user named behind it, or of the user who
runs the program if no name is there.
-/

set_option autoImplicit false

namespace BufferLisp

/-- The home directories that are known. -/
structure Homes where
  /-- The home directory of the user who runs the program. -/
  own : Option String
  /-- The home directories of users by name. -/
  ofUsers : List (String × String) := []
  deriving Repr, DecidableEq

/-- Why a path cannot be made out. -/
inductive PathFault where
  /-- The home directory of a user is not known; the name is empty for the user who runs the
  program. -/
  | unknownHome (user : String)
  deriving Repr, DecidableEq

/-- The wording of a path fault. -/
def PathFault.message : PathFault → String
  | .unknownHome _ => "Could not determine home directory."

/-- The home directory of a user. -/
def Homes.directory (homes : Homes) (user : String) : Except PathFault String :=
  match if user.isEmpty then homes.own else homes.ofUsers.lookup user with
  | some directory => .ok directory
  | none => .error (.unknownHome user)

/-- A path in normal form. -/
structure Path where
  root : String
  parts : List String
  deriving Repr, DecidableEq

namespace Path

/-- The root that leading separators make. -/
def rootOf : List Char → String
  | '/' :: '/' :: '/' :: _ => "/"
  | '/' :: '/' :: _ => "//"
  | '/' :: _ => "/"
  | _ => ""

/-- The path that a text writes. -/
def ofText (text : String) : Path where
  root := rootOf text.toList
  parts := ((Text.splitAt '/' text.toList).map String.ofList).filter fun part =>
    part != "" && part != "."

/-- The text of a path; one without root and parts is the current directory. -/
def toText (path : Path) : String :=
  if path.root.isEmpty && path.parts.isEmpty then "."
  else path.root ++ "/".intercalate path.parts

/-- The path with a directory in front of further parts. -/
def inDirectory (directory : String) (parts : List String) : Path :=
  let front := ofText directory
  { front with parts := front.parts ++ parts }

/-- Puts a home directory in the place of a leading part that starts with `~`. -/
def expandHome (homes : Homes) (path : Path) : Except PathFault Path :=
  match path.root, path.parts with
  | "", first :: rest =>
    match first.toList with
    | '~' :: user => do return inDirectory (← homes.directory (String.ofList user)) rest
    | _ => .ok path
  | _, _ => .ok path

/-- The path in a setting; blanks around it do not count, and there may be none. -/
def ofSetting (homes : Homes) (raw : Option String) : Except PathFault (Option Path) :=
  let text := Text.trim (raw.getD "")
  if text.isEmpty then .ok none
  else do return some (← (ofText text).expandHome homes)

example : ((ofText "~//a/./b/../").expandHome ⟨some "/home/user", []⟩).toOption.map toText =
    some "/home/user/a/b/.." := by decide
example : ((ofText "~x/a").expandHome ⟨some "/home/user", []⟩).toOption = none := by decide
example : (ofText "//a").toText = "//a" := by decide
example : (ofText "./").toText = "." := by decide

end Path

end BufferLisp
