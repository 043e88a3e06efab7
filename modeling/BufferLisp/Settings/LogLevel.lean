import BufferLisp.Text.Blank

/-!
# Log levels

How much a session is to report about itself.  A level is chosen by its name, in capitals or not; a
character counts as the capital it has in Unicode, if that is an ASCII letter or several of them.
Any other name chooses the default.

The reports themselves are left out.  They go to a log of their own, so no answer of a session and
nothing that it prints depends on the level.
-/

set_option autoImplicit false

namespace BufferLisp

/-- How grave a report has to be to be shown. -/
inductive LogLevel where
  | critical
  | error
  | warning
  | info
  | debug
  | everything
  deriving Repr, DecidableEq

namespace LogLevel

/-- The number of a level; graver levels have greater ones. -/
def severity : LogLevel → Nat
  | critical => 50
  | error => 40
  | warning => 30
  | info => 20
  | debug => 10
  | everything => 0

/-- The ASCII capitals of a character; a character that has none stands for itself. -/
def capital (c : Char) : List Char :=
  match c with
  | 'ß' => ['S', 'S']
  | 'ı' => ['I']
  | 'ſ' => ['S']
  | 'ﬀ' => ['F', 'F']
  | 'ﬁ' => ['F', 'I']
  | 'ﬂ' => ['F', 'L']
  | 'ﬃ' => ['F', 'F', 'I']
  | 'ﬄ' => ['F', 'F', 'L']
  | 'ﬅ' => ['S', 'T']
  | 'ﬆ' => ['S', 'T']
  | c => [c.toUpper]

/-- The level of a name in capitals. -/
def ofCapitals? (name : String) : Option LogLevel :=
  match name with
  | "CRITICAL" => some critical
  | "FATAL" => some critical
  | "ERROR" => some error
  | "WARNING" => some warning
  | "WARN" => some warning
  | "INFO" => some info
  | "DEBUG" => some debug
  | "NOTSET" => some everything
  | _ => none

/-- The level that a setting chooses. -/
def ofSetting (raw : Option String) : LogLevel :=
  let name := (Text.trim (raw.getD "")).toList.flatMap capital
  (ofCapitals? (String.ofList name)).getD warning

example : ofSetting (some " ınfo ") = info := by decide
example : ofSetting none = warning := by decide

end LogLevel

end BufferLisp
