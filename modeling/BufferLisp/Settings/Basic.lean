import BufferLisp.Settings.LogLevel

/-!
# Settings of a session

What a session takes from its surroundings: the text that the first buffer starts with, a file of
code to load, and the log level.  Sessions keep no log here, so the level is made out and nothing
depends on it.
-/

set_option autoImplicit false

namespace BufferLisp

/-- What the surroundings provide; what is missing has a default. -/
structure Settings where
  /-- The text of the first buffer. -/
  scratch : Option String := none
  /-- The name of the log level. -/
  logLevel : Option String := none
  /-- The text of the file to load, if there is such a file. -/
  initText : Option String := none

namespace Settings

/-- The text that the first buffer has by default. -/
def defaultScratch : String :=
  ";; This buffer is for text that is not saved, and for Lisp evaluation.\n" ++
  ";; To create a file, visit it with C-x C-f and enter text in your file's buffer.\n" ++
  "\n" ++
  "Lisp Scratchpad:\n" ++
  "Try evaluating these expressions with C-x C-e (place cursor at end of line):\n" ++
  "(+ 2 2)\n" ++
  "(message \"Hello from Emacs!\")\n" ++
  "(insert \" This text was inserted by Lisp.\")\n" ++
  "(progn (insert \"A\") (insert \"B\") (insert \"C\"))\n"

/-- The text of the first buffer: an empty setting counts as none. -/
def scratchText (settings : Settings) : String :=
  match settings.scratch with
  | none => defaultScratch
  | some text => if text.isEmpty then defaultScratch else text

/-- The log level that the setting chooses. -/
def level (settings : Settings) : LogLevel :=
  LogLevel.ofSetting settings.logLevel

/-- Characters with one line feed for each line break of any kind. -/
def plainBreaks : List Char → List Char
  | '\r' :: '\n' :: rest => '\n' :: plainBreaks rest
  | '\r' :: rest => '\n' :: plainBreaks rest
  | c :: rest => c :: plainBreaks rest
  | [] => []

/-- The code to load, with plain line breaks. -/
def preludeText (settings : Settings) : String :=
  String.ofList (plainBreaks (settings.initText.getD "").toList)

end Settings

end BufferLisp
