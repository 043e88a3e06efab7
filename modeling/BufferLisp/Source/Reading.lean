import BufferLisp.Error
import BufferLisp.Source.Literal

/-!
# Reading expressions

A reader stands at a position of a source text and reads one expression from there.  It keeps the
lists that are open around the position, innermost first, and the quote marks that wait for the
expression behind them.

Reading never fails on a token that is out of place: a closing parenthesis where an expression
should start reads as the symbol with the empty name and is not passed over, and the end of the text
reads as `nil`.  The one error is a list that is still open at the end of the text.
-/

set_option autoImplicit false

namespace BufferLisp

/-- A list that has been opened: its elements so far, last first, and the number of quote marks in
front of it. -/
structure OpenList where
  items : List Value
  quotes : Nat

/-- What a reader has read of an expression that is not complete. -/
structure ReadState where
  /-- The open lists, innermost first. -/
  lists : List OpenList
  /-- The quote marks read since the last expression or parenthesis. -/
  quotes : Nat

/-- What a token leads to: more to read, or an expression that stops at a position. -/
inductive Progress where
  | more (state : ReadState)
  | done (value : Value) (stop : Nat)

/-- A value behind a number of quote marks. -/
def Value.quotedTimes : Nat → Value → Value
  | 0, v => v
  | n + 1, v => (v.quotedTimes n).quoted

namespace ReadState

/-- Nothing read yet. -/
def start : ReadState := ⟨[], 0⟩

/-- Adds a complete expression, which stops at the given position: it is the next element of the
innermost open list, or the result. -/
def deliver (lists : List OpenList) (value : Value) (stop : Nat) : Progress :=
  match lists with
  | [] => .done value stop
  | innermost :: outer => .more ⟨⟨value :: innermost.items, innermost.quotes⟩ :: outer, 0⟩

/-- The elements of a list that is being closed: quote marks right before the closing parenthesis
quote the symbol with the empty name. -/
def closedItems (innermost : OpenList) (quotes : Nat) : List Value :=
  if quotes = 0 then innermost.items.reverse
  else (((Value.sym "").quotedTimes quotes) :: innermost.items).reverse

/-- Takes one token. -/
def step (state : ReadState) (lexeme : Lexeme) : Progress :=
  match lexeme.token with
  | .openList => .more ⟨⟨[], state.quotes⟩ :: state.lists, 0⟩
  | .quoteMark => .more ⟨state.lists, state.quotes + 1⟩
  | .literal raw =>
    deliver state.lists ((Value.str (Token.literalText raw)).quotedTimes state.quotes) lexeme.stop
  | .atom name =>
    deliver state.lists ((Token.atomValue name).quotedTimes state.quotes) lexeme.stop
  | .closeList =>
    match state.lists with
    | [] => .done ((Value.sym "").quotedTimes state.quotes) lexeme.start
    | innermost :: outer =>
      let value := Value.list (closedItems innermost state.quotes)
      deliver outer (value.quotedTimes innermost.quotes) lexeme.stop

/-- What the end of the text makes of an expression that is not complete. -/
def finish (state : ReadState) : Except LispError Value :=
  match state.lists with
  | [] => .ok (Value.nil.quotedTimes state.quotes)
  | _ :: _ => .error .unclosedList

/-- Reads the lexemes up to the end of the first expression; `last` is the position to stop at if
they run out. -/
def run (last : Nat) : ReadState → List Lexeme → Except LispError Value × Nat
  | state, [] => (state.finish, last)
  | state, lexeme :: rest =>
    match state.step lexeme with
    | .more next => run last next rest
    | .done value stop => (.ok value, stop)

end ReadState

/-- A position in a source text. -/
structure Reader where
  source : String
  pos : Nat
  deriving Repr, DecidableEq

namespace Reader

/-- A reader at the start of a text. -/
def ofSource (source : String) : Reader := ⟨source, 0⟩

/-- The lexemes from the reader's position on. -/
def lexemes (reader : Reader) : List Lexeme :=
  BufferLisp.lexemes 0 reader.pos (reader.source.toList.drop reader.pos)

/-- The position of a reader that has used up its text: the end, or where the last token stops. -/
def endPos (reader : Reader) : Nat :=
  reader.lexemes.foldl (fun pos lexeme => max pos lexeme.stop) (max reader.pos reader.source.length)

/-- Reads the next expression, and moves to where it stops. -/
def next (reader : Reader) : Except LispError Value × Reader :=
  let (result, pos) := ReadState.run reader.endPos .start reader.lexemes
  (result, { reader with pos })

end Reader

/-- The first expression of a text; what follows it is ignored. -/
def read (source : String) : Except LispError Value :=
  (Reader.ofSource source).next.1

end BufferLisp
