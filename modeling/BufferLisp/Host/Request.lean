/-!
# What a program can ask of its host

A program reaches the text it works on only by requests to a *host*.  Each request has a type of
replies, and a host is any state that answers requests and changes by them.  Offsets are integers
without bound: what a host does with one outside its text is its own affair.
-/

set_option autoImplicit false

namespace BufferLisp

/-- A request to the host. -/
inductive Request where
  /-- Show a text in the echo area. -/
  | message (text : String)
  /-- Insert a text at the cursor and move behind it. -/
  | insert (text : String)
  /-- What is the text of the current buffer? -/
  | content
  /-- Where is the cursor? -/
  | cursor
  /-- Move the cursor, as far as the text goes. -/
  | setCursor (offset : Int)
  /-- Make a buffer the current one, and create it if there is none of that name. -/
  | switchBuffer (name : String)
  /-- What is the name of the current buffer? -/
  | bufferName
  /-- Remove a buffer. -/
  | killBuffer (name : String)
  deriving Repr, DecidableEq

/-- The type of the replies to a request. -/
abbrev Request.Reply : Request → Type
  | .content => String
  | .cursor => Int
  | .bufferName => String
  | _ => Unit

/-- A state that answers requests. -/
class Host (σ : Type) where
  /-- The reply to a request and the state after it. -/
  handle : (request : Request) → σ → request.Reply × σ

end BufferLisp
