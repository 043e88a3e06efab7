import BufferLisp.Host.Request
import BufferLisp.Text.Slice

/-!
# Hosts that keep a record

`Logged σ` is a host that passes each request on to another one and writes it down.  `Page` is the
least host there is: one text with a cursor and a name, where switching buffers only changes the
name and killing one does nothing.  A recorder is a logged page.
-/

set_option autoImplicit false

namespace BufferLisp

/-- A host with the requests it has got, oldest first. -/
structure Logged (σ : Type) where
  host : σ
  requests : List Request

/-- Each request is written down and passed on. -/
instance instHostLogged (σ : Type) [Host σ] : Host (Logged σ) where
  handle request state :=
    let (reply, host) := Host.handle request state.host
    (reply, ⟨host, state.requests ++ [request]⟩)

/-- One text with a cursor and a name. -/
structure Page where
  content : String
  cursor : Int
  name : String

namespace Page

/-- An empty page. -/
def blank : Page := ⟨"", 0, "test"⟩

/-- What a request does to a page. -/
def handle : (request : Request) → Page → request.Reply × Page
  | .message _, page => ((), page)
  | .insert text, page =>
    ((), { page with
      content := Text.insertAt page.content page.cursor text
      cursor := page.cursor + text.length })
  | .content, page => (page.content, page)
  | .cursor, page => (page.cursor, page)
  | .setCursor offset, page =>
    ((), { page with cursor := Text.clamp page.content.length offset })
  | .switchBuffer name, page => ((), { page with name })
  | .bufferName, page => (page.name, page)
  | .killBuffer _, page => ((), page)

/-- A page is a host. -/
instance instHostPage : Host Page := ⟨handle⟩

end Page

/-- A page with a record of the requests to it. -/
abbrev Recorder := Logged Page

end BufferLisp
