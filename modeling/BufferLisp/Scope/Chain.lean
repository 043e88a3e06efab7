import BufferLisp.Error
import BufferLisp.Scope.Frame

/-!
# Chains of frames

The names in scope at a point of an evaluation are those of a chain of frames: the *current* frame
and the ones outside it, up to the global frame.  A name means the value of the nearest frame that
binds it.  Writing always goes to the current frame, so an outer binding is shadowed and not
changed.
-/

set_option autoImplicit false

namespace BufferLisp

/-- The current frame and the frames outside it, nearest first. -/
structure Chain where
  current : Frame
  outer : List Frame

namespace Chain

/-- A chain of one frame. -/
def ofFrame (frame : Frame) : Chain := ⟨frame, []⟩

/-- All frames, the current one first. -/
def frames (chain : Chain) : List Frame :=
  chain.current :: chain.outer

/-- The value of a name in the nearest frame that binds it. -/
def lookup? (chain : Chain) (name : String) : Option Value :=
  chain.frames.findSome? (·.get? name)

/-- The value of a name, or the error that no frame binds it. -/
def lookup (chain : Chain) (name : String) : Except LispError Value :=
  match chain.lookup? name with
  | some value => .ok value
  | none => .error (.unbound name)

/-- Binds a name in the current frame. -/
def set (chain : Chain) (name : String) (value : Value) : Chain :=
  { chain with current := chain.current.set name value }

/-- Makes a new frame the current one, inside all the others. -/
def enter (chain : Chain) (frame : Frame) : Chain :=
  ⟨frame, chain.frames⟩

/-- Leaves the current frame for the one outside it; the outermost frame is never left. -/
def leave (chain : Chain) : Chain :=
  match chain.outer with
  | [] => chain
  | next :: rest => ⟨next, rest⟩

/-- Leaving a frame just entered gives back the chain. -/
@[simp] theorem leave_enter (chain : Chain) (frame : Frame) :
    (chain.enter frame).leave = chain := rfl

/-- After binding a name it has its value, and the others have theirs. -/
theorem lookup?_set (chain : Chain) (name : String) (value : Value) (other : String) :
    (chain.set name value).lookup? other =
      if other = name then some value else chain.lookup? other := by
  simp only [lookup?, set, frames, List.findSome?_cons]
  by_cases same : other = name
  · subst same
    rw [if_pos rfl, Frame.get?_set_self]
  · rw [if_neg same, Frame.get?_set_of_ne _ value same]

/-- A new frame is searched before the others. -/
theorem lookup?_enter (chain : Chain) (frame : Frame) (name : String) :
    (chain.enter frame).lookup? name = (frame.get? name).or (chain.lookup? name) := by
  simp only [lookup?, enter, frames, List.findSome?_cons]
  cases frame.get? name <;> rfl

end Chain

/-- The frame of a new session: every primitive under its name. -/
def Frame.global : Frame :=
  Frame.ofPairs (Primitive.all.map fun p => (p.name, .prim p))

/-- The scope of a new session. -/
def Chain.global : Chain :=
  Chain.ofFrame Frame.global

end BufferLisp
