import BufferLisp.Host.Request
import BufferLisp.Scope.Chain

/-!
# Evaluations

An evaluation works on a *world*: the chain of frames in scope and the state of the host.  It ends
with a result, or it stops early: by an error of the program, because the depth limit is exhausted,
or because an offset in the host is too great to be a number.  Either way the world stays as the
evaluation has left it: nothing is undone.
-/

set_option autoImplicit false

namespace BufferLisp

/-- Why an evaluation ends without a value. -/
inductive Stop where
  /-- The program is at fault. -/
  | error (cause : LispError)
  /-- More evaluations are nested than the limit allows. -/
  | exhausted
  /-- An offset of the host is too great for every finite number. -/
  | outOfRange

/-- The wording of a stop; running out of depth has none. -/
def Stop.message? : Stop → Option String
  | .error cause => some cause.message
  | .exhausted => none
  | .outOfRange => some "int too large to convert to float"

/-- What an evaluation reads and changes. -/
structure World (σ : Type) where
  scope : Chain
  host : σ

/-- A computation on a world that ends with a value or stops early; the world is kept either way. -/
abbrev EvalM (σ : Type) := ExceptT Stop (StateM (World σ))

namespace EvalM

variable {σ α β : Type}

/-- Runs a computation on a world. -/
def runOn (world : World σ) (action : EvalM σ α) : Except Stop α × World σ :=
  action world

/-- Stops with an error of the program. -/
def fail (cause : LispError) : EvalM σ α :=
  throw (.error cause)

/-- The value in a result, or its error. -/
def ofExcept : Except LispError α → EvalM σ α
  | .ok a => pure a
  | .error cause => fail cause

/-- Sends a request to the host. -/
def ask [Host σ] (request : Request) : EvalM σ request.Reply :=
  ExceptT.mk fun world =>
    let (reply, host) := Host.handle request world.host
    (.ok reply, { world with host })

/-- The value of a name in scope. -/
def lookup (name : String) : EvalM σ Value := do
  ofExcept ((← get).scope.lookup name)

/-- Binds a name in the current frame. -/
def assign (name : String) (value : Value) : EvalM σ Unit :=
  modify fun world => { world with scope := world.scope.set name value }

/-- Runs a computation inside a new frame, which is left when it ends or stops. -/
def inFrame (frame : Frame) (action : EvalM σ α) : EvalM σ α :=
  ExceptT.mk fun world =>
    let (result, after) := action.runOn { world with scope := world.scope.enter frame }
    (result, { after with scope := after.scope.leave })

/-! ## What running does

One equation for each way of building an evaluation, so that proofs need not look into the monad. -/

@[simp] theorem runOn_pure (world : World σ) (a : α) :
    (pure a : EvalM σ α).runOn world = (.ok a, world) := rfl

/-- What follows runs on the world that is left, unless the evaluation has stopped. -/
theorem runOn_bind (world : World σ) (action : EvalM σ α) (next : α → EvalM σ β) :
    (action >>= next).runOn world =
      match action.runOn world with
      | (.ok a, after) => (next a).runOn after
      | (.error stop, after) => (.error stop, after) := by
  change (match action world with | (result, after) => ExceptT.bindCont next result after) = _
  unfold runOn
  rcases action world with ⟨_ | _, after⟩ <;> rfl

@[simp] theorem runOn_throw (world : World σ) (stop : Stop) :
    (throw stop : EvalM σ α).runOn world = (.error stop, world) := rfl

@[simp] theorem runOn_fail (world : World σ) (cause : LispError) :
    (fail cause : EvalM σ α).runOn world = (.error (.error cause), world) := rfl

@[simp] theorem runOn_ofExcept (world : World σ) (result : Except LispError α) :
    (ofExcept result).runOn world = (result.mapError .error, world) := by
  cases result <;> rfl

/-- Asking changes the host and nothing else. -/
@[simp] theorem runOn_ask [Host σ] (world : World σ) (request : Request) :
    (ask request).runOn world =
      (.ok (Host.handle request world.host).1,
        { world with host := (Host.handle request world.host).2 }) := rfl

/-- Looking a name up changes nothing. -/
@[simp] theorem runOn_lookup (world : World σ) (name : String) :
    (lookup name).runOn world = ((world.scope.lookup name).mapError .error, world) := by
  change (ofExcept (world.scope.lookup name)).runOn world = _
  exact runOn_ofExcept world _

@[simp] theorem runOn_assign (world : World σ) (name : String) (value : Value) :
    (assign name value).runOn world =
      (.ok (), { world with scope := world.scope.set name value }) := rfl

/-- The new frame is entered before and left after, however the evaluation ends. -/
theorem runOn_inFrame (world : World σ) (frame : Frame) (action : EvalM σ α) :
    (inFrame frame action).runOn world =
      let ran := action.runOn { world with scope := world.scope.enter frame }
      (ran.1, { ran.2 with scope := ran.2.scope.leave }) := rfl

end EvalM

end BufferLisp
