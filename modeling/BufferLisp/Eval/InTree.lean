import BufferLisp.Eval.Step
import BufferLisp.Scope.Tree

/-!
# Evaluation in a tree of frames

An expression can be evaluated in any frame of a tree.  The names in scope are those of the frame
and its ancestors, and what the evaluation leaves in these frames is put back into the tree.
Frames that are made during the evaluation are not kept.
-/

set_option autoImplicit false

namespace BufferLisp

/-- Evaluates an expression in a frame of a tree, on a host. -/
def Tree.eval {σ : Type} [Host σ] (limit : Nat) (tree : Tree) (host : σ) (i : Nat) (e : Value) :
    Except Stop Value × Tree × σ :=
  let (result, world) := (BufferLisp.eval limit e).runOn ⟨tree.chain i, host⟩
  (result, tree.putChain i world.scope, world.host)

end BufferLisp
