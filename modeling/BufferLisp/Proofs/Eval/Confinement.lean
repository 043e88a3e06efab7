import BufferLisp.Eval.InTree
import BufferLisp.Host.Recorder
import BufferLisp.Proofs.Eval.Effect

/-!
# Evaluation in a tree changes one frame

An evaluation in a frame of a tree leaves every other frame as it was: those outside it, those
inside it, and those beside it.  In its own frame it changes the binding of no name but those that
the expression assigns.  In particular a call of a user function changes no variable that was there
before the call, except by what is written in its arguments.

The evaluation itself works on the chain of the frame and its ancestors; `eval_effect` says what it
does to that chain.  What remains is that putting the chain back into the tree writes to each
ancestor the bindings it already had.
-/

set_option autoImplicit false

namespace BufferLisp

namespace Tree

/-! ## Changing one frame -/

/-- Writing new bindings to a frame gives it those bindings, if there is such a frame. -/
theorem frame_modifyFrame_self (tree : Tree) (i : Nat) (written : Frame) :
    (tree.modifyFrame i fun _ => written).frame i = written ∨
      (tree.modifyFrame i fun _ => written).frame i = tree.frame i := by
  rw [frame, nodes_modifyFrame, if_pos rfl, frame]
  cases tree.nodes[i]? with
  | none => exact .inr rfl
  | some node => exact .inl rfl

/-- A node is what it was when its own bindings are written to it. -/
theorem nodes_modifyFrame_frame (tree other : Tree) (i j : Nat)
    (same : other.nodes[j]? = tree.nodes[j]?) :
    (other.modifyFrame i fun _ => tree.frame i).nodes[j]? = tree.nodes[j]? := by
  rw [nodes_modifyFrame, same]
  split
  · next here =>
    subst here
    rw [frame]
    cases tree.nodes[i]? with
    | none => rfl
    | some node => rfl
  · rfl

/-! ## Putting a chain back -/

/-- Writes to the given frames the bindings that they have in `tree`. -/
def putBack (tree : Tree) (places : List Nat) (start : Tree) : Tree :=
  places.foldl (fun current i => current.modifyFrame i fun _ => tree.frame i) start

/-- A chain whose outer frames are those of the tree is put back by writing the current frame, and
to each ancestor the bindings it had. -/
theorem putChain_eq (tree : Tree) (i : Nat) {chain : Chain}
    (outer : chain.outer = (tree.chain i).outer) :
    tree.putChain i chain =
      tree.putBack (tree.path i).tail (tree.modifyFrame i fun _ => chain.current) := by
  have zipped : ∀ (places : List Nat) (start : Tree),
      (places.zip (places.map tree.frame)).foldl
        (fun tree entry => tree.modifyFrame entry.1 fun _ => entry.2) start =
      tree.putBack places start := by
    intro places
    induction places with
    | nil => exact fun _ => rfl
    | cons j rest ih => exact fun start => ih _
  rw [putChain, Chain.frames, outer]
  exact zipped _ _

/-- What writing a frame's own bindings keeps, putting frames back keeps. -/
theorem putBack_keeps (tree : Tree) {P : Tree → Prop}
    (kept : ∀ current i, P current → P (current.modifyFrame i fun _ => tree.frame i))
    (places : List Nat) {start : Tree} (holds : P start) : P (tree.putBack places start) := by
  induction places generalizing start with
  | nil => exact holds
  | cons i rest ih => exact ih (kept start i holds)

end Tree

/-! ## Evaluation -/

/-- A call assigns only what its arguments assign. -/
theorem Value.Assigns.of_call {f name : String} {args : List Value}
    (ordinary : SpecialForm.ofName? f = none)
    (assigned : (Value.list (.sym f :: args)).Assigns name) : ∃ arg ∈ args, arg.Assigns name := by
  cases assigned with
  | setq pair target => nomatch ordinary
  | defun => nomatch ordinary
  | within member assigned =>
      rcases List.mem_cons.mp member with rfl | member
      · nomatch assigned
      · exact ⟨_, member, assigned⟩

variable {σ : Type} [Host σ]

/-- The tree after an evaluation: the current frame is written, and to each ancestor what it had. -/
theorem Tree.tree_eval (limit : Nat) (tree : Tree) (host : σ) (i : Nat) (e : Value) :
    (tree.eval limit host i e).2.1 = tree.putBack (tree.path i).tail (tree.modifyFrame i fun _ =>
      ((BufferLisp.eval limit e).runOn ⟨tree.chain i, host⟩).2.scope.current) :=
  tree.putChain_eq i (eval_effect limit e ⟨tree.chain i, host⟩).outer

/-- The other frames of the tree stay as they were. -/
theorem Tree.nodes_eval_of_ne (limit : Nat) (tree : Tree) (host : σ) {i j : Nat} (e : Value)
    (different : j ≠ i) : (tree.eval limit host i e).2.1.nodes[j]? = tree.nodes[j]? := by
  rw [tree_eval]
  refine tree.putBack_keeps (fun current k => nodes_modifyFrame_frame tree current k j) _ ?_
  rw [nodes_modifyFrame, if_neg different.symm]

/-- In its own frame the evaluation changes no name that the expression does not assign. -/
theorem Tree.get?_eval_of_not_assigns (limit : Nat) (tree : Tree) (host : σ) (i : Nat) (e : Value)
    {name : String} (free : ¬ e.Assigns name) :
    ((tree.eval limit host i e).2.1.frame i).get? name = (tree.frame i).get? name := by
  rw [tree_eval]
  refine tree.putBack_keeps (P := fun current =>
    (current.frame i).get? name = (tree.frame i).get? name) (fun current k same => ?_) _ ?_
  · by_cases here : k = i
    · subst here
      rcases frame_modifyFrame_self current k (tree.frame k) with written | written
      · rw [written]
      · rw [written, same]
    · rw [frame_modifyFrame_of_ne current _ here, same]
  · rcases tree.frame_modifyFrame_self i _ with written | written
    · rw [written]
      exact (eval_effect limit e ⟨tree.chain i, host⟩).current name free
    · rw [written]

/-- **Evaluation in a frame of a tree writes only to that frame, and there only to names that the
expression assigns.**  A call of a function writes only what its arguments assign. -/
theorem Tree.eval_confined (limit : Nat) (tree : Tree) (host : σ) (i : Nat) (e : Value) :
    (∀ j, j ≠ i → (tree.eval limit host i e).2.1.nodes[j]? = tree.nodes[j]?) ∧
    (∀ name, ¬ e.Assigns name →
      ((tree.eval limit host i e).2.1.frame i).get? name = (tree.frame i).get? name) ∧
    (∀ f args, e = .list (.sym f :: args) → SpecialForm.ofName? f = none →
      ∀ name, (∀ arg ∈ args, ¬ arg.Assigns name) →
        ((tree.eval limit host i e).2.1.frame i).get? name = (tree.frame i).get? name) := by
  refine ⟨fun j different => tree.nodes_eval_of_ne limit host e different,
    fun name free => tree.get?_eval_of_not_assigns limit host i e free, ?_⟩
  rintro f args rfl ordinary name free
  apply tree.get?_eval_of_not_assigns
  intro assigned
  obtain ⟨arg, member, assigned⟩ := assigned.of_call ordinary
  exact free arg member assigned

/-- The body of the function assigns a name that is bound where the call stands, and once more
outside of it: neither binding is changed. -/
theorem Tree.eval_confined_call :
    let body : Value := .list [.sym "setq", .sym "x", .sym "a"]
    let call : Value := .list [.sym "f", .str "new"]
    let tree := ((Tree.root.setAll 0 [("f", .fn ["a"] body), ("x", .str "outer")]).child 0).2.set 1
      "x" (.str "inner")
    let after := tree.eval 10 Page.blank 1 call
    after.1 = .ok (.str "new") ∧ after.2.1.nodes[0]? = tree.nodes[0]? ∧
      (after.2.1.frame 1).get? "x" = some (.str "inner") := by
  intro body call tree after
  obtain ⟨others, -, own⟩ := Tree.eval_confined 10 tree Page.blank 1 call
  refine ⟨rfl, others 0 (by decide), ?_⟩
  refine (own "f" _ rfl rfl "x" ?_).trans rfl
  intro arg member
  obtain rfl := List.mem_singleton.mp member
  exact nofun

end BufferLisp
