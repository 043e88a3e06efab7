import BufferLisp.Scope.Chain

/-!
# Trees of frames

Frames that stay alive side by side form a tree: each has a parent, but for the root, and many may
share one.  A frame is known by its number.  It keeps the numbers of its ancestors, nearest first,
so the path to the root is part of the frame and looking a name up is a search along a list.

A frame of the tree with its ancestors makes a chain (`Tree.chain`), in which an expression can be
evaluated, and the frames of a chain can be put back (`Tree.putChain`).
-/

set_option autoImplicit false

namespace BufferLisp

/-- A frame in a tree with the numbers of its ancestors, parent first. -/
structure TreeFrame where
  frame : Frame
  ancestors : List Nat

/-- A tree of frames, numbered in the order in which they were made. -/
structure Tree where
  nodes : List TreeFrame

namespace Tree

/-- One empty frame, the root. -/
def root : Tree := ⟨[⟨Frame.empty, []⟩]⟩

/-- The bindings of a frame; a number that is not in use has none. -/
def frame (tree : Tree) (i : Nat) : Frame :=
  (tree.nodes[i]?.map (·.frame)).getD Frame.empty

/-- The numbers on the way from a frame to the root, the frame's own first. -/
def path (tree : Tree) (i : Nat) : List Nat :=
  i :: (tree.nodes[i]?.map (·.ancestors)).getD []

/-- Adds an empty child of a frame and tells its number. -/
def child (tree : Tree) (i : Nat) : Nat × Tree :=
  (tree.nodes.length, ⟨tree.nodes ++ [⟨Frame.empty, tree.path i⟩]⟩)

/-- Changes the bindings of one frame. -/
def modifyFrame (tree : Tree) (i : Nat) (change : Frame → Frame) : Tree :=
  ⟨tree.nodes.modify i fun node => { node with frame := change node.frame }⟩

/-- Binds a name in a frame. -/
def set (tree : Tree) (i : Nat) (name : String) (value : Value) : Tree :=
  tree.modifyFrame i (·.set name value)

/-- Binds the names of the pairs in a frame; the later of two pairs with one name wins. -/
def setAll (tree : Tree) (i : Nat) (pairs : List (String × Value)) : Tree :=
  tree.modifyFrame i (·.setAll pairs)

/-- The nearest frame on the way to the root that binds a name. -/
def find? (tree : Tree) (i : Nat) (name : String) : Option Nat :=
  (tree.path i).find? fun j => (tree.frame j).binds name

/-- The value of a name in the nearest frame that binds it. -/
def lookup? (tree : Tree) (i : Nat) (name : String) : Option Value :=
  (tree.find? i name).bind fun j => (tree.frame j).get? name

/-- The value of a name, or the error that no frame on the way to the root binds it. -/
def lookup (tree : Tree) (i : Nat) (name : String) : Except LispError Value :=
  match tree.lookup? i name with
  | some value => .ok value
  | none => .error (.unbound name)

/-- Whether a frame on the way to the root binds a name. -/
def contains (tree : Tree) (i : Nat) (name : String) : Bool :=
  (tree.find? i name).isSome

/-- The chain of a frame and its ancestors. -/
def chain (tree : Tree) (i : Nat) : Chain :=
  ⟨tree.frame i, (tree.path i).tail.map tree.frame⟩

/-- Puts the frames of a chain back at a frame and its ancestors. -/
def putChain (tree : Tree) (i : Nat) (chain : Chain) : Tree :=
  ((tree.path i).zip chain.frames).foldl
    (fun tree entry => tree.modifyFrame entry.1 fun _ => entry.2) tree

/-- A name means in the chain of a frame what it means in the frame. -/
theorem lookup?_chain (tree : Tree) (i : Nat) (name : String) :
    (tree.chain i).lookup? name = tree.lookup? i name := by
  have along : ∀ places : List Nat, (places.map tree.frame).findSome? (·.get? name) =
      (places.find? fun j => (tree.frame j).binds name).bind fun j => (tree.frame j).get? name := by
    intro places
    induction places with
    | nil => rfl
    | cons j rest ih =>
        rw [List.map_cons, List.findSome?_cons, List.find?_cons, Frame.binds]
        cases found : (tree.frame j).get? name with
        | none => exact ih
        | some value => exact found.symm
  exact along (tree.path i)

/-- A name is looked up along the path. -/
theorem lookup?_eq_findSome? (tree : Tree) (i : Nat) (name : String) :
    tree.lookup? i name = (tree.path i).findSome? fun j => (tree.frame j).get? name := by
  have along : (tree.chain i).frames = (tree.path i).map tree.frame := rfl
  rw [← tree.lookup?_chain, Chain.lookup?, along, List.findSome?_map]
  rfl

/-! ## What the operations change -/

theorem nodes_modifyFrame (tree : Tree) (i j : Nat) (change : Frame → Frame) :
    (tree.modifyFrame i change).nodes[j]? =
      if i = j then tree.nodes[j]?.map fun node => { node with frame := change node.frame }
      else tree.nodes[j]? := by
  by_cases same : i = j
  · subst same
    simp [modifyFrame]
  · simp [modifyFrame, same]

theorem frame_modifyFrame_of_ne (tree : Tree) {i j : Nat} (change : Frame → Frame)
    (different : i ≠ j) : (tree.modifyFrame i change).frame j = tree.frame j := by
  rw [frame, nodes_modifyFrame, if_neg different, frame]

/-- A new frame binds nothing, as the number that it gets did not before. -/
theorem frame_child (tree : Tree) (parent i : Nat) :
    (tree.child parent).2.frame i = tree.frame i := by
  unfold Tree.frame Tree.child
  dsimp only
  rcases Nat.lt_trichotomy i tree.nodes.length with old | rfl | beyond
  · rw [List.getElem?_append_left old]
  · simp
  · rw [List.getElem?_eq_none (by simp; omega), List.getElem?_eq_none (by omega)]

theorem path_child_self (tree : Tree) (parent : Nat) :
    (tree.child parent).2.path tree.nodes.length = tree.nodes.length :: tree.path parent := by
  simp [Tree.path, Tree.child]

theorem path_child_of_lt (tree : Tree) (parent : Nat) {i : Nat} (old : i < tree.nodes.length) :
    (tree.child parent).2.path i = tree.path i := by
  unfold Tree.path Tree.child
  dsimp only
  rw [List.getElem?_append_left old]

theorem path_modifyFrame (tree : Tree) (i j : Nat) (change : Frame → Frame) :
    (tree.modifyFrame i change).path j = tree.path j := by
  rw [Tree.path, nodes_modifyFrame, Tree.path]
  split
  · cases tree.nodes[j]? <;> rfl
  · rfl

/-- A frame that is there is changed by what changes it. -/
theorem frame_modifyFrame_of_lt (tree : Tree) {i : Nat} (there : i < tree.nodes.length)
    (change : Frame → Frame) : (tree.modifyFrame i change).frame i = change (tree.frame i) := by
  rw [Tree.frame, nodes_modifyFrame, if_pos rfl, Tree.frame, List.getElem?_eq_getElem there]
  rfl

end Tree

end BufferLisp
