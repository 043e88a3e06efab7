import BufferLisp.Scope.Tree

/-!
# What a tree of frames remembers

A tree of frames is built from its root by adding frames and by writing to frames, in any order.  The
history of these operations tells by itself what a name means in a frame: which frames lie on the
way to the root is told by the operations that added them, and what a frame binds by the operations
that wrote to it.  The tree answers accordingly (`built_scopedMap`): a name has the value that was
last written for it to the nearest frame on the way to the root that it was ever written to.

So a write reaches the frames inside the one written to, and of these only the ones from which no
nearer frame binds the name.
-/

set_option autoImplicit false

namespace BufferLisp

namespace Tree

/-! ## Histories -/

/-- An operation on a tree: a new frame is added inside another, or names are written to a frame. -/
inductive Operation where
  | child (parent : Nat)
  | set (place : Nat) (name : String) (value : Value)
  | setAll (place : Nat) (pairs : List (String × Value))

namespace Operation

/-- The frame that an operation is made on. -/
def place : Operation → Nat
  | child parent => parent
  | set place _ _ => place
  | setAll place _ => place

/-- What an operation makes of a tree. -/
def perform : Operation → Tree → Tree
  | child parent, tree => (tree.child parent).2
  | set place name value, tree => tree.set place name value
  | setAll place pairs, tree => tree.setAll place pairs

/-- What an operation binds in its frame. -/
def pairs : Operation → List (String × Value)
  | child _ => []
  | set _ name value => [(name, value)]
  | setAll _ pairs => pairs

/-- The value that an operation writes for a name to a frame, if it writes one; of several the
last. -/
def written? (operation : Operation) (i : Nat) (name : String) : Option Value :=
  if i = operation.place then operation.pairs.reverse.lookup name else none

/-- A name that an operation does not bind it does not write. -/
theorem written?_eq_none (operation : Operation) {name : String}
    (unnamed : name ∉ operation.pairs.map Prod.fst) (i : Nat) : operation.written? i name = none := by
  rw [written?]
  split
  · rw [List.lookup_eq_none_iff]
    intro pair member
    rw [bne_iff_ne]
    rintro rfl
    exact unnamed (List.mem_map_of_mem (List.mem_reverse.mp member))
  · rfl

end Operation

/-- The tree that is built by a history of operations, the latest of which stands first. -/
def built : List Operation → Tree
  | [] => root
  | operation :: earlier => operation.perform (built earlier)

/-- How many frames there are after a history. -/
def frameCount : List Operation → Nat
  | [] => 1
  | .child _ :: earlier => frameCount earlier + 1
  | _ :: earlier => frameCount earlier

/-- Every operation is made on a frame that is there. -/
def Proper : List Operation → Prop
  | [] => True
  | operation :: earlier => operation.place < frameCount earlier ∧ Proper earlier

/-- The frame inside which a frame was added. -/
def parent? : List Operation → Nat → Option Nat
  | [], _ => none
  | .child parent :: earlier, i =>
    if i = frameCount earlier then some parent else parent? earlier i
  | _ :: earlier, i => parent? earlier i

/-- The way from a frame to the root. -/
inductive Ascends (history : List Operation) : Nat → List Nat → Prop
  | root : Ascends history 0 [0]
  | up {i parent : Nat} {path : List Nat} (inside : parent? history i = some parent)
      (rest : Ascends history parent path) : Ascends history i (i :: path)

/-- The value that was last written for a name to a frame. -/
def lastWritten? (history : List Operation) (i : Nat) (name : String) : Option Value :=
  history.findSome? (·.written? i name)

/-! ## Frames -/

theorem length_built (history : List Operation) :
    (built history).nodes.length = frameCount history := by
  induction history with
  | nil => rfl
  | cons operation earlier ih =>
      cases operation with
      | child parent => simp [built, Operation.perform, Tree.child, frameCount, ih]
      | set place name value =>
          simp [built, Operation.perform, Tree.set, modifyFrame, frameCount, ih]
      | setAll place pairs =>
          simp [built, Operation.perform, Tree.setAll, modifyFrame, frameCount, ih]

/-- An operation changes the bindings of its own frame only. -/
theorem frame_perform (tree : Tree) {operation : Operation}
    (there : operation.place < tree.nodes.length) (i : Nat) :
    (operation.perform tree).frame i =
      if i = operation.place then (tree.frame i).setAll operation.pairs else tree.frame i := by
  have written : ∀ change, (tree.modifyFrame operation.place change).frame i =
      if i = operation.place then change (tree.frame i) else tree.frame i := by
    intro change
    split
    · next here =>
      subst here
      exact tree.frame_modifyFrame_of_lt there change
    · next elsewhere => exact tree.frame_modifyFrame_of_ne change (Ne.symm elsewhere)
  cases operation with
  | child parent =>
      have same : (tree.frame i).setAll [] = tree.frame i := rfl
      rw [Operation.pairs, same, ite_self]
      exact tree.frame_child parent i
  | set place name value => exact written _
  | setAll place pairs => exact written _

/-- What a frame binds after an operation is what the operation writes, and what it bound before. -/
theorem get?_perform (tree : Tree) {operation : Operation}
    (there : operation.place < tree.nodes.length) (i : Nat) (name : String) :
    ((operation.perform tree).frame i).get? name =
      (operation.written? i name).or ((tree.frame i).get? name) := by
  rw [tree.frame_perform there, Operation.written?]
  split
  · exact Frame.get?_setAll _ _ _
  · rfl

/-- **A frame binds a name to the value that was last written for it.** -/
theorem get?_built {history : List Operation} (proper : Proper history) (i : Nat) (name : String) :
    ((built history).frame i).get? name = lastWritten? history i name := by
  induction history with
  | nil =>
      cases i with
      | zero => rfl
      | succ i => rfl
  | cons operation earlier ih =>
      obtain ⟨there, before⟩ := proper
      rw [← length_built] at there
      rw [built, get?_perform _ there, ih before, lastWritten?, lastWritten?, List.findSome?_cons]
      cases operation.written? i name <;> rfl

/-! ## Ways to the root -/

/-- A frame comes after the one inside which it was added. -/
theorem lt_of_parent? {history : List Operation} (proper : Proper history) {i parent : Nat}
    (inside : parent? history i = some parent) : parent < i ∧ i < frameCount history := by
  induction history with
  | nil => nomatch inside
  | cons operation earlier ih =>
      obtain ⟨there, before⟩ := proper
      cases operation with
      | child other =>
          rw [parent?] at inside
          rw [frameCount]
          split at inside
          · next new =>
            obtain rfl := Option.some.inj inside
            subst new
            exact ⟨there, Nat.lt_succ_self _⟩
          · obtain ⟨less, old⟩ := ih before inside
            exact ⟨less, Nat.lt_succ_of_lt old⟩
      | set place name value => exact ih before inside
      | setAll place pairs => exact ih before inside

/-- Later operations leave the parent of a frame as it is. -/
theorem parent?_cons {earlier : List Operation} (operation : Operation) {i : Nat}
    (old : i < frameCount earlier) : parent? (operation :: earlier) i = parent? earlier i := by
  cases operation with
  | child parent => rw [parent?, if_neg (Nat.ne_of_lt old)]
  | set place name value => rfl
  | setAll place pairs => rfl

theorem Ascends.later {earlier : List Operation} (proper : Proper earlier) (operation : Operation)
    {i : Nat} {path : List Nat} (ascends : Ascends earlier i path) :
    Ascends (operation :: earlier) i path := by
  induction ascends with
  | root => exact .root
  | up inside _ ih =>
      have old := (lt_of_parent? proper inside).2
      exact .up ((parent?_cons operation old).trans inside) ih

theorem path_perform_of_lt (tree : Tree) (operation : Operation) {i : Nat}
    (old : i < tree.nodes.length) : (operation.perform tree).path i = tree.path i := by
  cases operation with
  | child parent => exact tree.path_child_of_lt parent old
  | set place name value => exact tree.path_modifyFrame place i _
  | setAll place pairs => exact tree.path_modifyFrame place i _

/-- **The path of a frame is its way to the root.** -/
theorem ascends_path {history : List Operation} (proper : Proper history) {i : Nat}
    (there : i < frameCount history) : Ascends history i ((built history).path i) := by
  induction history generalizing i with
  | nil =>
      obtain rfl : i = 0 := Nat.lt_one_iff.mp there
      exact .root
  | cons operation earlier ih =>
      obtain ⟨placed, before⟩ := proper
      by_cases old : i < frameCount earlier
      · rw [built, path_perform_of_lt _ operation (length_built earlier ▸ old)]
        exact (ih before old).later before operation
      · cases operation with
        | child parent =>
            obtain rfl : i = frameCount earlier := by
              rw [frameCount] at there
              omega
            rw [built, Operation.perform, ← length_built, path_child_self, length_built]
            have inside : parent? (.child parent :: earlier) (frameCount earlier) = some parent :=
              if_pos rfl
            exact .up inside ((ih before placed).later before _)
        | set place name value => exact absurd there old
        | setAll place pairs => exact absurd there old

/-! ## Looking names up -/

/-- Two searches along a path that differ in one place only have different results only if both get
to that place. -/
theorem exists_nearer_of_ne {before after : Nat → Option Value} {place : Nat} {path : List Nat}
    (elsewhere : ∀ j, j ≠ place → after j = before j)
    (changed : path.findSome? after ≠ path.findSome? before) :
    ∃ nearer farther, path = nearer ++ place :: farther ∧ ∀ j ∈ nearer, before j = none := by
  induction path with
  | nil => exact absurd rfl changed
  | cons j rest ih =>
      by_cases here : j = place
      · subst here
        exact ⟨[], rest, rfl, nofun⟩
      · rw [List.findSome?_cons, List.findSome?_cons, elsewhere j here] at changed
        cases bound : before j with
        | some value =>
            rw [bound] at changed
            exact absurd rfl changed
        | none =>
            rw [bound] at changed
            obtain ⟨nearer, farther, rfl, free⟩ := ih changed
            exact ⟨j :: nearer, farther, rfl, List.forall_mem_cons.mpr ⟨bound, free⟩⟩

/-- What changes the meaning of a name in a frame writes that name, to the frame or to one outside
it, and no nearer frame binds it. -/
theorem nearer_of_lookup?_perform (tree : Tree) {operation : Operation}
    (there : operation.place < tree.nodes.length) {i : Nat} (old : i < tree.nodes.length)
    {name : String} (changed : (operation.perform tree).lookup? i name ≠ tree.lookup? i name) :
    name ∈ operation.pairs.map Prod.fst ∧
      ∃ nearer farther, tree.path i = nearer ++ operation.place :: farther ∧
        ∀ j ∈ nearer, (tree.frame j).get? name = none := by
  simp only [lookup?_eq_findSome?, tree.path_perform_of_lt operation old,
    tree.get?_perform there] at changed
  refine ⟨?_, exists_nearer_of_ne (fun j elsewhere => ?_) changed⟩
  · by_cases named : name ∈ operation.pairs.map Prod.fst
    · exact named
    · simp only [operation.written?_eq_none named, Option.none_or] at changed
      exact absurd rfl changed
  · rw [Operation.written?, if_neg elsewhere, Option.none_or]

/-- **Trees of frames are scoped maps.**  Let a tree be built by any operations on frames that are
there.  From each of its frames a way leads to the root.  The nearest frame on it to which a name was
ever written is the one that is found for the name, and what was last written for it there is its
value; if there is no such frame, the name is unbound.  A further operation changes what the name
means in the frame only if it writes this name, to a frame on the way, and no nearer frame binds
it. -/
theorem built_scopedMap {history : List Operation} (proper : Proper history) {i : Nat}
    (there : i < frameCount history) :
    let tree := built history
    let path := tree.path i
    Ascends history i path ∧ ∀ name,
      tree.lookup i name =
        (match path.findSome? (lastWritten? history · name) with
          | some value => .ok value
          | none => .error (.unbound name)) ∧
      tree.find? i name = path.find? (fun j => (lastWritten? history j name).isSome) ∧
      tree.contains i name = (tree.find? i name).isSome ∧
      ∀ operation : Operation, operation.place < frameCount history →
        (operation.perform tree).lookup i name ≠ tree.lookup i name →
          name ∈ operation.pairs.map Prod.fst ∧
            ∃ nearer farther, path = nearer ++ operation.place :: farther ∧
              ∀ j ∈ nearer, (tree.frame j).binds name = false := by
  intro tree path
  have length : tree.nodes.length = frameCount history := length_built history
  refine ⟨ascends_path proper there, fun name => ⟨?_, ?_, rfl, ?_⟩⟩
  · have found : tree.lookup? i name = path.findSome? (lastWritten? history · name) := by
      simp only [lookup?_eq_findSome?, path, tree, get?_built proper]
    cases last : path.findSome? (lastWritten? history · name) <;> rw [Tree.lookup, found, last]
  · simp only [Tree.find?, Frame.binds, path, tree, get?_built proper]
  · intro operation placed changed
    have changed : (operation.perform tree).lookup? i name ≠ tree.lookup? i name := by
      intro same
      rw [Tree.lookup, Tree.lookup, same] at changed
      exact changed rfl
    obtain ⟨named, nearer, farther, split, free⟩ :=
      tree.nearer_of_lookup?_perform (length ▸ placed) (length ▸ there) changed
    refine ⟨named, nearer, farther, split, fun j member => ?_⟩
    rw [Frame.binds, free j member]
    rfl

/-- Two frames stand side by side inside the root, and the root is written to after both are there.
The frame with a binding of its own finds that, and the other one finds what the root binds by then;
a further write to the root changes what the second frame finds. -/
theorem built_scopedMap_siblings :
    let history : List Operation := [.set 0 "x" (.str "new"), .child 0,
      .setAll 1 [("x", .str "first"), ("x", .str "inner")], .child 0, .set 0 "x" (.str "old")]
    let tree := built history
    Proper history ∧ Ascends history 2 [2, 0] ∧
      tree.lookup 1 "x" = .ok (.str "inner") ∧ tree.lookup 2 "x" = .ok (.str "new") ∧
      tree.find? 2 "x" = some 0 ∧ tree.lookup 2 "y" = .error (.unbound "y") ∧
      (tree.set 0 "x" .nil).lookup 2 "x" ≠ tree.lookup 2 "x" ∧
      ∃ nearer farther, [2, 0] = nearer ++ 0 :: farther ∧
        ∀ j ∈ nearer, (tree.frame j).binds "x" = false := by
  intro history tree
  have proper : Proper history := by
    simp [history, Proper, frameCount, Operation.place]
  have inner := (built_scopedMap (i := 1) proper (by decide)).2 "x"
  obtain ⟨ascends, names⟩ := built_scopedMap (i := 2) proper (by decide)
  obtain ⟨value, nearest, -, reached⟩ := names "x"
  have changed : (tree.set 0 "x" .nil).lookup 2 "x" ≠ tree.lookup 2 "x" := by
    intro same
    nomatch Except.ok.inj same
  exact ⟨proper, ascends, inner.1, value, nearest, (names "y").1, changed,
    (reached (.set 0 "x" .nil) (by decide) changed).2⟩

end Tree

end BufferLisp
