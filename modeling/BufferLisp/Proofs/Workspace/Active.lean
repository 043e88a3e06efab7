import BufferLisp.Workspace.Basic

/-!
# Changing the active buffer

The active buffer is the first one of the active name.  A change of it leaves the buffers around it
alone (`exists_active`, `modifyNamed_append`), so only what becomes of the active buffer itself
matters, and two changes in a row are one, as long as the name is kept.
-/

set_option autoImplicit false

namespace BufferLisp

namespace Workspace

theorem modifyNamed_append {name : String} {front : List Buffer}
    (others : ∀ other ∈ front, other.name ≠ name) {buffer : Buffer} (named : buffer.name = name)
    (back : List Buffer) (change : Buffer → Buffer) :
    modifyNamed name change (front ++ buffer :: back) = front ++ change buffer :: back := by
  induction front with
  | nil => simp [modifyNamed, named]
  | cons first front ih =>
      have ih := ih fun other member => others other (List.mem_cons_of_mem first member)
      simp [modifyNamed, others first List.mem_cons_self, ih]

/-- The active buffer is the first one of its name. -/
theorem exists_active {workspace : Workspace} {buffer : Buffer}
    (active : workspace.activeBuffer? = some buffer) :
    ∃ front back, workspace.buffers = front ++ buffer :: back ∧ buffer.name = workspace.active ∧
      ∀ other ∈ front, other.name ≠ workspace.active := by
  obtain ⟨named, front, back, buffers, others⟩ := List.find?_eq_some_iff_append.mp active
  refine ⟨front, back, buffers, by simpa using named, fun other member => ?_⟩
  simpa using others other member

section Active

variable {workspace : Workspace} {buffer : Buffer}
  (active : workspace.activeBuffer? = some buffer) {change : Buffer → Buffer}

include active

/-- Only what becomes of the active buffer matters. -/
theorem modifyActive_congr {other : Buffer → Buffer} (same : change buffer = other buffer) :
    workspace.modifyActive change = workspace.modifyActive other := by
  obtain ⟨front, back, buffers, named, others⟩ := exists_active active
  unfold modifyActive
  rw [buffers, modifyNamed_append others named, modifyNamed_append others named, same]

theorem modifyActive_eq_self (same : change buffer = buffer) :
    workspace.modifyActive change = workspace := by
  obtain ⟨front, back, buffers, named, others⟩ := exists_active active
  unfold modifyActive
  rw [buffers, modifyNamed_append others named, same, ← buffers]

/-- A change that keeps the name is made to the active buffer, which stays the active one. -/
theorem activeBuffer?_of_modifyActive (keeps : (change buffer).name = buffer.name) :
    (workspace.modifyActive change).activeBuffer? = some (change buffer) := by
  obtain ⟨front, back, buffers, named, others⟩ := exists_active active
  refine List.find?_eq_some_iff_append.mpr ⟨?_, front, back, ?_, ?_⟩
  · rw [keeps, named]
    exact beq_self_eq_true _
  · rw [modifyActive, buffers, modifyNamed_append others named]
  · intro other member
    simpa [modifyActive] using others other member

theorem modifyActive_modifyActive (keeps : (change buffer).name = buffer.name)
    (other : Buffer → Buffer) :
    (workspace.modifyActive change).modifyActive other =
      workspace.modifyActive fun buffer => other (change buffer) := by
  obtain ⟨front, back, buffers, named, others⟩ := exists_active active
  unfold modifyActive
  dsimp only
  rw [buffers, modifyNamed_append others named, modifyNamed_append others named,
    modifyNamed_append others (keeps.trans named)]

end Active

end Workspace

end BufferLisp
