import BufferLisp.Workspace.Basic
import Mathlib.Data.List.Nodup
import Mathlib.Data.List.TakeWhile

/-!
# Well-formed workspaces

A workspace is well formed when it has a buffer, no two buffers share a name, the active name is
that of a buffer, and every cursor lies within its text.  Each request keeps a workspace well formed
(`WellFormed.handle`), and so does each change that a command makes to it directly: another echo,
a change of the active buffer that keeps its name and puts its cursor within its text, a visit, and
the removal of a buffer.  Inserting, moving to an offset and moving by a line are such changes of a
buffer.
-/

set_option autoImplicit false

namespace BufferLisp

/-! ## Cursors -/

namespace Text

theorem lineStart_le (cs : List Char) (index : Nat) : lineStart cs index ≤ index := by
  have short : (cs.take index).length ≤ index := List.length_take_le index cs
  unfold lineStart
  dsimp only
  omega

theorem lineEnd_le {cs : List Char} {index : Nat} (within : index ≤ cs.length) :
    lineEnd cs index ≤ cs.length := by
  have short : ((cs.drop index).takeWhile isInline).length ≤ (cs.drop index).length :=
    (List.takeWhile_prefix _).length_le
  rw [List.length_drop] at short
  unfold lineEnd
  omega

/-- A line with another one behind it ends before the end of the text. -/
theorem lineEnd_lt {cs : List Char} {index : Nat} (more : hasLineAfter cs index = true) :
    lineEnd cs index < cs.length := by
  have newline : '\n' ∈ cs.drop index := by simpa [hasLineAfter] using more
  have shorter : ((cs.drop index).takeWhile isInline).length < (cs.drop index).length := by
    refine Nat.lt_of_le_of_ne (List.takeWhile_prefix _).length_le ?_
    intro same
    have all := (List.takeWhile_prefix isInline).eq_of_length same
    have inline := List.mem_takeWhile_imp (all ▸ newline)
    exact absurd inline (by decide)
  rw [List.length_drop] at shorter
  unfold lineEnd
  omega

/-- One line up the cursor is within the text. -/
theorem upLine_mem {cs : List Char} {cursor : Int} (low : 0 ≤ cursor) (high : cursor ≤ cs.length) :
    0 ≤ upLine cs cursor ∧ upLine cs cursor ≤ cs.length := by
  have here : lineStart cs (index cs.length cursor) ≤ index cs.length cursor := lineStart_le _ _
  have same : index cs.length cursor = cursor.toNat := by
    rw [index, if_neg (by omega)]
    omega
  unfold upLine
  dsimp only
  split
  · exact ⟨low, high⟩
  · have above := lineStart_le cs (lineStart cs (index cs.length cursor) - 1)
    omega

/-- One line down the cursor is within the text. -/
theorem downLine_mem {cs : List Char} {cursor : Int} (low : 0 ≤ cursor)
    (high : cursor ≤ cs.length) : 0 ≤ downLine cs cursor ∧ downLine cs cursor ≤ cs.length := by
  have here : lineStart cs (index cs.length cursor) ≤ index cs.length cursor := lineStart_le _ _
  have same : index cs.length cursor = cursor.toNat := by
    rw [index, if_neg (by omega)]
    omega
  unfold downLine
  dsimp only
  split
  · next more =>
    have before := lineEnd_lt more
    have below : lineEnd cs (lineEnd cs (index cs.length cursor) + 1) ≤ cs.length :=
      lineEnd_le before
    omega
  · exact ⟨low, high⟩

theorem clamp_mem (length : Nat) (offset : Int) :
    0 ≤ clamp length offset ∧ clamp length offset ≤ length := by
  unfold clamp
  omega

theorem length_insertAt (s : String) (offset : Int) (inserted : String) :
    (insertAt s offset inserted).length = s.length + inserted.length := by
  have parts := congrArg List.length (before_append_after s.toList offset)
  rw [List.length_append, String.length_toList] at parts
  simp only [insertAt, String.length_ofList, List.length_append, String.length_toList]
  omega

end Text

namespace Buffer

/-- The cursor lies within the text. -/
def CursorInText (buffer : Buffer) : Prop :=
  0 ≤ buffer.cursor ∧ buffer.cursor ≤ buffer.content.length

/-- A change of a buffer that keeps its name and leaves the cursor within the text. -/
def Proper (change : Buffer → Buffer) : Prop :=
  ∀ buffer, (change buffer).name = buffer.name ∧
    (buffer.CursorInText → (change buffer).CursorInText)

theorem insert_proper (text : String) : Proper (·.insert text) := by
  intro buffer
  refine ⟨rfl, ?_⟩
  rintro ⟨low, high⟩
  have grown := Text.length_insertAt buffer.content buffer.cursor text
  simp only [CursorInText, insert]
  omega

theorem moveTo_proper (offset : Int) : Proper (·.moveTo offset) :=
  fun _ => ⟨rfl, fun _ => Text.clamp_mem _ offset⟩

theorem up_proper : Proper (·.up) := by
  intro buffer
  refine ⟨rfl, ?_⟩
  rintro ⟨low, high⟩
  rw [← String.length_toList] at high
  have within := Text.upLine_mem low high
  rwa [String.length_toList] at within

theorem down_proper : Proper (·.down) := by
  intro buffer
  refine ⟨rfl, ?_⟩
  rintro ⟨low, high⟩
  rw [← String.length_toList] at high
  have within := Text.downLine_mem low high
  rwa [String.length_toList] at within

theorem save_proper : Proper (·.save) :=
  fun _ => ⟨rfl, fun within => within⟩

end Buffer

/-! ## Workspaces -/

namespace Workspace

/-- A workspace in which every command finds what it needs. -/
structure WellFormed (workspace : Workspace) : Prop where
  nonempty : workspace.buffers ≠ []
  distinct : workspace.names.Nodup
  active_mem : workspace.active ∈ workspace.names
  cursors : ∀ buffer ∈ workspace.buffers, buffer.CursorInText

instance (workspace : Workspace) : Decidable workspace.WellFormed :=
  decidable_of_iff
    (workspace.buffers ≠ [] ∧ workspace.names.Nodup ∧ workspace.active ∈ workspace.names ∧
      ∀ buffer ∈ workspace.buffers,
        0 ≤ buffer.cursor ∧ buffer.cursor ≤ buffer.content.length)
    ⟨fun ⟨nonempty, distinct, active, cursors⟩ => ⟨nonempty, distinct, active, cursors⟩,
      fun wellFormed => ⟨wellFormed.nonempty, wellFormed.distinct, wellFormed.active_mem,
        wellFormed.cursors⟩⟩

/-- A new workspace is well formed. -/
theorem fresh_wellFormed (scratchText : String) : (fresh scratchText).WellFormed where
  nonempty := by simp [fresh]
  distinct := by simp [fresh, names, scratchName, messagesName]
  active_mem := by simp [fresh, names]
  cursors := by simp [fresh, Buffer.CursorInText]

theorem find?_isSome_iff (workspace : Workspace) (name : String) :
    (workspace.find? name).isSome = true ↔ name ∈ workspace.names := by
  simp [find?, names, List.find?_isSome]

/-- The place of a name holds a buffer of that name. -/
theorem exists_of_indexOf? {workspace : Workspace} {name : String} {i : Nat}
    (found : workspace.indexOf? name = some i) :
    ∃ buffer, workspace.buffers[i]? = some buffer ∧ buffer.name = name := by
  obtain ⟨bound, named, -⟩ := List.findIdx?_eq_some_iff_getElem.mp found
  exact ⟨workspace.buffers[i], List.getElem?_eq_getElem bound, eq_of_beq named⟩

theorem indexOf?_isSome_iff (workspace : Workspace) (name : String) :
    (workspace.indexOf? name).isSome = true ↔ name ∈ workspace.names := by
  simp [indexOf?, names]

/-! ### Changing a buffer -/

theorem names_modifyNamed {change : Buffer → Buffer} (proper : Buffer.Proper change)
    (name : String) (buffers : List Buffer) :
    (modifyNamed name change buffers).map (·.name) = buffers.map (·.name) := by
  induction buffers with
  | nil => rfl
  | cons buffer rest ih =>
      rw [modifyNamed]
      split
      · simp [(proper buffer).1]
      · simp [ih]

theorem cursors_modifyNamed {change : Buffer → Buffer} (proper : Buffer.Proper change)
    (name : String) {buffers : List Buffer} (cursors : ∀ buffer ∈ buffers, buffer.CursorInText) :
    ∀ buffer ∈ modifyNamed name change buffers, buffer.CursorInText := by
  induction buffers with
  | nil => exact cursors
  | cons first rest ih =>
      have later := ih fun buffer member => cursors buffer (by simp [member])
      rw [modifyNamed]
      split
      · intro buffer member
        rcases List.mem_cons.mp member with rfl | member
        · exact (proper first).2 (cursors first (by simp))
        · exact cursors buffer (by simp [member])
      · intro buffer member
        rcases List.mem_cons.mp member with rfl | member
        · exact cursors buffer (by simp)
        · exact later buffer member

namespace WellFormed

variable {workspace : Workspace}

theorem activeBuffer?_isSome (wellFormed : workspace.WellFormed) :
    workspace.activeBuffer?.isSome = true :=
  (workspace.find?_isSome_iff workspace.active).mpr wellFormed.active_mem

theorem say (wellFormed : workspace.WellFormed) (text : String) :
    (workspace.say text).WellFormed :=
  ⟨wellFormed.nonempty, wellFormed.distinct, wellFormed.active_mem, wellFormed.cursors⟩

theorem modifyActive (wellFormed : workspace.WellFormed) {change : Buffer → Buffer}
    (proper : Buffer.Proper change) : (workspace.modifyActive change).WellFormed := by
  have names : (workspace.modifyActive change).names = workspace.names :=
    names_modifyNamed proper workspace.active workspace.buffers
  refine ⟨?_, names ▸ wellFormed.distinct, names ▸ wellFormed.active_mem,
    cursors_modifyNamed proper workspace.active wellFormed.cursors⟩
  intro empty
  have none : workspace.names = [] := by
    rw [← names, Workspace.names, empty, List.map_nil]
  exact List.ne_nil_of_mem wellFormed.active_mem none

/-! ### Making and choosing buffers -/

/-- Any buffer may become the active one. -/
theorem choose (wellFormed : workspace.WellFormed) {name : String}
    (present : name ∈ workspace.names) : { workspace with active := name }.WellFormed :=
  ⟨wellFormed.nonempty, wellFormed.distinct, present, wellFormed.cursors⟩

/-- A buffer with a new name may be added. -/
theorem add (wellFormed : workspace.WellFormed) {name : String}
    (absent : name ∉ workspace.names) : (workspace.add name).WellFormed where
  nonempty := by simp [Workspace.add]
  distinct := by
    have grown : (workspace.add name).names = workspace.names ++ [name] := by
      simp [names, Workspace.add, Buffer.named]
    rw [grown]
    exact List.Nodup.append wellFormed.distinct (by simp) (by simpa using absent)
  active_mem := by
    have member := wellFormed.active_mem
    simp only [names, Workspace.add, List.map_append, List.mem_append] at member ⊢
    exact .inl member
  cursors := by
    intro buffer member
    rcases List.mem_append.mp member with member | member
    · exact wellFormed.cursors buffer member
    · rw [List.mem_singleton.mp member]
      exact ⟨Int.le_refl 0, by simp [Buffer.named]⟩

theorem mem_names_add (workspace : Workspace) (name : String) :
    name ∈ (workspace.add name).names := by
  simp [names, Workspace.add, Buffer.named]

theorem activate (wellFormed : workspace.WellFormed) (name : String) :
    (workspace.activate name).WellFormed := by
  unfold Workspace.activate
  dsimp only
  split
  · next found => exact wellFormed.choose ((workspace.find?_isSome_iff name).mp found)
  · next missing =>
    have absent : name ∉ workspace.names := fun member =>
      missing ((workspace.find?_isSome_iff name).mpr member)
    exact (wellFormed.add absent).choose (mem_names_add workspace name)

/-! ### Removing buffers -/

/-- A buffer other than the one removed is still there. -/
theorem name_mem_eraseIdx {buffers : List Buffer} {i j : Nat} {buffer : Buffer}
    (different : j ≠ i) (there : buffers[j]? = some buffer) :
    buffer.name ∈ (buffers.eraseIdx i).map (·.name) :=
  List.mem_map_of_mem (List.mem_eraseIdx_iff_getElem?.mpr ⟨j, different, there⟩)

/-- One of several buffers may be removed, if the name that is active afterwards stays. -/
theorem erase (wellFormed : workspace.WellFormed) (several : 2 ≤ workspace.buffers.length)
    (i : Nat) {active : String}
    (stays : active ∈ (workspace.buffers.eraseIdx i).map (·.name)) :
    { workspace with buffers := workspace.buffers.eraseIdx i, active }.WellFormed where
  nonempty := List.eraseIdx_ne_nil_iff.mpr (.inl several)
  distinct := wellFormed.distinct.sublist ((List.eraseIdx_sublist _ i).map _)
  active_mem := stays
  cursors buffer member := wellFormed.cursors buffer (List.mem_of_mem_eraseIdx member)

theorem remove (wellFormed : workspace.WellFormed) (name : String) :
    (workspace.remove name).WellFormed := by
  unfold Workspace.remove
  split
  · exact wellFormed
  · next several =>
    cases found : workspace.indexOf? name with
    | none => exact wellFormed
    | some i =>
        refine wellFormed.erase (by omega) i ?_
        split
        · -- The active buffer goes, and the first of the others takes its place.
          have left : 0 < (workspace.buffers.eraseIdx i).length := by
            have := List.le_length_eraseIdx workspace.buffers i
            omega
          obtain ⟨first, rest, others⟩ := List.exists_cons_of_length_pos left
          simp [others]
        · -- Another buffer goes: the active one stands at a different place.
          next other =>
          obtain ⟨buffer, member, named⟩ := List.mem_map.mp wellFormed.active_mem
          obtain ⟨j, there⟩ := List.mem_iff_getElem?.mp member
          rw [← named]
          refine name_mem_eraseIdx (fun same => ?_) there
          obtain ⟨removed, at_i, ofName⟩ := exists_of_indexOf? found
          rw [same, at_i, Option.some.injEq] at there
          subst there
          exact other (beq_iff_eq.mpr (named.symm.trans ofName))

theorem removeActive (wellFormed : workspace.WellFormed) {rest : Workspace}
    (removed : workspace.removeActive = some rest) : rest.WellFormed := by
  unfold Workspace.removeActive at removed
  split at removed
  · nomatch removed
  · next several =>
    obtain rfl := Option.some.inj removed
    obtain ⟨i, found⟩ := Option.isSome_iff_exists.mp
      ((workspace.indexOf?_isSome_iff workspace.active).mpr wellFormed.active_mem)
    obtain ⟨buffer, there, -⟩ := exists_of_indexOf? found
    have bound : i < workspace.buffers.length := (List.getElem?_eq_some_iff.mp there).1
    have place : workspace.activeIndex = i := by rw [activeIndex, found, Option.getD_some]
    -- With two buffers or more, a place beside the active one is in use.
    have beside : (if i = 0 then 1 else i - 1) < workspace.buffers.length := by
      split <;> omega
    have successor := List.getElem?_eq_getElem beside
    simp only [successorOf, place, successor, Option.map_some, Option.getD_some]
    refine wellFormed.erase (by omega) i (name_mem_eraseIdx ?_ successor)
    split <;> omega

/-! ### Requests -/

/-- **Every request keeps a workspace well formed.** -/
theorem handle (wellFormed : workspace.WellFormed) (request : Request) :
    (Host.handle request workspace).2.WellFormed := by
  cases request with
  | message text => exact wellFormed.say text
  | insert text => exact wellFormed.modifyActive (Buffer.insert_proper text)
  | content => exact wellFormed
  | cursor => exact wellFormed
  | setCursor offset => exact wellFormed.modifyActive (Buffer.moveTo_proper offset)
  | switchBuffer name => exact wellFormed.activate name
  | bufferName => exact wellFormed
  | killBuffer name => exact wellFormed.remove name

end WellFormed

end Workspace

end BufferLisp
