import BufferLisp.Proofs.Workspace.WellFormed
import Mathlib.Data.List.Forall2

/-!
# The history of a workspace

Whatever is done to a workspace is done by *edits*, one after the other: requests of programs, line
motions, saving, and killing the active buffer.  An edit does one of four things to the buffers
(`Edit.outcome`): nothing, a change of the active one, a new one behind the others, or the removal
of one.

Buffers have no identity but their name, and a name may be killed and made anew.  Since no edit does
both at once, a buffer lives as long as no edit kills its name.  Over any number of edits

* the buffers that live on keep their order, with the new ones behind them, and each has all the
  text that it had (`Edit.applyAll_turnover`), and
* a buffer that is not marked as modified has the text that it had when it was last settled, by the
  start, by being made, or by being saved (`Edit.applyAll_settled`).

Together they say that edits lose nothing (`Edit.losesNothing`), up to the echo area, which no edit
looks at.
-/

set_option autoImplicit false

namespace BufferLisp

/-! ## Buffers that grow -/

namespace Buffer

/-- What a buffer becomes: its name, mode and protection stay, and text is only gained. -/
structure Grows (old new : Buffer) : Prop where
  name : new.name = old.name
  mode : new.mode = old.mode
  readOnly : new.readOnly = old.readOnly
  content : old.content.toList.Sublist new.content.toList

namespace Grows

theorem refl (buffer : Buffer) : buffer.Grows buffer :=
  ⟨rfl, rfl, rfl, .refl _⟩

theorem trans {first second third : Buffer} (earlier : first.Grows second)
    (later : second.Grows third) : first.Grows third where
  name := later.name.trans earlier.name
  mode := later.mode.trans earlier.mode
  readOnly := later.readOnly.trans earlier.readOnly
  content := earlier.content.trans later.content

theorem forall₂_refl (buffers : List Buffer) : List.Forall₂ Grows buffers buffers :=
  List.forall₂_same.mpr fun buffer _ => .refl buffer

theorem forall₂_trans {first second third : List Buffer}
    (earlier : List.Forall₂ Grows first second) (later : List.Forall₂ Grows second third) :
    List.Forall₂ Grows first third := by
  induction earlier generalizing third with
  | nil => exact later
  | cons grows _ ih =>
      obtain ⟨new, rest, regrows, others, rfl⟩ := List.forall₂_cons_left_iff.mp later
      exact .cons (grows.trans regrows) (ih others)

/-- Grown buffers have their old names. -/
theorem map_name {old new : List Buffer} (grown : List.Forall₂ Grows old new) :
    new.map (·.name) = old.map (·.name) := by
  induction grown with
  | nil => rfl
  | cons grows _ ih => rw [List.map_cons, List.map_cons, grows.name, ih]

/-- An inserted text stands between two parts that make up the old one. -/
theorem insert (buffer : Buffer) (text : String) : buffer.Grows (buffer.insert text) where
  name := rfl
  mode := rfl
  readOnly := rfl
  content := by
    have parts := Text.before_append_after buffer.content.toList buffer.cursor
    simp only [Buffer.insert, Text.insertAt, String.toList_ofList]
    conv_lhs => rw [← parts]
    exact (List.sublist_append_left _ _).append (.refl _)

end Grows

/-- A change that only adds text, and that leaves the buffer marked as modified if it adds any. -/
structure Marked (change : Buffer → Buffer) : Prop where
  grows : ∀ buffer : Buffer, buffer.Grows (change buffer)
  unmodified : ∀ buffer : Buffer, (change buffer).modified = false →
    buffer.modified = false ∧ (change buffer).content = buffer.content

theorem insert_marked (text : String) : Marked (·.insert text) :=
  ⟨fun buffer => .insert buffer text, fun _ => nofun⟩

/-- Only the cursor moves. -/
theorem moveTo_marked (offset : Int) : Marked (·.moveTo offset) :=
  ⟨fun _ => ⟨rfl, rfl, rfl, .refl _⟩, fun _ unmodified => ⟨unmodified, rfl⟩⟩

theorem up_marked : Marked (·.up) :=
  ⟨fun _ => ⟨rfl, rfl, rfl, .refl _⟩, fun _ unmodified => ⟨unmodified, rfl⟩⟩

theorem down_marked : Marked (·.down) :=
  ⟨fun _ => ⟨rfl, rfl, rfl, .refl _⟩, fun _ unmodified => ⟨unmodified, rfl⟩⟩

end Buffer

/-! ## Edits -/

/-- One thing that is done to a workspace. -/
inductive Edit where
  /-- What a request does. -/
  | request (request : Request)
  /-- Move the cursor of the active buffer one line up. -/
  | up
  /-- Move the cursor of the active buffer one line down. -/
  | down
  /-- Mark the active buffer as saved. -/
  | save
  /-- Remove the active buffer. -/
  | kill
  deriving Repr, DecidableEq

namespace Edit

/-- The workspace after an edit. -/
def apply (workspace : Workspace) : Edit → Workspace
  | request r => (Host.handle r workspace).2
  | up => workspace.modifyActive (·.up)
  | down => workspace.modifyActive (·.down)
  | save => workspace.modifyActive (·.save)
  | kill => workspace.removeActive.getD workspace

/-- The workspace after edits, one after the other. -/
def applyAll (workspace : Workspace) (edits : List Edit) : Workspace :=
  edits.foldl apply workspace

/-- The name of the buffer that an edit kills; the only buffer is never killed. -/
def killed? (workspace : Workspace) (edit : Edit) : Option String :=
  if workspace.buffers.length ≤ 1 then none
  else
    match edit with
    | kill => some workspace.active
    | request (.killBuffer name) => if name ∈ workspace.names then some name else none
    | _ => none

/-- Whether edits leave alive the buffer that has the given name before the first of them. -/
def spare (name : String) : Workspace → List Edit → Bool
  | _, [] => true
  | workspace, edit :: rest =>
    edit.killed? workspace != some name && spare name (edit.apply workspace) rest

/-- Whether an edit settles the text of a buffer: by saving it, or by making it. -/
def Settles (workspace : Workspace) (name : String) (edit : Edit) : Prop :=
  edit = save ∧ workspace.active = name ∨
    name ∉ workspace.names ∧ name ∈ (edit.apply workspace).names

instance (workspace : Workspace) (name : String) (edit : Edit) :
    Decidable (edit.Settles workspace name) :=
  inferInstanceAs (Decidable (_ ∨ _))

/-- The text of a buffer when edits have last settled it; `text` is its text if none of them
does. -/
def settledText (name : String) (text : Option String) : Workspace → List Edit → Option String
  | _, [] => text
  | workspace, edit :: rest =>
    let after := edit.apply workspace
    let settled :=
      if edit.Settles workspace name then (after.find? name).map (·.content) else text
    settledText name settled after rest

variable {workspace : Workspace}

theorem apply_wellFormed (wellFormed : workspace.WellFormed) (edit : Edit) :
    (edit.apply workspace).WellFormed := by
  cases edit with
  | request r => exact wellFormed.handle r
  | up => exact wellFormed.modifyActive Buffer.up_proper
  | down => exact wellFormed.modifyActive Buffer.down_proper
  | save => exact wellFormed.modifyActive Buffer.save_proper
  | kill =>
      rw [apply]
      cases removed : workspace.removeActive with
      | none => exact wellFormed
      | some rest => exact wellFormed.removeActive removed

theorem applyAll_append (workspace : Workspace) (earlier later : List Edit) :
    applyAll workspace (earlier ++ later) = applyAll (applyAll workspace earlier) later :=
  List.foldl_append

theorem applyAll_wellFormed (wellFormed : workspace.WellFormed) (edits : List Edit) :
    (applyAll workspace edits).WellFormed := by
  induction edits generalizing workspace with
  | nil => exact wellFormed
  | cons edit rest ih => exact ih (apply_wellFormed wellFormed edit)

/-! ## What one edit does -/

/-- The four things that an edit can do to the buffers of a workspace. -/
inductive Outcome (workspace : Workspace) (edit : Edit) : List Buffer → Prop where
  | none (spared : edit.killed? workspace = none) : Outcome workspace edit workspace.buffers
  | change {change : Buffer → Buffer} (spared : edit.killed? workspace = none)
      (marked : Buffer.Marked change ∨ edit = save ∧ change = Buffer.save) :
      Outcome workspace edit (Workspace.modifyNamed workspace.active change workspace.buffers)
  | add {name : String} (spared : edit.killed? workspace = none)
      (absent : name ∉ workspace.names) :
      Outcome workspace edit (workspace.buffers ++ [Buffer.named name])
  | remove {i : Nat} {buffer : Buffer} (there : workspace.buffers[i]? = some buffer)
      (killed : edit.killed? workspace = some buffer.name) :
      Outcome workspace edit (workspace.buffers.eraseIdx i)

theorem killed?_of_ne {edit : Edit} (notKill : edit ≠ kill)
    (notRequest : ∀ name, edit ≠ request (.killBuffer name)) : edit.killed? workspace = none := by
  unfold killed?
  split
  · rfl
  · split
    · exact absurd rfl notKill
    · exact absurd rfl (notRequest _)
    · rfl

theorem outcome_activate (name : String) :
    Outcome workspace (request (.switchBuffer name)) (workspace.activate name).buffers := by
  have spared : (request (.switchBuffer name)).killed? workspace = none :=
    killed?_of_ne nofun fun _ => nofun
  unfold Workspace.activate
  dsimp only
  split
  · exact .none spared
  · next missing =>
    exact .add spared fun member => missing ((workspace.find?_isSome_iff name).mpr member)

theorem outcome_remove (name : String) :
    Outcome workspace (request (.killBuffer name)) (workspace.remove name).buffers := by
  unfold Workspace.remove
  split
  · next only => exact .none (by rw [killed?, if_pos only])
  · next several =>
    cases found : workspace.indexOf? name with
    | none =>
        have absent : name ∉ workspace.names := fun member => by
          have isSome := (workspace.indexOf?_isSome_iff name).mpr member
          rw [found] at isSome
          nomatch isSome
        exact .none (by rw [killed?, if_neg several, if_neg absent])
    | some i =>
        obtain ⟨buffer, there, rfl⟩ := Workspace.exists_of_indexOf? found
        have present : buffer.name ∈ workspace.names :=
          List.mem_map_of_mem (List.mem_of_getElem? there)
        exact .remove there (by rw [killed?, if_neg several, if_pos present])

theorem outcome_kill (wellFormed : workspace.WellFormed) :
    Outcome workspace kill (kill.apply workspace).buffers := by
  rw [apply, Workspace.removeActive]
  split
  · next only => exact .none (by rw [killed?, if_pos only])
  · next several =>
    obtain ⟨i, found⟩ := Option.isSome_iff_exists.mp
      ((workspace.indexOf?_isSome_iff workspace.active).mpr wellFormed.active_mem)
    obtain ⟨buffer, there, named⟩ := Workspace.exists_of_indexOf? found
    rw [Option.getD_some, Workspace.activeIndex, found, Option.getD_some]
    exact .remove there (by rw [killed?, if_neg several, named])

/-- **An edit does one of four things.** -/
theorem outcome (wellFormed : workspace.WellFormed) (edit : Edit) :
    Outcome workspace edit (edit.apply workspace).buffers := by
  have spared : edit ≠ kill → (∀ name, edit ≠ request (.killBuffer name)) →
    edit.killed? workspace = none := killed?_of_ne
  cases edit with
  | request r =>
      cases r with
      | message text => exact .none (spared nofun fun _ => nofun)
      | insert text =>
          exact .change (spared nofun fun _ => nofun) (.inl (Buffer.insert_marked text))
      | content => exact .none (spared nofun fun _ => nofun)
      | cursor => exact .none (spared nofun fun _ => nofun)
      | setCursor offset =>
          exact .change (spared nofun fun _ => nofun) (.inl (Buffer.moveTo_marked offset))
      | switchBuffer name => exact outcome_activate name
      | bufferName => exact .none (spared nofun fun _ => nofun)
      | killBuffer name => exact outcome_remove name
  | up => exact .change (spared nofun fun _ => nofun) (.inl Buffer.up_marked)
  | down => exact .change (spared nofun fun _ => nofun) (.inl Buffer.down_marked)
  | save => exact .change (spared nofun fun _ => nofun) (.inr ⟨rfl, rfl⟩)
  | kill => exact outcome_kill wellFormed

end Edit

/-! ## Who lives on -/

/-- The buffers that are spared come first and in their old order, each grown; others may follow. -/
def Buffer.Turnover (spared : String → Bool) (before after : List Buffer) : Prop :=
  ∃ kept created, after = kept ++ created ∧
    List.Forall₂ Buffer.Grows (before.filter fun buffer => spared buffer.name) kept

namespace Buffer.Turnover

/-- If every buffer is spared, the turnover is what each of them becomes, and what is added. -/
theorem of_all {spared : String → Bool} (all : ∀ name, spared name = true)
    {before kept : List Buffer} (grown : List.Forall₂ Grows before kept) (created : List Buffer) :
    Turnover spared before (kept ++ created) := by
  refine ⟨kept, created, rfl, ?_⟩
  rwa [List.filter_eq_self.mpr fun buffer _ => all buffer.name]

theorem of_grown {spared : String → Bool} (all : ∀ name, spared name = true)
    {before kept : List Buffer} (grown : List.Forall₂ Grows before kept) :
    Turnover spared before kept := by
  simpa only [List.append_nil] using of_all all grown []

theorem trans {spared sparedLater : String → Bool} {first second third : List Buffer}
    (earlier : Turnover spared first second) (later : Turnover sparedLater second third) :
    Turnover (fun name => spared name && sparedLater name) first third := by
  obtain ⟨kept, created, rfl, grown⟩ := earlier
  obtain ⟨keptLater, createdLater, rfl, regrown⟩ := later
  rw [List.filter_append] at regrown
  -- What was kept before comes first in what is kept later.
  have front := (List.forall₂_take_append _ _ _ regrown.flip).flip
  have filtered : List.Forall₂ Grows
      ((first.filter fun buffer => spared buffer.name).filter fun buffer => sparedLater buffer.name)
      (kept.filter fun buffer => sparedLater buffer.name) := by
    refine List.rel_filter ?_ grown
    intro old new grows
    dsimp only
    rw [grows.name]
  rw [List.filter_filter] at filtered
  let count := (kept.filter fun buffer => sparedLater buffer.name).length
  refine ⟨keptLater.take count, keptLater.drop count ++ createdLater, ?_, ?_⟩
  · rw [← List.append_assoc, List.take_append_drop]
  · simpa only [Bool.and_comm] using Grows.forall₂_trans filtered front

end Buffer.Turnover

namespace Workspace

/-- A changed buffer grows, and the others stay as they are. -/
theorem forall₂_modifyNamed {change : Buffer → Buffer}
    (grows : ∀ buffer : Buffer, buffer.Grows (change buffer)) (name : String)
    (buffers : List Buffer) :
    List.Forall₂ Buffer.Grows buffers (modifyNamed name change buffers) := by
  induction buffers with
  | nil => exact .nil
  | cons buffer rest ih =>
      rw [modifyNamed]
      split
      · exact .cons (grows buffer) (Buffer.Grows.forall₂_refl rest)
      · exact .cons (.refl buffer) ih

theorem mem_modifyNamed {change : Buffer → Buffer} {name : String} {buffers : List Buffer}
    {buffer : Buffer} (member : buffer ∈ modifyNamed name change buffers) :
    buffer ∈ buffers ∨ ∃ old ∈ buffers, old.name = name ∧ buffer = change old := by
  induction buffers with
  | nil => exact .inl member
  | cons first rest ih =>
      rw [modifyNamed] at member
      split at member
      · next named =>
        rcases List.mem_cons.mp member with rfl | member
        · exact .inr ⟨first, by simp, eq_of_beq named, rfl⟩
        · exact .inl (by simp [member])
      · rcases List.mem_cons.mp member with rfl | member
        · exact .inl (by simp)
        · rcases ih member with member | ⟨old, member, rest⟩
          · exact .inl (by simp [member])
          · exact .inr ⟨old, by simp [member], rest⟩

/-- Where no two buffers share a name, removing one is keeping all of other names. -/
theorem filter_eq_eraseIdx {buffers : List Buffer} (distinct : (buffers.map (·.name)).Nodup)
    {i : Nat} {removed : Buffer} (there : buffers[i]? = some removed) :
    (buffers.filter fun buffer => some removed.name != some buffer.name) = buffers.eraseIdx i := by
  induction buffers generalizing i with
  | nil => nomatch there
  | cons first rest ih =>
      obtain ⟨fresh, distinct⟩ := List.nodup_cons.mp distinct
      cases i with
      | zero =>
          obtain rfl := Option.some.inj there
          have others : ∀ buffer ∈ rest, (some first.name != some buffer.name) = true := by
            intro buffer member
            have different : first.name ≠ buffer.name := fun same =>
              fresh (List.mem_map.mpr ⟨buffer, member, same.symm⟩)
            simpa using different
          rw [List.eraseIdx_cons_zero, List.filter_cons_of_neg (by simp),
            List.filter_eq_self.mpr others]
      | succ i =>
          have inRest : removed ∈ rest := List.mem_of_getElem? there
          have different : removed.name ≠ first.name := fun same =>
            fresh (List.mem_map.mpr ⟨removed, inRest, same⟩)
          rw [List.eraseIdx_cons_succ, List.filter_cons_of_pos (by simpa using different),
            ih distinct there]

/-- A buffer is found under its name. -/
theorem find?_of_mem {workspace : Workspace} (distinct : workspace.names.Nodup) {buffer : Buffer}
    (member : buffer ∈ workspace.buffers) : workspace.find? buffer.name = some buffer := by
  obtain ⟨found, first⟩ := Option.isSome_iff_exists.mp
    ((workspace.find?_isSome_iff buffer.name).mpr (List.mem_map_of_mem member))
  have named : found.name = buffer.name := by simpa using List.find?_some first
  rw [first, List.inj_on_of_nodup_map distinct (List.mem_of_find?_eq_some first) member named]

/-- To take nothing from a list is to erase behind its end. -/
theorem exists_eraseIdx_self (buffers : List Buffer) : ∃ i, buffers = buffers.eraseIdx i :=
  ⟨buffers.length, (List.eraseIdx_of_length_le (Nat.le_refl _)).symm⟩

/-- Removing a buffer by name takes at most one from the list. -/
theorem exists_eraseIdx_remove (workspace : Workspace) (name : String) :
    ∃ i, (workspace.remove name).buffers = workspace.buffers.eraseIdx i := by
  unfold remove
  split
  · exact exists_eraseIdx_self _
  · cases workspace.indexOf? name with
    | none => exact exists_eraseIdx_self _
    | some i => exact ⟨i, rfl⟩

/-- Removing the active buffer takes at most one from the list. -/
theorem exists_eraseIdx_removeActive (workspace : Workspace) :
    ∃ i, (workspace.removeActive.getD workspace).buffers = workspace.buffers.eraseIdx i := by
  unfold removeActive
  split
  · exact exists_eraseIdx_self _
  · exact ⟨workspace.activeIndex, rfl⟩

end Workspace

namespace Edit

variable {workspace : Workspace}

/-- One edit keeps all the buffers that it does not kill. -/
theorem apply_turnover (wellFormed : workspace.WellFormed) (edit : Edit) :
    Buffer.Turnover (fun name => edit.killed? workspace != some name) workspace.buffers
      (edit.apply workspace).buffers := by
  have all : edit.killed? workspace = none →
      ∀ name, (edit.killed? workspace != some name) = true := by
    intro spared name
    rw [spared]
    rfl
  have outcome := outcome wellFormed edit
  generalize (edit.apply workspace).buffers = after at outcome
  cases outcome with
  | none spared => exact .of_grown (all spared) (Buffer.Grows.forall₂_refl _)
  | @change change spared marked =>
      have grows : ∀ buffer : Buffer, buffer.Grows (change buffer) := by
        rcases marked with marked | ⟨-, rfl⟩
        · exact marked.grows
        · exact fun _ => ⟨rfl, rfl, rfl, .refl _⟩
      exact .of_grown (all spared) (Workspace.forall₂_modifyNamed grows _ _)
  | @add name spared absent =>
      exact .of_all (all spared) (Buffer.Grows.forall₂_refl _) [Buffer.named name]
  | @remove i buffer there killed =>
      refine ⟨_, [], (List.append_nil _).symm, ?_⟩
      rw [killed, Workspace.filter_eq_eraseIdx wellFormed.distinct there]
      exact Buffer.Grows.forall₂_refl _

/-- **Over any number of edits, the buffers that none of them kills keep their order and grow, and
new buffers stand behind them.** -/
theorem applyAll_turnover (wellFormed : workspace.WellFormed) (edits : List Edit) :
    Buffer.Turnover (fun name => spare name workspace edits) workspace.buffers
      (applyAll workspace edits).buffers := by
  induction edits generalizing workspace with
  | nil => exact .of_grown (fun _ => rfl) (Buffer.Grows.forall₂_refl _)
  | cons edit rest ih =>
      exact (apply_turnover wellFormed edit).trans (ih (apply_wellFormed wellFormed edit))

/-! ## Settled texts -/

/-- A buffer of the given name has the given text, unless it is marked as modified. -/
def Settled (name : String) (text : Option String) (workspace : Workspace) : Prop :=
  ∀ buffer ∈ workspace.buffers, buffer.name = name → buffer.modified = false →
    text = some buffer.content

/-- What is there at a moment is settled by that moment. -/
theorem settled_now (distinct : workspace.names.Nodup) (name : String) :
    Settled name ((workspace.find? name).map (·.content)) workspace := by
  rintro buffer member rfl -
  rw [Workspace.find?_of_mem distinct member, Option.map_some]

/-- An edit that does not settle a text leaves it as it is, or leaves the mark of a change. -/
theorem settled_apply (wellFormed : workspace.WellFormed) {edit : Edit} {name : String}
    {text : Option String} (settled : Settled name text workspace)
    (unsettling : ¬ edit.Settles workspace name) : Settled name text (edit.apply workspace) := by
  intro buffer member named unmodified
  have outcome := outcome wellFormed edit
  generalize after_eq : (edit.apply workspace).buffers = after at outcome member
  cases outcome with
  | none => exact settled buffer member named unmodified
  | change _ marked =>
      rcases Workspace.mem_modifyNamed member with member | ⟨old, was, active, rfl⟩
      · exact settled buffer member named unmodified
      · rcases marked with marked | ⟨saves, rfl⟩
        · obtain ⟨wasUnmodified, same⟩ := marked.unmodified old unmodified
          rw [same]
          exact settled old was ((marked.grows old).name ▸ named) wasUnmodified
        · exact absurd (.inl ⟨saves, active.symm.trans named⟩) unsettling
  | @add newName _ absent =>
      rcases List.mem_append.mp member with member | isNew
      · exact settled buffer member named unmodified
      · obtain rfl := List.mem_singleton.mp isNew
        have present : newName ∈ (edit.apply workspace).names := by
          rw [Workspace.names, after_eq]
          exact List.mem_map_of_mem member
        exact absurd (.inr (named ▸ ⟨absent, present⟩)) unsettling
  | remove => exact settled buffer (List.mem_of_mem_eraseIdx member) named unmodified

/-- **Over any number of edits, a buffer that is not marked as modified has the text with which it
was last settled.** -/
theorem applyAll_settled (wellFormed : workspace.WellFormed) {name : String} {text : Option String}
    (settled : Settled name text workspace) (edits : List Edit) :
    Settled name (settledText name text workspace edits) (applyAll workspace edits) := by
  induction edits generalizing workspace text with
  | nil => exact settled
  | cons edit rest ih =>
      have after := apply_wellFormed wellFormed edit
      refine ih after ?_
      split
      · exact settled_now after.distinct name
      · next unsettling => exact settled_apply wellFormed settled unsettling

end Edit

/-! ## Up to the echo area -/

namespace Workspace

/-- Two workspaces are the same but for the echo area. -/
def SameBuffers (left right : Workspace) : Prop :=
  left.buffers = right.buffers ∧ left.active = right.active

theorem buffers_activate (workspace : Workspace) (name : String) :
    (workspace.activate name).buffers =
      if (workspace.buffers.find? (·.name == name)).isSome then workspace.buffers
      else workspace.buffers ++ [Buffer.named name] := by
  unfold activate find?
  dsimp only
  split <;> rfl

namespace SameBuffers

theorem refl (workspace : Workspace) : workspace.SameBuffers workspace :=
  ⟨rfl, rfl⟩

theorem trans {first second third : Workspace} (earlier : first.SameBuffers second)
    (later : second.SameBuffers third) : first.SameBuffers third :=
  ⟨earlier.1.trans later.1, earlier.2.trans later.2⟩

/-- No edit depends on the echo area. -/
theorem apply {left right : Workspace} (same : left.SameBuffers right) (edit : Edit) :
    (edit.apply left).SameBuffers (edit.apply right) := by
  obtain ⟨buffers, active, echo⟩ := left
  obtain ⟨_, _, other⟩ := right
  obtain ⟨rfl, rfl⟩ := same
  cases edit with
  | request r =>
      cases r with
      | switchBuffer name =>
          change (activate _ name).SameBuffers (activate _ name)
          exact ⟨by rw [buffers_activate, buffers_activate], rfl⟩
      | killBuffer name =>
          simp only [Edit.apply, Host.handle, handle, remove, indexOf?]
          split
          · exact ⟨rfl, rfl⟩
          · split <;> exact ⟨rfl, rfl⟩
      | _ => exact ⟨rfl, rfl⟩
  | kill =>
      simp only [Edit.apply, removeActive]
      split <;> exact ⟨rfl, rfl⟩
  | _ => exact ⟨rfl, rfl⟩

theorem applyAll {left right : Workspace} (same : left.SameBuffers right) (edits : List Edit) :
    (Edit.applyAll left edits).SameBuffers (Edit.applyAll right edits) := by
  induction edits generalizing left right with
  | nil => exact same
  | cons edit rest ih => exact ih (same.apply edit)

end SameBuffers

end Workspace

namespace Edit

/-! ## Nothing is lost -/

/-- What edits from one workspace to another leave of the texts. -/
structure LosesNothing (start final : Workspace) (edits : List Edit) : Prop where
  /-- The edits lead from the one to the other. -/
  leads : final.SameBuffers (applyAll start edits)
  /-- From any moment on, the buffers that no later edit kills come first and in their order, each
  grown, and the others are new. -/
  grown : ∀ earlier later, edits = earlier ++ later →
    let middle := applyAll start earlier
    let spared := middle.buffers.filter fun buffer => spare buffer.name middle later
    ∃ kept created, final.buffers = kept ++ created ∧ List.Forall₂ Buffer.Grows spared kept ∧
      ∀ new ∈ created, ∀ old ∈ spared, new.name ≠ old.name
  /-- A buffer that is not marked as modified has the text with which it was last settled. -/
  settled : ∀ buffer ∈ final.buffers, buffer.modified = false →
    settledText buffer.name ((start.find? buffer.name).map (·.content)) start edits =
      some buffer.content

/-- **Edits lose nothing.** -/
theorem losesNothing {start final : Workspace} (wellFormed : start.WellFormed) {edits : List Edit}
    (leads : final.SameBuffers (applyAll start edits)) : LosesNothing start final edits where
  leads := leads
  grown := by
    rintro earlier later rfl middle spared
    have middleWellFormed := applyAll_wellFormed wellFormed earlier
    obtain ⟨kept, created, parts, grown⟩ := applyAll_turnover middleWellFormed later
    refine ⟨kept, created, ?_, grown, ?_⟩
    · rw [leads.1, applyAll_append, parts]
    · intro new isNew old isOld same
      have distinct := (applyAll_wellFormed middleWellFormed later).distinct
      rw [Workspace.names, parts, List.map_append, Buffer.Grows.map_name grown] at distinct
      refine List.disjoint_of_nodup_append distinct (List.mem_map_of_mem isOld) ?_
      rw [← same]
      exact List.mem_map_of_mem isNew
  settled := by
    intro buffer member unmodified
    rw [leads.1] at member
    exact applyAll_settled wellFormed (settled_now wellFormed.distinct buffer.name) edits buffer
      member rfl unmodified

end Edit

end BufferLisp
