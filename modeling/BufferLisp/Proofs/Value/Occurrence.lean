import BufferLisp.Value.Basic

/-!
# Values inside lists

A value occurs in another if it is reached from there through lists.  What stands in the body of a
function does not occur in the function.
-/

set_option autoImplicit false

namespace BufferLisp

namespace Value

/-- A value occurs in another: it is that value, or it occurs in an element of it. -/
inductive Occurs (part : Value) : Value → Prop where
  | whole : Occurs part part
  | item {element : Value} {items : List Value} (member : element ∈ items)
      (inside : Occurs part element) : Occurs part (.list items)

theorem occurs_list_iff {part : Value} {items : List Value} :
    Occurs part (.list items) ↔ part = .list items ∨ ∃ element ∈ items, Occurs part element := by
  constructor
  · intro occurs
    cases occurs with
    | whole => exact .inl rfl
    | item member inside => exact .inr ⟨_, member, inside⟩
  · rintro (rfl | ⟨element, member, inside⟩)
    · exact .whole
    · exact .item member inside

/-- Nothing but the value itself occurs in a value that is no list. -/
theorem occurs_atom_iff {part v : Value} (notList : ∀ items, v ≠ .list items) :
    Occurs part v ↔ part = v := by
  constructor
  · intro occurs
    cases occurs with
    | whole => rfl
    | item _ _ => exact absurd rfl (notList _)
  · rintro rfl
    exact .whole

theorem occurs_sym_iff {part : Value} {name : String} :
    Occurs part (.sym name) ↔ part = .sym name :=
  occurs_atom_iff nofun

end Value

end BufferLisp
