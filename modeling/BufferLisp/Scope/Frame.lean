import BufferLisp.Value.Basic

/-!
# Frames

A frame binds names to values.  Its bindings keep the order in which the names were first bound, and
a name is bound at most once: binding it again replaces the value in place.
-/

set_option autoImplicit false

namespace BufferLisp

/-- Bindings of names to values, in the order in which the names were first bound. -/
structure Frame where
  bindings : List (String × Value)

namespace Frame

/-- A frame without bindings. -/
def empty : Frame := ⟨[]⟩

/-- The value bound to a name. -/
def get? (frame : Frame) (name : String) : Option Value :=
  frame.bindings.lookup name

/-- Whether a name is bound. -/
def binds (frame : Frame) (name : String) : Bool :=
  (frame.get? name).isSome

/-- The bindings with `name` bound to `value`. -/
def setIn (name : String) (value : Value) : List (String × Value) → List (String × Value)
  | [] => [(name, value)]
  | binding :: rest =>
    if name == binding.1 then (name, value) :: rest else binding :: setIn name value rest

/-- Binds a name to a value. -/
def set (frame : Frame) (name : String) (value : Value) : Frame :=
  ⟨setIn name value frame.bindings⟩

/-- Binds the names of the pairs one after the other; of two pairs with one name the later wins. -/
def setAll (frame : Frame) (pairs : List (String × Value)) : Frame :=
  pairs.foldl (fun frame pair => frame.set pair.1 pair.2) frame

/-- The frame of the given pairs. -/
def ofPairs (pairs : List (String × Value)) : Frame :=
  empty.setAll pairs

@[simp] theorem get?_empty (name : String) : empty.get? name = none := rfl

theorem lookup_setIn_self (name : String) (value : Value) (bindings : List (String × Value)) :
    (setIn name value bindings).lookup name = some value := by
  induction bindings with
  | nil => simp [setIn]
  | cons binding rest ih =>
    unfold setIn
    split
    · simp
    · next different =>
      obtain ⟨key, old⟩ := binding
      simp only [Bool.not_eq_true] at different
      simp [List.lookup_cons, different, ih]

theorem lookup_setIn_of_ne {name other : String} (value : Value)
    (bindings : List (String × Value)) (h : other ≠ name) :
    (setIn name value bindings).lookup other = bindings.lookup other := by
  have differs : (other == name) = false := by simpa using h
  induction bindings with
  | nil => simp [setIn, List.lookup_cons, differs]
  | cons binding rest ih =>
    obtain ⟨key, old⟩ := binding
    unfold setIn
    split
    · next same =>
      have same : name = key := by simpa using same
      subst same
      simp [List.lookup_cons, differs]
    · simp [List.lookup_cons, ih]

/-- A name that has just been bound has its value. -/
@[simp] theorem get?_set_self (frame : Frame) (name : String) (value : Value) :
    (frame.set name value).get? name = some value :=
  lookup_setIn_self name value frame.bindings

/-- Binding one name does not change another. -/
theorem get?_set_of_ne (frame : Frame) {name other : String} (value : Value) (h : other ≠ name) :
    (frame.set name value).get? other = frame.get? other :=
  lookup_setIn_of_ne value frame.bindings h

/-- Of several pairs with one name the last is bound. -/
theorem get?_setAll (frame : Frame) (pairs : List (String × Value)) (name : String) :
    (frame.setAll pairs).get? name = (pairs.reverse.lookup name).or (frame.get? name) := by
  induction pairs generalizing frame with
  | nil => rfl
  | cons pair rest ih =>
      obtain ⟨key, value⟩ := pair
      have tail : frame.setAll ((key, value) :: rest) = (frame.set key value).setAll rest := rfl
      rw [tail, ih, List.reverse_cons, List.lookup_append, Option.or_assoc]
      congr 1
      by_cases same : name = key
      · subst same
        simp
      · have differs : (name == key) = false := by simpa using same
        rw [get?_set_of_ne frame value same, List.lookup_cons, differs]
        rfl

end Frame

end BufferLisp
