/-!
# Bindings in order

A list of names with what they are bound to.  Binding a name again replaces what it was bound to
and leaves the name in its place, so the order is that in which the names first appeared.

**The view.** `get?` says what a name is bound to.  All that a later reader can tell about a binding
is in two laws: what `get?` finds after a `set`, and which names there are after it.
-/

namespace TypedConfig

/-- Names and what they are bound to, in the order in which they were first bound. -/
abbrev Bindings (α : Type) := List (String × α)

namespace Bindings

variable {α : Type}

/-- What a name is bound to. -/
def get? : Bindings α → String → Option α
  | [], _ => none
  | (n, x) :: b, name => if n = name then some x else get? b name

/-- Whether a name is bound. -/
def contains (b : Bindings α) (name : String) : Bool := (b.get? name).isSome

/-- Binds a name, in place if it is bound already. -/
def set : Bindings α → String → α → Bindings α
  | [], name, x => [(name, x)]
  | (n, y) :: b, name, x => if n = name then (n, x) :: b else (n, y) :: set b name x

/-- The names, in order. -/
def names (b : Bindings α) : List String := b.map (·.1)

/-- Binds names one after the other. -/
def setAll (b : Bindings α) (entries : List (String × α)) : Bindings α :=
  entries.foldl (fun b e => b.set e.1 e.2) b

@[simp] theorem get?_nil (name : String) : get? ([] : Bindings α) name = none := rfl

/-- What is found after a `set`. -/
theorem get?_set (b : Bindings α) (name other : String) (x : α) :
    (b.set name x).get? other = if name = other then some x else b.get? other := by
  induction b with
  | nil => rfl
  | cons p b ih =>
    obtain ⟨n, y⟩ := p
    by_cases h : n = name <;> grind [set, get?]

/-- The names after a `set`: a new one comes last. -/
theorem names_set (b : Bindings α) (name : String) (x : α) :
    (b.set name x).names = if name ∈ b.names then b.names else b.names ++ [name] := by
  induction b with
  | nil => rfl
  | cons p b ih =>
    obtain ⟨n, y⟩ := p
    simp only [names] at ih
    by_cases h : n = name
    · simp [set, names, h]
    · have h' : ¬ name = n := fun e => h e.symm
      by_cases hm : name ∈ b.map (·.1)
      · simp_all [set, names]
      · simp_all [set, names]

/-- The names are those that something is found for. -/
theorem get?_isSome_iff (b : Bindings α) (name : String) :
    (b.get? name).isSome ↔ name ∈ b.names := by
  induction b with
  | nil => simp [names]
  | cons p b ih =>
    obtain ⟨n, y⟩ := p
    simp only [names] at ih
    by_cases h : n = name
    · simp [get?, names, h]
    · have h' : ¬ name = n := fun e => h e.symm
      simp [get?, names, h, h', ih]

end Bindings

end TypedConfig
