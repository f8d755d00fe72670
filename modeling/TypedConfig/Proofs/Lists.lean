import Mathlib.Tactic.Common

/-!
# Lists

What is needed of lists whatever stands in them: functions that go through a list one item at a time
are maps (`eq_map_of_cons`), items take up room in the text that they are written in
(`length_le_flatMap`), and a run ends where what stands behind it does not go on with it
(`takeWhile_run`).
-/

namespace TypedConfig

variable {α β : Type}

/-- A function that goes through a list one item at a time maps it. -/
lemma eq_map_of_cons {f : α → β} {g : List α → List β} (hnil : g [] = [])
    (hcons : ∀ x xs, g (x :: xs) = f x :: g xs) (xs : List α) : g xs = xs.map f := by
  induction xs with
  | nil => exact hnil
  | cons x xs ih => rw [hcons, ih, List.map_cons]

/-- If nothing is written as nothing, there are no more items than there are characters. -/
lemma length_le_flatMap {f : α → List β} (hf : ∀ x, f x ≠ []) (xs : List α) :
    xs.length ≤ (xs.flatMap f).length := by
  induction xs with
  | nil => exact Nat.zero_le _
  | cons x xs ih =>
      have hx : 0 < (f x).length := List.length_pos_iff.mpr (hf x)
      rw [List.flatMap_cons, List.length_append, List.length_cons]
      omega

/-- What a run goes on with is taken, where it stops the rest begins. -/
lemma takeWhile_run {run rest : List α} {p : α → Bool} (hrun : ∀ x ∈ run, p x)
    (hrest : ∀ x ∈ rest.head?, p x = false) :
    (run ++ rest).takeWhile p = run ∧ (run ++ rest).dropWhile p = rest := by
  rw [List.takeWhile_append_of_pos hrun, List.dropWhile_append_of_pos hrun]
  cases rest with
  | nil => exact ⟨List.append_nil _, rfl⟩
  | cons x xs =>
      have hx : p x = false := hrest x rfl
      simp [hx]

end TypedConfig
