/-!
# Pieces of a text

A text between the occurrences of a separating character.
-/

namespace ServiceManual.Text

/-- The pieces of a text between separators, empty ones included; at least one. -/
def splitOn (separator : Char) : List Char → List (List Char)
  | [] => [[]]
  | c :: rest =>
    if c = separator then [] :: splitOn separator rest
    else match splitOn separator rest with
      | [] => [[c]]
      | piece :: more => (c :: piece) :: more

theorem splitOn_ne_nil (separator : Char) (s : List Char) : splitOn separator s ≠ [] := by
  cases s with
  | nil => simp [splitOn]
  | cons c rest =>
    unfold splitOn
    split
    · simp
    · split <;> simp

theorem intercalate_splitOn (separator : Char) (s : List Char) :
    [separator].intercalate (splitOn separator s) = s := by
  induction s with
  | nil => simp [splitOn, List.intercalate]
  | cons c rest ih =>
    unfold splitOn
    split
    · next h =>
      subst h
      cases hrest : splitOn c rest with
      | nil => exact absurd hrest (splitOn_ne_nil c rest)
      | cons piece more =>
        rw [hrest] at ih
        simp only [List.intercalate, List.intersperse_cons_cons, List.flatten_cons] at ih ⊢
        simp [ih]
    · cases hrest : splitOn separator rest with
      | nil => exact absurd hrest (splitOn_ne_nil separator rest)
      | cons piece more =>
        rw [hrest] at ih
        cases more with
        | nil => simpa [List.intercalate] using ih
        | cons next more =>
          simp only [List.intercalate, List.intersperse_cons_cons, List.flatten_cons] at ih ⊢
          simpa using ih

end ServiceManual.Text
