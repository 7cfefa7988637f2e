import ServiceManual.Words

/-!
# Word boundaries as patterns

Boundaries of words and separators can also be given as patterns.  A pattern is looked for from
left to right.  It takes as many characters as it can and gives some of them back where the others
do not match then.  The search goes on behind what has matched, so matches do not overlap.
-/

namespace ServiceManual.Words

/-- A pattern of characters.  It matches no empty text. -/
inductive Pattern
  | one (fits : Char → Bool)
  | many (fits : Char → Bool)
  | both (first second : Pattern)

namespace Pattern

/-- The ways in which a text begins with fitting characters, the longest one first: the beginning
and what is left. -/
def beginnings (fits : Char → Bool) : List Char → List (List Char × List Char)
  | [] => []
  | c :: rest =>
    if fits c then
      (beginnings fits rest).map (fun way => (c :: way.1, way.2)) ++ [([c], rest)]
    else []

/-- The ways in which a pattern matches the beginning of a text, in the order in which they are
tried. -/
def ways : Pattern → List Char → List (List Char × List Char)
  | .one _, [] => []
  | .one fits, c :: rest => if fits c then [([c], rest)] else []
  | .many fits, s => beginnings fits s
  | .both first second, s =>
    (first.ways s).flatMap fun way =>
      (second.ways way.2).map fun next => (way.1 ++ next.1, next.2)

theorem length_lt_of_mem_beginnings {fits : Char → Bool} {s : List Char}
    {way : List Char × List Char} (hway : way ∈ beginnings fits s) :
    way.2.length < s.length := by
  induction s generalizing way with
  | nil => simp [beginnings] at hway
  | cons c rest ih =>
      rw [beginnings] at hway
      split at hway
      · rcases List.mem_append.mp hway with h | h
        · obtain ⟨shorter, hshorter, rfl⟩ := List.mem_map.mp h
          have hlength := ih hshorter
          simp only [List.length_cons]
          omega
        · obtain rfl := List.mem_singleton.mp h
          simp
      · cases hway

/-- Every match takes something. -/
theorem length_lt_of_mem_ways {pattern : Pattern} {s : List Char} {way : List Char × List Char}
    (hway : way ∈ pattern.ways s) : way.2.length < s.length := by
  induction pattern generalizing s way with
  | one fits =>
      cases s with
      | nil => simp [ways] at hway
      | cons c rest =>
          obtain ⟨-, rfl⟩ : _ ∧ _ := by simpa [ways] using hway
          simp
  | many fits => exact length_lt_of_mem_beginnings hway
  | both first second ihFirst ihSecond =>
      obtain ⟨begun, hbegun, hrest⟩ := List.mem_flatMap.mp hway
      obtain ⟨next, hnext, rfl⟩ := List.mem_map.mp hrest
      have hsecond : next.2.length < begun.2.length := ihSecond hnext
      exact Nat.lt_trans hsecond (ihFirst hbegun)

/-- The parts of a text between the matches of a pattern. -/
def separate (pattern : Pattern) (s : List Char) : List (List Char) :=
  match s with
  | [] => [[]]
  | c :: rest =>
    match _hfound : (pattern.ways (c :: rest)).head? with
    | some way => [] :: pattern.separate way.2
    | none => (pattern.separate rest).modifyHead (c :: ·)
termination_by s.length
decreasing_by
  · exact length_lt_of_mem_ways (List.mem_of_mem_head? _hfound)
  · simp

end Pattern

/-- A boundary is between two patterns. -/
structure Boundary where
  before : Pattern
  after : Pattern

namespace Boundary

/-- The first way in which a text begins with a boundary: what is before it, what is after it, and
what is left. -/
def found? (boundary : Boundary) (s : List Char) : Option (List Char × List Char × List Char) :=
  ((boundary.before.ways s).flatMap fun way =>
    (boundary.after.ways way.2).map fun next => (way.1, next)).head?

theorem length_lt_of_found? {boundary : Boundary} {s before after left : List Char}
    (h : boundary.found? s = some (before, after, left)) : left.length < s.length := by
  obtain ⟨begun, hbegun, hrest⟩ := List.mem_flatMap.mp (List.mem_of_mem_head? h)
  obtain ⟨next, hnext, heq⟩ := List.mem_map.mp hrest
  obtain ⟨rfl, rfl⟩ := Prod.mk.inj heq
  exact Nat.lt_trans (Pattern.length_lt_of_mem_ways hnext)
    (Pattern.length_lt_of_mem_ways hbegun)

/-- Mark the boundaries in a text with a space. -/
def mark (boundary : Boundary) (s : List Char) : List Char :=
  match s with
  | [] => []
  | c :: rest =>
    match _hfound : boundary.found? (c :: rest) with
    | some (before, after, left) => before ++ ' ' :: after ++ boundary.mark left
    | none => c :: boundary.mark rest
termination_by s.length
decreasing_by
  · exact length_lt_of_found? _hfound
  · simp

end Boundary

/-- The boundary between a small letter or digit and a capital. -/
def caseBoundary : Boundary where
  before := .one fun c => c.isLower || c.isDigit
  after := .one Char.isUpper

/-- The boundary between capitals and a capital with a small letter after it. -/
def acronymBoundary : Boundary where
  before := .many Char.isUpper
  after := .both (.one Char.isUpper) (.one Char.isLower)

/-- What separates words. -/
def separators : Pattern :=
  .many fun c => !isWordChar c

/-- The words of an identifier, found with patterns. -/
def splitByPatterns (s : List Char) : List (List Char) :=
  (separators.separate (acronymBoundary.mark (caseBoundary.mark s))).filter fun piece =>
    !piece.isEmpty

end ServiceManual.Words
