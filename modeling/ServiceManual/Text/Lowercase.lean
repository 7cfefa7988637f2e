import ServiceManual.Text.CaseTable

/-!
# Lowercasing

Full lowercasing of a text.  A character is replaced by its lowercase form, with two exceptions
that the character database makes: U+0130 becomes two characters, and a capital sigma becomes a
final sigma where it ends a word.  On ASCII letters this is `Char.toLower`.
-/

namespace ServiceManual.Text

/-- A letter that has case, lower, upper or title. -/
def isCased (c : Char) : Bool :=
  inRanges casedRanges c.toNat

/-- A character that is looked through when the neighbours of a sigma are examined. -/
def isCaseIgnorable (c : Char) : Bool :=
  inRanges caseIgnorableRanges c.toNat

/-- The lowercase form of one character, seen alone. -/
def lowerChar (c : Char) : List Char :=
  if c.toNat < 128 then [c.toLower]
  else if c.toNat = 0x130 then ['i', '\u0307']
  else match lowercaseRuns.find? (·.contains c.toNat) with
    | some run => [Char.ofNat (c.toNat + run.offset).toNat]
    | none => [c]

/-- A sigma ends a word when the nearest character before it that is not ignorable has case, and
the nearest one after it has not.  The characters before it are given nearest first. -/
def endsWord (before after : List Char) : Bool :=
  (before.dropWhile isCaseIgnorable).head?.any isCased &&
    !(after.dropWhile isCaseIgnorable).head?.any isCased

/-- Lowercase the rest of a text, given what stands before it, nearest first. -/
def lowerAfter (before : List Char) : List Char → List Char
  | [] => []
  | c :: rest =>
    (if c = 'Σ' then [if endsWord before rest then 'ς' else 'σ'] else lowerChar c) ++
      lowerAfter (c :: before) rest

/-- The lowercase form of a text. -/
def lowercase (s : String) : String :=
  String.ofList (lowerAfter [] s.toList)

/-! ## ASCII letters -/

/-- An ASCII character has one lowercase form, the one that `Char.toLower` gives. -/
theorem lowerChar_ascii {c : Char} (h : c.toNat < 128) : lowerChar c = [c.toLower] := by
  simp [lowerChar, h]

/-- On ASCII characters lowercasing goes character by character. -/
theorem lowerAfter_ascii {s : List Char} (before : List Char) (h : ∀ c ∈ s, c.toNat < 128) :
    lowerAfter before s = s.map Char.toLower := by
  induction s generalizing before with
  | nil => rfl
  | cons c rest ih =>
    have hc : c.toNat < 128 := h c (by simp)
    have hsigma : c ≠ 'Σ' := by
      intro heq
      subst heq
      exact absurd hc (by decide)
    simp [lowerAfter, hsigma, lowerChar_ascii hc, ih (c :: before) fun d hd => h d (by simp [hd])]

end ServiceManual.Text
