/-!
# Texts without styling

A terminal takes an escape character, an opening bracket, digits and signs, and then a letter for
an instruction on how to show what follows.  Where nothing but the text counts they are left out.
-/

namespace ServiceManual.Text

/-- The character that an instruction begins with. -/
def escapeChar : Char := '\x1b'

/-- A character between the bracket and the letter of an instruction. -/
def isStyleSign (c : Char) : Bool :=
  c.isDigit || c == ';' || c == '?'

/-- The rest of a text without instructions, after characters, the last one first, that may turn
out to be the beginning of one. -/
def withoutStylesFrom : List Char → List Char → List Char
  | pending, [] => pending.reverse
  | pending, c :: rest =>
    if c = escapeChar then pending.reverse ++ withoutStylesFrom [c] rest
    else if pending = [escapeChar] && c = '[' then withoutStylesFrom (c :: pending) rest
    else if 2 ≤ pending.length && isStyleSign c then withoutStylesFrom (c :: pending) rest
    else if 2 ≤ pending.length && c.isAlpha then withoutStylesFrom [] rest
    else pending.reverse ++ c :: withoutStylesFrom [] rest

/-- A text without the instructions to a terminal. -/
def withoutStyles (text : String) : String :=
  String.ofList (withoutStylesFrom [] text.toList)

/-- A text without escape characters is kept as it is. -/
theorem withoutStylesFrom_eq_self {s : List Char} (h : escapeChar ∉ s) :
    withoutStylesFrom [] s = s := by
  induction s with
  | nil => rfl
  | cons c rest ih =>
    simp only [List.mem_cons, not_or] at h
    simp [withoutStylesFrom, Ne.symm h.1, ih h.2]

end ServiceManual.Text
