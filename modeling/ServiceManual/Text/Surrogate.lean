/-!
# Surrogates

The code points U+D800 to U+DFFF are no characters, yet an escape in a text can spell one.  Such a
code point is carried along in its stand-in, the character of the last private use plane whose code
has the same four last digits.  It has no encoding in bytes, so a text that holds one can be
compared and cut like any other but cannot be written to a file.

The stand-ins are characters themselves, U+10D800 to U+10DFFF.  This is a limit: a text that holds
one of these for its own sake is taken for one that holds a surrogate, and counts as having no
encoding.  All other code points are told apart and found again (`codeOf_of_ofCode?`), and among
them just the surrogates count as such (`isSurrogate_of_ofCode?_iff`).  Texts are compared by their
characters, so a surrogate comes after U+E000 to U+10D7FF, though its own code point is before them;
texts without surrogates are in the order of their code points (`codeOf_eq_toNat`).
-/

namespace ServiceManual.Text

/-- Does this character stand for a surrogate?  It does so wherever it occurs. -/
def isSurrogate (c : Char) : Bool :=
  0x10D800 ≤ c.toNat && c.toNat ≤ 0x10DFFF

/-- The code point that a character stands for. -/
def codeOf (c : Char) : Nat :=
  if isSurrogate c then c.toNat - 0x100000 else c.toNat

/-- The character that stands for a code point, unless it is beyond the last one. -/
def ofCode? (code : Nat) : Option Char :=
  if code.isValidChar then some (Char.ofNat code)
  else if code < 0x110000 then some (Char.ofNat (code + 0x100000))
  else none

/-- Does a text hold a surrogate? -/
def hasSurrogate (text : String) : Bool :=
  text.toList.any isSurrogate

/-! ## Writing them otherwise -/

/-- The last digits of a number in hexadecimal, this many of them. -/
def hexDigits : Nat → Nat → List Char
  | 0, _ => []
  | length + 1, n => hexDigits length (n / 16) ++ [Nat.digitChar (n % 16)]

/-- The text with every surrogate written as an escape. -/
def escapeSurrogates (text : String) : String :=
  String.ofList (text.toList.flatMap fun c =>
    if isSurrogate c then '\\' :: 'u' :: hexDigits 4 (codeOf c) else [c])

/-- The text with every surrogate replaced, one replacement character for each byte of what its
encoding would be. -/
def replaceSurrogates (text : String) : String :=
  String.ofList (text.toList.flatMap fun c =>
    if isSurrogate c then ['\uFFFD', '\uFFFD', '\uFFFD'] else [c])

/-! ## Encoding -/

/-- Why a text has no encoding: a row of surrogates in it, which begins at this position. -/
structure Unencodable where
  position : Nat
  count : Nat
  code : Nat
  deriving DecidableEq, Repr

/-- The reason in words. -/
def Unencodable.message (problem : Unencodable) : String :=
  "'utf-8' codec can't encode " ++
    (if problem.count = 1 then
      "character '\\u" ++ String.ofList (hexDigits 4 problem.code) ++ "' in position " ++
        toString problem.position
    else
      "characters in position " ++ toString problem.position ++ "-" ++
        toString (problem.position + problem.count - 1)) ++ ": surrogates not allowed"

/-- The first row of surrogates in a text, counted from a position, that begins with one that is
not excepted. -/
def firstRow? (excepted : Char → Bool) : Nat → List Char → Option Unencodable
  | _, [] => none
  | position, c :: rest =>
    if isSurrogate c && !excepted c then
      some ⟨position, 1 + (rest.takeWhile isSurrogate).length, codeOf c⟩
    else firstRow? excepted (position + 1) rest

/-- Why a text has no encoding, unless it has one. -/
def unencodable? (text : String) : Option Unencodable :=
  firstRow? (fun _ => false) 0 text.toList

/-- A surrogate that stands for a byte in a file name. -/
def isByteSurrogate (c : Char) : Bool :=
  0x10DC80 ≤ c.toNat && c.toNat ≤ 0x10DCFF

/-- Why a text is no file name.  Surrogates that stand for bytes are allowed there. -/
def unnameable? (text : String) : Option Unencodable :=
  firstRow? isByteSurrogate 0 text.toList

/-- The number of bytes of a file name. -/
def nameSize (name : String) : Nat :=
  name.toList.foldl (fun size c => size + if isByteSurrogate c then 1 else c.utf8Size) 0

/-! ### Laws -/

theorem codeOf_eq_toNat {c : Char} (h : isSurrogate c = false) : codeOf c = c.toNat := by
  simp [codeOf, h]

theorem toNat_ofNat {code : Nat} (h : code.isValidChar) : (Char.ofNat code).toNat = code := by
  have hchar : Char.ofNat code = Char.ofNatAux code h := dif_pos h
  rw [hchar]
  rfl

section Codes

variable {code : Nat} {c : Char}

/-- A code point has its own character or, if it is none, the one a whole plane further. -/
theorem toNat_of_ofCode? (h : ofCode? code = some c) :
    c.toNat = if 0xD800 ≤ code ∧ code ≤ 0xDFFF then code + 0x100000 else code := by
  unfold ofCode? at h
  by_cases hvalid : code.isValidChar
  · rw [if_pos hvalid] at h
    obtain rfl := Option.some.inj h
    rw [toNat_ofNat hvalid, if_neg]
    unfold Nat.isValidChar at hvalid
    omega
  · rw [if_neg hvalid] at h
    split at h
    · rename_i hcode
      have hsurrogate : 0xD800 ≤ code ∧ code ≤ 0xDFFF := by
        unfold Nat.isValidChar at hvalid
        omega
      obtain rfl := Option.some.inj h
      rw [toNat_ofNat (by unfold Nat.isValidChar; omega), if_pos hsurrogate]
    · cases h

variable (hfree : ¬ (0x10D800 ≤ code ∧ code ≤ 0x10DFFF)) (h : ofCode? code = some c)

include hfree h

theorem isSurrogate_of_ofCode?_iff : isSurrogate c = true ↔ 0xD800 ≤ code ∧ code ≤ 0xDFFF := by
  have hcode := toNat_of_ofCode? h
  simp only [isSurrogate, Bool.and_eq_true, decide_eq_true_eq]
  split at hcode <;> omega

theorem codeOf_of_ofCode? : codeOf c = code := by
  have hcode := toNat_of_ofCode? h
  have hsurrogate := isSurrogate_of_ofCode?_iff hfree h
  unfold codeOf
  split at hcode
  · rename_i hinside
    rw [if_pos (hsurrogate.mpr hinside)]
    omega
  · rename_i houtside
    rw [if_neg fun hc => houtside (hsurrogate.mp hc)]
    exact hcode

end Codes

theorem firstRow?_eq_none_iff {excepted : Char → Bool} {position : Nat} {s : List Char} :
    firstRow? excepted position s = none ↔ ∀ c ∈ s, isSurrogate c = true → excepted c = true := by
  induction s generalizing position with
  | nil => simp [firstRow?]
  | cons c rest ih =>
    rw [firstRow?, List.forall_mem_cons]
    by_cases hrow : (isSurrogate c && !excepted c) = true
    · rw [if_pos hrow]
      simp only [Bool.and_eq_true, Bool.not_eq_true'] at hrow
      simp [hrow.1, hrow.2]
    · rw [if_neg hrow, ih]
      simp only [Bool.and_eq_true, Bool.not_eq_true', not_and, Bool.not_eq_false] at hrow
      exact (and_iff_right hrow).symm

end ServiceManual.Text
