import Mathlib
import ServiceManual.Naming

/-!
# What the casings keep

Splitting a name into words drops its separators and nothing else (`flatten_split`): the marks of
boundaries are separators themselves, so marking loses nothing and adds nothing that is kept.  A
casing joins the words and changes the case of some letters.  So every casing keeps, up to case, the
letters and digits of the name, wherever its words begin: the two that join words without a
separator consist of them (`lower_camel`, `lower_pascal`), and the hyphens of another one are
separators again (`bare_kebab`).
-/

namespace ServiceManual

/-- The letters and digits of a name, in small letters. -/
def Words.bare (s : List Char) : List Char :=
  lower (s.filter isWordChar)

/-- The letters and digits of a name, in small letters. -/
def Naming.bare (name : String) : String :=
  String.ofList (Words.bare name.toList)

namespace Words

/-! ## Splitting -/

theorem isWordChar_space : isWordChar ' ' = false := by decide

theorem filter_markCapitals (s : List Char) :
    (markCapitals s).filter isWordChar = s.filter isWordChar := by
  fun_induction markCapitals s with
  | case1 a b rest hboundary ih =>
      simp only [List.filter_cons, isWordChar_space, Bool.false_eq_true, if_false, ih]
  | case2 a b rest hboundary ih => simp only [List.filter_cons, ih]
  | case3 rest hshort => rfl

theorem filter_markAcronyms (s : List Char) :
    (markAcronyms s).filter isWordChar = s.filter isWordChar := by
  fun_induction markAcronyms s with
  | case1 a b c rest hboundary ih =>
      simp only [List.filter_cons, isWordChar_space, Bool.false_eq_true, if_false, ih]
  | case2 a b c rest hboundary ih => simp only [List.filter_cons, ih]
  | case3 rest hshort => rfl

theorem flatten_pieces (s : List Char) : (pieces s).flatten = s.filter isWordChar := by
  fun_induction pieces s with
  | case1 => rfl
  | case2 c rest hword hpieces ih => simp [hword, ← ih, hpieces]
  | case3 c rest hword piece more hpieces ih => simp [hword, ← ih, hpieces]
  | case4 c rest hword ih => simp [hword, ih]

/-- The words of a name are its letters and digits. -/
theorem flatten_split (s : List Char) : (split s).flatten = s.filter isWordChar := by
  have hpieces : (split s).flatten = (pieces (markAcronyms (markCapitals s))).flatten :=
    List.flatten_filter_not_isEmpty
  rw [hpieces, flatten_pieces, filter_markAcronyms, filter_markCapitals]

/-! ## Casings -/

theorem lower_lower (word : List Char) : lower (lower word) = lower word := by
  simp [lower]

theorem lower_append (first second : List Char) :
    lower (first ++ second) = lower first ++ lower second :=
  List.map_append

theorem lower_capitalize (word : List Char) : lower (capitalize word) = lower word := by
  cases word with
  | nil => rfl
  | cons c rest => simp [capitalize, lower]

theorem lower_flatten_map_capitalize (words : List (List Char)) :
    lower (words.map capitalize).flatten = lower words.flatten := by
  induction words with
  | nil => rfl
  | cons word rest ih =>
      rw [List.map_cons, List.flatten_cons, List.flatten_cons, lower_append, lower_append,
        lower_capitalize, ih]

/-- With all words capitalized a name keeps its letters and digits. -/
theorem lower_pascal (s : List Char) : lower (pascal s) = bare s := by
  rw [pascal, lower_flatten_map_capitalize, flatten_split, bare]

theorem lower_camel (s : List Char) : lower (camel s) = bare s := by
  rw [bare, ← flatten_split, camel]
  cases hsplit : split s with
  | nil => rfl
  | cons word rest =>
      rw [lower_append, lower_lower, lower_flatten_map_capitalize, List.flatten_cons,
        lower_append]

theorem isWordChar_toLower (c : Char) : isWordChar c.toLower = isWordChar c := by
  by_cases hupper : c.isUpper
  · simp [isWordChar, Char.isAlphanum, Char.isAlpha, hupper]
  · rw [Char.toLower_eq_of_not_isUpper hupper]

theorem isLower_or_isDigit_toLower {c : Char} (hc : isWordChar c = true) :
    c.toLower.isLower = true ∨ c.toLower.isDigit = true := by
  have hlower : isWordChar c.toLower = true := (isWordChar_toLower c).trans hc
  simpa [isWordChar, Char.isAlphanum, Char.isAlpha] using hlower

/-- A text that is the letters and digits of a name up to case has no other characters. -/
theorem isWordChar_of_lower_eq_bare {s t : List Char} {c : Char} (ht : lower t = bare s)
    (hc : c ∈ t) : isWordChar c = true := by
  have hlower : c.toLower ∈ bare s := ht ▸ List.mem_map_of_mem hc
  obtain ⟨d, hd, hcase⟩ := List.mem_map.mp hlower
  have hword : isWordChar d = true := (List.mem_filter.mp hd).2
  calc isWordChar c = isWordChar c.toLower := (isWordChar_toLower c).symm
    _ = isWordChar d.toLower := by rw [hcase]
    _ = isWordChar d := isWordChar_toLower d
    _ = true := hword

theorem bare_append (s t : List Char) : bare (s ++ t) = bare s ++ bare t := by
  rw [bare, List.filter_append, lower_append, bare, bare]

theorem bare_pascal (s : List Char) : bare (pascal s) = bare s := by
  have hword : ∀ c ∈ pascal s, isWordChar c = true :=
    fun c hc => isWordChar_of_lower_eq_bare (lower_pascal s) hc
  rw [bare, List.filter_eq_self.mpr hword, lower_pascal]

theorem filter_lower (s : List Char) :
    (lower s).filter isWordChar = lower (s.filter isWordChar) := by
  rw [lower, List.filter_map, lower]
  congr 1
  exact List.filter_congr fun c _ => isWordChar_toLower c

theorem filter_intercalate_hyphen (words : List (List Char)) :
    (['-'].intercalate words).filter isWordChar = words.flatten.filter isWordChar := by
  have hhyphen : isWordChar '-' = false := by decide
  induction words with
  | nil => rfl
  | cons word rest ih =>
      cases rest with
      | nil => simp [List.intercalate]
      | cons second more =>
          rw [List.intercalate_cons_cons, List.filter_append, List.filter_append, ih]
          simp [hhyphen]

theorem bare_kebab (s : List Char) : bare (kebab s) = bare s := by
  have hflatten : ((split s).map lower).flatten = lower (split s).flatten :=
    List.map_flatten.symm
  rw [bare, kebab, filter_intercalate_hyphen, hflatten, filter_lower, lower_lower,
    flatten_split, List.filter_filter]
  simp only [Bool.and_self, bare]

theorem toNat_lt_of_isWordChar {c : Char} (h : isWordChar c = true) : c.toNat < 128 := by
  simp only [isWordChar, Char.isAlphanum, Char.isAlpha, Char.isUpper, Char.isLower, Char.isDigit,
    Bool.or_eq_true, Bool.and_eq_true, decide_eq_true_eq, ge_iff_le, UInt32.le_iff_toNat_le,
    Char.toNat_val, Char.reduceToNat] at h
  omega

end Words

end ServiceManual
