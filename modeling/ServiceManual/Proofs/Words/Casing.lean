import Mathlib
import ServiceManual.Naming
import ServiceManual.Proofs.Words.Cutting

/-!
# Which casings keep the words

A name that has been put together from its words in another casing can be split again.  With a
separator between the words the same words are found, since no word has a capital behind its first
character, where it could be cut (`split_lower`, `split_capitalize`).

Without a separator only the capitals are left to tell where a word begins, and whether one does is
seen from the characters around it.  Two words that follow each other stay two exactly if

* the second one begins with a letter, which has become a capital, and
* the first one ends in a small letter or a digit, or the second one goes on with a small letter.

In terms of the words before they are capitalized this is `staysApart`
(`beginsWord_getLast_capitalize`).  One pair that does not stay apart is enough for the words to be
lost, since nothing else is ever cut (`cut_flatten_map_capitalize_iff`).

The title and the file name of a document are made from the display name of the interface, whose
words have been put together in this way, so the same condition decides on them.
-/

namespace ServiceManual.Words

variable {a c d : Char} {s t word first second : List Char}

/-- Is a word a single letter? -/
def isLetter : List Char → Bool
  | [c] => c.isAlpha
  | _ => false

/-- Has a word no letter as its second character? -/
def lacksSecondLetter : List Char → Bool
  | _ :: d :: _ => d.isDigit
  | _ => true

/-- Do two words stay apart when both are capitalized and put together? -/
def staysApart (first second : List Char) : Bool :=
  second.head?.any Char.isAlpha && !(isLetter first && lacksSecondLetter second)

/-! ## Words with a capital at most in front -/

theorem isUpper_of_mem_lower (hc : c ∈ lower s) : c.isUpper = false := by
  obtain ⟨d, -, rfl⟩ := List.mem_map.mp hc
  exact Char.isUpper_toLower_eq_false d

/-- No word begins within characters none of which is a capital, so the only place where a text that
begins with them can be cut is behind them. -/
theorem cut_append_of_small (hs : ∀ c ∈ s, c.isUpper = false) (a : Char) (t : List Char) :
    cut (a :: s ++ t) =
      if beginsWord ((a :: s).getLast (List.cons_ne_nil a s)) t then (a :: s) :: cut t
      else (cut t).modifyHead (a :: s ++ ·) := by
  induction s generalizing a with
  | nil => rfl
  | cons b rest ih =>
      have hb : b.isUpper = false := hs b List.mem_cons_self
      have hrest := ih (fun c hc => hs c (List.mem_cons_of_mem b hc)) b
      have hnot : beginsWord a (b :: rest ++ t) = false := by simp [beginsWord, hb]
      have hlast : (a :: b :: rest).getLast (List.cons_ne_nil a _) =
          (b :: rest).getLast (List.cons_ne_nil b rest) := List.getLast_cons_cons
      rw [List.cons_append, cut, hnot, if_neg Bool.false_ne_true, hrest, hlast]
      split
      · rfl
      · rw [List.modifyHead_modifyHead]
        rfl

theorem cut_of_small (hs : ∀ c ∈ s, c.isUpper = false) (a : Char) : cut (a :: s) = [a :: s] := by
  have hcut := cut_append_of_small hs a []
  rw [beginsWord, if_neg Bool.false_ne_true, cut, List.modifyHead_cons] at hcut
  simpa using hcut

theorem split_lower (hword : word ∈ split s) : split (lower word) = [lower word] := by
  have hchars : ∀ c ∈ lower word, isWordChar c = true := by
    intro c hc
    obtain ⟨d, hd, rfl⟩ := List.mem_map.mp hc
    rw [isWordChar_toLower]
    exact isWordChar_of_mem_split hword hd
  have hne := isEmpty_of_mem_split hword
  cases word with
  | nil => cases hne
  | cons a rest =>
      rw [split_of_isWordChar rfl hchars]
      exact cut_of_small (fun c hc => isUpper_of_mem_lower hc) a.toLower

theorem isWordChar_toUpper (c : Char) : isWordChar c.toUpper = isWordChar c := by
  by_cases hlower : c.isLower
  · simp [isWordChar, Char.isAlphanum, Char.isAlpha, hlower]
  · rw [Char.toUpper_eq_of_not_isLower hlower]

theorem isWordChar_of_mem_capitalize (hword : ∀ c ∈ word, isWordChar c = true)
    (hc : c ∈ capitalize word) : isWordChar c = true := by
  cases word with
  | nil => cases hc
  | cons a rest =>
      rcases List.mem_cons.mp hc with rfl | hc
      · rw [isWordChar_toUpper]
        exact hword a List.mem_cons_self
      · obtain ⟨d, hd, rfl⟩ := List.mem_map.mp hc
        rw [isWordChar_toLower]
        exact hword d (List.mem_cons_of_mem a hd)

theorem split_capitalize (hword : word ∈ split s) :
    split (capitalize word) = [capitalize word] := by
  have hchars : ∀ c ∈ capitalize word, isWordChar c = true :=
    fun c hc => isWordChar_of_mem_capitalize (fun _ => isWordChar_of_mem_split hword) hc
  have hne := isEmpty_of_mem_split hword
  cases word with
  | nil => cases hne
  | cons a rest =>
      rw [split_of_isWordChar rfl hchars]
      exact cut_of_small (fun c hc => isUpper_of_mem_lower hc) a.toUpper

/-! ## With separators -/

theorem split_kebab (s : List Char) : split (kebab s) = (split s).map lower := by
  refine split_intercalate_separator (by decide) fun word hword => ?_
  obtain ⟨original, horiginal, rfl⟩ := List.mem_map.mp hword
  exact split_lower horiginal

theorem split_title (s : List Char) : split (title s) = (split s).map capitalize := by
  refine split_intercalate fun word hword => ?_
  obtain ⟨original, horiginal, rfl⟩ := List.mem_map.mp hword
  exact split_capitalize horiginal

/-! ## Without separators -/

theorem isAlpha_eq_not_isDigit (hd : isWordChar d = true) : d.isAlpha = !d.isDigit := by
  have hcase : d.isAlpha = true ∨ d.isDigit = true := by
    simpa [isWordChar, Char.isAlphanum] using hd
  have hnot : ¬(d.isAlpha = true ∧ d.isDigit = true) := by
    simp only [Char.isAlpha, Char.isDigit, Char.isUpper, Char.isLower, Bool.or_eq_true,
      Bool.and_eq_true, decide_eq_true_eq, ge_iff_le, UInt32.le_iff_toNat_le, Char.toNat_val,
      Char.reduceToNat]
    omega
  cases halpha : d.isAlpha with
  | true => simpa [halpha] using hnot
  | false => simpa [halpha] using hcase

/-- Behind a small letter or a digit a capitalized word begins if it begins with a letter. -/
theorem beginsWord_capitalize_of_small (ha : (a.isLower || a.isDigit) = true) :
    beginsWord a (capitalize (c :: second) ++ t) = c.isAlpha := by
  rw [beginsWord_of_small ha, capitalize, List.cons_append, List.head?_cons, Option.any_some,
    Char.isUpper_toUpper_eq_isAlpha]

/-- Behind a capital it must go on with a small letter too, unless the text that comes after it
does. -/
theorem beginsWord_capitalize_of_isUpper (ha : a.isUpper = true)
    (hsecond : ∀ d ∈ second, isWordChar d = true) (ht : t.head?.any Char.isLower = false) :
    beginsWord a (capitalize (c :: second) ++ t) =
      (c.isAlpha && !lacksSecondLetter (c :: second)) := by
  have hsmall := not_small_of_isUpper ha
  have hnext : (lower second ++ t).head?.any Char.isLower = !lacksSecondLetter (c :: second) := by
    cases second with
    | nil => exact ht
    | cons d more =>
        have hd : isWordChar d = true := hsecond d List.mem_cons_self
        calc d.toLower.isLower = d.isAlpha := Char.isLower_toLower_eq_isAlpha d
          _ = !d.isDigit := isAlpha_eq_not_isDigit hd
  rw [capitalize, List.cons_append, beginsWord, hsmall, ha, Bool.false_or, Bool.true_and, hnext,
    Char.isUpper_toUpper_eq_isAlpha]

theorem isUpper_getLast_capitalize (hletter : isLetter (a :: s) = true) :
    ((capitalize (a :: s)).getLast (List.cons_ne_nil _ _)).isUpper = true := by
  cases s with
  | nil => exact (Char.isUpper_toUpper_eq_isAlpha a).trans hletter
  | cons b rest => cases hletter

theorem small_getLast_capitalize (hword : ∀ d ∈ a :: s, isWordChar d = true)
    (hletter : isLetter (a :: s) = false) :
    (((capitalize (a :: s)).getLast (List.cons_ne_nil _ _)).isLower ||
      ((capitalize (a :: s)).getLast (List.cons_ne_nil _ _)).isDigit) = true := by
  cases s with
  | nil =>
      have halpha : a.isAlpha = false := hletter
      have hdigit : a.isDigit = true := by
        have hnot := isAlpha_eq_not_isDigit (hword a List.mem_cons_self)
        simpa [halpha] using hnot
      have hlower : ¬a.isLower = true := by
        intro h
        simp [Char.isAlpha, h] at halpha
      have hsame : a.toUpper = a := Char.toUpper_eq_of_not_isLower hlower
      simp [capitalize, lower, hsame, hdigit]
  | cons b rest =>
      -- The last character is one of those that have been put in small letters.
      have hne : lower (b :: rest) ≠ [] := List.cons_ne_nil _ _
      have hlast : (capitalize (a :: b :: rest)).getLast (List.cons_ne_nil _ _) =
          (lower (b :: rest)).getLast hne := List.getLast_cons hne
      obtain ⟨d, hd, hcase⟩ := List.mem_map.mp (List.getLast_mem hne)
      rw [hlast, ← hcase, Bool.or_eq_true]
      exact isLower_or_isDigit_toLower (hword d (List.mem_cons_of_mem a hd))

/-- Whether two words stay apart is seen from the words as they are, whatever comes behind them,
unless it begins with a small letter. -/
theorem beginsWord_getLast_capitalize (hfirst : ∀ d ∈ a :: s, isWordChar d = true)
    (hsecond : ∀ d ∈ c :: second, isWordChar d = true) (ht : t.head?.any Char.isLower = false) :
    beginsWord ((capitalize (a :: s)).getLast (List.cons_ne_nil _ _))
      (capitalize (c :: second) ++ t) = staysApart (a :: s) (c :: second) := by
  rw [staysApart, List.head?_cons, Option.any_some]
  cases hletter : isLetter (a :: s) with
  | true =>
      have hmore : ∀ d ∈ second, isWordChar d = true :=
        fun d hd => hsecond d (List.mem_cons_of_mem c hd)
      rw [beginsWord_capitalize_of_isUpper (isUpper_getLast_capitalize hletter) hmore ht,
        Bool.true_and]
  | false =>
      rw [beginsWord_capitalize_of_small (small_getLast_capitalize hfirst hletter),
        Bool.false_and, Bool.not_false, Bool.and_true]

theorem isLower_head?_flatten_map_capitalize (words : List (List Char))
    (hwords : ∀ word ∈ words, word ≠ []) :
    (words.map capitalize).flatten.head?.any Char.isLower = false := by
  cases words with
  | nil => rfl
  | cons word rest =>
      cases word with
      | nil => exact absurd rfl (hwords [] List.mem_cons_self)
      | cons a s => exact Char.isLower_toUpper_eq_false a

/-- The first of several capitalized words is found if it stays apart from the next one, and it is
put before what is found first otherwise. -/
theorem cut_flatten_map_capitalize_cons {words : List (List Char)}
    (hfirst : ∀ d ∈ a :: s, isWordChar d = true) (hsecond : ∀ d ∈ c :: second, isWordChar d = true)
    (hwords : ∀ word ∈ words, word ≠ []) :
    cut (((a :: s) :: (c :: second) :: words).map capitalize).flatten =
      if staysApart (a :: s) (c :: second) = true then
        capitalize (a :: s) :: cut (((c :: second) :: words).map capitalize).flatten
      else (cut (((c :: second) :: words).map capitalize).flatten).modifyHead
        (capitalize (a :: s) ++ ·) := by
  have hsmall : ∀ d ∈ lower s, d.isUpper = false := fun d hd => isUpper_of_mem_lower hd
  have hrest := isLower_head?_flatten_map_capitalize words hwords
  rw [← beginsWord_getLast_capitalize hfirst hsecond hrest]
  exact cut_append_of_small hsmall a.toUpper _

/-- Capitalized words that are put together are found again exactly if each of them stays apart from
the next one. -/
theorem cut_flatten_map_capitalize_iff {words : List (List Char)} (hne : words ≠ [])
    (hwords : ∀ word ∈ words, word ≠ [])
    (hchars : ∀ word ∈ words, ∀ c ∈ word, isWordChar c = true) :
    cut (words.map capitalize).flatten = words.map capitalize ↔
      words.IsChain fun first second => staysApart first second = true := by
  induction words with
  | nil => exact absurd rfl hne
  | cons word rest ih =>
      obtain ⟨hword, hrest⟩ := List.forall_mem_cons.mp hwords
      obtain ⟨hwordChars, hrestChars⟩ := List.forall_mem_cons.mp hchars
      obtain ⟨a, s, rfl⟩ := List.exists_cons_of_ne_nil hword
      cases rest with
      | nil =>
          have hcut : cut (capitalize (a :: s)) = [capitalize (a :: s)] :=
            cut_of_small (fun c hc => isUpper_of_mem_lower hc) a.toUpper
          simp [hcut]
      | cons next more =>
          have hfound := ih (List.cons_ne_nil _ _) hrest hrestChars
          obtain ⟨hnext, hmore⟩ := List.forall_mem_cons.mp hrest
          obtain ⟨c, second, rfl⟩ := List.exists_cons_of_ne_nil hnext
          rw [cut_flatten_map_capitalize_cons hwordChars
            (hrestChars _ List.mem_cons_self) hmore, List.isChain_cons_cons, ← hfound]
          cases hapart : staysApart (a :: s) (c :: second) with
          | true => simp
          | false =>
              -- The first piece goes on behind the first word.
              obtain ⟨piece, others, hpieces⟩ := List.exists_cons_of_ne_nil
                (cut_ne_nil (((c :: second) :: more).map capitalize).flatten)
              have hpiece : piece.isEmpty = false :=
                isEmpty_of_mem_cut_cons (hpieces ▸ List.mem_cons_self)
              have hlost : capitalize (a :: s) ++ piece ≠ capitalize (a :: s) := by
                simpa using hpiece
              rw [if_neg Bool.false_ne_true, hpieces, List.modifyHead_cons]
              exact iff_of_false (fun heq => hlost (List.cons.inj heq).1)
                (fun hboth => Bool.false_ne_true hboth.1)

theorem isWordChar_of_mem_pascal (hc : c ∈ pascal s) : isWordChar c = true :=
  isWordChar_of_lower_eq_bare (lower_pascal s) hc

theorem split_pascal_iff (s : List Char) :
    split (pascal s) = (split s).map capitalize ↔
      (split s).IsChain fun first second => staysApart first second = true := by
  have hwords : ∀ word ∈ split s, word ≠ [] :=
    fun word hword => List.isEmpty_eq_false_iff.mp (isEmpty_of_mem_split hword)
  by_cases hnone : split s = []
  · rw [pascal, hnone]
    exact iff_of_true rfl List.isChain_nil
  · have hpascal : (pascal s).isEmpty = false := by
      obtain ⟨word, rest, hsplit⟩ := List.exists_cons_of_ne_nil hnone
      obtain ⟨a, t, rfl⟩ := List.exists_cons_of_ne_nil
        (hwords word (hsplit ▸ List.mem_cons_self))
      rw [pascal, hsplit]
      rfl
    rw [split_of_isWordChar hpascal fun c hc => isWordChar_of_mem_pascal hc]
    exact cut_flatten_map_capitalize_iff hnone hwords
      fun word hword c hc => isWordChar_of_mem_split hword hc

/-! ## Casings of what has been put together -/

theorem capitalize_capitalize (word : List Char) :
    capitalize (capitalize word) = capitalize word := by
  cases word with
  | nil => rfl
  | cons a s => rw [capitalize, capitalize, Char.toUpper_toUpper_eq_toUpper, lower_lower]

theorem length_capitalize (word : List Char) : (capitalize word).length = word.length := by
  cases word with
  | nil => rfl
  | cons a s => simp [capitalize, lower]

/-- Words that have been put together are found again as soon as words of their lengths are. -/
theorem split_pascal_of_lengths
    (hlengths : (split (pascal s)).map List.length = (split s).map List.length) :
    split (pascal s) = (split s).map capitalize := by
  have hflatten : (split (pascal s)).flatten = ((split s).map capitalize).flatten := by
    rw [flatten_split, List.filter_eq_self.mpr fun c hc => isWordChar_of_mem_pascal hc, pascal]
  refine List.eq_iff_flatten_eq.mpr ⟨hflatten, ?_⟩
  calc (split (pascal s)).map List.length = (split s).map List.length := hlengths
    _ = ((split s).map capitalize).map List.length := by
        rw [List.map_map]
        exact List.map_congr_left fun word _ => (length_capitalize word).symm

theorem split_title_pascal_iff (s : List Char) :
    split (title (pascal s)) = (split s).map capitalize ↔
      split (pascal s) = (split s).map capitalize := by
  rw [split_title]
  constructor
  · intro h
    have hlengths := congrArg (List.map List.length) h
    simp only [List.map_map, Function.comp_def, length_capitalize] at hlengths
    exact split_pascal_of_lengths hlengths
  · intro h
    rw [h, List.map_map]
    exact List.map_congr_left fun word _ => capitalize_capitalize word

theorem split_kebab_pascal_iff (s : List Char) :
    split (kebab (pascal s)) = (split s).map lower ↔
      split (pascal s) = (split s).map capitalize := by
  rw [split_kebab]
  constructor
  · intro h
    have hlengths := congrArg (List.map List.length) h
    simp only [List.map_map, Function.comp_def, lower, List.length_map] at hlengths
    exact split_pascal_of_lengths hlengths
  · intro h
    rw [h, List.map_map]
    exact List.map_congr_left fun word _ => lower_capitalize word

/-- **Which casings keep the words.**  With hyphens between small words, and with spaces between
capitalized words, a name has the same words again.  Capitalized and put together it has them
exactly if each word stays apart from the next one.  The title and the file name of an interface's
document are casings of its display name, which has been put together from the name of the
interface and the word `service`, and so they have the words of that name exactly if those words
stay apart. -/
theorem split_casings (s : List Char) (interface : Interface) :
    split (kebab s) = (split s).map lower ∧
      split (title s) = (split s).map capitalize ∧
      (split (pascal s) = (split s).map capitalize ↔
        (split s).IsChain fun first second => staysApart first second = true) ∧
      (split (Naming.title interface.displayName).toList =
          (split (interface.name ++ " service").toList).map capitalize ↔
        (split (interface.name ++ " service").toList).IsChain
          fun first second => staysApart first second = true) ∧
      (split (Naming.kebab interface.displayName).toList =
          (split (interface.name ++ " service").toList).map lower ↔
        (split (interface.name ++ " service").toList).IsChain
          fun first second => staysApart first second = true) := by
  have htitle : (Naming.title interface.displayName).toList =
      title (pascal (interface.name ++ " service").toList) := by
    simp [Naming.title, Interface.displayName, Naming.pascal]
  have hkebab : (Naming.kebab interface.displayName).toList =
      kebab (pascal (interface.name ++ " service").toList) := by
    simp [Naming.kebab, Interface.displayName, Naming.pascal]
  refine ⟨split_kebab s, split_title s, split_pascal_iff s, ?_, ?_⟩
  · rw [htitle, split_title_pascal_iff, split_pascal_iff]
  · rw [hkebab, split_kebab_pascal_iff, split_pascal_iff]

/-- Single letters and a leading digit are not seen as words of their own. -/
example : (["widget receipt", "v 2 api", "x y axis", "get b 1", "a b1"].map fun name =>
    (split (pascal name.toList)).map String.ofList) =
      [["Widget", "Receipt"], ["V2", "Api"], ["XY", "Axis"], ["Get", "B1"], ["AB1"]] := by
  decide +kernel

end ServiceManual.Words
