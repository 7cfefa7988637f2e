import Mathlib
import ServiceManual.Proofs.Words.Pattern

/-!
# The words of a name in one pass

Two passes mark the boundaries of words, the second one in the text that the first one has left, and
a third one takes the words from between the separators.  What they find can be said at once: the
runs of letters and digits are cut before each capital that begins a word (`beginsWord`), and that
is seen from the character before the capital and the one behind it (`split_eq_cut`).

No boundary is hidden by a mark before it: the capital behind a mark, and the small letter after it,
are not followed by a boundary of the same kind (`markCapitals_cons`, `markAcronyms_cons`).  Nor
does the first pass make or hide a boundary for the second one, since it leaves the characters
around a capital after a capital as they were (`endsAcronym_markCapitals`).
-/

namespace ServiceManual.Words

variable {a b c : Char} {s rest : List Char}

/-! ## Cutting in one pass -/

/-- Does a word begin with the first character of a text that comes after `a`? -/
def beginsWord (a : Char) : List Char → Bool
  | [] => false
  | c :: rest => c.isUpper && (a.isLower || a.isDigit || a.isUpper && rest.head?.any Char.isLower)

/-- A run of characters, cut before each capital that begins a word. -/
def cut : List Char → List (List Char)
  | [] => [[]]
  | a :: rest => if beginsWord a rest then [a] :: cut rest else (cut rest).modifyHead (a :: ·)

/-- The maximal runs of letters and digits in a text. -/
def runs (s : List Char) : List (List Char) :=
  (s.splitOnP fun c => !isWordChar c).filter fun run => !run.isEmpty

/-! ### The two passes together -/

theorem endsAcronym_of_not_isUpper (h : a.isUpper = false) : endsAcronym a s = false := by
  match s with
  | [] => rfl
  | [b] => rfl
  | b :: c :: rest => simp [endsAcronym, h]

theorem endsAcronym_cons_of_not_isUpper (h : b.isUpper = false) :
    endsAcronym a (b :: rest) = false := by
  match rest with
  | [] => rfl
  | c :: more => simp [endsAcronym, h]

theorem markCapitals_cons_of_isUpper (h : a.isUpper = true) :
    markCapitals (a :: s) = a :: markCapitals s := by
  match s with
  | [] => rfl
  | b :: rest =>
      rw [markCapitals, not_small_of_isUpper h, Bool.false_and, if_neg Bool.false_ne_true]

/-- The capital behind a mark is not followed by a boundary of the same kind. -/
theorem markCapitals_cons (a : Char) (s : List Char) :
    markCapitals (a :: s) =
      if (a.isLower || a.isDigit) && s.head?.any Char.isUpper then a :: ' ' :: markCapitals s
      else a :: markCapitals s := by
  match s with
  | [] => simp [markCapitals]
  | b :: rest =>
      rw [markCapitals, List.head?_cons, Option.any_some]
      by_cases hboundary : ((a.isLower || a.isDigit) && b.isUpper) = true
      · have hupper : b.isUpper = true := (Bool.and_eq_true_iff.mp hboundary).2
        rw [if_pos hboundary, if_pos hboundary, markCapitals_cons_of_isUpper hupper]
      · rw [if_neg hboundary, if_neg hboundary]

/-- Nor are the capital and the small letter behind a mark. -/
theorem markAcronyms_cons (a : Char) (s : List Char) :
    markAcronyms (a :: s) =
      if endsAcronym a s then a :: ' ' :: markAcronyms s else a :: markAcronyms s := by
  match s with
  | [] => rfl
  | [b] => rfl
  | b :: c :: rest =>
      rw [markAcronyms]
      by_cases hboundary : (a.isUpper && b.isUpper && c.isLower) = true
      · -- No other boundary begins before the small letter has been passed.
        have hlower : c.isLower = true := (Bool.and_eq_true_iff.mp hboundary).2
        have hupper := not_isUpper_of_isLower hlower
        have hnext : markAcronyms (b :: c :: rest) = b :: c :: markAcronyms rest := by
          match rest with
          | [] => rfl
          | [d] => simp [markAcronyms, hupper]
          | d :: e :: more => simp [markAcronyms, hupper]
        rw [if_pos hboundary, hnext, endsAcronym, if_pos hboundary]
      · rw [if_neg hboundary, endsAcronym, if_neg hboundary]

theorem exists_markCapitals_eq_cons (c : Char) (s : List Char) :
    ∃ more, markCapitals (c :: s) = c :: more := by
  rw [markCapitals_cons]
  split
  · exact ⟨_, rfl⟩
  · exact ⟨_, rfl⟩

/-- After a capital the first pass leaves for the second one what it needs to see. -/
theorem endsAcronym_markCapitals (ha : (a.isLower || a.isDigit) = false) :
    endsAcronym a (markCapitals s) = beginsWord a s := by
  match s with
  | [] => rfl
  | b :: rest =>
      cases hb : b.isUpper with
      | false =>
          obtain ⟨more, hmore⟩ := exists_markCapitals_eq_cons b rest
          rw [hmore, endsAcronym_cons_of_not_isUpper hb, beginsWord, hb, Bool.false_and]
      | true =>
          rw [markCapitals_cons_of_isUpper hb]
          match rest with
          | [] => simp [markCapitals, endsAcronym, beginsWord, ha]
          | c :: more =>
              obtain ⟨others, hothers⟩ := exists_markCapitals_eq_cons c more
              rw [hothers]
              simp [endsAcronym, beginsWord, ha, hb]

theorem beginsWord_of_small (ha : (a.isLower || a.isDigit) = true) :
    beginsWord a s = s.head?.any Char.isUpper := by
  cases s with
  | nil => rfl
  | cons b rest => simp [beginsWord, ha]

/-- The two passes put a mark exactly where a word begins. -/
theorem marked_cons (a : Char) (s : List Char) :
    markAcronyms (markCapitals (a :: s)) =
      if beginsWord a s then a :: ' ' :: markAcronyms (markCapitals s)
      else a :: markAcronyms (markCapitals s) := by
  cases hsmall : a.isLower || a.isDigit with
  | false =>
      rw [markCapitals_cons, hsmall, Bool.false_and, if_neg Bool.false_ne_true, markAcronyms_cons,
        endsAcronym_markCapitals hsmall]
  | true =>
      have ha := not_isUpper_of_small hsmall
      rw [markCapitals_cons, hsmall, Bool.true_and, beginsWord_of_small hsmall]
      split
      · rw [markAcronyms_cons, endsAcronym_of_not_isUpper ha, if_neg Bool.false_ne_true,
          markAcronyms_cons, endsAcronym_of_not_isUpper (by decide), if_neg Bool.false_ne_true]
      · rw [markAcronyms_cons, endsAcronym_of_not_isUpper ha, if_neg Bool.false_ne_true]

/-! ### What is between the marks -/

theorem cut_ne_nil (s : List Char) : cut s ≠ [] := by
  induction s with
  | nil => exact List.cons_ne_nil _ _
  | cons a rest ih =>
      rw [cut]
      split
      · exact List.cons_ne_nil _ _
      · exact fun h => ih (List.modifyHead_eq_nil_iff.mp h)

/-- A character is cut off, or put before the first piece of the rest. -/
theorem cut_cons_cases (a : Char) (rest : List Char) :
    (beginsWord a rest = true ∧ cut (a :: rest) = [a] :: cut rest) ∨
      (beginsWord a rest = false ∧ ∃ first others, cut rest = first :: others ∧
        cut (a :: rest) = (a :: first) :: others) := by
  cases hbegins : beginsWord a rest with
  | true => exact .inl ⟨rfl, by rw [cut, if_pos hbegins]⟩
  | false =>
      cases hrest : cut rest with
      | nil => exact absurd hrest (cut_ne_nil rest)
      | cons first others =>
          refine .inr ⟨rfl, first, others, rfl, ?_⟩
          rw [cut, hbegins, if_neg Bool.false_ne_true, hrest, List.modifyHead_cons]

/-- Whether a word begins is seen from letters and digits only. -/
theorem beginsWord_takeWhile (a : Char) (s : List Char) :
    beginsWord a (s.takeWhile isWordChar) = beginsWord a s := by
  match s with
  | [] => rfl
  | b :: rest =>
      cases hb : b.isUpper with
      | false =>
          cases hword : isWordChar b with
          | false => simp [hword, beginsWord, hb]
          | true => simp [hword, beginsWord, hb]
      | true =>
          have hword : isWordChar b = true := by
            simp [isWordChar, Char.isAlphanum, Char.isAlpha, hb]
          rw [List.takeWhile_cons_of_pos hword, beginsWord, beginsWord]
          match rest with
          | [] => rfl
          | c :: more =>
              cases hc : isWordChar c with
              | false =>
                  -- A separator is no small letter, so it makes no difference that it is missing.
                  have hlower : c.isLower = false := by
                    by_contra h
                    simp [isWordChar, Char.isAlphanum, Char.isAlpha, h] at hc
                  simp [hc, hlower]
              | true => simp [hc]

theorem beginsWord_of_not_isWordChar (h : isWordChar a = false) : beginsWord a s = false := by
  obtain ⟨⟨hupper, hlower⟩, hdigit⟩ :
      (a.isUpper = false ∧ a.isLower = false) ∧ a.isDigit = false := by
    simpa [isWordChar, Char.isAlphanum, Char.isAlpha] using h
  cases s with
  | nil => rfl
  | cons b rest => simp [beginsWord, hupper, hlower, hdigit]

theorem pieces_marked (s : List Char) :
    pieces (markAcronyms (markCapitals s)) = (pieces s).flatMap cut := by
  induction s with
  | nil => rfl
  | cons a rest ih =>
      rw [marked_cons]
      cases hword : isWordChar a with
      | false =>
          rw [beginsWord_of_not_isWordChar hword, if_neg Bool.false_ne_true,
            pieces_cons_of_not_isWordChar hword, pieces_cons_of_not_isWordChar hword, ih]
          rfl
      | true =>
          obtain ⟨more, hmore⟩ := exists_pieces_eq_cons rest
          have hbegins := beginsWord_takeWhile a rest
          rw [pieces_cons_of_isWordChar hword, hmore, List.modifyHead_cons, List.flatMap_cons]
          rw [hmore, List.flatMap_cons] at ih
          -- The character is a piece of its own or begins the first piece of the rest.
          obtain ⟨hcut, hrun⟩ | ⟨hcut, first, others, hfirst, hrun⟩ :=
            cut_cons_cases a (rest.takeWhile isWordChar)
          · rw [← hbegins, hcut, if_pos rfl, pieces_cons_of_isWordChar hword,
              pieces_cons_of_not_isWordChar isWordChar_space, ih, hrun]
            rfl
          · rw [← hbegins, hcut, if_neg Bool.false_ne_true, pieces_cons_of_isWordChar hword, ih,
              hfirst, hrun]
            rfl

theorem isEmpty_of_mem_cut_cons {word : List Char} (hword : word ∈ cut (a :: rest)) :
    word.isEmpty = false := by
  induction rest generalizing a word with
  | nil =>
      obtain rfl := List.mem_singleton.mp hword
      rfl
  | cons b more ih =>
      obtain ⟨-, hcut⟩ | ⟨-, first, others, hrest, hcut⟩ := cut_cons_cases a (b :: more)
      · rw [hcut] at hword
        rcases List.mem_cons.mp hword with rfl | h
        · rfl
        · exact ih h
      · rw [hcut] at hword
        rcases List.mem_cons.mp hword with rfl | h
        · rfl
        · exact ih (hrest ▸ List.mem_cons_of_mem _ h)

theorem filter_flatMap_cut (pieces : List (List Char)) :
    (pieces.flatMap cut).filter (fun piece => !piece.isEmpty) =
      (pieces.filter fun piece => !piece.isEmpty).flatMap cut := by
  induction pieces with
  | nil => rfl
  | cons piece more ih =>
      rw [List.flatMap_cons, List.filter_append, ih]
      cases piece with
      | nil => rfl
      | cons a rest =>
          have hall : ∀ word ∈ cut (a :: rest), (!word.isEmpty) = true := by
            intro word hword
            rw [isEmpty_of_mem_cut_cons hword]
            rfl
          rw [List.filter_eq_self.mpr hall]
          rfl

theorem split_eq_flatMap_cut (s : List Char) : split s = (runs s).flatMap cut := by
  rw [split, pieces_marked, filter_flatMap_cut, runs, pieces_eq_splitOnP]

/-! ### Words are not cut again -/

/-- A capital that begins a word in a part of a text begins one in the text. -/
theorem beginsWord_append {t : List Char} (h : beginsWord a s = true) :
    beginsWord a (s ++ t) = true := by
  match s with
  | [] => cases h
  | [b] =>
      obtain ⟨hb, hsmall⟩ : b.isUpper = true ∧ (a.isLower = true ∨ a.isDigit = true) := by
        simpa [beginsWord] using h
      rcases hsmall with h | h
      · simp [beginsWord, hb, h]
      · simp [beginsWord, hb, h]
  | b :: c :: rest => exact h

theorem flatten_cut (s : List Char) : (cut s).flatten = s := by
  induction s with
  | nil => rfl
  | cons a rest ih =>
      obtain ⟨-, hcut⟩ | ⟨-, first, others, hrest, hcut⟩ := cut_cons_cases a rest
      · rw [hcut, List.flatten_cons, ih]
        rfl
      · rw [hrest] at ih
        rw [hcut, ← ih]
        rfl

theorem cut_of_mem_cut {word : List Char} (h : word ∈ cut s) : cut word = [word] := by
  induction s generalizing word with
  | nil =>
      obtain rfl := List.mem_singleton.mp h
      rfl
  | cons a rest ih =>
      obtain ⟨-, hcut⟩ | ⟨hnot, first, others, hrest, hcut⟩ := cut_cons_cases a rest
      · rw [hcut] at h
        rcases List.mem_cons.mp h with rfl | h
        · rfl
        · exact ih h
      · rw [hcut] at h
        rcases List.mem_cons.mp h with rfl | h
        · -- The first piece begins the rest, and what begins a word in it does so in the rest.
          have hflatten : first ++ others.flatten = rest := by
            rw [← List.flatten_cons, ← hrest, flatten_cut]
          have hfirst : cut first = [first] := ih (hrest ▸ List.mem_cons_self)
          have hinside : beginsWord a first = false := by
            by_contra hbegins
            have happend := beginsWord_append (t := others.flatten) (Bool.not_eq_false _ ▸ hbegins)
            rw [hflatten, hnot] at happend
            cases happend
          rw [cut, hinside, if_neg Bool.false_ne_true, hfirst]
          rfl
        · exact ih (hrest ▸ List.mem_cons_of_mem _ h)

/-- Whether a word begins does not depend on a capital that comes later. -/
theorem beginsWord_append_of_isUpper (a b : Char) (s t : List Char) (hc : c.isUpper = true) :
    beginsWord a (b :: s ++ c :: t) = beginsWord a (b :: s) := by
  have hlower : c.isLower = false := by
    by_contra h
    rw [not_isUpper_of_isLower (Bool.not_eq_false _ ▸ h)] at hc
    cases hc
  cases s with
  | nil => simp [beginsWord, hlower]
  | cons d rest => rfl

/-- Before a capital that begins a word a text is cut, and what is before it and behind it is cut
as if the other one were not there. -/
theorem cut_append_of_beginsWord {t : List Char} (h : beginsWord a t = true) :
    cut (s ++ a :: t) = cut (s ++ [a]) ++ cut t := by
  cases t with
  | nil => cases h
  | cons c more =>
      have hc : c.isUpper = true := (Bool.and_eq_true_iff.mp h).1
      induction s with
      | nil =>
          rw [List.nil_append, cut, if_pos h]
          rfl
      | cons b rest ih =>
          -- The text goes on with at least one character before the capital.
          obtain ⟨d, others, hnext⟩ : ∃ d others, rest ++ [a] = d :: others :=
            List.exists_cons_of_ne_nil (by simp)
          have hsame : beginsWord b (rest ++ a :: c :: more) = beginsWord b (rest ++ [a]) := by
            rw [List.append_cons, hnext]
            exact beginsWord_append_of_isUpper b d others more hc
          obtain ⟨hbegins, hcut⟩ | ⟨hbegins, first, pieces, hfirst, hcut⟩ :=
            cut_cons_cases b (rest ++ [a])
          · rw [List.cons_append, List.cons_append, cut, hsame, hbegins, if_pos rfl, ih, hcut]
            rfl
          · rw [List.cons_append, List.cons_append, cut, hsame, hbegins,
              if_neg Bool.false_ne_true, ih, hfirst, hcut]
            rfl

theorem isWordChar_of_mem_split {word : List Char} (hword : word ∈ split s) (hc : c ∈ word) :
    isWordChar c = true := by
  have hflatten : c ∈ (split s).flatten := List.mem_flatten.mpr ⟨word, hword, hc⟩
  rw [flatten_split] at hflatten
  exact (List.mem_filter.mp hflatten).2

theorem isEmpty_of_mem_split {word : List Char} (hword : word ∈ split s) :
    word.isEmpty = false := by
  simpa using (List.mem_filter.mp hword).2

theorem cut_of_mem_split {word : List Char} (hword : word ∈ split s) : cut word = [word] := by
  rw [split_eq_flatMap_cut] at hword
  obtain ⟨run, -, hrun⟩ := List.mem_flatMap.mp hword
  exact cut_of_mem_cut hrun

/-! ### Splitting what has been joined -/

theorem runs_append_separator (hc : isWordChar c = false) (s t : List Char) :
    runs (s ++ c :: t) = runs s ++ runs t := by
  have hseparator : (!isWordChar c) = true := by
    rw [hc]
    rfl
  rw [runs, List.splitOnP_append_cons s t hseparator, List.filter_append, runs, runs]

theorem split_append_separator (hc : isWordChar c = false) (s t : List Char) :
    split (s ++ c :: t) = split s ++ split t := by
  rw [split_eq_flatMap_cut, runs_append_separator hc, List.flatMap_append, ← split_eq_flatMap_cut,
    ← split_eq_flatMap_cut]

theorem split_append_space (s t : List Char) : split (s ++ ' ' :: t) = split s ++ split t :=
  split_append_separator isWordChar_space s t

theorem runs_of_isWordChar (hne : s.isEmpty = false) (hs : ∀ c ∈ s, isWordChar c = true) :
    runs s = [s] := by
  have hword : ∀ c ∈ s, (!isWordChar c) = false := by
    intro c hc
    rw [hs c hc]
    rfl
  rw [runs, List.splitOnP_eq_singleton hword, List.filter_singleton, hne]
  rfl

theorem split_of_isWordChar (hne : s.isEmpty = false) (hs : ∀ c ∈ s, isWordChar c = true) :
    split s = cut s := by
  rw [split_eq_flatMap_cut, runs_of_isWordChar hne hs, List.flatMap_singleton]

theorem split_of_mem_split {word : List Char} (hword : word ∈ split s) : split word = [word] := by
  rw [split_of_isWordChar (isEmpty_of_mem_split hword) fun c hc => isWordChar_of_mem_split hword hc,
    cut_of_mem_split hword]

/-- Words with a separator between them are the same words. -/
theorem split_intercalate_separator (hc : isWordChar c = false) {words : List (List Char)}
    (hwords : ∀ word ∈ words, split word = [word]) :
    split ([c].intercalate words) = words := by
  induction words with
  | nil => rfl
  | cons word rest ih =>
      have hword := hwords word List.mem_cons_self
      cases rest with
      | nil => rw [List.intercalate_singleton, hword]
      | cons second more =>
          have hrest := ih fun word h => hwords word (List.mem_cons_of_mem _ h)
          rw [List.intercalate_cons_cons, List.append_assoc, List.singleton_append,
            split_append_separator hc, hword, hrest]
          rfl

theorem split_intercalate {words : List (List Char)}
    (hwords : ∀ word ∈ words, split word = [word]) :
    split ([' '].intercalate words) = words :=
  split_intercalate_separator isWordChar_space hwords

/-- **Words are cut once.**  What the patterns of the two boundaries and of the separators find in
a text are its maximal runs of letters and digits, each of them cut exactly before the capitals
that follow a small letter or digit, or follow a capital and are followed by a small letter.  So
the words are not empty, they are the letters and digits of the text, none of them can be cut
further, and with spaces between them they are the same words. -/
theorem split_eq_cut (s : List Char) :
    splitByPatterns s = (runs s).flatMap cut ∧
      split s = splitByPatterns s ∧
      (∀ word ∈ splitByPatterns s, word ≠ []) ∧
      (splitByPatterns s).flatten = s.filter isWordChar ∧
      (∀ word ∈ splitByPatterns s, cut word = [word] ∧ splitByPatterns word = [word]) ∧
      splitByPatterns ([' '].intercalate (splitByPatterns s)) = splitByPatterns s := by
  simp only [splitByPatterns_eq]
  refine ⟨split_eq_flatMap_cut s, trivial, fun word hword => ?_, flatten_split s,
    fun word hword => ?_, split_intercalate fun word hword => split_of_mem_split hword⟩
  · exact List.isEmpty_eq_false_iff.mp (isEmpty_of_mem_split hword)
  · exact ⟨cut_of_mem_split hword, split_of_mem_split hword⟩

/-- An acronym, a number and a word in one run. -/
example : split "parseHTTP2Body_ofIDs".toList =
    ["parse", "HTTP2", "Body", "of", "I", "Ds"].map String.toList := by decide +kernel

end ServiceManual.Words
