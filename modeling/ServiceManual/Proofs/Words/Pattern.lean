import Mathlib
import ServiceManual.Proofs.Words
import ServiceManual.Words.Pattern

/-!
# Patterns find the words

The patterns of the boundaries and of the separators find what the passes over the characters of a
name find (`splitByPatterns_eq`).

A pattern takes more than the two characters between which it puts a mark.  Of the capitals before a
mark it takes as many as it can.  A boundary that can be found behind the first of them is found
there as well, with one more capital before it (`mark_acronymBoundary_of_not_endsAcronym`).  And
where there is one right behind the first capital, there is none further on, since the capital after
it is followed by a small letter (`found?_acronymBoundary_of_endsAcronym`).
-/

namespace ServiceManual.Words

variable {a b c : Char} {s rest : List Char}

/-! ## The boundaries that patterns find -/

theorem not_isUpper_of_isLower (h : a.isLower = true) : a.isUpper = false :=
  Bool.eq_false_iff.mpr (Char.not_isUpper_of_isLower h)

theorem not_isUpper_of_isDigit (h : a.isDigit = true) : a.isUpper = false := by
  simp only [Char.isDigit, Char.isUpper, Bool.and_eq_true, decide_eq_true_eq,
    decide_eq_false_iff_not, ge_iff_le, UInt32.le_iff_toNat_le, Char.toNat_val,
    Char.reduceToNat] at h ⊢
  omega

theorem not_isUpper_of_small (h : (a.isLower || a.isDigit) = true) : a.isUpper = false := by
  rcases Bool.or_eq_true_iff.mp h with h | h
  · exact not_isUpper_of_isLower h
  · exact not_isUpper_of_isDigit h

theorem not_small_of_isUpper (h : a.isUpper = true) : (a.isLower || a.isDigit) = false := by
  by_contra hsmall
  have hnot := not_isUpper_of_small (Bool.not_eq_false _ ▸ hsmall)
  rw [h] at hnot
  cases hnot

section Mark

variable {boundary : Boundary} {before after left : List Char}

theorem found?_nil (boundary : Boundary) : boundary.found? [] = none := by
  cases h : boundary.found? [] with
  | none => rfl
  | some found => exact absurd (Boundary.length_lt_of_found? h) (Nat.not_lt_zero _)

theorem mark_nil (boundary : Boundary) : boundary.mark [] = [] := by
  rw [Boundary.mark]

theorem mark_of_found? (h : boundary.found? (a :: s) = some (before, after, left)) :
    boundary.mark (a :: s) = before ++ ' ' :: after ++ boundary.mark left := by
  rw [Boundary.mark]
  split
  · rename_i hfound
    rw [h] at hfound
    cases hfound
    rfl
  · rename_i hfound
    rw [h] at hfound
    cases hfound

theorem mark_of_not_found (h : boundary.found? (a :: s) = none) :
    boundary.mark (a :: s) = a :: boundary.mark s := by
  rw [Boundary.mark]
  split
  · rename_i hfound
    rw [h] at hfound
    cases hfound
  · rfl

end Mark

theorem found?_caseBoundary (a b : Char) (rest : List Char) :
    caseBoundary.found? (a :: b :: rest) =
      if (a.isLower || a.isDigit) && b.isUpper then some ([a], [b], rest) else none := by
  cases hbefore : a.isLower || a.isDigit with
  | false => simp [Boundary.found?, caseBoundary, Pattern.ways, hbefore]
  | true =>
      cases hafter : b.isUpper with
      | false => simp [Boundary.found?, caseBoundary, Pattern.ways, hbefore, hafter]
      | true => simp [Boundary.found?, caseBoundary, Pattern.ways, hbefore, hafter]

theorem found?_caseBoundary_singleton (a : Char) : caseBoundary.found? [a] = none := by
  cases hbefore : a.isLower || a.isDigit with
  | false => simp [Boundary.found?, caseBoundary, Pattern.ways, hbefore]
  | true => simp [Boundary.found?, caseBoundary, Pattern.ways, hbefore]

theorem mark_caseBoundary (s : List Char) : caseBoundary.mark s = markCapitals s := by
  fun_induction markCapitals s with
  | case1 a b rest hboundary ih =>
      have hfound := found?_caseBoundary a b rest
      rw [if_pos hboundary] at hfound
      rw [mark_of_found? hfound, ih]
      rfl
  | case2 a b rest hboundary ih =>
      have hfound := found?_caseBoundary a b rest
      rw [if_neg hboundary] at hfound
      rw [mark_of_not_found hfound, ih]
  | case3 short hshort =>
      cases short with
      | nil => exact mark_nil _
      | cons a rest =>
          cases rest with
          | nil => rw [mark_of_not_found (found?_caseBoundary_singleton a), mark_nil]
          | cons b rest => exact absurd rfl (hshort a b rest)

/-- Does a text go on with a capital and a small letter after a capital? -/
def endsAcronym (a : Char) : List Char → Bool
  | b :: c :: _ => a.isUpper && b.isUpper && c.isLower
  | _ => false

theorem found?_acronymBoundary_of_not_isUpper (h : a.isUpper = false) :
    acronymBoundary.found? (a :: s) = none := by
  simp [Boundary.found?, acronymBoundary, Pattern.ways, Pattern.beginnings, h]

/-- Where the capitals go on, they are taken as long as a boundary comes after them. -/
theorem found?_acronymBoundary_of_isUpper (h : a.isUpper = true) :
    acronymBoundary.found? (a :: s) =
      ((acronymBoundary.found? s).map fun found => (a :: found.1, found.2)).or
        ((acronymBoundary.after.ways s).head?.map fun next => ([a], next)) := by
  have hways : acronymBoundary.before.ways (a :: s) =
      (acronymBoundary.before.ways s).map (fun way => (a :: way.1, way.2)) ++ [([a], s)] := by
    simp [acronymBoundary, Pattern.ways, Pattern.beginnings, h]
  rw [Boundary.found?, hways, List.flatMap_append, List.head?_append, Boundary.found?,
    ← List.head?_map, ← List.head?_map, List.map_flatMap, List.flatMap_map, List.flatMap_singleton]
  simp only [List.map_map, Function.comp_def]

theorem head?_ways_after_acronymBoundary (h : a.isUpper = true) :
    (acronymBoundary.after.ways s).head? =
      if endsAcronym a s then some (s.take 2, s.drop 2) else none := by
  match s with
  | [] => simp [acronymBoundary, Pattern.ways, endsAcronym]
  | [b] =>
      cases hb : b.isUpper with
      | false => simp [acronymBoundary, Pattern.ways, endsAcronym, hb]
      | true => simp [acronymBoundary, Pattern.ways, endsAcronym, hb]
  | b :: c :: rest =>
      cases hb : b.isUpper with
      | false => simp [acronymBoundary, Pattern.ways, endsAcronym, hb]
      | true =>
          cases hc : c.isLower with
          | false => simp [acronymBoundary, Pattern.ways, endsAcronym, hb, hc]
          | true => simp [acronymBoundary, Pattern.ways, endsAcronym, h, hb, hc]

/-- After the first capital of a boundary no other boundary can be found. -/
theorem found?_acronymBoundary_of_endsAcronym (h : endsAcronym a s = true) :
    acronymBoundary.found? (a :: s) = some ([a], s.take 2, s.drop 2) := by
  match s with
  | [] => cases h
  | [b] => cases h
  | b :: c :: rest =>
      obtain ⟨⟨ha, hb⟩, hc⟩ : (a.isUpper = true ∧ b.isUpper = true) ∧ c.isLower = true := by
        simpa [endsAcronym] using h
      -- More capitals would be taken first, but then there is no match.
      have hsecond : acronymBoundary.found? (c :: rest) = none :=
        found?_acronymBoundary_of_not_isUpper (not_isUpper_of_isLower hc)
      have hnot : endsAcronym b (c :: rest) = false := by
        cases rest with
        | nil => rfl
        | cons d more => simp [endsAcronym, not_isUpper_of_isLower hc]
      have hfirst : acronymBoundary.found? (b :: c :: rest) = none := by
        rw [found?_acronymBoundary_of_isUpper hb, hsecond, head?_ways_after_acronymBoundary hb,
          hnot]
        rfl
      rw [found?_acronymBoundary_of_isUpper ha, hfirst, head?_ways_after_acronymBoundary ha,
        if_pos h]
      rfl

theorem mark_acronymBoundary_of_endsAcronym (h : endsAcronym a s = true) :
    acronymBoundary.mark (a :: s) = a :: ' ' :: (s.take 2 ++ acronymBoundary.mark (s.drop 2)) :=
  mark_of_found? (found?_acronymBoundary_of_endsAcronym h)

/-- Where no boundary comes at once, a character can be passed over. -/
theorem mark_acronymBoundary_of_not_endsAcronym (h : endsAcronym a s = false) :
    acronymBoundary.mark (a :: s) = a :: acronymBoundary.mark s := by
  cases ha : a.isUpper with
  | false => exact mark_of_not_found (found?_acronymBoundary_of_not_isUpper ha)
  | true =>
      have hfound := found?_acronymBoundary_of_isUpper (s := s) ha
      rw [head?_ways_after_acronymBoundary ha, h] at hfound
      cases hrest : acronymBoundary.found? s with
      | none =>
          rw [hrest] at hfound
          exact mark_of_not_found hfound
      | some found =>
          -- The boundary found later is the one found now, with one more capital before it.
          obtain ⟨before, after, left⟩ := found
          rw [hrest] at hfound
          cases s with
          | nil =>
              rw [found?_nil] at hrest
              cases hrest
          | cons b rest =>
              rw [mark_of_found? hfound, mark_of_found? hrest]
              rfl

/-- The pattern of capitals and a capital with a small letter finds what is marked next. -/
theorem mark_acronymBoundary (s : List Char) : acronymBoundary.mark s = markAcronyms s := by
  fun_induction markAcronyms s with
  | case1 a b c rest hboundary ih =>
      rw [mark_acronymBoundary_of_endsAcronym (s := b :: c :: rest) hboundary]
      simp [ih]
  | case2 a b c rest hboundary ih =>
      have hnot : endsAcronym a (b :: c :: rest) = false := Bool.eq_false_iff.mpr hboundary
      rw [mark_acronymBoundary_of_not_endsAcronym hnot, ih]
  | case3 short hshort =>
      -- Of texts that are too short for a boundary nothing is changed.
      cases short with
      | nil => exact mark_nil _
      | cons a rest =>
          cases rest with
          | nil => rw [mark_acronymBoundary_of_not_endsAcronym rfl, mark_nil]
          | cons b rest =>
              cases rest with
              | nil =>
                  rw [mark_acronymBoundary_of_not_endsAcronym rfl,
                    mark_acronymBoundary_of_not_endsAcronym rfl, mark_nil]
              | cons c rest => exact absurd rfl (hshort a b c rest)

/-! ## The separators that the pattern finds -/

theorem head?_beginnings_cons (fits : Char → Bool) (c : Char) (rest : List Char) :
    (Pattern.beginnings fits (c :: rest)).head? =
      if fits c then some (c :: rest.takeWhile fits, rest.dropWhile fits) else none := by
  induction rest generalizing c with
  | nil =>
      cases hc : fits c with
      | false => simp [Pattern.beginnings, hc]
      | true => simp [Pattern.beginnings, hc]
  | cons d more ih =>
      rw [Pattern.beginnings]
      cases hc : fits c with
      | false => rfl
      | true =>
          simp only [if_true, List.head?_append, List.head?_map, ih d]
          cases hd : fits d with
          | false => simp [hd]
          | true => simp [hd]

theorem pieces_eq_splitOnP (s : List Char) : pieces s = s.splitOnP fun c => !isWordChar c := by
  induction s with
  | nil => rfl
  | cons c rest ih =>
      rw [pieces, List.splitOnP_cons_eq_if_modifyHead, ih]
      cases hword : isWordChar c with
      | false => rfl
      | true =>
          cases hpieces : rest.splitOnP fun c => !isWordChar c with
          | nil => exact absurd hpieces (List.splitOnP_ne_nil _ rest)
          | cons piece more => rfl

theorem pieces_cons_of_isWordChar (h : isWordChar c = true) :
    pieces (c :: rest) = (pieces rest).modifyHead (c :: ·) := by
  simp [pieces_eq_splitOnP, List.splitOnP_cons_eq_if_modifyHead, h]

theorem pieces_cons_of_not_isWordChar (h : isWordChar c = false) :
    pieces (c :: rest) = [] :: pieces rest := by
  simp [pieces_eq_splitOnP, List.splitOnP_cons_eq_if_modifyHead, h]

theorem exists_pieces_eq_cons (s : List Char) :
    ∃ more, pieces s = s.takeWhile isWordChar :: more := by
  induction s with
  | nil => exact ⟨[], rfl⟩
  | cons c rest ih =>
      obtain ⟨more, hmore⟩ := ih
      cases hword : isWordChar c with
      | false =>
          refine ⟨pieces rest, ?_⟩
          rw [pieces_cons_of_not_isWordChar hword, List.takeWhile_cons_of_neg (by simp [hword])]
      | true =>
          refine ⟨more, ?_⟩
          rw [pieces_cons_of_isWordChar hword, hmore, List.takeWhile_cons_of_pos hword]
          rfl

theorem filter_pieces_dropWhile (s : List Char) :
    (pieces (s.dropWhile fun c => !isWordChar c)).filter (fun piece => !piece.isEmpty) =
      (pieces s).filter fun piece => !piece.isEmpty := by
  induction s with
  | nil => rfl
  | cons c rest ih =>
      cases hword : isWordChar c with
      | false =>
          rw [List.dropWhile_cons_of_pos (by simp [hword]), ih,
            pieces_cons_of_not_isWordChar hword]
          rfl
      | true => rw [List.dropWhile_cons_of_neg (by simp [hword])]

/-- The pattern of separators takes several of them at once, so it leaves out pieces that are
empty, and keeps the first one. -/
theorem exists_separate_eq_cons (s : List Char) :
    ∃ first more others, separators.separate s = first :: more ∧ pieces s = first :: others ∧
      more.filter (fun piece => !piece.isEmpty) =
        others.filter fun piece => !piece.isEmpty := by
  fun_induction separators.separate s with
  | case1 => exact ⟨[], [], [], rfl, rfl, rfl⟩
  | case2 c rest way hfound ih =>
      obtain ⟨first, more, others, hmore, hothers, hfilter⟩ := ih
      rw [separators, Pattern.ways, head?_beginnings_cons] at hfound
      cases hword : isWordChar c with
      | true => simp [hword] at hfound
      | false =>
          obtain rfl : _ = way := by simpa [hword] using hfound
          refine ⟨[], _, _, rfl, pieces_cons_of_not_isWordChar hword, ?_⟩
          rw [← filter_pieces_dropWhile rest, hmore, hothers, List.filter_cons, List.filter_cons,
            hfilter]
  | case3 c rest hfound ih =>
      obtain ⟨first, more, others, hmore, hothers, hfilter⟩ := ih
      rw [separators, Pattern.ways, head?_beginnings_cons] at hfound
      cases hword : isWordChar c with
      | false => simp [hword] at hfound
      | true =>
          refine ⟨c :: first, more, others, ?_, ?_, hfilter⟩
          · rw [hmore]
            rfl
          · rw [pieces_cons_of_isWordChar hword, hothers]
            rfl

theorem splitByPatterns_eq (s : List Char) : splitByPatterns s = split s := by
  obtain ⟨first, more, others, hmore, hothers, hfilter⟩ :=
    exists_separate_eq_cons (markAcronyms (markCapitals s))
  rw [splitByPatterns, split, mark_caseBoundary, mark_acronymBoundary, hmore, hothers,
    List.filter_cons, List.filter_cons, hfilter]

end ServiceManual.Words
