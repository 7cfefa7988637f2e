import Mathlib
import ServiceManual.Manual.Pool
import ServiceManual.Proofs.Manual.Saving
import ServiceManual.Proofs.Words.Cutting

/-!
# Where pages are written

The path of a page goes down by two names, whatever the interface is called (`Manual.path?_eq`): no
name on it is empty, leads to where it is or upwards, or has a slash in it.

The name of the file ends in the word `service`.  That word is put behind the name of the interface
with a capital and without a separator, and is a word of its own nevertheless, since a capital with
a small letter after it begins a word after every letter and digit
(`Words.cut_append_capital`).
-/

namespace ServiceManual

namespace Words

variable {a c d : Char} {s more : List Char}

theorem beginsWord_capital (ha : isWordChar a = true) (hc : c.isUpper = true)
    (hd : d.isLower = true) : beginsWord a (c :: d :: more) = true := by
  have hcase : (a.isUpper = true ∨ a.isLower = true) ∨ a.isDigit = true := by
    simpa [isWordChar, Char.isAlphanum, Char.isAlpha] using ha
  rcases hcase with (h | h) | h
  · simp [beginsWord, hc, hd, h]
  · simp [beginsWord, hc, h]
  · simp [beginsWord, hc, h]

theorem cut_append_capital (hne : s ≠ []) (hs : ∀ a ∈ s, isWordChar a = true)
    (hc : c.isUpper = true) (hd : d.isLower = true) :
    cut (s ++ c :: d :: more) = cut s ++ cut (c :: d :: more) := by
  have hlast : isWordChar (s.getLast hne) = true := hs _ (List.getLast_mem hne)
  have hbegins : beginsWord (s.getLast hne) (c :: d :: more) = true :=
    beginsWord_capital hlast hc hd
  have hcut := cut_append_of_beginsWord (s := s.dropLast) hbegins
  rwa [List.append_cons, List.dropLast_append_getLast] at hcut

theorem split_append_capital (hs : ∀ a ∈ s, isWordChar a = true)
    (hmore : ∀ a ∈ c :: d :: more, isWordChar a = true) (hc : c.isUpper = true)
    (hd : d.isLower = true) : split (s ++ c :: d :: more) = split s ++ split (c :: d :: more) := by
  by_cases hempty : s = []
  · rw [hempty]
    rfl
  · have hall : ∀ a ∈ s ++ c :: d :: more, isWordChar a = true := by
      intro a ha
      rcases List.mem_append.mp ha with h | h
      · exact hs a h
      · exact hmore a h
    rw [split_of_isWordChar (by simp) hall, split_of_isWordChar (by simpa using hempty) hs,
      split_of_isWordChar rfl hmore, cut_append_capital hempty hs hc hd]

/-- The word `service` behind a name is its last word, even without a separator. -/
theorem split_pascal_append (s : List Char) :
    split (pascal (s ++ " service".toList)) = split (pascal s) ++ ["Service".toList] := by
  have hsplit : split (s ++ " service".toList) = split s ++ ["service".toList] :=
    split_append_space s "service".toList
  have hpascal : pascal (s ++ " service".toList) =
      pascal s ++ ['S', 'e', 'r', 'v', 'i', 'c', 'e'] := by
    rw [pascal, hsplit, List.map_append, List.flatten_append, pascal]
    rfl
  have hservice : ['S', 'e', 'r', 'v', 'i', 'c', 'e'].all isWordChar = true := by decide
  rw [hpascal, split_append_capital _ (List.all_eq_true.mp hservice) (by decide) (by decide)]
  · rfl
  · intro c hc
    exact isWordChar_of_lower_eq_bare (lower_pascal s) hc

end Words

theorem Interface.words_displayName (interface : Interface) :
    Words.split interface.displayName.toList =
      Words.split (Words.pascal interface.name.toList) ++ ["Service".toList] := by
  rw [displayName, Naming.pascal, String.toList_ofList, String.toList_append,
    Words.split_pascal_append]

namespace Manual

/-! ## Names on a path -/

/-- A name that leads one step down, to a file or a directory of that name. -/
structure LeadsDown (name : String) : Prop where
  ne_empty : name ≠ ""
  ne_here : name ≠ "."
  ne_upwards : name ≠ ".."
  slash_notMem : '/' ∉ name.toList

/-- A word of small letters and digits. -/
structure IsSmallWord (word : String) : Prop where
  ne_empty : word ≠ ""
  small : ∀ c ∈ word.toList, c.isLower = true ∨ c.isDigit = true

/-- A name of a file with small words that are joined by hyphens, the last of which is
`service`. -/
structure IsServiceFile (name : String) : Prop where
  words : ∃ words : List String, words ≠ [] ∧ (∀ word ∈ words, IsSmallWord word) ∧
    name = "-".intercalate words ++ ".md"
  ends : name = "service.md" ∨ ∃ front, name = front ++ "-service.md"

/-- A name that does not begin with a dot leads down if it has no slash. -/
theorem leadsDown_of_ne_dot {name : String} {c : Char} (hfirst : name.toList.head? = some c)
    (hdot : c ≠ '.') (hslash : '/' ∉ name.toList) : LeadsDown name where
  ne_empty := by
    rintro rfl
    cases hfirst
  ne_here := by
    rintro rfl
    exact hdot (Option.some.inj hfirst).symm
  ne_upwards := by
    rintro rfl
    exact hdot (Option.some.inj hfirst).symm
  slash_notMem := hslash

theorem isDigit_of_mem_repr {n : Nat} {c : Char} (hc : c ∈ n.repr.toList) : c.isDigit = true := by
  rw [Nat.repr_eq_ofList_toDigits, String.toList_ofList] at hc
  exact Nat.isDigit_of_mem_toDigits (by decide) (by decide) hc

theorem eq_or_isDigit_of_mem_toString {version : Int} {c : Char}
    (hc : c ∈ (toString version).toList) : c = '-' ∨ c.isDigit = true := by
  cases version with
  | ofNat n => exact .inr (isDigit_of_mem_repr hc)
  | negSucc n =>
      have hsigned : (toString (Int.negSucc n)).toList = '-' :: (n + 1).repr.toList :=
        String.toList_append
      rw [hsigned] at hc
      exact (List.mem_cons.mp hc).imp id isDigit_of_mem_repr

theorem leadsDown_version (version : Int) : LeadsDown ("v" ++ toString version) := by
  have hfirst : ("v" ++ toString version).toList = 'v' :: (toString version).toList :=
    String.toList_append
  refine leadsDown_of_ne_dot (c := 'v') ?_ (by decide) ?_
  · rw [hfirst, List.head?_cons]
  · rw [hfirst]
    intro hslash
    rcases List.mem_cons.mp hslash with h | h
    · cases h
    · rcases eq_or_isDigit_of_mem_toString h with h | h
      · cases h
      · cases h

theorem eq_or_small_of_mem_intercalate {words : List String}
    (hwords : ∀ word ∈ words, IsSmallWord word) {c : Char}
    (hc : c ∈ ("-".intercalate words).toList) :
    c = '-' ∨ c.isLower = true ∨ c.isDigit = true := by
  induction words with
  | nil => simp at hc
  | cons word rest ih =>
      have hword := hwords word List.mem_cons_self
      cases rest with
      | nil =>
          rw [String.intercalate_singleton] at hc
          exact .inr (hword.small c hc)
      | cons second more =>
          rw [String.intercalate_cons_cons, String.toList_append, String.toList_append] at hc
          -- It is in the first word, is the hyphen behind that, or is in the rest.
          rcases List.mem_append.mp hc with h | h
          · rcases List.mem_append.mp h with h | h
            · exact .inr (hword.small c h)
            · exact .inl (List.mem_singleton.mp h)
          · exact ih (fun word h => hwords word (List.mem_cons_of_mem _ h)) h

theorem toList_intercalate_ne_nil {words : List String} (hne : words ≠ [])
    (hwords : ∀ word ∈ words, IsSmallWord word) : ("-".intercalate words).toList ≠ [] := by
  cases words with
  | nil => exact absurd rfl hne
  | cons word rest =>
      have hword : word.toList ≠ [] := by
        simpa using (hwords word List.mem_cons_self).ne_empty
      cases rest with
      | nil => rwa [String.intercalate_singleton]
      | cons second more =>
          rw [String.intercalate_cons_cons, String.toList_append, String.toList_append]
          simp [hword]

theorem IsServiceFile.leadsDown {name : String} (h : IsServiceFile name) : LeadsDown name := by
  obtain ⟨words, hne, hwords, rfl⟩ := h.words
  have hslash : '/' ∉ ("-".intercalate words ++ ".md").toList := by
    rw [String.toList_append, List.mem_append, not_or]
    refine ⟨fun h => ?_, by decide⟩
    rcases eq_or_small_of_mem_intercalate hwords h with h | h | h
    · cases h
    · cases h
    · cases h
  -- The name begins with the first character of a word, which is no dot.
  cases hname : ("-".intercalate words).toList with
  | nil => exact absurd hname (toList_intercalate_ne_nil hne hwords)
  | cons c rest =>
      refine leadsDown_of_ne_dot (c := c) ?_ ?_ hslash
      · rw [String.toList_append, hname]
        rfl
      · rintro rfl
        have hmem : '.' ∈ ("-".intercalate words).toList := hname ▸ List.mem_cons_self
        rcases eq_or_small_of_mem_intercalate hwords hmem with h | h | h
        · cases h
        · cases h
        · cases h

/-! ## The path of a page -/

theorem kebab_eq_intercalate (name : String) :
    Naming.kebab name = "-".intercalate
      ((Words.split name.toList).map fun word => String.ofList (Words.lower word)) := by
  rw [← String.toList_inj, Naming.kebab, String.toList_ofList, Words.kebab,
    String.toList_intercalate, List.map_map]
  congr 1
  refine List.map_congr_left fun word _ => ?_
  rw [Function.comp_apply, String.toList_ofList]

theorem isSmallWord_of_mem_split {s word : List Char} (hword : word ∈ Words.split s) :
    IsSmallWord (String.ofList (Words.lower word)) where
  ne_empty := by
    intro h
    have hempty := congrArg String.toList h
    have hne := Words.isEmpty_of_mem_split hword
    simp [Words.lower] at hempty
    simp [hempty] at hne
  small := by
    intro c hc
    rw [String.toList_ofList] at hc
    obtain ⟨a, ha, rfl⟩ := List.mem_map.mp hc
    exact Words.isLower_or_isDigit_toLower (Words.isWordChar_of_mem_split hword ha)

/-- The name of an interface's file consists of the words of the interface's name, as they are
when they have been put together, and of the word `service`. -/
theorem kebab_displayName (interface : Interface) :
    Naming.kebab interface.displayName = "-".intercalate
      (((Words.split (Words.pascal interface.name.toList)).map fun word =>
        String.ofList (Words.lower word)) ++ ["service"]) := by
  rw [kebab_eq_intercalate, Interface.words_displayName, List.map_append]
  rfl

theorem isServiceFile_documentPath (interface : Interface) :
    IsServiceFile (Naming.kebab interface.displayName ++ ".md") where
  words := by
    refine ⟨_, ?_, ?_, congrArg (· ++ ".md") (kebab_eq_intercalate _)⟩
    · rw [Interface.words_displayName]
      simp
    · intro word hword
      obtain ⟨characters, hcharacters, rfl⟩ := List.mem_map.mp hword
      exact isSmallWord_of_mem_split hcharacters
  ends := by
    rw [kebab_displayName]
    -- Without any other word the last one stands alone.
    by_cases hnone : Words.split (Words.pascal interface.name.toList) = []
    · rw [hnone]
      exact .inl rfl
    · have hwords : ((Words.split (Words.pascal interface.name.toList)).map fun word =>
          String.ofList (Words.lower word)) ≠ [] := by simpa using hnone
      rw [String.intercalate_append_of_ne_nil hwords (List.cons_ne_nil _ _),
        String.intercalate_singleton, String.append_assoc, String.append_assoc]
      exact .inr ⟨_, rfl⟩

theorem lt_of_log2_lt {n bits bound : Nat} (hbound : Nat.pow 2 bits ≤ bound)
    (h : n.log2 < bits) : n < bound := by
  calc n < 2 ^ (n.log2 + 1) := Nat.lt_log2_self
    _ ≤ 2 ^ bits := Nat.pow_le_pow_right (by decide) h
    _ ≤ bound := hbound

/-- The length of a number in bits is as good as the number itself, to see if it can be written. -/
theorem isWritable_iff (value : Int) :
    ServiceManual.isWritable value = true ↔ value.natAbs < Nat.pow 10 4300 := by
  have hbits : Nat.pow 2 14284 ≤ Nat.pow 10 4300 := by decide +kernel
  rw [ServiceManual.isWritable, Bool.or_eq_true, decide_eq_true_eq, decide_eq_true_eq]
  constructor
  · rintro (hlog | h)
    · exact lt_of_log2_lt hbits hlog
    · exact h
  · exact .inr

/-- **Paths of pages lead down.**  Whatever an interface is called, the path of its page has two
names.  The first one is the version in decimal digits.  The second one ends in the word `service`
and consists of small words joined by hyphens.  None of the two is empty, leads to where it is or
upwards, or has a slash in it.  There is such a path exactly if the version can be written out. -/
theorem path?_eq (service : Service) (interface : Interface) :
    ∃ file, IsServiceFile file ∧ LeadsDown ("v" ++ toString service.majorVersion) ∧
      LeadsDown file ∧
      path? service interface =
        if service.majorVersion.natAbs < Nat.pow 10 4300 then
          .ok ["v" ++ toString service.majorVersion, file]
        else .error .unwritable := by
  have hfile := isServiceFile_documentPath interface
  refine ⟨_, hfile, leadsDown_version _, hfile.leadsDown, ?_⟩
  by_cases hwritable : service.majorVersion.natAbs < Nat.pow 10 4300
  · rw [if_pos hwritable, path?, integerObstacle?, if_pos ((isWritable_iff _).mpr hwritable)]
    rfl
  · rw [if_neg hwritable, path?, integerObstacle?,
      if_neg fun h => hwritable ((isWritable_iff _).mp h)]

/-- The name of an interface may have no letter at all, and may look like a path. -/
example : (["", "../../etc/passwd", "HTTP2.v1/", "x9"].map fun name =>
    (Interface.mk name [] []).documentPath (-1)) =
      [["v-1", "service.md"], ["v-1", "etc-passwd-service.md"], ["v-1", "http2-v1-service.md"],
        ["v-1", "x9-service.md"]] := by decide +kernel

/-- A service whose version has more than 4300 digits. -/
def vastVersion : Service :=
  { serviceOf ["pet"] with majorVersion := Int.ofNat (Nat.pow 2 14285) }

/-- Not every version has a path: this one cannot be written out. -/
theorem vastVersion_no_path :
    path? vastVersion (Interface.mk "pet" [] []) = .error .unwritable ∧
      ¬ ∀ (service : Service) (interface : Interface), ∃ version file,
        path? service interface = .ok [version, file] := by
  have hvast : ¬ vastVersion.majorVersion.natAbs < Nat.pow 10 4300 := by decide +kernel
  have hpath : path? vastVersion (Interface.mk "pet" [] []) = .error .unwritable := by
    rw [path?, integerObstacle?, if_neg fun h => hvast ((isWritable_iff _).mp h)]
  refine ⟨hpath, fun hall => ?_⟩
  obtain ⟨version, file, h⟩ := hall vastVersion (Interface.mk "pet" [] [])
  rw [hpath] at h
  cases h

section Page

variable {service : Service} {configuration : Configuration} {package : Package}
  {interface : Interface} {page : Page} {obstacle : Obstacle}

theorem path?_of_page? (h : page? service configuration package interface = .ok page) :
    path? service interface = .ok page.path := by
  rw [page?] at h
  split at h
  · rename_i hnone
    obtain rfl := Except.ok.inj h
    rw [obstacles] at hnone
    have hversion : integerObstacle? service.majorVersion = none := by
      cases hobstacle : integerObstacle? service.majorVersion with
      | none => rfl
      | some obstacle => simp [hobstacle] at hnone
    rw [path?, hversion]
    rfl
  · cases h

/-- What keeps a path from being made is the first thing that keeps the page from being made. -/
theorem page?_of_path? (h : path? service interface = .error obstacle) :
    page? service configuration package interface = .error obstacle := by
  rw [path?] at h
  split at h
  · rename_i hversion
    obtain rfl := Except.error.inj h
    rw [page?, obstacles, hversion]
    rfl
  · cases h

end Page

end Manual

end ServiceManual
