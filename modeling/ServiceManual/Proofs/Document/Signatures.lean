import Mathlib.Data.List.Forall2
import ServiceManual.Manual
import ServiceManual.Proofs.Document.Contents
import ServiceManual.Proofs.Words

/-!
# Signatures and parameters

A method is printed with its parameters twice, in the braces of its signature and as a list of
bullets.  Neither is made from the other.  They agree as printed: what is read off the line of the
signature (`markedNames`) is what the bullets say, name for name (`PrintedMethod.Shows`).

Nothing is lost when a signature is read, since a display name has only letters and digits
(`Naming.IsPlain`), which the marks around it are not.  So names that are empty or stand there
several times are told apart by their places.
-/

namespace ServiceManual

/-! ## Plain names -/

/-- A name of letters and digits. -/
def Naming.IsPlain (name : String) : Prop :=
  ∀ c ∈ name.toList, Words.isWordChar c = true

theorem Naming.isPlain_camel (name : String) : Naming.IsPlain (Naming.camel name) := by
  intro c hc
  rw [camel, String.toList_ofList] at hc
  exact Words.isWordChar_of_lower_eq_bare (Words.lower_camel name.toList) hc

theorem Naming.IsPlain.notMem {name : String} {mark : Char} (h : Naming.IsPlain name)
    (hmark : Words.isWordChar mark = false) : mark ∉ name.toList := by
  intro hmem
  rw [h mark hmem] at hmark
  cases hmark

/-! ## Reading what is printed -/

/-- What stands between the first of two marks and the next of the other one. -/
def Text.between (opening closing : Char) (s : List Char) : List Char :=
  ((s.dropWhile (· != opening)).drop 1).takeWhile (· != closing)

theorem Text.between_append {opening closing : Char} {before inner after : List Char}
    (hbefore : opening ∉ before) (hinner : closing ∉ inner) :
    between opening closing (before ++ opening :: (inner ++ closing :: after)) = inner := by
  have hskip : ∀ c ∈ before, (c != opening) = true :=
    fun c hc => bne_iff_ne.mpr (ne_of_mem_of_not_mem hc hbefore)
  have htake : ∀ c ∈ inner, (c != closing) = true :=
    fun c hc => bne_iff_ne.mpr (ne_of_mem_of_not_mem hc hinner)
  rw [between, List.dropWhile_append_of_pos hskip, List.dropWhile_cons_of_neg (by simp),
    List.drop_one, List.tail_cons, List.takeWhile_append_of_pos htake,
    List.takeWhile_cons_of_neg (by simp), List.append_nil]

/-- A name between commas, and whether a question mark follows it. -/
def markedName (piece : List Char) : String × Bool :=
  (String.ofList ((piece.dropWhile (· == ' ')).takeWhile (· != '?')), piece.contains '?')

/-- The names between the braces of a signature, each with whether it is marked as optional. -/
def markedNames (signature : String) : List (String × Bool) :=
  if '\x7b' ∈ signature.toList then
    ((Text.between '\x7b' '\x7d' signature.toList).splitOn ',').map markedName
  else []

/-! ## Signatures -/

/-- What stands between the braces of a signature. -/
def bracedText (parameters : List (String × Bool)) : String :=
  ", ".intercalate (parameters.map Block.signatureName)

section Braces

variable {name : String} {parameters : List (String × Bool)} {mark : Char}

theorem mem_signatureName {parameter : String × Bool} {c : Char} :
    c ∈ (Block.signatureName parameter).toList ↔
      c ∈ parameter.1.toList ∨ (c = '?' ∧ parameter.2 = false) := by
  rw [Block.signatureName, String.toList_append, List.mem_append]
  cases parameter.2 <;> simp

theorem mem_or_exists_mem_of_mem_intercalate {α : Type} {separator : List α}
    {pieces : List (List α)} {x : α} (h : x ∈ separator.intercalate pieces) :
    x ∈ separator ∨ ∃ piece ∈ pieces, x ∈ piece := by
  induction pieces with
  | nil => simp [List.intercalate] at h
  | cons piece rest ih =>
      cases rest with
      | nil => exact .inr ⟨piece, List.mem_singleton_self _, by simpa [List.intercalate] using h⟩
      | cons next rest =>
          rw [List.intercalate_cons_cons, List.mem_append, List.mem_append] at h
          rcases h with (hpiece | hseparator) | hrest
          · exact .inr ⟨piece, List.mem_cons_self, hpiece⟩
          · exact .inl hseparator
          · exact (ih hrest).imp_right fun ⟨other, hother, hx⟩ =>
              ⟨other, List.mem_cons_of_mem _ hother, hx⟩

/-- Between the braces are plain names, commas, blanks and question marks. -/
theorem notMem_bracedText (h : ∀ parameter ∈ parameters, Naming.IsPlain parameter.1)
    (hword : Words.isWordChar mark = false) (hmarks : mark ∉ [',', ' ', '?']) :
    mark ∉ (bracedText parameters).toList := by
  intro hmem
  simp only [List.mem_cons, List.not_mem_nil, or_false, not_or] at hmarks
  rw [bracedText, String.toList_intercalate] at hmem
  rcases mem_or_exists_mem_of_mem_intercalate hmem with hseparator | ⟨piece, hpiece, hmem⟩
  · simp [hmarks] at hseparator
  · simp only [List.map_map, List.mem_map, Function.comp_apply] at hpiece
    obtain ⟨parameter, hparameter, rfl⟩ := hpiece
    rcases mem_signatureName.mp hmem with hname | ⟨hmark, -⟩
    · exact (h parameter hparameter).notMem hword hname
    · exact hmarks.2.2 hmark

theorem toList_signature (hne : parameters ≠ []) :
    (Bullet.quoted (Block.signatureText name parameters)).toList =
      ('\x60' :: name.toList ++ ['(']) ++ '\x7b' :: ((bracedText parameters).toList ++ '\x7d' ::
        ((if parameters.any Prod.snd then "" else " | undefined").toList ++ [')', '\x60'])) := by
  simp [Bullet.quoted, Block.signatureText, bracedText, hne]

/-- Commas followed by a blank are commas, with a blank in front of what is behind them. -/
theorem intercalate_comma_blank (first piece : List Char) (pieces : List (List Char)) :
    first ++ [',', ' '].intercalate (piece :: pieces) =
      [','].intercalate ((first ++ piece) :: pieces.map (' ' :: ·)) := by
  induction pieces generalizing first piece with
  | nil => simp [List.intercalate]
  | cons next rest ih =>
      have hrest : ' ' :: [',', ' '].intercalate (next :: rest) =
          [','].intercalate ((' ' :: next) :: rest.map (' ' :: ·)) := ih [' '] next
      rw [List.map_cons, List.intercalate_cons_cons, List.intercalate_cons_cons, ← hrest]
      simp

theorem markedName_signatureName {parameter : String × Bool} {blank : List Char}
    (h : Naming.IsPlain parameter.1) (hblank : ∀ c ∈ blank, (c == ' ') = true) :
    markedName (blank ++ (Block.signatureName parameter).toList) = (parameter.1, !parameter.2) := by
  have hname : '?' ∉ parameter.1.toList := h.notMem (by decide)
  have hspace : ' ' ∉ parameter.1.toList := h.notMem (by decide)
  have hskip : (Block.signatureName parameter).toList.dropWhile (· == ' ') =
      (Block.signatureName parameter).toList := by
    refine List.dropWhile_eq_self_iff.mpr fun hlength hfirst => ?_
    have hmem : ' ' ∈ (Block.signatureName parameter).toList :=
      beq_iff_eq.mp hfirst ▸ List.getElem_mem hlength
    simpa [hspace] using mem_signatureName.mp hmem
  have htake : (Block.signatureName parameter).toList.takeWhile (· != '?') =
      parameter.1.toList := by
    have hall : ∀ c ∈ parameter.1.toList, (c != '?') = true :=
      fun c hc => bne_iff_ne.mpr (ne_of_mem_of_not_mem hc hname)
    rw [Block.signatureName, String.toList_append, List.takeWhile_append_of_pos hall]
    cases parameter.2 <;> simp
  -- So a question mark can only be the one of an optional parameter.
  have hmark : '?' ∉ blank := fun hmem => absurd (hblank _ hmem) (by decide)
  rw [markedName, List.dropWhile_append_of_pos hblank, hskip, htake, String.ofList_toList]
  simp [mem_signatureName, hmark, hname]

theorem map_markedName_splitOn (hne : parameters ≠ [])
    (h : ∀ parameter ∈ parameters, Naming.IsPlain parameter.1) :
    ((bracedText parameters).toList.splitOn ',').map markedName =
      parameters.map fun parameter => (parameter.1, !parameter.2) := by
  have hcomma : ∀ parameter ∈ parameters, ',' ∉ (Block.signatureName parameter).toList := by
    intro parameter hparameter
    have hname : ',' ∉ parameter.1.toList := (h parameter hparameter).notMem (by decide)
    simp [mem_signatureName, hname]
  cases parameters with
  | nil => exact absurd rfl hne
  | cons first rest =>
      obtain ⟨hfirst, hrest⟩ := List.forall_mem_cons.mp h
      obtain ⟨hcommaFirst, hcommaRest⟩ := List.forall_mem_cons.mp hcomma
      have hpieces : (bracedText (first :: rest)).toList =
          [','].intercalate ((Block.signatureName first).toList ::
            rest.map fun parameter => [' '] ++ (Block.signatureName parameter).toList) := by
        rw [bracedText, String.toList_intercalate, List.map_map, List.map_cons]
        exact (intercalate_comma_blank [] _ _).trans (by simp [Function.comp_def])
      have hfirstRead : markedName (Block.signatureName first).toList = (first.1, !first.2) :=
        markedName_signatureName hfirst (List.forall_mem_nil _)
      -- No piece holds a comma, so the pieces are cut where they were joined.
      rw [hpieces, List.splitOn_intercalate, List.map_cons, List.map_map, List.map_cons, hfirstRead]
      · exact congrArg _ (List.map_congr_left fun parameter hparameter =>
          markedName_signatureName (hrest parameter hparameter) (by simp))
      · refine List.forall_mem_cons.mpr ⟨hcommaFirst, fun piece hpiece => ?_⟩
        obtain ⟨parameter, hparameter, rfl⟩ := List.mem_map.mp hpiece
        simp [hcommaRest parameter hparameter]
      · exact List.cons_ne_nil _ _

theorem markedNames_signature (hname : Naming.IsPlain name)
    (h : ∀ parameter ∈ parameters, Naming.IsPlain parameter.1) :
    markedNames (Bullet.quoted (Block.signatureText name parameters)) =
      parameters.map fun parameter => (parameter.1, !parameter.2) := by
  have hopening : '\x7b' ∉ name.toList := hname.notMem (by decide)
  by_cases hne : parameters = []
  · subst hne
    simp [markedNames, Bullet.quoted, Block.signatureText, hopening]
  · rw [markedNames, toList_signature hne, if_pos (by simp),
      Text.between_append (by simp [hopening]) (notMem_bracedText h (by decide) (by decide)),
      map_markedName_splitOn hne h]

example : markedNames "`send(\x7b, id, id?\x7d)`" = [("", false), ("id", false), ("id", true)] := by
  decide

/-- All parameters together can be left out if there are some and none is required. -/
theorem undefined_isInfix_signature_iff (hname : Naming.IsPlain name)
    (h : ∀ parameter ∈ parameters, Naming.IsPlain parameter.1) :
    (" | undefined").toList <:+: (Bullet.quoted (Block.signatureText name parameters)).toList ↔
      parameters ≠ [] ∧ ∀ parameter ∈ parameters, parameter.2 = false := by
  have hbar : '|' ∉ name.toList := hname.notMem (by decide)
  by_cases hne : parameters = []
  · subst hne
    -- Without parameters there are no braces, and there is nothing to leave out.
    simp only [ne_eq, not_true_eq_false, false_and, iff_false]
    intro hinfix
    have hmem := hinfix.subset (a := '|') (by decide)
    simp [Bullet.quoted, Block.signatureText, hbar] at hmem
  · rw [toList_signature hne]
    cases hrequired : parameters.any Prod.snd with
    | true =>
        simp only [List.any_eq_true] at hrequired
        obtain ⟨parameter, hparameter, hrequired⟩ := hrequired
        -- The bar would have to be in a name or between the braces.
        have hbraced : '|' ∉ (bracedText parameters).toList :=
          notMem_bracedText h (by decide) (by decide)
        refine iff_of_false (fun hinfix => ?_) fun hall => ?_
        · have hmem := hinfix.subset (a := '|') (by decide)
          simp [hbar, hbraced] at hmem
        · rw [hall.2 parameter hparameter] at hrequired
          cases hrequired
    | false =>
        refine iff_of_true ?_ ⟨hne, ?_⟩
        · exact ⟨('\x60' :: name.toList ++ ['(']) ++ '\x7b' ::
            ((bracedText parameters).toList ++ ['\x7d']), [')', '\x60'], by simp⟩
        · simpa using hrequired

end Braces

/-! ## Bullets -/

/-- A bullet as it is printed: its own line, and those of its rules. -/
structure PrintedBullet where
  line : String
  rules : List String

namespace PrintedBullet

/-- The lines of a bullet. -/
def lines (bullet : PrintedBullet) : List String :=
  bullet.line :: bullet.rules

/-- The name that a bullet sets as code. -/
def name (bullet : PrintedBullet) : String :=
  String.ofList (Text.between '\x60' '\x60' bullet.line.toList)

/-- What a bullet says of a parameter first: its name and its type. -/
def opening (service : Service) (member : Member) : String :=
  "- `" ++ member.displayName ++ "` " ++ (service.expand member.value).text

/-- The bullet of a parameter. -/
def ofMember (service : Service) (member : Member) : PrintedBullet :=
  ⟨opening service member ++ (if member.required then "" else " (optional)") ++
      (if member.description.isEmpty then "" else " - " ++ " ".intercalate member.description),
    (member.rules.filterMap Rule.sentence?).map ("  - " ++ ·)⟩

theorem lines_ofMember (service : Service) (member : Member) :
    (ofMember service member).lines = (Section.bullet service member).lines := by
  have hquoted : "- " ++ Bullet.quoted member.displayName ++ " " =
      "- `" ++ member.displayName ++ "` " := by
    simp [← String.toList_inj, Bullet.quoted]
  have hdescribed : Bullet.described (Bullet.joined member.description) =
      if member.description.isEmpty then "" else " - " ++ " ".intercalate member.description := by
    cases member.description <;> rfl
  rw [Section.bullet, Bullet.lines, hquoted, hdescribed]
  rfl

theorem name_ofMember (service : Service) (member : Member) :
    (ofMember service member).name = member.displayName := by
  have hname : '\x60' ∉ member.displayName.toList :=
    (Naming.isPlain_camel member.name).notMem (by decide)
  have hopening : ("- `").toList = ['-', ' ', '\x60'] := by decide
  have hclosing : ("` ").toList = ['\x60', ' '] := by decide
  obtain ⟨rest, hline⟩ : ∃ rest, (ofMember service member).line.toList =
      ['-', ' '] ++ '\x60' :: (member.displayName.toList ++ '\x60' :: rest) :=
    ⟨_, by simp only [ofMember, opening, String.toList_append, hopening, hclosing,
      List.append_assoc, List.cons_append, List.nil_append]; rfl⟩
  rw [name, hline, Text.between_append (by decide) hname, String.ofList_toList]

/-- Behind its name and type a bullet says whether the parameter is optional. -/
theorem optional_isPrefix_ofMember_iff (service : Service) (member : Member) :
    (opening service member ++ " (optional)").toList <+: (ofMember service member).line.toList ↔
      member.required = false := by
  rw [ofMember, String.append_assoc, String.toList_append, String.toList_append,
    List.prefix_append_right_inj, String.toList_append]
  cases member.required with
  | false => exact iff_of_true (List.prefix_append _ _) rfl
  | true =>
      -- A description begins with a hyphen.
      cases member.description with
      | nil => decide
      | cons first rest => simp

end PrintedBullet

/-- The lines are the sentences of these rules, one for each. -/
def AreSentences (rules : List Rule) (lines : List String) : Prop :=
  List.Forall₂ (fun rule line => ∃ sentence, rule.sentence? = some sentence ∧
    line = "  - " ++ sentence) rules lines

/-- A rule that can be shown has a sentence exactly if its identifier is known. -/
theorem Rule.isSome_sentence?_of_obstacle? {rule : Rule} (h : rule.obstacle? = none) :
    rule.sentence?.isSome = (RuleKind.ofId? rule.id).isSome := by
  unfold obstacle? at h
  unfold sentence?
  cases hid : RuleKind.ofId? rule.id with
  | none => rfl
  | some kind =>
      cases hfield : kind.fieldName? with
      | none => simp [hfield]
      | some field =>
          cases hoperand : rule.operand? field with
          | none => simp [hid, hfield, hoperand] at h
          | some operand => simp [hfield, hoperand]

theorem areSentences_filterMap {rules : List Rule} (h : ∀ rule ∈ rules, rule.obstacle? = none) :
    AreSentences (rules.filter fun rule => (RuleKind.ofId? rule.id).isSome)
      ((rules.filterMap Rule.sentence?).map ("  - " ++ ·)) := by
  induction rules with
  | nil => exact .nil
  | cons rule rest ih =>
      obtain ⟨hrule, hrest⟩ := List.forall_mem_cons.mp h
      have hknown := Rule.isSome_sentence?_of_obstacle? hrule
      -- A rule is left out on one side exactly where it is on the other.
      cases hsentence : rule.sentence? with
      | none =>
          rw [hsentence, Option.isSome_none] at hknown
          rw [List.filterMap_cons_none hsentence, List.filter_cons_of_neg (by simp [← hknown])]
          exact ih hrest
      | some sentence =>
          rw [hsentence, Option.isSome_some] at hknown
          rw [List.filterMap_cons_some hsentence, List.filter_cons_of_pos (by simp [← hknown]),
            List.map_cons]
          exact .cons ⟨sentence, hsentence, rfl⟩ (ih hrest)

theorem obstacle?_of_isWritable {service : Service} {interface : Interface} {method : Method}
    (h : Manual.isWritable service interface = true) (hmethod : method ∈ interface.methods) :
    ∀ parameter ∈ method.parameters, ∀ rule ∈ parameter.rules, rule.obstacle? = none := by
  intro parameter hparameter rule hrule
  by_contra hobstacle
  obtain ⟨obstacle, hobstacle⟩ := Option.ne_none_iff_exists'.mp hobstacle
  have hmember : obstacle ∈ Manual.memberObstacles (sortByText Member.name method.parameters) :=
    List.mem_flatMap.mpr ⟨parameter, (sortByText_perm _ _).mem_iff.mpr hparameter,
      List.mem_filterMap.mpr ⟨rule, hrule, hobstacle⟩⟩
  have hobstacles : obstacle ∈ Manual.methodObstacles interface.methods :=
    List.mem_flatMap.mpr ⟨method, (sortByText_perm _ _).mem_iff.mpr hmethod, hmember⟩
  have hempty : Manual.obstacles service interface = [] := List.isEmpty_iff.mp h
  have hmem : obstacle ∈ Manual.obstacles service interface := by
    simp only [Manual.obstacles, List.mem_append]
    exact .inl (.inl (.inr hobstacles))
  rw [hempty] at hmem
  cases hmem

/-! ## The section of a method -/

/-- A method as it is printed, down to its parameters. -/
structure PrintedMethod where
  heading : String
  signature : String
  bullets : List PrintedBullet

namespace PrintedMethod

/-- The lines of a method down to its parameters.  Below the bullets there is an empty line. -/
def lines (printed : PrintedMethod) : List String :=
  [printed.heading, "", printed.signature, ""] ++ printed.bullets.flatMap PrintedBullet.lines ++
    if printed.bullets.isEmpty then [] else [""]

/-- The signature and the bullets show these parameters, in this order.  The names are read off
both. -/
structure Shows (service : Service) (parameters : List Member) (printed : PrintedMethod) :
    Prop where
  names : (markedNames printed.signature).map Prod.fst = printed.bullets.map PrintedBullet.name
  marks : markedNames printed.signature =
    parameters.map fun parameter => (parameter.displayName, !parameter.required)
  undefined : (" | undefined").toList <:+: printed.signature.toList ↔
    parameters ≠ [] ∧ ∀ parameter ∈ parameters, parameter.required = false
  bullets : printed.bullets = parameters.map (PrintedBullet.ofMember service)
  optional : ∀ parameter ∈ parameters,
    (PrintedBullet.opening service parameter ++ " (optional)").toList <+:
      (PrintedBullet.ofMember service parameter).line.toList ↔ parameter.required = false
  rules : ∀ parameter ∈ parameters, (∀ rule ∈ parameter.rules, rule.obstacle? = none) →
    AreSentences (parameter.rules.filter fun rule => (RuleKind.ofId? rule.id).isSome)
      (PrintedBullet.ofMember service parameter).rules

/-- A method with its parameters in this order. -/
def ofMethod (service : Service) (method : Method) (parameters : List Member) : PrintedMethod where
  heading := "### " ++ method.displayName
  signature := Bullet.quoted (Block.signatureText method.displayName
    (parameters.map fun parameter => (parameter.displayName, parameter.required)))
  bullets := parameters.map (PrintedBullet.ofMember service)

theorem shows_ofMethod (service : Service) (method : Method) (parameters : List Member) :
    (ofMethod service method parameters).Shows service parameters := by
  have hplain : ∀ shown ∈ parameters.map fun parameter =>
      (parameter.displayName, parameter.required), Naming.IsPlain shown.1 := by
    intro shown hshown
    obtain ⟨parameter, -, rfl⟩ := List.mem_map.mp hshown
    exact Naming.isPlain_camel parameter.name
  have hname : Naming.IsPlain method.displayName := Naming.isPlain_camel method.name
  have hmarks : markedNames (ofMethod service method parameters).signature =
      parameters.map fun parameter => (parameter.displayName, !parameter.required) := by
    rw [ofMethod, markedNames_signature hname hplain, List.map_map]
    rfl
  refine ⟨?_, hmarks, ?_, rfl,
    fun parameter _ => PrintedBullet.optional_isPrefix_ofMember_iff service parameter,
    fun parameter _ => areSentences_filterMap⟩
  · rw [hmarks, ofMethod, List.map_map, List.map_map]
    exact List.map_congr_left fun parameter _ =>
      (PrintedBullet.name_ofMember service parameter).symm
  · rw [ofMethod, undefined_isInfix_signature_iff hname hplain]
    simp

theorem lines_ofMethod_isPrefix (service : Service) (method : Method) :
    (ofMethod service method (sortByText Member.name method.parameters)).lines <+:
      (Section.ofMethod service method).lines := by
  -- Without parameters neither side has a list, or the empty line below it.
  have hbullets : ∀ parameters : List Member,
      ((Section.bulletList (parameters.map (Section.bullet service))).flatMap
        fun block => block.lines ++ [""]) =
      (parameters.map (PrintedBullet.ofMember service)).flatMap PrintedBullet.lines ++
        if (parameters.map (PrintedBullet.ofMember service)).isEmpty then [] else [""] := by
    intro parameters
    cases parameters with
    | nil => rfl
    | cons first rest =>
        have hlines : ∀ parameter, (PrintedBullet.ofMember service parameter).lines =
            (Section.bullet service parameter).lines := PrintedBullet.lines_ofMember service
        simp [Section.bulletList, Block.lines, List.flatMap_map, hlines]
  rw [lines, Section.lines, ofMethod, Section.ofMethod, List.append_assoc, ← hbullets]
  simp only [List.append_assoc, List.cons_append, List.nil_append, List.flatMap_cons,
    List.flatMap_append, Block.lines, List.cons_prefix_cons, true_and]
  exact List.prefix_append _ _

end PrintedMethod

theorem Document.isInfix_lines {document : Document} {part : Section}
    (hpart : part ∈ document.sections) : part.lines <:+: document.lines := by
  obtain ⟨before, after, hblocks⟩ := isInfix_blocks hpart
  rw [lines, ← hblocks, List.flatMap_append, List.flatMap_append, Section.flatMap_blocks]
  exact ⟨_, _, rfl⟩

/-- **Signatures and bullets agree.**  In the document of an interface every method has a section
that begins with its heading, its signature and its bullets.  Both show the parameters in one stable
order by name, so the names read off the one are the names read off the other, and a name is marked
exactly if its bullet is.  Below each bullet there is one line for each rule with a known
identifier. -/
theorem signature_agrees_with_bullets (service : Service) (banner : Option (List String))
    (interface : Interface) (reach : Reach) (method : Method)
    (hmethod : method ∈ interface.methods) :
    ∃ (ordered : List Member) (printed : PrintedMethod),
      IsStableOrder Member.name method.parameters ordered ∧
      printed.heading = "### " ++ method.displayName ∧
      printed.Shows service ordered ∧
      printed.lines <+: (Section.ofMethod service method).lines ∧
      (Section.ofMethod service method).lines <:+:
        (Document.ofInterface service banner interface reach).lines ∧
      (Manual.isWritable service interface = true →
        ∀ parameter ∈ ordered, ∀ rule ∈ parameter.rules, rule.obstacle? = none) := by
  have hordered := isStableOrder_sortByText Member.name method.parameters
  refine ⟨_, .ofMethod service method _, hordered, rfl, PrintedMethod.shows_ofMethod _ _ _,
    PrintedMethod.lines_ofMethod_isPrefix service method,
    Document.isInfix_lines
      (Document.mem_sections_ofInterface_iff.mpr (.inl ⟨method, hmethod, rfl⟩)),
    fun hwritable => ?_⟩
  exact fun parameter hparameter =>
    obstacle?_of_isWritable hwritable hmethod parameter (hordered.perm.mem_iff.mp hparameter)

/-- A method with two parameters of one name and one that has no display name. -/
def adoptMethod : Method where
  name := "adopt_pet"
  description := []
  parameters :=
    [⟨"id", true, [], [.limit .leastLength 2, .unknown "Colour" []], ⟨.primitive, "string", false⟩⟩,
      ⟨"_", true, ["Why."], [], ⟨.primitive, "string", false⟩⟩,
      ⟨"id", false, [], [.uniqueItems], ⟨.primitive, "string", true⟩⟩]
  returns := none

/-- An interface to adopt pets. -/
def adoptInterface : Interface where
  name := "adoption"
  description := []
  methods := [adoptMethod]

/-- Its signature and its bullets agree, and all its rules of known kinds are shown. -/
theorem adoptMethod_shown : adoptMethod ∈ adoptInterface.methods ∧
    ∃ (ordered : List Member) (printed : PrintedMethod),
      IsStableOrder Member.name adoptMethod.parameters ordered ∧
      printed.Shows petstore ordered ∧
      printed.lines <:+: (petstore.document none adoptInterface).lines ∧
      ∀ parameter ∈ ordered, AreSentences
        (parameter.rules.filter fun rule => (RuleKind.ofId? rule.id).isSome)
        (PrintedBullet.ofMember petstore parameter).rules := by
  have hmethod : adoptMethod ∈ adoptInterface.methods := List.mem_singleton_self _
  have hshown : ∀ parameter ∈ adoptMethod.parameters, ∀ rule ∈ parameter.rules,
      rule.obstacle? = none := by decide +kernel
  obtain ⟨ordered, printed, hordered, -, hshows, hbegins, hlines, -⟩ :=
    signature_agrees_with_bullets petstore none adoptInterface
      (.ofInterface petstore adoptInterface) adoptMethod hmethod
  exact ⟨hmethod, ordered, printed, hordered, hshows, hbegins.isInfix.trans hlines,
    fun parameter hparameter =>
      hshows.rules parameter hparameter (hshown parameter (hordered.perm.mem_iff.mp hparameter))⟩

example : (Section.ofMethod petstore adoptMethod).body.length = 2 ∧
    ((Section.ofMethod petstore adoptMethod).lines[2]?) = some "`adoptPet(\x7b, id, id?\x7d)`" := by
  cbv

end ServiceManual
