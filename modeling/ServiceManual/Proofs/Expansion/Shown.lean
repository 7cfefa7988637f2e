import Mathlib
import ServiceManual.Loading
import ServiceManual.Proofs.Expansion.Flattening

/-!
# When a reference is shown

A reference is printed as the links that its expansion has as leaves, with bars between alternatives
and brackets around those of an array.  So something is missing in print exactly where there are no
alternatives: if a union without members is expanded, nothing is printed for it
(`Expansion.isShown_iff`).

Whether this happens can be told without expanding: a union that a reference stands for is expanded
somewhere, even though the guard stops some ways to it (`Service.exists_partAt_of_standsFor`).  On a
way from the reference to the union that goes through no name twice the guard stops nothing, and
every way can be shortened to one of this kind, at each step by going on from the last visit to the
name (`reflTransGen_avoiding_cases`).
-/

namespace ServiceManual

variable {service : Service} {expanding path : List String} {name : String}
  {ref : TypeReference} {expansion part inner : Expansion}

namespace Expansion

/-- What bars are put between, in the text of an expansion. -/
def pieces : Expansion → List String
  | .leaf ref => [ref.link]
  | .alternatives _ _ members => texts members

/-- Nothing is missing in print: there is the label of a leaf, and wherever pieces are joined, none
of them is empty and there are some. -/
structure IsShown (expansion : Expansion) : Prop where
  label : ∃ leaf ∈ expansion.leaves, leaf.label.toList <:+: expansion.text.toList
  pieces : ∀ path part, expansion.PartAt path part →
    (∀ piece ∈ part.pieces, piece ≠ "") ∧ " | ".intercalate part.pieces ≠ ""

/-! ## Labels in the text of an expansion -/

theorem isInfix_intercalate {separator text : String} {texts : List String} (h : text ∈ texts) :
    text.toList <:+: (separator.intercalate texts).toList := by
  induction texts with
  | nil => cases h
  | cons head rest ih =>
      by_cases hrest : rest = []
      · obtain rfl : text = head := by simpa [hrest] using h
        simp only [hrest, String.intercalate_singleton, List.infix_refl]
      · rw [String.intercalate_cons_of_ne_nil hrest, String.toList_append, String.toList_append]
        rcases List.mem_cons.mp h with rfl | h
        · rw [List.append_assoc]
          exact (List.prefix_append _ _).isInfix
        · exact (ih h).trans (List.suffix_append _ _).isInfix

theorem isInfix_joinAlternatives {isArray : Bool} {text : String} {texts : List String}
    (h : text ∈ texts) : text.toList <:+: (joinAlternatives isArray texts).toList := by
  have hjoined : text.toList <:+: (" | ".intercalate texts).toList := isInfix_intercalate h
  cases isArray with
  | false => exact hjoined
  | true =>
      refine hjoined.trans ⟨"(".toList, ")[]".toList, ?_⟩
      simp [joinAlternatives]

theorem label_isInfix_link (ref : TypeReference) : ref.label.toList <:+: ref.link.toList := by
  rw [TypeReference.link]
  cases ref.target? with
  | none => exact List.infix_refl _
  | some target => exact ⟨"[".toList, ("](" ++ target ++ ")").toList, by simp⟩

theorem ne_empty_of_label_isInfix {text : String} (h : ref.label.toList <:+: text.toList) :
    text ≠ "" := by
  rintro rfl
  have hnil : ref.label.toList = [] := List.infix_nil.mp h
  simp [TypeReference.label] at hnil

/-! ## Parts without alternatives -/

theorem PartAt.trans {further : List String} (hpart : expansion.PartAt path part)
    (hinner : part.PartAt further inner) : expansion.PartAt (path ++ further) inner := by
  induction hpart with
  | whole => exact hinner
  | inside hmember hpart ih => exact .inside hmember (ih hinner)

/-- Every union that has been expanded has given alternatives. -/
def IsPopulated (expansion : Expansion) : Prop :=
  ∀ path name isArray members,
    expansion.PartAt path (.alternatives name isArray members) → members ≠ []

theorem IsPopulated.of_partAt (h : expansion.IsPopulated) (hpart : expansion.PartAt path part) :
    part.IsPopulated :=
  fun _ name isArray members hinner => h _ name isArray members (hpart.trans hinner)

theorem IsPopulated.of_mem {union : String} {isArray : Bool} {members : List Expansion}
    {member : Expansion} (h : (alternatives union isArray members).IsPopulated)
    (hmember : member ∈ members) : member.IsPopulated :=
  h.of_partAt (.inside hmember (.whole member))

/-- The first alternatives lead to a leaf, and its label is printed. -/
theorem IsPopulated.exists_label_isInfix {expansion : Expansion} (h : expansion.IsPopulated) :
    ∃ leaf ∈ expansion.leaves, leaf.label.toList <:+: expansion.text.toList := by
  cases expansion with
  | leaf ref => exact ⟨ref, List.mem_cons_self, label_isInfix_link ref⟩
  | alternatives union isArray members =>
      obtain ⟨member, rest, rfl⟩ := List.exists_cons_of_ne_nil (h [] _ _ _ (.whole _))
      obtain ⟨leaf, hleaf, hlabel⟩ := (h.of_mem List.mem_cons_self).exists_label_isInfix
      refine ⟨leaf, ?_, ?_⟩
      · rw [leaves, leavesOf]
        exact List.mem_append_left _ hleaf
      · rw [text, texts]
        exact hlabel.trans (isInfix_joinAlternatives List.mem_cons_self)
termination_by sizeOf expansion

theorem IsPopulated.text_ne_empty (h : expansion.IsPopulated) : expansion.text ≠ "" := by
  obtain ⟨leaf, -, hlabel⟩ := h.exists_label_isInfix
  exact ne_empty_of_label_isInfix hlabel

theorem IsPopulated.pieces_ne_empty (h : expansion.IsPopulated) :
    (∀ piece ∈ expansion.pieces, piece ≠ "") ∧ " | ".intercalate expansion.pieces ≠ "" := by
  cases expansion with
  | leaf ref =>
      have hlink : ref.link ≠ "" := h.text_ne_empty
      exact ⟨by simpa [pieces] using hlink, by simpa [pieces] using hlink⟩
  | alternatives union isArray members =>
      have htexts : ∀ piece ∈ texts members, piece ≠ "" := by
        intro piece hpiece
        rw [texts_eq_map] at hpiece
        obtain ⟨member, hmember, rfl⟩ := List.mem_map.mp hpiece
        exact (h.of_mem hmember).text_ne_empty
      refine ⟨htexts, fun hempty => ?_⟩
      -- There is a first alternative, and its text is within what is joined.
      obtain ⟨member, rest, rfl⟩ := List.exists_cons_of_ne_nil (h [] _ _ _ (.whole _))
      have hfirst : member.text ∈ texts (member :: rest) := List.mem_cons_self
      have hinfix : member.text.toList <:+:
          (" | ".intercalate (texts (member :: rest))).toList := isInfix_intercalate hfirst
      rw [pieces] at hempty
      rw [hempty] at hinfix
      exact htexts _ hfirst (String.toList_eq_nil_iff.mp (List.infix_nil.mp hinfix))

/-- Nothing is missing in print exactly where there are alternatives everywhere. -/
theorem isShown_iff : expansion.IsShown ↔ expansion.IsPopulated := by
  constructor
  · rintro ⟨-, hpieces⟩ path name isArray members hpart rfl
    exact (hpieces path _ hpart).2 String.intercalate_nil
  · intro h
    exact ⟨h.exists_label_isInfix, fun _ _ hpart => (h.of_partAt hpart).pieces_ne_empty⟩

end Expansion

/-! ## Unions that a reference stands for -/

/-- A way that avoids some names either ends where it begins, or can be shortened to one that avoids
its beginning too, from the second name on. -/
theorem reflTransGen_avoiding_cases {α : Type} {r : α → α → Prop} {seen : List α} {a b : α}
    (h : Relation.ReflTransGen (fun x y => r x y ∧ y ∉ seen) a b) :
    b = a ∨ ∃ c, r a c ∧ c ∉ a :: seen ∧
      Relation.ReflTransGen (fun x y => r x y ∧ y ∉ a :: seen) c b := by
  induction h with
  | refl => exact .inl rfl
  | @tail b d hpath hstep ih =>
      by_cases hback : d = a
      · exact .inl hback
      · have hnew : d ∉ a :: seen := by simp [hback, hstep.2]
        rcases ih with rfl | ⟨c, hfirst, hc, hrest⟩
        · exact .inr ⟨d, hstep.1, hnew, .refl⟩
        · exact .inr ⟨c, hfirst, hc, hrest.tail ⟨hstep.1, hnew⟩⟩

namespace Service

theorem exists_partAt_of_avoiding {union : UnionType} (hcomplex : ref.isPrimitive = false)
    (hnew : ref.typeName ∉ expanding)
    (hpath : Relation.ReflTransGen (fun name next => service.Offers name next ∧ next ∉ expanding)
      ref.typeName name) (hunion : service.union? name = some union) :
    ∃ path isArray within, (service.expandWithin expanding ref).PartAt path
      (.alternatives name isArray (union.members.map (service.expandWithin within))) := by
  fun_induction Service.expandWithin service expanding ref with
  | case1 expanding ref hprimitive =>
      rw [hcomplex] at hprimitive
      cases hprimitive
  | case2 expanding ref hprimitive hguard => exact absurd (by simpa using hguard) hnew
  | case3 expanding ref hprimitive hguard hnone =>
      rcases Relation.ReflTransGen.cases_head hpath with rfl | ⟨_, ⟨hoffers, -⟩, -⟩
      · rw [hunion] at hnone
        cases hnone
      · obtain ⟨hfound, -, -⟩ := hoffers
        rw [hfound] at hnone
        cases hnone
  | case4 expanding ref hprimitive hguard found hfound hless ih =>
      -- The union is guarded from here on, so the way must not come back to it.
      rcases reflTransGen_avoiding_cases hpath with rfl | ⟨_, hoffers, hnext, hrest⟩
      · obtain rfl := Option.some.inj (hunion.symm.trans hfound)
        exact ⟨[], ref.isArray, _, .whole _⟩
      · obtain ⟨hsame, hmember, hmemberComplex⟩ := hoffers
        obtain rfl := Option.some.inj (hsame.symm.trans hfound)
        obtain ⟨path, isArray, within, hpart⟩ := ih _ hmemberComplex hnext hrest
        exact ⟨_, isArray, within, .inside (List.mem_map_of_mem hmember) hpart⟩

theorem exists_partAt_of_standsFor {union : UnionType} (hstands : service.StandsFor ref name)
    (hunion : service.union? name = some union) :
    ∃ path isArray within, (service.expand ref).PartAt path
      (.alternatives name isArray (union.members.map (service.expandWithin within))) := by
  refine exists_partAt_of_avoiding hstands.1 List.not_mem_nil ?_ hunion
  have hmono : service.Offers ≤ fun name next => service.Offers name next ∧ next ∉ [] :=
    fun _ _ hoffers => ⟨hoffers, List.not_mem_nil⟩
  exact Relation.ReflTransGen.mono hmono _ _ hstands.2

/-- **What is shown of a reference.**  There is a label in print, and no alternative is empty and no
pair of brackets, if and only if every union that the reference stands for has members. -/
theorem isShown_expand_iff (service : Service) (ref : TypeReference) :
    (service.expand ref).IsShown ↔ ∀ name, service.StandsFor ref name → ∀ union,
      service.union? name = some union → union.members ≠ [] := by
  rw [Expansion.isShown_iff]
  constructor
  · intro h name hstands union hunion
    obtain ⟨path, isArray, within, hpart⟩ := exists_partAt_of_standsFor hstands hunion
    have hmembers := h path name isArray _ hpart
    simpa using hmembers
  · intro h path name isArray members hpart
    obtain ⟨member, hsame, -, hstands⟩ := hpart.exists_expandWithin List.nodup_nil
    obtain ⟨hcomplex, rfl, -, union, hunion, rfl⟩ := exists_union_of_expandWithin hsame.symm
    have hmembers := h _ (hstands _ ⟨hcomplex, .refl⟩) union hunion
    simpa using hmembers

end Service

/-- A description of a union without members, and of one with it among its members. -/
def hollowDescription : Raw :=
  .ofFields [("title", .text "Hollow"),
    ("unions", .ofFields [("Nothing", .ofFields []),
      ("Answer", .ofFields [("members", .list [.ofFields [("type_name", .text "Nothing")],
        .ofFields [("type_name", .text "Pet")]])])])]

/-- What is described by that. -/
def hollowService : Service where
  title := "Hollow"
  majorVersion := 1
  sourcePath := none
  interfaces := []
  types := []
  enums := []
  unions :=
    [("Nothing", ⟨"Nothing", [], []⟩),
      ("Answer", ⟨"Answer", [], [⟨.complex, "Nothing", false⟩, ⟨.complex, "Pet", false⟩]⟩)]

/-- Not every reference is shown: the type of a return value can be missing, and so can an
alternative and what stands in the brackets of an array. -/
theorem hollowService_not_isShown :
    Service.ofRaw none hollowDescription = .ok hollowService ∧
      (Block.returns (hollowService.expand ⟨.complex, "Nothing", false⟩)).lines = ["Returns: "] ∧
      (hollowService.expand ⟨.complex, "Nothing", true⟩).text = "()[]" ∧
      (hollowService.expand ⟨.complex, "Answer", false⟩).text =
        " | [&lt;Pet&gt;](#pet)" ∧
      ¬ ∀ description service, Service.ofRaw none description = .ok service →
        ∀ ref, (service.expand ref).IsShown := by
  have hread : Service.ofRaw none hollowDescription = .ok hollowService := rfl
  refine ⟨hread, by cbv, by cbv, by cbv, fun hall => ?_⟩
  have hshown := hall _ _ hread ⟨.complex, "Nothing", false⟩
  have hjoined := (hshown.pieces [] _ (.whole _)).2
  exact hjoined (by cbv)

end ServiceManual
