import Mathlib
import ServiceManual.Proofs.Expansion

/-!
# What the guard of an expansion does

Unions can be flattened without any guard: a union is replaced by what its members are flattened to,
and all else stays.  Nothing comes out of this where a union leads back to itself, so it is a
relation here (`Service.Flattens`), which mentions no expansions that are going on.

* Where no union leads back to itself the guard is not seen: a reference is expanded to what it is
  flattened to.  Otherwise it is not flattened to anything (`Service.flattens_iff`).  Which of the
  two is the case can be read from the expansion, since the guard leaves unions as leaves
  (`Service.isAcyclicFrom_iff`).
* The guard is enough everywhere: a part of an expansion is the expansion of a reference within
  different unions (`Expansion.PartAt.exists_expandWithin`).  So no union is expanded within its own
  expansion, and the depth is bounded by the number of unions.
-/

namespace ServiceManual

variable {service : Service} {expanding path : List String} {name : String}
  {ref leaf : TypeReference} {expansion part : Expansion}

namespace Service

/-- A reference stands for the name that it holds and, if that is the name of a union, for all that
its members stand for. -/
def StandsFor (service : Service) (ref : TypeReference) (name : String) : Prop :=
  ref.isPrimitive = false ∧ Relation.ReflTransGen service.Offers ref.typeName name

/-- No union that a reference stands for leads back to itself. -/
def IsAcyclicFrom (service : Service) (ref : TypeReference) : Prop :=
  ∀ name, service.StandsFor ref name → ¬Relation.TransGen service.Offers name name

/-- A reference to a primitive kind, or to anything but a union. -/
def IsPlain (service : Service) (ref : TypeReference) : Prop :=
  ref.isPrimitive = true ∨ service.union? ref.typeName = none

instance (service : Service) (ref : TypeReference) : Decidable (service.IsPlain ref) :=
  inferInstanceAs (Decidable (_ ∨ _))

/-- Flattening without a guard. -/
inductive Flattens (service : Service) : TypeReference → Expansion → Prop
  | plain {ref : TypeReference} (hplain : service.IsPlain ref) : Flattens service ref (.leaf ref)
  | union {ref : TypeReference} {union : UnionType} {flat : TypeReference → Expansion}
      (hcomplex : ref.isPrimitive = false) (hunion : service.union? ref.typeName = some union)
      (hmembers : ∀ member ∈ union.members, Flattens service member (flat member)) :
      Flattens service ref (.alternatives ref.typeName ref.isArray (union.members.map flat))

theorem not_isPlain_of_union? {union : UnionType} (hcomplex : ref.isPrimitive = false)
    (hunion : service.union? ref.typeName = some union) : ¬service.IsPlain ref := by
  rintro (hprimitive | hnone)
  · rw [hcomplex] at hprimitive
    cases hprimitive
  · rw [hunion] at hnone
    cases hnone

theorem exists_union_of_not_isPlain (h : ¬service.IsPlain ref) :
    ref.isPrimitive = false ∧ ∃ union, service.union? ref.typeName = some union := by
  rw [IsPlain, not_or, Bool.not_eq_true] at h
  exact ⟨h.1, Option.ne_none_iff_exists'.mp h.2⟩

theorem StandsFor.of_member {union : UnionType} {member : TypeReference}
    (hcomplex : ref.isPrimitive = false) (hunion : service.union? ref.typeName = some union)
    (hmember : member ∈ union.members) (h : service.StandsFor member name) :
    service.StandsFor ref name :=
  ⟨hcomplex, h.2.head (.member hunion hmember h.1)⟩

theorem IsAcyclicFrom.of_mem_members {union : UnionType} {member : TypeReference}
    (hacyclic : service.IsAcyclicFrom ref) (hcomplex : ref.isPrimitive = false)
    (hunion : service.union? ref.typeName = some union) (hmember : member ∈ union.members) :
    service.IsAcyclicFrom member :=
  fun name hname => hacyclic name (hname.of_member hcomplex hunion hmember)

/-! ## Flattening -/

theorem Flattens.unique {other : Expansion} (h : service.Flattens ref expansion)
    (hother : service.Flattens ref other) : expansion = other := by
  induction h generalizing other with
  | plain hplain =>
      cases hother with
      | plain => rfl
      | union hcomplex hunion => exact absurd hplain (not_isPlain_of_union? hcomplex hunion)
  | union hcomplex hunion hmembers ih =>
      cases hother with
      | plain hplain => exact absurd hplain (not_isPlain_of_union? hcomplex hunion)
      | union _ hsame hothers =>
          obtain rfl := Option.some.inj (hunion.symm.trans hsame)
          refine congrArg _ (List.map_congr_left fun member hmember => ?_)
          exact ih member hmember (hothers member hmember)

/-- What can be flattened does not lead back to itself: going round a cycle would be flattening the
same union within itself. -/
theorem Flattens.isAcyclicFrom (h : service.Flattens ref expansion) :
    service.IsAcyclicFrom ref := by
  induction h with
  | @plain ref hplain =>
      rintro name ⟨hcomplex, hpath⟩ hcycle
      -- A name that stands for no union leads nowhere.
      have hnone : ∀ next, ¬service.Offers ref.typeName next := by
        rintro _ ⟨hunion, -, -⟩
        exact not_isPlain_of_union? hcomplex hunion hplain
      rcases Relation.ReflTransGen.cases_head hpath with rfl | ⟨next, hoffers, -⟩
      · obtain ⟨next, hoffers, -⟩ := Relation.TransGen.head'_iff.mp hcycle
        exact hnone next hoffers
      · exact hnone next hoffers
  | @union ref union flat hcomplex hunion hmembers ih =>
      have hmember : ∀ next, service.Offers ref.typeName next →
          ∀ name, Relation.ReflTransGen service.Offers next name →
            ¬Relation.TransGen service.Offers name name := by
        rintro _ ⟨hfound, hmember, hmemberComplex⟩ name hpath
        obtain rfl := Option.some.inj (hunion.symm.trans hfound)
        exact ih _ hmember name ⟨hmemberComplex, hpath⟩
      rintro name ⟨-, hpath⟩ hcycle
      rcases Relation.ReflTransGen.cases_head hpath with rfl | ⟨next, hoffers, hrest⟩
      · -- The cycle leads through a member, which is then on it as well.
        obtain ⟨next, hoffers, hback⟩ := Relation.TransGen.head'_iff.mp hcycle
        exact hmember next hoffers next .refl (Relation.TransGen.tail' hback hoffers)
      · exact hmember next hoffers name hrest hcycle

/-- An expansion that leaves no union as a leaf is what comes out without the guard. -/
theorem flattens_of_isPlain_leaves
    (h : ∀ leaf ∈ (service.expandWithin expanding ref).leaves, service.IsPlain leaf) :
    service.Flattens ref (service.expandWithin expanding ref) := by
  fun_induction Service.expandWithin service expanding ref with
  | case1 expanding ref hprimitive => exact .plain (.inl hprimitive)
  | case2 expanding ref hprimitive hguard => exact .plain (h ref List.mem_cons_self)
  | case3 expanding ref hprimitive hguard hname => exact .plain (.inr hname)
  | case4 expanding ref hprimitive hguard union hname hless ih =>
      refine .union (by simpa using hprimitive) hname fun member hmember => ih member ?_
      intro leaf hleaf
      apply h
      rw [Expansion.leaves, Expansion.leavesOf_eq_flatMap]
      exact List.mem_flatMap.mpr ⟨_, List.mem_map_of_mem hmember, hleaf⟩

end Service

namespace Expansion

/-- On the way to a leaf each union leads to all that comes after it. -/
theorem LeafAt.standsFor_of_mem_path
    (hleaf : (service.expandWithin expanding ref).LeafAt path leaf)
    (hcomplex : leaf.isPrimitive = false) (hname : name ∈ path) :
    service.StandsFor ref name ∧ Relation.TransGen service.Offers name leaf.typeName := by
  fun_induction Service.expandWithin service expanding ref generalizing path with
  | case1 expanding ref hprimitive =>
      cases hleaf
      cases hname
  | case2 expanding ref hprimitive hguard =>
      cases hleaf
      cases hname
  | case3 expanding ref hprimitive hguard hunion =>
      cases hleaf
      cases hname
  | case4 expanding ref hprimitive hguard union hunion hless ih =>
      have hrefComplex : ref.isPrimitive = false := by simpa using hprimitive
      cases hleaf with
      | inside hmember hinside =>
          obtain ⟨member, hoffered, rfl⟩ := List.mem_map.mp hmember
          -- The name is that of this union, or of one within the member.
          rcases List.mem_cons.mp hname with rfl | hname
          · obtain ⟨hmemberComplex, hpath⟩ := hinside.reached hcomplex
            have hoffers : service.Offers ref.typeName member.typeName :=
              .member hunion hoffered hmemberComplex
            exact ⟨⟨hrefComplex, .refl⟩, Relation.TransGen.head' hoffers hpath⟩
          · obtain ⟨hstands, hpath⟩ := ih member hinside hname
            exact ⟨hstands.of_member hrefComplex hunion hoffered, hpath⟩

end Expansion

namespace Service

/-- The guard has stopped nowhere if and only if no union leads back to itself. -/
theorem isAcyclicFrom_iff :
    service.IsAcyclicFrom ref ↔ ∀ leaf ∈ (service.expand ref).leaves, service.IsPlain leaf := by
  constructor
  · intro hacyclic leaf hmem
    by_contra hnot
    obtain ⟨hcomplex, union, hunion⟩ := exists_union_of_not_isPlain hnot
    obtain ⟨path, hleaf⟩ := Expansion.mem_leaves_iff.mp hmem
    have hpath : leaf.typeName ∈ path := hleaf.mem_path_of_union? hcomplex hunion
    obtain ⟨hstands, hcycle⟩ := hleaf.standsFor_of_mem_path hcomplex hpath
    exact hacyclic _ hstands hcycle
  · intro hplain
    exact (flattens_of_isPlain_leaves hplain).isAcyclicFrom

instance (service : Service) (ref : TypeReference) : Decidable (service.IsAcyclicFrom ref) :=
  decidable_of_iff _ isAcyclicFrom_iff.symm

/-- A reference is flattened to its expansion, or to nothing. -/
theorem flattens_iff :
    service.Flattens ref expansion ↔
      service.IsAcyclicFrom ref ∧ expansion = service.expand ref := by
  have hexpand : service.IsAcyclicFrom ref → service.Flattens ref (service.expand ref) :=
    fun hacyclic => flattens_of_isPlain_leaves (isAcyclicFrom_iff.mp hacyclic)
  constructor
  · intro h
    exact ⟨h.isAcyclicFrom, h.unique (hexpand h.isAcyclicFrom)⟩
  · rintro ⟨hacyclic, rfl⟩
    exact hexpand hacyclic

theorem expand_eq_alternatives {union : UnionType} (hacyclic : service.IsAcyclicFrom ref)
    (hcomplex : ref.isPrimitive = false) (hunion : service.union? ref.typeName = some union) :
    service.expand ref =
      .alternatives ref.typeName ref.isArray (union.members.map service.expand) := by
  have hmembers : ∀ member ∈ union.members, service.Flattens member (service.expand member) :=
    fun member hmember =>
      flattens_iff.mpr ⟨hacyclic.of_mem_members hcomplex hunion hmember, rfl⟩
  exact (flattens_iff.mp (.union hcomplex hunion hmembers)).2.symm

/-! ## The parts of an expansion -/

theorem exists_union_of_expandWithin {isArray : Bool} {members : List Expansion}
    (h : service.expandWithin expanding ref = .alternatives name isArray members) :
    ref.isPrimitive = false ∧ ref.typeName = name ∧ name ∉ expanding ∧
      ∃ union, service.union? name = some union ∧
        members = union.members.map (service.expandWithin (name :: expanding)) := by
  by_cases hstop : ref.isPrimitive = true ∨ ref.typeName ∈ expanding ∨
      service.union? ref.typeName = none
  · rw [expandWithin_eq_leaf hstop] at h
    cases h
  · simp only [not_or, Bool.not_eq_true] at hstop
    obtain ⟨hcomplex, hnew, hsome⟩ := hstop
    obtain ⟨union, hunion⟩ := Option.ne_none_iff_exists'.mp hsome
    rw [expandWithin_eq_alternatives hcomplex hnew hunion] at h
    injection h with hname harray hmembers
    subst hname
    exact ⟨hcomplex, rfl, hnew, union, hunion, hmembers.symm⟩

end Service

namespace Expansion

/-- An expansion is a part of another one, within the expansions of these unions, the outermost
first. -/
inductive PartAt : Expansion → List String → Expansion → Prop
  | whole (expansion : Expansion) : PartAt expansion [] expansion
  | inside {union : String} {isArray : Bool} {members : List Expansion} {member : Expansion}
      {path : List String} {part : Expansion} (hmember : member ∈ members)
      (hpart : PartAt member path part) :
      PartAt (.alternatives union isArray members) (union :: path) part

/-- The parts of the expansion of a reference are again expansions of references.  The guard keeps
each union on the way to them once. -/
theorem PartAt.exists_expandWithin (hguard : expanding.Nodup)
    (hpart : (service.expandWithin expanding ref).PartAt path part) :
    ∃ member, part = service.expandWithin (path.reverse ++ expanding) member ∧
      (path.reverse ++ expanding).Nodup ∧
      ∀ name, service.StandsFor member name → service.StandsFor ref name := by
  generalize hwhole : service.expandWithin expanding ref = whole at hpart
  induction hpart generalizing expanding ref with
  | whole => exact ⟨ref, hwhole.symm, hguard, fun _ => id⟩
  | inside hmember hpart ih =>
      obtain ⟨hcomplex, rfl, hnew, union, hunion, rfl⟩ :=
        Service.exists_union_of_expandWithin hwhole
      obtain ⟨child, hchild, rfl⟩ := List.mem_map.mp hmember
      obtain ⟨member, hsame, hnodup, hstands⟩ := ih (List.nodup_cons.mpr ⟨hnew, hguard⟩) rfl
      refine ⟨member, ?_, ?_, fun name hname => ?_⟩
      · simpa using hsame
      · simpa using hnodup
      · exact (hstands name hname).of_member hcomplex hunion hchild

theorem PartAt.nodup_path {isArray : Bool} {members : List Expansion}
    (hpart : (service.expand ref).PartAt path (.alternatives name isArray members)) :
    (path ++ [name]).Nodup := by
  obtain ⟨member, hsame, hnodup, -⟩ := hpart.exists_expandWithin List.nodup_nil
  obtain ⟨-, -, hnew, -⟩ := Service.exists_union_of_expandWithin hsame.symm
  rw [List.append_nil] at hnodup hnew
  have hreverse : (name :: path.reverse).Nodup := List.nodup_cons.mpr ⟨hnew, hnodup⟩
  rw [← List.nodup_reverse]
  simpa using hreverse

/-! ## Depth -/

mutual

/-- How deep expansions are within each other, the innermost references included. -/
def depth : Expansion → Nat
  | .leaf _ => 1
  | .alternatives _ _ members => depthOf members + 1

/-- The largest depth of several expansions. -/
def depthOf : List Expansion → Nat
  | [] => 0
  | expansion :: rest => max expansion.depth (depthOf rest)

end

theorem depthOf_le_iff {members : List Expansion} {bound : Nat} :
    depthOf members ≤ bound ↔ ∀ member ∈ members, member.depth ≤ bound := by
  induction members with
  | nil => simp [depthOf]
  | cons head rest ih => rw [depthOf, List.forall_mem_cons, Nat.max_le, ih]

/-- Each union that is expanded leaves fewer to be expanded within it. -/
theorem depth_expandWithin_le :
    (service.expandWithin expanding ref).depth ≤
      unfollowed service.unions.names expanding + 1 := by
  fun_induction Service.expandWithin service expanding ref with
  | case1 expanding ref hprimitive => simp [depth]
  | case2 expanding ref hprimitive hguard => simp [depth]
  | case3 expanding ref hprimitive hguard hunion => simp [depth]
  | case4 expanding ref hprimitive hguard union hunion hless ih =>
      rw [depth, Nat.add_le_add_iff_right, depthOf_le_iff]
      intro expansion hexpansion
      obtain ⟨member, -, rfl⟩ := List.mem_map.mp hexpansion
      have hmember := ih member
      omega

theorem depth_expand_le : (service.expand ref).depth ≤ service.unions.length + 1 := by
  have hall : unfollowed service.unions.names [] ≤ service.unions.length := by
    calc unfollowed service.unions.names [] ≤ service.unions.names.length :=
          List.countP_le_length
      _ = service.unions.length := List.length_map _
  have hdepth : (service.expandWithin [] ref).depth ≤ unfollowed service.unions.names [] + 1 :=
    depth_expandWithin_le
  rw [Service.expand]
  omega

end Expansion

/-- **The guard is not seen where it is not needed, and is enough where it is.**  If no union that a
reference stands for leads back to itself, the reference is flattened without a guard to its
expansion and to nothing else; a union then reads as its members do, joined by bars, and an array of
it as that in brackets.  In any case no union is expanded within its own expansion, and expansions
are at most as deep within each other as there are unions, and one more. -/
theorem Service.expand_flattens (service : Service) (ref : TypeReference) :
    (∀ expansion, service.Flattens ref expansion ↔
        service.IsAcyclicFrom ref ∧ expansion = service.expand ref) ∧
      (service.IsAcyclicFrom ref → ref.isPrimitive = false → ∀ union,
        service.union? ref.typeName = some union →
          (service.expand ref).text =
            let joined := " | ".intercalate
              (union.members.map fun member => (service.expand member).text)
            if ref.isArray then "(" ++ joined ++ ")[]" else joined) ∧
      (∀ path name isArray members,
        (service.expand ref).PartAt path (.alternatives name isArray members) →
          (path ++ [name]).Nodup) ∧
      (service.expand ref).depth ≤ service.unions.length + 1 := by
  refine ⟨fun expansion => flattens_iff, fun hacyclic hcomplex union hunion => ?_,
    fun path name isArray members hpart => hpart.nodup_path, Expansion.depth_expand_le⟩
  rw [expand_eq_alternatives hacyclic hcomplex hunion, Expansion.text, Expansion.texts_eq_map,
    List.map_map]
  rfl

/-- Two unions have a third one among their members, and a type hides a union that would lead back
to all of them. -/
def menagerie : Service where
  title := "Menagerie"
  majorVersion := 1
  sourcePath := none
  interfaces := []
  types := [("Cat", ⟨"Cat", [], [], none⟩)]
  enums := []
  unions :=
    [("Animal", ⟨"Animal", [], [⟨.complex, "Pet", false⟩, ⟨.complex, "Stray", true⟩]⟩),
      ("Pet", ⟨"Pet", [], [⟨.complex, "Mammal", false⟩, ⟨.primitive, "string", false⟩]⟩),
      ("Stray", ⟨"Stray", [], [⟨.complex, "Mammal", false⟩]⟩),
      ("Mammal", ⟨"Mammal", [], [⟨.complex, "Cat", false⟩, ⟨.complex, "Dog", true⟩]⟩),
      ("Cat", ⟨"Cat", [], [⟨.complex, "Animal", false⟩]⟩)]

/-- The third union is expanded twice, once within each of the two, as it would be without the
guard. -/
theorem menagerie_animals_flatten :
    menagerie.IsAcyclicFrom ⟨.complex, "Animal", true⟩ ∧
      menagerie.Flattens ⟨.complex, "Animal", true⟩
        (menagerie.expand ⟨.complex, "Animal", true⟩) ∧
      (menagerie.expand ⟨.complex, "Animal", true⟩).text =
        "(" ++ " | ".intercalate [(menagerie.expand ⟨.complex, "Pet", false⟩).text,
          (menagerie.expand ⟨.complex, "Stray", true⟩).text] ++ ")[]" ∧
      (menagerie.expand ⟨.complex, "Animal", true⟩).PartAt ["Animal", "Pet"]
        (.alternatives "Mammal" false
          [.leaf ⟨.complex, "Cat", false⟩, .leaf ⟨.complex, "Dog", true⟩]) ∧
      (["Animal", "Pet"] ++ ["Mammal"]).Nodup ∧
      (menagerie.expand ⟨.complex, "Animal", true⟩).depth ≤ 6 := by
  have hexpand : menagerie.expand ⟨.complex, "Animal", true⟩ =
      .alternatives "Animal" true
        [.alternatives "Pet" false
          [.alternatives "Mammal" false
            [.leaf ⟨.complex, "Cat", false⟩, .leaf ⟨.complex, "Dog", true⟩],
          .leaf ⟨.primitive, "string", false⟩],
        .alternatives "Stray" true
          [.alternatives "Mammal" false
            [.leaf ⟨.complex, "Cat", false⟩, .leaf ⟨.complex, "Dog", true⟩]]] := by cbv
  -- That no union leads back to itself is read off the leaves.
  have hacyclic : menagerie.IsAcyclicFrom ⟨.complex, "Animal", true⟩ := by
    rw [Service.isAcyclicFrom_iff, hexpand]
    decide
  have hpart : (menagerie.expand ⟨.complex, "Animal", true⟩).PartAt ["Animal", "Pet"]
      (.alternatives "Mammal" false
        [.leaf ⟨.complex, "Cat", false⟩, .leaf ⟨.complex, "Dog", true⟩]) := by
    rw [hexpand]
    exact .inside List.mem_cons_self (.inside List.mem_cons_self (.whole _))
  obtain ⟨hflattens, htext, hnodup, hdepth⟩ :=
    Service.expand_flattens menagerie ⟨.complex, "Animal", true⟩
  exact ⟨hacyclic, (hflattens _).mpr ⟨hacyclic, rfl⟩, htext hacyclic rfl _ rfl, hpart,
    hnodup _ _ _ _ hpart, hdepth⟩

end ServiceManual
