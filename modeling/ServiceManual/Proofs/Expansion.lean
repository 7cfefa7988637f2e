import ServiceManual.Expansion
import ServiceManual.Proofs.Reachability

/-!
# What an expansion is made of

Expanding a reference follows the members of unions and nothing else, so each leaf of the result
is reached from the reference through unions (`Expansion.LeafAt.reached`).  A leaf that names a
union is one that the guard has stopped: it lies within the expansion of that union
(`Expansion.LeafAt.mem_path_of_union?`).

For the same reason the result depends only on what the names reached through unions stand for
(`Service.expand_congr`).
-/

namespace ServiceManual

/-- A leaf occurs in an expansion, within the expansions of these unions, the outermost first. -/
inductive Expansion.LeafAt : Expansion → List String → TypeReference → Prop
  | leaf (ref : TypeReference) : LeafAt (.leaf ref) [] ref
  | inside {union : String} {isArray : Bool} {members : List Expansion} {member : Expansion}
      {path : List String} {ref : TypeReference} (hmember : member ∈ members)
      (hleaf : LeafAt member path ref) : LeafAt (.alternatives union isArray members)
        (union :: path) ref

variable {service other : Service} {expanding path : List String} {ref leaf : TypeReference}

/-! ## One level of an expansion -/

theorem Service.expandWithin_eq_leaf (hstop : ref.isPrimitive = true ∨ ref.typeName ∈ expanding ∨
    service.union? ref.typeName = none) : service.expandWithin expanding ref = .leaf ref := by
  rw [expandWithin]
  rcases hstop with hprimitive | hguard | hnone
  · rw [if_pos hprimitive]
  · rw [dif_pos (List.contains_iff_mem.mpr hguard), ite_self]
  · split
    · rfl
    · split
      · rfl
      · split
        · rfl
        · rename_i union hunion
          exact absurd (hnone.symm.trans hunion) (by simp)

theorem Service.expandWithin_eq_alternatives {union : UnionType}
    (hcomplex : ref.isPrimitive = false) (hnew : ref.typeName ∉ expanding)
    (hunion : service.union? ref.typeName = some union) :
    service.expandWithin expanding ref = .alternatives ref.typeName ref.isArray
      (union.members.map (service.expandWithin (ref.typeName :: expanding))) := by
  rw [expandWithin]
  simp only [hcomplex, Bool.false_eq_true, if_false, List.contains_iff_mem, hnew, dite_false]
  split
  · rename_i hnone
    exact absurd (hnone.symm.trans hunion) (by simp)
  · rename_i found hfound
    obtain rfl : found = union := Option.some.inj (hfound.symm.trans hunion)
    rfl

/-! ## Leaves -/

theorem Expansion.exists_leafAt_of_mem_leaves {expansion : Expansion}
    (hleaf : leaf ∈ expansion.leaves) : ∃ path, expansion.LeafAt path leaf := by
  cases expansion with
  | leaf ref =>
      obtain rfl : leaf = ref := by simpa [leaves] using hleaf
      exact ⟨[], .leaf leaf⟩
  | alternatives union isArray members =>
      rw [leaves, leavesOf_eq_flatMap] at hleaf
      obtain ⟨member, hmember, hleaf⟩ := List.mem_flatMap.mp hleaf
      have hless := List.sizeOf_lt_of_mem hmember
      obtain ⟨path, hpath⟩ := exists_leafAt_of_mem_leaves hleaf
      exact ⟨union :: path, .inside hmember hpath⟩
termination_by sizeOf expansion
decreasing_by
  subst_vars
  simp only [Expansion.alternatives.sizeOf_spec]
  omega

theorem Expansion.LeafAt.mem_leaves {expansion : Expansion} (hleaf : expansion.LeafAt path leaf) :
    leaf ∈ expansion.leaves := by
  induction hleaf with
  | leaf ref => simp [leaves]
  | inside hmember hleaf ih =>
      rw [leaves, leavesOf_eq_flatMap]
      exact List.mem_flatMap.mpr ⟨_, hmember, ih⟩

/-- The leaves of an expansion are the references that occur in it, at whatever depth. -/
theorem Expansion.mem_leaves_iff {expansion : Expansion} :
    leaf ∈ expansion.leaves ↔ ∃ path, expansion.LeafAt path leaf :=
  ⟨exists_leafAt_of_mem_leaves, fun ⟨_, hleaf⟩ => hleaf.mem_leaves⟩

theorem Expansion.LeafAt.reached (hleaf : (service.expandWithin expanding ref).LeafAt path leaf)
    (hcomplex : leaf.isPrimitive = false) :
    ref.isPrimitive = false ∧
      Relation.ReflTransGen service.Offers ref.typeName leaf.typeName := by
  fun_induction Service.expandWithin service expanding ref generalizing path with
  | case1 expanding ref hprimitive =>
      cases hleaf
      exact absurd (hcomplex.symm.trans hprimitive) (by simp)
  | case2 expanding ref hprimitive hguard =>
      cases hleaf
      exact ⟨hcomplex, .refl⟩
  | case3 expanding ref hprimitive hguard hname =>
      cases hleaf
      exact ⟨hcomplex, .refl⟩
  | case4 expanding ref hprimitive hguard union hname hless ih =>
      cases hleaf with
      | inside hmember hleaf =>
          obtain ⟨member, hoffered, rfl⟩ := List.mem_map.mp hmember
          -- The leaf is one of a member, which the union offers.
          obtain ⟨hmemberComplex, hpath⟩ := ih member hleaf
          exact ⟨by simpa using hprimitive, hpath.head (.member hname hoffered hmemberComplex)⟩

/-- A union is a leaf only within its own expansion. -/
theorem Expansion.LeafAt.mem_path_or_mem_expanding {union : UnionType}
    (hleaf : (service.expandWithin expanding ref).LeafAt path leaf)
    (hcomplex : leaf.isPrimitive = false) (hunion : service.union? leaf.typeName = some union) :
    leaf.typeName ∈ path ∨ leaf.typeName ∈ expanding := by
  fun_induction Service.expandWithin service expanding ref generalizing path with
  | case1 expanding ref hprimitive =>
      cases hleaf
      exact absurd (hcomplex.symm.trans hprimitive) (by simp)
  | case2 expanding ref hprimitive hguard =>
      cases hleaf
      exact .inr (by simpa using hguard)
  | case3 expanding ref hprimitive hguard hname =>
      cases hleaf
      exact absurd (hname.symm.trans hunion) (by simp)
  | case4 expanding ref hprimitive hguard found hname hless ih =>
      cases hleaf with
      | inside hmember hleaf =>
          obtain ⟨member, -, rfl⟩ := List.mem_map.mp hmember
          -- The members are expanded within this union too, which is the next one on the path.
          rcases ih member hleaf with hpath | hexpanding
          · exact .inl (List.mem_cons_of_mem _ hpath)
          · rcases List.mem_cons.mp hexpanding with heq | hexpanding
            · exact .inl (heq ▸ List.mem_cons_self)
            · exact .inr hexpanding

/-- A union is a leaf of a whole expansion only within its own expansion. -/
theorem Expansion.LeafAt.mem_path_of_union? {union : UnionType}
    (hleaf : (service.expand ref).LeafAt path leaf) (hcomplex : leaf.isPrimitive = false)
    (hunion : service.union? leaf.typeName = some union) : leaf.typeName ∈ path := by
  rcases mem_path_or_mem_expanding hleaf hcomplex hunion with hpath | hnone
  · exact hpath
  · simp at hnone

/-! ## Two services -/

namespace Service

theorem union?_congr {name : String} (hname : service.resolve? name = other.resolve? name) :
    service.union? name = other.union? name := by
  apply Option.ext
  intro union
  rw [← resolve?_eq_union_iff, ← resolve?_eq_union_iff, hname]

theorem types_get?_congr {name : String} (hname : service.resolve? name = other.resolve? name) :
    service.types.get? name = other.types.get? name := by
  apply Option.ext
  intro type
  rw [← resolve?_eq_type_iff, ← resolve?_eq_type_iff, hname]

theorem enum?_congr {name : String} (hname : service.resolve? name = other.resolve? name) :
    service.enum? name = other.enum? name := by
  apply Option.ext
  intro enum
  rw [← resolve?_eq_enum_iff, ← resolve?_eq_enum_iff, hname]

theorem expandWithin_congr (expanding : List String) (hagree : ref.isPrimitive = false →
    ∀ name, Relation.ReflTransGen service.Offers ref.typeName name →
      service.union? name = other.union? name) :
    service.expandWithin expanding ref = other.expandWithin expanding ref := by
  fun_induction Service.expandWithin service expanding ref with
  | case1 expanding ref hprimitive => exact (expandWithin_eq_leaf (.inl hprimitive)).symm
  | case2 expanding ref hprimitive hguard =>
      exact (expandWithin_eq_leaf (.inr (.inl (by simpa using hguard)))).symm
  | case3 expanding ref hprimitive hguard hname =>
      have hother : other.union? ref.typeName = none := by
        rw [← hagree (by simpa using hprimitive) _ .refl, hname]
      exact (expandWithin_eq_leaf (.inr (.inr hother))).symm
  | case4 expanding ref hprimitive hguard union hname hless ih =>
      have hcomplex : ref.isPrimitive = false := by simpa using hprimitive
      -- Both services offer the same members here, and agree on what these offer.
      have hother : other.union? ref.typeName = some union := by
        rw [← hagree hcomplex _ .refl, hname]
      rw [expandWithin_eq_alternatives hcomplex (by simpa using hguard) hother]
      refine congrArg _ (List.map_congr_left fun member hmember => ih member ?_)
      intro hmemberComplex name hpath
      exact hagree hcomplex name (hpath.head (.member hname hmember hmemberComplex))

/-- An expansion depends only on what the names reached through unions stand for. -/
theorem expand_congr (hagree : ref.isPrimitive = false →
    ∀ name, Relation.ReflTransGen service.Offers ref.typeName name →
      service.resolve? name = other.resolve? name) :
    service.expand ref = other.expand ref :=
  expandWithin_congr [] fun hcomplex name hpath => union?_congr (hagree hcomplex name hpath)

theorem expand_eq_of_union? (hunions : ∀ name, service.union? name = other.union? name) :
    service.expand = other.expand :=
  funext fun _ => expandWithin_congr [] fun _ name _ => hunions name

end Service

end ServiceManual
