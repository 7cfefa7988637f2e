import Mathlib.Logic.Relation
import ServiceManual.Service

/-!
# Which names lead to which

A service is read here as a graph on names.  A name that stands for a type leads to the names in
the values of its properties, and a name that stands for a union leads to the names of its
members.  A name that stands for an enum or for nothing leads nowhere, references to primitive
kinds lead nowhere, and the keys and values of a dictionary type are not followed.

* `Service.Leads` is one step of the graph, `Service.Offers` one step through a union;
* `Service.ReachedFrom` says that some reference of a list reaches a name, in zero or more steps.

Neither mentions how a walk proceeds.  The last section is about two services: what is reached
depends only on what the reached names stand for (`Service.reachedFrom_congr`).
-/

namespace ServiceManual

/-! ## The references of an interface -/

/-- The types of the parameters of a method. -/
def Method.parameterTypes (method : Method) : List TypeReference :=
  method.parameters.map Member.value

/-- The type of what a method returns, if it returns anything. -/
def Method.returnTypes (method : Method) : List TypeReference :=
  (method.returns.map ReturnValue.value).toList

/-- The types of all parameters of an interface. -/
def Interface.parameterTypes (interface : Interface) : List TypeReference :=
  interface.methods.flatMap Method.parameterTypes

/-- The types of all return values of an interface. -/
def Interface.returnTypes (interface : Interface) : List TypeReference :=
  interface.methods.flatMap Method.returnTypes

namespace Service

/-! ## What a name stands for -/

/-- The enum that a name stands for, if it stands for one. -/
def enum? (service : Service) (name : String) : Option EnumType :=
  match service.types.get? name, service.unions.get? name with
  | none, none => service.enums.get? name
  | _, _ => none

variable {service : Service} {name : String}

theorem resolve?_eq_type_iff {type : ComplexType} :
    service.resolve? name = some (.type type) ↔ service.types.get? name = some type := by
  unfold resolve?
  cases service.types.get? name <;> cases service.unions.get? name <;>
    cases service.enums.get? name <;> simp

theorem resolve?_eq_union_iff {union : UnionType} :
    service.resolve? name = some (.union union) ↔ service.union? name = some union := by
  unfold resolve? union?
  cases service.types.get? name <;> cases service.unions.get? name <;>
    cases service.enums.get? name <;> simp

theorem resolve?_eq_enum_iff {enum : EnumType} :
    service.resolve? name = some (.enum enum) ↔ service.enum? name = some enum := by
  unfold resolve? enum?
  cases service.types.get? name <;> cases service.unions.get? name <;>
    cases service.enums.get? name <;> simp

theorem eq_none_of_resolve? {α : Type} {wrap : α → Entity} {lookup : String → Option α}
    {entity : Entity}
    (hlookup : ∀ found, service.resolve? name = some (wrap found) ↔ lookup name = some found)
    (hname : service.resolve? name = some entity) (hkind : ∀ found, entity ≠ wrap found) :
    lookup name = none := by
  refine Option.eq_none_iff_forall_ne_some.mpr fun found hfound => hkind found ?_
  exact Option.some.inj (hname.symm.trans ((hlookup found).mpr hfound))

/-! ## The graph -/

/-- A union has another name among its members. -/
inductive Offers (service : Service) : String → String → Prop
  | member {name : String} {union : UnionType} {ref : TypeReference}
      (hunion : service.union? name = some union) (hmember : ref ∈ union.members)
      (hcomplex : ref.isPrimitive = false) : Offers service name ref.typeName

/-- One step from name to name: to the value of a property of a type, or to a member of a union. -/
inductive Leads (service : Service) : String → String → Prop
  | property {name : String} {type : ComplexType} {property : Member}
      (htype : service.types.get? name = some type) (hproperty : property ∈ type.properties)
      (hcomplex : property.value.isPrimitive = false) : Leads service name property.value.typeName
  | member {name next : String} (hoffers : service.Offers name next) : Leads service name next

/-- A name that is reached, in zero or more steps, from one of these references. -/
def ReachedFrom (service : Service) (refs : List TypeReference) (name : String) : Prop :=
  ∃ ref ∈ refs, ref.isPrimitive = false ∧ Relation.ReflTransGen service.Leads ref.typeName name

theorem leads_of_mem_children {entity : Entity} {ref : TypeReference}
    (hname : service.resolve? name = some entity) (href : ref ∈ entity.children)
    (hcomplex : ref.isPrimitive = false) : service.Leads name ref.typeName := by
  cases entity with
  | type type =>
      obtain ⟨property, hproperty, rfl⟩ := List.mem_map.mp href
      exact .property (resolve?_eq_type_iff.mp hname) hproperty hcomplex
  | union union => exact .member (.member (resolve?_eq_union_iff.mp hname) href hcomplex)
  | enum enum => simp [Entity.children] at href

theorem exists_child_of_leads {next : String} (hleads : service.Leads name next) :
    ∃ entity, service.resolve? name = some entity ∧
      ∃ ref ∈ entity.children, ref.isPrimitive = false ∧ ref.typeName = next := by
  cases hleads with
  | property htype hproperty hcomplex =>
      exact ⟨_, resolve?_eq_type_iff.mpr htype, _, List.mem_map_of_mem hproperty, hcomplex, rfl⟩
  | member hoffers =>
      obtain ⟨hunion, hmember, hcomplex⟩ := hoffers
      exact ⟨_, resolve?_eq_union_iff.mpr hunion, _, hmember, hcomplex, rfl⟩

/-! ## Reached names -/

variable {refs more : List TypeReference}

theorem reachedFrom_of_mem {ref : TypeReference} (href : ref ∈ refs)
    (hcomplex : ref.isPrimitive = false) : service.ReachedFrom refs ref.typeName :=
  ⟨ref, href, hcomplex, .refl⟩

theorem ReachedFrom.step {next : String} (hreached : service.ReachedFrom refs name)
    (hleads : service.Leads name next) : service.ReachedFrom refs next := by
  obtain ⟨ref, href, hcomplex, hpath⟩ := hreached
  exact ⟨ref, href, hcomplex, hpath.tail hleads⟩

theorem ReachedFrom.trans {last : String} (hreached : service.ReachedFrom refs name)
    (hpath : Relation.ReflTransGen service.Leads name last) : service.ReachedFrom refs last := by
  obtain ⟨ref, href, hcomplex, hbefore⟩ := hreached
  exact ⟨ref, href, hcomplex, hbefore.trans hpath⟩

theorem ReachedFrom.mono (hsubset : refs ⊆ more) (hreached : service.ReachedFrom refs name) :
    service.ReachedFrom more name := by
  obtain ⟨ref, href, hreached⟩ := hreached
  exact ⟨ref, hsubset href, hreached⟩

theorem reachedFrom_append :
    service.ReachedFrom (refs ++ more) name ↔
      service.ReachedFrom refs name ∨ service.ReachedFrom more name := by
  constructor
  · rintro ⟨ref, href, hreached⟩
    rcases List.mem_append.mp href with href | href
    · exact .inl ⟨ref, href, hreached⟩
    · exact .inr ⟨ref, href, hreached⟩
  · rintro (hreached | hreached)
    · exact hreached.mono (List.subset_append_left _ _)
    · exact hreached.mono (List.subset_append_right _ _)

/-- Reachability as a closure: a property of the names in the references that steps keep holds of
every reached name. -/
theorem ReachedFrom.closed {motive : String → Prop} (hreached : service.ReachedFrom refs name)
    (hroots : ∀ ref ∈ refs, ref.isPrimitive = false → motive ref.typeName)
    (hsteps : ∀ name next, motive name → service.Leads name next → motive next) : motive name := by
  obtain ⟨ref, href, hcomplex, hpath⟩ := hreached
  induction hpath with
  | refl => exact hroots ref href hcomplex
  | tail _ hleads ih => exact hsteps _ _ ih hleads

/-! ## Two services -/

variable {other : Service}

/-- What a name leads to depends on the references in what it stands for. -/
theorem Leads.of_children {next : String} (hleads : service.Leads name next)
    (hname : (service.resolve? name).map Entity.children =
      (other.resolve? name).map Entity.children) : other.Leads name next := by
  obtain ⟨entity, hentity, ref, href, hcomplex, rfl⟩ := exists_child_of_leads hleads
  rw [hentity, Option.map_some, eq_comm, Option.map_eq_some_iff] at hname
  obtain ⟨counterpart, hcounterpart, hchildren⟩ := hname
  exact leads_of_mem_children hcounterpart (hchildren ▸ href) hcomplex

theorem leads_congr {next : String} (hname : (service.resolve? name).map Entity.children =
    (other.resolve? name).map Entity.children) :
    service.Leads name next ↔ other.Leads name next :=
  ⟨fun hleads => hleads.of_children hname, fun hleads => hleads.of_children hname.symm⟩

/-- Services that agree on the names that one of them reaches reach the same names. -/
theorem reachedFrom_congr
    (hagree : ∀ name, service.ReachedFrom refs name →
      service.resolve? name = other.resolve? name) :
    service.ReachedFrom refs name ↔ other.ReachedFrom refs name := by
  constructor
  · intro hreached
    -- The names that both reach are closed under the steps of the first service.
    refine (hreached.closed (motive := fun name => service.ReachedFrom refs name ∧
      other.ReachedFrom refs name) ?_ ?_).2
    · intro ref href hcomplex
      exact ⟨reachedFrom_of_mem href hcomplex, reachedFrom_of_mem href hcomplex⟩
    · intro name next hboth hleads
      have hname := congrArg (Option.map Entity.children) (hagree name hboth.1)
      exact ⟨hboth.1.step hleads, hboth.2.step (hleads.of_children hname)⟩
  · intro hreached
    refine hreached.closed ?_ ?_
    · intro ref href hcomplex
      exact reachedFrom_of_mem href hcomplex
    · intro name next hreached hleads
      have hname := congrArg (Option.map Entity.children) (hagree name hreached)
      exact hreached.step (hleads.of_children hname.symm)

end Service

end ServiceManual
