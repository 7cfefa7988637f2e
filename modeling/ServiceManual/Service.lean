import ServiceManual.Reference
import ServiceManual.Rule

/-!
# Services

A service description: interfaces with their methods, and the types, enums and unions that the
methods' signatures refer to.  Entities are kept in tables, in the order of the description; a
name is looked up by the key of an entity, which need not be the name that the entity carries.
-/

namespace ServiceManual

/-- Named things, in the order in which they were given. -/
abbrev Table (α : Type) := List (String × α)

/-- The first entry under a name. -/
def Table.get? {α : Type} (table : Table α) (name : String) : Option α :=
  (table.find? fun entry => entry.1 == name).map Prod.snd

/-- The names of a table. -/
def Table.names {α : Type} (table : Table α) : List String :=
  table.map Prod.fst

/-- A parameter of a method, or a property of a type. -/
structure Member where
  name : String
  required : Bool
  description : List String
  rules : List Rule
  value : TypeReference

/-- What a method returns. -/
structure ReturnValue where
  value : TypeReference
  description : List String
  deriving DecidableEq, Repr

/-- A method of an interface. -/
structure Method where
  name : String
  description : List String
  parameters : List Member
  returns : Option ReturnValue

/-- Methods that are documented together, in one file. -/
structure Interface where
  name : String
  description : List String
  methods : List Method

/-- The keys and values of a type that is a dictionary. -/
structure MapProperties where
  key : TypeReference
  value : TypeReference
  deriving DecidableEq, Repr

/-- An object type. -/
structure ComplexType where
  name : String
  description : List String
  properties : List Member
  mapProperties : Option MapProperties

/-- A type each of whose values belongs to one of the members. -/
structure UnionType where
  name : String
  description : List String
  members : List TypeReference
  deriving DecidableEq, Repr

/-- The documentation of an enum: of the whole, and of values by their text. -/
structure EnumDocs where
  description : Option String
  valueDescriptions : Table String
  deriving DecidableEq, Repr

/-- A set of literal values. -/
structure EnumType where
  name : String
  members : List Literal
  docs : Option EnumDocs
  deriving DecidableEq, Repr

/-- The description of an enum as a whole. -/
def EnumType.description? (enum : EnumType) : Option String :=
  enum.docs.bind EnumDocs.description

/-- The description of the value with this text. -/
def EnumType.descriptionOf? (enum : EnumType) (text : String) : Option String :=
  enum.docs.bind fun docs => docs.valueDescriptions.get? text

/-- A service. -/
structure Service where
  title : String
  majorVersion : Int
  sourcePath : Option String
  interfaces : List Interface
  types : Table ComplexType
  enums : Table EnumType
  unions : Table UnionType

/-- What a name can stand for. -/
inductive Entity
  | type (entity : ComplexType)
  | union (entity : UnionType)
  | enum (entity : EnumType)

namespace Service

/-- The first interface of this name. -/
def interface? (service : Service) (name : String) : Option Interface :=
  service.interfaces.find? fun interface => interface.name == name

/-- What a name stands for: a type if there is one, else a union, else an enum. -/
def resolve? (service : Service) (name : String) : Option Entity :=
  match service.types.get? name with
  | some type => some (.type type)
  | none =>
    match service.unions.get? name with
    | some union => some (.union union)
    | none => (service.enums.get? name).map .enum

/-- The union that a name stands for, if it stands for one. -/
def union? (service : Service) (name : String) : Option UnionType :=
  match service.types.get? name with
  | some _ => none
  | none => service.unions.get? name

/-- All names of entities. -/
def entityNames (service : Service) : List String :=
  service.types.names ++ service.unions.names ++ service.enums.names

end Service

/-- The references that a type or a union contains; an enum contains none. -/
def Entity.children : Entity → List TypeReference
  | .type entity => entity.properties.map Member.value
  | .union entity => entity.members
  | .enum _ => []

/-! ## Names not yet followed

References can lead round in circles, so whoever follows them keeps a list of the names followed
so far.  The number of names still to be followed bounds how long that can go on. -/

/-- How many of these names, repetitions counted, are not among the ones followed. -/
def unfollowed (names followed : List String) : Nat :=
  names.countP fun name => !followed.contains name

/-- Following one more of the names leaves fewer. -/
theorem unfollowed_cons_lt {names followed : List String} {name : String} (hname : name ∈ names)
    (hnew : followed.contains name = false) :
    unfollowed names (name :: followed) < unfollowed names followed := by
  unfold unfollowed
  induction names with
  | nil => simp at hname
  | cons head rest ih =>
    have hle : rest.countP (fun n => !(name :: followed).contains n) ≤
        rest.countP (fun n => !followed.contains n) := by
      apply List.countP_mono_left
      intro n _ hn
      simp only [List.contains_cons, Bool.not_or, Bool.and_eq_true] at hn
      exact hn.2
    rw [List.countP_cons, List.countP_cons]
    by_cases hhead : head = name
    · subst hhead
      simp only [List.contains_cons, hnew, beq_self_eq_true, Bool.true_or, Bool.not_true,
        Bool.not_false, if_true]
      simp only [List.contains_cons] at hle
      simp only [Bool.false_eq_true, if_false]
      omega
    · have hrest : name ∈ rest := by
        rcases List.mem_cons.mp hname with h | h
        · exact absurd h.symm hhead
        · exact h
      have hsame : (name :: followed).contains head = followed.contains head := by
        simp [hhead]
      rw [hsame]
      have := ih hrest
      omega

/-! ## Lookup -/

theorem Table.mem_names_of_get? {α : Type} {table : Table α} {name : String} {entity : α}
    (h : table.get? name = some entity) : name ∈ table.names := by
  simp only [Table.get?, Option.map_eq_some_iff] at h
  obtain ⟨entry, hfind, -⟩ := h
  have hname : entry.1 = name := by simpa using List.find?_some hfind
  exact List.mem_map.mpr ⟨entry, List.mem_of_find?_eq_some hfind, hname⟩

theorem Service.mem_entityNames_of_resolve? {service : Service} {name : String} {entity : Entity}
    (h : service.resolve? name = some entity) : name ∈ service.entityNames := by
  unfold resolve? at h
  simp only [entityNames, List.mem_append]
  cases htype : service.types.get? name with
  | some type => exact .inl (.inl (Table.mem_names_of_get? htype))
  | none =>
    cases hunion : service.unions.get? name with
    | some union => exact .inl (.inr (Table.mem_names_of_get? hunion))
    | none =>
      simp only [htype, hunion, Option.map_eq_some_iff] at h
      obtain ⟨enum, henum, -⟩ := h
      exact .inr (Table.mem_names_of_get? henum)

theorem Service.mem_names_of_union? {service : Service} {name : String} {union : UnionType}
    (h : service.union? name = some union) : name ∈ service.unions.names := by
  unfold union? at h
  cases htype : service.types.get? name with
  | some type => simp [htype] at h
  | none => exact Table.mem_names_of_get? (by simpa [htype] using h)

end ServiceManual
