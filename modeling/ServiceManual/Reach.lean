import ServiceManual.Reach.Walk

/-!
# What an interface reaches

The entities that the signatures of an interface refer to, directly or through the properties of
types and the members of unions.  What the parameters reach is the input side and what the return
values reach the output side; each side is the trail of its own walks, so an entity can be on
both.
-/

namespace ServiceManual

/-- What an interface reaches, by side, and the names that were met and stand for nothing. -/
structure Reach where
  input : Trail
  output : Trail
  unknown : List String

namespace Reach

/-- Nothing has been reached. -/
def empty : Reach := ⟨.empty, .empty, []⟩

/-- Walk on from the type of a parameter. -/
def followInput (service : Service) (reach : Reach) (ref : TypeReference) : Reach :=
  let walk := Walk.run service ⟨[ref], reach.input, reach.unknown⟩
  { reach with input := walk.trail, unknown := walk.unknown }

/-- Walk on from the type of a return value. -/
def followOutput (service : Service) (reach : Reach) (ref : TypeReference) : Reach :=
  let walk := Walk.run service ⟨[ref], reach.output, reach.unknown⟩
  { reach with output := walk.trail, unknown := walk.unknown }

/-- Follow the signature of a method, the parameters first. -/
def followMethod (service : Service) (reach : Reach) (method : Method) : Reach :=
  let afterParameters := (method.parameters.map Member.value).foldl (followInput service) reach
  match method.returns with
  | some returns => followOutput service afterParameters returns.value
  | none => afterParameters

/-- What an interface reaches. -/
def ofInterface (service : Service) (interface : Interface) : Reach :=
  interface.methods.foldl (followMethod service) .empty

/-! ## Lists of entities -/

/-- The entries of a table in the order of their names. -/
def sorted {α : Type} (table : Table α) : Table α :=
  table.mergeSort fun a b => decide (a.1 ≤ b.1)

/-- The entries of both sides in the order of their names, a name of both sides once. -/
def merged {α : Type} (input output : Table α) : Table α :=
  sorted (input ++ output.filter fun entry => !input.names.contains entry.1)

/-- The types of both sides. -/
def types (reach : Reach) : Table ComplexType :=
  merged reach.input.types reach.output.types

/-- The unions of both sides. -/
def unions (reach : Reach) : Table UnionType :=
  merged reach.input.unions reach.output.unions

/-- The enums of both sides. -/
def enums (reach : Reach) : Table EnumType :=
  merged reach.input.enums reach.output.enums

end Reach

end ServiceManual
