import ServiceManual.Naming

/-!
# Types in print

A reference is printed as a link to what it refers to, except that a union is printed as the
alternatives it stands for, each of them a link or again alternatives.  So a reference is first
expanded into a tree, whose leaves are references and whose inner nodes are unions, and the tree
is then printed.

A union that contains itself is a leaf where it occurs within its own expansion.  Hence no path
of the tree holds the same union twice, which is also why expanding ends.

A limit on how deep calls are nested is left out.  Expanding goes one call deeper with each union
within another one, so where calls are limited it is given up for unions some hundreds deep, which
are expanded here like any others.
-/

namespace ServiceManual

/-- A reference with its unions expanded. -/
inductive Expansion
  | leaf (ref : TypeReference)
  | alternatives (union : String) (isArray : Bool) (members : List Expansion)

/-- Expand a reference within the expansions of these unions, however deep that leads. -/
def Service.expandWithin (service : Service) (expanding : List String) (ref : TypeReference) :
    Expansion :=
  if ref.isPrimitive then .leaf ref
  else if hnew : expanding.contains ref.typeName then .leaf ref
  else
    match hname : service.union? ref.typeName with
    | none => .leaf ref
    | some union =>
      have : unfollowed service.unions.names (ref.typeName :: expanding) <
          unfollowed service.unions.names expanding :=
        unfollowed_cons_lt (Service.mem_names_of_union? hname) (by simpa using hnew)
      .alternatives ref.typeName ref.isArray
        (union.members.map fun member =>
          service.expandWithin (ref.typeName :: expanding) member)
termination_by unfollowed service.unions.names expanding

/-- Expand a reference. -/
def Service.expand (service : Service) (ref : TypeReference) : Expansion :=
  service.expandWithin [] ref

/-! ## Links -/

/-- The name of a referenced type between angle brackets. -/
def TypeReference.label (ref : TypeReference) : String :=
  "&lt;" ++ ref.displayName ++ "&gt;"

/-- Where the link of a reference leads: to the page on a primitive kind, or to the heading of an
entity in the same document. -/
def TypeReference.target? (ref : TypeReference) : Option String :=
  match ref.kind with
  | .primitive => ref.url?
  | .complex => some (Naming.anchor ref.scalarName)

/-- A reference as a link, or as its label alone if it leads nowhere. -/
def TypeReference.link (ref : TypeReference) : String :=
  match ref.target? with
  | some target => "[" ++ ref.label ++ "](" ++ target ++ ")"
  | none => ref.label

namespace Expansion

/-- Alternatives, marked as an array if they are one. -/
def joinAlternatives (isArray : Bool) (members : List String) : String :=
  let joined := " | ".intercalate members
  if isArray then "(" ++ joined ++ ")[]" else joined

mutual

/-- The text of an expansion. -/
def text : Expansion → String
  | .leaf ref => ref.link
  | .alternatives _ isArray members => joinAlternatives isArray (texts members)

/-- The texts of several expansions. -/
def texts : List Expansion → List String
  | [] => []
  | expansion :: rest => expansion.text :: texts rest

end

mutual

/-- The leaves of an expansion, from left to right. -/
def leaves : Expansion → List TypeReference
  | .leaf ref => [ref]
  | .alternatives _ _ members => leavesOf members

/-- The leaves of several expansions. -/
def leavesOf : List Expansion → List TypeReference
  | [] => []
  | expansion :: rest => expansion.leaves ++ leavesOf rest

end

theorem texts_eq_map (members : List Expansion) : texts members = members.map text := by
  induction members with
  | nil => simp [texts]
  | cons head rest ih => simp [texts, ih]

theorem leavesOf_eq_flatMap (members : List Expansion) :
    leavesOf members = members.flatMap leaves := by
  induction members with
  | nil => simp [leavesOf]
  | cons head rest ih => simp [leavesOf, ih]

end Expansion

end ServiceManual
