import ServiceManual.Service

/-!
# Walks along references

A walk goes from reference to reference, with a stack of references that are still to be followed.
A name that stands for an entity is followed once: it is then recorded as visited, and the
references that the entity contains are put on the stack.  A name that stands for nothing is
passed over, and noted each time.

A walk ends because each step either makes one more name of the service visited or leaves these
names alone and shortens the stack (`Walk.step_lt`).
-/

namespace ServiceManual

/-- Where a walk has been: the names that have been followed, the last one first, and the entities
under them by kind, in the order in which they were met. -/
structure Trail where
  visited : List String
  types : Table ComplexType
  unions : Table UnionType
  enums : Table EnumType

namespace Trail

/-- Nothing has been followed. -/
def empty : Trail := ⟨[], [], [], []⟩

/-- Has a name been followed? -/
def hasVisited (trail : Trail) (name : String) : Bool :=
  trail.visited.contains name

/-- Record what a name stands for. -/
def record (trail : Trail) (name : String) : Entity → Trail
  | .type entity =>
    { trail with visited := name :: trail.visited, types := trail.types ++ [(name, entity)] }
  | .union entity =>
    { trail with visited := name :: trail.visited, unions := trail.unions ++ [(name, entity)] }
  | .enum entity =>
    { trail with visited := name :: trail.visited, enums := trail.enums ++ [(name, entity)] }

@[simp] theorem visited_record (trail : Trail) (name : String) (entity : Entity) :
    (trail.record name entity).visited = name :: trail.visited := by
  cases entity <;> rfl

/-- The number of entries of the service's tables whose names have not been followed. -/
def pending (service : Service) (trail : Trail) : Nat :=
  unfollowed service.entityNames trail.visited

/-- Recording a name of the service that was not visited leaves fewer pending. -/
theorem pending_record_lt {service : Service} {trail : Trail} {name : String} {entity : Entity}
    (hnew : trail.hasVisited name = false) (hname : name ∈ service.entityNames) :
    (trail.record name entity).pending service < trail.pending service := by
  unfold pending
  rw [visited_record]
  exact unfollowed_cons_lt hname hnew

end Trail

/-- A walk under way: the references that are still to be followed, the next one first, where the
walk has been, and the names it met that stand for nothing, in the order in which it met them. -/
structure Walk where
  stack : List TypeReference
  trail : Trail
  unknown : List String

namespace Walk

/-- Follow one reference.  A primitive one and one that has been followed lead nowhere. -/
def follow (service : Service) (walk : Walk) (ref : TypeReference) : Walk :=
  if ref.isPrimitive || walk.trail.hasVisited ref.typeName then walk
  else
    match service.resolve? ref.typeName with
    | some entity =>
      { walk with
        stack := entity.children ++ walk.stack
        trail := walk.trail.record ref.typeName entity }
    | none => { walk with unknown := walk.unknown ++ [ref.typeName] }

/-- One step: take the next reference off the stack and follow it. -/
def step (service : Service) (walk : Walk) : Option Walk :=
  match walk.stack with
  | [] => none
  | ref :: rest => some (({ walk with stack := rest } : Walk).follow service ref)

/-- What a step makes smaller, in the order of pairs: the names that are left, and the stack. -/
def size (service : Service) (walk : Walk) : Nat × Nat :=
  (walk.trail.pending service, walk.stack.length)

/-- Following a reference does not add to the stack unless it leaves fewer names. -/
theorem follow_eq_or_pending_lt (service : Service) (walk : Walk) (ref : TypeReference) :
    (walk.follow service ref).size service = walk.size service ∨
      (walk.follow service ref).trail.pending service < walk.trail.pending service := by
  unfold follow
  split
  · exact .inl rfl
  · rename_i hfollow
    have hnew : walk.trail.hasVisited ref.typeName = false := by
      simp only [Bool.or_eq_true, not_or, Bool.not_eq_true] at hfollow
      exact hfollow.2
    cases hname : service.resolve? ref.typeName with
    | some entity =>
        exact .inr (Trail.pending_record_lt hnew (Service.mem_entityNames_of_resolve? hname))
    | none => exact .inl rfl

/-- A step makes a walk smaller. -/
theorem step_lt {service : Service} {walk next : Walk} (hstep : walk.step service = some next) :
    Prod.Lex (· < ·) (· < ·) (next.size service) (walk.size service) := by
  unfold step at hstep
  cases hstack : walk.stack with
  | nil => simp [hstack] at hstep
  | cons ref rest =>
      simp only [hstack, Option.some.injEq] at hstep
      subst hstep
      rcases follow_eq_or_pending_lt service { walk with stack := rest } ref with hsame | hless
      · rw [hsame]
        exact Prod.Lex.right _ (by simp [hstack])
      · exact Prod.Lex.left _ _ hless

/-- Walk on until there is nothing left to follow. -/
def run (service : Service) (walk : Walk) : Walk :=
  match _hstep : walk.step service with
  | none => walk
  | some next => next.run service
termination_by walk.size service
decreasing_by exact step_lt _hstep

end Walk

end ServiceManual
