import ServiceManual.Proofs.Reach.Invariant

/-!
# What an interface reaches, exactly

The walks of an interface are started one after the other, the input side from the types of the
parameters and the output side from the types of the return values, and each side keeps one trail.
`Reach.Complete` is the invariant of this sequence of walks: each side has been walked to its end
from all references that it has been started from.

The main statement is `Reach.ofInterface_lists_reached`.  The types, unions and enums listed for a
side are those that stand under a name reached from its references by any path of the graph, and
the merged lists are those of either side.
-/

namespace ServiceManual

variable {service : Service}

/-- The sorted tables of a side list what these names stand for. -/
structure Trail.Lists (service : Service) (trail : Trail) (keys : String → Prop) : Prop where
  types : (Reach.sorted trail.types).Lists service.types.get? keys
  unions : (Reach.sorted trail.unions).Lists service.union? keys
  enums : (Reach.sorted trail.enums).Lists service.enum? keys

theorem Trail.Holds.lists {trail : Trail} {keys : String → Prop}
    (hholds : trail.Holds service keys) : trail.Lists service keys :=
  ⟨hholds.types.lists_sorted, hholds.unions.lists_sorted, hholds.enums.lists_sorted⟩

namespace Reach

variable {reach : Reach} {inputs outputs : List TypeReference}

/-- The merged tables list what these names stand for. -/
structure Lists (service : Service) (reach : Reach) (keys : String → Prop) : Prop where
  types : reach.types.Lists service.types.get? keys
  unions : reach.unions.Lists service.union? keys
  enums : reach.enums.Lists service.enum? keys

/-- What the sides hold is listed once. -/
theorem lists_of_holds {keys others : String → Prop} (hinput : reach.input.Holds service keys)
    (houtput : reach.output.Holds service others) :
    reach.Lists service fun name => keys name ∨ others name :=
  ⟨hinput.types.lists_merged houtput.types, hinput.unions.lists_merged houtput.unions,
    hinput.enums.lists_merged houtput.enums⟩

/-! ## The sequence of walks -/

/-- Each side has been walked to its end from these references. -/
structure Complete (service : Service) (inputs outputs : List TypeReference) (reach : Reach) :
    Prop where
  input : Walk.Invariant service inputs ⟨[], reach.input, []⟩
  output : Walk.Invariant service outputs ⟨[], reach.output, []⟩

theorem complete_empty : empty.Complete service [] [] :=
  ⟨Walk.invariant_empty [], Walk.invariant_empty []⟩

theorem Complete.followInput (hcomplete : reach.Complete service inputs outputs)
    (ref : TypeReference) :
    (reach.followInput service ref).Complete service (inputs ++ [ref]) outputs :=
  ⟨(hcomplete.input.restart rfl ref reach.unknown).run.finished (Walk.stack_run _ _),
    hcomplete.output⟩

theorem Complete.followOutput (hcomplete : reach.Complete service inputs outputs)
    (ref : TypeReference) :
    (reach.followOutput service ref).Complete service inputs (outputs ++ [ref]) :=
  ⟨hcomplete.input,
    (hcomplete.output.restart rfl ref reach.unknown).run.finished (Walk.stack_run _ _)⟩

theorem Complete.foldl_followInput (hcomplete : reach.Complete service inputs outputs)
    (refs : List TypeReference) :
    (refs.foldl (Reach.followInput service) reach).Complete service (inputs ++ refs) outputs := by
  induction refs generalizing reach inputs with
  | nil => simpa using hcomplete
  | cons ref rest ih =>
      have hrest := ih (hcomplete.followInput ref)
      rwa [List.append_assoc, List.singleton_append] at hrest

theorem Complete.followMethod (hcomplete : reach.Complete service inputs outputs)
    (method : Method) :
    (reach.followMethod service method).Complete service (inputs ++ method.parameterTypes)
      (outputs ++ method.returnTypes) := by
  have hparameters := hcomplete.foldl_followInput method.parameterTypes
  unfold Reach.followMethod Method.returnTypes
  cases method.returns with
  | none =>
      -- A method that returns nothing starts no walk on the output side.
      rw [Option.map_none, Option.toList_none, List.append_nil]
      exact hparameters
  | some returns => exact hparameters.followOutput returns.value

theorem Complete.foldl_followMethod (hcomplete : reach.Complete service inputs outputs)
    (methods : List Method) :
    (methods.foldl (Reach.followMethod service) reach).Complete service
      (inputs ++ methods.flatMap Method.parameterTypes)
      (outputs ++ methods.flatMap Method.returnTypes) := by
  induction methods generalizing reach inputs outputs with
  | nil => simpa using hcomplete
  | cons method rest ih =>
      have hrest := ih (hcomplete.followMethod method)
      rwa [List.append_assoc, List.append_assoc] at hrest

theorem complete_ofInterface (service : Service) (interface : Interface) :
    (ofInterface service interface).Complete service interface.parameterTypes
      interface.returnTypes :=
  complete_empty.foldl_followMethod interface.methods

/-! ## Reached entities -/

theorem Complete.holds_input (hcomplete : reach.Complete service inputs outputs) :
    reach.input.Holds service (service.ReachedFrom inputs) :=
  hcomplete.input.holds_reached rfl

theorem Complete.holds_output (hcomplete : reach.Complete service inputs outputs) :
    reach.output.Holds service (service.ReachedFrom outputs) :=
  hcomplete.output.holds_reached rfl

theorem Complete.lists (hcomplete : reach.Complete service inputs outputs) :
    reach.Lists service fun name =>
      service.ReachedFrom inputs name ∨ service.ReachedFrom outputs name :=
  lists_of_holds hcomplete.holds_input hcomplete.holds_output

/-- **What an interface reaches.**  Each side lists the entities under the names that its references
reach, and the merged tables list those of both sides: each name once, in strictly increasing
order, with the service's own entity. -/
theorem ofInterface_lists_reached (service : Service) (interface : Interface) :
    (ofInterface service interface).input.Lists service
        (service.ReachedFrom interface.parameterTypes) ∧
      (ofInterface service interface).output.Lists service
        (service.ReachedFrom interface.returnTypes) ∧
      (ofInterface service interface).Lists service fun name =>
        service.ReachedFrom interface.parameterTypes name ∨
          service.ReachedFrom interface.returnTypes name := by
  have hcomplete := complete_ofInterface service interface
  exact ⟨hcomplete.holds_input.lists, hcomplete.holds_output.lists, hcomplete.lists⟩

end Reach

end ServiceManual
