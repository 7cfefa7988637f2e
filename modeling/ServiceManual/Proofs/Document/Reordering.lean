import ServiceManual.Proofs.Document.Locality

/-!
# What order a description may have

Methods are shown in the order of their names, the parameters of a method too, and what is reached
in the order of its names and then of its display names.  So a document does not show in which
order the description gives methods and parameters, if their names differ, nor in which order it
gives the entities in its tables (`Document.lines_eq_of_reordered`).

The walks themselves do depend on that order: they meet the same entities in another sequence.
It is what they have met in the end that does not, since that is what the signatures reach, and
both the signatures and what they reach are sets.  Entities with the same display name stay in the
order of their own names, because they are sorted by these first and the second sorting keeps the
order of those that it does not distinguish.
-/

namespace ServiceManual

/-- The same method with its parameters in another order. -/
structure Method.Reordered (method other : Method) : Prop where
  name : method.name = other.name
  description : method.description = other.description
  returns : method.returns = other.returns
  parameters : method.parameters.Perm other.parameters

/-- The same interface with its methods in another order, and the parameters of each of them. -/
structure Interface.Reordered (interface other : Interface) : Prop where
  name : interface.name = other.name
  description : interface.description = other.description
  methods : ∃ methods, List.Forall₂ Method.Reordered interface.methods methods ∧
    methods.Perm other.methods

/-- The same service with the entries of its tables in another order. -/
structure Service.Reordered (service other : Service) : Prop where
  title : service.title = other.title
  majorVersion : service.majorVersion = other.majorVersion
  sourcePath : service.sourcePath = other.sourcePath
  types : service.types.Perm other.types
  unions : service.unions.Perm other.unions
  enums : service.enums.Perm other.enums

/-- Each name stands in a table once. -/
structure Service.DistinctNames (service : Service) : Prop where
  types : service.types.names.Nodup
  unions : service.unions.names.Nodup
  enums : service.enums.names.Nodup

/-- Methods have different names, and the parameters of a method too. -/
structure Interface.DistinctNames (interface : Interface) : Prop where
  methods : (interface.methods.map Method.name).Nodup
  parameters : ∀ method ∈ interface.methods, (method.parameters.map Member.name).Nodup

variable {service other : Service} {interface reordered : Interface} {method shuffled : Method}

/-! ## Names stand for the same -/

theorem Service.Reordered.resolve?_eq (hservice : service.Reordered other)
    (hdistinct : service.DistinctNames) (name : String) :
    service.resolve? name = other.resolve? name := by
  unfold resolve?
  rw [Table.get?_eq_of_perm hservice.types hdistinct.types,
    Table.get?_eq_of_perm hservice.unions hdistinct.unions,
    Table.get?_eq_of_perm hservice.enums hdistinct.enums]

/-! ## Signatures are the same -/

theorem Method.flatMap_perm_of_forall₂ {α : Type} {f : Method → List α}
    {methods others : List Method} (hforall : List.Forall₂ Method.Reordered methods others)
    (hmethod : ∀ method ∈ methods, ∀ shuffled, method.Reordered shuffled →
      (f method).Perm (f shuffled)) : (methods.flatMap f).Perm (others.flatMap f) := by
  induction hforall with
  | nil => exact .refl _
  | @cons method shuffled rest more hfirst _ ih =>
      rw [List.flatMap_cons, List.flatMap_cons]
      refine (hmethod method List.mem_cons_self shuffled hfirst).append (ih ?_)
      exact fun next hnext => hmethod next (List.mem_cons_of_mem _ hnext)

namespace Interface.Reordered

theorem flatMap_perm {α : Type} {f : Method → List α} (hinterface : interface.Reordered reordered)
    (hmethod : ∀ method ∈ interface.methods, ∀ shuffled, method.Reordered shuffled →
      (f method).Perm (f shuffled)) :
    (interface.methods.flatMap f).Perm (reordered.methods.flatMap f) := by
  obtain ⟨methods, hforall, hperm⟩ := hinterface.methods
  exact (Method.flatMap_perm_of_forall₂ hforall hmethod).trans (hperm.flatMap_right f)

theorem signatureTypes_perm (hinterface : interface.Reordered reordered) :
    interface.signatureTypes.Perm reordered.signatureTypes := by
  refine List.Perm.append ?_ ?_
  · exact hinterface.flatMap_perm fun method _ shuffled hmethod =>
      hmethod.parameters.map Member.value
  · refine hinterface.flatMap_perm fun method _ shuffled hmethod => ?_
    rw [Method.returnTypes, Method.returnTypes, hmethod.returns]

end Interface.Reordered

theorem Service.reachedFrom_perm {refs more : List TypeReference} (hperm : refs.Perm more)
    (name : String) : service.ReachedFrom refs name ↔ service.ReachedFrom more name :=
  ⟨fun hreached => hreached.mono hperm.subset, fun hreached => hreached.mono hperm.symm.subset⟩

/-! ## Sections of methods are the same -/

theorem Section.ofMethod_eq_of_reordered (hmethod : method.Reordered shuffled)
    (hdistinct : (method.parameters.map Member.name).Nodup) :
    ofMethod service method = ofMethod service shuffled := by
  simp only [ofMethod, Method.displayName, hmethod.name, hmethod.description, hmethod.returns,
    sortByText_eq_of_perm hmethod.parameters hdistinct]

/-- The sections of methods with their names, which they are sorted by. -/
theorem Chapter.sections_ofMethods (methods : List Method) :
    (ofMethods service methods).sections = (sortByText Prod.fst
      (methods.map fun method => (method.name, Section.ofMethod service method))).map Prod.snd := by
  rw [← map_sortByText (f := fun method => (method.name, Section.ofMethod service method))
    fun _ => rfl, List.map_map]
  rfl

theorem Chapter.ofMethods_eq_of_reordered (hinterface : interface.Reordered reordered)
    (hdistinct : interface.DistinctNames) :
    ofMethods service interface.methods = ofMethods service reordered.methods := by
  -- A section does not tell the name of its method, so the sections are sorted with their names.
  have hnamed : (interface.methods.map fun method =>
      (method.name, Section.ofMethod service method)).Perm
        (reordered.methods.map fun method => (method.name, Section.ofMethod service method)) := by
    rw [List.map_eq_flatMap, List.map_eq_flatMap]
    refine hinterface.flatMap_perm fun method hmember shuffled hmethod => ?_
    rw [Section.ofMethod_eq_of_reordered hmethod (hdistinct.parameters method hmember),
      hmethod.name]
  have hnodup : ((interface.methods.map fun method =>
      (method.name, Section.ofMethod service method)).map Prod.fst).Nodup := by
    rw [List.map_map]
    exact hdistinct.methods
  have hsections : (ofMethods service interface.methods).sections =
      (ofMethods service reordered.methods).sections := by
    rw [sections_ofMethods, sections_ofMethods, sortByText_eq_of_perm hnamed hnodup]
  exact congrArg (Chapter.mk "Methods") hsections

/-! ## Documents are the same -/

/-- Methods and parameters may be given in any order. -/
theorem Interface.Reordered.document_eq (hinterface : interface.Reordered reordered)
    (hdistinct : interface.DistinctNames) (banner : Option (List String)) :
    service.document banner interface = service.document banner reordered := by
  obtain ⟨htypes, henums⟩ := Reach.lists_congr
    (fun name => Service.reachedFrom_perm hinterface.signatureTypes_perm name)
    (fun name _ => (rfl : service.resolve? name = service.resolve? name))
  unfold Service.document Document.ofInterface
  rw [Chapter.ofMethods_eq_of_reordered hinterface hdistinct, htypes, henums,
    Interface.displayName, Interface.displayName, hinterface.name, hinterface.description]

theorem Service.Reordered.document_eq (hservice : service.Reordered other)
    (hdistinct : service.DistinctNames) (banner : Option (List String)) :
    service.document banner interface = other.document banner interface :=
  document_congr banner fun name _ => hservice.resolve?_eq hdistinct name

namespace Manual

theorem methodObstacles_perm (hinterface : interface.Reordered reordered) :
    (methodObstacles interface.methods).Perm (methodObstacles reordered.methods) := by
  have hmethod : ∀ method ∈ interface.methods, ∀ shuffled, method.Reordered shuffled →
      (memberObstacles (sortByText Member.name method.parameters)).Perm
        (memberObstacles (sortByText Member.name shuffled.parameters)) := by
    intro method _ shuffled hshuffled
    have hparameters : (sortByText Member.name method.parameters).Perm
        (sortByText Member.name shuffled.parameters) :=
      (sortByText_perm _ _).trans (hshuffled.parameters.trans (sortByText_perm _ _).symm)
    exact hparameters.flatMap_right _
  have hsorted : ∀ methods : List Method, (methodObstacles methods).Perm
      (methods.flatMap fun method => memberObstacles (sortByText Member.name method.parameters)) :=
    fun methods => (sortByText_perm _ methods).flatMap_right _
  exact (hsorted _).trans ((hinterface.flatMap_perm hmethod).trans (hsorted _).symm)

theorem isWritable_eq_of_reordered (hservice : service.Reordered other)
    (hinterface : interface.Reordered reordered) (hnames : service.DistinctNames) :
    isWritable service interface = isWritable other reordered := by
  have hagree : ∀ name, service.resolve? name = other.resolve? name :=
    hservice.resolve?_eq hnames
  obtain ⟨htypes, henums⟩ := Reach.lists_congr
    (fun name => (Service.reachedFrom_perm hinterface.signatureTypes_perm name).trans
      (Service.reachedFrom_congr fun name _ => hagree name))
    (fun name _ => hagree name)
  have hperm : (obstacles service interface).Perm (obstacles other reordered) := by
    simp only [obstacles, hservice.majorVersion, htypes, henums]
    exact (((methodObstacles_perm hinterface).append_left _).append_right _).append_right _
  exact hperm.isEmpty_eq

end Manual

/-- **Documents are stable.**  If methods, the parameters of each method and the entities of each
kind have different names, then the document of an interface has the same lines in whatever order
the description gives them, under any banner.  So the page is the same, and it can be written out
from both descriptions or from neither. -/
theorem Document.lines_eq_of_reordered (hservice : service.Reordered other)
    (hinterface : interface.Reordered reordered) (hnames : service.DistinctNames)
    (hdistinct : interface.DistinctNames) :
    (∀ banner, (service.document banner interface).lines =
        (other.document banner reordered).lines) ∧
      (∀ configuration package, Manual.page service configuration package interface =
        Manual.page other configuration package reordered) ∧
      Manual.isWritable service interface = Manual.isWritable other reordered := by
  -- First the service is turned round, then the interface.
  have hdocument : ∀ banner, service.document banner interface = other.document banner reordered :=
    fun banner =>
      (hservice.document_eq hnames banner).trans (hinterface.document_eq hdistinct banner)
  refine ⟨fun banner => congrArg lines (hdocument banner), fun configuration package => ?_,
    Manual.isWritable_eq_of_reordered hservice hinterface hnames⟩
  have hbanner : Manual.banner? service configuration package =
      Manual.banner? other configuration package :=
    Manual.banner?_congr package hservice.sourcePath rfl rfl
  have hcontents := congrArg text (hdocument (Manual.banner? service configuration package))
  rw [hbanner] at hcontents
  unfold Manual.page Interface.documentPath Interface.displayName
  rw [hinterface.name, hservice.majorVersion, hbanner]
  exact congrArg _ hcontents

/-- Two methods, one of them with two parameters. -/
def searchInterface : Interface where
  name := "search"
  description := []
  methods := [⟨"findPet", [], [⟨"kind", true, [], [], ⟨.complex, "Kind", false⟩⟩,
      ⟨"among", false, [], [], friends⟩], some ⟨⟨.complex, "Pet", false⟩, []⟩⟩,
    ⟨"countPets", [], [], none⟩]

/-- The same methods and parameters the other way round. -/
def reversedInterface : Interface where
  name := "search"
  description := []
  methods := [⟨"countPets", [], [], none⟩,
    ⟨"findPet", [], [⟨"among", false, [], [], friends⟩,
      ⟨"kind", true, [], [], ⟨.complex, "Kind", false⟩⟩], some ⟨⟨.complex, "Pet", false⟩, []⟩⟩]

/-- The same entities the other way round. -/
def reversedStore : Service :=
  { toystore with
    types := toystore.types.reverse
    unions := toystore.unions.reverse
    enums := toystore.enums.reverse }

/-- A store and its interface can be turned round. -/
theorem reversedStore_lines_eq :
    toystore.Reordered reversedStore ∧ searchInterface.Reordered reversedInterface ∧
      toystore.DistinctNames ∧ searchInterface.DistinctNames ∧
      (toystore.document none searchInterface).lines =
        (reversedStore.document none reversedInterface).lines := by
  have hservice : toystore.Reordered reversedStore :=
    ⟨rfl, rfl, rfl, (List.reverse_perm _).symm, (List.reverse_perm _).symm,
      (List.reverse_perm _).symm⟩
  have hinterface : searchInterface.Reordered reversedInterface := by
    refine ⟨rfl, rfl, reversedInterface.methods.reverse, ?_, List.reverse_perm _⟩
    exact .cons ⟨rfl, rfl, rfl, .swap _ _ _⟩ (.cons ⟨rfl, rfl, rfl, .refl _⟩ .nil)
  have hnames : toystore.DistinctNames := ⟨by decide, by decide, by decide⟩
  have hdistinct : searchInterface.DistinctNames := ⟨by decide, by decide⟩
  exact ⟨hservice, hinterface, hnames, hdistinct,
    (Document.lines_eq_of_reordered hservice hinterface hnames hdistinct).1 none⟩

end ServiceManual
