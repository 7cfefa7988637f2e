import ServiceManual.Manual
import ServiceManual.Proofs.Document.Sections
import ServiceManual.Proofs.Expansion

/-!
# What a document depends on

A document reads its service at a set of names (`Service.Reads`): the names that the signatures of
its interface reach, and from the keys and values of the dictionary types among them the names
that are reached through unions.  Two services that agree on these names give the same document,
whatever else they hold (`Service.document_congr`), and pages with the same contents if the banner
is the same too (`Manual.contents_eq_of_agree`).

The set is made from the first service alone.  It is enough because it is closed under everything
that the document looks up: the walk follows names that it has reached, and the expansion of a
reference follows unions from there.
-/

namespace ServiceManual

/-- The types of the keys and values of a dictionary type. -/
def ComplexType.mapTypes (type : ComplexType) : List TypeReference :=
  match type.mapProperties with
  | some map => [map.key, map.value]
  | none => []

/-- The names at which the document of an interface reads a service. -/
inductive Service.Reads (service : Service) (interface : Interface) : String → Prop
  | reached {name : String} (hreached : service.ReachedFrom interface.signatureTypes name) :
      Reads service interface name
  | mapped {name last : String} {type : ComplexType} {ref : TypeReference}
      (hreached : service.ReachedFrom interface.signatureTypes name)
      (htype : service.types.get? name = some type) (hmap : ref ∈ type.mapTypes)
      (hcomplex : ref.isPrimitive = false)
      (hpath : Relation.ReflTransGen service.Offers ref.typeName last) :
      Reads service interface last

variable {service other : Service} {interface reordered : Interface}

/-! ## What is reached -/

namespace Reach

/-- Services that agree on what the signatures reach list the same entities, and it does not matter
which signatures reach it. -/
theorem lists_congr
    (hreached : ∀ name, service.ReachedFrom interface.signatureTypes name ↔
      other.ReachedFrom reordered.signatureTypes name)
    (hagree : ∀ name, service.ReachedFrom interface.signatureTypes name →
      service.resolve? name = other.resolve? name) :
    (ofInterface service interface).types = (ofInterface other reordered).types ∧
      (ofInterface service interface).enums = (ofInterface other reordered).enums := by
  have hkeys : ∀ name, service.ReachedFrom interface.parameterTypes name ∨
      service.ReachedFrom interface.returnTypes name ↔
        other.ReachedFrom reordered.parameterTypes name ∨
          other.ReachedFrom reordered.returnTypes name := by
    intro name
    rw [← Service.reachedFrom_signatureTypes, ← Service.reachedFrom_signatureTypes, hreached]
  -- Only one table lists what is found under some names, so both are the same.
  have hlists := (complete_ofInterface service interface).lists
  have hothers := (complete_ofInterface other reordered).lists
  constructor
  · refine hlists.types.eq_of_iff hothers.types fun name type => ?_
    rw [← hkeys]
    refine and_congr_right fun hkey => ?_
    rw [Service.types_get?_congr (hagree name (Service.reachedFrom_signatureTypes.mpr hkey))]
  · refine hlists.enums.eq_of_iff hothers.enums fun name enum => ?_
    rw [← hkeys]
    refine and_congr_right fun hkey => ?_
    rw [Service.enum?_congr (hagree name (Service.reachedFrom_signatureTypes.mpr hkey))]

end Reach

/-! ## What is shown -/

namespace Section

theorem bullet_congr {member : Member}
    (hexpand : service.expand member.value = other.expand member.value) :
    bullet service member = bullet other member := by
  unfold bullet
  rw [hexpand]

theorem ofMethod_congr {method : Method}
    (hexpand : ∀ ref ∈ method.signatureTypes, service.expand ref = other.expand ref) :
    ofMethod service method = ofMethod other method := by
  have hbullets : (sortByText Member.name method.parameters).map (bullet service) =
      (sortByText Member.name method.parameters).map (bullet other) := by
    refine List.map_congr_left fun parameter hparameter => bullet_congr (hexpand _ ?_)
    rw [(sortByText_perm _ _).mem_iff] at hparameter
    exact Method.value_mem_signatureTypes hparameter
  have hreturns : method.returns.map (fun returns => Block.returns (service.expand returns.value)) =
      method.returns.map fun returns => Block.returns (other.expand returns.value) := by
    refine Option.map_congr fun returns hreturns => ?_
    rw [hexpand _ (Method.returns_mem_signatureTypes hreturns)]
  simp only [ofMethod, hbullets, hreturns]

theorem ofType_congr {type : ComplexType}
    (hproperties : ∀ property ∈ type.properties,
      service.expand property.value = other.expand property.value)
    (hmap : ∀ ref ∈ type.mapTypes, service.expand ref = other.expand ref) :
    ofType service type = ofType other type := by
  have hbullets : type.properties.map (bullet service) = type.properties.map (bullet other) :=
    List.map_congr_left fun property hproperty => bullet_congr (hproperties property hproperty)
  have hblocks : type.mapProperties.map (mapBlocks service) =
      type.mapProperties.map (mapBlocks other) := by
    refine Option.map_congr fun map hmapProperties => ?_
    unfold mapBlocks
    rw [hmap map.key (by simp [ComplexType.mapTypes, hmapProperties]),
      hmap map.value (by simp [ComplexType.mapTypes, hmapProperties])]
  simp only [ofType, hbullets, hblocks]

end Section

namespace Chapter

theorem ofMethods_congr {methods : List Method} (hsections : ∀ method ∈ methods,
    Section.ofMethod service method = Section.ofMethod other method) :
    ofMethods service methods = ofMethods other methods := by
  unfold ofMethods
  congr 1
  refine List.map_congr_left fun method hmethod => hsections method ?_
  rwa [(sortByText_perm _ _).mem_iff] at hmethod

theorem ofTypes_congr {types : List ComplexType} (hsections : ∀ type ∈ types,
    Section.ofType service type = Section.ofType other type) :
    ofTypes service types = ofTypes other types := by
  unfold ofTypes
  congr 1
  refine List.map_congr_left fun type htype => hsections type ?_
  rwa [(sortByText_perm _ _).mem_iff] at htype

end Chapter

/-! ## The document -/

namespace Service

theorem expand_congr_of_reads
    (hagree : ∀ name, service.Reads interface name → service.resolve? name = other.resolve? name)
    {ref : TypeReference} (hreached : ref.isPrimitive = false →
      service.ReachedFrom interface.signatureTypes ref.typeName) :
    service.expand ref = other.expand ref := by
  refine expand_congr fun hcomplex name hpath => hagree name (.reached ?_)
  exact (hreached hcomplex).trans (Relation.ReflTransGen.mono (fun _ _ => .member) _ _ hpath)

theorem ofMethod_congr_of_reads
    (hagree : ∀ name, service.Reads interface name → service.resolve? name = other.resolve? name)
    {method : Method} (hmethod : method ∈ interface.methods) :
    Section.ofMethod service method = Section.ofMethod other method := by
  refine Section.ofMethod_congr fun ref href => expand_congr_of_reads hagree ?_
  exact reachedFrom_of_mem (Interface.signatureTypes_subset hmethod href)

theorem ofType_congr_of_reads
    (hagree : ∀ name, service.Reads interface name → service.resolve? name = other.resolve? name)
    {name : String} {type : ComplexType}
    (hreached : service.ReachedFrom interface.signatureTypes name)
    (htype : service.types.get? name = some type) :
    Section.ofType service type = Section.ofType other type := by
  refine Section.ofType_congr ?_ ?_
  · intro property hproperty
    exact expand_congr_of_reads hagree fun hcomplex =>
      hreached.step (.property htype hproperty hcomplex)
  · -- Keys and values need not be reached, so what they offer is read on its own account.
    intro ref hmap
    exact expand_congr fun hcomplex name hpath =>
      hagree name (.mapped hreached htype hmap hcomplex hpath)

theorem reach_congr_of_reads
    (hagree : ∀ name, service.Reads interface name → service.resolve? name = other.resolve? name) :
    (Reach.ofInterface service interface).types = (Reach.ofInterface other interface).types ∧
      (Reach.ofInterface service interface).enums = (Reach.ofInterface other interface).enums :=
  Reach.lists_congr
    (fun _ => reachedFrom_congr fun name hreached => hagree name (.reached hreached))
    (fun name hreached => hagree name (.reached hreached))

/-- A document depends only on what the names that it reads stand for. -/
theorem document_congr (banner : Option (List String))
    (hagree : ∀ name, service.Reads interface name → service.resolve? name = other.resolve? name) :
    service.document banner interface = other.document banner interface := by
  obtain ⟨htypes, henums⟩ := reach_congr_of_reads hagree
  have hmethods : Chapter.ofMethods service interface.methods =
      Chapter.ofMethods other interface.methods :=
    Chapter.ofMethods_congr fun method hmethod => ofMethod_congr_of_reads hagree hmethod
  have hchapter : Chapter.ofTypes service ((Reach.ofInterface service interface).types.map
      Prod.snd) = Chapter.ofTypes other ((Reach.ofInterface service interface).types.map
        Prod.snd) := by
    refine Chapter.ofTypes_congr fun type htype => ?_
    obtain ⟨entry, hentry, rfl⟩ := List.mem_map.mp htype
    obtain ⟨hreached, hfound⟩ :=
      ((Reach.complete_ofInterface service interface).lists.types.mem_iff _ _).mp hentry
    exact ofType_congr_of_reads hagree (reachedFrom_signatureTypes.mpr hreached) hfound
  unfold document Document.ofInterface
  rw [hmethods, hchapter, htypes, henums]

/-- Names that hold everything that is looked up from them hold all names that are read. -/
theorem Reads.mem_of_closed {names : List String} {name : String}
    (hreads : service.Reads interface name)
    (hroots : ∀ ref ∈ interface.signatureTypes, ref.isPrimitive = false → ref.typeName ∈ names)
    (hchildren : ∀ name ∈ names, ∀ entity ∈ service.resolve? name, ∀ ref ∈ entity.children,
      ref.isPrimitive = false → ref.typeName ∈ names)
    (hmaps : ∀ name ∈ names, ∀ type ∈ service.types.get? name, ∀ ref ∈ type.mapTypes,
      ref.isPrimitive = false → ref.typeName ∈ names) :
    name ∈ names := by
  have hsteps : ∀ name next, name ∈ names → service.Leads name next → next ∈ names := by
    intro name next hname hleads
    obtain ⟨entity, hentity, ref, href, hcomplex, rfl⟩ := exists_child_of_leads hleads
    exact hchildren name hname entity hentity ref href hcomplex
  have hreached : ∀ name, service.ReachedFrom interface.signatureTypes name → name ∈ names :=
    fun name hreached => hreached.closed hroots hsteps
  cases hreads with
  | reached hname => exact hreached name hname
  | mapped hname htype hmap hcomplex hpath =>
      -- From a type in a map the way goes on through members of unions only.
      induction hpath with
      | refl => exact hmaps _ (hreached _ hname) _ htype _ hmap hcomplex
      | tail _ hoffers ih => exact hsteps _ _ ih (.member hoffers)

end Service

/-! ## Pages -/

namespace Manual

variable {configuration changed : Configuration}

/-- The banner names the source of the description and the output directory, nothing else of the
service and its configuration. -/
theorem banner?_congr (package : Package) (hsource : service.sourcePath = other.sourcePath)
    (hbanner : configuration.banner = changed.banner)
    (houtput : configuration.outputDir = changed.outputDir) :
    banner? service configuration package = banner? other changed package := by
  unfold banner? Package.banner
  rw [hsource, hbanner, houtput]

/-- Apart from the version, what keeps a page from being made is in its interface and in what that
reaches. -/
theorem isWritable_congr
    (hversion : ServiceManual.isWritable service.majorVersion =
      ServiceManual.isWritable other.majorVersion)
    (htypes : (Reach.ofInterface service interface).types =
      (Reach.ofInterface other interface).types)
    (henums : (Reach.ofInterface service interface).enums =
      (Reach.ofInterface other interface).enums) :
    isWritable service interface = isWritable other interface := by
  simp only [isWritable, obstacles, integerObstacle?, htypes, henums, hversion]

/-- **Pages are local.**  Two services that resolve every name that a document reads in the same way
and come from the same source give the page of the interface the same contents, whatever else
differs; and both pages can be written out or neither, if the version numbers in their paths do
not decide it. -/
theorem contents_eq_of_agree (interface : Interface) (package : Package)
    (hagree : ∀ name, service.Reads interface name → service.resolve? name = other.resolve? name)
    (hsource : service.sourcePath = other.sourcePath)
    (hbanner : configuration.banner = changed.banner)
    (houtput : configuration.outputDir = changed.outputDir) :
    (page service configuration package interface).contents =
        (page other changed package interface).contents ∧
      (ServiceManual.isWritable service.majorVersion =
          ServiceManual.isWritable other.majorVersion →
        isWritable service interface = isWritable other interface) := by
  obtain ⟨htypes, henums⟩ := Service.reach_congr_of_reads hagree
  refine ⟨?_, fun hversion => isWritable_congr hversion htypes henums⟩
  simp only [page, banner?_congr package hsource hbanner houtput]
  exact congrArg Document.text (Service.document_congr _ hagree)

end Manual

/-- The petstore under another title and version, with one more type and the others after it. -/
def toystore : Service :=
  { petstore with
    title := "Toys"
    majorVersion := 2
    types := ("Toy", ⟨"Toy", [], [], none⟩) :: petstore.types
    unions := petstore.unions.reverse }

/-- The page on pets is the same in both stores, with any number of workers. -/
theorem toystore_contents_eq :
    (∀ name, petstore.Reads petInterface name →
        petstore.resolve? name = toystore.resolve? name) ∧
      (Manual.page petstore {} .default petInterface).contents =
        (Manual.page toystore { settings := ⟨4⟩ } .default petInterface).contents ∧
      Manual.isWritable petstore petInterface = Manual.isWritable toystore petInterface := by
  have hagree : ∀ name, petstore.Reads petInterface name →
      petstore.resolve? name = toystore.resolve? name := by
    intro name hreads
    have hname : name ∈ ["Pet", "Friend", "Kind", "Label", "Tag"] :=
      hreads.mem_of_closed (by decide) (by decide) (by decide)
    simp only [List.mem_cons, List.not_mem_nil, or_false] at hname
    rcases hname with rfl | rfl | rfl | rfl | rfl <;> rfl
  refine ⟨hagree, And.imp_right ?_
    (Manual.contents_eq_of_agree petInterface .default hagree rfl rfl rfl)⟩
  exact fun hwritable => hwritable (by decide)

end ServiceManual
