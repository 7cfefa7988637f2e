import ServiceManual.Document
import ServiceManual.Provenance

/-!
# The manual of a service

A manual has one page for each interface, in the order of the description.  A page is made from
the service, the configuration and the interface alone, so pages can be made in any order and at
the same time.
-/

namespace ServiceManual

/-- A page: the segments of its path below the output directory, and its text. -/
structure Page where
  path : List String
  contents : String
  deriving DecidableEq, Repr

namespace Manual

/-- The banner that a configuration asks for. -/
def banner? (service : Service) (configuration : Configuration) (package : Package) :
    Option (List String) :=
  if configuration.banner then some (package.banner service (some configuration.outputDir))
  else none

/-- What keeps an integer from being shown. -/
def integerObstacle? (value : Int) : Option Obstacle :=
  if ServiceManual.isWritable value then none else some .unwritable

/-- The path of the page of an interface, or what keeps its version from being shown. -/
def path? (service : Service) (interface : Interface) : Except Obstacle (List String) :=
  match integerObstacle? service.majorVersion with
  | some obstacle => .error obstacle
  | none => .ok (interface.documentPath service.majorVersion)

/-- What keeps the rules of some members from being shown. -/
def memberObstacles (members : List Member) : List Obstacle :=
  members.flatMap fun member => member.rules.filterMap Rule.obstacle?

/-- What keeps the parameters of some methods from being shown. -/
def methodObstacles (methods : List Method) : List Obstacle :=
  (sortByText Method.name methods).flatMap fun method =>
    memberObstacles (sortByText Member.name method.parameters)

/-- What keeps the values of an enum from being shown. -/
def valueObstacles (enum : EnumType) : List Obstacle :=
  enum.members.filterMap fun value => value.integer?.bind integerObstacle?

/-- What keeps the page of an interface from being made, in the order of what it shows. -/
def obstacles (service : Service) (interface : Interface) : List Obstacle :=
  let reach := Reach.ofInterface service interface
  (integerObstacle? service.majorVersion).toList ++ methodObstacles interface.methods ++
    ((sortByText (fun type => entityDisplayName type.name) (reach.types.map Prod.snd)).flatMap
      fun type => memberObstacles type.properties) ++
    (sortByText (fun enum => entityDisplayName enum.name) (reach.enums.map Prod.snd)).flatMap
      valueObstacles

/-- Can everything on the page of an interface be written out? -/
def isWritable (service : Service) (interface : Interface) : Bool :=
  (obstacles service interface).isEmpty

/-- The page of an interface. -/
def page (service : Service) (configuration : Configuration) (package : Package)
    (interface : Interface) : Page :=
  { path := interface.documentPath service.majorVersion
    contents := (Document.ofInterface service (banner? service configuration package) interface
      (.ofInterface service interface)).text }

/-- The pages of a service. -/
def pages (service : Service) (configuration : Configuration) (package : Package) : List Page :=
  service.interfaces.map (page service configuration package)

/-- The pages of a service, if everything on them can be written out. -/
def pages? (service : Service) (configuration : Configuration) (package : Package) :
    Option (List Page) :=
  if service.interfaces.all (isWritable service) then some (pages service configuration package)
  else none

/-- What is met first of all that keeps the pages of a service from being made. -/
def firstObstacle (service : Service) : Obstacle :=
  (service.interfaces.flatMap (obstacles service)).head?.getD .unwritable

end Manual

end ServiceManual
