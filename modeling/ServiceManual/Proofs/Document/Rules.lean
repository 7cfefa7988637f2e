import ServiceManual.Manual
import ServiceManual.Proofs.Document.Sections
import ServiceManual.Proofs.Expansion

/-!
# What of the rules a document shows

A document shows the rules of a parameter or property by their sentences, and a rule that has none
leaves no trace.  Here every list of rules in a service is replaced by another one
(`Service.mapRules`), that has the same sentences and the same obstacles to showing them
(`KeepsShown`).  Names stand for entities with the same references then, so the same is reached, and
the documents and pages are the same (`Service.document_mapRules`, `Manual.pages?_mapRules`).

Of a rule of unknown kind a document shows nothing, unless it has the identifier of a known kind;
then it shows the one field that the sentence of that kind is made from.  `Rule.shown?` keeps that
much of each rule.
-/

namespace ServiceManual

/-! ## Other rules -/

/-- A parameter or property with other rules. -/
def Member.mapRules (f : List Rule → List Rule) (member : Member) : Member :=
  { member with rules := f member.rules }

def Method.mapRules (f : List Rule → List Rule) (method : Method) : Method :=
  { method with parameters := method.parameters.map (Member.mapRules f) }

def Interface.mapRules (f : List Rule → List Rule) (interface : Interface) : Interface :=
  { interface with methods := interface.methods.map (Method.mapRules f) }

def ComplexType.mapRules (f : List Rule → List Rule) (type : ComplexType) : ComplexType :=
  { type with properties := type.properties.map (Member.mapRules f) }

def Entity.mapRules (f : List Rule → List Rule) : Entity → Entity
  | .type entity => .type (entity.mapRules f)
  | .union entity => .union entity
  | .enum entity => .enum entity

/-- A table with other contents under the same names. -/
def Table.mapContents {α β : Type} (g : α → β) (table : Table α) : Table β :=
  table.map fun entry => (entry.1, g entry.2)

/-- A service with other rules. -/
def Service.mapRules (f : List Rule → List Rule) (service : Service) : Service :=
  { service with
    interfaces := service.interfaces.map (Interface.mapRules f)
    types := service.types.mapContents (ComplexType.mapRules f) }

/-- The other rules have the same sentences, and the same keeps them from being shown. -/
structure KeepsShown (f : List Rule → List Rule) : Prop where
  sentences : ∀ rules, (f rules).filterMap Rule.sentence? = rules.filterMap Rule.sentence?
  obstacles : ∀ rules, (f rules).filterMap Rule.obstacle? = rules.filterMap Rule.obstacle?

variable {f : List Rule → List Rule} {service : Service} {interface : Interface} {name : String}

/-! ## Names and what they lead to -/

namespace Table

variable {α β : Type} {table : Table α}

theorem get?_mapContents (g : α → β) (table : Table α) (name : String) :
    (table.mapContents g).get? name = (table.get? name).map g := by
  simp only [get?, mapContents, List.find?_map, Option.map_map]
  rfl

theorem map_snd_mapContents (g : α → β) (table : Table α) :
    (table.mapContents g).map Prod.snd = (table.map Prod.snd).map g := by
  simp [mapContents]

theorem Lists.mapContents {lookup : String → Option α} {keys : String → Prop}
    (hlists : table.Lists lookup keys) (g : α → β) :
    (table.mapContents g).Lists (fun name => (lookup name).map g) keys := by
  refine ⟨fun name content => ?_, List.pairwise_map.mpr hlists.ascending⟩
  simp only [Table.mapContents, List.mem_map, Prod.exists, Prod.mk.injEq, hlists.mem_iff,
    Option.map_eq_some_iff]
  constructor
  · rintro ⟨_, a, ⟨hkey, hfound⟩, rfl, rfl⟩
    exact ⟨hkey, a, hfound, rfl⟩
  · rintro ⟨hkey, a, hfound, rfl⟩
    exact ⟨name, a, ⟨hkey, hfound⟩, rfl, rfl⟩

end Table

namespace Service

theorem types_get?_mapRules (name : String) :
    (service.mapRules f).types.get? name = (service.types.get? name).map (ComplexType.mapRules f) :=
  Table.get?_mapContents _ _ _

theorem resolve?_mapRules (name : String) :
    (service.mapRules f).resolve? name = (service.resolve? name).map (Entity.mapRules f) := by
  -- Only types have members that carry rules.
  have hunions : (service.mapRules f).unions = service.unions := rfl
  have henums : (service.mapRules f).enums = service.enums := rfl
  unfold resolve?
  rw [types_get?_mapRules, hunions, henums]
  cases service.types.get? name with
  | some type => rfl
  | none =>
      cases service.unions.get? name with
      | some union => rfl
      | none => cases service.enums.get? name <;> rfl

theorem union?_mapRules (name : String) :
    (service.mapRules f).union? name = service.union? name := by
  unfold union?
  rw [types_get?_mapRules]
  cases service.types.get? name <;> rfl

theorem enum?_mapRules (name : String) : (service.mapRules f).enum? name = service.enum? name := by
  unfold enum?
  rw [types_get?_mapRules]
  cases service.types.get? name <;> rfl

theorem expand_mapRules : (service.mapRules f).expand = service.expand :=
  expand_eq_of_union? union?_mapRules

theorem children_mapRules (entity : Entity) : (entity.mapRules f).children = entity.children := by
  cases entity with
  | type type => simp [Entity.mapRules, Entity.children, ComplexType.mapRules, Member.mapRules]
  | union union => rfl
  | enum enum => rfl

theorem leads_mapRules : (service.mapRules f).Leads = service.Leads := by
  funext name next
  refine propext (leads_congr ?_)
  rw [resolve?_mapRules, Option.map_map]
  exact congrArg (fun g => (service.resolve? name).map g) (funext children_mapRules)

theorem reachedFrom_mapRules {refs : List TypeReference} :
    (service.mapRules f).ReachedFrom refs name ↔ service.ReachedFrom refs name := by
  unfold ReachedFrom
  rw [leads_mapRules]

end Service

/-! ## What is reached -/

theorem Method.parameterTypes_mapRules (method : Method) :
    (method.mapRules f).parameterTypes = method.parameterTypes := by
  simp [parameterTypes, mapRules, Member.mapRules]

theorem Interface.parameterTypes_mapRules :
    (interface.mapRules f).parameterTypes = interface.parameterTypes := by
  simp [parameterTypes, mapRules, List.flatMap_map, Method.parameterTypes_mapRules]

theorem Interface.returnTypes_mapRules :
    (interface.mapRules f).returnTypes = interface.returnTypes := by
  simp only [returnTypes, mapRules, List.flatMap_map]
  rfl

namespace Reach

/-- The same names are reached, so the types are the same but for their rules. -/
theorem types_mapRules : (ofInterface (service.mapRules f) (interface.mapRules f)).types =
    (ofInterface service interface).types.mapContents (ComplexType.mapRules f) := by
  have hlists := (complete_ofInterface service interface).lists
  have hothers := (complete_ofInterface (service.mapRules f) (interface.mapRules f)).lists
  refine hothers.types.eq_of_iff (hlists.types.mapContents _) fun name type => ?_
  rw [Interface.parameterTypes_mapRules, Interface.returnTypes_mapRules,
    Service.reachedFrom_mapRules, Service.reachedFrom_mapRules, Service.types_get?_mapRules]

theorem enums_mapRules : (ofInterface (service.mapRules f) (interface.mapRules f)).enums =
    (ofInterface service interface).enums := by
  have hlists := (complete_ofInterface service interface).lists
  have hothers := (complete_ofInterface (service.mapRules f) (interface.mapRules f)).lists
  refine hothers.enums.eq_of_iff hlists.enums fun name enum => ?_
  rw [Interface.parameterTypes_mapRules, Interface.returnTypes_mapRules,
    Service.reachedFrom_mapRules, Service.reachedFrom_mapRules, Service.enum?_mapRules]

end Reach

/-! ## What is shown

Things are sorted by texts that the rules have no part in. -/

theorem sortByText_parameters_mapRules (method : Method) :
    sortByText Member.name (method.mapRules f).parameters =
      (sortByText Member.name method.parameters).map (Member.mapRules f) :=
  (map_sortByText fun _ => rfl).symm

theorem sortByText_methods_mapRules (methods : List Method) :
    sortByText Method.name (methods.map (Method.mapRules f)) =
      (sortByText Method.name methods).map (Method.mapRules f) :=
  (map_sortByText fun _ => rfl).symm

theorem sortByText_types_mapRules (types : List ComplexType) :
    sortByText (fun type => entityDisplayName type.name) (types.map (ComplexType.mapRules f)) =
      (sortByText (fun type => entityDisplayName type.name) types).map (ComplexType.mapRules f) :=
  (map_sortByText fun _ => rfl).symm

namespace Section

theorem bullet_mapRules (hkeeps : KeepsShown f) (member : Member) :
    bullet (service.mapRules f) (member.mapRules f) = bullet service member := by
  unfold bullet
  rw [Service.expand_mapRules]
  exact congrArg _ (hkeeps.sentences member.rules)

theorem bullets_mapRules (hkeeps : KeepsShown f) (members : List Member) :
    (members.map (Member.mapRules f)).map (bullet (service.mapRules f)) =
      members.map (bullet service) := by
  rw [List.map_map]
  exact List.map_congr_left fun member _ => bullet_mapRules hkeeps member

theorem ofMethod_mapRules (hkeeps : KeepsShown f) (method : Method) :
    ofMethod (service.mapRules f) (method.mapRules f) = ofMethod service method := by
  -- The signature shows no rules at all.
  have hsignature : ((sortByText Member.name method.parameters).map (Member.mapRules f)).map
      (fun parameter => (parameter.displayName, parameter.required)) =
        (sortByText Member.name method.parameters).map fun parameter =>
          (parameter.displayName, parameter.required) := by
    rw [List.map_map]
    rfl
  unfold ofMethod
  simp only [sortByText_parameters_mapRules, hsignature, bullets_mapRules hkeeps,
    Service.expand_mapRules]
  rfl

theorem ofType_mapRules (hkeeps : KeepsShown f) (type : ComplexType) :
    ofType (service.mapRules f) (type.mapRules f) = ofType service type := by
  have hproperties : (type.mapRules f).properties.map (bullet (service.mapRules f)) =
      type.properties.map (bullet service) := bullets_mapRules hkeeps type.properties
  have hblocks : mapBlocks (service.mapRules f) = mapBlocks service := by
    funext map
    unfold mapBlocks
    rw [Service.expand_mapRules]
  unfold ofType
  rw [hproperties, hblocks]
  rfl

end Section

namespace Chapter

theorem ofMethods_mapRules (hkeeps : KeepsShown f) (methods : List Method) :
    ofMethods (service.mapRules f) (methods.map (Method.mapRules f)) =
      ofMethods service methods := by
  unfold ofMethods
  rw [sortByText_methods_mapRules, List.map_map]
  exact congrArg _ (List.map_congr_left fun method _ => Section.ofMethod_mapRules hkeeps method)

theorem ofTypes_mapRules (hkeeps : KeepsShown f) (types : List ComplexType) :
    ofTypes (service.mapRules f) (types.map (ComplexType.mapRules f)) = ofTypes service types := by
  unfold ofTypes
  rw [sortByText_types_mapRules, List.map_map]
  exact congrArg _ (List.map_congr_left fun type _ => Section.ofType_mapRules hkeeps type)

end Chapter

/-- The document is the same if the sentences of the rules are. -/
theorem Service.document_mapRules (hkeeps : KeepsShown f) (banner : Option (List String))
    (interface : Interface) :
    (service.mapRules f).document banner (interface.mapRules f) =
      service.document banner interface := by
  have hmethods : Chapter.ofMethods (service.mapRules f) (interface.mapRules f).methods =
      Chapter.ofMethods service interface.methods :=
    Chapter.ofMethods_mapRules hkeeps interface.methods
  unfold document Document.ofInterface
  rw [hmethods, Reach.types_mapRules, Table.map_snd_mapContents, Chapter.ofTypes_mapRules hkeeps,
    Reach.enums_mapRules]
  rfl

/-! ## Pages -/

namespace Manual

theorem memberObstacles_mapRules (hkeeps : KeepsShown f) (members : List Member) :
    memberObstacles (members.map (Member.mapRules f)) = memberObstacles members := by
  unfold memberObstacles
  rw [List.flatMap_map]
  exact List.flatMap_congr fun member _ => hkeeps.obstacles member.rules

theorem methodObstacles_mapRules (hkeeps : KeepsShown f) (methods : List Method) :
    methodObstacles (methods.map (Method.mapRules f)) = methodObstacles methods := by
  unfold methodObstacles
  rw [sortByText_methods_mapRules, List.flatMap_map]
  refine List.flatMap_congr fun method _ => ?_
  rw [sortByText_parameters_mapRules, memberObstacles_mapRules hkeeps]

theorem obstacles_mapRules (hkeeps : KeepsShown f) (interface : Interface) :
    obstacles (service.mapRules f) (interface.mapRules f) = obstacles service interface := by
  have hmethods : methodObstacles (interface.mapRules f).methods =
      methodObstacles interface.methods := methodObstacles_mapRules hkeeps interface.methods
  have hproperties : ∀ type : ComplexType, memberObstacles (type.mapRules f).properties =
      memberObstacles type.properties := fun type => memberObstacles_mapRules hkeeps type.properties
  simp only [obstacles, hmethods, Reach.types_mapRules, Table.map_snd_mapContents,
    sortByText_types_mapRules, List.flatMap_map, hproperties, Reach.enums_mapRules]
  rfl

theorem page_mapRules (hkeeps : KeepsShown f) (configuration : Configuration) (package : Package)
    (interface : Interface) :
    page (service.mapRules f) configuration package (interface.mapRules f) =
      page service configuration package interface := by
  have hdocument : (service.mapRules f).document (banner? service configuration package)
      (interface.mapRules f) = service.document (banner? service configuration package) interface :=
    Service.document_mapRules hkeeps _ interface
  unfold page
  exact congrArg (Page.mk _) (congrArg Document.text hdocument)

/-- The pages are the same, and can be made from both services or from neither. -/
theorem pages?_mapRules (hkeeps : KeepsShown f) (configuration : Configuration)
    (package : Package) :
    pages? (service.mapRules f) configuration package = pages? service configuration package := by
  have hwritable : (service.mapRules f).interfaces.all (isWritable (service.mapRules f)) =
      service.interfaces.all (isWritable service) := by
    simp only [Service.mapRules, List.all_map]
    refine List.all_congr rfl fun interface => ?_
    exact congrArg List.isEmpty (obstacles_mapRules hkeeps interface)
  have hpages : pages (service.mapRules f) configuration package =
      pages service configuration package := by
    unfold pages
    simp only [Service.mapRules, List.map_map]
    exact List.map_congr_left fun interface _ =>
      page_mapRules hkeeps configuration package interface
  unfold pages?
  rw [hwritable, hpages]

theorem firstObstacle_mapRules (hkeeps : KeepsShown f) :
    firstObstacle (service.mapRules f) = firstObstacle service := by
  have hobstacles : (service.mapRules f).interfaces.flatMap (obstacles (service.mapRules f)) =
      service.interfaces.flatMap (obstacles service) := by
    simp only [Service.mapRules, List.flatMap_map]
    exact List.flatMap_congr fun interface _ => obstacles_mapRules hkeeps interface
  unfold firstObstacle
  rw [hobstacles]

end Manual

/-! ## What is left of a rule -/

namespace Rule

open Raw

/-- A rule is of a known kind. -/
def isKnown (rule : Rule) : Bool :=
  rule.kind?.isSome

/-- What documents show of a rule: nothing if its identifier is unknown, and of one of unknown kind
with a known identifier only the field that the sentence is made from. -/
def shown? : Rule → Option Rule
  | .unknown id extra => (RuleKind.ofId? id).map fun kind => .unknown id
      (extra.filter fun entry => kind.fieldName?.any fun name => entry.1 == .text name)
  | rule => some rule

theorem field?_filter_self (name : String) (entries : List (Scalar × Raw)) :
    field? name (entries.filter fun entry => entry.1 == .text name) = field? name entries := by
  induction entries with
  | nil => rfl
  | cons entry rest ih =>
      by_cases hkey : entry.1 = .text name
      · simp [field?, hkey]
      · simp [field?, hkey, ih]

theorem shown?_of_kind? {rule : Rule} {kind : RuleKind} (h : rule.kind? = some kind) :
    rule.shown? = some rule := by
  cases rule with
  | unknown id extra => cases h
  | limit | uniqueItems | compare | pattern => rfl

theorem bind_shown? (rule : Rule) :
    rule.shown?.bind sentence? = rule.sentence? ∧ rule.shown?.bind obstacle? = rule.obstacle? := by
  cases hkind : rule.kind? with
  | some kind => simp [shown?_of_kind? hkind]
  | none =>
      cases rule with
      | limit | uniqueItems | compare | pattern => cases hkind
      | unknown id extra =>
          cases hid : RuleKind.ofId? id with
          | none => simp [shown?, sentence?, obstacle?, Rule.id, hid]
          | some kind =>
              cases hname : kind.fieldName? with
              | none => simp [shown?, sentence?, obstacle?, Rule.id, hid, hname]
              | some name =>
                  simp [shown?, sentence?, obstacle?, Rule.id, hid, hname, operand?,
                    field?_filter_self]

theorem keepsShown_shown? : KeepsShown (List.filterMap shown?) := by
  constructor
  · intro rules
    rw [List.filterMap_filterMap]
    exact congrArg (fun g => rules.filterMap g) (funext fun rule => (bind_shown? rule).1)
  · intro rules
    rw [List.filterMap_filterMap]
    exact congrArg (fun g => rules.filterMap g) (funext fun rule => (bind_shown? rule).2)

/-- Rules of known kinds are left as they are. -/
theorem filter_isKnown_shown? (rules : List Rule) :
    (rules.filterMap shown?).filter isKnown = rules.filter isKnown := by
  induction rules with
  | nil => rfl
  | cons rule rest ih =>
      cases hkind : rule.kind? with
      | some kind => simp [shown?_of_kind? hkind, isKnown, hkind, ih]
      | none =>
          cases rule with
          | limit | uniqueItems | compare | pattern => cases hkind
          | unknown id extra =>
              cases hid : RuleKind.ofId? id <;> simp [shown?, hid, isKnown, kind?, ih]

end Rule

/-- A service without its rules of unknown kind. -/
def Service.withoutUnknownRules (service : Service) : Service :=
  service.mapRules (List.filter Rule.isKnown)

theorem Interface.mapRules_mapRules (g : List Rule → List Rule) :
    (interface.mapRules f).mapRules g = interface.mapRules (g ∘ f) := by
  simp [Interface.mapRules, Method.mapRules, Member.mapRules, Function.comp_def]

theorem ComplexType.mapRules_mapRules (g : List Rule → List Rule) (type : ComplexType) :
    (type.mapRules f).mapRules g = type.mapRules (g ∘ f) := by
  simp [ComplexType.mapRules, Member.mapRules, Function.comp_def]

theorem Service.mapRules_mapRules (g : List Rule → List Rule) :
    (service.mapRules f).mapRules g = service.mapRules (g ∘ f) := by
  simp [Service.mapRules, Table.mapContents, Function.comp_def, Interface.mapRules_mapRules,
    ComplexType.mapRules_mapRules]

/-- What documents show of a service tells which service it is but for rules of unknown kind. -/
theorem Service.withoutUnknownRules_mapRules (service : Service) :
    (service.mapRules (List.filterMap Rule.shown?)).withoutUnknownRules =
      service.withoutUnknownRules := by
  unfold withoutUnknownRules
  rw [mapRules_mapRules]
  exact congrArg (fun g => service.mapRules g) (funext Rule.filter_isKnown_shown?)

end ServiceManual
