import Mathlib.Data.Finset.Card
import ServiceManual.Proofs.Reach.Exact

/-!
# Walks under way

The walks of one side follow each other.  One begins with one reference on an empty stack and with
the trail that the walks before it have left, and makes its steps until the stack is empty again
(`Walk.Goes`).  What can be come to in this way, from an empty trail and with any references to
begin with, is a walk under way (`Walk.Underway`), in the middle of any walk of the side.

At every moment the names that have been visited are the names of the three tables, each once, and
no reference of a recorded entity is forgotten: what it names has been visited or stands for
nothing, or the reference is still on the stack (`Walk.Orderly`).  Every step leaves fewer names of
the service that are not visited, or as many and a shorter stack (`Walk.remaining_lt`).  A name is
visited when the references of its entity are put on the stack, and it stays visited from one walk
to the next, so this happens once for a side (`Walk.Pushes.not_again`).
-/

namespace ServiceManual

open Relation (ReflTransGen)

variable {service : Service}

/-! ## Recorded entities -/

namespace Trail

/-- What has been recorded, of all three kinds. -/
def entities (trail : Trail) : List (String × Entity) :=
  trail.types.map (fun entry => (entry.1, .type entry.2)) ++
    trail.unions.map (fun entry => (entry.1, .union entry.2)) ++
    trail.enums.map fun entry => (entry.1, .enum entry.2)

theorem map_fst_entities (trail : Trail) : trail.entities.map Prod.fst =
    trail.types.names ++ trail.unions.names ++ trail.enums.names := by
  simp [entities, Table.names, Function.comp_def]

theorem entities_record (trail : Trail) (name : String) (entity : Entity) :
    (trail.record name entity).entities.Perm ((name, entity) :: trail.entities) := by
  cases entity with
  | type type =>
      simp only [record, entities, List.map_append, List.map_singleton, List.append_assoc]
      exact List.perm_middle
  | union union =>
      simp only [record, entities, List.map_append, List.map_singleton, List.append_assoc]
      rw [← List.append_assoc, List.singleton_append]
      refine List.perm_middle.trans ?_
      rw [List.append_assoc]
  | enum enum =>
      simp only [record, entities, List.map_append, List.map_singleton]
      rw [← List.append_assoc]
      exact List.perm_append_singleton _ _

end Trail

namespace Walk

variable {walk next later last : Walk} {name : String}

/-! ## What holds at every moment -/

/-- A reference is accounted for: what it names has been visited or stands for nothing, or it is
still on the stack. -/
def Accounts (service : Service) (walk : Walk) (ref : TypeReference) : Prop :=
  ref.typeName ∈ walk.trail.visited ∨ service.resolve? ref.typeName = none ∨ ref ∈ walk.stack

/-- The visited names are those that have been recorded, each once, and all references of what has
been recorded are accounted for. -/
structure Orderly (service : Service) (walk : Walk) : Prop where
  nodup : walk.trail.visited.Nodup
  visited : walk.trail.visited.Perm
    (walk.trail.types.names ++ walk.trail.unions.names ++ walk.trail.enums.names)
  resolved : ∀ entry ∈ walk.trail.entities, service.resolve? entry.1 = some entry.2
  children : ∀ entry ∈ walk.trail.entities, ∀ ref ∈ entry.2.children, ref.isPrimitive = false →
    walk.Accounts service ref

/-- A reference is taken off the stack only when it is accounted for otherwise. -/
theorem Accounts.step {ref : TypeReference} (h : walk.Accounts service ref)
    (hcomplex : ref.isPrimitive = false) (hsteps : walk.Steps service next) :
    next.Accounts service ref := by
  rcases h with hvisited | hnone | hstack
  · cases hsteps with
    | skip | pass => exact .inl hvisited
    | record => exact .inl (by simp [List.mem_cons_of_mem _ hvisited])
  · exact .inr (.inl hnone)
  · cases hsteps with
    -- It is not primitive, so it is skipped because it has been visited.
    | skip hold =>
        rcases List.mem_cons.mp hstack with rfl | hrest
        · exact .inl (hold.resolve_left (by simp [hcomplex]))
        · exact .inr (.inr hrest)
    | record =>
        rcases List.mem_cons.mp hstack with rfl | hrest
        · exact .inl (by simp)
        · exact .inr (.inr (List.mem_append_right _ hrest))
    | pass _ _ hname =>
        rcases List.mem_cons.mp hstack with rfl | hrest
        · exact .inr (.inl hname)
        · exact .inr (.inr hrest)

theorem orderly_empty (unknown : List String) : Orderly service ⟨[], .empty, unknown⟩ :=
  ⟨List.nodup_nil, .refl _, by simp [Trail.empty, Trail.entities],
    by simp [Trail.empty, Trail.entities]⟩

theorem Orderly.step (h : walk.Orderly service) (hsteps : walk.Steps service next) :
    next.Orderly service := by
  have hchildren : ∀ entry ∈ walk.trail.entities, ∀ ref ∈ entry.2.children,
      ref.isPrimitive = false → next.Accounts service ref :=
    fun entry hentry ref href hcomplex =>
      (h.children entry hentry ref href hcomplex).step hcomplex hsteps
  cases hsteps with
  -- Nothing is recorded, and only the references of what was recorded may have been lost.
  | skip | pass => exact ⟨h.nodup, h.visited, h.resolved, hchildren⟩
  | @record ref rest trail unknown entity _ hnew hname =>
      have hentities := trail.entities_record ref.typeName entity
      refine ⟨?_, ?_, ?_, ?_⟩
      · rw [Trail.visited_record]
        exact List.nodup_cons.mpr ⟨hnew, h.nodup⟩
      · have hkeys := hentities.map Prod.fst
        rw [Trail.map_fst_entities, List.map_cons, Trail.map_fst_entities] at hkeys
        rw [Trail.visited_record]
        exact (h.visited.cons _).trans hkeys.symm
      · intro entry hentry
        rcases List.mem_cons.mp (hentities.mem_iff.mp hentry) with rfl | hentry
        · exact hname
        · exact h.resolved entry hentry
      · intro entry hentry
        rcases List.mem_cons.mp (hentities.mem_iff.mp hentry) with rfl | hentry
        -- The references of the new entity have just been put on the stack.
        · exact fun ref href _ => .inr (.inr (List.mem_append_left _ href))
        · exact hchildren entry hentry

theorem Orderly.restart {trail : Trail} {unknown : List String}
    (h : Orderly service ⟨[], trail, unknown⟩) (ref : TypeReference) (names : List String) :
    Orderly service ⟨[ref], trail, names⟩ :=
  ⟨h.nodup, h.visited, h.resolved, fun entry hentry child hchild hcomplex =>
    (h.children entry hentry child hchild hcomplex).imp_right fun hrest => hrest.imp_right nofun⟩

/-! ## What a step leaves -/

/-- The number of names of the service that have not been visited, and the length of the stack. -/
def remaining (service : Service) (walk : Walk) : ℕ × ℕ :=
  ((service.entityNames.toFinset \ walk.trail.visited.toFinset).card, walk.stack.length)

theorem remaining_lt (hsteps : walk.Steps service next) :
    Prod.Lex (· < ·) (· < ·) (next.remaining service) (walk.remaining service) := by
  cases hsteps with
  | skip | pass => exact .right _ (Nat.lt_succ_self _)
  | @record ref rest trail unknown entity _ hnew hname =>
      refine .left _ _ (Finset.card_lt_card ?_)
      rw [Trail.visited_record, List.toFinset_cons]
      have hsubset := Finset.sdiff_subset_sdiff (Finset.Subset.refl service.entityNames.toFinset)
        (Finset.subset_insert ref.typeName trail.visited.toFinset)
      refine (Finset.ssubset_iff_of_subset hsubset).mpr ⟨ref.typeName, ?_, by simp⟩
      simp [Service.mem_entityNames_of_resolve? hname, hnew]

theorem steps_run (service : Service) (walk : Walk) :
    ReflTransGen (fun walk next => walk.step service = some next) walk (walk.run service) := by
  fun_induction Walk.run service walk with
  | case1 walk hstep => exact .refl
  | case2 walk next hstep ih => exact .head hstep ih

/-! ## One walk after another -/

/-- How the walks of a side go on: by a step, or with the next reference when the stack is empty.
The names that stand for nothing are noted for both sides together, so they may have become other
ones in between. -/
inductive Goes (service : Service) : Walk → Walk → Prop
  | step {walk next : Walk} (hstep : walk.step service = some next) : Goes service walk next
  | begin {trail : Trail} {unknown : List String} (ref : TypeReference) (names : List String) :
      Goes service ⟨[], trail, unknown⟩ ⟨[ref], trail, names⟩

/-- A moment in the walks of a side. -/
def Underway (service : Service) (walk : Walk) : Prop :=
  ∃ unknown, ReflTransGen (Goes service) ⟨[], .empty, unknown⟩ walk

theorem Underway.orderly (h : walk.Underway service) : walk.Orderly service := by
  obtain ⟨unknown, hgoes⟩ := h
  induction hgoes with
  | refl => exact orderly_empty unknown
  | tail _ hgoes ih =>
      cases hgoes with
      | step hstep => exact ih.step (steps_of_step hstep)
      | begin ref names => exact ih.restart ref names

theorem Underway.run (h : walk.Underway service) : (walk.run service).Underway service := by
  obtain ⟨unknown, hgoes⟩ := h
  exact ⟨unknown, hgoes.trans
    (ReflTransGen.mono (fun _ _ hstep => Goes.step hstep) _ _ (steps_run service walk))⟩

theorem visited_subset (h : ReflTransGen (Goes service) walk next) :
    walk.trail.visited ⊆ next.trail.visited := by
  induction h with
  | refl => exact List.Subset.refl _
  | tail _ hgoes ih =>
      cases hgoes with
      | step hstep =>
          cases steps_of_step hstep with
          | skip | pass => exact ih
          | record =>
              rw [Trail.visited_record]
              exact List.Subset.trans ih (List.subset_cons_self _ _)
      | begin => exact ih

/-! ## References are put on the stack once -/

/-- A step that takes a name off the stack and puts there the references of what it stands for. -/
def Pushes (service : Service) (walk : Walk) (name : String) (next : Walk) : Prop :=
  walk.step service = some next ∧ ∃ ref rest entity, walk.stack = ref :: rest ∧
    ref.typeName = name ∧ service.resolve? name = some entity ∧ entity.children ≠ [] ∧
    next.stack = entity.children ++ rest

theorem Pushes.visited (h : walk.Pushes service name next) :
    name ∉ walk.trail.visited ∧ name ∈ next.trail.visited := by
  obtain ⟨hstep, ref, rest, entity, hstack, rfl, hname, hchildren, hpushed⟩ := h
  cases steps_of_step hstep with
  | skip =>
      obtain ⟨-, rfl⟩ := List.cons.inj hstack
      exact absurd (List.self_eq_append_left.mp hpushed) hchildren
  | record _ hnew =>
      obtain ⟨rfl, -⟩ := List.cons.inj hstack
      exact ⟨hnew, by simp⟩
  | pass _ _ hnone =>
      obtain ⟨rfl, -⟩ := List.cons.inj hstack
      cases hnone.symm.trans hname

/-- What has been put on the stack is never put there again. -/
theorem Pushes.not_again (h : walk.Pushes service name next)
    (hlater : ReflTransGen (Goes service) next later) : ¬ later.Pushes service name last :=
  fun hagain => hagain.visited.1 (visited_subset hlater h.visited.2)

end Walk

/-! ## The sides of an interface -/

namespace Reach

/-- What following a reference on either side keeps holds of what an interface reaches. -/
theorem ofInterface_induction {motive : Reach → Prop} (hempty : motive .empty)
    (hinput : ∀ reach ref, motive reach → motive (reach.followInput service ref))
    (houtput : ∀ reach ref, motive reach → motive (reach.followOutput service ref))
    (interface : Interface) : motive (ofInterface service interface) := by
  -- From reference to reference, and so from method to method.
  have hinputs : ∀ (refs : List TypeReference) (reach : Reach), motive reach →
      motive (refs.foldl (followInput service) reach) := by
    intro refs
    induction refs with
    | nil => exact fun reach h => h
    | cons ref rest ih => exact fun reach h => ih _ (hinput reach ref h)
  have hmethods : ∀ (methods : List Method) (reach : Reach), motive reach →
      motive (methods.foldl (followMethod service) reach) := by
    intro methods
    induction methods with
    | nil => exact fun reach h => h
    | cons method rest ih =>
        refine fun reach h => ih _ ?_
        have hparameters := hinputs (method.parameters.map Member.value) reach h
        unfold followMethod
        cases method.returns with
        | none => exact hparameters
        | some returns => exact houtput _ _ hparameters
  exact hmethods interface.methods .empty hempty

/-- The walks of a side, and in the end there is nothing left to follow. -/
def IsWalked (service : Service) (trail : Trail) : Prop :=
  ∃ unknown, Walk.Underway service ⟨[], trail, unknown⟩

theorem IsWalked.run {trail : Trail} (h : IsWalked service trail) (ref : TypeReference)
    (names : List String) : IsWalked service (Walk.run service ⟨[ref], trail, names⟩).trail := by
  obtain ⟨unknown, start, hgoes⟩ := h
  have hbegun : Walk.Underway service ⟨[ref], trail, names⟩ :=
    ⟨start, hgoes.tail (.begin ref names)⟩
  have hrun := hbegun.run
  have hdone := Walk.stack_run service ⟨[ref], trail, names⟩
  generalize Walk.run service ⟨[ref], trail, names⟩ = walk at hrun hdone
  obtain ⟨stack, trail, unknown⟩ := walk
  subst hdone
  exact ⟨unknown, hrun⟩

theorem isWalked_ofInterface (service : Service) (interface : Interface) :
    IsWalked service (ofInterface service interface).input ∧
      IsWalked service (ofInterface service interface).output := by
  have hempty : IsWalked service .empty := ⟨[], [], .refl⟩
  refine ofInterface_induction (motive := fun reach =>
    IsWalked service reach.input ∧ IsWalked service reach.output) ⟨hempty, hempty⟩ ?_ ?_ interface
  · exact fun reach ref h => ⟨h.1.run ref reach.unknown, h.2⟩
  · exact fun reach ref h => ⟨h.1, h.2.run ref reach.unknown⟩

end Reach

/-- **Walks under way.**  At every moment in the walks of a side the visited names are those of the
three tables, and the references of what is recorded are accounted for.  A step leaves less to do,
so the walk comes to its end.  What has been put on the stack once is not put there again, by this
walk or a later one.  The sides of every interface come from such walks. -/
theorem Walk.underway_orderly (service : Service) (walk : Walk) (h : walk.Underway service) :
    walk.Orderly service ∧
      (∀ next, walk.step service = some next →
        Prod.Lex (· < ·) (· < ·) (next.remaining service) (walk.remaining service)) ∧
      (ReflTransGen (fun walk next => walk.step service = some next) walk (walk.run service) ∧
        (walk.run service).stack = []) ∧
      (∀ name next later last, walk.Pushes service name next →
        ReflTransGen (Walk.Goes service) next later → ¬ later.Pushes service name last) ∧
      ∀ interface, Reach.IsWalked service (Reach.ofInterface service interface).input ∧
        Reach.IsWalked service (Reach.ofInterface service interface).output :=
  ⟨h.orderly, fun _ hstep => remaining_lt (steps_of_step hstep),
    ⟨steps_run service walk, stack_run service walk⟩,
    fun _ _ _ _ hpushes hlater => hpushes.not_again hlater, Reach.isWalked_ofInterface service⟩

/-- A type that leads to itself and to nothing. -/
def ringType : ComplexType :=
  ⟨"Ring", [], [⟨"next", true, [], [], ⟨.complex, "Ring", false⟩⟩,
    ⟨"lost", true, [], [], ⟨.complex, "Gone", false⟩⟩], none⟩

def ringService : Service where
  title := "Rings"
  majorVersion := 1
  sourcePath := none
  interfaces := []
  types := [("Ring", ringType)]
  enums := []
  unions := []

/-- A walk that begins with the ring. -/
def ringWalk : Walk :=
  ⟨[⟨.complex, "Ring", false⟩], .empty, []⟩

/-- That walk after its first step. -/
def ringFollowed : Walk :=
  ⟨ringType.properties.map Member.value, Trail.empty.record "Ring" (.type ringType), []⟩

/-- The references of the ring are put on the stack at the first step and never again, although one
of them leads back. -/
theorem ring_put_once : ringWalk.Underway ringService ∧ ringFollowed.Underway ringService ∧
    ringWalk.Pushes ringService "Ring" ringFollowed ∧
    (∀ later last, ReflTransGen (Walk.Goes ringService) ringFollowed later →
      ¬ later.Pushes ringService "Ring" last) ∧
    ringFollowed.Orderly ringService ∧ (ringFollowed.run ringService).stack = [] := by
  have hbegin : ringWalk.Underway ringService := ⟨[], .single (.begin _ _)⟩
  have hstep : ringWalk.step ringService = some ringFollowed := by rfl
  have hpushes : ringWalk.Pushes ringService "Ring" ringFollowed :=
    ⟨hstep, _, _, .type ringType, rfl, rfl, rfl, List.cons_ne_nil _ _, rfl⟩
  have hnext : ringFollowed.Underway ringService := ⟨[], .tail (.single (.begin _ _)) (.step hstep)⟩
  obtain ⟨-, -, -, hagain, -⟩ := Walk.underway_orderly ringService _ hbegin
  obtain ⟨horderly, -, ⟨-, hends⟩, -, -⟩ := Walk.underway_orderly ringService _ hnext
  exact ⟨hbegin, hnext, hpushes, fun later last => hagain "Ring" _ later last hpushes, horderly,
    hends⟩

end ServiceManual
