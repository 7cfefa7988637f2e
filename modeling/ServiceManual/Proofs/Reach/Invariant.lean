import ServiceManual.Proofs.Reachability
import ServiceManual.Proofs.SortedTable

/-!
# The invariant of a walk

A walk keeps its trail from one reference to the next, so it is judged against all references that
the walks of its side have been started from: its `roots`.  `Walk.Invariant` says that

* the trail has recorded each followed name under its kind, and nothing else (`Trail.Faithful`);
* every name that was followed or is still on the stack is reached from the roots;
* the names of the roots, and all names that a followed name leads to, are settled: followed,
  standing for nothing, or still on the stack.

Every step keeps it (`Walk.Invariant.step`), hence every run does.  When the stack is empty the
third part says that the followed names are closed under the graph, so they are exactly the
reached names that stand for something (`Walk.Invariant.mem_visited_iff`).
-/

namespace ServiceManual

variable {service : Service}

/-! ## Trails -/

namespace Trail

variable {trail : Trail} {name : String} {entity : Entity}

/-- The tables of a trail hold what these names stand for, each kind its own. -/
structure Holds (service : Service) (trail : Trail) (keys : String → Prop) : Prop where
  types : trail.types.Holds service.types.get? keys
  unions : trail.unions.Holds service.union? keys
  enums : trail.enums.Holds service.enum? keys

/-- A trail has recorded what the names that it visited stand for. -/
structure Faithful (service : Service) (trail : Trail) : Prop where
  nodup : trail.visited.Nodup
  resolved : ∀ name ∈ trail.visited, service.resolve? name ≠ none
  holds : trail.Holds service (· ∈ trail.visited)

/-- Names that stand for nothing do not count. -/
theorem Holds.congr {keys others : String → Prop} (hholds : trail.Holds service keys)
    (hkeys : ∀ name, service.resolve? name ≠ none → (keys name ↔ others name)) :
    trail.Holds service others where
  types := hholds.types.congr fun name type htype =>
    hkeys name (by simp [Service.resolve?_eq_type_iff.mpr htype])
  unions := hholds.unions.congr fun name union hunion =>
    hkeys name (by simp [Service.resolve?_eq_union_iff.mpr hunion])
  enums := hholds.enums.congr fun name enum henum =>
    hkeys name (by simp [Service.resolve?_eq_enum_iff.mpr henum])

theorem faithful_empty : Trail.empty.Faithful service where
  nodup := List.nodup_nil
  resolved := by simp [Trail.empty]
  holds :=
    { types := Table.holds_nil (by simp [Trail.empty])
      unions := Table.holds_nil (by simp [Trail.empty])
      enums := Table.holds_nil (by simp [Trail.empty]) }

/-- A new name goes to the table of its kind and stands for nothing of another kind. -/
theorem Holds.record {keys : String → Prop} (hholds : trail.Holds service keys)
    (hname : service.resolve? name = some entity) (hnew : ¬ keys name) :
    (trail.record name entity).Holds service fun other => other = name ∨ keys other := by
  -- One table grows, and the name is nothing of the other two kinds.
  cases entity with
  | type type =>
      exact
        { types := hholds.types.append_entry (Service.resolve?_eq_type_iff.mp hname) hnew
          unions := hholds.unions.skip (Service.eq_none_of_resolve?
            (fun _ => Service.resolve?_eq_union_iff) hname (by simp))
          enums := hholds.enums.skip (Service.eq_none_of_resolve?
            (fun _ => Service.resolve?_eq_enum_iff) hname (by simp)) }
  | union union =>
      exact
        { types := hholds.types.skip (Service.eq_none_of_resolve?
            (fun _ => Service.resolve?_eq_type_iff) hname (by simp))
          unions := hholds.unions.append_entry (Service.resolve?_eq_union_iff.mp hname) hnew
          enums := hholds.enums.skip (Service.eq_none_of_resolve?
            (fun _ => Service.resolve?_eq_enum_iff) hname (by simp)) }
  | enum enum =>
      exact
        { types := hholds.types.skip (Service.eq_none_of_resolve?
            (fun _ => Service.resolve?_eq_type_iff) hname (by simp))
          unions := hholds.unions.skip (Service.eq_none_of_resolve?
            (fun _ => Service.resolve?_eq_union_iff) hname (by simp))
          enums := hholds.enums.append_entry (Service.resolve?_eq_enum_iff.mp hname) hnew }

theorem Faithful.record (hfaithful : trail.Faithful service)
    (hname : service.resolve? name = some entity) (hnew : name ∉ trail.visited) :
    (trail.record name entity).Faithful service := by
  constructor
  · rw [visited_record]
    exact List.nodup_cons.mpr ⟨hnew, hfaithful.nodup⟩
  · intro other hother
    rw [visited_record, List.mem_cons] at hother
    rcases hother with rfl | hother
    · simp [hname]
    · exact hfaithful.resolved other hother
  · refine (hfaithful.holds.record hname hnew).congr fun other _ => ?_
    rw [visited_record, List.mem_cons]

end Trail

namespace Walk

/-! ## What a step can do -/

/-- The three ways of taking a reference off the stack. -/
inductive Steps (service : Service) : Walk → Walk → Prop
  /-- The reference is primitive or has been followed. -/
  | skip {ref : TypeReference} {rest : List TypeReference} {trail : Trail} {unknown : List String}
      (hold : ref.isPrimitive = true ∨ ref.typeName ∈ trail.visited) :
      Steps service ⟨ref :: rest, trail, unknown⟩ ⟨rest, trail, unknown⟩
  /-- The reference stands for something new. -/
  | record {ref : TypeReference} {rest : List TypeReference} {trail : Trail} {unknown : List String}
      {entity : Entity} (hcomplex : ref.isPrimitive = false) (hnew : ref.typeName ∉ trail.visited)
      (hname : service.resolve? ref.typeName = some entity) :
      Steps service ⟨ref :: rest, trail, unknown⟩
        ⟨entity.children ++ rest, trail.record ref.typeName entity, unknown⟩
  /-- The reference stands for nothing. -/
  | pass {ref : TypeReference} {rest : List TypeReference} {trail : Trail} {unknown : List String}
      (hcomplex : ref.isPrimitive = false) (hnew : ref.typeName ∉ trail.visited)
      (hname : service.resolve? ref.typeName = none) :
      Steps service ⟨ref :: rest, trail, unknown⟩ ⟨rest, trail, unknown ++ [ref.typeName]⟩

theorem step_eq_none_iff {walk : Walk} : walk.step service = none ↔ walk.stack = [] := by
  unfold step
  cases walk.stack <;> simp

theorem steps_of_step {walk next : Walk} (hstep : walk.step service = some next) :
    walk.Steps service next := by
  obtain ⟨stack, trail, unknown⟩ := walk
  cases stack with
  | nil => simp [step] at hstep
  | cons ref rest =>
      simp only [step, follow, Option.some.injEq] at hstep
      subst hstep
      split
      · rename_i hold
        exact .skip (by simpa [Trail.hasVisited] using hold)
      · rename_i hnew
        simp only [Trail.hasVisited, Bool.or_eq_true, List.contains_iff_mem, not_or,
          Bool.not_eq_true] at hnew
        cases hname : service.resolve? ref.typeName with
        | some entity => exact .record hnew.1 hnew.2 hname
        | none => exact .pass hnew.1 hnew.2 hname

/-! ## Settled names -/

variable {walk next : Walk} {roots : List TypeReference} {name : String}

/-- A name has been followed, stands for nothing, or is still on the stack. -/
def Settled (service : Service) (walk : Walk) (name : String) : Prop :=
  name ∈ walk.trail.visited ∨ service.resolve? name = none ∨
    ∃ ref ∈ walk.stack, ref.isPrimitive = false ∧ ref.typeName = name

theorem settled_of_mem_stack {ref : TypeReference} (href : ref ∈ walk.stack)
    (hcomplex : ref.isPrimitive = false) : walk.Settled service ref.typeName :=
  .inr (.inr ⟨ref, href, hcomplex, rfl⟩)

/-- A name stays settled if nothing is forgotten and what was on the stack is settled. -/
theorem Settled.mono (hsettled : walk.Settled service name)
    (hvisited : walk.trail.visited ⊆ next.trail.visited)
    (hstack : ∀ ref ∈ walk.stack, ref.isPrimitive = false → next.Settled service ref.typeName) :
    next.Settled service name := by
  rcases hsettled with hold | hnone | ⟨ref, href, hcomplex, rfl⟩
  · exact .inl (hvisited hold)
  · exact .inr (.inl hnone)
  · exact hstack ref href hcomplex

theorem Settled.step (hsettled : walk.Settled service name) (hsteps : walk.Steps service next) :
    next.Settled service name := by
  -- Only the reference that is taken off the stack needs a reason, another one in each case.
  cases hsteps with
  | @skip ref rest trail unknown hold =>
      refine hsettled.mono (List.Subset.refl _) fun other hother hcomplex => ?_
      rcases List.mem_cons.mp hother with rfl | hother
      · exact .inl (hold.resolve_left (by simp [hcomplex]))
      · exact settled_of_mem_stack hother hcomplex
  | @record ref rest trail unknown entity _ _ hname =>
      refine hsettled.mono ?_ fun other hother hcomplex => ?_
      · rw [Trail.visited_record]
        exact List.subset_cons_self _ _
      · rcases List.mem_cons.mp hother with rfl | hother
        · exact .inl (by simp)
        · exact settled_of_mem_stack (List.mem_append_right _ hother) hcomplex
  | @pass ref rest trail unknown _ _ hname =>
      refine hsettled.mono (List.Subset.refl _) fun other hother hcomplex => ?_
      rcases List.mem_cons.mp hother with rfl | hother
      · exact .inr (.inl hname)
      · exact settled_of_mem_stack hother hcomplex

/-! ## The invariant -/

/-- What holds of a walk before and after every step, when these references are all that its side
has been started from. -/
structure Invariant (service : Service) (roots : List TypeReference) (walk : Walk) : Prop where
  faithful : walk.trail.Faithful service
  visited_reached : ∀ name ∈ walk.trail.visited, service.ReachedFrom roots name
  stack_reached : ∀ ref ∈ walk.stack, ref.isPrimitive = false →
    service.ReachedFrom roots ref.typeName
  roots_settled : ∀ ref ∈ roots, ref.isPrimitive = false → walk.Settled service ref.typeName
  children_settled : ∀ name ∈ walk.trail.visited, ∀ next, service.Leads name next →
    walk.Settled service next

/-- The references of a followed entity are on the stack, so the names it leads to are settled. -/
theorem settled_of_leads {rest : List TypeReference} {trail : Trail} {unknown : List String}
    {entity : Entity} {other : String} (hname : service.resolve? name = some entity)
    (hleads : service.Leads name other) :
    Settled service ⟨entity.children ++ rest, trail, unknown⟩ other := by
  obtain ⟨found, hfound, ref, href, hcomplex, rfl⟩ := Service.exists_child_of_leads hleads
  obtain rfl : entity = found := Option.some.inj (hname.symm.trans hfound)
  exact settled_of_mem_stack (List.mem_append_left _ href) hcomplex

theorem Invariant.step (hinv : walk.Invariant service roots) (hsteps : walk.Steps service next) :
    next.Invariant service roots := by
  have hroots : ∀ ref ∈ roots, ref.isPrimitive = false → next.Settled service ref.typeName :=
    fun ref href hcomplex => (hinv.roots_settled ref href hcomplex).step hsteps
  have hchildren : ∀ name ∈ walk.trail.visited, ∀ other, service.Leads name other →
      next.Settled service other :=
    fun name hname other hleads => (hinv.children_settled name hname other hleads).step hsteps
  cases hsteps with
  | skip _ =>
      exact ⟨hinv.faithful, hinv.visited_reached,
        fun ref href => hinv.stack_reached ref (List.mem_cons_of_mem _ href), hroots, hchildren⟩
  | @record ref rest trail unknown entity hcomplex hnew hname =>
      have hreached : service.ReachedFrom roots ref.typeName :=
        hinv.stack_reached ref List.mem_cons_self hcomplex
      refine ⟨hinv.faithful.record hname hnew, ?_, ?_, hroots, ?_⟩
      · intro name hvisited
        rw [Trail.visited_record, List.mem_cons] at hvisited
        rcases hvisited with rfl | hvisited
        · exact hreached
        · exact hinv.visited_reached name hvisited
      · intro child hchild hcomplex
        rcases List.mem_append.mp hchild with hchild | hchild
        · exact hreached.step (Service.leads_of_mem_children hname hchild hcomplex)
        · exact hinv.stack_reached child (List.mem_cons_of_mem _ hchild) hcomplex
      · -- What the new name leads to is on the stack; the names before it are as they were.
        intro name hvisited other hleads
        rw [Trail.visited_record, List.mem_cons] at hvisited
        rcases hvisited with rfl | hvisited
        · exact settled_of_leads hname hleads
        · exact hchildren name hvisited other hleads
  | pass _ _ _ =>
      exact ⟨hinv.faithful, hinv.visited_reached,
        fun ref href => hinv.stack_reached ref (List.mem_cons_of_mem _ href), hroots, hchildren⟩

theorem Invariant.run (hinv : walk.Invariant service roots) :
    (walk.run service).Invariant service roots := by
  fun_induction Walk.run service walk with
  | case1 walk hstep => exact hinv
  | case2 walk next hstep ih => exact ih (hinv.step (steps_of_step hstep))

/-- A run ends with nothing left to follow. -/
theorem stack_run (service : Service) (walk : Walk) : (walk.run service).stack = [] := by
  fun_induction Walk.run service walk with
  | case1 walk hstep => exact step_eq_none_iff.mp hstep
  | case2 walk next hstep ih => exact ih

/-! ## Finished walks -/

/-- Once nothing is left to follow, the names that were followed are the reached names that stand
for something. -/
theorem Invariant.mem_visited_iff (hinv : walk.Invariant service roots)
    (hdone : walk.stack = []) :
    name ∈ walk.trail.visited ↔
      service.ReachedFrom roots name ∧ service.resolve? name ≠ none := by
  have hover : ∀ {name}, walk.Settled service name →
      name ∈ walk.trail.visited ∨ service.resolve? name = none := by
    rintro name (hvisited | hnone | ⟨ref, href, -⟩)
    · exact .inl hvisited
    · exact .inr hnone
    · simp [hdone] at href
  constructor
  · intro hvisited
    exact ⟨hinv.visited_reached name hvisited, hinv.faithful.resolved name hvisited⟩
  · rintro ⟨hreached, hresolved⟩
    -- Names that stand for nothing were not followed, but they lead nowhere either.
    have hsettled : name ∈ walk.trail.visited ∨ service.resolve? name = none := by
      refine hreached.closed
        (motive := fun name => name ∈ walk.trail.visited ∨ service.resolve? name = none) ?_ ?_
      · exact fun ref href hcomplex => hover (hinv.roots_settled ref href hcomplex)
      · rintro name next (hvisited | hnone) hleads
        · exact hover (hinv.children_settled name hvisited next hleads)
        · obtain ⟨entity, hentity, -⟩ := Service.exists_child_of_leads hleads
          exact absurd (hnone.symm.trans hentity) (by simp)
    exact hsettled.resolve_right hresolved

theorem Invariant.finished (hinv : walk.Invariant service roots) (hdone : walk.stack = []) :
    Invariant service roots ⟨[], walk.trail, []⟩ := by
  obtain ⟨stack, trail, unknown⟩ := walk
  subst hdone
  exact ⟨hinv.faithful, hinv.visited_reached, hinv.stack_reached, hinv.roots_settled,
    hinv.children_settled⟩

theorem Invariant.holds_reached (hinv : walk.Invariant service roots) (hdone : walk.stack = []) :
    walk.trail.Holds service (service.ReachedFrom roots) := by
  refine hinv.faithful.holds.congr fun name hresolved => ?_
  rw [hinv.mem_visited_iff hdone]
  exact and_iff_left hresolved

theorem invariant_empty (unknown : List String) :
    Invariant service [] ⟨[], .empty, unknown⟩ :=
  ⟨Trail.faithful_empty, by simp [Trail.empty], by simp, by simp, by simp [Trail.empty]⟩

theorem Invariant.restart (hinv : walk.Invariant service roots) (hdone : walk.stack = [])
    (ref : TypeReference) (unknown : List String) :
    Invariant service (roots ++ [ref]) ⟨[ref], walk.trail, unknown⟩ := by
  -- The walk was finished, so no name was settled by being on its stack.
  have hkeep : ∀ {name}, walk.Settled service name →
      Settled service ⟨[ref], walk.trail, unknown⟩ name :=
    fun hsettled => hsettled.mono (List.Subset.refl _) (by simp [hdone])
  refine ⟨hinv.faithful, ?_, ?_, ?_, ?_⟩
  · exact fun name hvisited =>
      (hinv.visited_reached name hvisited).mono (List.subset_append_left _ _)
  · intro other hother hcomplex
    exact Service.reachedFrom_of_mem (List.mem_append_right _ hother) hcomplex
  · intro other hother hcomplex
    rcases List.mem_append.mp hother with hother | hother
    · exact hkeep (hinv.roots_settled other hother hcomplex)
    · exact settled_of_mem_stack hother hcomplex
  · exact fun name hvisited next hleads =>
      hkeep (hinv.children_settled name hvisited next hleads)

end Walk

end ServiceManual
