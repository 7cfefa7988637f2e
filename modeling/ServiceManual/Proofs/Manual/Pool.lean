import Mathlib
import ServiceManual.Manual.Pool
import ServiceManual.Proofs.Manual.Saving

/-!
# Workers make the pages in order

Whatever the workers do, the pages come out as one worker makes them (`Manual.builds_iff`).

Each event of a pool moves one task one step further (`Pool.Moves`).  The invariant of a pool
(`Pool.Consistent`) says where the tasks are: every submitted task is at exactly one place, what is
finished is the work on the task at that position, and what has been collected is the work on as
many tasks from the front.  So a result cannot be lost, made twice or taken for another one, since
nothing but its position tells whose result it is.

A pool does not stand still before it is done (`Pool.Consistent.exists_moves`).  As each event
raises the progress of a pool by one, and the progress is bounded, every run comes to an end, and
there is one outcome.
-/

namespace ServiceManual

namespace Pool

variable {α β ε : Type} {tasks : List α} {work : α → Except ε β} {limit : Nat}
  {pool next final : Pool β ε} {event : Event} {events : List Event}

/-! ## What an event does -/

/-- An event takes a pool to the next one. -/
inductive Moves (tasks : List α) (work : α → Except ε β) (limit : Nat) (pool : Pool β ε) :
    Event → Pool β ε → Prop
  | submit (hmore : pool.submitted < tasks.length) :
      Moves tasks work limit pool .submit
        { pool with
          submitted := pool.submitted + 1
          waiting := pool.waiting ++ [pool.submitted] }
  | pick {position : Nat} {rest : List Nat} (hwaiting : pool.waiting = position :: rest)
      (hfree : pool.running.length < limit) :
      Moves tasks work limit pool .pick
        { pool with waiting := rest, running := position :: pool.running }
  | finish {position : Nat} {task : α} (htask : tasks[position]? = some task)
      (hrunning : position ∈ pool.running) :
      Moves tasks work limit pool (.finish position)
        { pool with
          running := pool.running.erase position
          finished := (position, work task) :: pool.finished }
  | collect {result : β} (hall : pool.submitted = tasks.length) (hgoing : pool.failure = none)
      (hnext : pool.finished.lookup pool.collected.length = some (.ok result)) :
      Moves tasks work limit pool .collect { pool with collected := pool.collected ++ [result] }
  | fail {failure : ε} (hall : pool.submitted = tasks.length) (hgoing : pool.failure = none)
      (hnext : pool.finished.lookup pool.collected.length = some (.error failure)) :
      Moves tasks work limit pool .collect { pool with failure := some failure }
  | callOff {position : Nat} (hover : pool.failure.isSome) (hwaiting : position ∈ pool.waiting) :
      Moves tasks work limit pool (.callOff position)
        { pool with
          waiting := pool.waiting.erase position
          calledOff := position :: pool.calledOff }

theorem step_eq_some_iff :
    pool.step tasks work limit event = some next ↔ Moves tasks work limit pool event next := by
  constructor
  · intro hstep
    cases event with
    | submit =>
        obtain ⟨hmore, rfl⟩ : _ ∧ _ := by simpa [step] using hstep
        exact .submit hmore
    | pick =>
        cases hwaiting : pool.waiting with
        | nil => simp [step, hwaiting] at hstep
        | cons position rest =>
            obtain ⟨hfree, rfl⟩ : _ ∧ _ := by simpa [step, hwaiting] using hstep
            exact .pick hwaiting hfree
    | finish position =>
        cases htask : tasks[position]? with
        | none => simp [step, htask] at hstep
        | some task =>
            obtain ⟨hrunning, rfl⟩ : _ ∧ _ := by simpa [step, htask] using hstep
            exact .finish htask hrunning
    -- Collecting takes the next result or stops at it.
    | collect =>
        obtain ⟨⟨hall, hgoing⟩, hnext⟩ : _ ∧ pool.collected? = some next := by
          simpa [step] using hstep
        cases hlookup : pool.finished.lookup pool.collected.length with
        | none => simp [collected?, hlookup] at hnext
        | some result =>
            cases result with
            | ok result =>
                obtain rfl : _ = next := by simpa [collected?, hlookup] using hnext
                exact .collect hall hgoing hlookup
            | error failure =>
                obtain rfl : _ = next := by simpa [collected?, hlookup] using hnext
                exact .fail hall hgoing hlookup
    | callOff position =>
        obtain ⟨⟨hover, hwaiting⟩, rfl⟩ : _ ∧ _ := by simpa [step] using hstep
        exact .callOff hover hwaiting
  · intro hmoves
    cases hmoves with
    | submit hmore => simp [step, hmore]
    | pick hwaiting hfree => simp [step, hwaiting, hfree]
    | finish htask hrunning => simp [step, htask, hrunning]
    | collect hall hgoing hnext => simp [step, collected?, hall, hgoing, hnext]
    | fail hall hgoing hnext => simp [step, collected?, hall, hgoing, hnext]
    | callOff hover hwaiting => simp [step, hover, hwaiting]

theorem run_cons (pool : Pool β ε) (event : Event) (events : List Event) :
    pool.run tasks work limit (event :: events) =
      (pool.step tasks work limit event).bind fun next => next.run tasks work limit events :=
  rfl

/-! ## Where the tasks are -/

/-- The positions of all tasks that have been submitted, by the place where they are. -/
def positions (pool : Pool β ε) : List Nat :=
  pool.finished.map Prod.fst ++ pool.running ++ pool.waiting ++ pool.calledOff

/-- The invariant of a pool. -/
structure Consistent (tasks : List α) (work : α → Except ε β) (limit : Nat) (pool : Pool β ε) :
    Prop where
  submitted_le : pool.submitted ≤ tasks.length
  running_le : pool.running.length ≤ limit
  positions_perm : pool.positions.Perm (List.range pool.submitted)
  finished_eq : ∀ position result, (position, result) ∈ pool.finished →
    tasks[position]?.map work = some result
  collected_eq : (tasks.take pool.collected.length).map work = pool.collected.map .ok
  failure_eq : ∀ failure, pool.failure = some failure →
    tasks[pool.collected.length]?.map work = some (.error failure)
  calledOff_eq : pool.failure = none → pool.calledOff = []

theorem consistent_empty : Consistent tasks work limit {} where
  submitted_le := Nat.zero_le _
  running_le := Nat.zero_le _
  positions_perm := .refl _
  finished_eq := by simp
  collected_eq := rfl
  failure_eq := by simp
  calledOff_eq _ := rfl

theorem mem_of_lookup_eq_some {position : Nat} {result : Except ε β}
    {finished : List (Nat × Except ε β)} (h : finished.lookup position = some result) :
    (position, result) ∈ finished := by
  obtain ⟨before, after, rfl, -⟩ := List.lookup_eq_some_iff.mp h
  simp

theorem Consistent.of_moves (hpool : Consistent tasks work limit pool)
    (hmoves : Moves tasks work limit pool event next) : Consistent tasks work limit next := by
  have hpositions := hpool.positions_perm
  rw [positions] at hpositions
  cases hmoves with
  | submit hmore =>
      refine { hpool with submitted_le := hmore, positions_perm := ?_ }
      rw [positions, List.range_succ]
      refine List.Perm.trans ?_ (hpositions.append_right [pool.submitted])
      simp only [List.append_assoc]
      exact ((List.perm_append_comm.append_left _).append_left _).append_left _
  | @pick position rest hwaiting hfree =>
      refine { hpool with running_le := hfree, positions_perm := ?_ }
      rw [hwaiting] at hpositions
      refine List.Perm.trans ?_ hpositions
      simp only [positions, List.append_assoc, List.cons_append]
      exact List.perm_middle.symm.append_left _
  | @finish position task htask hrunning =>
      refine { hpool with running_le := ?_, positions_perm := ?_, finished_eq := ?_ }
      · exact (List.erase_sublist.length_le).trans hpool.running_le
      · refine List.Perm.trans ?_ hpositions
        have hplace : (position :: pool.running.erase position).Perm pool.running :=
          (List.perm_cons_erase hrunning).symm
        simp only [positions, List.map_cons, List.append_assoc]
        refine List.Perm.trans List.perm_middle.symm ?_
        exact (hplace.append_right _).append_left _
      · intro other result hresult
        rcases List.mem_cons.mp hresult with h | h
        · obtain ⟨rfl, rfl⟩ := Prod.mk.inj h
          rw [htask, Option.map_some]
        · exact hpool.finished_eq other result h
  | @collect result hall hgoing hnext =>
      -- The result collected is the work on the first task of which nothing has been collected.
      have hresult := hpool.finished_eq _ _ (mem_of_lookup_eq_some hnext)
      refine { hpool with collected_eq := ?_, failure_eq := ?_ }
      · rw [List.length_append, List.length_singleton, List.take_add_one, List.map_append,
          List.map_append, hpool.collected_eq]
        obtain ⟨task, htask, hwork⟩ := Option.map_eq_some_iff.mp hresult
        simp [htask, hwork]
      · intro failure hfailure
        rw [hgoing] at hfailure
        cases hfailure
  | @fail failure hall hgoing hnext =>
      have hresult := hpool.finished_eq _ _ (mem_of_lookup_eq_some hnext)
      refine { hpool with failure_eq := ?_, calledOff_eq := ?_ }
      · intro other hother
        obtain rfl := Option.some.inj hother
        exact hresult
      · intro h
        cases h
  | @callOff position hover hwaiting =>
      refine { hpool with positions_perm := ?_, calledOff_eq := ?_ }
      · refine List.Perm.trans ?_ hpositions
        have hplace : (position :: pool.waiting.erase position).Perm pool.waiting :=
          (List.perm_cons_erase hwaiting).symm
        simp only [positions, List.append_assoc]
        refine (List.Perm.append_left _ (List.Perm.append_left _ ?_))
        exact List.perm_middle.trans (hplace.append_right _)
      · intro h
        rw [h] at hover
        cases hover

theorem Consistent.of_run (hpool : Consistent tasks work limit pool)
    (hrun : pool.run tasks work limit events = some final) :
    Consistent tasks work limit final := by
  induction events generalizing pool with
  | nil =>
      obtain rfl := Option.some.inj hrun
      exact hpool
  | cons event rest ih =>
      obtain ⟨next, hstep, hrest⟩ := Option.bind_eq_some_iff.mp hrun
      exact ih (hpool.of_moves (step_eq_some_iff.mp hstep)) hrest

/-! ## Every run comes to an end -/

/-- How far a pool has come.  A task is submitted, picked up and finished, or called off, and its
result is collected or is the failure. -/
def progress (pool : Pool β ε) : Nat :=
  pool.submitted + pool.running.length + 2 * pool.finished.length + pool.calledOff.length +
    pool.collected.length + if pool.failure.isSome then 1 else 0

theorem progress_of_moves (hmoves : Moves tasks work limit pool event next) :
    next.progress = pool.progress + 1 := by
  cases hmoves with
  | submit hmore =>
      simp only [progress]
      omega
  | pick hwaiting hfree =>
      simp only [progress, List.length_cons]
      omega
  | finish htask hrunning =>
      have hlength := List.length_erase_add_one hrunning
      simp only [progress, List.length_cons]
      omega
  | collect hall hgoing hnext =>
      simp only [progress, List.length_append, List.length_singleton]
      omega
  | fail hall hgoing hnext =>
      simp only [progress, hgoing, Option.isSome_some, Option.isSome_none, if_true,
        Bool.false_eq_true, if_false]
  | callOff hover hwaiting =>
      simp only [progress, List.length_cons]
      omega

theorem progress_of_run (hrun : pool.run tasks work limit events = some final) :
    final.progress = pool.progress + events.length := by
  induction events generalizing pool with
  | nil =>
      obtain rfl := Option.some.inj hrun
      rfl
  | cons event rest ih =>
      obtain ⟨next, hstep, hrest⟩ := Option.bind_eq_some_iff.mp hrun
      have hnext := progress_of_moves (step_eq_some_iff.mp hstep)
      have hfinal := ih hrest
      rw [List.length_cons]
      omega

theorem Consistent.collected_le (hpool : Consistent tasks work limit pool) :
    pool.collected.length ≤ tasks.length := by
  have hlength := congrArg List.length hpool.collected_eq
  simp only [List.length_map, List.length_take] at hlength
  omega

/-- A pool cannot come further than four steps with each task. -/
theorem Consistent.progress_le (hpool : Consistent tasks work limit pool) :
    pool.progress ≤ 4 * tasks.length := by
  have hsubmitted := hpool.submitted_le
  have hplaces : pool.finished.length + pool.running.length + pool.waiting.length +
      pool.calledOff.length = pool.submitted := by
    have hlength := hpool.positions_perm.length_eq
    simpa only [positions, List.length_append, List.length_map, List.length_range] using hlength
  have hcollected : pool.collected.length + (if pool.failure.isSome then 1 else 0) ≤
      tasks.length := by
    cases hfailure : pool.failure with
    | none => simpa using hpool.collected_le
    | some failure =>
        obtain ⟨task, htask, -⟩ := Option.map_eq_some_iff.mp (hpool.failure_eq failure hfailure)
        obtain ⟨hlt, -⟩ := List.getElem?_eq_some_iff.mp htask
        simpa using hlt
  rw [progress]
  omega

theorem outcome?_of_failure {failure : ε} (hidle : pool.waiting = [] ∧ pool.running = [])
    (hfailure : pool.failure = some failure) : pool.outcome? tasks = some (.error failure) := by
  rw [outcome?, if_pos hidle, hfailure]

theorem outcome?_of_collected (hidle : pool.waiting = [] ∧ pool.running = [])
    (hgoing : pool.failure = none) (hall : pool.collected.length = tasks.length) :
    pool.outcome? tasks = some (.ok pool.collected) := by
  rw [outcome?, if_pos hidle, hgoing, if_pos hall]

/-- Where nothing else is to be done and no task has failed, the next result is there. -/
theorem Consistent.exists_lookup (hpool : Consistent tasks work limit pool)
    (hidle : pool.waiting = [] ∧ pool.running = []) (hgoing : pool.failure = none)
    (hall : pool.submitted = tasks.length) (hmore : pool.collected.length < tasks.length) :
    ∃ result, pool.finished.lookup pool.collected.length = some result := by
  have hpositions := hpool.positions_perm
  rw [positions, hidle.1, hidle.2, hpool.calledOff_eq hgoing, List.append_nil, List.append_nil,
    List.append_nil, hall] at hpositions
  have hfinished : pool.collected.length ∈ pool.finished.map Prod.fst :=
    hpositions.mem_iff.mpr (List.mem_range.mpr hmore)
  rw [← Option.isSome_iff_exists]
  by_contra hnone
  obtain ⟨⟨position, result⟩, hentry, hposition⟩ := List.mem_map.mp hfinished
  have hdifferent := List.lookup_eq_none_iff.mp (Option.not_isSome_iff_eq_none.mp hnone) _ hentry
  simp [← hposition] at hdifferent

/-- A pool with a worker does not stand still before it is done. -/
theorem Consistent.exists_moves (hpool : Consistent tasks work limit pool) (hlimit : 0 < limit)
    (hopen : pool.outcome? tasks = none) :
    ∃ event next, Moves tasks work limit pool event next := by
  cases hrunning : pool.running with
  | cons position others =>
      have hmem : position ∈ pool.running := hrunning ▸ List.mem_cons_self
      have hposition : position ∈ List.range pool.submitted := by
        refine hpool.positions_perm.mem_iff.mp ?_
        simp [positions, hmem]
      have hlt : position < tasks.length :=
        (List.mem_range.mp hposition).trans_le hpool.submitted_le
      exact ⟨_, _, .finish (List.getElem?_eq_getElem hlt) hmem⟩
  | nil =>
      cases hwaiting : pool.waiting with
      | cons position rest =>
          exact ⟨_, _, .pick hwaiting (by rwa [hrunning, List.length_nil])⟩
      | nil =>
          -- Where nothing waits or runs, a task is submitted or the next result is collected.
          have hidle : pool.waiting = [] ∧ pool.running = [] := ⟨hwaiting, hrunning⟩
          have hgoing : pool.failure = none := by
            by_contra hfailure
            obtain ⟨failure, hfailure⟩ := Option.ne_none_iff_exists'.mp hfailure
            rw [outcome?_of_failure hidle hfailure] at hopen
            cases hopen
          by_cases hmore : pool.submitted < tasks.length
          · exact ⟨_, _, .submit hmore⟩
          · have hall : pool.submitted = tasks.length :=
              Nat.le_antisymm hpool.submitted_le (Nat.le_of_not_lt hmore)
            have hcollected : pool.collected.length ≠ tasks.length := by
              intro h
              rw [outcome?_of_collected hidle hgoing h] at hopen
              cases hopen
            obtain ⟨result, hnext⟩ := hpool.exists_lookup hidle hgoing hall
              (Nat.lt_of_le_of_ne hpool.collected_le hcollected)
            cases result with
            | ok result => exact ⟨_, _, .collect hall hgoing hnext⟩
            | error failure => exact ⟨_, _, .fail hall hgoing hnext⟩

theorem Consistent.exists_run (hpool : Consistent tasks work limit pool) (hlimit : 0 < limit) :
    ∃ events final outcome, pool.run tasks work limit events = some final ∧
      final.outcome? tasks = some outcome := by
  -- Each event takes the pool nearer to the bound of its progress.
  induction hleft : 4 * tasks.length - pool.progress using Nat.strong_induction_on
    generalizing pool with
  | _ left ih =>
      cases hopen : pool.outcome? tasks with
      | some outcome => exact ⟨[], pool, outcome, rfl, hopen⟩
      | none =>
          obtain ⟨event, next, hmoves⟩ := hpool.exists_moves hlimit hopen
          have hnext : Consistent tasks work limit next := hpool.of_moves hmoves
          have hprogress := progress_of_moves hmoves
          have hbound := hnext.progress_le
          obtain ⟨events, final, outcome, hrun, hends⟩ :=
            ih (4 * tasks.length - next.progress) (by omega) hnext rfl
          refine ⟨event :: events, final, outcome, ?_, hends⟩
          rw [run_cons, step_eq_some_iff.mpr hmoves, Option.bind_some, hrun]

/-! ## There is one outcome -/

theorem mapM_of_map_eq_map_ok {results : List β} (h : tasks.map work = results.map .ok) :
    tasks.mapM work = .ok results := by
  induction tasks generalizing results with
  | nil =>
      obtain rfl : results = [] := by simpa using h.symm
      rfl
  | cons task rest ih =>
      cases results with
      | nil => simp at h
      | cons result more =>
          obtain ⟨hwork, hrest⟩ := List.cons.inj h
          rw [List.mapM_cons, hwork, ih hrest]
          rfl

theorem mapM_eq_error_of_getElem? {results : List β} {failure : ε}
    (hbefore : (tasks.take results.length).map work = results.map .ok)
    (hfailure : tasks[results.length]?.map work = some (.error failure)) :
    tasks.mapM work = .error failure := by
  obtain ⟨task, htask, hwork⟩ := Option.map_eq_some_iff.mp hfailure
  obtain ⟨hlt, rfl⟩ := List.getElem?_eq_some_iff.mp htask
  calc tasks.mapM work
      = (tasks.take results.length ++ tasks[results.length] ::
          tasks.drop (results.length + 1)).mapM work := by
        rw [← List.drop_eq_getElem_cons hlt, List.take_append_drop]
    _ = .error failure := by
        rw [List.mapM_append, mapM_of_map_eq_map_ok hbefore, List.mapM_cons, hwork]
        rfl

theorem Consistent.outcome_eq (hpool : Consistent tasks work limit pool)
    {outcome : Except ε (List β)} (hends : pool.outcome? tasks = some outcome) :
    outcome = tasks.mapM work := by
  have hidle : pool.waiting = [] ∧ pool.running = [] := by
    by_contra hbusy
    rw [outcome?, if_neg hbusy] at hends
    cases hends
  -- What was collected comes from the first tasks, and a failure from the next one.
  cases hfailure : pool.failure with
  | some failure =>
      rw [outcome?_of_failure hidle hfailure] at hends
      rw [mapM_eq_error_of_getElem? hpool.collected_eq (hpool.failure_eq failure hfailure)]
      exact (Option.some.inj hends).symm
  | none =>
      have hall : pool.collected.length = tasks.length := by
        by_contra hmore
        simp [outcome?, hidle, hfailure, hmore] at hends
      rw [outcome?_of_collected hidle hfailure hall] at hends
      have hcollected := hpool.collected_eq
      rw [hall, List.take_length] at hcollected
      rw [mapM_of_map_eq_map_ok hcollected]
      exact (Option.some.inj hends).symm

end Pool

namespace Manual

open Pool

variable (service : Service) (configuration : Configuration) (package : Package)

/-! ## Pages of a service -/

theorem inOrder_withWorkers (workers : Int) :
    inOrder service (configuration.withWorkers workers) package =
      inOrder service configuration package :=
  rfl

theorem page?_of_isWritable {interface : Interface} (h : isWritable service interface = true) :
    page? service configuration package interface =
      .ok (page service configuration package interface) := by
  rw [isWritable, List.isEmpty_iff] at h
  rw [page?, h]

theorem mapM_page?_of_all {interfaces : List Interface}
    (h : interfaces.all (isWritable service) = true) :
    interfaces.mapM (page? service configuration package) =
      .ok (interfaces.map (page service configuration package)) := by
  refine mapM_of_map_eq_map_ok ?_
  rw [List.map_map]
  refine List.map_congr_left fun interface hinterface => ?_
  exact page?_of_isWritable service configuration package (List.all_eq_true.mp h _ hinterface)

/-- Where something keeps the pages from being made, it is what is met first of all. -/
theorem mapM_page?_of_not_all {interfaces : List Interface}
    (h : ¬ interfaces.all (isWritable service) = true) :
    interfaces.mapM (page? service configuration package) =
      .error ((interfaces.flatMap (obstacles service)).head?.getD .unwritable) := by
  induction interfaces with
  | nil => simp at h
  | cons interface rest ih =>
      rw [List.mapM_cons, List.flatMap_cons]
      cases hobstacles : obstacles service interface with
      | cons obstacle more =>
          rw [page?, hobstacles]
          rfl
      | nil =>
          -- This page can be made, so what is met first is met in the others.
          have hwritable : isWritable service interface = true := by
            rw [isWritable, hobstacles, List.isEmpty_nil]
          have hrest : ¬ rest.all (isWritable service) = true := by
            simpa [hwritable] using h
          rw [page?_of_isWritable service configuration package hwritable, ih hrest,
            List.nil_append]
          rfl

theorem inOrder_eq :
    inOrder service configuration package =
      match pages? service configuration package with
      | some pages => .ok pages
      | none => .error (firstObstacle service) := by
  by_cases hall : service.interfaces.all (isWritable service) = true
  · rw [pages?, if_pos hall]
    exact mapM_page?_of_all service configuration package hall
  · rw [pages?, if_neg hall]
    exact mapM_page?_of_not_all service configuration package hall

variable {service configuration package}

/-- The pages can come out in no other way than one after the other. -/
theorem Builds.eq_inOrder {outcome : Except Obstacle (List Page)}
    (h : Builds service configuration package outcome) :
    outcome = inOrder service configuration package := by
  cases h with
  | alone hfew => rfl
  | together hworkers hmany hrun hends => exact (consistent_empty.of_run hrun).outcome_eq hends

variable (service configuration package)

theorem exists_builds : ∃ outcome, Builds service configuration package outcome := by
  by_cases hworkers : 1 < configuration.settings.maxWorkers
  · by_cases hmany : 1 < service.interfaces.length
    · have hlimit : 0 < configuration.settings.maxWorkers.toNat := by omega
      have hempty : Consistent service.interfaces (page? service configuration package)
          configuration.settings.maxWorkers.toNat {} := consistent_empty
      obtain ⟨events, pool, outcome, hrun, hends⟩ := hempty.exists_run hlimit
      exact ⟨outcome, .together hworkers hmany hrun hends⟩
    · exact ⟨_, .alone (.inr (Nat.le_of_not_lt hmany))⟩
  · exact ⟨_, .alone (.inl (Int.not_lt.mp hworkers))⟩

/-- **Workers make the pages that one worker makes.**  Whatever the number of workers and whenever
they pick up and finish their interfaces, the pages of a service come out as with one worker, and
in no other way: one page for each interface, in the order of the description, or else what is met
first that keeps a page from being made.  The workers come to an end: no run has more than four
events for each interface, and until it is done some event is possible. -/
theorem builds_iff :
    (∀ outcome, Builds service configuration package outcome ↔
        outcome = inOrder service (configuration.withWorkers 1) package) ∧
      inOrder service (configuration.withWorkers 1) package =
        (match pages? service configuration package with
        | some pages => .ok pages
        | none => .error (firstObstacle service)) ∧
      (∀ pages, pages? service configuration package = some pages →
        pages = service.interfaces.map (page service configuration package)) ∧
      ∀ events pool, 1 < configuration.settings.maxWorkers →
        Pool.run service.interfaces (page? service configuration package)
          configuration.settings.maxWorkers.toNat {} events = some pool →
        events.length ≤ 4 * service.interfaces.length ∧
          (pool.outcome? service.interfaces = none →
            ∃ event next, pool.step service.interfaces (page? service configuration package)
              configuration.settings.maxWorkers.toNat event = some next) := by
  refine ⟨fun outcome => ⟨fun h => ?_, fun h => ?_⟩, ?_, fun pages hpages => ?_,
    fun events pool hworkers hrun => ⟨?_, fun hopen => ?_⟩⟩
  · rw [inOrder_withWorkers]
    exact h.eq_inOrder
  -- There is some way in which the pages come out, and it can only be this one.
  · obtain ⟨built, hbuilt⟩ := exists_builds service configuration package
    rw [h, inOrder_withWorkers, ← hbuilt.eq_inOrder]
    exact hbuilt
  · rw [inOrder_withWorkers, inOrder_eq]
  · rw [pages?] at hpages
    split at hpages
    · exact (Option.some.inj hpages).symm
    · cases hpages
  · have hbound := (consistent_empty.of_run hrun).progress_le
    rw [progress_of_run hrun] at hbound
    omega
  · obtain ⟨event, next, hmoves⟩ :=
      (consistent_empty.of_run hrun).exists_moves (by omega) hopen
    exact ⟨event, next, step_eq_some_iff.mpr hmoves⟩

/-- Two workers. -/
def twoWorkers : Configuration where
  banner := false
  settings := { maxWorkers := 2 }

/-- A run in which the second interface is finished first. -/
def overtaking : List Pool.Event :=
  [.submit, .submit, .pick, .pick, .finish 1, .finish 0, .collect, .collect]

/-- The page on stores is finished first, and comes second nevertheless. -/
theorem pages_of_two_workers :
    ∃ pool outcome,
      Pool.run (serviceOf ["pet", "store"]).interfaces
          (page? (serviceOf ["pet", "store"]) twoWorkers Package.default) 2 {} overtaking =
        some pool ∧
      pool.outcome? (serviceOf ["pet", "store"]).interfaces = some outcome ∧
      overtaking.length ≤ 4 * 2 ∧
      Builds (serviceOf ["pet", "store"]) twoWorkers Package.default outcome ∧
      outcome = .ok (plainPages ["pet", "store"]) := by
  have hends : ((Pool.run (serviceOf ["pet", "store"]).interfaces
      (page? (serviceOf ["pet", "store"]) twoWorkers Package.default) 2 {} overtaking).bind
        (Pool.outcome? (serviceOf ["pet", "store"]).interfaces)).isSome = true := by
    decide +kernel
  obtain ⟨outcome, houtcome⟩ := Option.isSome_iff_exists.mp hends
  obtain ⟨pool, hrun, hdone⟩ := Option.bind_eq_some_iff.mp houtcome
  have hbuilds : Builds (serviceOf ["pet", "store"]) twoWorkers Package.default outcome :=
    .together (by decide) (by decide) hrun hdone
  have hpages : pages? (serviceOf ["pet", "store"]) twoWorkers Package.default =
      some (plainPages ["pet", "store"]) := by
    rw [pages?, if_pos (by decide +kernel)]
    rfl
  obtain ⟨hall, hpages_eq, -, hbounded⟩ :=
    builds_iff (serviceOf ["pet", "store"]) twoWorkers Package.default
  refine ⟨pool, outcome, hrun, hdone, (hbounded _ _ (by decide) hrun).1, hbuilds, ?_⟩
  rw [(hall outcome).mp hbuilds, hpages_eq, hpages]

end Manual

end ServiceManual
