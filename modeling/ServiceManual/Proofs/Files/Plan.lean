import ServiceManual.Files.Plan

/-!
# What plans do

What a plan comes to, apart from notes and complaints, is its result, the lines that it prints, and
the file tree that it leaves (`Plan.effect`).  Hushing a plan changes none of these
(`Plan.effect_hush`), and a plan that begins with nothing but questions comes to what it goes on
with (`Plan.OnlyAsks.effect_bind`).  What is heard of a hushed plan does not hang on the details of
what is said (`Plan.map_brief_run_hush`).
-/

namespace ServiceManual

/-- The line that an utterance prints. -/
def Utterance.output? : Utterance → Option String
  | .output text => some text
  | _ => none

/-- The lines that are printed among everything that is said. -/
def printed (said : List Utterance) : List String :=
  said.filterMap Utterance.output?

@[simp] theorem printed_nil : printed [] = [] := rfl

theorem printed_append (said more : List Utterance) :
    printed (said ++ more) = printed said ++ printed more :=
  List.filterMap_append

namespace Plan

variable {α β : Type} {plan : Plan α} {next : α → Plan β}

/-- What a plan comes to, apart from notes and complaints. -/
structure Effect (α : Type) where
  result : α
  printed : List String
  tree : FileTree

/-- What a plan comes to on a file tree, apart from notes and complaints. -/
def effect (plan : Plan α) (tree : FileTree) : Effect α :=
  ⟨(plan.run tree).result, printed (plan.run tree).said, (plan.run tree).tree⟩

theorem effect_done (result : α) (tree : FileTree) :
    (Plan.done result).effect tree = ⟨result, [], tree⟩ := rfl

/-- One plan after another prints the lines of both. -/
theorem effect_bind (plan : Plan α) (next : α → Plan β) (tree : FileTree) :
    (plan.bind next).effect tree =
      let rest := (next (plan.effect tree).result).effect (plan.effect tree).tree
      ⟨rest.result, (plan.effect tree).printed ++ rest.printed, rest.tree⟩ := by
  rw [effect, run_bind, printed_append]
  rfl

theorem effect_print_bind (text : String) (next : Unit → Plan β) (tree : FileTree) :
    ((Plan.print text).bind next).effect tree =
      { (next ()).effect tree with printed := text :: ((next ()).effect tree).printed } := rfl

/-! ## Asking -/

/-- A plan asks, says what is not printed, and does nothing else. -/
def OnlyAsks : Plan α → Prop
  | .done _ => True
  | .read _ next => ∀ answer, (next answer).OnlyAsks
  | .isFile _ next => ∀ answer, (next answer).OnlyAsks
  | .doesExist _ next => ∀ answer, (next answer).OnlyAsks
  | .makeDirectories _ _ => False
  | .write _ _ _ => False
  | .say utterance next => utterance.output? = none ∧ next.OnlyAsks

theorem onlyAsks_note (level : Level) (source text detail : String) :
    (note level source text detail).OnlyAsks :=
  ⟨rfl, True.intro⟩

theorem OnlyAsks.bind (hplan : plan.OnlyAsks) (hnext : ∀ result, (next result).OnlyAsks) :
    (plan.bind next).OnlyAsks := by
  induction plan with
  | done result => exact hnext result
  | read path more ih => exact fun answer => ih answer (hplan answer)
  | isFile path more ih => exact fun answer => ih answer (hplan answer)
  | doesExist path more ih => exact fun answer => ih answer (hplan answer)
  | makeDirectories path more ih => exact hplan.elim
  | write path contents more ih => exact hplan.elim
  | say utterance more ih => exact ⟨hplan.1, ih hplan.2⟩

/-- Asking leaves the file tree as it is and prints nothing. -/
theorem OnlyAsks.effect_eq (hplan : plan.OnlyAsks) (tree : FileTree) :
    plan.effect tree = ⟨(plan.run tree).result, [], tree⟩ := by
  induction plan with
  | done result => rfl
  | read path more ih => exact ih (tree.read path) (hplan _)
  | isFile path more ih => exact ih (tree.isFile path) (hplan _)
  | doesExist path more ih => exact ih (tree.doesExist path) (hplan _)
  | makeDirectories path more ih => exact hplan.elim
  | write path contents more ih => exact hplan.elim
  | say utterance more ih =>
      have hmore := ih hplan.2
      rw [effect, Effect.mk.injEq] at hmore ⊢
      refine ⟨rfl, ?_, hmore.2.2⟩
      rw [Plan.run, printed, List.filterMap_cons_none hplan.1]
      exact hmore.2.1

theorem OnlyAsks.tree_run (hplan : plan.OnlyAsks) (tree : FileTree) :
    (plan.run tree).tree = tree :=
  congrArg Effect.tree (hplan.effect_eq tree)

theorem OnlyAsks.effect_bind (hplan : plan.OnlyAsks) (tree : FileTree) :
    (plan.bind next).effect tree = (next (plan.run tree).result).effect tree := by
  rw [Plan.effect_bind, hplan.effect_eq tree]
  rfl

/-! ## Hushing -/

/-- An utterance that stays when notes below a level are left out. -/
def isHeard (least : Level) : Utterance → Bool
  | .note level _ _ _ => !isBelow least level
  | _ => true

/-- Hushing takes notes out of what is said and changes nothing else. -/
theorem run_hush (least : Level) (plan : Plan α) (tree : FileTree) :
    (plan.hush least).run tree =
      ⟨(plan.run tree).result, (plan.run tree).said.filter (isHeard least),
        (plan.run tree).tree⟩ := by
  induction plan generalizing tree with
  | done result => rfl
  | read path more ih => exact ih _ _
  | isFile path more ih => exact ih _ _
  | doesExist path more ih => exact ih _ _
  | makeDirectories path more ih => exact ih _ _
  | write path contents more ih =>
      rw [hush, run, run]
      cases tree.write path contents with
      | ok written => exact ih _ _
      | error cause => exact ih _ _
  | say utterance more ih =>
      cases utterance with
      | note level source text detail =>
          cases hbelow : isBelow least level with
          | true => simp [hush, run, isHeard, hbelow, ih]
          | false => simp [hush, run, isHeard, hbelow, ih]
      -- Only notes can be left out.
      | output text =>
          rw [hush, run, run, ih, List.filter_cons_of_pos rfl]
          intro _ _ _ _ hnote
          cases hnote
      | complaint text detail =>
          rw [hush, run, run, ih, List.filter_cons_of_pos rfl]
          intro _ _ _ _ hnote
          cases hnote

/-- Notes are not printed, so leaving some out takes no line out of what is. -/
theorem printed_filter_isHeard (least : Level) (said : List Utterance) :
    printed (said.filter (isHeard least)) = printed said := by
  rw [printed, printed, List.filterMap_filter]
  congr 1
  funext utterance
  cases utterance with
  | note level source text detail => simp [isHeard, Utterance.output?]
  | output text => rfl
  | complaint text detail => rfl

theorem effect_hush (least : Level) (plan : Plan α) (tree : FileTree) :
    (plan.hush least).effect tree = plan.effect tree := by
  rw [effect, run_hush, printed_filter_isHeard, effect]

/-! ## Details -/

theorem isHeard_brief (least : Level) (utterance : Utterance) :
    isHeard least utterance.brief = isHeard least utterance := by
  cases utterance <;> rfl

theorem printed_map_brief (said : List Utterance) :
    printed (said.map Utterance.brief) = printed said := by
  rw [printed, printed, List.filterMap_map]
  congr 1
  funext utterance
  cases utterance <;> rfl

/-- It makes no difference whether details are left out before or after hushing. -/
theorem map_brief_run_hush (least : Level) (plan : Plan α) (tree : FileTree) :
    ((plan.hush least).run tree).said.map Utterance.brief =
      ((plan.run tree).said.map Utterance.brief).filter (isHeard least) := by
  have hbrief : isHeard least ∘ Utterance.brief = isHeard least := funext (isHeard_brief least)
  rw [run_hush, List.filter_map, hbrief]

end Plan

end ServiceManual
