import ServiceManual.Files.Tree
import ServiceManual.Text.Style

/-!
# Plans

What a command does to files and what it says, as a value.  A plan is either finished with a
result, or it asks for one operation on files or says one thing, and goes on with the answer.  A
plan can be run on a file tree, which gives its result, everything said, and the tree it leaves;
the command line runs the same plans on the real files.
-/

namespace ServiceManual

/-- How urgent a note is. -/
inductive Level
  | debug
  | info
  | warning
  deriving DecidableEq, Repr

/-- The word for a level. -/
def Level.word : Level → String
  | .debug => "DEBUG"
  | .info => "INFO"
  | .warning => "WARNING"

/-- Levels in the order of urgency. -/
def Level.urgency : Level → Nat
  | .debug => 0
  | .info => 1
  | .warning => 2

/-- Something that a command says: a line of its output, a note on what it does, or a complaint.
A note or complaint may have a detail behind its text. -/
inductive Utterance
  | output (text : String)
  | note (level : Level) (source text : String) (detail : String)
  | complaint (text : String) (detail : String)
  deriving DecidableEq, Repr

/-- What is written for an utterance.  Complaints carry no styles, and what has no encoding is
escaped in them and in notes. -/
def Utterance.written : Utterance → String
  | .output text => text
  | .note level source text detail =>
    Text.escapeSurrogates (level.word ++ " " ++ source ++ ": " ++ text ++ detail)
  | .complaint text detail => Text.escapeSurrogates (Text.withoutStyles (text ++ detail))

/-- An utterance without its detail, which is in the words of a reader or of the system. -/
def Utterance.brief : Utterance → Utterance
  | .note level source text _ => .note level source text ""
  | .complaint text _ => .complaint text ""
  | other => other

/-- A plan with a result of type `α`. -/
inductive Plan (α : Type)
  | done (result : α)
  | read (path : Path) (next : Except FileError ByteArray → Plan α)
  | isFile (path : Path) (next : Except FileError Bool → Plan α)
  | doesExist (path : Path) (next : Except FileError Bool → Plan α)
  | makeDirectories (path : Path) (next : Option (Path × FileError) → Plan α)
  | write (path : Path) (contents : ByteArray) (next : Option FileError → Plan α)
  | say (utterance : Utterance) (next : Plan α)

namespace Plan

variable {α β : Type}

/-- One plan after another. -/
def bind (plan : Plan α) (next : α → Plan β) : Plan β :=
  match plan with
  | .done result => next result
  | .read path more => .read path fun answer => (more answer).bind next
  | .isFile path more => .isFile path fun answer => (more answer).bind next
  | .doesExist path more => .doesExist path fun answer => (more answer).bind next
  | .makeDirectories path more => .makeDirectories path fun answer => (more answer).bind next
  | .write path contents more => .write path contents fun answer => (more answer).bind next
  | .say utterance more => .say utterance (more.bind next)

instance : Monad Plan where
  pure := done
  bind := bind

/-- Ask for the contents of a file. -/
def contentsOf (path : Path) : Plan (Except FileError ByteArray) := .read path .done

/-- Ask whether there is a regular file. -/
def askIsFile (path : Path) : Plan (Except FileError Bool) := .isFile path .done

/-- Ask whether there is anything. -/
def askExists (path : Path) : Plan (Except FileError Bool) := .doesExist path .done

/-- Have a directory made, with those on the way to it. -/
def ensureDirectories (path : Path) : Plan (Option (Path × FileError)) :=
  .makeDirectories path .done

/-- Have a file written. -/
def setContents (path : Path) (contents : ByteArray) : Plan (Option FileError) :=
  .write path contents .done

/-- Print a line. -/
def print (text : String) : Plan Unit := .say (.output text) (.done ())

/-- Note something. -/
def note (level : Level) (source text : String) (detail : String) : Plan Unit :=
  .say (.note level source text detail) (.done ())

/-- Complain. -/
def complain (text : String) (detail : String) : Plan Unit :=
  .say (.complaint text detail) (.done ())

/-- Is a note of this level left out when only notes from `least` on are wanted? -/
def isBelow (least level : Level) : Bool :=
  level.urgency < least.urgency

/-- The plan without its notes below a level. -/
def hush (least : Level) : Plan α → Plan α
  | .done result => .done result
  | .read path next => .read path fun answer => (next answer).hush least
  | .isFile path next => .isFile path fun answer => (next answer).hush least
  | .doesExist path next => .doesExist path fun answer => (next answer).hush least
  | .makeDirectories path next => .makeDirectories path fun answer => (next answer).hush least
  | .write path contents next => .write path contents fun answer => (next answer).hush least
  | .say (.note level source text detail) next =>
    if isBelow least level then next.hush least
    else .say (.note level source text detail) (next.hush least)
  | .say utterance next => .say utterance (next.hush least)

/-! ## Running on a file tree -/

/-- What running a plan on a file tree comes to. -/
structure Outcome (α : Type) where
  result : α
  said : List Utterance
  tree : FileTree

/-- Run a plan on a file tree. -/
def run : Plan α → FileTree → Outcome α
  | .done result, tree => ⟨result, [], tree⟩
  | .read path next, tree => (next (tree.read path)).run tree
  | .isFile path next, tree => (next (tree.isFile path)).run tree
  | .doesExist path next, tree => (next (tree.doesExist path)).run tree
  | .makeDirectories path next, tree =>
    let (failure, made) := tree.makeDirectories path
    (next failure).run made
  | .write path contents next, tree =>
    match tree.write path contents with
    | .ok written => (next none).run written
    | .error cause => (next (some cause)).run tree
  | .say utterance next, tree =>
    let rest := next.run tree
    ⟨rest.result, utterance :: rest.said, rest.tree⟩

/-! ### Equations -/

@[simp] theorem pure_eq (result : α) : (pure result : Plan α) = .done result := rfl

@[simp] theorem bind_eq (plan : Plan α) (next : α → Plan β) : plan >>= next = plan.bind next := rfl

@[simp] theorem run_done (result : α) (tree : FileTree) :
    (Plan.done result).run tree = ⟨result, [], tree⟩ := rfl

/-- Running one plan after another runs the second one on the tree that the first one leaves. -/
theorem run_bind (plan : Plan α) (next : α → Plan β) (tree : FileTree) :
    (plan.bind next).run tree =
      ⟨((next (plan.run tree).result).run (plan.run tree).tree).result,
        (plan.run tree).said ++ ((next (plan.run tree).result).run (plan.run tree).tree).said,
        ((next (plan.run tree).result).run (plan.run tree).tree).tree⟩ := by
  induction plan generalizing tree with
  | done result => simp [bind, run]
  | read path more ih => simp [bind, run, ih]
  | isFile path more ih => simp [bind, run, ih]
  | doesExist path more ih => simp [bind, run, ih]
  | makeDirectories path more ih => simp [bind, run, ih]
  | write path contents more ih =>
    simp only [bind, run]
    cases tree.write path contents with
    | ok written => simp [ih]
    | error cause => simp [ih]
  | say utterance more ih => simp [bind, run, ih]

end Plan

end ServiceManual
