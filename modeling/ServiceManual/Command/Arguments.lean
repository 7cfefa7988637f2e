/-!
# Arguments of a command

A command takes options and positional arguments in any order.  An option is a word after two
hyphens, or a letter after one; several letters can share a hyphen.  An option that takes a value
takes what is written behind it, after an equals sign in the long form, or else the next argument,
whatever that is.  After two hyphens alone all arguments are positional.
-/

namespace ServiceManual.Arguments

/-- An option of a command. -/
structure Spec where
  name : String
  letter : Option Char
  takesValue : Bool

/-- What a list of arguments says: the values of options in order, empty for an option without
value, and the positional arguments. -/
structure Parsed where
  options : List (String × String)
  positional : List String
  deriving DecidableEq, Repr

namespace Parsed

/-- Nothing is said. -/
def empty : Parsed := ⟨[], []⟩

/-- A positional argument in front. -/
def withPositional (argument : String) (parsed : Parsed) : Parsed :=
  { parsed with positional := argument :: parsed.positional }

/-- The last value of an option. -/
def value? (parsed : Parsed) (name : String) : Option String :=
  (parsed.options.reverse.find? fun option => option.1 == name).map Prod.snd

/-- Is an option there? -/
def has (parsed : Parsed) (name : String) : Bool :=
  (parsed.value? name).isSome

end Parsed

/-- What the letters after one hyphen say: options, and perhaps one that still needs a value. -/
def letters (specs : List Spec) : List Char → Option (List (String × String) × Option String)
  | [] => some ([], none)
  | c :: rest =>
    match specs.find? fun spec => spec.letter == some c with
    | none => none
    | some spec =>
      if spec.takesValue then
        if rest.isEmpty then some ([], some spec.name)
        else some ([(spec.name, String.ofList rest)], none)
      else
        (letters specs rest).map fun (options, pending) =>
          ((spec.name, "") :: options, pending)

/-- What one argument that begins with a hyphen says. -/
def option (specs : List Spec) (argument : List Char) :
    Option (List (String × String) × Option String) :=
  match argument with
  | '-' :: '-' :: word =>
    let name := String.ofList (word.takeWhile (· != '='))
    match specs.find? fun spec => spec.name == name, word.dropWhile (· != '=') with
    | none, _ => none
    | some spec, [] => some (if spec.takesValue then ([], some name) else ([(name, "")], none))
    | some spec, _ :: value =>
      if spec.takesValue then some ([(name, String.ofList value)], none) else none
  | '-' :: rest => letters specs rest
  | _ => none

/-- What arguments say, unless they name an option that there is not, or leave out the value of
one that takes one. -/
def parse (specs : List Spec) : List String → Option Parsed
  | [] => some .empty
  | argument :: rest =>
    if argument == "--" then some ⟨[], rest⟩
    else if argument.toList.head? == some '-' && argument != "-" then
      match option specs argument.toList with
      | none => none
      | some (options, none) =>
        (parse specs rest).map fun parsed =>
          { parsed with options := options ++ parsed.options }
      | some (options, some pending) =>
        match rest with
        | [] => none
        | value :: rest =>
          (parse specs rest).map fun parsed =>
            { parsed with options := options ++ (pending, value) :: parsed.options }
    else (parse specs rest).map (·.withPositional argument)

end ServiceManual.Arguments
