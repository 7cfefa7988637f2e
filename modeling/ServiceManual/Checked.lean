import ServiceManual.Raw

/-!
# Checked reading

Reading a raw value into a model ends in one of three ways.  It gives the model; or it gives the
list of all issues that were found, each with the place where it was found; or it breaks off at
once at a fault, whatever was found before.  Parts of a value are read from left to right, so of
two faults the left one is reported, and issues come in the order of the parts.
-/

namespace ServiceManual

/-- A step into a raw value: to a field or key, or to an item of a list or an integer key. -/
inductive Step
  | key (name : String)
  | index (position : Int)
  deriving DecidableEq, Repr

/-- What can be wrong with a value. -/
inductive Problem
  | missing
  | notText
  | notUnicode
  | notList
  | notMapping
  | notModel (name : String)
  | notReferenceKind
  | notInteger
  | unreadableInteger
  | fractionalInteger
  | oversizedInteger
  | notFinite
  | notNumber
  | unreadableNumber
  | notFlag
  | unreadableFlag
  | belowMinimum (minimum : Int)
  | keyNotText
  | unwritableKey
  deriving DecidableEq, Repr

/-- The short name of a problem. -/
def Problem.code : Problem → String
  | .missing => "missing"
  | .notText => "string_type"
  | .notUnicode => "string_unicode"
  | .notList => "list_type"
  | .notMapping => "dict_type"
  | .notModel _ => "model_type"
  | .notReferenceKind => "literal_error"
  | .notInteger => "int_type"
  | .unreadableInteger => "int_parsing"
  | .fractionalInteger => "int_from_float"
  | .oversizedInteger => "int_parsing_size"
  | .notFinite => "finite_number"
  | .notNumber => "float_type"
  | .unreadableNumber => "float_parsing"
  | .notFlag => "bool_type"
  | .unreadableFlag => "bool_parsing"
  | .belowMinimum _ => "greater_than_equal"
  | .keyNotText => "invalid_key"
  | .unwritableKey => "value_error"

/-- What is said about an integer that is too long to be written out. -/
def unwritableText : String :=
  "Exceeds the limit (4300 digits) for integer string conversion; use " ++
    "sys.set_int_max_str_digits() to increase the limit"

/-- The wording of a problem. -/
def Problem.message : Problem → String
  | .missing => "Field required"
  | .notText => "Input should be a valid string"
  | .notUnicode =>
    "Input should be a valid string, unable to parse raw data as a unicode string"
  | .notList => "Input should be a valid list"
  | .notMapping => "Input should be a valid dictionary"
  | .notModel name => "Input should be a valid dictionary or instance of " ++ name
  | .notReferenceKind => "Input should be 'primitive' or 'complex'"
  | .notInteger => "Input should be a valid integer"
  | .unreadableInteger =>
    "Input should be a valid integer, unable to parse string as an integer"
  | .fractionalInteger => "Input should be a valid integer, got a number with a fractional part"
  | .oversizedInteger =>
    "Unable to parse input string as an integer, exceeded maximum size"
  | .notFinite => "Input should be a finite number"
  | .notNumber => "Input should be a valid number"
  | .unreadableNumber => "Input should be a valid number, unable to parse string as a number"
  | .notFlag => "Input should be a valid boolean"
  | .unreadableFlag => "Input should be a valid boolean, unable to interpret input"
  | .belowMinimum minimum => "Input should be greater than or equal to " ++ toString minimum
  | .keyNotText => "Keys should be strings"
  | .unwritableKey => "Value error, " ++ unwritableText

/-- A problem and the way to the value that has it. -/
structure Issue where
  location : List Step
  problem : Problem
  deriving DecidableEq, Repr

/-- A shape of data at which reading breaks off, or showing what was read. -/
inductive Fault
  /-- A list or a mapping stands where a value is looked up among names. -/
  | notAName (kind : Kind)
  /-- An item of a list of named things is not a mapping. -/
  | nameless (kind : Kind)
  /-- A scalar stands where a list is gone through. -/
  | notAList (kind : Kind)
  /-- A rule of unknown kind does not have the field that its sentence is made from. -/
  | noOperand (field : String)
  deriving DecidableEq, Repr

/-- The wording of a fault. -/
def Fault.message : Fault → String
  | .notAName kind => "unhashable type: '" ++ kind.word ++ "'"
  | .nameless kind => "'" ++ kind.word ++ "' object has no attribute 'name'"
  | .notAList kind => "'" ++ kind.word ++ "' object is not iterable"
  | .noOperand field => "'UnknownRule' object has no attribute '" ++ field ++ "'"

/-- The outcome of reading a raw value. -/
inductive Checked (α : Type)
  | valid (value : α)
  | invalid (issues : List Issue)
  | broken (fault : Fault)
  deriving Repr

namespace Checked

variable {α β : Type}

/-- A value that is wrong as a whole. -/
def refuse (problem : Problem) : Checked α :=
  .invalid [⟨[], problem⟩]

/-- Apply a function to the value. -/
def map (f : α → β) : Checked α → Checked β
  | .valid value => .valid (f value)
  | .invalid issues => .invalid issues
  | .broken fault => .broken fault

/-- Both outcomes together, the left one first. -/
def both : Checked α → Checked β → Checked (α × β)
  | .broken fault, _ => .broken fault
  | _, .broken fault => .broken fault
  | .invalid issues, .invalid more => .invalid (issues ++ more)
  | .invalid issues, .valid _ => .invalid issues
  | .valid _, .invalid more => .invalid more
  | .valid a, .valid b => .valid (a, b)

/-- Apply a function that is itself the outcome of reading; its issues come first. -/
def apply (f : Checked (α → β)) (x : Checked α) : Checked β :=
  (both f x).map fun pair => pair.1 pair.2

instance : Functor Checked where
  map := map

instance : Pure Checked where
  pure := .valid

instance : Seq Checked where
  seq f x := apply f (x ())

/-- Continue with a value, if there is one. -/
def andThen (x : Checked α) (next : α → Checked β) : Checked β :=
  match x with
  | .valid value => next value
  | .invalid issues => .invalid issues
  | .broken fault => .broken fault

/-- The outcome for a part of a value, with its issues located from the whole. -/
def within (step : Step) : Checked α → Checked α
  | .valid value => .valid value
  | .invalid issues => .invalid (issues.map fun issue => ⟨step :: issue.location, issue.problem⟩)
  | .broken fault => .broken fault

/-- The model, if reading gave one. -/
def toOption : Checked α → Option α
  | .valid value => some value
  | _ => none

/-! ### Equations -/

@[simp] theorem map_eq (f : α → β) (x : Checked α) : f <$> x = x.map f := rfl

@[simp] theorem seq_eq (f : Checked (α → β)) (x : Checked α) : f <*> x = apply f x := rfl

@[simp] theorem map_valid (f : α → β) (a : α) : (valid a).map f = .valid (f a) := rfl

@[simp] theorem apply_valid (f : α → β) (a : α) : apply (.valid f) (.valid a) = .valid (f a) := rfl

theorem apply_eq_valid_iff {f : Checked (α → β)} {x : Checked α} {b : β} :
    apply f x = .valid b ↔ ∃ g a, f = .valid g ∧ x = .valid a ∧ g a = b := by
  cases f <;> cases x <;> simp [apply, both, map]

/-- Locating issues changes no value. -/
theorem within_eq_valid_iff {step : Step} {x : Checked α} {a : α} :
    x.within step = .valid a ↔ x = .valid a := by
  cases x <;> simp [within]

end Checked

end ServiceManual
