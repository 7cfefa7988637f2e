import ServiceManual.Raw.Reading

/-!
# Validation rules

A parameter or property may carry rules on its values.  Each known rule has an identifier and at
most one operand, and is documented by one sentence.  A rule with an identifier that is not known
is kept with all its fields, so that newer descriptions stay readable, and is not documented.

The identifier selects the model that a rule is read as and, later, the sentence that documents it.
The two need not agree: an identifier given as bytes selects no model, and the text that they encode
selects a sentence.
-/

namespace ServiceManual

/-- How a number is compared with the operand of a rule. -/
inductive Comparison
  | greater
  | greaterOrEqual
  | less
  | lessOrEqual
  | multipleOf
  deriving DecidableEq, Repr

/-- What is measured against a limit. -/
inductive Limit
  | mostItems
  | fewestItems
  | greatestLength
  | leastLength
  deriving DecidableEq, Repr

/-- A validation rule. -/
inductive Rule
  | limit (kind : Limit) (bound : Int)
  | uniqueItems
  | compare (comparison : Comparison) (operand : Number)
  | pattern (expression : String)
  | unknown (id : String) (extra : List (Scalar × Raw))

/-- The kinds of rules. -/
inductive RuleKind
  | limit (kind : Limit)
  | uniqueItems
  | compare (comparison : Comparison)
  | pattern
  deriving DecidableEq, Repr

namespace RuleKind

/-- All known kinds. -/
def all : List RuleKind :=
  [.limit .mostItems, .limit .fewestItems, .uniqueItems, .compare .greater,
    .compare .greaterOrEqual, .compare .less, .compare .lessOrEqual, .compare .multipleOf,
    .limit .greatestLength, .limit .leastLength, .pattern]

/-- The identifier of a kind. -/
def id : RuleKind → String
  | .limit .mostItems => "ArrayMaxItems"
  | .limit .fewestItems => "ArrayMinItems"
  | .uniqueItems => "ArrayUniqueItems"
  | .compare .greater => "NumberGT"
  | .compare .greaterOrEqual => "NumberGTE"
  | .compare .less => "NumberLT"
  | .compare .lessOrEqual => "NumberLTE"
  | .compare .multipleOf => "NumberMultipleOf"
  | .limit .greatestLength => "StringMaxLength"
  | .limit .leastLength => "StringMinLength"
  | .pattern => "StringPattern"

/-- The kind with an identifier. -/
def ofId? (id : String) : Option RuleKind :=
  all.find? fun kind => kind.id == id

theorem ofId?_id (kind : RuleKind) : ofId? kind.id = some kind := by
  cases kind with
  | limit kind => cases kind <;> rfl
  | uniqueItems => rfl
  | compare comparison => cases comparison <;> rfl
  | pattern => rfl

end RuleKind

/-- The field that holds the operand of a limit. -/
def Limit.fieldName : Limit → String
  | .mostItems => "max"
  | .fewestItems => "min"
  | .greatestLength | .leastLength => "length"

namespace RuleKind

/-- The field that holds the operand of a rule of a kind, if its rules have one. -/
def fieldName? : RuleKind → Option String
  | .limit kind => some kind.fieldName
  | .uniqueItems => none
  | .compare _ => some "value"
  | .pattern => some "pattern"

/-- What the sentence about a rule of a kind says before the operand. -/
def opening : RuleKind → String
  | .limit .mostItems => "Max array length: "
  | .limit .fewestItems => "Min array length: "
  | .uniqueItems => "Values must be unique"
  | .compare .greater => "Must be greater than "
  | .compare .greaterOrEqual => "Must be greater than or equal to "
  | .compare .less => "Must be less than "
  | .compare .lessOrEqual => "Must be less than or equal to "
  | .compare .multipleOf => "Must be a multiple of "
  | .limit .greatestLength => "Max length: "
  | .limit .leastLength => "Min length: "
  | .pattern => "Must match pattern: "

end RuleKind

/-- What keeps something from being shown. -/
inductive Obstacle
  /-- An integer is too long to be written out. -/
  | unwritable
  | fault (fault : Fault)
  deriving DecidableEq, Repr

namespace Rule

/-- The kind of a rule, unless it is unknown. -/
def kind? : Rule → Option RuleKind
  | .limit kind _ => some (.limit kind)
  | .uniqueItems => some .uniqueItems
  | .compare comparison _ => some (.compare comparison)
  | .pattern _ => some .pattern
  | .unknown _ _ => none

/-- The identifier of a rule. -/
def id : Rule → String
  | .limit kind _ => (RuleKind.limit kind).id
  | .uniqueItems => RuleKind.uniqueItems.id
  | .compare comparison _ => (RuleKind.compare comparison).id
  | .pattern _ => RuleKind.pattern.id
  | .unknown id _ => id

/-! ## In print -/

/-- What a rule has in the field of this name.  A rule of a known kind has its operand there. -/
def operand? (name : String) : Rule → Option Raw
  | .limit _ bound => some (.scalar (.integer bound))
  | .uniqueItems => none
  | .compare _ operand => some operand.write
  | .pattern expression => some (.text expression)
  | .unknown _ extra => Raw.field? name extra

/-- The sentence that documents a rule.  Its identifier selects it; a rule of unknown kind can have
the identifier of a known one too, and is then documented by what it has in the field of the
operand. -/
def sentence? (rule : Rule) : Option String :=
  match RuleKind.ofId? rule.id with
  | none => none
  | some kind =>
    match kind.fieldName? with
    | none => some kind.opening
    | some name => (rule.operand? name).map fun operand => kind.opening ++ operand.toText

/-- What keeps the sentence of a rule from being shown: an operand that is not there, or one that
cannot be written out. -/
def obstacle? (rule : Rule) : Option Obstacle :=
  match (RuleKind.ofId? rule.id).bind RuleKind.fieldName? with
  | none => none
  | some name =>
    match rule.operand? name with
    | none => some (.fault (.noOperand name))
    | some operand => if operand.isWritable then none else some .unwritable

/-! ## Reading -/

open Raw Checked

/-- Is a key a text without encoding? -/
def hasNoEncoding : Scalar → Bool
  | .text name => Text.hasSurrogate name
  | _ => false

/-- The fields of a rule of unknown kind: its identifier, and all others as they are.  The keys of
the others have to be texts; if one of them is a text without encoding, only that is told. -/
def readUnknown (fields : List (Scalar × Raw)) : Checked Rule :=
  let extra := without "id" fields
  let misnamed := extra.filterMap fun entry =>
    match entry.1 with
    | .text _ => none
    | key => some (⟨[key.step], .keyNotText⟩ : Issue)
  if extra.any fun entry => hasNoEncoding entry.1 then refuse .notUnicode
  else
    (fun id rest => Rule.unknown id rest) <$> requiredField "id" readText fields <*>
      (if misnamed.isEmpty then .valid extra else .invalid misnamed)

/-- The fields of a rule of a known kind. -/
def readKnown (kind : RuleKind) (fields : List (Scalar × Raw)) : Checked Rule :=
  match kind with
  | .limit kind => Rule.limit kind <$> requiredField kind.fieldName readInteger fields
  | .uniqueItems => .valid .uniqueItems
  | .compare comparison => Rule.compare comparison <$> requiredField "value" readNumber fields
  | .pattern => Rule.pattern <$> requiredField "pattern" readText fields

/-- A rule.  Its identifier selects the kind, whose name is a step of the location of all issues;
an identifier that is a list or a mapping is a fault. -/
def read (value : Raw) : Checked Rule :=
  match value with
  | .mapping fields =>
    match field? "id" fields with
    | some (.list _) => .broken (.notAName .list)
    | some (.mapping _) => .broken (.notAName .mapping)
    | some (.scalar (.text id)) =>
      match RuleKind.ofId? id with
      | some kind => (readKnown kind fields).within (.key id)
      | none => (readUnknown fields).within (.key "Unknown")
    | _ => (readUnknown fields).within (.key "Unknown")
  | _ => (refuse (.notModel "UnknownRule")).within (.key "Unknown")

end Rule

end ServiceManual
