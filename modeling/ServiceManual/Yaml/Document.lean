import ServiceManual.Raw
import ServiceManual.Text.Base64
import ServiceManual.Yaml.Node
import ServiceManual.Yaml.Number

/-!
# YAML documents as raw values

The value of a node is found from its tag.  A mapping takes over the entries of other mappings
under the merge key; its own entries come after those and so win over them.  Keys have to be
scalars, and a key that is met again keeps its place and takes the new value.

Collections are filled level by level, from the root down, and those on one level from left to
right.  So when several things are wrong with a document, the one on the highest level is found
out, and of several on one level the leftmost.

The collections that carry anchors are looked up in a table of what is known of them.  Where none
stands within itself, each one needs only those before it.  Otherwise the table is made several
times over, each time from the one before, which unrolls the circles as far as any reader goes.
-/

namespace ServiceManual.Yaml

/-! ## Attempts -/

/-- Why a value is not made, and how many levels below a node that was found out. -/
structure Setback where
  level : Nat
  failure : Failure
  deriving DecidableEq, Repr

/-- A value, or why there is none. -/
abbrev Attempt (α : Type) := Except Setback α

namespace Attempt

variable {α β : Type}

/-- Nothing is made here, because the document is malformed. -/
def malformed (what : String) : Attempt α :=
  .error ⟨0, .malformed what⟩

/-- What is found out at once. -/
def ofExcept : Except Failure α → Attempt α
  | .ok value => .ok value
  | .error failure => .error ⟨0, failure⟩

/-- What is found out one level further down. -/
def deeper : Attempt α → Attempt α
  | .ok value => .ok value
  | .error setback => .error ⟨setback.level + 1, setback.failure⟩

/-- Two values side by side.  Of two setbacks the one on the higher level counts, of two on one
level the left one. -/
def both : Attempt α → Attempt β → Attempt (α × β)
  | .ok a, .ok b => .ok (a, b)
  | .error setback, .ok _ => .error setback
  | .ok _, .error setback => .error setback
  | .error left, .error right => .error (if right.level < left.level then right else left)

/-- A value before a list of values. -/
def cons (first : Attempt α) (rest : Attempt (List α)) : Attempt (List α) :=
  (both first rest).map fun pair => pair.1 :: pair.2

/-- A list of values before another one. -/
def append (first rest : Attempt (List α)) : Attempt (List α) :=
  (both first rest).map fun pair => pair.1 ++ pair.2

@[simp] theorem both_ok (a : α) (b : β) : both (.ok a : Attempt α) (.ok b) = .ok (a, b) := rfl

@[simp] theorem cons_ok (a : α) (rest : List α) : cons (.ok a) (.ok rest) = .ok (a :: rest) := rfl

@[simp] theorem append_ok (first rest : List α) :
    append (.ok first : Attempt (List α)) (.ok rest) = .ok (first ++ rest) := rfl

theorem both_eq_ok_iff (x : Attempt α) (y : Attempt β) (pair : α × β) :
    both x y = .ok pair ↔ x = .ok pair.1 ∧ y = .ok pair.2 := by
  obtain ⟨a, b⟩ := pair
  cases x <;> cases y <;> simp [both]

end Attempt

/-! ## Scalars -/

/-- The date or the moment that a scalar denotes. -/
def dateOf (text : String) : Except Failure Scalar :=
  match Timestamp.ofText? (Tag.withoutFeed text.toList) with
  | none => .error .unreadableDate
  | some written =>
    match written.moment with
    | none =>
      match written.date.problem? with
      | some problem => .error (.impossible problem)
      | none => .ok (.date written.date)
    | some moment =>
      match moment.problem? with
      | some problem => .error (.impossible problem)
      | none => .ok (.moment moment)

/-- The truth value that a scalar denotes. -/
def flagOf (text : String) : Except Failure Bool :=
  let word := Text.lowercase text
  if ["yes", "true", "on"].contains word then .ok true
  else if ["no", "false", "off"].contains word then .ok false
  else .error (.unknownWord word)

/-- The bytes that a scalar denotes. -/
def bytesOf (text : String) : Except Failure (List UInt8) :=
  match Text.decodeBase64? text.toList with
  | some bytes => .ok bytes
  | none => .error (.malformed "failed to decode base64 data")

/-- The value of a scalar with this tag. -/
def scalarOf (tag text : String) : Except Failure Scalar :=
  if tag == Tag.str then .ok (.text text)
  else if tag == Tag.null then .ok .null
  else if tag == Tag.bool then (flagOf text).map .flag
  else if tag == Tag.int then (integerOf text).map .integer
  else if tag == Tag.float then (realOf text).map .real
  else if tag == Tag.timestamp then dateOf text
  else if tag == Tag.binary then (bytesOf text).map .bytes
  else .error (.malformed "could not determine a constructor for the tag")

/-- The value of a mapping with this tag that stands for a text.  A date has to be written as a
scalar. -/
def scalarUnderKey (tag text : String) : Except Failure Scalar :=
  if tag == Tag.timestamp then .error .datedMapping else scalarOf tag text

/-- The tags of collections. -/
def collectionTags : List String :=
  [Tag.seq, Tag.map, Tag.set, Tag.omap, Tag.pairs]

/-! ## Nodes -/

/-- The entries of a mapping, in the order in which they are put into it. -/
abbrev Entries := List (Scalar × Raw)

/-- What is known of a collection: its value, the text it stands for where a scalar is wanted, the
entries it lends to a mapping that names it under the merge key, those it lends as an item of a
list there, and the pair it is as an item of a list of pairs.  Nothing is lent by what is no
mapping or list of mappings. -/
structure Meaning where
  value : Attempt Raw
  text : Except Failure String
  lent? : Option (Attempt Entries)
  lentAsItem? : Option (Attempt Entries)
  pair : Attempt Raw

namespace Node

/-- A scalar is wanted and is not there. -/
def noScalar {α : Type} : Except Failure α :=
  .error (.malformed "expected a scalar node")

mutual

/-- The text that a node stands for where a scalar is wanted: a mapping stands for the value under
the key for that. -/
def text (known : Nat → Meaning) : Node → Except Failure String
  | .scalar _ text => .ok text
  | .sequence _ _ => noScalar
  | .mapping _ entries => textUnderKey known entries
  | .named _ number => (known number).text

/-- The text under the key that marks the value of a mapping. -/
def textUnderKey (known : Nat → Meaning) : List (Node × Node) → Except Failure String
  | [] => noScalar
  | (key, value) :: rest =>
    if key.tag == Tag.value then text known value else textUnderKey known rest

end

/-- The key that a node with this tag, text and value is.  A key has to be a scalar, and the mark of
a value counts as a text. -/
def keyOf (tag : String) (text : Except Failure String) (value : Attempt Raw) : Attempt Scalar :=
  if tag == Tag.value then (Attempt.ofExcept text).map .text
  else match value with
    | .ok (.scalar key) => .ok key
    | .error ⟨0, failure⟩ => .error ⟨0, failure⟩
    | _ => Attempt.malformed "found unhashable key"

/-- The entries of a mapping, of which those taken over come before its own; there are none to be
taken over from what is no mapping. -/
def joined : Option (Attempt Entries × Attempt Entries) → Attempt Entries
  | some (merged, own) => Attempt.append merged own
  | none => Attempt.malformed "expected a mapping or list of mappings for merging"

mutual

/-- The value of a node.  What is wrong with a scalar is found out at once, what is wrong within a
collection one level further down. -/
def value (known : Nat → Meaning) : Node → Attempt Raw
  | .named _ number => (known number).value
  | .scalar tag written =>
    if collectionTags.contains tag then
      Attempt.deeper (Attempt.malformed "expected a collection, but found scalar")
    else (Attempt.ofExcept (scalarOf tag written)).map .scalar
  | .sequence tag items =>
    if collectionTags.contains tag then
      let filled : Attempt Raw :=
        if tag == Tag.seq then (values known items).map .list
        else if tag == Tag.omap || tag == Tag.pairs then (pairs known items).map .list
        else Attempt.malformed "expected a mapping node, but found sequence"
      Attempt.deeper filled
    else Attempt.malformed "expected a scalar node, but found sequence"
  | .mapping tag entries =>
    if collectionTags.contains tag then
      let filled : Attempt Raw :=
        if tag == Tag.map then
          (joined (lentBy? known entries)).map fun assigned => .mapping (Raw.ofAssignments assigned)
        else if tag == Tag.set then
          (joined (lentBy? known entries)).map fun assigned =>
            .set ((Raw.ofAssignments assigned).map Prod.fst)
        else Attempt.malformed "expected a sequence, but found mapping"
      Attempt.deeper filled
    else (Attempt.ofExcept (textUnderKey known entries >>= scalarUnderKey tag)).map .scalar

/-- The values of nodes. -/
def values (known : Nat → Meaning) : List Node → Attempt (List Raw)
  | [] => .ok []
  | node :: rest => Attempt.cons (value known node) (values known rest)

/-- The pairs that nodes are. -/
def pairs (known : Nat → Meaning) : List Node → Attempt (List Raw)
  | [] => .ok []
  | node :: rest => Attempt.cons (pair known node) (pairs known rest)

/-- The pair that a mapping with one entry is. -/
def pair (known : Nat → Meaning) : Node → Attempt Raw
  | .mapping _ [(first, second)] =>
    (Attempt.both (value known first) (value known second)).map fun both => .pair both.1 both.2
  | .named _ number => (known number).pair
  | _ => Attempt.malformed "expected a single mapping item"

/-- The entries that a mapping takes over from others, and its own.  Nothing if something is to be
taken over from what is no mapping. -/
def lentBy? (known : Nat → Meaning) :
    List (Node × Node) → Option (Attempt Entries × Attempt Entries)
  | [] => some (.ok [], .ok [])
  | (keyNode, valueNode) :: rest =>
    match lentBy? known rest with
    | none => none
    | some (merged, own) =>
      if keyNode.tag == Tag.merge then
        (lent? known valueNode).map fun taken => (Attempt.append taken merged, own)
      else
        let key := keyOf keyNode.tag (text known keyNode) (value known keyNode)
        some (merged, Attempt.cons (Attempt.both key (value known valueNode)) own)

/-- The entries that a node lends under the merge key: those of a mapping, or of a list of
mappings, those of a later one first. -/
def lent? (known : Nat → Meaning) : Node → Option (Attempt Entries)
  | .scalar _ _ => none
  | .sequence _ items => lentByAll? known items
  | .mapping _ entries => (lentBy? known entries).map fun lent => Attempt.append lent.1 lent.2
  | .named _ number => (known number).lent?

/-- The entries that a node lends as an item of a list. -/
def lentAsItem? (known : Nat → Meaning) : Node → Option (Attempt Entries)
  | .mapping _ entries => (lentBy? known entries).map fun lent => Attempt.append lent.1 lent.2
  | .named _ number => (known number).lentAsItem?
  | _ => none

/-- The entries that several mappings lend, those of a later one first. -/
def lentByAll? (known : Nat → Meaning) : List Node → Option (Attempt Entries)
  | [] => some (.ok [])
  | node :: rest =>
    match lentAsItem? known node, lentByAll? known rest with
    | some first, some later => some (Attempt.append later first)
    | _, _ => none

end

/-- What is known of a collection, given what is known of others. -/
def meaning (known : Nat → Meaning) (node : Node) : Meaning :=
  { value := value known node
    text := text known node
    lent? := lent? known node
    lentAsItem? := lentAsItem? known node
    pair := pair known node }

/-- Nothing is known of a collection that has no number. -/
def nothingKnown (_ : Nat) : Meaning :=
  meaning (fun _ => ⟨.ok .null, noScalar, none, none, .ok .null⟩) empty

/-- What is known of a collection before its contents are: that it is one of its kind. -/
def outline : Node → Meaning
  | .sequence tag _ => meaning nothingKnown (.sequence tag [])
  | .mapping tag _ => meaning nothingKnown (.mapping tag [])
  | other => meaning nothingKnown other

end Node

/-! ## Documents -/

namespace Composition

/-- What is known of the collections with numbers, the last one that ended first. -/
abbrev Known := List (Nat × Meaning)

/-- What is known of a collection. -/
def find (known : Known) (number : Nat) : Meaning :=
  match known.find? fun entry => entry.1 == number with
  | some entry => entry.2
  | none => Node.nothingKnown number

/-- How many times a collection is unrolled that stands within itself. -/
def unrollings : Nat := 12

/-- Find out about all collections, given what was known of them before. -/
def learn (document : Composition) (before : Known) : Known :=
  document.named.foldl (fun known entry => (entry.1, entry.2.meaning (find known)) :: known) before

/-- Find out about all collections several times over. -/
def learnOver (document : Composition) : Nat → Known → Known
  | 0, known => known
  | times + 1, known => document.learnOver times (document.learn known)

/-- What is known of the collections in the end. -/
def known (document : Composition) : Known :=
  document.learnOver (if document.circular then unrollings else 1)
    (document.named.map fun entry => (entry.1, entry.2.outline))

/-- The value of a document. -/
def value (document : Composition) : Except Failure Raw :=
  match document.root.value (find document.known) with
  | .ok value => .ok value
  | .error setback => .error setback.failure

end Composition

/-- The value of the document that a source holds, null if it holds none. -/
def valueOf (source : Source) : Except Failure Raw := do
  match ← Composition.ofSource? source with
  | some document => document.value
  | none => return .null

end ServiceManual.Yaml
