import RouteBinder.Source.Shape
import RouteBinder.TypeExpr

/-!
# RouteBinder.Analysis.Usage

**What uses of a value say about its type.** A use of a value follows some accesses (properties and
elements) and ends in an operation that is a sign of the type of what was reached: arithmetic is a
sign of a number, a loop over it is a sign of an array, and so on. `usageOf` reads this off the nodes
around the value.

`Usage.typeOf` weighs the usages of one value. Only which usages there are matters; their order
decides nothing but the order of fields.
-/

namespace RouteBinder.Analysis

open Source

/-- A step from a value into it. -/
inductive Access where
  | property (name : String)
  | element
  deriving DecidableEq, Repr, Inhabited

/-- What an operation tells of its operand. -/
inductive Sign where
  | number | string | boolean | array | record
  deriving DecidableEq, Repr, Inhabited

/-- One use of a value: the way to the operand, and what the operation tells of it, if anything. -/
structure Usage where
  path : List Access := []
  sign : Option Sign := none
  deriving DecidableEq, Repr, Inhabited

/-- The same use, seen from a value that the access starts from. -/
def Usage.under (access : Access) (usage : Usage) : Usage :=
  { usage with path := access :: usage.path }

/-! ### Vocabulary -/

def stringMethods : List String :=
  ["toLowerCase", "toUpperCase", "toLocaleLowerCase", "toLocaleUpperCase", "trim", "trimStart",
    "trimEnd", "split", "startsWith", "endsWith", "charAt", "charCodeAt", "codePointAt",
    "substring", "substr", "replace", "replaceAll", "padStart", "padEnd", "localeCompare",
    "match", "matchAll", "normalize", "repeat", "search"]

def arrayMethods : List String :=
  ["map", "filter", "forEach", "reduce", "reduceRight", "push", "pop", "shift", "unshift",
    "some", "every", "find", "findIndex", "findLast", "findLastIndex", "join", "sort",
    "reverse", "splice", "flat", "flatMap", "fill", "entries", "keys", "values"]

def arithmeticOperators : List String :=
  ["-", "*", "/", "%", "**", "<", ">", "<=", ">=", "&", "|", "^", "<<", ">>", ">>>"]

def equalityOperators : List String := ["===", "!==", "==", "!="]

def logicalOperators : List String := ["&&", "||"]

/-! ### Reading a use -/

/-- Wrappers that a value is used through. -/
def isValueWrapper : Kind → Bool
  | .parenthesizedExpression | .nonNullExpression | .asExpression | .awaitExpression => true
  | _ => false

/-- The sign that a literal is of the type of what it is compared with or added to. -/
def literalSign? (node? : Option Node) : Option Sign :=
  match (node?.bind Node.unwrap?).map Node.kind with
  | some .string | some .templateString => some .string
  | some .number => some .number
  | some .trueLiteral | some .falseLiteral => some .boolean
  | _ => none

/-- What an operand of a binary operator is, when the other operand is `other`. -/
def operandSign? (operator : String) (other : Option Sign) : Option Sign :=
  if operator == "+" then if other == some .string then some .string else some .number
  else if arithmeticOperators.contains operator then some .number
  else if equalityOperators.contains operator then
    match other with
    | some .string => some .string
    | some .number => some .number
    | _ => some .boolean
  else if logicalOperators.contains operator then some .boolean
  else none

/-- What the receiver of a method call is. -/
def receiverSign? (method : String) : Option Sign :=
  if stringMethods.contains method then some .string
  else if arrayMethods.contains method then some .array
  else none

/-- Is the node the callee of a call, given the nodes it stands in? -/
def isCallee (node : Node) : List Node → Bool
  | [] => false
  | parent :: above =>
    if isValueWrapper parent.kind then isCallee parent above
    else parent.kind == .callExpression && node.role == some .function

/-- What the construct around a value tells of it. -/
def surroundingSign? (value parent : Node) : Option Sign :=
  match parent.kind with
  | .binaryExpression =>
    let other := if value.role == some .left then parent.field? .right else parent.field? .left
    operandSign? (parent.fieldText .operator) (literalSign? other)
  | .unaryExpression =>
    match parent.fieldText .operator with
    | "!" => some .boolean
    | "-" | "+" | "~" => some .number
    | _ => none
  | .updateExpression => some .number
  | .augmentedAssignmentExpression =>
    if value.role == some .left then
      if parent.fieldText .operator == "+=" &&
          literalSign? (parent.field? .right) == some .string then some .string
      else some .number
    else none
  | .ifStatement | .whileStatement | .doStatement => some .boolean
  | .ternaryExpression => if value.role == some .condition then some .boolean else none
  | .forInStatement => if value.role == some .right then some .array else none
  | _ => none

/-- The use of a value, given the nodes it stands in, nearest first. -/
def usageOf (value : Node) : List Node → Usage
  | [] => {}
  | parent :: above =>
    if isValueWrapper parent.kind then usageOf parent above
    else if parent.kind == .memberExpression && value.role == some .object then
      let name := parent.fieldText .property
      if isCallee parent above then { sign := receiverSign? name }
      else if name == "length" then {}
      else (usageOf parent above).under (.property name)
    else if parent.kind == .subscriptExpression && value.role == some .object then
      match parent.unwrappedField? .index with
      | none => { sign := some .record }
      | some index =>
        if index.kind == .number then (usageOf parent above).under .element
        else
          match index.stringValue? with
          | some name => (usageOf parent above).under (.property name)
          | none => { sign := some .record }
    else { sign := surroundingSign? value parent }

/-- The spots where a function itself uses a name; a declarator does not use the name it binds. -/
def usesOf (function body : Node) (name : String) : List Spot :=
  (Spot.own [function] body).filter fun spot =>
    (spot.node.kind == .identifier || spot.node.kind == .shorthandPropertyIdentifier) &&
      spot.node.text == name &&
      !(spot.parent?.any (·.kind == .variableDeclarator) && spot.node.role == some .name)

/-- The usages of a name in a function. -/
def usagesOf (function body : Node) (name : String) : List Usage :=
  (usesOf function body name).map fun spot => usageOf spot.node spot.above

namespace Usage

/-! ### Weighing usages -/

/-- Do the usages have the sign on the value itself? -/
def tell (usages : List Usage) (sign : Sign) : Bool :=
  usages.any fun usage => usage.path.isEmpty && usage.sign == some sign

/-- The usages that start with the access, seen from where it leads. -/
def inside (access : Access) (usages : List Usage) : List Usage :=
  usages.filterMap fun usage =>
    match usage.path with
    | [] => none
    | first :: rest => if first == access then some { usage with path := rest } else none

/-- The property that a usage starts with. -/
def property? (usage : Usage) : Option String :=
  match usage.path with
  | .property name :: _ => some name
  | _ => none

/-- The properties that are used, in order of first use. -/
def properties (usages : List Usage) : List String :=
  TypeExpr.distinct (usages.filterMap property?)

/-- Is an element of the value used, or an operation of arrays? -/
def tellArray (usages : List Usage) : Bool :=
  tell usages .array || usages.any fun usage => usage.path.head? == some .element

/-- The type that the usages of a value agree with, looking at most `depth` accesses into it. Signs
of an array come before all others, then properties, then the rest in the order of the tests. -/
def typeWithin : Nat → List Usage → TypeExpr
  | 0, _ => .unknown
  | depth + 1, usages =>
    if tellArray usages then
      let elements := inside .element usages
      if tell usages .number || tell elements .number then .array .number
      else if tell usages .string || tell elements .string then .array .string
      else if (properties elements).isEmpty then .array .unknown
      else .array (typeWithin depth elements)
    else if !(properties usages).isEmpty then
      .record ((properties usages).map fun name =>
        ⟨name, typeWithin depth (inside (.property name) usages), false⟩)
    else if tell usages .record then .named "Record<string, unknown>"
    else if tell usages .number then .number
    else if tell usages .string then .string
    else if tell usages .boolean then .boolean
    else .unknown

/-- How many accesses the longest usage has. -/
def depth (usages : List Usage) : Nat :=
  usages.foldl (fun longest usage => max longest usage.path.length) 0

/-- The record of the properties that are used, each with the type its usages agree with; nothing
when no property is used. -/
def recordOf? (usages : List Usage) : Option TypeExpr :=
  if (properties usages).isEmpty then none
  else
    some (.record ((properties usages).map fun name =>
      ⟨name, typeWithin (depth usages + 1) (inside (.property name) usages), false⟩))

end Usage

end RouteBinder.Analysis
