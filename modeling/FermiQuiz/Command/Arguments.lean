/-!
# Arguments

What is written after a command's name: options with a value, flags, and operands without a name.
After `--` everything is an operand.
-/

namespace FermiQuiz

structure Shape where
  options : List String := []
  flags : List String := []
  operands : Nat := 0
  /-- Whether a negative number is an operand, and not taken for an option. -/
  takesNegatives : Bool := false

structure Arguments where
  values : List (String × String) := []
  flags : List String := []
  operands : List String := []

namespace Arguments

def value? (a : Arguments) (name : String) : Option String := a.values.lookup name

def hasFlag (a : Arguments) (name : String) : Bool := a.flags.contains name

/-! ### Kinds of arguments -/

/-- Whether the text after a minus sign looks like a number: digits, with at most one point
between them and before an exponent, which has no sign. -/
def looksNumeric (cs : List Char) : Bool :=
  let isBody (c : Char) : Bool := c.isDigit || c = '.' || c = 'e'
  let (mantissa, exponent) := (cs.takeWhile (· != 'e'), cs.dropWhile (· != 'e'))
  cs.all isBody && mantissa.count '.' ≤ 1 && mantissa.head? != some '.' &&
    match exponent with
    | [] => true
    | _ :: ds => !mantissa.isEmpty && !ds.isEmpty && ds.all Char.isDigit

inductive Kind where
  /-- The mark after which all arguments are operands. -/
  | stop
  | named (name : String) (attached : Option String)
  /-- A minus sign and letters, which no command knows. -/
  | short (body : List Char)
  | plain

def splitName (cs : List Char) : Kind :=
  let name := String.ofList (cs.takeWhile (· != '='))
  match cs.dropWhile (· != '=') with
  | [] => .named name none
  | _ :: value => .named name (some (String.ofList value))

def kindOf (argument : String) : Kind :=
  match argument.toList with
  | ['-', '-'] => .stop
  | '-' :: '-' :: cs => splitName cs
  | ['-'] => .plain
  | '-' :: cs => .short cs
  | _ => .plain

/-! ### Reading -/

inductive Awaiting where
  | any
  | value (option : String)
  | operands

def addOperand (a : Arguments) (operand : String) : Arguments :=
  { a with operands := a.operands ++ [operand] }

def addPlain (awaiting : Awaiting) (a : Arguments) (argument : String) : Arguments :=
  match awaiting with
  | .value option => { a with values := (option, argument) :: a.values }
  | _ => a.addOperand argument

/-- An option or a flag; neither may be repeated. -/
def addNamed (shape : Shape) (a : Arguments) (name : String) (attached : Option String) :
    Option (Awaiting × Arguments) :=
  if shape.flags.contains name then
    if attached.isSome || a.hasFlag name then none
    else some (.any, { a with flags := name :: a.flags })
  else if shape.options.contains name then
    if (a.value? name).isSome then none
    else match attached with
      | some v => some (.any, { a with values := (name, v) :: a.values })
      | none => some (.value name, a)
  else none

def readFrom? (shape : Shape) : Awaiting → Arguments → List String → Option Arguments
  | .value _, _, [] => none
  | _, a, [] => if a.operands.length = shape.operands then some a else none
  | .operands, a, argument :: rest => readFrom? shape .operands (a.addOperand argument) rest
  | awaiting, a, argument :: rest =>
    match kindOf argument, awaiting with
    | .stop, .any => readFrom? shape .operands a rest
    | .named name attached, .any =>
      match addNamed shape a name attached with
      | some (awaiting, a) => readFrom? shape awaiting a rest
      | none => none
    | .short body, awaiting =>
      if shape.takesNegatives && a.operands.length < shape.operands && looksNumeric body then
        readFrom? shape .any (addPlain awaiting a argument) rest
      else none
    | .plain, awaiting => readFrom? shape .any (addPlain awaiting a argument) rest
    | _, _ => none

def read? (shape : Shape) (arguments : List String) : Option Arguments :=
  readFrom? shape .any {} arguments

end Arguments

end FermiQuiz
