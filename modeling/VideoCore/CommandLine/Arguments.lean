import VideoCore.CommandLine.Path
import VideoCore.Dump

namespace VideoCore

/-!
# Command line arguments

A command line consists of one operand, the path of a snapshot, and flags.
Long flags may be cut short as long as they stay unambiguous; short flags may
share a dash.  After `--` every argument is an operand.
-/

/-- A flag of the command line. -/
inductive Flag
  | help
  | noRegisters
  | noAreas
  | hexdump
deriving DecidableEq

namespace Flag

/-- The flags with their long names. -/
def longNames : List (String × Flag) :=
  [("--help", .help), ("--no-registers", .noRegisters),
    ("--no-areas", .noAreas), ("--hexdump", .hexdump)]

/-- The flag with a short name. -/
def ofShort? : Char → Option Flag
  | 'h' => some .help
  | 'x' => some .hexdump
  | _ => none

end Flag

/-- What an argument is. -/
inductive Argument
  | operand (text : String)
  /-- The mark after which every argument is an operand. -/
  | terminator
  | flags (found : List Flag)
  /-- It begins like a flag and is none. -/
  | unknown
  /-- A flag with something behind it that it does not take. -/
  | refused
  /-- The beginning of several long flags. -/
  | ambiguous
deriving DecidableEq

namespace Argument

/--
Read a short flag with what stands behind it: more short flags, in front of
which an equals sign is skipped.  A flag that is none spoils them all.
-/
def short
    (first : Flag)
    (rest : List Char) : Argument :=
  let others :=
    match rest with
    | '=' :: next :: more => next :: more
    | _ => rest
  match others.mapM Flag.ofShort? with
  | some found => .flags (first :: found)
  | none => .refused

/-- Whether an argument looks like a negative number. -/
def isNegativeNumber (chars : List Char) : Bool :=
  let digit char := (digitValue? char).isSome
  let isNumber (body : List Char) : Bool :=
    let fraction := body.dropWhile digit
    match fraction with
    | [] => !body.isEmpty
    | '.' :: digits => !digits.isEmpty && digits.all digit
    | _ => false
  match chars with
  | '-' :: body =>
      isNumber body || (body.getLast? == some '\n' && isNumber body.dropLast)
  | _ => false

/-- An argument that begins with a dash but holds no flag. -/
def unmatched (text : String) : Argument :=
  if isNegativeNumber text.toList || text.contains ' ' then
    .operand text
  else
    .unknown

/-- Read an argument that begins with two dashes; no long flag takes a value. -/
def long (text : String) : Argument :=
  let name := String.ofList (text.toList.takeWhile (· ≠ '='))
  let given (flag : Flag) : Argument :=
    if name = text then .flags [flag] else .refused
  match Flag.longNames.lookup name with
  | some flag => given flag
  | none =>
      match Flag.longNames.filter fun (candidate, _) =>
          candidate.startsWith name with
      | [] => unmatched text
      | [(_, flag)] => given flag
      | _ => .ambiguous

/-- Read an argument in front of the terminator. -/
def ofText (text : String) : Argument :=
  match text.toList with
  | ['-'] => .operand text
  | '-' :: '-' :: _ => long text
  | '-' :: char :: rest =>
      match Flag.ofShort? char with
      | some flag => short flag rest
      | none => unmatched text
  | _ => .operand text

/-- Read all arguments. -/
def ofTexts : List String → List Argument
  | [] => []
  | text :: rest =>
      if text = "--" then
        .terminator :: rest.map .operand
      else
        ofText text :: ofTexts rest

end Argument

/-- What the user asks for. -/
structure Invocation where
  path : String
  parts : DumpParts
  hexdumps : Bool

/-- What the arguments amount to. -/
inductive Arguments
  | help
  | misuse
  | invocation (invocation : Invocation)

namespace Arguments

/--
The flag that help is asked for by, or the refusal of an argument, whichever
comes first.
-/
def interruption? : List Argument → Option Arguments
  | [] => none
  | .refused :: _ => some .misuse
  | .flags found :: rest =>
      if found.contains .help then some .help else interruption? rest
  | _ :: rest => interruption? rest

/-- All flags, unless an argument begins like one and is none. -/
def flags? : List Argument → Option (List Flag)
  | [] => some []
  | .unknown :: _ => none
  | .refused :: _ => none
  | .flags found :: rest => (flags? rest).map (found ++ ·)
  | _ :: rest => flags? rest

/-- The only operand; the terminator stands right before or right after it. -/
def operand? (arguments : List Argument) : Option String :=
  match arguments.dropWhile isOption with
  | .terminator :: .operand text :: rest =>
      if rest.all isOption then some text else none
  | .operand text :: .terminator :: rest =>
      if rest.all isOption then some text else none
  | .operand text :: rest => if rest.all isOption then some text else none
  | _ => none
where
  /-- Whether an argument is neither an operand nor the terminator. -/
  isOption : Argument → Bool
    | .operand _ => false
    | .terminator => false
    | _ => true

/-- What is asked for by default. -/
structure Defaults where
  noAreas : Bool
  hexdump : Bool

/-- Whether the value of an environment variable turns a default on. -/
def isOn (value : Option String) : Bool :=
  match value with
  | none => false
  | some text =>
      !(["", "0"].contains (String.ofList (trimBlanks isBlank text.toList)))

/-- The environment variable that leaves out the areas. -/
def noAreasVariable : String :=
  "VC4DUMP_NO_AREAS"

/-- The environment variable that asks for dumps of the areas. -/
def hexdumpVariable : String :=
  "VC4DUMP_HEXDUMP"

/-- The defaults that the values of the two variables set. -/
def defaultsOf (noAreas hexdump : Option String) : Defaults where
  noAreas := isOn noAreas
  hexdump := isOn hexdump

/-- What a path and some flags ask for. -/
def toInvocation
    (defaults : Defaults)
    (path : String)
    (flags : List Flag) : Invocation where
  path := FilePath.normalize path
  parts :=
    { registers := !flags.contains .noRegisters
      areas := !(flags.contains .noAreas || defaults.noAreas) }
  hexdumps := flags.contains .hexdump || defaults.hexdump

/-- What the arguments amount to. -/
def ofArguments
    (defaults : Defaults)
    (arguments : List Argument) : Arguments :=
  if arguments.contains .ambiguous then
    .misuse
  else
    match interruption? arguments with
    | some interruption => interruption
    | none =>
        match operand? arguments, flags? arguments with
        | some path, some flags =>
            .invocation (toInvocation defaults path flags)
        | _, _ => .misuse

/-- Read a command line. -/
def parse
    (defaults : Defaults)
    (texts : List String) : Arguments :=
  ofArguments defaults (Argument.ofTexts texts)

end Arguments

end VideoCore
