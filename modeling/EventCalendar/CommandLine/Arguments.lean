/-
  EventCalendar.CommandLine.Arguments

  The arguments of a command: options with and without values, and other
  arguments.  An option may be shortened as long as no other option starts in
  the same way.
-/

import EventCalendar.Text.Digit
import EventCalendar.Text.Split

namespace EventCalendar.CommandLine

open EventCalendar.Text

/-! ## Tokens -/

/-- An option of a command. -/
structure OptionSpec where
  name : String
  takesValue : Bool
  deriving DecidableEq, Repr

/-- Why arguments are not followed. -/
inductive Stop where
  /-- Help was asked for. -/
  | help
  /-- The arguments do not make sense. -/
  | usage
  deriving DecidableEq, Repr

/-- What an argument is. -/
inductive Token where
  /-- An argument that is no option. -/
  | argument
  /-- What parts options from arguments that look like options. -/
  | separator
  /-- An option, with its value if that stands in the same argument. -/
  | option (name : String) (value : Option String)
  /-- An option whose value stands in the next argument. -/
  | awaiting (name : String)
  | help
  /-- An option with a value that takes none. -/
  | misused
  /-- An option that does not exist. -/
  | unknown
  deriving DecidableEq, Repr

/-- The long option that asks for help. -/
def helpOption : OptionSpec := ⟨"--help", false⟩

/-- The token of an option, with a value or without. -/
def tokenOf (spec : OptionSpec) (value : Option String) : Token :=
  match value with
  | some v => if spec.takesValue then .option spec.name (some v) else .misused
  | none =>
    if spec.takesValue then .awaiting spec.name
    else if spec = helpOption then .help
    else .option spec.name none

/-- The token of the short option that asks for help, from what stands behind it. It may be there
    several times; a dash or a value makes no sense. -/
def tokenOfShort : (behind : List Char) → Token
  | 'h' :: behind => tokenOfShort behind
  | '-' :: _ | '=' :: _ => .misused
  | _ => .help

/-- A negative number. -/
def isNegativeNumber : List Char → Bool
  | '-' :: digits =>
    match splitFirst '.' digits with
    | (whole, none) => whole != [] && whole.all isDecimal
    | (whole, some fraction) => whole.all isDecimal && fraction != [] && fraction.all isDecimal
  | _ => false

/-- The token of an argument that no option has the name of. -/
def unnamed (cs : List Char) : Token :=
  if isNegativeNumber cs || cs.contains ' ' then .argument else .unknown

/-- What an argument is. A shortened option that could be one of several makes no sense. -/
def Token.ofArgument (specs : List OptionSpec) (argument : String) : Except Stop Token :=
  let specs := helpOption :: specs
  let cs := argument.toList
  let (front, back) := splitFirst '=' cs
  let name := String.ofList front
  let value := back.map String.ofList
  if argument = "--" then .ok .separator
  else match specs.find? (·.name == name), cs with
    | some spec, _ => .ok (tokenOf spec value)
    | none, '-' :: '-' :: _ =>
      match specs.filter fun spec => front.isPrefixOf spec.name.toList with
      | [spec] => .ok (tokenOf spec value)
      | [] => .ok (unnamed cs)
      | _ => .error .usage
    | none, '-' :: 'h' :: behind => .ok (tokenOfShort behind)
    | none, '-' :: _ :: _ => .ok (unnamed cs)
    | none, _ => .ok .argument

/-- The tokens of some arguments, each with its argument. Behind a separator there are no
    options. -/
def tokens (specs : List OptionSpec) : List String → Except Stop (List (Token × String))
  | [] => .ok []
  | argument :: rest => do
    match ← Token.ofArgument specs argument with
    | .separator => return (.separator, argument) :: rest.map fun a => (.argument, a)
    | token => return (token, argument) :: (← tokens specs rest)

/-! ## Following tokens -/

/-- The arguments that a command wants besides its options. -/
inductive Wanted where
  | none
  | one
  /-- One, and all that stands behind it. -/
  | rest
  deriving DecidableEq, Repr

/-- What is found in arguments. -/
structure Found where
  /-- The options without values. -/
  flags : List String
  /-- The options with values, the latest first. -/
  values : List (String × String)
  arguments : List String
  /-- Something was not wanted. -/
  leftover : Bool
  deriving DecidableEq, Repr

namespace Found

/-- Nothing found yet. -/
def nothing : Found := ⟨[], [], [], false⟩

/-- The value of an option. -/
def value? (f : Found) (name : String) : Option String := f.values.lookup name

/-- The value of an option that must be there. -/
def need (f : Found) (name : String) : Except Stop String :=
  match f.value? name with
  | some v => .ok v
  | none => .error .usage

/-- An argument is still wanted. -/
def isWanting (f : Found) (wanted : Wanted) : Bool := wanted != .none && f.arguments.isEmpty

/-- Follows tokens one after the other. A separator counts as part of the argument beside it. -/
def follow (wanted : Wanted) (f : Found) : List (Token × String) → Except Stop Found
  | [] => .ok f
  | (.help, _) :: _ => .error .help
  | (.misused, _) :: _ => .error .usage
  | (.unknown, _) :: rest => follow wanted { f with leftover := true } rest
  | (.option name none, _) :: rest => follow wanted { f with flags := name :: f.flags } rest
  | (.option name (some v), _) :: rest =>
    follow wanted { f with values := (name, v) :: f.values } rest
  | (.awaiting name, _) :: (.argument, v) :: rest =>
    follow wanted { f with values := (name, v) :: f.values } rest
  | (.awaiting _, _) :: _ => .error .usage
  | (.separator, _) :: (.argument, a) :: rest =>
    if wanted = .rest then .error .usage
    else if f.isWanting wanted then follow wanted { f with arguments := [a] } rest
    else follow wanted { f with leftover := true } rest
  | (.separator, _) :: rest => follow wanted { f with leftover := true } rest
  | (.argument, a) :: (.separator, b) :: rest =>
    -- what stands behind a command is for the command to read
    if wanted = .rest then .ok { f with arguments := a :: b :: rest.map (·.2) }
    else if f.isWanting wanted then follow wanted { f with arguments := [a] } rest
    else follow wanted { f with leftover := true } rest
  | (.argument, a) :: rest =>
    if wanted = .rest then .ok { f with arguments := a :: rest.map (·.2) }
    else if f.isWanting wanted then follow wanted { f with arguments := [a] } rest
    else follow wanted { f with leftover := true } rest

/-- What is found in arguments. -/
def ofArguments (specs : List OptionSpec) (wanted : Wanted) (arguments : List String) :
    Except Stop Found := do
  follow wanted nothing (← tokens specs arguments)

end Found

end EventCalendar.CommandLine
