import PassPipeline.Text.Bytewise
import PassPipeline.Text.Quoted

/-! Flags on a command line. Flags come first, each with one or two dashes; the first argument that
is no flag ends them, and so does a lone `--`. -/
namespace PassPipeline

/-- How a flag takes its value: a switch from its own argument only,
the others also from the next. -/
inductive FlagKind where
  | switch
  | number
  | text
  deriving DecidableEq, Repr

/-- A flag that sets something in a state. -/
structure Flag (σ : Type) where
  name : String
  kind : FlagKind
  help : String
  /-- The value shown as the one it has without being given. -/
  shown : Option String := none
  assign : String → σ → Except String σ

inductive FlagError where
  | help
  | badSyntax (argument : String)
  | notDefined (name : String)
  | needsArgument (name : String)
  | invalidSwitch (name value cause : String)
  | invalidValue (name value cause : String)
  deriving DecidableEq, Repr

/-- What is said of a fault; help is no fault. -/
def FlagError.message : FlagError → String
  | .help => ""
  | .badSyntax argument => "bad flag syntax: " ++ argument ++ "\n"
  | .notDefined name => "flag provided but not defined: -" ++ name ++ "\n"
  | .needsArgument name => "flag needs an argument: -" ++ name ++ "\n"
  | .invalidSwitch name value cause =>
    "invalid boolean value " ++ Text.quote value ++ " for -" ++ name ++ ": " ++ cause ++ "\n"
  | .invalidValue name value cause =>
    "invalid value " ++ Text.quote value ++ " for flag -" ++ name ++ ": " ++ cause ++ "\n"

/-- What an argument is, taken by itself. -/
inductive Argument where
  | operand
  | terminator
  | malformed
  | flag (name : String) (value : Option String)
  deriving DecidableEq, Repr

namespace Argument

/-- A name and the value behind its first `=`, which is not the first character. -/
def nameAndValue (cs : List Char) : Argument :=
  let name := cs.takeWhile (· ≠ '=')
  match cs.dropWhile (· ≠ '=') with
  | [] => .flag (String.ofList name) none
  | _ :: value => .flag (String.ofList name) (some (String.ofList value))

def read (argument : String) : Argument :=
  match argument.toList with
  | ['-', '-'] => .terminator
  | '-' :: '-' :: c :: rest => if c = '-' || c = '=' then .malformed else nameAndValue (c :: rest)
  | '-' :: c :: rest => if c = '=' then .malformed else nameAndValue (c :: rest)
  | _ => .operand

end Argument

namespace Flag

variable {σ : Type}

def fault (f : Flag σ) (value cause : String) : FlagError :=
  match f.kind with
  | .switch => .invalidSwitch f.name value cause
  | _ => .invalidValue f.name value cause

def apply (f : Flag σ) (value : String) (s : σ) : Except FlagError σ :=
  match f.assign value s with
  | .ok s => .ok s
  | .error cause => .error (f.fault value cause)

/-- Takes the flags off a command line. What is left are the operands. -/
def parse (flags : List (Flag σ)) (s : σ) : List String → Except FlagError (σ × List String)
  | [] => .ok (s, [])
  | argument :: rest =>
    match Argument.read argument with
    | .operand => .ok (s, argument :: rest)
    | .terminator => .ok (s, rest)
    | .malformed => .error (.badSyntax argument)
    | .flag name value =>
      match flags.find? (·.name = name) with
      | none => .error (if name = "help" || name = "h" then .help else .notDefined name)
      | some f =>
        match f.kind, value, rest with
        | .switch, value, rest =>
          match f.apply (value.getD "true") s with
          | .ok s => parse flags s rest
          | .error e => .error e
        | _, some value, rest =>
          match f.apply value s with
          | .ok s => parse flags s rest
          | .error e => .error e
        | _, none, value :: rest =>
          match f.apply value s with
          | .ok s => parse flags s rest
          | .error e => .error e
        | _, none, [] => .error (.needsArgument name)

/-- The lines of help on a flag. -/
def describe (f : Flag σ) : String :=
  "  -" ++ f.name ++
    (match f.kind with
      | .switch => ""
      | .number => " int"
      | .text => " string") ++
    "\n    \t" ++ f.help ++
    (match f.shown with
      | some value => " (default " ++ value ++ ")"
      | none => "") ++ "\n"

/-- The help on all flags, in the order of their names. -/
def describeAll (flags : List (Flag σ)) : String :=
  String.join ((flags.mergeSort fun a b => Text.bytewise a.name b.name).map describe)

end Flag

end PassPipeline
