import BoothLink.Decimal.Digits

/-!
# Options on a command line

An option has a long name behind two hyphens and may have a short one behind one. Short names may stand
together; a value follows in the next argument, or in the same one, behind an equals sign or right behind
the short name. An option is given once unless it is said to repeat. A value that follows is looked at
when the next option or the end has been reached, so that what comes between is not read in vain.

* `OptionSpec`, `Takes`: what can be given; `Takes.accepts`: the values.
* `OptionSpec.pieces`: the options in one argument.
* `OptionSpec.scan`: the options of a command line, up to the name of a command.
-/

namespace BoothLink.Console

inductive Takes where
  | nothing
  | text
  /-- A text that is not empty. -/
  | path
  /-- A number of 64 bits. -/
  | count
  /-- Nothing: it asks for help. -/
  | help
  /-- Nothing: it asks for the version. -/
  | version
  deriving DecidableEq, Repr

/-- An option that can be given. -/
structure OptionSpec where
  long : String
  short : Option Char := none
  takes : Takes
  repeats : Bool := false
  /-- What a value is called. -/
  valueName : String := ""
  /-- Options with a lower place come first in an overview. -/
  place : Nat
  about : String
  deriving DecidableEq, Repr

/-- An option with its value. -/
structure Given where
  spec : OptionSpec
  value : String
  deriving DecidableEq, Repr

/-- Why a command line is not carried out. -/
inductive Stop where
  | misuse
  | help
  | version
  deriving DecidableEq, Repr

/-- The number that a text stands for, if it has 64 bits. -/
def readCount? (s : String) : Option Nat := (Digits.nat? s.toList).filter (· < Nat.pow 2 64)

namespace Takes

def needsValue : Takes → Bool
  | text | path | count => true
  | _ => false

def accepts (t : Takes) (value : String) : Bool :=
  match t with
  | path => value ≠ ""
  | count => (readCount? value).isSome
  | _ => true

end Takes

/-- An option in an argument, with the value that stands there; nothing if there is no such option. -/
abbrev Piece := Option (OptionSpec × Option String)

namespace OptionSpec

/-- The options in an argument behind one hyphen. -/
def cluster (specs : List OptionSpec) : List Char → List Piece
  | [] => []
  | c :: rest =>
    match specs.find? (·.short = some c) with
    | none => [none]
    | some spec =>
      if !spec.takes.needsValue then some (spec, none) :: cluster specs rest
      else
        match rest with
        | [] => [some (spec, none)]
        | '=' :: value => [some (spec, some (String.ofList value))]
        | value => [some (spec, some (String.ofList value))]

/-- The option in an argument behind two hyphens. -/
def named (specs : List OptionSpec) (cs : List Char) : Piece :=
  let name := String.ofList (cs.takeWhile (· ≠ '='))
  match specs.find? (·.long = name), cs.dropWhile (· ≠ '=') with
  | none, _ => none
  | some spec, [] => some (spec, none)
  | some spec, _ :: value =>
    if spec.takes.needsValue then some (spec, some (String.ofList value)) else none

/-- The options in an argument; an argument that holds none is none that is known. -/
def pieces (specs : List OptionSpec) (argument : String) : List Piece :=
  match argument.toList with
  | '-' :: '-' :: rest => [named specs rest]
  | '-' :: c :: rest => cluster specs (c :: rest)
  | _ => [none]

/-- Whether an argument is not taken for the value of the option before it. -/
def looksLikeOption (argument : String) : Bool :=
  match argument.toList with
  | '-' :: _ :: _ => true
  | _ => false

/-- What has been read of a command line. -/
structure Progress where
  done : List Given := []
  /-- An option whose value has not been looked at. -/
  pending : Option Given := none

/-- Takes note of an option if its value will do. -/
def Progress.note (p : Progress) (g : Given) : Except Stop Progress :=
  if !g.spec.takes.accepts g.value then .error .misuse
  else if !g.spec.repeats && p.done.any (·.spec.long = g.spec.long) then .error .misuse
  else .ok { p with done := p.done ++ [g] }

/-- Looks at the value that has not been looked at. -/
def Progress.settle (p : Progress) : Except Stop Progress :=
  match p.pending with
  | none => .ok p
  | some g => Progress.note { p with pending := none } g

/-- Carries on with the options in an argument. Gives the one that still needs a value. -/
def Progress.take (p : Progress) : List Piece → Except Stop (Progress × Option OptionSpec)
  | [] => .ok (p, none)
  | none :: _ => .error .misuse
  | some (spec, value) :: more =>
    match p.settle with
    | .error e => .error e
    | .ok p =>
      match spec.takes, value with
      | .help, _ => .error .help
      | .version, _ => .error .version
      | .nothing, _ =>
        match p.note ⟨spec, ""⟩ with
        | .error e => .error e
        | .ok p => p.take more
      | _, some value =>
        match p.note ⟨spec, value⟩ with
        | .error e => .error e
        | .ok p => p.take more
      | _, none => .ok (p, some spec)

/-- Reads options up to the name of a command. Gives that name with the arguments after it. -/
def scan (specs : List OptionSpec) (commands : List String) (p : Progress) :
    List String → Except Stop (Progress × Option (String × List String))
  | [] => .ok (p, none)
  | argument :: rest =>
    if argument ∈ commands then .ok (p, some (argument, rest))
    else if argument = "--" then if rest.isEmpty then .ok (p, none) else .error .misuse
    else
      match p.take (pieces specs argument) with
      | .error e => .error e
      | .ok (p, none) => scan specs commands p rest
      | .ok (p, some spec) =>
        match rest with
        | [] => .error .misuse
        | value :: rest =>
          if looksLikeOption value then .error .misuse
          else scan specs commands { p with pending := some ⟨spec, value⟩ } rest

end OptionSpec

end BoothLink.Console
