namespace TokenBridge.CommandLine

/-- How often an option may be given, and whether the argument behind it is its value. -/
inductive Usage where
  | switch
  | once
  | repeated
deriving DecidableEq, Repr

structure OptionSpec where
  name : String
  short : Option String
  usage : Usage
  /-- Which values the option can have. -/
  accepts : String → Bool

namespace OptionSpec

def switch (name : String) (short : Option String) : OptionSpec :=
  ⟨name, short, .switch, fun _ ↦ true⟩

def text (name : String) (short : Option String) (usage : Usage) : OptionSpec :=
  ⟨name, short, usage, fun _ ↦ true⟩

end OptionSpec

structure CommandSpec where
  name : String
  short : Char

/-- A command without a character of its own is called by the null character. -/
def CommandSpec.long (name : String) : CommandSpec := ⟨name, '\x00'⟩

structure Spec where
  options : List OptionSpec
  /-- How many arguments there may be beside the options. -/
  positionals : Nat
  /-- The first command that is called takes all arguments behind it. -/
  commands : List CommandSpec

inductive Stop where
  | misuse
  | help
deriving DecidableEq, Repr

structure Found where
  help : Bool
  optionsEnded : Bool
  options : List (String × String)
  positionals : List String
  command : Option (String × List String)
deriving DecidableEq, Repr

namespace Found

def empty : Found := ⟨false, false, [], [], none⟩

variable (f : Found)

def values (name : String) : List String :=
  f.options.filterMap fun o ↦ if o.1 = name then some o.2 else none

def value? (name : String) : Option String := (f.values name).head?

def has (name : String) : Bool := (f.value? name).isSome

end Found

namespace Spec

variable (spec : Spec)

def find? (arg : String) : Option OptionSpec :=
  spec.options.find? fun o ↦ arg = o.name || o.short = some arg

def command? (arg : String) : Option CommandSpec :=
  spec.commands.find? fun c ↦ arg = c.name || arg.toList = [c.short]

/-- Reads arguments in their order. Behind a request for help no option may stand, and behind two
hyphens no argument counts as one. A command is left to read its own arguments, and to give the
help that was asked for before it. -/
def read (f : Found) : List String → Except Stop Found
  | [] => if f.help then .error .help else .ok f
  | arg :: rest =>
    if !f.optionsEnded && (arg = "--help" || arg = "help") then read { f with help := true } rest
    else if !f.optionsEnded && arg.toList.head? = some '-' then
      if arg = "--" then read { f with optionsEnded := true } rest
      else if f.help then .error .misuse
      else
        match spec.find? arg with
        | none => .error .misuse
        | some o =>
          if o.usage = .switch then read { f with options := f.options ++ [(o.name, "")] } rest
          else
            match rest with
            | [] => .error .misuse
            | value :: rest =>
              if (o.usage = .once && f.has o.name) || !o.accepts value then .error .misuse
              else read { f with options := f.options ++ [(o.name, value)] } rest
    else
      match spec.command? arg with
      | some c =>
        let rest := if f.help then "help" :: rest else rest
        .ok { f with help := false, command := some (c.name, rest) }
      | none =>
        if f.positionals.length < spec.positionals then
          read { f with positionals := f.positionals ++ [arg] } rest
        else .error .misuse

def parse (args : List String) : Except Stop Found := spec.read .empty args

end Spec

end TokenBridge.CommandLine
