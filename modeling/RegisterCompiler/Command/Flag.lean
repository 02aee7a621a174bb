/-
Flags on a command line.

A flag is a name behind one or two hyphens.  Its value follows behind an equals
sign or, unless the flag is a switch, as the next argument.  The first argument
that is no flag, or two hyphens alone, end the flags.
-/

import RegisterCompiler.Text.Quoted
import RegisterCompiler.Text.Radix

set_option autoImplicit false

namespace RegisterCompiler
namespace Command

open Text (NumberProblem)

inductive FlagEffect (σ : Type) where
  | switch (set : Bool → σ → σ)
  | text (set : String → σ → σ)
  | number (set : Int → σ → σ)

structure Flag (σ : Type) where
  name : String
  purpose : String
  effect : FlagEffect σ

inductive FlagFault where
  | help
  | badForm (argument : String)
  | unknown (name : String)
  | noValue (name : String)
  | badSwitch (value name : String)
  | badNumber (value name : String) (problem : NumberProblem)
deriving Repr, DecidableEq

namespace FlagFault

def problemText : NumberProblem → String
  | .notNumber => "parse error"
  | .tooLarge => "value out of range"

def message? : FlagFault → Option String
  | help => none
  | badForm argument => some s!"bad flag syntax: {argument}"
  | unknown name => some s!"flag provided but not defined: -{name}"
  | noValue name => some s!"flag needs an argument: -{name}"
  | badSwitch value name =>
      let quoted := Text.quote value
      some s!"invalid boolean value {quoted} for -{name}: parse error"
  | badNumber value name problem =>
      let quoted := Text.quote value
      some s!"invalid value {quoted} for flag -{name}: {problemText problem}"

end FlagFault

inductive Argument where
  | operand
  | endOfFlags
  | misshapen
  | flag (name : String) (value : Option String)
deriving Repr, DecidableEq

namespace Argument

/-- Splits a flag at its first equals sign, which is not its first character. -/
def splitFlag (chars : List Char) : Argument :=
  let name := chars.takeWhile (· != '=')
  match chars.dropWhile (· != '=') with
  | [] => .flag (String.ofList name) none
  | _ :: value => .flag (String.ofList name) (some (String.ofList value))

def ofName : List Char → Argument
  | [] => .misshapen
  | first :: rest =>
      if first = '-' || first = '=' then .misshapen else splitFlag (first :: rest)

def ofText (text : String) : Argument :=
  match text.toList with
  | '-' :: '-' :: [] => .endOfFlags
  | '-' :: '-' :: name => ofName name
  | '-' :: first :: rest => ofName (first :: rest)
  | _ => .operand

end Argument

def switchValue? (text : String) : Option Bool :=
  if ["1", "t", "T", "true", "TRUE", "True"].contains text then some true
  else if ["0", "f", "F", "false", "FALSE", "False"].contains text then some false
  else none

namespace Flag

variable {σ : Type}

def apply (flag : Flag σ) (value : String) (settings : σ) : Except FlagFault σ :=
  match flag.effect with
  | .switch set =>
      match switchValue? value with
      | some on => .ok (set on settings)
      | none => .error (.badSwitch value flag.name)
  | .text set => .ok (set value settings)
  | .number set =>
      match Text.wholeNumber value.toList with
      | .ok number => .ok (set number settings)
      | .error problem => .error (.badNumber value flag.name problem)

/-- The value a flag has when none is given; only switches have one. -/
def impliedValue? (flag : Flag σ) : Option String :=
  match flag.effect with
  | .switch _ => some "true"
  | _ => none

def valueName (flag : Flag σ) : String :=
  match flag.effect with
  | .switch _ => ""
  | .text _ => " string"
  | .number _ => " int"

def summary (flag : Flag σ) : String :=
  s!"  -{flag.name}{flag.valueName}\n    \t{flag.purpose}\n"

def readAll (flags : List (Flag σ)) :
    Option (Flag σ) → σ → List String → Except FlagFault (σ × List String)
  | none, settings, [] => .ok (settings, [])
  | some flag, _, [] => .error (.noValue flag.name)
  | some flag, settings, value :: rest =>
      match flag.apply value settings with
      | .error fault => .error fault
      | .ok changed => readAll flags none changed rest
  | none, settings, argument :: rest =>
      match Argument.ofText argument with
      | .operand => .ok (settings, argument :: rest)
      | .endOfFlags => .ok (settings, rest)
      | .misshapen => .error (.badForm argument)
      | .flag name given =>
          match flags.find? fun flag => flag.name == name with
          | none => .error (if name = "help" || name = "h" then .help else .unknown name)
          | some flag =>
              match given <|> flag.impliedValue? with
              | none => readAll flags (some flag) settings rest
              | some value =>
                  match flag.apply value settings with
                  | .error fault => .error fault
                  | .ok changed => readAll flags none changed rest

end Flag

end Command
end RegisterCompiler
