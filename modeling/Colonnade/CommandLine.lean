/-
What the arguments on the command line ask for. Settings may stand before
or after the name of the command, and the value of one may be the next
argument or follow its name at once (after an equals sign if the name is a
long one). A setting that the command has no use for is refused.

Chain: `Main` reads a `Task` here and carries it out.
-/
import Colonnade.Report

namespace Colonnade.CommandLine

-- ========================================================= settings

/-- What can be set. -/
inductive Setting where
  | path
  | verbose
  | columns
  | format
  | limit
  | fromVersion
deriving DecidableEq, Repr

namespace Setting

/-- The setting with a name. -/
def ofName? : String → Option Setting
  | "-p" | "--path" => some path
  | "-v" | "--verbose" => some verbose
  | "-c" | "--columns" => some columns
  | "-f" | "--format" => some format
  | "-l" | "--limit" => some limit
  | "--from-version" => some fromVersion
  | _ => none

/-- Whether a value follows the name of the setting. -/
def takesValue : Setting → Bool
  | verbose | columns => false
  | _ => true

end Setting

/-- Why arguments ask for nothing that can be done. -/
inductive Misuse where
  | noCommand
  | unknownCommand (name : String)
  | unexpected (argument : String)
  | noValue (name : String)
  | badValue (name value : String)
  | noPath (command : String)
deriving DecidableEq, Repr

/-- The words for a misuse. -/
def Misuse.message : Misuse → String
  | noCommand => "a command is required"
  | unknownCommand name => s!"unrecognized subcommand '{name}'"
  | unexpected argument => s!"unexpected argument '{argument}' found"
  | noValue name => s!"a value is required for '{name}' but none was supplied"
  | badValue name value => s!"invalid value '{value}' for '{name}'"
  | noPath command => s!"Database path required for {command}"

-- ======================================================== arguments

/-- A setting as it was given: its name, and its value if it takes one. -/
structure Given where
  setting : Setting
  name : String
  value : String
deriving DecidableEq, Repr

/-- An argument whose value follows its name at once, as two. -/
def separate (argument : String) : List String :=
  match argument.toList with
  | '-' :: '-' :: _ =>
    match argument.splitOn "=" with
    | name :: value :: more => [name, "=".intercalate (value :: more)]
    | _ => [argument]
  | '-' :: letter :: value@(_ :: _) =>
    match Setting.ofName? (String.ofList ['-', letter]) with
    | some s =>
      if s.takesValue then
        [String.ofList ['-', letter], String.ofList value]
      else [argument]
    | none => [argument]
  | _ => [argument]

/-- The settings among arguments, and the other arguments. -/
def sort : List String → Except Misuse (List Given × List String)
  | [] => .ok ([], [])
  | argument :: rest =>
    match Setting.ofName? argument with
    | none => do
      if argument.startsWith "-" then
        throw (.unexpected argument)
      let (settings, words) ← sort rest
      return (settings, argument :: words)
    | some setting =>
      if setting.takesValue then
        match rest with
        | [] => .error (.noValue argument)
        | value :: rest => do
          let (settings, words) ← sort rest
          return (⟨setting, argument, value⟩ :: settings, words)
      else do
        let (settings, words) ← sort rest
        return (⟨setting, argument, ""⟩ :: settings, words)

/-- What was given for a setting; the last one counts. -/
def given? (settings : List Given) (s : Setting) : Option Given :=
  settings.reverse.find? (·.setting == s)

/-- A count given for a setting. -/
def countOf? (settings : List Given) (s : Setting) :
    Except Misuse (Option Nat) :=
  match given? settings s with
  | none => .ok none
  | some g =>
    match g.value.toNat?.filter (· ≤ maxSize) with
    | some n => .ok n
    | none => .error (.badValue g.name g.value)

/-- The form of report that is asked for. -/
def formOf (settings : List Given) : Except Misuse Report.Form :=
  match given? settings .format with
  | none | some ⟨_, _, "text"⟩ => .ok .text
  | some ⟨_, _, "json"⟩ => .ok .json
  | some g => .error (.badValue g.name g.value)

-- ============================================================ tasks

/-- What can be asked for. -/
inductive Task where
  | report (path : String) (command : Report.Command) (form : Report.Form)
  | version
deriving DecidableEq

/-- The settings that a command has a use for; every command lets the path
and more words be asked for. -/
def settingsOf : String → Option (List Setting)
  | "inspect" => some [.path, .verbose, .columns, .format]
  | "verify" => some [.path, .verbose, .format]
  | "dump-history" => some [.path, .verbose, .format, .limit, .fromVersion]
  | "version" => some [.path, .verbose]
  | _ => none

/-- The report with a name, as the settings want it. -/
def commandOf (name : String) (settings : List Given) :
    Except Misuse Report.Command := do
  match name with
  | "inspect" => return .inspect (given? settings .columns).isSome
  | "verify" => return .verify
  | _ =>
    let fromVersion := (← countOf? settings .fromVersion).getD 0
    return .dumpHistory (← countOf? settings .limit)
      ⟨UInt64.ofNat fromVersion⟩

/-- The task of a command with settings. -/
def taskOf (name : String) (settings : List Given) : Except Misuse Task := do
  let some allowed := settingsOf name | throw (.unknownCommand name)
  if let some g := settings.find? (!allowed.contains ·.setting) then
    throw (.unexpected g.name)
  if name = "version" then
    return .version
  let form ← formOf settings
  let command ← commandOf name settings
  match given? settings .path with
  | some g => return .report g.value command form
  | none => throw (.noPath name)

/-- What arguments ask for. -/
def read (arguments : List String) : Except Misuse Task := do
  match ← sort (arguments.flatMap separate) with
  | (_, []) => throw .noCommand
  | (settings, [name]) => taskOf name settings
  | (_, _ :: extra :: _) => throw (.unexpected extra)

end Colonnade.CommandLine
