import LineCoach.Config.Basic
import LineCoach.FileTree.Basic
import LineCoach.Toml.Document

/-!
# Reading a configuration

A configuration is a TOML document. Names that mean nothing are passed over, values of the wrong
kind are refused, and what is missing has its default.
-/

namespace LineCoach

namespace Toml.Value

/-- The number, when the value is an integer that is not negative. -/
def natural? : Value → Option Nat
  | integer (.ofNat value) => some value
  | _ => none

/-- The texts, when the value is an array of strings. -/
def strings? (value : Value) : Option (List String) := do
  (← value.array?).mapM string?

/-- The name of the one member that a date and time has when it is looked into like a table. -/
def datetimeName : String := "$__toml_private_datetime"

/-- The members of a value that can be looked into by name. A date and time has one, its text. -/
def members? : Value → Option (List (String × Value))
  | table members => some members
  | datetime text => some [(datetimeName, .string text)]
  | _ => none

mutual

/-- The value as it is kept for later use. A table that begins with the name for dates stands for
a date and time: it has no other member, and its text has to be one. -/
def settled? : Value → Option Value
  | array items => (settledItems? items).map array
  | table [] => some (table [])
  | table ((name, value) :: members) =>
    if name = datetimeName then
      match value, members with
      | string text, [] => Toml.datetimeOf? text
      | _, _ => none
    else do
      let value ← settled? value
      let members ← settledMembers? members
      return table ((name, value) :: members)
  | value => some value

/-- The items of an array as they are kept for later use. -/
def settledItems? : List Value → Option (List Value)
  | [] => some []
  | item :: items => do
    let item ← settled? item
    let items ← settledItems? items
    return item :: items

/-- The members of a table as they are kept for later use. -/
def settledMembers? : List (String × Value) → Option (List (String × Value))
  | [] => some []
  | (name, value) :: members => do
    let value ← settled? value
    let members ← settledMembers? members
    return (name, value) :: members

end

end Toml.Value

open Toml (Value)

/-- Read a value that may be missing. -/
def readOr {α : Type} (default : α) (read : Value → Option α) : Option Value → Option α
  | none => some default
  | some value => read value

namespace AnalyzerSettings

/-- Read the settings from the values that are given for them. -/
def ofValues? (root maxLineLength extensions exclude timeout : Option Value) :
    Option AnalyzerSettings := do
  let defaults : AnalyzerSettings := {}
  return {
    root := ← readOr defaults.root (fun value => value.string?.map Path.mk) root
    maxLineLength := ← readOr defaults.maxLineLength Value.natural? maxLineLength
    extensions := ← readOr defaults.extensions Value.strings? extensions
    exclude := ← readOr defaults.exclude Value.strings? exclude
    parseTimeout := ← readOr defaults.parseTimeout
      (fun value => value.natural?.map fun millis => some ⟨millis⟩) timeout }

/-- Read the settings by name, or from an array in the order of the settings. -/
def ofValue? (value : Value) : Option AnalyzerSettings :=
  match value.members? with
  | some members =>
    ofValues? (members.lookup "root") (members.lookup "max_line_length")
      (members.lookup "extensions") (members.lookup "exclude") (members.lookup "parse_timeout_ms")
  | none =>
    value.array?.bind fun items => ofValues? items[0]? items[1]? items[2]? items[3]? items[4]?

end AnalyzerSettings

namespace ClassifierSettings

/-- Read the settings of a classifier. -/
def ofValue? (value : Value) : Option ClassifierSettings := do
  let members ← value.members?
  return {
    enabled := ← readOr none (fun value => value.boolean?.map some) (members.lookup "enabled")
    options := ← Value.settledMembers? (members.filter fun member => member.1 ≠ "enabled") }

end ClassifierSettings

/-- Why a configuration cannot be had. -/
inductive ConfigError where
  /-- The file cannot be read. -/
  | unreadable (path : Path) (failure : FileTree.Failure)
  /-- The text is no configuration. -/
  | invalid
deriving DecidableEq, Repr

namespace ConfigError

/-- What is wrong with a text that is no configuration. -/
def fault : String := "the text is not a configuration in TOML"

/-- The error in words. -/
def message : ConfigError → String
  | unreadable path failure => s!"cannot read {path.text}: {failure.message}"
  | invalid => s!"invalid config: {fault}"

/-- What lies behind the error, in words. -/
def causes : ConfigError → List String
  | unreadable _ failure => [failure.message]
  | invalid => [fault]

end ConfigError

namespace Config

/-- Read the settings of all classifiers. -/
def classifiersOf? (value : Value) : Option (List (String × ClassifierSettings)) := do
  (← value.members?).mapM fun (name, value) => do
    return (name, ← ClassifierSettings.ofValue? value)

/-- Read a configuration from the members of a document. -/
def ofMembers? (members : List (String × Value)) : Option Config := do
  return {
    preset := ← readOr none (fun value => value.string?.map some) (members.lookup "preset")
    analyzer := ← readOr {} AnalyzerSettings.ofValue? (members.lookup "analyzer")
    classifiers := ← readOr [] classifiersOf? (members.lookup "classifiers") }

/-- Read a configuration. -/
def parse (text : String) : Except ConfigError Config :=
  match (Toml.parse? text).bind ofMembers? with
  | some config => .ok config
  | none => .error .invalid

/-- Read the configuration in a file. -/
def ofFile (root : FileTree) (base path : Path) : Except ConfigError Config :=
  match root.readText base path with
  | .error failure => .error (.unreadable path failure)
  | .ok text => parse text

end Config

end LineCoach
