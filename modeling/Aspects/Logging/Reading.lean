import Aspects.Logging.Basic
import Aspects.Toml.Document
import Aspects.Toml.Record

/-!
# Reading logging settings

Settings come from the key `logging` of a TOML document, and variables of the
environment replace level, format and filter whatever they hold. A document without
the key leaves the defaults.
-/

namespace Aspects.Logging.Settings

/-- The settings as fields of a record. -/
def fields : List (Toml.Field Settings) := [
  .text "level" fun t s => { s with level := t },
  .text "format" fun t s => { s with format := t },
  .flag "show-target" fun b s => { s with showTarget := b },
  .flag "show-thread-ids" fun b s => { s with showThreadIds := b },
  .text "filter" fun t s => { s with filter := some t }]

/-- The settings that the text of a document describes, if it can be read. -/
def ofText? (text : String) : Option Settings := do
  let doc ← Toml.parse? text
  match doc.find? ["logging"] with
  | none => return {}
  | some i => Toml.readRecord? ⟨true, true⟩ fields {} i

/-- The settings with those replaced that a variable is set for. -/
def override (lookup : String → Option String) (s : Settings) : Settings :=
  { s with
    filter := (lookup "RUST_LOG").or s.filter
    level := (lookup "LOG_LEVEL").getD s.level
    format := (lookup "LOG_FORMAT").getD s.format }

end Aspects.Logging.Settings
