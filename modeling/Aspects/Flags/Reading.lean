import Aspects.Failure
import Aspects.Flags.Basic
import Aspects.Text.Blank
import Aspects.Toml.Document
import Aspects.Toml.Record

/-!
# Reading flags

Flags come from the table `chimera.aop` of a TOML document, and variables of the
environment override them. A document without that table leaves the defaults; one that
cannot be read, or whose table does not describe flags, is a fault. A variable that
spells no truth value overrides nothing.
-/

namespace Aspects.Flags

/-- The flags as fields of a record. -/
def fields : List (Toml.Field Flags) := [
  .flag "proxy-target-class" fun b f => { f with proxyTargetClass := b },
  .flag "optimize" fun b f => { f with optimize := b },
  .flag "opaque" fun b f => { f with concealed := b },
  .flag "expose-proxy" fun b f => { f with exposeProxy := b },
  .flag "frozen" fun b f => { f with frozen := b }]

/-- The flags that a document describes. -/
def ofDocument (doc : Toml.Item) : Except Fault Flags :=
  match doc.find? ["chimera", "aop"] with
  | none => .ok {}
  | some i =>
    match Toml.readRecord? ⟨false, false⟩ fields {} i with
    | some f => .ok f
    | none => .error (.config "Invalid [chimera.aop] table")

/-- The flags that the text of a document describes. -/
def ofText (text : String) : Except Fault Flags :=
  match Toml.parse? text with
  | some doc => ofDocument doc
  | none => .error (.config "Failed to parse TOML")

/-- The fault of a file that is not there. -/
def missingFile (path : String) : Fault :=
  .config ("Failed to read config file " ++ Text.quote path ++
    ": No such file or directory (os error 2)")

/-- The truth value that a variable spells, without regard to case and blanks around. -/
def spelled? (raw : String) : Option Bool :=
  match Text.lower (String.ofList (Text.trim raw.toList)) with
  | "true" => some true
  | "yes" => some true
  | "1" => some true
  | "false" => some false
  | "no" => some false
  | "0" => some false
  | _ => none

/-- The variables that override flags, by the end of their names. -/
def overrides : List (String × (Bool → Flags → Flags)) := [
  ("PROXY_TARGET_CLASS", fun b f => { f with proxyTargetClass := b }),
  ("OPTIMIZE", fun b f => { f with optimize := b }),
  ("OPAQUE", fun b f => { f with concealed := b }),
  ("EXPOSE_PROXY", fun b f => { f with exposeProxy := b }),
  ("FROZEN", fun b f => { f with frozen := b })]

/-- The flags with those overridden that a variable spells a truth value for. -/
def override (lookup : String → Option String) (f : Flags) : Flags :=
  overrides.foldl (fun f (name, set) =>
    match (lookup ("CHIMERA_AOP_" ++ name)).bind spelled? with
    | some b => set b f
    | none => f) f

end Aspects.Flags
