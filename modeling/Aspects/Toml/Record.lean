import Aspects.Toml.Item

/-!
# Records in TOML

A record is a list of fields with defaults. It is written as a table, in which the keys
of the fields are looked up and all other keys ignored, or as an array, whose items are
those of the fields in their order; what is missing keeps its default. A value that a
field does not take spoils the record.
-/

namespace Aspects.Toml

/-- A field of a record: the key that it has in a table, and how an item sets it. -/
structure Field (α : Type) where
  key : String
  set? : Item → α → Option α

namespace Field

variable {α : Type}

/-- A field that holds a truth value. -/
def flag (key : String) (set : Bool → α → α) : Field α where
  key := key
  set?
    | .flag b, r => some (set b r)
    | _, _ => none

/-- A field that holds a text. -/
def text (key : String) (set : String → α → α) : Field α where
  key := key
  set?
    | .text s, r => some (set s r)
    | _, _ => none

end Field

/-- Which liberties are taken with records. -/
structure Leniency where
  /-- Items of an array behind the last field are ignored. -/
  longArrays : Bool
  /-- A date or time stands for a table with none of the keys. -/
  timesAsTables : Bool

/-- Sets the fields that a table has keys for. -/
def readEntries? {α : Type} (fields : List (Field α)) (es : Entries) (r : α) : Option α :=
  fields.foldlM (fun r f => match es.lookup f.key with
    | some i => f.set? i r
    | none => some r) r

/-- Sets the fields from items in their order. -/
def readItems? {α : Type} (longArrays : Bool) : List (Field α) → List Item → α → Option α
  | _, [], r => some r
  | [], _ :: _, r => if longArrays then some r else none
  | f :: fs, i :: is, r => (f.set? i r).bind (readItems? longArrays fs is)

/-- Sets the fields of a record from the item that it is written as. -/
def readRecord? {α : Type} (l : Leniency) (fields : List (Field α)) (r : α) :
    Item → Option α
  | .table _ es => readEntries? fields es r
  | .array is => readItems? l.longArrays fields is r
  | .tables all => readItems? l.longArrays fields (all.map (.table .opened)) r
  | .time _ => if l.timesAsTables then some r else none
  | _ => none

end Aspects.Toml
