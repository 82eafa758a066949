/-!
# TOML documents

The tree that a document stands for. A table remembers how it came about, because that
decides what may still be added to it: a table written between braces is closed, one
that only a longer header or a dotted key mentioned may be filled in.
-/

namespace Aspects.Toml

/-- How a table came about. -/
inductive Origin where
  /-- Written between braces. -/
  | closed
  /-- Mentioned on the way to a table with a header. -/
  | mentioned
  /-- Mentioned by a dotted key. -/
  | dotted
  /-- Opened by a header of its own. -/
  | opened
  deriving DecidableEq

/-- A part of a document. -/
inductive Item where
  | text (s : String)
  | int (n : Int)
  /-- A number with a fraction or an exponent, or one that is none. -/
  | float (lexeme : String)
  | flag (b : Bool)
  /-- A date, a time, or both. -/
  | time (lexeme : String)
  | array (items : List Item)
  | table (origin : Origin) (entries : List (String × Item))
  /-- Tables that were opened by doubled brackets under one name. -/
  | tables (all : List (List (String × Item)))

instance : Inhabited Item := ⟨.flag false⟩

/-- The entries of a table. -/
abbrev Entries := List (String × Item)

namespace Entries

/-- The entries with the item in place of the one under the key, or at the end. -/
def put (es : Entries) (key : String) (i : Item) : Entries :=
  match es with
  | [] => [(key, i)]
  | (k, j) :: rest => if k == key then (k, i) :: rest else (k, j) :: put rest key i

/-- The entries without the one under the key. -/
def drop (es : Entries) (key : String) : Entries :=
  es.filter fun (k, _) => k != key

/-- Changes the table that a path leads to and answers what the change does. Tables that
are missing on the way are made; a last table among several stands for them all. With
`dotted` a table that was opened already must not be walked through. The change is told
how the table came about. -/
def update {α : Type} (dotted : Bool) (change : Origin → Entries → Option (α × Entries)) :
    Origin → List String → Entries → Option (α × Entries)
  | origin, [], es => change origin es
  | _, key :: path, es =>
    let fresh : Origin := if dotted then .dotted else .mentioned
    match es.lookup key with
    | none => do
      let (a, sub) ← update dotted change fresh path []
      return (a, es.put key (.table fresh sub))
    | some (.table .closed _) => none
    | some (.table origin sub) =>
      if dotted && origin == .opened then none
      else do
        let (a, sub) ← update dotted change origin path sub
        return (a, es.put key (.table origin sub))
    | some (.tables all) => do
      let last ← all.getLast?
      let (a, sub) ← update dotted change .opened path last
      return (a, es.put key (.tables (all.dropLast ++ [sub])))
    | some _ => none

/-- Adds an item under a dotted key. A key of several parts may only add to tables that
dotted keys made, and nothing is written twice. -/
def add (origin : Origin) (path : List String) (i : Item) (es : Entries) : Option Entries :=
  match path.getLast? with
  | none => none
  | some key =>
    let way := path.dropLast
    let change (reached : Origin) (sub : Entries) : Option (Unit × Entries) :=
      if (reached == .dotted) == way.isEmpty then none
      else if (sub.lookup key).isSome then none
      else some ((), sub.put key i)
    (update true change origin way es).map (·.2)

end Entries

/-- The item that a path of keys leads to through tables. -/
def Item.find? : List String → Item → Option Item
  | [], i => some i
  | key :: path, .table _ es => (es.lookup key).bind (find? path)
  | _, _ => none

end Aspects.Toml
