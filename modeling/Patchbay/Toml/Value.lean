/-! The values of a settings document, and how its tables grow.

A table can be opened once by a header and once by dotted keys, and never by
both. A table that was only passed through on the way to a deeper header can
still be opened by a header of its own.
-/

set_option autoImplicit false

namespace Patchbay.Toml

inductive TableForm where
  /-- Written in braces; closed at once. -/
  | inline
  /-- Opened by a header of its own. -/
  | header
  /-- Passed through by a longer header. -/
  | implicit
  /-- Opened by dotted keys. -/
  | dotted
  deriving DecidableEq

inductive Value where
  | string (text : String)
  | integer (number : Int)
  | float (number : Float)
  | boolean (truth : Bool)
  | datetime (text : String)
  | array (items : List Value)
  | table (form : TableForm) (entries : List (String × Value))
  /-- The tables of repeated headers. -/
  | tables (elements : List (List (String × Value)))

abbrev Entries := List (String × Value)

namespace Entries

def set (entries : Entries) (key : String) (value : Value) : Entries :=
  entries.map fun (other, old) => (other, if other = key then value else old)

def insert (entries : Entries) (key : String) (value : Value) : Option Entries :=
  if entries.any (·.1 = key) then none else some (entries ++ [(key, value)])

/-- Changes the table at a path, seen from a table of the given form. Tables that
are missing are made in the form `fresh`. Dotted keys do not enter a table with
a header, nothing enters a closed one, and of repeated tables the last is meant. -/
def within (fresh : TableForm) (change : TableForm → Entries → Option Entries) :
    (path : List String) → TableForm → Entries → Option Entries
  | [], form, entries => change form entries
  | key :: rest, _, entries =>
      match entries.lookup key with
      | none => do
          return entries ++ [(key, .table fresh (← within fresh change rest fresh []))]
      | some (.table form inner) =>
          if form = .inline ∨ (form = .header ∧ fresh = .dotted) then none
          else do
            return entries.set key (.table form (← within fresh change rest form inner))
      | some (.tables elements) => do
          let last ← within fresh change rest .header (← elements.getLast?)
          return entries.set key (.tables (elements.dropLast ++ [last]))
      | some _ => none

/-- Adds a value under a dotted key. The table it ends in must itself have come
from dotted keys. -/
def insertDotted (entries : Entries) (path : List String) (key : String) (value : Value) :
    Option Entries :=
  entries.within .dotted (fun form inner =>
    if path ≠ [] ∧ form ≠ .dotted then none else inner.insert key value) path .header

def openTable (entries : Entries) (path : List String) (key : String) : Option Entries :=
  entries.within .implicit (fun _ inner =>
    match inner.lookup key with
    | none => some (inner ++ [(key, .table .header [])])
    | some (.table .implicit old) => some (inner.set key (.table .header old))
    | some _ => none) path .header

def openElement (entries : Entries) (path : List String) (key : String) : Option Entries :=
  entries.within .implicit (fun _ inner =>
    match inner.lookup key with
    | none => some (inner ++ [(key, .tables [[]])])
    | some (.tables elements) => some (inner.set key (.tables (elements ++ [[]])))
    | some _ => none) path .header

end Entries

end Patchbay.Toml
