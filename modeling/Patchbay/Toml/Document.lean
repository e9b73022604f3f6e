import Patchbay.Toml.Scalar

/-! Reading a settings document: one statement a line, each an entry or the
header of a table. -/

set_option autoImplicit false

namespace Patchbay.Toml

open Reader

/-! ## Keys -/

def isBareChar (char : Char) : Bool := char.isAlphanum || char = '_' || char = '-'

def bareKey : Reader String := do
  let first ← one isBareChar
  return String.ofList (first :: (← run isBareChar))

def simpleKey : Reader String := do
  blanks
  let key ← basicString <|> literalString <|> bareKey
  blanks
  return key

/-- Paths and nested values are shorter than this. -/
def depthLimit : Nat := 80

def dottedKey : Reader (List String × String) := do
  let first ← simpleKey
  let others ← many (exactly '.' *> simpleKey)
  require (others.length + 1 < depthLimit)
  match others.getLast? with
  | some last => return (first :: others.dropLast, last)
  | none => return ([], first)

/-! ## Values -/

def scalar : Reader Value :=
  .string <$> string <|> .datetime <$> datetime <|> .float <$> float
    <|> .integer <$> integer <|> .boolean <$> boolean

def array (item : Reader Value) : Reader Value := do
  exactly '['
  let items ← separated (gap *> item <* gap) (exactly ',')
  unless items.isEmpty do discard (maybe (exactly ','))
  gap
  exactly ']'
  return .array items

/-- Entries on one line; no comma follows the last. -/
def inlineTable (item : Reader Value) : Reader Value := do
  exactly '\x7b'
  let pairs ← separated (do
    let key ← dottedKey
    exactly '='
    blanks
    let value ← item
    blanks
    return (key, value)) (exactly ',')
  blanks
  exactly '\x7d'
  let entries : Option Entries := pairs.foldlM
    (fun entries (key, value) => entries.insertDotted key.1 key.2 value) []
  return .table .inline (← entries)

def value : (depth : Nat) → Reader Value
  | 0 => scalar
  | depth + 1 => scalar <|> array (value depth) <|> inlineTable (value depth)

/-! ## Statements -/

inductive Statement where
  | entry (path : List String) (key : String) (value : Value)
  | header (path : List String) (key : String)
  /-- The header of one of several tables under one key. -/
  | element (path : List String) (key : String)

def element : Reader Statement := do
  word "[["
  let (path, key) ← dottedKey
  word "]]"
  return .element path key

def header : Reader Statement := do
  exactly '['
  let (path, key) ← dottedKey
  exactly ']'
  return .header path key

def entry : Reader Statement := do
  let (path, key) ← dottedKey
  exactly '='
  blanks
  return .entry path key (← value (depthLimit - 1))

def line : Reader (Option Statement) := do
  moreToCome
  blanks
  let statement ← maybe (element <|> header <|> entry)
  lineEnd
  return statement

def statements : Reader (List Statement) := do
  discard (maybe (exactly '\ufeff'))
  let lines ← many line
  ended
  return lines.filterMap id

/-! ## Documents -/

structure Draft where
  entries : Entries
  current : List String

namespace Draft

def add (draft : Draft) : Statement → Option Draft
  | .entry path key value => do
      let entries ← draft.entries.within .implicit
        (fun _ table => table.insertDotted path key value) draft.current .header
      return { draft with entries }
  | .header path key => do
      return ⟨← draft.entries.openTable path key, path ++ [key]⟩
  | .element path key => do
      return ⟨← draft.entries.openElement path key, path ++ [key]⟩

end Draft

def parse (text : String) : Option Entries := do
  let (lines, _) ← statements text.toList
  let draft ← lines.foldlM Draft.add ⟨[], []⟩
  return draft.entries

end Patchbay.Toml
