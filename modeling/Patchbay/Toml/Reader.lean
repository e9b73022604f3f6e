/-! Readers: each takes something from the front of a text and leaves the rest,
or fails and leaves everything. -/

set_option autoImplicit false

namespace Patchbay.Toml

abbrev Reader := StateT (List Char) Option

namespace Reader

variable {α β : Type}

def one (accept : Char → Bool) : Reader Char := fun
  | char :: rest => if accept char then some (char, rest) else none
  | [] => none

def exactly (char : Char) : Reader Unit := discard (one (· = char))

def word (text : String) : Reader Unit := text.toList.forM exactly

def run (accept : Char → Bool) : Reader (List Char) := fun chars =>
  some (chars.takeWhile accept, chars.dropWhile accept)

def count (accept : Char → Bool) : Nat → Reader (List Char)
  | 0 => pure []
  | number + 1 => do return (← one accept) :: (← count accept number)

def require (holds : Bool) : Reader Unit := if holds then pure () else failure

def ended : Reader Unit := fun chars => if chars.isEmpty then some ((), chars) else none

def moreToCome : Reader Unit := fun chars => if chars.isEmpty then none else some ((), chars)

def maybe (item : Reader α) : Reader (Option α) := (some <$> item) <|> pure none

def upTo (item : Reader α) : (bound : Nat) → Reader (List α)
  | 0 => pure []
  | bound + 1 => (do return (← item) :: (← upTo item bound)) <|> pure []

/-- As many items as there are. An item takes at least one character, so the
length of the text bounds their number. -/
def many (item : Reader α) : Reader (List α) := fun chars => upTo item chars.length chars

def separated (item : Reader α) (separator : Reader β) : Reader (List α) :=
  (do
    let first ← item
    return first :: (← many (separator *> item))) <|> pure []

/-! Blank space, comments and line ends. -/

def isBlank (char : Char) : Bool := char = ' ' || char = '\t'

def blanks : Reader Unit := discard (run isBlank)

def newline : Reader Unit := exactly '\n' <|> word "\r\n"

def isTextChar (char : Char) : Bool :=
  char = '\t' || (' ' ≤ char && char ≤ '~') || '\x7f' < char

def comment : Reader Unit := exactly '#' *> discard (run isTextChar)

def gap : Reader Unit :=
  discard (many (discard (one isBlank) <|> newline <|> (comment *> newline)))

def lineEnd : Reader Unit := do
  blanks
  discard (maybe comment)
  newline <|> ended

end Reader

end Patchbay.Toml
