import Patchbay.Text.Hidden

/-! Quoted text: a name between double quotes in which every character can be
told. -/

set_option autoImplicit false

namespace Patchbay

def quotedChar (char : Char) : String :=
  if char = '\x00' then "\\0"
  else if char = '\t' then "\\t"
  else if char = '\r' then "\\r"
  else if char = '\n' then "\\n"
  else if char = '\\' then "\\\\"
  else if char = '"' then "\\\""
  else if isHidden char then
    "\\u\x7b" ++ String.ofList (Nat.toDigits 16 char.toNat) ++ "\x7d"
  else char.toString

def quoted (text : String) : String :=
  "\"" ++ String.join (text.toList.map quotedChar) ++ "\""

end Patchbay
