import BlockCheck.Text.Printable

/-!
# Quoted names

A name between quotes, with what cannot be printed written as an escape. Single quotes are used
unless the name has some and has no double ones.
-/

namespace BlockCheck.Text

def hexText : Nat → Nat → List Char
  | 0, _ => []
  | n + 1, value => hexText n (value / 16) ++ [Nat.digitChar (value % 16)]

def quotedChar (quote : Char) (c : Char) : List Char :=
  if c = quote || c = '\\' then ['\\', c]
  else if c = '\n' then ['\\', 'n']
  else if c = '\r' then ['\\', 'r']
  else if c = '\t' then ['\\', 't']
  else if isPrintable c then [c]
  else if c.toNat < 0x100 then '\\' :: 'x' :: hexText 2 c.toNat
  else if c.toNat < 0x10000 then '\\' :: 'u' :: hexText 4 c.toNat
  else '\\' :: 'U' :: hexText 8 c.toNat

def quoted (name : String) : String :=
  let cs := name.toList
  let quote := if cs.contains '\'' && !cs.contains '"' then '"' else '\''
  String.ofList (quote :: cs.flatMap (quotedChar quote) ++ [quote])

end BlockCheck.Text
