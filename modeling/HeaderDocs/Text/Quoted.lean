import HeaderDocs.Text.Printable

/-!
Texts quoted for messages. A quoted text stands between single quotes, or between double quotes when
it has a single quote and no double quote; a backslash, the quote itself and everything that cannot
be shown are escaped.
-/

namespace HeaderDocs.Text

def hexDigits (width value : Nat) : List Char :=
  let digits := Nat.toDigits 16 value
  List.replicate (width - digits.length) '0' ++ digits

def quoteChar (quote c : Char) : List Char :=
  if c = quote ∨ c = '\\' then ['\\', c]
  else if c = '\n' then ['\\', 'n']
  else if c = '\r' then ['\\', 'r']
  else if c = '\t' then ['\\', 't']
  else if isPrintable c then [c]
  else if c.toNat < 0x100 then '\\' :: 'x' :: hexDigits 2 c.toNat
  else if c.toNat < 0x10000 then '\\' :: 'u' :: hexDigits 4 c.toNat
  else '\\' :: 'U' :: hexDigits 8 c.toNat

def quoteFor (text : List Char) : Char :=
  if text.contains '\x27' && !text.contains '\x22' then '\x22' else '\x27'

def quote (text : List Char) : List Char :=
  let mark := quoteFor text
  mark :: (text.flatMap (quoteChar mark) ++ [mark])

def quoted (text : String) : String :=
  String.ofList (quote text.toList)

end HeaderDocs.Text
