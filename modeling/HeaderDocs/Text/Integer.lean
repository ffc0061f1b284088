import HeaderDocs.Text.Blank
import HeaderDocs.Text.Digit

/-!
Whole numbers as people write them: blanks around, a sign in front, decimal digits of any script,
and single underscores between digits.
-/

namespace HeaderDocs.Text

/-- White space that may stand around a number: that of Unicode without the four separator
controls. -/
def isNumberBlank (c : Char) : Bool :=
  isBlank c && !(0x1C ≤ c.toNat && c.toNat ≤ 0x1F)

/-- The value of digits with single underscores between them, after digits of a known value. -/
def digitsAfter (value : Nat) : List Char → Option Nat
  | [] => some value
  | '_' :: c :: rest => (digitValue? c).bind fun digit => digitsAfter (10 * value + digit) rest
  | c :: rest => (digitValue? c).bind fun digit => digitsAfter (10 * value + digit) rest

def naturalOf? : List Char → Option Nat
  | [] => none
  | c :: rest => (digitValue? c).bind fun digit => digitsAfter digit rest

def integerOf? (text : List Char) : Option Int :=
  let bare := ((text.dropWhile isNumberBlank).reverse.dropWhile isNumberBlank).reverse
  match bare with
  | '-' :: digits => (naturalOf? digits).map fun value => -Int.ofNat value
  | '+' :: digits => (naturalOf? digits).map Int.ofNat
  | digits => (naturalOf? digits).map Int.ofNat

end HeaderDocs.Text
