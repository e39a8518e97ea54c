import DocHarvest.Text.Printable

/-!
# Texts as messages show them

A message shows a text between quotes, with every character that would not be seen written by an
escape. Double quotes are used only for a text that holds a single quote and no double one.
-/
namespace DocHarvest.Text.Quoted

def single : Char := '\x27'

def double : Char := '\x22'

def backslash : Char := '\x5c'

/-- The quote that needs the fewest escapes, a single one if both need as many. -/
def mark (text : List Char) : Char :=
  if text.contains single && !text.contains double then double else single

def hexDigit (n : Nat) : Char := if n < 10 then Char.ofNat (48 + n) else Char.ofNat (87 + n)

/-- The lowest `width` hexadecimal digits of a number. -/
def hex : Nat → Nat → List Char
  | 0, _ => []
  | width + 1, n => hex width (n / 16) ++ [hexDigit (n % 16)]

/-- Two digits below U+0100, four below U+10000, else eight. -/
def codePoint (n : Nat) : List Char :=
  if n < 0x100 then backslash :: 'x' :: hex 2 n
  else if n < 0x10000 then backslash :: 'u' :: hex 4 n
  else backslash :: 'U' :: hex 8 n

def escape (quote c : Char) : List Char :=
  if c = quote ∨ c = backslash then [backslash, c]
  else if c = '\n' then [backslash, 'n']
  else if c = '\r' then [backslash, 'r']
  else if c = '\t' then [backslash, 't']
  else if isPrintable c then [c]
  else codePoint c.toNat

def encode (text : List Char) : List Char :=
  mark text :: text.flatMap (escape (mark text)) ++ [mark text]

end DocHarvest.Text.Quoted
