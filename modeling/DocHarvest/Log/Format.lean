import DocHarvest.Log.Conversion
import DocHarvest.Log.Level
import DocHarvest.Text.Digits
import DocHarvest.Text.WordChar

/-!
# Formats of log records

A format is a text with fields such as `%(levelname)-8s`. A format has to hold at least one field. A
record for which a format makes no sense is written as nothing.
-/
namespace DocHarvest.Log

inductive Piece where
  | char (c : Char)
  | field (spec : Spec)

structure Format where
  text : List Char
  deriving DecidableEq

namespace Format

def isFlag (c : Char) : Bool := ['#', '0', '+', ' ', '-'].contains c

/-- The letters that may end a field, in any case; dotted and dotless `i` and long `s` count too. -/
def isConversion (c : Char) : Bool :=
  ['d', 'i', 'o', 'u', 'x', 'e', 'f', 'g', 'c', 'r', 's', 'a', '%'].contains c.toLower ||
    ['İ', 'ı', 'ſ'].contains c

/-- Drop a star or digits. -/
def dropCount : List Char → List Char
  | '*' :: cs => cs
  | cs => cs.dropWhile Text.isDecimalDigit

/-- Drop a point with a star or digits after it. -/
def dropPrecision : List Char → List Char
  | '.' :: cs => if (dropCount cs).length < cs.length then dropCount cs else '.' :: cs
  | cs => cs

/-- Whether a percent sign in front of this text starts a field. -/
def startsField : List Char → Bool
  | '(' :: cs =>
    match cs.dropWhile Text.isWordChar with
    | ')' :: rest =>
      decide (1 < cs.length - rest.length) &&
        match dropPrecision (dropCount (rest.dropWhile isFlag)) with
        | c :: _ => isConversion c
        | [] => false
    | _ => false
  | _ => false

def hasField : List Char → Bool
  | [] => false
  | c :: cs => (c == '%' && startsField cs) || hasField cs

def isSizeLetter (c : Char) : Bool := c == 'h' || c == 'l' || c == 'L'

def greatestWidth : Nat := Nat.pow 2 63 - 1

def greatestPrecision : Nat := Nat.pow 2 31 - 1

/-- The number that a text starts with, zero without one, and the text after it. -/
def count (cs : List Char) : Nat × List Char :=
  (Text.digitsValue (cs.takeWhile Text.isDigit), cs.dropWhile Text.isDigit)

/-- A point with digits after it, and the text after them. -/
def precision? : List Char → Option Nat × List Char
  | '.' :: cs => (some (count cs).1, (count cs).2)
  | cs => (none, cs)

def dropSizeLetter : List Char → List Char
  | c :: cs => if isSizeLetter c then cs else c :: cs
  | [] => []

/-- The field behind an opening parenthesis, and the text after it. -/
def spec? (cs : List Char) : Option (Spec × List Char) :=
  match cs.dropWhile (· != ')') with
  | [] => none
  | _ :: rest =>
    let field := String.ofList (cs.takeWhile (· != ')'))
    let flags := rest.takeWhile isFlag
    let (width, rest) := count (rest.dropWhile isFlag)
    let (precision, rest) := precision? rest
    if greatestWidth < width || greatestPrecision < precision.getD 0 then none
    else
      match dropSizeLetter rest with
      | conversion :: rest => some ({ field, flags, width, precision, conversion }, rest)
      | [] => none

/-- The pieces of a format; the fuel bounds their number. A percent sign is written twice, and any
other starts a field. -/
def pieces : Nat → List Char → Option (List Piece)
  | _, [] => some []
  | 0, _ => none
  | fuel + 1, c :: cs =>
    if c = '%' then
      match cs with
      | '%' :: rest => (pieces fuel rest).map (.char '%' :: ·)
      | '(' :: rest => do
        let (spec, rest) ← spec? rest
        return .field spec :: (← pieces fuel rest)
      | _ => none
    else (pieces fuel cs).map (.char c :: ·)

/-- The value of a field in a record made at a given time. Records have no fault attached, and one
thread of one process makes them. -/
def fieldValue? (time : String) (r : Record) : String → Option FieldValue
  | "asctime" => some (.text time)
  | "name" => some (.text r.logger)
  | "levelname" => some (.text (Level.name r.level))
  | "levelno" => some (.number r.level)
  | "message" => some (.text r.message)
  | "exc_info" | "exc_text" | "stack_info" => some .absent
  | "threadName" => some (.text "MainThread")
  | "processName" => some (.text "MainProcess")
  | _ => none

def renderPiece (time : String) (r : Record) : Piece → Option (List Char)
  | .char c => some [c]
  | .field spec => do spec.write? (← fieldValue? time r spec.field)

/-- The text of a record, if the format makes sense for it. -/
def render (f : Format) (time : String) (r : Record) : Option String := do
  let ps ← pieces (f.text.length + 1) f.text
  let texts ← ps.mapM (renderPiece time r)
  return String.ofList texts.flatten

/-- The message alone. -/
def messageOnly : Format := ⟨"%(message)s".toList⟩

/-- The format that a setting gives; an empty one stands for the message alone. -/
def ofData (d : Datum) : Except Fault Format :=
  if d.isPresent then
    match d with
    | .text s => if hasField s.toList then .ok ⟨s.toList⟩ else .error .formatWithoutField
    | _ => .error .settingNotText
  else .ok messageOnly

end Format

end DocHarvest.Log
