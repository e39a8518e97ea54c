import DocHarvest.Yaml.Tree.Basic

/-!
# Plain scalars

By its looks a plain scalar stands for a truth value, a number, null, a date, or itself.
-/
namespace DocHarvest.Yaml

def truths : List String := ["true", "True", "TRUE", "yes", "Yes", "YES", "on", "On", "ON"]

def falsehoods : List String :=
  ["false", "False", "FALSE", "no", "No", "NO", "off", "Off", "OFF"]

def nulls : List String := ["", "~", "null", "Null", "NULL"]

def infinities : List String := [".inf", ".Inf", ".INF"]

def undefineds : List String := [".nan", ".NaN", ".NAN"]

/-- Digits of numbers may be divided by underscores. -/
def isDigitOrMark (c : Char) : Bool := Text.isDigit c || c == '_'

/-- The text of a number after its sign. -/
def unsigned : List Char → List Char
  | '-' :: cs => cs
  | '+' :: cs => cs
  | cs => cs

/-- A digit, then digits and underscores: what follows them. -/
def afterWhole? : List Char → Option (List Char)
  | c :: cs => if Text.isDigit c then some (cs.dropWhile isDigitOrMark) else none
  | [] => none

/-- Whether a text is an exponent with its sign, or nothing. -/
def isExponent : List Char → Bool
  | [] => true
  | e :: s :: digits =>
    (e == 'e' || e == 'E') && (s == '+' || s == '-') && !digits.isEmpty && digits.all Text.isDigit
  | _ => false

/-- Past groups of a colon with a number below sixty, of which there is at least one. -/
def afterSixtieths? (cs : List Char) : Option (List Char) :=
  match cs.span (· != ':') with
  | ([], _ :: rest) => groups rest.length rest
  | _ => none
where
  groups : Nat → List Char → Option (List Char)
    | 0, _ => none
    | fuel + 1, cs =>
      let digits := cs.takeWhile Text.isDigit
      let isGroup := match digits with
        | [_] => true
        | [a, _] => a ≤ '5'
        | _ => false
      if !isGroup then none
      else
        match cs.drop digits.length with
        | ':' :: rest => groups fuel rest
        | rest => some rest

def isFloat (cs : List Char) : Bool :=
  let body := unsigned cs
  let s := String.ofList body
  infinities.contains s || undefineds.contains (String.ofList cs) ||
    (match cs with
      | '.' :: c :: rest => Text.isDigit c && isExponent (rest.dropWhile isDigitOrMark)
      | _ => false) ||
    (match afterWhole? body with
      | some ('.' :: rest) => isExponent (rest.dropWhile isDigitOrMark)
      | some rest =>
        match afterSixtieths? rest with
        | some ('.' :: rest) => rest.all isDigitOrMark
        | _ => false
      | none => false)

def isInt (cs : List Char) : Bool :=
  match unsigned cs with
  | [] => false
  | ['0'] => true
  | '0' :: 'b' :: d :: ds => (d :: ds).all fun c => c == '0' || c == '1' || c == '_'
  | '0' :: 'x' :: d :: ds => (d :: ds).all fun c => (hexValue? c).isSome || c == '_'
  | '0' :: ds => ds.all fun c => ('0' ≤ c && c ≤ '7') || c == '_'
  | body =>
    match afterWhole? body with
    | some [] => true
    | some rest => afterSixtieths? rest == some []
    | none => false

/-- A year, a month and a day in decimal, with as many digits as written. -/
def dateParts? (cs : List Char) : Option (List Char × List Char × List Char × List Char) :=
  let year := cs.takeWhile Text.isDigit
  match cs.drop year.length with
  | '-' :: cs =>
    let month := cs.takeWhile Text.isDigit
    match cs.drop month.length with
    | '-' :: cs =>
      let day := cs.takeWhile Text.isDigit
      some (year, month, day, cs.drop day.length)
    | _ => none
  | _ => none

/-- One or two digits. -/
def isShort (digits : List Char) : Bool := digits.length == 1 || digits.length == 2

/-- Whether a text is an offset from universal time, or nothing. -/
def isOffset (cs : List Char) : Bool :=
  match cs with
  | [] | ['Z'] => true
  | s :: cs =>
    let hours := cs.takeWhile Text.isDigit
    (s == '+' || s == '-') && isShort hours &&
      (match cs.drop hours.length with
        | [] => true
        | [':', a, b] => Text.isDigit a && Text.isDigit b
        | _ => false)

/-- The hours, minutes and seconds that follow a date, with the fraction and the offset after them.
-/
def clockParts? (cs : List Char) : Option (List Char × List Char × List Char × List Char) := do
  let hours := cs.takeWhile Text.isDigit
  match cs.drop hours.length with
  | ':' :: a :: b :: ':' :: c :: d :: rest =>
    if isShort hours && [a, b, c, d].all Text.isDigit then return (hours, [a, b], [c, d], rest)
    else none
  | _ => none

/-- Past the sign that divides a date from the hours. -/
def afterDate? : List Char → Option (List Char)
  | c :: cs =>
    if c == 'T' || c == 't' then some cs
    else if isGap c then some (cs.dropWhile isGap)
    else none
  | [] => none

/-- Whether what follows the seconds is a fraction, an offset, both or nothing. -/
def isClockTail : List Char → Bool
  | '.' :: cs => isOffset ((cs.dropWhile Text.isDigit).dropWhile isGap)
  | cs => isOffset (cs.dropWhile isGap)

def isDate (cs : List Char) : Bool :=
  match dateParts? cs with
  | some (year, month, day, rest) =>
    year.length == 4 && isShort month && isShort day &&
      (if rest.isEmpty then month.length == 2 && day.length == 2
      else
        match (afterDate? rest).bind clockParts? with
        | some (_, _, _, rest) => isClockTail rest
        | none => false)
  | none => false

/-- The tag of a plain scalar. -/
def resolve (cs : List Char) : Tag :=
  let s := String.ofList cs
  if truths.contains s || falsehoods.contains s then .bool
  else if isFloat cs then .float
  else if isInt cs then .int
  else if s = "<<" then .merge
  else if nulls.contains s then .null
  else if isDate cs then .date
  else if s = "=" then .principal
  else .text

end DocHarvest.Yaml
