import DocHarvest.Trace

/-!
# Levels of log records

A level has a name in capitals, and some have two. A few names that are written like one stand for
something else.
-/
namespace DocHarvest.Level

/-- The capitals of a letter as far as level names need them: that of an ASCII letter, and the ASCII
capitals of letters and ligatures outside ASCII. -/
def capitals : Char → List Char
  | 'ı' => ['I']
  | 'ſ' => ['S']
  | 'ß' => ['S', 'S']
  | 'ﬀ' => ['F', 'F']
  | 'ﬁ' => ['F', 'I']
  | 'ﬂ' => ['F', 'L']
  | 'ﬃ' => ['F', 'F', 'I']
  | 'ﬄ' => ['F', 'F', 'L']
  | 'ﬅ' | 'ﬆ' => ['S', 'T']
  | c => [c.toUpper]

/-- The levels by name, in capitals. Some have two names. -/
def named : List (String × Int) :=
  [("CRITICAL", critical), ("FATAL", critical), ("ERROR", error), ("WARNING", warning),
    ("WARN", warning), ("INFO", info), ("DEBUG", debug), ("NOTSET", 0)]

/-- The names that are taken by something other than a level: a text and a table. -/
def reserved : List (String × Fault) := [("BASIC_FORMAT", .notLevel), ("_STYLES", .levelNotNumber)]

/-- The level of a name in any case of its letters; a name that means nothing stands for `INFO`. -/
def ofName (name : String) : Except Fault Int :=
  let upper := String.ofList (name.toList.flatMap capitals)
  match reserved.lookup upper with
  | some e => .error e
  | none => .ok ((named.lookup upper).getD info)

/-- The name under which records show their level. -/
def name (level : Int) : String :=
  if level = debug then "DEBUG"
  else if level = info then "INFO"
  else if level = warning then "WARNING"
  else if level = error then "ERROR"
  else if level = critical then "CRITICAL"
  else if level = 0 then "NOTSET"
  else "Level " ++ toString level

end DocHarvest.Level
