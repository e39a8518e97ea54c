import DocHarvest.Datum.Written

/-!
# Faults

Everything that can go wrong has its fault, by cause. `Fault.message` holds the wording of all of
them.
-/
namespace DocHarvest

inductive Fault where
  /-- A text operation was asked of something that is no text. -/
  | notText
  /-- A marker, suffix or other argument of a text operation is no text. -/
  | argumentNotText
  /-- A text is to be joined from parts of which one is no text. -/
  | partNotText
  /-- The length of a value without one was asked for. -/
  | noLength
  /-- Fields were asked of a value that has none by name. -/
  | notMapping
  /-- A node or document lacks the field that was asked for. -/
  | noField
  /-- A value that cannot be looked up by key was. -/
  | notIndexable
  /-- An object lacks a required key. -/
  | missingKey (key : String)
  /-- An object was looked up by a key that is no text. -/
  | missingItem (key : Datum)
  | indexOutOfRange
  | notIterable
  /-- A list or an object was used as a tag or a key. -/
  | unusableTag
  /-- A pair was expected of something with another number of members. -/
  | notPair
  /-- Two values that have no sum were to be added. -/
  | notAddable
  /-- A number is beyond the range that an operation takes. -/
  | tooLarge
  /-- A number is the code of no character. -/
  | notCode
  /-- A text that is to be read as a number is none. -/
  | notNumber
  /-- A text that is to be read as a date is none. -/
  | notDate
  /-- A date that the calendar does not have. -/
  | impossibleDate
  /-- A call with arguments that its parameters do not take. -/
  | badArguments
  | unknownNodeType (tag : Datum)
  | unnamable (typeName : String)
  | rootNotBlock (typeName : String)
  | notClass (typeName : String)
  | notFunction (typeName : String)
  | unsupportedStyle (style : String)
  /-- A document was to be changed. -/
  | frozen
  /-- A settings file is not in the format of settings files. -/
  | malformedSettings
  /-- A file cannot be opened; the system says why. -/
  | notOpened (cause : String)
  /-- A level name that stands for a text, which is the name of no level. -/
  | notLevel
  /-- A level name that stands for a table. -/
  | levelNotNumber
  /-- A record format without any field. -/
  | formatWithoutField
  /-- A record format or file name that is no text. -/
  | settingNotText

namespace Fault

def message : Fault → String
  | notText => "expected a text"
  | argumentNotText => "expected a text argument"
  | partNotText => "expected only texts to join"
  | noLength => "the value has no length"
  | notMapping => "expected an object"
  | noField => "no such field"
  | notIndexable => "the value has no keys"
  | missingKey key => key
  | missingItem key => key.written
  | indexOutOfRange => "index out of range"
  | notIterable => "the value cannot be iterated"
  | unusableTag => "the value cannot be a tag"
  | notPair => "expected two members"
  | notAddable => "the values cannot be added"
  | tooLarge => "the number is too large"
  | notCode => "the number is no character's code"
  | notNumber => "expected a number"
  | notDate => "expected a date"
  | impossibleDate => "no such date"
  | badArguments => "the arguments do not fit the parameters"
  | unknownNodeType tag => "Unknown node type: " ++ tag.written
  | unnamable typeName => "Cannot resolve a name from " ++ typeName ++ " node"
  | rootNotBlock typeName => "Expected a Block at the root, got " ++ typeName
  | notClass typeName => "Expected a class node, got " ++ typeName
  | notFunction typeName => "Expected a function assignment, got " ++ typeName
  | unsupportedStyle style =>
    "Unsupported module style " ++ quoted style ++ "; expected one of ['commonjs', 'requirejs']"
  | frozen => "a document cannot be changed"
  | malformedSettings => "the settings file is malformed"
  | notOpened cause => "the file cannot be opened: " ++ cause
  | notLevel => "not a level"
  | levelNotNumber => "a level is a number"
  | formatWithoutField => "the format has no field"
  | settingNotText => "expected a text setting"

end Fault

end DocHarvest
