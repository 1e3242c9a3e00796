import RustMetrics.Settings.Value
import RustMetrics.Text.Utf8

/-! What can go wrong, by cause. The wording of a cause is in one place,
`Failure.message`. -/

namespace RustMetrics

/-- What a node was asked for when there was no node. -/
inductive Asked where
  | kind
  | text
  | children
  deriving DecidableEq, Repr

def Asked.word : Asked → String
  | kind => "type"
  | text => "text"
  | children => "children"

/-- What is wrong with settings. -/
inductive SettingsFault where
  | notMapping
  | unknownMode (found : Value)
  | unknownFormat (found : Value)
  | badLimit (found : Value)

def SettingsFault.message : SettingsFault → String
  | notMapping => "configuration must be a mapping"
  | unknownMode v => "Unknown analysis mode: " ++ v.shown
  | unknownFormat v => "Unknown output format: " ++ v.shown
  | badLimit v => "max_complexity must be a non-negative integer, got " ++ v.shown

inductive Failure where
  | settings (fault : SettingsFault)
  /-- The parser could not read the file; lines and columns count from one. -/
  | rejected (path : String) (line column : Option Int) (detail : String)
  /-- The type of an `impl` starts with no name. -/
  | unnamedImpl (path : String) (line : Int) (typeText : String)
  | undecodable (error : Utf8.Error)
  /-- A node that the analysis needs is not in the tree. -/
  | absentNode (asked : Asked)
  /-- A renamed import has no path. -/
  | emptyImport
  /-- A value does not have what values of another sort have. -/
  | lacks (found : Value) (member : String)
  | notIterable (found : Value)
  | unhashable (found : Value)
  | noSettingsFile (path : String)
  | noSource (path : String)
  | noEntry (path : String)
  | notDirectory (path : String)
  | isDirectory (path : String)
  | nulInPath
  /-- A path, or a name on it, has more bytes than a disk can take. -/
  | nameTooLong (path : String)
  /-- A section has the name of the settings themselves. -/
  | reservedSection (name : String)
  /-- A loader refused a settings file; the words are the loader's own. -/
  | unreadable (kind words : String)
  | unknownLevel (words : String)
  /-- A level that is neither a number nor a name; the words are its value. -/
  | notLevel (words : String)
  | unknownSymbolKind (word : String)
  /-- A number is too long to be written out. -/
  | tooManyDigits
  /-- A failure was told with the wrong number of values. -/
  | misused (words : String)
  | unknownFailure (word : String)

/-- A column that is not known is spelled out. -/
def columnText : Option Int → String
  | none => "None"
  | some c => toString c

def Failure.message : Failure → String
  | settings fault => fault.message
  | rejected path none _ detail => path ++ ": " ++ detail
  | rejected path (some line) column detail =>
    path ++ ":" ++ toString line ++ ":" ++ columnText column ++ ": " ++ detail
  | unnamedImpl path line typeText =>
    path ++ ":" ++ toString line ++ ": identifier not found for impl of " ++ Text.quoted typeText
  | undecodable error => error.message
  | absentNode asked => "'NoneType' object has no attribute '" ++ asked.word ++ "'"
  | emptyImport => "list index out of range"
  | lacks found member => "'" ++ found.sort ++ "' object has no attribute '" ++ member ++ "'"
  | notIterable found => "'" ++ found.sort ++ "' object is not iterable"
  | unhashable found => "unhashable type: '" ++ found.sort ++ "'"
  | noSettingsFile path => "Config file not found: " ++ path
  | noSource path => "No such file or directory: " ++ path
  | noEntry path => "[Errno 2] No such file or directory: " ++ Text.quoted path
  | notDirectory path => "[Errno 20] Not a directory: " ++ Text.quoted path
  | isDirectory path => "[Errno 21] Is a directory: " ++ Text.quoted path
  | nulInPath => "embedded null byte"
  | nameTooLong path => "[Errno 36] File name too long: " ++ Text.quoted path
  | reservedSection name =>
    "Config.override() got multiple values for argument " ++ Text.quoted name
  | unreadable _ words => words
  | unknownLevel words => "Unknown level: " ++ Text.quoted words
  | notLevel words => "Level not an integer or a valid string: " ++ words
  | unknownSymbolKind word => Text.quoted word ++ " is not a valid ComplexityKind"
  | tooManyDigits =>
    "Exceeds the limit (4300 digits) for integer string conversion; " ++
      "use sys.set_int_max_str_digits() to increase the limit"
  | misused words => words
  | unknownFailure word =>
    "module 'cyclomatic.core.errors' has no attribute " ++ Text.quoted word

/-- The text of a node, which must be UTF-8. -/
def decoded (bytes : List UInt8) : Except Failure String :=
  (Utf8.decode bytes).mapError .undecodable

end RustMetrics
