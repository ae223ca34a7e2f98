import GlyphLexer.Listing
import GlyphLexer.Text.Encoding
import GlyphLexer.Yaml.Data
import GlyphLexer.Yaml.Document

/-!
# Configuration

The options that a configuration file sets.

A file holds one YAML document. It may say nothing, and then nothing is set;
otherwise it is a mapping, and each of its entries sets an option: `format`
to the name of a format, or `showEof` to a boolean. Every entry is checked,
in the order of data, and the first one that sets nothing is what is wrong
with the file. Null is not the absence of a value.

How data is written down is the business of a reader, which gives the data of
a text, or a complaint if the text is not well formed. The complaint goes
into the report about the file as it is. The reader of YAML is `Yaml.read`;
that it is this one matters to nothing here, so it is an argument of the
functions that use it.

What the command line says goes before what the file says, and that before
the defaults, for each option on its own.

## Main definitions

* `FileState`: What a path holds.
* `Configuration.Setting`: What one entry sets.
* `Configuration.ofValue`, `Configuration.loadWith`: The options of data, and
  of a file.
* `Configuration.Problem`: What can be wrong with a configuration.
* `Configuration.Overrides`, `Configuration.resolveWith`: The options of a
  run.
* `Yaml.read`, `Configuration.load`, `Configuration.resolve`: The same for
  files in YAML.
-/

namespace GlyphLexer

/-- What a path holds. -/
inductive FileState where
  | missing
  /-- There is something, but it cannot be read. -/
  | unreadable (reason : Text)
  | file (content : Bytes)
  deriving DecidableEq, Repr

/-- A directory cannot be read as if it were a file. -/
def FileState.directory : FileState :=
  unreadable (text "EISDIR: illegal operation on a directory, read")

/-- The complaint about a text that is not well-formed YAML, whatever is
    wrong with it. -/
def Yaml.complaint : Text := text "not a well-formed document"

/-- The data that a text in YAML says, or the complaint about it. -/
def Yaml.read (t : Text) : Except Text Value :=
  match parse? t with
  | some node => .ok node.toValue
  | none => .error complaint

/-- The options of a run about which nothing is said. -/
def Options.default : Options := ⟨.text, true⟩

namespace Configuration

/-- The name of the configuration file in its directory. -/
def fileName : Text := text ".glyph-lex.yaml"

/-- What can be wrong with a configuration. -/
inductive Problem where
  | unreadable (reason : Text)
  /-- The file says no data, and this is the complaint of its reader. -/
  | notYaml (complaint : Text)
  | notMapping
  | unknownKey (key : Text)
  | invalidFormat (shown : Text)
  /-- The value that should name a format has no text to be reported with. -/
  | formatWithoutText
  | showEofNotBoolean
  deriving DecidableEq, Repr

namespace Problem

/-- What is wrong with the value of the format. -/
def ofFormat (value : Value) : Problem :=
  if value.hasText then invalidFormat value.display else formatWithoutText

/-- What is said about the configuration, unless its value cannot even be
    shown. -/
def reason? : Problem → Option Text
  | unreadable reason => some (text "failed to read file (" ++ reason ++ text ")")
  | notYaml complaint => some (text "invalid YAML (" ++ complaint ++ text ")")
  | notMapping => some (text "must be a mapping")
  | unknownKey key => some (text "unknown key " ++ key)
  | invalidFormat shown =>
    some (text "format has invalid value \"" ++ shown ++ text "\" (must be 'text' or 'json')")
  | formatWithoutText => none
  | showEofNotBoolean => some (text "showEof must be a boolean")

/-- What a problem is reported as. -/
def message (p : Problem) : Text :=
  match p.reason? with
  | some reason => text "Invalid configuration: " ++ reason
  | none => text "Cannot convert object to primitive value"

end Problem

/-- What one entry sets. -/
inductive Setting where
  | format (f : OutputFormat)
  | showEof (b : Bool)
  deriving DecidableEq, Repr

/-- The setting of an entry. -/
def Setting.ofEntry (key : Text) (value : Value) : Except Problem Setting :=
  if key = text "format" then
    match OutputFormat.ofValue? value with
    | some f => .ok (.format f)
    | none => .error (.ofFormat value)
  else if key = text "showEof" then
    match value with
    | .boolean b => .ok (.showEof b)
    | _ => .error .showEofNotBoolean
  else .error (.unknownKey key)

/-- Options with one of them set. -/
def Setting.apply (options : Options) : Setting → Options
  | format f => { options with format := f }
  | showEof b => { options with showEof := b }

/-- Options with each entry set, as far as every one of them sets
    something. -/
def applyEntries (options : Options) : List (Text × Value) → Except Problem Options
  | [] => .ok options
  | (key, value) :: rest =>
    match Setting.ofEntry key value with
    | .ok setting => applyEntries (setting.apply options) rest
    | .error problem => .error problem

/-- The options that the data of a configuration file sets. -/
def ofValue : Value → Except Problem Options
  | .null => .ok Options.default
  | .mapping entries => applyEntries Options.default entries
  | _ => .error .notMapping

/-- The options that a text sets. -/
def ofTextWith (read : Text → Except Text Value) (t : Text) : Except Problem Options :=
  match read t with
  | .ok value => ofValue value
  | .error complaint => .error (.notYaml complaint)

/-- The options that a configuration file sets, or nothing if there is no
    file. -/
def loadWith (read : Text → Except Text Value) : FileState → Except Problem (Option Options)
  | .missing => .ok none
  | .unreadable reason => .error (.unreadable reason)
  | .file content => (ofTextWith read (Text.ofUtf8 content)).map some

/-- The options that a configuration file in YAML sets. -/
def load : FileState → Except Problem (Option Options) := loadWith Yaml.read

/-- What the command line says about each option. -/
structure Overrides where
  format : Option OutputFormat
  showEof : Option Bool
  deriving DecidableEq, Repr

/-- Options with those replaced that the command line says something
    about. -/
def Overrides.apply (o : Overrides) (options : Options) : Options :=
  ⟨o.format.getD options.format, o.showEof.getD options.showEof⟩

/-- The options of a run: the defaults, the configuration file, and the
    command line, each going before the one named earlier. -/
def resolveWith (read : Text → Except Text Value) (overrides : Overrides) (config : FileState) :
    Except Problem Options :=
  (loadWith read config).map fun loaded => overrides.apply (loaded.getD Options.default)

/-- The options of a run with a configuration file in YAML. -/
def resolve : Overrides → FileState → Except Problem Options := resolveWith Yaml.read

end Configuration

end GlyphLexer
