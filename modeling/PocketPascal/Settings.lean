import PocketPascal.Limits
import PocketPascal.Files.Access
import PocketPascal.Json.Reader

/-! # Settings

Where a run reads and writes, and its limits. Settings start from defaults and are overlaid with the
members of an object; an overlay is applied as a whole or not at all.
-/

namespace PocketPascal

/-- The settings of a run. -/
structure Settings where
  sourcePath : RawText := "input/source.pas"
  outputDir : RawText := "output"
  tokenFile : RawText := "source.dyd"
  cleanedFile : RawText := "source.dys"
  variableFile : RawText := "source.var"
  procedureFile : RawText := "source.pro"
  errorFile : RawText := "source.err"
  limits : Limits := {}
  deriving DecidableEq

namespace Settings

/-- The settings that are texts. -/
inductive TextField where
  | sourcePath | outputDir | tokenFile | cleanedFile | variableFile | procedureFile | errorFile
  deriving DecidableEq

/-- The settings that are numbers. -/
inductive NumberField where
  | identifierLength | nestingDepth
  deriving DecidableEq

/-- A setting. -/
inductive Field where
  | text (f : TextField)
  | number (f : NumberField)
  deriving DecidableEq

namespace Field

/-- All settings in order. -/
def all : List Field :=
  [.text .sourcePath, .text .outputDir, .text .tokenFile, .text .cleanedFile, .text .variableFile,
   .text .procedureFile, .text .errorFile, .number .identifierLength, .number .nestingDepth]

/-- The key under which a setting is given. -/
def key : Field → String
  | text .sourcePath => "source_path"
  | text .outputDir => "output_dir"
  | text .tokenFile => "token_file"
  | text .cleanedFile => "cleaned_token_file"
  | text .variableFile => "variable_file"
  | text .procedureFile => "procedure_file"
  | text .errorFile => "error_file"
  | number .identifierLength => "max_identifier_length"
  | number .nestingDepth => "max_nesting_depth"

/-- The setting with a given key. -/
def ofKey? (key : RawText) : Option Field :=
  all.find? fun f => RawText.ofString f.key == key

/-- The type that the value of a setting must have. -/
def typeName : Field → String
  | text _ => "str"
  | number _ => "int"

end Field

/-- A setting with its new value. -/
inductive Assignment where
  | text (f : TextField) (s : RawText)
  | number (f : NumberField) (n : Int)
  deriving DecidableEq

/-- Changes one setting. -/
def assign (c : Settings) : Assignment → Settings
  | .text .sourcePath s => { c with sourcePath := s }
  | .text .outputDir s => { c with outputDir := s }
  | .text .tokenFile s => { c with tokenFile := s }
  | .text .cleanedFile s => { c with cleanedFile := s }
  | .text .variableFile s => { c with variableFile := s }
  | .text .procedureFile s => { c with procedureFile := s }
  | .text .errorFile s => { c with errorFile := s }
  | .number .identifierLength n => { c with limits := { c.limits with identifierLength := n } }
  | .number .nestingDepth n => { c with limits := { c.limits with nestingDepth := n } }

/-- What is wrong with one member of an overlay. -/
inductive Problem where
  | unknown (key : RawText)
  | wrongType (field : Field) (given : String)
  | notPositive (field : NumberField)
  | aboveCeiling (field : NumberField)
  deriving DecidableEq

/-- What is said about one member of an overlay. -/
def Problem.message : Problem → String
  | unknown key => s!"unknown setting {Text.quoted key}"
  | wrongType field given =>
    s!"{Text.quoted field.key} must be {field.typeName}, got {given}"
  | notPositive field => s!"{Text.quoted (Field.number field).key} must be positive"
  | aboveCeiling field =>
    s!"{Text.quoted (Field.number field).key} must be at most {Limits.nestingCeiling}"

/-- Checks the number given for a setting. -/
def checkNumber (field : NumberField) (n : Int) : Except Problem Assignment :=
  if n < 1 then .error (.notPositive field)
  else if field = .nestingDepth ∧ (Limits.nestingCeiling : Int) < n then
    .error (.aboveCeiling field)
  else .ok (.number field n)

/-- Checks one member of an overlay. -/
def check (key : RawText) (value : Json.Value) : Except Problem Assignment :=
  match Field.ofKey? key, value with
  | none, _ => .error (.unknown key)
  | some (.text f), .string s => .ok (.text f s)
  | some (.number f), .int n => checkNumber f n
  | some f, v => .error (.wrongType f v.typeName)

/-- Why settings are refused. -/
inductive Refusal where
  | notAnObject
  | invalid (problems : List Problem)
  | malformed
  | unreadable (e : FileError)
  deriving DecidableEq

/-- What is said about refused settings. -/
def Refusal.message : Refusal → String
  | notAnObject => "Configuration must be a JSON object"
  | invalid problems =>
    "Invalid configuration: " ++ String.intercalate "; " (problems.map Problem.message)
  | malformed => "Failed to load config file"
  | unreadable e => s!"Failed to load config file: {e.message}"

/-- The problem that a check has found. -/
def problem? : Except Problem Assignment → Option Problem
  | .error p => some p
  | .ok _ => none

/-- The assignment that a check has passed. -/
def assignment? : Except Problem Assignment → Option Assignment
  | .error _ => none
  | .ok a => some a

/-- Overlays settings with members; every bad member is reported, in order, and any refuses all. -/
def overlay (c : Settings) (members : List (RawText × Json.Value)) : Except Refusal Settings :=
  let checked := members.map fun (key, value) => check key value
  match checked.filterMap problem? with
  | [] => .ok ((checked.filterMap assignment?).foldl assign c)
  | problems => .error (.invalid problems)

/-- Overlays settings with a value, which has to be an object. -/
def configure (c : Settings) : Json.Value → Except Refusal Settings
  | .object members => c.overlay members
  | _ => .error .notAnObject

/-- Overlays settings with those members that are not `null`. -/
def update (c : Settings) (members : List (RawText × Json.Value)) : Except Refusal Settings :=
  c.overlay (members.filter fun m => !m.2.isNull)

/-- Why the bytes of a file yield no settings. -/
inductive LoadError where
  | refused (r : Refusal)
  | undecodable
  | numberTooLong
  | nestedTooDeep (c : Json.Container)
  deriving DecidableEq

/-- The defaults overlaid with what a file holds. -/
def ofBytes (bytes : ByteArray) : Except LoadError Settings :=
  match decodeText? bytes with
  | none => .error .undecodable
  | some text =>
    match Json.read text with
    | .error .malformed => .error (.refused .malformed)
    | .error .numberTooLong => .error .numberTooLong
    | .error (.nestedTooDeep c) => .error (.nestedTooDeep c)
    | .ok v => (configure {} v).mapError .refused

/-- The path of an output file. -/
def outputPath (c : Settings) (name : RawText) : Path :=
  (Path.ofText c.outputDir).join (Path.ofText name)

end Settings

end PocketPascal
