import PocketPascal.Text.Digit
import PocketPascal.Text.Quoted

/-! # Options of the command line

How arguments are told apart and what they set. Options and the one positional argument may come in
any order; long options may be abbreviated, short ones may be joined, and `--` ends the options.
-/

namespace PocketPascal.CommandLine

/-- The options. -/
inductive Flag where
  | help | string | outDir | config | fromTokens | print | verbose
  deriving DecidableEq

namespace Flag

/-- All options in order. -/
def all : List Flag := [help, string, outDir, config, fromTokens, print, verbose]

/-- The letter of an option that has a short form. -/
def letter? : Flag → Option Char
  | help => some 'h'
  | string => some 's'
  | outDir => some 'o'
  | config => some 'c'
  | fromTokens => none
  | print => some 'p'
  | verbose => none

/-- The long form of an option. -/
def long : Flag → String
  | help => "--help"
  | string => "--string"
  | outDir => "--out-dir"
  | config => "--config"
  | fromTokens => "--from-tokens"
  | print => "--print"
  | verbose => "--verbose"

/-- Whether an option takes an argument. -/
def takesArgument : Flag → Bool
  | outDir | config => true
  | _ => false

/-- All forms of an option, as complaints name it. -/
def title (f : Flag) : String :=
  match f.letter? with
  | some c => s!"-{c}/{f.long}"
  | none => f.long

/-- The option with a letter. -/
def ofLetter? (c : Char) : Option Flag :=
  all.find? fun f => f.letter? == some c

/-- The option with a long form. -/
def ofLong? (text : List Char) : Option Flag :=
  all.find? fun f => f.long.toList == text

/-- The options whose long form starts with a text. -/
def abbreviatedBy (text : List Char) : List Flag :=
  all.filter fun f => text.isPrefixOf f.long.toList

end Flag

/-- Why arguments are refused. -/
inductive UsageError where
  | unrecognized (args : List String)
  | expectedArgument (f : Flag)
  | ignoredArgument (f : Flag) (text : String)
  | ambiguous (arg : String)
  deriving DecidableEq

/-- What is said about refused arguments. -/
def UsageError.message : UsageError → String
  | unrecognized args => "unrecognized arguments: " ++ String.intercalate " " args
  | expectedArgument f => s!"argument {f.title}: expected one argument"
  | ignoredArgument f text => s!"argument {f.title}: ignored explicit argument {Text.quoted text}"
  | ambiguous arg =>
    s!"ambiguous option: {arg} could match " ++ String.intercalate ", " (Flag.all.map Flag.long)

/-! ## Telling arguments apart -/

/-- What an argument is by itself. -/
inductive Word where
  | plain (text : String)
  /-- The end of the options. -/
  | marker
  /-- An option, by its letter or its long form, and a text attached to it. -/
  | option (f : Flag) (short : Bool) (attached : Option (List Char))
  | unknown (text : String)
  deriving DecidableEq

/-- Whether a text is a minus sign with a number, whole or with a point; a line feed may follow. -/
def isNegativeNumber (cs : List Char) : Bool :=
  let digits (ds : List Char) : Bool := ds.all fun c => (Text.digitValue? c).isSome
  let number (ds : List Char) : Bool :=
    match ds.splitOn '.' with
    | [whole] => digits whole && !whole.isEmpty
    | [whole, frac] => digits whole && digits frac && !frac.isEmpty
    | _ => false
  match cs with
  | '-' :: ds => number ds || (ds.getLast? == some '\n' && number ds.dropLast)
  | _ => false

/-- An argument that starts with a minus sign but is no option. -/
def wordOfOther (cs : List Char) : Word :=
  if isNegativeNumber cs || cs.contains ' ' then .plain (String.ofList cs)
  else .unknown (String.ofList cs)

/-- A text before its first equals sign, and what follows the sign. -/
def cutEquals (cs : List Char) : List Char × Option (List Char) :=
  match cs.dropWhile (· != '=') with
  | [] => (cs, none)
  | _ :: rest => (cs.takeWhile (· != '='), some rest)

/-- An argument that starts with two minus signs: a long option, perhaps abbreviated. -/
def wordOfLong (cs : List Char) : Except UsageError Word :=
  let (name, attached) := cutEquals cs
  match Flag.ofLong? name with
  | some f => .ok (.option f false attached)
  | none =>
    match Flag.abbreviatedBy name with
    | [] => .ok (wordOfOther cs)
    | [f] => .ok (.option f false attached)
    | _ => .error (.ambiguous (String.ofList cs))

/-- An argument that starts with one minus sign and a letter. The text attached to the letter may
follow an equals sign. -/
def wordOfShort (c : Char) (rest : List Char) : Word :=
  match Flag.ofLetter? c with
  | none => wordOfOther ('-' :: c :: rest)
  | some f =>
    match rest with
    | [] => .option f true none
    | '=' :: text => .option f true (some text)
    | _ => .option f true (some rest)

/-- What an argument is by itself. -/
def classify (arg : String) : Except UsageError Word :=
  match arg.toList with
  | '-' :: '-' :: [] => .ok .marker
  | '-' :: '-' :: rest => wordOfLong ('-' :: '-' :: rest)
  | '-' :: c :: rest => .ok (wordOfShort c rest)
  | _ => .ok (.plain arg)

/-- What arguments are: everything after the end of the options is plain. -/
def classifyAll : List String → Except UsageError (List Word)
  | [] => .ok []
  | arg :: rest =>
    match classify arg with
    | .error e => .error e
    | .ok .marker => .ok (.marker :: rest.map .plain)
    | .ok word => (classifyAll rest).map (word :: ·)

/-! ## Options joined in one argument -/

/-- What an option that takes an argument is given. -/
inductive Given where
  | text (s : String)
  /-- No argument at all: two minus signs, attached to the option, do not count as one. -/
  | nothing
  deriving DecidableEq

/-- What a text attached to an option gives it. -/
def Given.ofAttached (text : List Char) : Given :=
  if text = ['-', '-'] then nothing else .text (String.ofList text)

/-- The text that an option is given. -/
def Given.text? : Given → Option String
  | text s => some s
  | nothing => none

/-- How an argument that holds options ends. -/
inductive Ending where
  | nothing
  /-- With an option and what it is given. -/
  | argument (f : Flag) (given : Given)
  /-- With an option whose argument is the next one on the command line. -/
  | wanting (f : Flag)
  deriving DecidableEq

/-- The options that one argument holds: those without an argument of their own, and its ending. -/
structure Cluster where
  flags : List Flag
  ending : Ending
  deriving DecidableEq

/-- Puts an option before others. -/
def Cluster.cons (f : Flag) (c : Cluster) : Cluster :=
  { c with flags := f :: c.flags }

/-- An option that nothing is attached to. -/
def Cluster.single (f : Flag) : Cluster :=
  if f.takesArgument then ⟨[], .wanting f⟩ else ⟨[f], .nothing⟩

/-- An option with a text attached that it takes as its argument. -/
def Cluster.withArgument (f : Flag) (text : List Char) : Cluster :=
  ⟨[], .argument f (.ofAttached text)⟩

/-- The options in a letter and the text right after it. The text is the argument of the letter's
option or goes on with further letters; what is no letter of an option is refused with all that
follows it. -/
def expandLetters (f : Flag) : List Char → Except UsageError Cluster
  | [] => .ok (.single f)
  | c :: rest =>
    if f.takesArgument then .ok (.withArgument f (c :: rest))
    else
      match Flag.ofLetter? c with
      | none => .error (.ignoredArgument f (String.ofList (c :: rest)))
      | some g => (expandLetters g rest).map (Cluster.cons f)

/-- The options that one argument holds. Letters may follow only a letter, and an empty text has
none. -/
def expand (f : Flag) (short : Bool) : Option (List Char) → Except UsageError Cluster
  | none => .ok (.single f)
  | some text =>
    if f.takesArgument then .ok (.withArgument f text)
    else if short ∧ text ≠ [] then expandLetters f text
    else .error (.ignoredArgument f (String.ofList text))

/-! ## Reading the command line -/

/-- What a command line sets. -/
structure Options where
  source : Option String := none
  isText : Bool := false
  outDir : Option Given := none
  config : Option String := none
  fromTokens : Bool := false
  printErrors : Bool := false
  verbose : Bool := false
  deriving DecidableEq

/-- Sets an option without an argument. -/
def Options.setFlag (o : Options) : Flag → Options
  | .string => { o with isText := true }
  | .fromTokens => { o with fromTokens := true }
  | .print => { o with printErrors := true }
  | .verbose => { o with verbose := true }
  | _ => o

/-- Sets an option to what it is given. A settings file given as nothing is none. -/
def Options.setArgument (o : Options) (f : Flag) (given : Given) : Options :=
  match f with
  | .outDir => { o with outDir := some given }
  | .config => { o with config := given.text? }
  | _ => o

/-- What a command line asks for. -/
inductive Request where
  | help
  | run (o : Options)
  deriving DecidableEq

/-- How far a command line has been read: whether its positional argument has been met, and the
arguments that nothing takes. -/
structure Progress where
  options : Options := {}
  sourceMet : Bool := false
  extras : List String := []

/-- The request of a command line read to its end. -/
def Progress.finish (p : Progress) : Except UsageError Request :=
  if p.extras.isEmpty then .ok (.run p.options) else .error (.unrecognized p.extras)

/-- Takes the positional argument, or none. -/
def Progress.takeSource (p : Progress) (source : Option String) : Progress :=
  { p with options := { p.options with source }, sourceMet := true }

/-- Keeps arguments that nothing takes. -/
def Progress.leave (p : Progress) (args : List String) : Progress :=
  { p with extras := p.extras ++ args }

/-- Sets options without arguments. -/
def Progress.setFlags (p : Progress) (flags : List Flag) : Progress :=
  { p with options := flags.foldl Options.setFlag p.options }

/-- Sets an option to what it is given. -/
def Progress.setArgument (p : Progress) (f : Flag) (given : Given) : Progress :=
  { p with options := p.options.setArgument f given }

/-- The texts of arguments after the end of the options. -/
def plainTexts (words : List Word) : List String :=
  words.filterMap fun
    | .plain text => some text
    | _ => none

/-- Reads what follows the end of the options. The sign itself counts as an argument that nothing
takes if the positional argument was met before. -/
def Progress.afterMarker (p : Progress) (rest : List String) : Progress :=
  if p.sourceMet then p.leave ("--" :: rest)
  else (p.takeSource rest.head?).leave rest.tail

/-- Reads words in order. Asking for help ends the reading. -/
def readWords (p : Progress) : List Word → Except UsageError Request
  | [] => p.finish
  | .marker :: rest => (p.afterMarker (plainTexts rest)).finish
  | .plain text :: rest =>
    if p.sourceMet then readWords (p.leave [text]) rest
    else match rest with
      | .marker :: rest => ((p.takeSource (some text)).leave (plainTexts rest)).finish
      | _ => readWords (p.takeSource (some text)) rest
  | .unknown text :: rest => readWords (p.leave [text]) rest
  | .option f short attached :: rest =>
    match expand f short attached with
    | .error e => .error e
    | .ok cluster =>
      let p' := p.setFlags cluster.flags
      let helpAsked := cluster.flags.contains .help
      match cluster.ending, rest with
      | .wanting g, .plain text :: rest =>
        if helpAsked then .ok .help else readWords (p'.setArgument g (.text text)) rest
      | .wanting g, _ => .error (.expectedArgument g)
      | .argument g given, rest =>
        if helpAsked then .ok .help else readWords (p'.setArgument g given) rest
      | .nothing, rest => if helpAsked then .ok .help else readWords p' rest

/-- Reads a command line. -/
def readArguments (args : List String) : Except UsageError Request :=
  (classifyAll args).bind (readWords {})

end PocketPascal.CommandLine
