import Raml.Keyed
import Raml.Settings

/-! The arguments of the command line: a command and its options.

Options stand in any order. A value follows its option or is attached to it, behind an equals sign
or directly behind the letter of a short option. What is wrong with an argument counts before what
is wrong with those behind it, but the values of an option are looked at only when the next one
starts.
-/

namespace Raml.CommandLine

/-- Why arguments name nothing to do, if they do not ask for help. -/
inductive Usage where
  | help
  | version
  | nothingToDo
  | unknownCommand
  | unknownArgument
  | missingArgument
  /-- A value that is missing or not among the possible ones. -/
  | invalidValue
  /-- A value that cannot be read. -/
  | unreadableValue
  | unexpectedValue
  | repeatedArgument
  deriving DecidableEq

/-- The wording of what is wrong. -/
def Usage.message : Usage → String
  | .help | .nothingToDo => "usage: raml parse|check --input <path> [options]"
  | .version => "raml 0.1.0"
  | .unknownCommand => "error: unrecognized command"
  | .unknownArgument => "error: unexpected argument"
  | .missingArgument => "error: a required argument is missing"
  | .invalidValue => "error: invalid value of an argument"
  | .unreadableValue => "error: unreadable value of an argument"
  | .unexpectedValue => "error: an argument takes no value"
  | .repeatedArgument => "error: an argument is repeated"

/-- Whether usage was asked for. -/
def Usage.isAnswer : Usage → Bool
  | .help | .version => true
  | _ => false

/-- How an option takes values. -/
inductive Arity where
  | none
  | one
  /-- One, even if it starts with a hyphen. -/
  | oneOfAnyForm
  /-- One or more, up to the next option. -/
  | many
  /-- One that is attached behind an equals sign; without any, it is `true`. -/
  | attached
  deriving DecidableEq

/-- What the values of an option are. -/
inductive ValueForm where
  | text
  | path
  | truth
  | number
  deriving DecidableEq

/-- An option of a command. -/
structure Flag where
  name : String
  letter : Option Char := none
  arity : Arity
  form : ValueForm := .text
  required : Bool := false
  deriving DecidableEq

/-- The whole number that a text spells, if it is the value of a signed word of 64 bits. -/
def readNumber? (text : String) : Option Int64 := do
  let (negative, ds) :=
    match text.toList with
    | '-' :: ds => (true, ds)
    | '+' :: ds => (false, ds)
    | ds => (false, ds)
  if ds.isEmpty || !ds.all Char.isDigit then none
  else
    let n : Nat := ds.foldl (fun n d => n * 10 + (d.toNat - 48)) 0
    let i : Int := if negative then -n else n
    int64? i

/-- Values have to be of the form of their option. -/
def ValueForm.check (form : ValueForm) (value : String) : Except Usage Unit :=
  match form with
  | .text => .ok ()
  | .path => if value.isEmpty then .error .invalidValue else .ok ()
  | .truth => if value = "true" ∨ value = "false" then .ok () else .error .invalidValue
  | .number => if (readNumber? value).isSome then .ok () else .error .unreadableValue

/-- The values of options, by the options' names. -/
abbrev Given := List (String × List String)

/-- Gives values to an option. Only one that takes many may be given more than once. -/
def give (given : Given) (flag : Flag) (values : List String) : Except Usage Given := do
  match Keyed.get? given flag.name with
  | none =>
      values.forM flag.form.check
      return given ++ [(flag.name, values)]
  | some before =>
      if flag.arity ≠ .many then throw .repeatedArgument
      values.forM flag.form.check
      return Keyed.insert given flag.name (before ++ values)

/-- An option that is being given values. -/
structure Pending where
  flag : Flag
  values : List String

/-- Whether the next word is one of the values. -/
def Pending.takesWord (p : Pending) : Bool := p.values.isEmpty || p.flag.arity = .many

/-- Whether the next argument is a value, whatever it looks like. -/
def Pending.takesAnything (p : Pending) : Bool :=
  p.values.isEmpty && p.flag.arity = .oneOfAnyForm

/-- Ends the values of an option, of which there has to be one. -/
def close (given : Given) : Option Pending → Except Usage Given
  | none => .ok given
  | some p => if p.values.isEmpty then .error .invalidValue else give given p.flag p.values

/-- An argument as it looks: an option with or without an attached value, or a word. -/
inductive Shape where
  | separator
  | long (name : String) (value : Option String)
  | short (letter : Char) (value : Option String)
  | word

/-- The text before the first equals sign, and the text behind it. -/
def splitEquals (text : List Char) : String × Option String :=
  match text.dropWhile (· ≠ '=') with
  | [] => (String.ofList text, none)
  | _ :: value => (String.ofList (text.takeWhile (· ≠ '=')), some (String.ofList value))

def Shape.of (arg : String) : Shape :=
  match arg.toList with
  | ['-', '-'] => .separator
  | '-' :: '-' :: rest => let (name, value) := splitEquals rest; .long name value
  | ['-', c] => .short c none
  | '-' :: c :: '=' :: value => .short c (some (String.ofList value))
  | '-' :: c :: value => .short c (some (String.ofList value))
  | _ => .word

/-- What an option leads to, once the one before it has all its values. -/
def start (given : Given) (pending : Option Pending) (flag : Flag) (value : Option String)
    : Except Usage (Given × Option Pending) := do
  if flag.arity = .none ∧ value.isSome then throw .unexpectedValue
  let given ← close given pending
  match flag.arity, value with
  | .none, _ => return (← give given flag [], none)
  | _, some value => return (← give given flag [value], none)
  | .attached, none => return (← give given flag ["true"], none)
  | _, none => return (given, some { flag, values := [] })

/-- Reads the options of a command. -/
def readFlags (flags : List Flag) (given : Given) (pending : Option Pending)
    : List String → Except Usage Given
  | [] => do
      let given ← close given pending
      if flags.any fun flag => flag.required && !Keyed.has given flag.name then
        throw .missingArgument
      return given
  | arg :: args => do
      match pending with
      | some p =>
          if p.takesAnything then
            return ← readFlags flags given (some { p with values := [arg] }) args
      | none => pure ()
      match Shape.of arg with
      | .separator =>
          if args.isEmpty then readFlags flags given pending args else throw .unknownArgument
      | .long "help" value =>
          if value.isSome then throw .unexpectedValue
          let _ ← close given pending
          throw .help
      | .short 'h' _ =>
          let _ ← close given pending
          throw .help
      | .long name value =>
          match flags.find? (·.name == name) with
          | none => throw .unknownArgument
          | some flag =>
              let (given, pending) ← start given pending flag value
              readFlags flags given pending args
      | .short letter value =>
          match flags.find? (·.letter == some letter) with
          | none => throw .unknownArgument
          | some flag =>
              let (given, pending) ← start given pending flag value
              readFlags flags given pending args
      | .word =>
          match pending with
          | some p =>
              if p.takesWord then
                readFlags flags given (some { p with values := p.values ++ [arg] }) args
              else throw .unknownArgument
          | none => throw .unknownArgument

/-- The options that say how documents are parsed. -/
def settingsFlags : List Flag :=
  [{ name := "config", arity := .one, form := .path },
    { name := "check-raml-version", arity := .attached, form := .truth },
    { name := "ignore-unused-annotation", arity := .attached, form := .truth },
    { name := "ignore-unused-trait", arity := .attached, form := .truth },
    { name := "allow-integer-to-be-number", arity := .attached, form := .truth },
    { name := "allow-array-to-be-null", arity := .attached, form := .truth },
    { name := "allow-required-property-to-be-empty", arity := .attached, form := .truth },
    { name := "cache-dir", arity := .one, form := .path },
    { name := "error-trace-distance", arity := .oneOfAnyForm, form := .number }]

def parseFlags : List Flag :=
  [{ name := "input", letter := some 'i', arity := .many, required := true },
    { name := "out", letter := some 'o', arity := .one, form := .path },
    { name := "compact", arity := .none }] ++ settingsFlags

def checkFlags : List Flag :=
  [{ name := "input", letter := some 'i', arity := .one, form := .path, required := true },
    { name := "type", letter := some 't', arity := .one, required := true },
    { name := "value", arity := .one, form := .path, required := true }] ++ settingsFlags

namespace Given

def text? (given : Given) (name : String) : Option String :=
  (Keyed.get? given name).bind List.head?

def path? (given : Given) (name : String) : Option Path := (given.text? name).map Path.mk

def truth? (given : Given) (name : String) : Option Bool := (given.text? name).map (· == "true")

/-- Settings with what options say in place of what they said. -/
def override (given : Given) (s : Settings) : Settings :=
  { checkVersion := (given.truth? "check-raml-version").getD s.checkVersion
    check := {
      integerAsNumber :=
        (given.truth? "allow-integer-to-be-number").getD s.check.integerAsNumber
      nullAsArray := (given.truth? "allow-array-to-be-null").getD s.check.nullAsArray
      emptyRequired :=
        (given.truth? "allow-required-property-to-be-empty").getD s.check.emptyRequired }
    ignoreUnusedAnnotations :=
      (given.truth? "ignore-unused-annotation").getD s.ignoreUnusedAnnotations
    ignoreUnusedTraits := (given.truth? "ignore-unused-trait").getD s.ignoreUnusedTraits
    cacheDirectory := (given.path? "cache-dir").or s.cacheDirectory
    excerptDistance :=
      ((given.text? "error-trace-distance").bind readNumber?).getD s.excerptDistance }

end Given

/-- Something to do. -/
inductive Command where
  /-- Parse documents and print them. -/
  | parse (given : Given)
  /-- Check a value against a declared type. -/
  | check (given : Given)

/-- The options that were given. -/
def Command.given : Command → Given
  | .parse given | .check given => given

/-- The words that name commands. -/
def commandNames : List String := ["parse", "check", "help"]

/-- Reads the arguments of a command line. -/
def readArguments : List String → Except Usage Command
  | [] => .error .nothingToDo
  | "parse" :: args => (readFlags parseFlags [] none args).map .parse
  | "check" :: args => (readFlags checkFlags [] none args).map .check
  | "help" :: names =>
      match names with
      | [] => .error .help
      | [name] => .error (if commandNames.contains name then .help else .unknownCommand)
      | _ => .error .unknownCommand
  | arg :: args =>
      match Shape.of arg with
      | .separator =>
          match args with
          | [] => .error .nothingToDo
          | next :: _ =>
              .error (if commandNames.contains next then .unknownArgument else .unknownCommand)
      | .long "help" none | .short 'h' _ => .error .help
      | .long "version" none | .short 'V' _ => .error .version
      | .long "help" (some _) | .long "version" (some _) => .error .unexpectedValue
      | .long _ _ | .short _ _ => .error .unknownArgument
      | .word => .error .unknownCommand

end Raml.CommandLine
