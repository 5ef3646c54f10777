import WasmGas.Metering.Options

/-! # Arguments

The arguments name one of three commands and its settings. They are looked at one after
another, and the first one that is wrong, or that asks for help, decides.
-/

namespace WasmGas

inductive Command where
  | meter (input : String) (output tariff : Option String) (options : MeteringOptions)
  | roundtrip (input : String)
  | inspect (input : String)
  deriving DecidableEq, Repr

/-- What a list of arguments asks for. -/
inductive Request where
  | perform (verbose : Bool) (command : Command)
  | help
  | version
  | misuse
  deriving DecidableEq, Repr

namespace Arguments

/-- Why the arguments are not looked at any further. -/
inductive Stop where
  | help
  | version
  | misuse
  deriving DecidableEq, Repr

def Stop.request : Stop → Request
  | help => .help
  | version => .version
  | misuse => .misuse

/-- What is followed by a value. -/
inductive Setting where
  | output
  | tariff
  | module
  | field
  | register
  deriving DecidableEq, Repr

namespace Setting

def all : List Setting := [.output, .tariff, .module, .field, .register]

/-- The word for a setting, which stands behind two hyphens. -/
def word : Setting → String
  | output => "output"
  | tariff => "cost-table"
  | module => "module"
  | field => "field"
  | register => "register-type"

def ofWord? (word : String) : Option Setting := all.find? (·.word == word)

/-- The letter for a setting, which stands behind one hyphen. -/
def ofLetter? (letter : Char) : Option Setting :=
  if letter = 'o' then some output else none

/-- Whether a value is one for a setting: a path is not empty, and a register type is
one of the four. -/
def accepts (setting : Setting) (value : String) : Bool :=
  match setting with
  | output => value != ""
  | tariff => value != ""
  | module => true
  | field => true
  | register => (Register.ofName? value).isSome

end Setting

/-- A flag that is followed by nothing. -/
inductive Flag where
  | verbose
  | help
  | version
  deriving DecidableEq, Repr

namespace Flag

def all : List Flag := [.verbose, .help, .version]

def word : Flag → String
  | verbose => "verbose"
  | help => "help"
  | version => "version"

def letter : Flag → Char
  | verbose => 'v'
  | help => 'h'
  | version => 'V'

def ofWord? (word : String) : Option Flag := all.find? (·.word == word)

def ofLetter? (letter : Char) : Option Flag := all.find? (·.letter == letter)

end Flag

/-- What the arguments have given so far. -/
structure Given where
  verbose : Bool := false
  input : Option String := none
  values : List (Setting × String) := []
  deriving DecidableEq, Repr

/-- What is understood where the arguments stand: the settings, and whether there is a
version to be told. -/
structure Grammar where
  settings : List Setting
  hasVersion : Bool
  deriving DecidableEq, Repr

namespace Given

/-- Notes a flag. That of the verbose kind may come once. -/
def flag (given : Given) (grammar : Grammar) : Flag → Except Stop Given
  | .verbose => if given.verbose then throw .misuse else return { given with verbose := true }
  | .help => throw .help
  | .version => if grammar.hasVersion then throw .version else throw .misuse

/-- Notes the value of a setting, which may have only one. -/
def set (given : Given) (setting : Setting) (value : String) : Except Stop Given :=
  if (given.values.lookup setting).isSome || !setting.accepts value then throw .misuse
  else return { given with values := (setting, value) :: given.values }

/-- Notes the input, of which there is only one. -/
def place (given : Given) (path : String) : Except Stop Given :=
  if given.input.isSome || path = "" then throw .misuse
  else return { given with input := some path }

end Given

/-- How much of an argument list was understood: all of an argument, or all but that its
setting still lacks a value. -/
inductive Understood where
  | all (given : Given)
  | awaiting (given : Given) (setting : Setting)

/-- Understands letters behind one hyphen. The rest of them, perhaps after an equals
sign, is the value of a letter that needs one. -/
def letters (grammar : Grammar) : Given → List Char → Except Stop Understood
  | given, [] => return .all given
  | given, letter :: rest =>
    match Flag.ofLetter? letter, Setting.ofLetter? letter with
    | some flag, _ => do letters grammar (← given.flag grammar flag) rest
    | none, some setting =>
      if setting ∉ grammar.settings then throw .misuse
      else
        match rest with
        | [] => return .awaiting given setting
        | '=' :: value => return .all (← given.set setting (String.ofList value))
        | value => return .all (← given.set setting (String.ofList value))
    | none, none => throw .misuse

/-- Understands a word behind two hyphens, with a value after an equals sign if it has
one there. -/
def word (grammar : Grammar) (given : Given) (text : List Char) : Except Stop Understood :=
  let name := String.ofList (text.takeWhile (· != '='))
  let value? : Option String :=
    match text.dropWhile (· != '=') with
    | [] => none
    | _ :: value => some (String.ofList value)
  match Flag.ofWord? name, Setting.ofWord? name with
  | some flag, _ =>
    if value?.isSome then throw .misuse else return .all (← given.flag grammar flag)
  | none, some setting =>
    if setting ∉ grammar.settings then throw .misuse
    else
      match value? with
      | some value => return .all (← given.set setting value)
      | none => return .awaiting given setting
  | none, none => throw .misuse

/-- Whether an argument is more than a lone hyphen and begins with one. -/
def isOption (argument : String) : Bool :=
  match argument.toList with
  | '-' :: _ :: _ => true
  | _ => false

/-- Understands an argument that begins with a hyphen. -/
def option (grammar : Grammar) (given : Given) (argument : String) : Except Stop Understood :=
  match argument.toList with
  | '-' :: '-' :: text => word grammar given text
  | _ :: text => letters grammar given text
  | [] => throw .misuse

/-- Understands arguments that are inputs whatever they begin with. -/
def inputs : Given → List String → Except Stop Given
  | given, [] => return given
  | given, path :: rest => do inputs (← given.place path) rest

/-- Understands the arguments of a command. -/
def settings (grammar : Grammar) : Given → List String → Except Stop Given
  | given, [] => return given
  | given, argument :: rest =>
    if argument = "--" then inputs given rest
    else if isOption argument then
      match option grammar given argument, rest with
      | .error stop, _ => throw stop
      | .ok (.all given), rest => settings grammar given rest
      | .ok (.awaiting _ _), [] => throw .misuse
      | .ok (.awaiting given setting), value :: rest =>
        if isOption value then throw .misuse
        else do settings grammar (← given.set setting value) rest
    else do settings grammar (← given.place argument) rest

/-- The commands, by their names. -/
inductive Verb where
  | meter
  | roundtrip
  | inspect
  deriving DecidableEq, Repr

namespace Verb

def ofWord? (word : String) : Option Verb :=
  if word = "meter" then some meter
  else if word = "roundtrip" then some roundtrip
  else if word = "inspect" then some inspect
  else none

def grammar : Verb → Grammar
  | meter => ⟨Setting.all, false⟩
  | _ => ⟨[], false⟩

/-- The command on some input, with the values that were given or the usual ones. -/
def command (verb : Verb) (input : String) (values : List (Setting × String)) : Command :=
  match verb with
  | meter =>
    let usual : MeteringOptions := {}
    let options : MeteringOptions :=
      { module := (values.lookup .module).getD usual.module
        field := (values.lookup .field).getD usual.field
        register := ((values.lookup .register).bind Register.ofName?).getD usual.register }
    .meter input (values.lookup .output) (values.lookup .tariff) options
  | roundtrip => .roundtrip input
  | inspect => .inspect input

end Verb

/-- What a command and its arguments ask for. -/
def requestOf (verbose : Bool) (verb : Verb) (arguments : List String) : Request :=
  match settings verb.grammar {} arguments with
  | .error stop => stop.request
  | .ok given =>
    match given.input with
    | none => .misuse
    | some input => .perform (verbose || given.verbose) (verb.command input given.values)

/-- What comes after the word `help`: nothing, or one thing to be told about. -/
def helpOn : List String → Request
  | [] => .help
  | [topic] => if topic = "help" ∨ (Verb.ofWord? topic).isSome then .help else .misuse
  | _ => .misuse

/-- Understands the arguments before the command, and then the command. -/
def before : Given → List String → Request
  | _, [] => .misuse
  | given, argument :: rest =>
    if argument = "--" then .misuse
    else if isOption argument then
      match option ⟨[], true⟩ given argument with
      | .ok (.all given) => before given rest
      | .ok (.awaiting _ _) => .misuse
      | .error stop => stop.request
    else if argument = "help" then helpOn rest
    else
      match Verb.ofWord? argument with
      | some verb => requestOf given.verbose verb rest
      | none => .misuse

end Arguments

/-- What a list of arguments asks for. -/
def Request.ofArguments (arguments : List String) : Request :=
  Arguments.before {} arguments

end WasmGas
