/-!
# Arguments

The arguments name a command. An option may stand before or after what it
belongs to; the arguments are read from left to right, and the first mistake or
the first request for help or for the version decides.
-/

namespace Highlight.Cli

inductive Command where
  /-- Check the fixtures at a path. -/
  | test (path : String) (filter : Option String) (verbose : Bool)
  /-- Audit the samples at a path. -/
  | audit (path : String)
  /-- Show the tokens of a file. -/
  | dump (file : String)
  deriving DecidableEq, Repr

structure Invocation where
  /-- The path of the grammar. -/
  grammar : String
  command : Command
  deriving DecidableEq, Repr

inductive UsageError where
  | missingCommand
  | unexpected (argument : String)
  | missingValue (option : String)
  | emptyPath
  | repeated (option : String)
  | needlessValue (option : String)
  | missingFile
  deriving DecidableEq, Repr

def UsageError.message : UsageError → String
  | missingCommand => "a command is missing"
  | unexpected argument => s!"unexpected argument {argument}"
  | missingValue option => s!"a value for {option} is missing"
  | emptyPath => "a path is empty"
  | repeated option => s!"{option} is given twice"
  | needlessValue option => s!"{option} takes no value"
  | missingFile => "a file is missing"

/-- What ends the reading of arguments early. -/
inductive Stop where
  | help
  | version
  | mistake (e : UsageError)
  deriving DecidableEq, Repr

/-! ## Options -/

inductive Flag where
  | grammar | filter | verbose | help | version
  deriving DecidableEq, Repr

/-- Where an argument stands. -/
inductive Level where
  /-- Before the command. -/
  | top
  | test
  | audit
  | dump
  deriving DecidableEq, Repr

def Level.ofName? : String → Option Level
  | "test" => some .test
  | "audit" => some .audit
  | "dump" => some .dump
  | _ => none

def Flag.name : Flag → String
  | .grammar => "grammar"
  | .filter => "filter"
  | .verbose => "verbose"
  | .help => "help"
  | .version => "version"

def Flag.letter? : Flag → Option Char
  | .verbose => some 'v'
  | .help => some 'h'
  | .version => some 'V'
  | .grammar | .filter => none

def Level.flags : Level → List Flag
  | .top => [.grammar, .help, .version]
  | .test => [.grammar, .filter, .verbose, .help]
  | .audit | .dump => [.grammar, .help]

/-- What has been read at a level. -/
structure Seen where
  grammar : Option String
  filter : Option String
  verbose : Bool
  path : Option String
  deriving DecidableEq, Repr

def Seen.nothing : Seen :=
  ⟨none, none, false, none⟩

/-- Reads an option without value. -/
def Seen.setFlag (s : Seen) : Flag → Except Stop Seen
  | .help => .error .help
  | .version => .error .version
  | .verbose =>
    if s.verbose then .error (.mistake (.repeated "verbose")) else .ok { s with verbose := true }
  | flag => .error (.mistake (.missingValue flag.name))

/-- Reads an option with a value. A path must not be empty. -/
def Seen.setValue (s : Seen) (flag : Flag) (value : String) : Except Stop Seen :=
  match flag with
  | .grammar =>
    if value.isEmpty then .error (.mistake .emptyPath)
    else if s.grammar.isSome then .error (.mistake (.repeated flag.name))
    else .ok { s with grammar := some value }
  | .filter =>
    if s.filter.isSome then .error (.mistake (.repeated flag.name))
    else .ok { s with filter := some value }
  | flag => .error (.mistake (.needlessValue flag.name))

def Flag.takesValue : Flag → Bool
  | .grammar | .filter => true
  | .verbose | .help | .version => false

/-- The forms of an argument. -/
inductive Form where
  /-- Two dashes: what follows is no option. -/
  | escape
  | long (name : List Char) (value : Option (List Char))
  | letters (cs : List Char)
  | plain

def Form.ofChars : List Char → Form
  | ['-', '-'] => escape
  | '-' :: '-' :: cs =>
    let name := cs.takeWhile (· ≠ '=')
    match cs.drop name.length with
    | [] => long name none
    | _ :: value => long name (some value)
  | '-' :: c :: cs => letters (c :: cs)
  | _ => plain

/-- Whether an argument can be the value of the option before it. -/
def isValue (argument : String) : Bool :=
  match Form.ofChars argument.toList with
  | .plain => true
  | _ => false

/-- Reads a long option, and how many of the arguments after it belong to it. -/
def readLong (level : Level) (s : Seen) (name : List Char) (value : Option (List Char))
    (rest : List String) : Except Stop (Seen × Nat) :=
  match level.flags.find? fun f => f.name.toList = name with
  | none => .error (.mistake (.unexpected (String.ofList name)))
  | some flag =>
    match value, rest with
    | some value, _ => (s.setValue flag (String.ofList value)).map (·, 0)
    | none, next :: _ =>
      if flag.takesValue then
        if isValue next then (s.setValue flag next).map (·, 1)
        else .error (.mistake (.missingValue flag.name))
      else (s.setFlag flag).map (·, 0)
    | none, [] => (s.setFlag flag).map (·, 0)

/-- Reads options of one letter each. -/
def readLetters (level : Level) (s : Seen) : List Char → Except Stop Seen
  | [] => .ok s
  | c :: cs =>
    match level.flags.find? fun f => f.letter? = some c with
    | none => .error (.mistake (.unexpected (String.ofList ['-', c])))
    | some flag => do readLetters level (← s.setFlag flag) cs

/-! ## Commands -/

/-- Reads the path that a command is for. -/
def Seen.setPath (s : Seen) (argument : String) : Except Stop Seen :=
  if s.path.isSome then .error (.mistake (.unexpected argument))
  else if argument.isEmpty then .error (.mistake .emptyPath)
  else .ok { s with path := some argument }

/-- Reads the arguments of a command. -/
def readCommand (level : Level) (s : Seen) (args : List String) : Except Stop Seen :=
  match args with
  | [] => .ok s
  | arg :: rest =>
    match Form.ofChars arg.toList with
    | .escape => rest.foldlM Seen.setPath s
    | .plain => do readCommand level (← s.setPath arg) rest
    | .letters cs => do readCommand level (← readLetters level s cs) rest
    | .long name value => do
      let (s, n) ← readLong level s name value rest
      readCommand level s (rest.drop n)
termination_by args.length
decreasing_by all_goals (simp_wf; try omega)

/-- Help can also be asked for by a command, alone or for another command. -/
def readHelp : List String → Stop
  | [] => .help
  | name :: rest =>
    if (Level.ofName? name).isSome ∨ name = "help" then
      match rest with
      | [] => .help
      | extra :: _ => .mistake (.unexpected extra)
    else .mistake (.unexpected name)

def defaultGrammar : String := "pgsql.tmLanguage.json"

def Seen.command (s : Seen) : Level → Except Stop Command
  | .test => .ok (.test (s.path.getD "tests") s.filter s.verbose)
  | .audit => .ok (.audit (s.path.getD "samples"))
  | .dump =>
    match s.path with
    | some file => .ok (.dump file)
    | none => .error (.mistake .missingFile)
  | .top => .error (.mistake .missingCommand)

/-- Reads all arguments. Of two grammars the one after the command counts. -/
def readTop (s : Seen) (args : List String) : Except Stop Invocation :=
  match args with
  | [] => .error (.mistake .missingCommand)
  | arg :: rest =>
    match Form.ofChars arg.toList with
    | .escape => .error (.mistake ((rest.head?.map .unexpected).getD .missingCommand))
    | .plain =>
      match Level.ofName? arg with
      | some level => do
        let inner ← readCommand level .nothing rest
        let command ← inner.command level
        return ⟨(inner.grammar <|> s.grammar).getD defaultGrammar, command⟩
      | none =>
        .error (if arg = "help" then readHelp rest else .mistake (.unexpected arg))
    | .letters cs => do readTop (← readLetters .top s cs) rest
    | .long name value => do
      let (s, n) ← readLong .top s name value rest
      readTop s (rest.drop n)
termination_by args.length
decreasing_by all_goals (simp_wf; try omega)

def readArguments (args : List String) : Except Stop Invocation :=
  readTop .nothing args

end Highlight.Cli
