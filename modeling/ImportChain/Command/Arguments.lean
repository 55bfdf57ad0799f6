/-
ImportChain.Command.Arguments — the words of a command line.

    [OPTIONS] [COMMAND]

Options may stand before the command and after it; where both give one,
the one after counts. An option is given once, `--verbose` apart. What
follows `--` is no option. A command line is read from left to right, and
the first fault, or the first request for help, ends the reading. A value
that is a word of its own is taken in when the words after it are read; a
value right before the command therefore waits for all of the command.
-/
import ImportChain.Text

namespace ImportChain.Command

/-! ## What can be written -/

inductive CommandName where
  | version
  | resolve
  | parse
  | rules
  deriving Repr, DecidableEq, Inhabited

namespace CommandName

def text : CommandName → String
  | .version => "version"
  | .resolve => "resolve"
  | .parse => "parse"
  | .rules => "rules"

def all : List CommandName := [.version, .resolve, .parse, .rules]

def ofText? (word : String) : Option CommandName := all.find? (·.text = word)

/-- Whether a command works on something that must be given. -/
def takesSubject : CommandName → Bool
  | .version => false
  | _ => true

end CommandName

/-- Options with a value. -/
inductive ValueOption where
  | cwd
  | issuer
  | config
  | query
  deriving Repr, DecidableEq, Inhabited

namespace ValueOption

def text : ValueOption → String
  | .cwd => "cwd"
  | .issuer => "issuer"
  | .config => "config"
  | .query => "query"

def isPath (o : ValueOption) : Bool := o != .query

/-- The options with a value at a command, or before any. -/
def known : Option CommandName → List ValueOption
  | some .resolve => [.cwd, .issuer, .config]
  | some .rules => [.cwd, .issuer, .config, .query]
  | _ => [.cwd]

end ValueOption

inductive Flag where
  | verbose
  | json
  | help
  | version
  deriving Repr, DecidableEq, Inhabited

namespace Flag

def text : Flag → String
  | .verbose => "verbose"
  | .json => "json"
  | .help => "help"
  | .version => "version"

def letter? : Flag → Option Char
  | .verbose => some 'v'
  | .json => none
  | .help => some 'h'
  | .version => some 'V'

/-- The flags at a command, or before any. -/
def known : Option CommandName → List Flag
  | none => [.verbose, .json, .help, .version]
  | some _ => [.verbose, .json, .help]

end Flag

/-- What help can be about. -/
inductive Topic where
  | program
  | command (name : CommandName)
  | help
  deriving Repr, DecidableEq, Inhabited

/-- What a command does, and on what. -/
inductive Task where
  | version
  | resolve (request : String) (issuer config : Option String)
  | parse (request : String)
  | rules (path : String) (query issuer config : Option String)
  deriving Repr, DecidableEq, Inhabited

/-- A command line that asks for work. -/
structure Invocation where
  json : Bool
  cwd : Option String
  task : Task
  deriving Repr, DecidableEq, Inhabited

/-- A command line that does not. -/
inductive Stop where
  | help (topic : Topic)
  | version
  | misuse
  deriving Repr, DecidableEq, Inhabited

/-! ## Single words -/

/-- What a word of a command line is by its first characters. -/
inductive Token where
  /-- `--` by itself. -/
  | escape
  /-- `--name` or `--name=value`. -/
  | long (name : String) (value : Option String)
  /-- Letters after a `-`. -/
  | short (letters : List Char)
  | word (text : String)
  deriving Repr, DecidableEq, Inhabited

/-- What a word of a command line is. -/
def Token.ofText (text : String) : Token :=
  match text.toList with
  | ['-', '-'] => .escape
  | '-' :: '-' :: rest =>
    match Text.cutAt '=' rest with
    | some (name, value) => .long (String.ofList name) (some (String.ofList value))
    | none => .long (String.ofList rest) none
  | '-' :: c :: rest => .short (c :: rest)
  | _ => .word text

/-! ## What has been given -/

/-- What has been given before a command or at it. -/
structure Given where
  json : Bool := false
  values : List (ValueOption × String) := []
  /-- What the command works on. -/
  subject : Option String := none
  deriving Repr, DecidableEq, Inhabited

namespace Given

def value? (g : Given) (o : ValueOption) : Option String := g.values.lookup o

def withValue (g : Given) (o : ValueOption) (value : String) : Except Stop Given :=
  if (g.value? o).isSome || (o.isPath && value = "") then .error .misuse
  else .ok { g with values := (o, value) :: g.values }

def withFlag (level : Option CommandName) (g : Given) : Flag → Except Stop Given
  | .verbose => .ok g
  | .json => if g.json then .error .misuse else .ok { g with json := true }
  | .help => .error (.help (level.elim .program .command))
  | .version => .error .version

/-- The thing that the command works on. -/
def withSubject (level : Option CommandName) (g : Given) (word : String) : Except Stop Given :=
  match level with
  | some c =>
    if c.takesSubject && g.subject.isNone then .ok { g with subject := some word }
    else .error .misuse
  | none => .error .misuse

def withLetters (level : Option CommandName) (g : Given) (letters : List Char) :
    Except Stop Given :=
  letters.foldlM
    (fun g c =>
      match (Flag.known level).find? (·.letter? = some c) with
      | some f => g.withFlag level f
      | none => .error .misuse)
    g

end Given

/-! ## Reading -/

/-- What a long option is at a command, or before any. -/
def longOption (level : Option CommandName) (name : String) : Option (Flag ⊕ ValueOption) :=
  match (Flag.known level).find? (·.text = name) with
  | some f => some (.inl f)
  | none => ((ValueOption.known level).find? (·.text = name)).map .inr

/-- An option that has been named, and its value if that has come. -/
abbrev Pending := Option (ValueOption × Option String)

/-- What has been given, with an option that is pending taken in. -/
def Given.settle (g : Given) : Pending → Except Stop Given
  | none => .ok g
  | some (o, some value) => g.withValue o value
  | some (_, none) => .error .misuse

/-- Reads the words at a command to their end, or those before any command
up to the first that is no option, with the option that is pending there. -/
def readWords (level : Option CommandName) (g : Given) (pending : Pending) :
    List String → Except Stop (Given × Pending × List String)
  | [] => .ok (g, pending, [])
  | arg :: rest =>
    match pending, Token.ofText arg with
    | some (o, none), .word value => readWords level g (some (o, some value)) rest
    | pending, .word word =>
      if level.isNone then .ok (g, pending, word :: rest)
      else do
        let g ← g.settle pending
        let g ← g.withSubject level word
        readWords level g none rest
    | pending, .escape => do
      let g ← g.settle pending
      let g ← rest.foldlM (Given.withSubject level) g
      pure (g, none, [])
    | pending, .long name value => do
      let g ← g.settle pending
      match longOption level name, value with
      | some (.inl f), none => do
        let g ← g.withFlag level f
        readWords level g none rest
      | some (.inr o), some value => do
        let g ← g.withValue o value
        readWords level g none rest
      | some (.inr o), none => readWords level g (some (o, none)) rest
      | _, _ => .error .misuse
    | pending, .short letters => do
      let g ← g.settle pending
      let g ← g.withLetters level letters
      readWords level g none rest

/-- What help a `help` with further words asks for. -/
def helpOn : List String → Stop
  | [] => .help .program
  | [word] =>
    if word = "help" then .help .help
    else match CommandName.ofText? word with
      | some c => .help (.command c)
      | none => .misuse
  | _ => .misuse

/-- What a command does with what it was given. -/
def Task.ofGiven (c : CommandName) (g : Given) : Except Stop Task :=
  match c, g.subject with
  | .version, _ => .ok .version
  | .resolve, some request => .ok (.resolve request (g.value? .issuer) (g.value? .config))
  | .parse, some request => .ok (.parse request)
  | .rules, some path =>
    .ok (.rules path (g.value? .query) (g.value? .issuer) (g.value? .config))
  | _, none => .error .misuse

/-- What a command line asks for. -/
def Invocation.ofArguments (args : List String) : Except Stop Invocation := do
  let (before, pending, rest) ← readWords none {} none args
  match rest with
  | [] => do
    let before ← before.settle pending
    pure ⟨before.json, before.value? .cwd, .version⟩
  | word :: rest =>
    match CommandName.ofText? word with
    | some c => do
      let (after, last, _) ← readWords (some c) {} none rest
      let after ← after.settle last
      let task ← Task.ofGiven c after
      let before ← before.settle pending
      pure ⟨before.json || after.json, (after.value? .cwd).or (before.value? .cwd), task⟩
    | none => throw (if word = "help" then helpOn rest else .misuse)

end ImportChain.Command
