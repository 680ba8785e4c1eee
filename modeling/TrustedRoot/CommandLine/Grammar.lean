import TrustedRoot.CommandLine.Basic

/-!
The grammar of command lines. Words are read from left to right, first those in front of the
command, then those behind it; both places take the same general flags, and what stands behind the
command wins. A value that is a word of its own is looked at only when the next flag or value
begins, so that a wrong word right after it is reported before it.
-/

namespace TrustedRoot.CommandLine

/-- The name of a command. -/
inductive Verb
  | join
  | check
  | roots
  | validate
  | completions
deriving DecidableEq, Repr

namespace Verb

/-- Every command's name. -/
def all : List Verb := [join, check, roots, validate, completions]

/-- The word for a command. -/
def word : Verb → String
  | .join => "join"
  | .check => "check"
  | .roots => "roots"
  | .validate => "validate"
  | .completions => "completions"

/-- The command that a word names. -/
def ofWord? (word : Bytes) : Option Verb := all.find? fun verb => Utf8.encode verb.word = word

end Verb

/-- The word that asks for help in the place of a command. -/
def helpWord : Bytes := Utf8.encode "help"

/-- Whether a word stands for a command, help included. -/
def isCommandWord (word : Bytes) : Bool := word = helpWord || (Verb.ofWord? word).isSome

/-- A flag without a value. -/
inductive Switch
  | verbose
  | quiet
  | json
deriving DecidableEq, Repr

/-- A place for values: of an option, or of the arguments of a command. -/
inductive Slot
  | configDirectory
  | root
  | rootName
  | paths
  | path
  | shell
deriving DecidableEq, Repr

/-- What a flag does. -/
inductive Flag
  | help
  | version
  | switch (s : Switch)
  | option (slot : Slot)
deriving DecidableEq, Repr

/-- The flags behind a command, or in front of it where there is `none`. -/
def flags : Option Verb → List (String × Flag)
  | none => general ++ [("version", .version)]
  | some .join => general ++ selection ++ [("json", .switch .json)]
  | some .check => general ++ selection
  | some _ => general
where
  /-- The flags of every place. -/
  general : List (String × Flag) := [("verbose", .switch .verbose), ("quiet", .switch .quiet),
    ("config-dir", .option .configDirectory), ("help", .help)]
  /-- The flags that select a root. -/
  selection : List (String × Flag) := [("root", .option .root), ("root-name", .option .rootName)]

/-- The flag with a long name. -/
def Flag.ofLong? (place : Option Verb) (name : Bytes) : Option Flag :=
  ((flags place).find? fun row => Utf8.encode row.1 = name).map (·.2)

/-- The flag with a short name. Only help and the version have one. -/
def Flag.ofShort? (place : Option Verb) (name : UInt8) : Option Flag :=
  if name = 'h'.toUInt8 then some .help
  else if name = 'V'.toUInt8 ∧ place = none then some .version
  else none

/-- The slot for the arguments of a command. -/
def Verb.argument? : Verb → Option Slot
  | .join => some .paths
  | .check | .validate => some .path
  | .completions => some .shell
  | .roots => none

/-- What a word looks like. -/
inductive Word
  /-- The word `--`, after which every word is an argument. -/
  | escape
  /-- A flag with a long name and maybe a value behind `=`. -/
  | long (name : Bytes) (value : Option Bytes)
  /-- A flag with a short name, of which the first counts. -/
  | short (name : UInt8)
  | plain
deriving DecidableEq, Repr

/-- The byte `-`. -/
abbrev hyphen : UInt8 := 45

/-- The byte `=`. -/
abbrev equalSign : UInt8 := 61

/-- The look of a word. A single hyphen is plain. -/
def Word.ofBytes : Bytes → Word
  | [] => .plain
  | b :: more =>
    if b ≠ hyphen then .plain
    else match more with
      | [] => .plain
      | c :: rest =>
        if c ≠ hyphen then .short c
        else if rest = [] then .escape
        else match Split.splitFirst equalSign rest with
          | none => .long rest none
          | some (name, value) => .long name (some value)

/-- What was gathered from words. -/
structure Gathered where
  verbose : Bool
  quiet : Bool
  json : Bool
  configDirectory : Option Path
  root : Option Path
  rootName : Option String
  /-- The arguments that are paths. -/
  paths : List Path
  shell : Option Shell
  /-- The values that were read for a slot and not looked at yet. -/
  pending : Option (Slot × List Bytes)
  /-- Whether `--` was read. -/
  escaped : Bool
deriving DecidableEq, Repr

namespace Gathered

/-- Nothing. -/
def empty : Gathered := ⟨false, false, false, none, none, none, [], none, none, false⟩

/-- A value that is a path. It must not be empty. -/
def readPath (value : Bytes) : Except Stop Path :=
  if value = [] then .error .invalidValue else .ok ⟨value⟩

/-- A value that is text. -/
def readText (value : Bytes) : Except Stop String :=
  match Utf8.decode? value with
  | some text => .ok text
  | none => .error .notText

/-- A value that is the name of a shell. -/
def readShell (value : Bytes) : Except Stop Shell :=
  match Utf8.decode? value >>= Shell.ofName? with
  | some shell => .ok shell
  | none => .error .invalidValue

/-- The value of a slot that takes one, unless it has one already. -/
def single {α : Type} (before : Option α) (read : Bytes → Except Stop α) :
    List Bytes → Except Stop (Option α)
  | [] => .error .invalidValue
  | value :: _ => if before.isSome then .error .conflict else (read value).map some

/-- Puts values into a slot. -/
def fill (gathered : Gathered) (slot : Slot) (values : List Bytes) : Except Stop Gathered :=
  match slot with
  | .configDirectory => do
    .ok { gathered with configDirectory := ← single gathered.configDirectory readPath values }
  | .root => do .ok { gathered with root := ← single gathered.root readPath values }
  | .rootName => do .ok { gathered with rootName := ← single gathered.rootName readText values }
  | .paths | .path => do
    if values = [] then .error .invalidValue
    else .ok { gathered with paths := gathered.paths ++ (← values.mapM readPath) }
  | .shell => do .ok { gathered with shell := ← single gathered.shell readShell values }

/-- Looks at the pending values. -/
def settle (gathered : Gathered) : Except Stop Gathered :=
  match gathered.pending with
  | none => .ok gathered
  | some (slot, values) => ({ gathered with pending := none }).fill slot values

/-- Whether an option waits for its value. -/
def isWaiting (gathered : Gathered) : Bool :=
  match gathered.pending with
  | some (_, []) => !gathered.escaped
  | _ => false

/-- Sets a switch that is not set yet. -/
def turnOn (gathered : Gathered) : Switch → Except Stop Gathered
  | .verbose =>
    if gathered.verbose then .error .conflict else .ok { gathered with verbose := true }
  | .quiet => if gathered.quiet then .error .conflict else .ok { gathered with quiet := true }
  | .json => if gathered.json then .error .conflict else .ok { gathered with json := true }

/-- Whether the only argument of a command is there. -/
def hasArgument (gathered : Gathered) (slot : Slot) : Bool :=
  gathered.pending.any (fun pending => pending.1 = slot) || !gathered.paths.isEmpty
    || gathered.shell.isSome

/-- Takes a word as an argument. -/
def addArgument (place : Option Verb) (gathered : Gathered) (word : Bytes) :
    Except Stop Gathered :=
  match place with
  | none =>
    .error (if gathered.escaped && isCommandWord word then .unknownArgument else .unknownCommand)
  | some verb =>
    match verb.argument?, gathered.pending with
    | none, _ => .error .unknownArgument
    | some .paths, some (.paths, values) =>
      .ok { gathered with pending := some (.paths, values ++ [word]) }
    | some slot, _ =>
      if slot ≠ .paths ∧ gathered.hasArgument slot then .error .unknownArgument
      else do .ok { ← gathered.settle with pending := some (slot, [word]) }

/-- Takes a flag, with the value that is attached to it, if there is one. -/
def addFlag (gathered : Gathered) (flag : Flag) (value : Option Bytes) : Except Stop Gathered :=
  match flag, value with
  | .option slot, none => do .ok { ← gathered.settle with pending := some (slot, []) }
  | .option slot, some value => do (← gathered.settle).fill slot [value]
  | _, some _ => .error .valueNotTaken
  | .help, none => do
    let _ ← gathered.settle
    .error .helpAsked
  | .version, none => do
    let _ ← gathered.settle
    .error .versionAsked
  | .switch s, none => do (← gathered.settle).turnOn s

/-- Takes a word. -/
def addWord (place : Option Verb) (gathered : Gathered) (word : Bytes) : Except Stop Gathered :=
  if gathered.escaped then gathered.addArgument place word
  else match Word.ofBytes word with
    | .escape => .ok { gathered with escaped := true }
    | .long name value =>
      match Flag.ofLong? place name with
      | none => .error .unknownArgument
      | some flag => gathered.addFlag flag value
    | .short name =>
      match Flag.ofShort? place name with
      | none => .error .unknownArgument
      | some flag => gathered.addFlag flag none
    | .plain =>
      match gathered.pending with
      | some (slot, []) => .ok { gathered with pending := some (slot, [word]) }
      | _ => gathered.addArgument place word

/-- Takes a variable as the directory of the user's configuration, unless an option gave one. -/
def withSetting (gathered : Gathered) (setting : Option Bytes) : Except Stop Gathered :=
  match gathered.configDirectory, setting with
  | none, some value => gathered.fill .configDirectory [value]
  | _, _ => .ok gathered

/-- Whether none of the flags of every place is given. -/
def isBare (gathered : Gathered) : Bool :=
  !gathered.verbose && !gathered.quiet && gathered.configDirectory.isNone

/-- The selection of a root. -/
def selection (gathered : Gathered) : Except Stop Selection :=
  if gathered.root.isSome && gathered.rootName.isSome then .error .conflict
  else .ok ⟨gathered.root, gathered.rootName⟩

/-- The first path, which must be there. -/
def path (gathered : Gathered) : Except Stop Path :=
  match gathered.paths with
  | [] => .error .missingArgument
  | p :: _ => .ok p

/-- The command that was gathered. -/
def command (gathered : Gathered) : Verb → Except Stop Command
  | .join => do
    let selection ← gathered.selection
    let _ ← gathered.path
    .ok (.join selection gathered.json gathered.paths)
  | .check => do
    let selection ← gathered.selection
    .ok (.check selection (← gathered.path))
  | .roots => .ok .roots
  | .validate => do .ok (.validate (← gathered.path))
  | .completions =>
    match gathered.shell with
    | none => .error .missingArgument
    | some shell => .ok (.completions shell)

end Gathered

/-- What the words after `help` ask for: there may be one, and it must name a command. -/
def readHelp : List Bytes → Stop
  | [] => .helpAsked
  | [word] => if isCommandWord word then .helpAsked else .unknownCommand
  | _ => .unknownCommand

/-- Reads the words up to the command. Gives what was gathered, and the command with the words
behind it, if there is one. -/
def readFront (gathered : Gathered) :
    List Bytes → Except Stop (Gathered × Option (Verb × List Bytes))
  | [] => .ok (gathered, none)
  | word :: rest =>
    if !gathered.escaped && !gathered.isWaiting && word = helpWord then .error (readHelp rest)
    else match if gathered.escaped || gathered.isWaiting then none else Verb.ofWord? word with
      | some verb => .ok (gathered, some (verb, rest))
      | none => do readFront (← gathered.addWord none word) rest

/-- Reads the words behind a command. -/
def readBehind (verb : Verb) (words : List Bytes) (setting : Option Bytes) :
    Except Stop (Gathered × Command) := do
  let gathered ← words.foldlM (Gathered.addWord (some verb)) .empty
  let gathered ← gathered.settle
  let command ← (← gathered.withSetting setting).command verb
  .ok (gathered, command)

/-- The variable with the directory of the user's configuration. -/
def configVariable : String := "ROOTJOIN_CONFIG_DIR"

/-- Reads a command line, the name of the program left out. `setting` is the value of the variable
`configVariable`; an option wins over it, but it must not be empty where no option hides it. -/
def Invocation.read (setting : Option Bytes) (words : List Bytes) : Except Stop Invocation := do
  let (front, found) ← readFront .empty words
  match found with
  | none =>
    let front ← front.settle
    let front ← front.withSetting setting
    .error (if front.isBare then .nothingAsked else .missingCommand)
  | some (verb, rest) =>
    let (behind, command) ← readBehind verb rest setting
    let front ← front.settle
    let _ ← front.withSetting setting
    .ok {
      verbose := front.verbose || behind.verbose
      quiet := front.quiet || behind.quiet
      configDirectory :=
        (behind.configDirectory.or front.configDirectory).or (setting.map Path.mk)
      command }

end TrustedRoot.CommandLine
