/-!
# The arguments of a command

Arguments are options, which start with `-`, and words. A `KnownOption` has a long name behind two
dashes, and perhaps a letter behind one dash; letters can be joined behind one dash
(`Argument.readLetters`). Some options take a value, behind `=`, behind the letter, or in the next
argument. Behind `--` all arguments are words.

`Reading.readFrom` reads from left to right, with what it has read so far in an
`Reading`, and stops with a `Halt` at the first argument that is wrong or asks for help.
`Argument.shapeOf` tells by its first characters what an argument may be.
-/

namespace FieldRecording

/-- Why arguments do not make up a command to be run. -/
inductive Halt where
  /-- The arguments are wrong. -/
  | usage (reason : String)
  /-- Only help, or the version, is asked for. -/
  | help
  | version
  deriving Repr, DecidableEq

/-- What an option takes, and how often it may be given. -/
inductive OptionKind where
  /-- No value, once. -/
  | flag
  /-- No value, any number of times. -/
  | counter
  /-- One of the given values, once. -/
  | choice (values : List String)
  /-- A value, any number of times. -/
  | repeated
  /-- Nothing else matters. -/
  | halting (how : Halt)

/-- An option that a command knows. -/
structure KnownOption where
  name : String
  letter : Option Char
  kind : OptionKind

/-- An argument that was understood. -/
inductive Argument where
  | word (text : String)
  /-- An option without a value. -/
  | switch (name : String)
  /-- An option with its value. -/
  | setting (name value : String)
  deriving Repr, DecidableEq

namespace Argument

/-- How often an option is among arguments. -/
def isGiven (name : String) (given : List Argument) : Bool :=
  given.any fun argument =>
    match argument with
    | .switch other | .setting other _ => other == name
    | .word _ => false

/-- An option without a value, behind those given before. -/
def bare (known : KnownOption) (given : List Argument) : Except Halt Argument :=
  match known.kind with
  | .flag =>
    if isGiven known.name given then .error (.usage s!"--{known.name} is given twice")
    else .ok (.switch known.name)
  | .counter => .ok (.switch known.name)
  | .halting how => .error how
  | .choice _ | .repeated => .error (.usage s!"--{known.name} needs a value")

/-- An option with a value, behind those given before. -/
def withValue (known : KnownOption) (value : String) (given : List Argument) :
    Except Halt Argument :=
  match known.kind with
  | .repeated => .ok (.setting known.name value)
  | .choice values =>
    if isGiven known.name given then .error (.usage s!"--{known.name} is given twice")
    else if values.contains value then .ok (.setting known.name value)
    else .error (.usage s!"--{known.name} cannot be '{value}'")
  | .flag | .counter | .halting _ => .error (.usage s!"--{known.name} takes no value")

/-- Whether an option takes a value. -/
def takesValue (known : KnownOption) : Bool :=
  match known.kind with
  | .choice _ | .repeated => true
  | .flag | .counter | .halting _ => false

/-- What an argument that starts with a dash says: options, and perhaps one more that
takes its value from the next argument. -/
structure Options where
  given : List Argument
  awaiting : Option KnownOption := none

/-- The options of a long name, with or without a value behind `=`. -/
def readLong (known : List KnownOption) (given : List Argument) (text : List Char) :
    Except Halt Options :=
  let name := text.takeWhile (· ≠ '=')
  match known.find? fun each => each.name.toList = name, text.drop name.length with
  | none, _ => .error (.usage "unknown option")
  | some option, _ :: value => do
    return { given := given ++ [← withValue option (String.ofList value) given] }
  | some option, [] =>
    if takesValue option then .ok { given, awaiting := some option }
    else return { given := given ++ [← bare option given] }

/-- The options of joined letters. What follows the letter of an option that takes a
value is its value. -/
def readLetters (known : List KnownOption) (given : List Argument) :
    (letters : List Char) → Except Halt Options
  | [] => .ok { given }
  | letter :: rest =>
    match known.find? fun each => each.letter = some letter with
    | none => .error (.usage "unknown option")
    | some option =>
      if takesValue option then
        match rest with
        | [] => .ok { given, awaiting := some option }
        | '=' :: value => do
          return { given := given ++ [← withValue option (String.ofList value) given] }
        | value => do
          return { given := given ++ [← withValue option (String.ofList value) given] }
      else
        match bare option given with
        | .ok argument => readLetters known (given ++ [argument]) rest
        | .error halt => .error halt

/-- What one argument is. -/
inductive Shape where
  /-- All that follows is words. -/
  | onlyWords
  | long (text : List Char)
  | letters (text : List Char)
  | word
  deriving Repr, DecidableEq

/-- The shape of an argument. A single dash is a word. -/
def shapeOf (argument : String) : Shape :=
  match argument.toList with
  | ['-', '-'] => .onlyWords
  | '-' :: '-' :: text => .long text
  | '-' :: letter :: rest => .letters (letter :: rest)
  | _ => .word

/-- The words among arguments. -/
def words (given : List Argument) : List String :=
  given.filterMap fun argument =>
    match argument with
    | .word text => some text
    | _ => none

/-- The values of an option among arguments. -/
def valuesOf (name : String) (given : List Argument) : List String :=
  given.filterMap fun argument =>
    match argument with
    | .setting other value => if other = name then some value else none
    | _ => none

end Argument

/-- What a command does with words. -/
inductive WordUse where
  /-- The first one names a further command. -/
  | command
  /-- All are paths. There are no more than the limit, if there is one. -/
  | paths (limit : Option Nat)
  deriving Repr, DecidableEq

/-- Arguments that were read. What needs no check on its own counts as given. A word,
and the value of an option that is an argument of its own, are checked no sooner than
the next option comes or the arguments end. -/
structure Reading where
  given : List Argument := []
  /-- An option with its value. -/
  unchecked : Option (KnownOption × String) := none

namespace Reading

/-- Check what was left unchecked. Words are not empty. -/
def settle (reading : Reading) : Except Halt (List Argument) := do
  let given ←
    match reading.unchecked with
    | some (option, value) =>
      pure (reading.given ++ [← Argument.withValue option value reading.given])
    | none => pure reading.given
  if (Argument.words given).contains "" then
    throw (.usage "a path is empty")
  return given

/-- The reading with more words, unless they are too many. -/
def addWords (limit : Option Nat) (texts : List String) (reading : Reading) :
    Except Halt Reading :=
  let given := reading.given ++ texts.map .word
  if limit.any (· < (Argument.words given).length) then
    .error (.usage "there are too many arguments")
  else .ok { reading with given }

/-- Read arguments behind those read before: all of them, or up to the name of a
command. In the latter case the name and what follows is left. -/
def readFrom (known : List KnownOption) (use : WordUse) (reading : Reading) :
    (arguments : List String) → Except Halt (Reading × List String)
  | [] => .ok (reading, [])
  | argument :: rest =>
    let continueWith (options : Except Halt Argument.Options) :
        Except Halt (Reading × List String) :=
      match options with
      | .error halt => .error halt
      | .ok { given, awaiting := none } => readFrom known use { given } rest
      | .ok { given, awaiting := some option } =>
        match rest with
        | [] => .error (.usage s!"--{option.name} needs a value")
        | value :: rest =>
          if Argument.shapeOf value = .word then
            readFrom known use { given, unchecked := some (option, value) } rest
          else .error (.usage s!"--{option.name} needs a value")
    match Argument.shapeOf argument, use with
    | .long text, _ => continueWith do Argument.readLong known (← reading.settle) text
    | .letters text, _ => continueWith do Argument.readLetters known (← reading.settle) text
    | .onlyWords, .command => .error (.usage "a command is missing")
    | .onlyWords, .paths limit => return (← reading.addWords limit rest, [])
    | .word, .command => .ok (reading, argument :: rest)
    | .word, .paths limit =>
      match reading.addWords limit [argument] with
      | .error halt => .error halt
      | .ok reading => readFrom known use reading rest

end Reading

end FieldRecording
