import BindingSuite.Compiler.Choice
import BindingSuite.Text.Integer

/-! # Command-line options

How the words of a command line become options.

* `Flag` enumerates the options and `spellings` how they are written. A long spelling may be cut
  short as long as it is the only one that continues so;
* `classify` says of one word what it is: an option, an argument, or an option of no known name;
* `resolve` finds the flags of one word, where short ones may be written together and an argument
  may follow its option directly;
* `readOptions` reads all words, and stops at the first that does not fit. -/

namespace BindingSuite.CommandLine

/-! ## Flags -/

/-- The options. -/
inductive Flag where
  | help
  | list
  | scenario
  | compiler
  | executable
  | emitDirectory
  | seed
  | verbose
  | version
  deriving DecidableEq

/-- The spellings of the options. -/
def spellings : List (String × Flag) :=
  [("-h", .help), ("--help", .help), ("--list", .list), ("-s", .scenario),
    ("--scenario", .scenario), ("--compiler", .compiler), ("--naga", .executable),
    ("--emit-dir", .emitDirectory), ("--seed", .seed), ("-v", .verbose), ("--verbose", .verbose),
    ("--version", .version)]

namespace Flag

/-- The name of an option in messages: all its spellings. -/
def name (flag : Flag) : String :=
  "/".intercalate ((spellings.filter fun spelling => spelling.2 = flag).map (·.1))

/-- Whether an argument belongs to an option. -/
def takesArgument : Flag → Bool
  | scenario | compiler | executable | emitDirectory | seed => true
  | help | list | verbose | version => false

end Flag

/-! ## Errors -/

/-- What can be wrong with a command line. -/
inductive UsageError where
  /-- A spelling could be cut short from several. -/
  | ambiguous (word : String) (matching : List String)
  /-- The argument of an option is missing. -/
  | missingArgument (flag : Flag)
  /-- An option that takes no argument has one. -/
  | unwantedArgument (flag : Flag) (argument : String)
  /-- An argument is no integer. -/
  | invalidInteger (flag : Flag) (argument : String)
  /-- An argument is none of those to choose from. -/
  | invalidChoice (flag : Flag) (argument : String) (choices : List String)
  /-- Words that belong to no option. -/
  | unrecognized (words : List String)
  deriving DecidableEq

/-- What is said of an option's argument. -/
def argumentMessage (flag : Flag) (complaint : String) : String :=
  "argument " ++ flag.name ++ ": " ++ complaint

/-- What is said of a command line. -/
def UsageError.message : UsageError → String
  | ambiguous word matching =>
    "ambiguous option: " ++ word ++ " could match " ++ ", ".intercalate matching
  | missingArgument flag => argumentMessage flag "expected one argument"
  | unwantedArgument flag argument =>
    argumentMessage flag ("ignored explicit argument " ++ Text.quoted argument)
  | invalidInteger flag argument =>
    argumentMessage flag ("invalid int value: " ++ Text.quoted argument)
  | invalidChoice flag argument choices =>
    argumentMessage flag ("invalid choice: " ++ Text.quoted argument ++ " (choose from "
      ++ ", ".intercalate (choices.map Text.quoted) ++ ")")
  | unrecognized words => "unrecognized arguments: " ++ " ".intercalate words

/-! ## Words -/

/-- The word that no option follows. -/
def separator : String := "--"

/-- What a word of a command line is. -/
inductive WordKind where
  /-- The argument of an option, or a word that belongs to none. -/
  | argument
  /-- The sign that no option follows. -/
  | separator
  /-- An option that is not known. -/
  | unknown
  /-- An option, with its spelling in full and what follows it in the same word, if anything. -/
  | option (spelling : String) (flag : Flag) (attached : Option (List Char))
  deriving DecidableEq

/-- A word that looks like a negative number is no option. -/
def looksNegative (word : List Char) : Bool :=
  let isNumeral (digits : List Char) := digits.all fun digit => (Text.digitValue? digit).isSome
  let body := if word.getLast? = some '\n' then word.dropLast else word
  match body with
  | '-' :: rest =>
    let whole := rest.takeWhile (· ≠ '.')
    match rest.dropWhile (· ≠ '.') with
    | [] => !whole.isEmpty && isNumeral whole
    | _ :: fraction => isNumeral whole && !fraction.isEmpty && isNumeral fraction
  | _ => false

/-- A word divided at its first equals sign, if it has one. -/
def divideAtEquals (word : List Char) : List Char × Option (List Char) :=
  (word.takeWhile (· ≠ '='), ((word.dropWhile (· ≠ '=')).head?.map fun _ =>
    (word.dropWhile (· ≠ '=')).drop 1))

/-- The options that a word may mean which is none of the spellings in full. -/
def candidates (word : List Char) : List (String × Flag × Option (List Char)) :=
  if "--".toList.isPrefixOf word then
    let (front, attached) := divideAtEquals word
    (spellings.filter fun spelling => front.isPrefixOf spelling.1.toList).map
      fun (spelling, flag) => (spelling, flag, attached)
  else
    (spellings.filter fun spelling => spelling.1.toList = word.take 2).map
      fun (spelling, flag) => (spelling, flag, some (word.drop 2))

/-- What a word is. -/
def classify (word : String) : Except UsageError WordKind :=
  match spellings.lookup word with
  | some flag => return .option word flag none
  | none =>
    match word.toList with
    | '-' :: _ :: _ =>
      let (front, attached) := divideAtEquals word.toList
      match attached, spellings.lookup (String.ofList front) with
      | some text, some flag => return .option (String.ofList front) flag (some text)
      | _, _ =>
        match candidates word.toList with
        | [(spelling, flag, attached)] => return .option spelling flag attached
        | [] =>
          if looksNegative word.toList || word.toList.contains ' ' then return .argument
          else return .unknown
        | several => throw (.ambiguous word (several.map (·.1)))
    | _ => return .argument

/-- What the words of a command line are. Behind a separator all are arguments. -/
def classifyAll : List String → Except UsageError (List (String × WordKind))
  | [] => return []
  | word :: rest => do
    if word = separator then return (word, .separator) :: rest.map fun word => (word, .argument)
    else
      let kind ← classify word
      return (word, kind) :: (← classifyAll rest)

/-! ## Flags of a word -/

/-- What the flags of a word still need. -/
inductive Need where
  /-- Nothing. -/
  | nothing
  /-- The last flag has its argument in the word. -/
  | argument (flag : Flag) (text : String)
  /-- The last flag needs its argument from the next word. -/
  | nextWord (flag : Flag)
  deriving DecidableEq

/-- The flags of a word: those that take no argument, and what comes after them. -/
structure Resolution where
  /-- The flags without arguments. -/
  flags : List Flag
  /-- What comes after them. -/
  need : Need
  deriving DecidableEq

/-- A flag without anything behind it in its word. -/
def resolveBare (flag : Flag) : Resolution :=
  if flag.takesArgument then ⟨[], .nextWord flag⟩ else ⟨[flag], .nothing⟩

/-- A flag with a text behind it in its word. Behind a short flag that takes no argument, the text
goes on with further short flags. -/
def resolveAttached (short : Bool) (flag : Flag) (text : List Char) :
    Except UsageError Resolution :=
  if flag.takesArgument then return ⟨[], .argument flag (String.ofList text)⟩
  else
    match text with
    | [] => throw (.unwantedArgument flag "")
    | character :: rest =>
      match short, spellings.lookup (String.ofList ['-', character]) with
      | true, some next => do
        let resolution ←
          if rest.isEmpty then pure (resolveBare next) else resolveAttached true next rest
        return { resolution with flags := flag :: resolution.flags }
      | _, _ => throw (.unwantedArgument flag (String.ofList (character :: rest)))
termination_by text.length

/-- The flags of a word that is an option. -/
def resolve (spelling : String) (flag : Flag) : Option (List Char) → Except UsageError Resolution
  | none => return resolveBare flag
  | some attached => resolveAttached (!"--".toList.isPrefixOf spelling.toList) flag attached

/-! ## Options -/

/-- What a command line says of the seed. -/
inductive SeedSetting where
  /-- Nothing. -/
  | unset
  /-- The option is there, without a seed. -/
  | withoutSeed
  /-- The seed. -/
  | seed (value : Int)
  deriving DecidableEq

/-- What a command line asks for. -/
structure Options where
  /-- To list the scenarios only. -/
  list : Bool := false
  /-- The names of the scenarios, all of them if there is none. -/
  scenarios : List String := []
  /-- The name of the compiler. -/
  compiler : String := "reference"
  /-- The executable of the external compiler. -/
  executable : Option String := none
  /-- The directory to write cases to instead of running them. -/
  emitDirectory : Option String := none
  /-- The seed of the order. -/
  seed : SeedSetting := .unset
  /-- To report passing cases too. -/
  verbose : Bool := false
  deriving DecidableEq

/-- The reasons to stop reading a command line. -/
inductive Stop where
  /-- The help was asked for. -/
  | help
  /-- The version was asked for. -/
  | version
  /-- The command line is wrong. -/
  | usage (error : UsageError)
  deriving DecidableEq

namespace Options

/-- Takes a flag without an argument. -/
def setFlag (options : Options) : Flag → Except Stop Options
  | .help => throw .help
  | .version => throw .version
  | .list => return { options with list := true }
  | .verbose => return { options with verbose := true }
  | _ => return options

/-- Takes an option with its argument. -/
def setArgument (options : Options) (flag : Flag) (argument : String) : Except Stop Options :=
  match flag with
  | .scenario => return { options with scenarios := options.scenarios ++ [argument] }
  | .compiler =>
    if argument ∈ CompilerChoice.names then return { options with compiler := argument }
    else throw (.usage (.invalidChoice flag argument CompilerChoice.names))
  | .executable => return { options with executable := some argument }
  | .emitDirectory => return { options with emitDirectory := some (Path.normal argument) }
  | .seed =>
    match Text.readInteger? argument with
    | some value => return { options with seed := .seed value }
    | none => throw (.usage (.invalidInteger flag argument))
  | _ => return options

/-- The name that stands for no name at all. Neither a scenario nor a compiler has it. -/
def noName : String := "[]"

/-- Takes an option whose argument is left empty. -/
def setEmpty (options : Options) : Flag → Options
  | .scenario => { options with scenarios := options.scenarios ++ [noName] }
  | .compiler => { options with compiler := noName }
  | .executable => { options with executable := none }
  | .emitDirectory => { options with emitDirectory := none }
  | .seed => { options with seed := .withoutSeed }
  | _ => options

/-- Takes an option with the argument in its word. The separator in that place leaves the argument
empty. -/
def setAttached (options : Options) (flag : Flag) (argument : String) : Except Stop Options :=
  if argument = separator then return options.setEmpty flag else options.setArgument flag argument

end Options

/-- Takes the words of a command line, and collects those that belong to no option. -/
def takeWords (options : Options) (extras : List String) :
    List (String × WordKind) → Except Stop (Options × List String)
  | [] => return (options, extras)
  | (_, .option spelling flag attached) :: rest => do
    let resolution ← (resolve spelling flag attached).mapError .usage
    match resolution.need, rest with
    | .nothing, rest =>
      let options ← resolution.flags.foldlM Options.setFlag options
      takeWords options extras rest
    | .argument flag text, rest =>
      let options ← resolution.flags.foldlM Options.setFlag options
      let options ← options.setAttached flag text
      takeWords options extras rest
    | .nextWord flag, (argument, .argument) :: rest =>
      let options ← resolution.flags.foldlM Options.setFlag options
      let options ← options.setArgument flag argument
      takeWords options extras rest
    | .nextWord flag, _ => throw (.usage (.missingArgument flag))
  | (word, _) :: rest => takeWords options (extras ++ [word]) rest

/-- Reads a command line. -/
def readOptions (words : List String) : Except Stop Options := do
  let kinds ← (classifyAll words).mapError .usage
  let (options, extras) ← takeWords {} [] kinds
  if extras.isEmpty then return options else throw (.usage (.unrecognized extras))

end BindingSuite.CommandLine
