import KitTemplate.Text.Digit
import KitTemplate.Text.Quoted

/-! Options of the command line. A long option may be written by any beginning of its name that fits
no other, with its value after an equals sign or as the next argument; short options may share one
dash. Arguments that are no options name the two directories in their order, and so does everything
after a double dash. Ambiguous names are refused before any option takes effect, missing directories
after all of them have, and arguments without a meaning last. A double dash is never a value: an
option or a directory that is given one has no value. -/

namespace KitTemplate.Command

inductive Switch where
  | help
  | inputFile
  | site
  | searchFolder
  | postsDirectory
  | verbosity
  | version
  | inputMeta
  | outputMeta
deriving DecidableEq, Repr

namespace Switch

/-- The spellings of every option. -/
def spellings : List (Text × Switch) :=
  [("-h".toList, help), ("--help".toList, help), ("--inputFile".toList, inputFile),
   ("--site".toList, site), ("--searchFolder".toList, searchFolder),
   ("--postsDir".toList, postsDirectory), ("-v".toList, verbosity),
   ("--verbosity".toList, verbosity), ("-V".toList, version), ("--version".toList, version),
   ("--saveinputmeta".toList, inputMeta), ("--saveoutputmeta".toList, outputMeta)]

def takesValue : Switch → Bool
  | inputFile | searchFolder | postsDirectory => true
  | _ => false

/-- All spellings of an option, as messages name it. -/
def title (switch : Switch) : Text :=
  Text.join ['/'] ((spellings.filter (·.2 = switch)).map (·.1))

end Switch

/-- What the command line asks for. -/
structure Arguments where
  /-- The two directories, of which one may be without a value. -/
  directories : List (Option Text) := []
  inputFile : Text := []
  site : Bool := false
  /-- The search folders, of which some may be without a value. -/
  searchFolders : Option (List (Option Text)) := none
  postsDirectory : Option Text := none
  verbosity : Int := 1
deriving DecidableEq, Repr

/-- Why no work is done. -/
inductive Stop where
  | help
  | version
  | misuse (message : Text)
deriving DecidableEq, Repr

/-- An argument that begins with a dash, taken apart. -/
structure Flag where
  argument : Text
  /-- The option meant, if there is one. -/
  switch : Option Switch
  short : Bool := false
  value : Option Text := none
deriving DecidableEq, Repr

inductive Word where
  | plain (argument : Text)
  | separator
  | flag (flag : Flag)
deriving DecidableEq, Repr

namespace Word

def isFlag : Word → Bool
  | flag _ => true
  | _ => false

def text : Word → Text
  | plain argument => argument
  | separator => ['-', '-']
  | flag found => found.argument

/-- Whether a text is a negative number, which is no option. A line feed may follow the number. -/
def isNegativeNumber (argument : Text) : Bool :=
  let number := if argument.getLast? = some '\n' then argument.dropLast else argument
  match number with
  | '-' :: rest =>
    match rest.splitOn '.' with
    | [whole] => whole ≠ [] && whole.all Text.isDigit
    | [whole, fraction] => whole.all Text.isDigit && fraction ≠ [] && fraction.all Text.isDigit
    | _ => false
  | _ => false

/-- A name and what stands after its first equals sign. -/
def splitEquals (argument : Text) : Text × Option Text :=
  match Text.cut? ['='] argument with
  | some (name, value) => (name, some value)
  | none => (argument, none)

/-- The options that an argument may mean, each under the spelling that fits. -/
def meanings (argument : Text) : List (Text × Flag) :=
  match argument with
  | '-' :: '-' :: _ =>
    let (name, value) := splitEquals argument
    Switch.spellings.filterMap fun spelling =>
      if name.isPrefixOf spelling.1 then
        some (spelling.1, { argument, switch := spelling.2, value })
      else none
  | _ =>
    Switch.spellings.filterMap fun spelling =>
      if spelling.1 = argument.take 2 then
        some (spelling.1,
          { argument, switch := spelling.2, short := true, value := some (argument.drop 2) })
      else if argument.isPrefixOf spelling.1 then
        some (spelling.1, { argument, switch := spelling.2 })
      else none

def ofArgument (argument : Text) : Except Stop Word :=
  let (name, value) := splitEquals argument
  let short : Bool := argument.take 2 != ['-', '-']
  if argument.head? ≠ some '-' then .ok (plain argument)
  else
    match Switch.spellings.lookup argument with
    | some switch => .ok (flag { argument, switch, short })
    | none =>
      if argument.length = 1 then .ok (plain argument)
      else
        match value, Switch.spellings.lookup name with
        | some value, some switch => .ok (flag { argument, switch, short, value })
        | _, _ =>
          match meanings argument with
          | [(_, meant)] => .ok (flag meant)
          | [] =>
            if isNegativeNumber argument || argument.contains ' ' then .ok (plain argument)
            else .ok (flag { argument, switch := none })
          | several =>
            .error <| .misuse <| "ambiguous option: ".toList ++ argument ++
              " could match ".toList ++ Text.join [',', ' '] (several.map (·.1))

/-- The arguments told apart. After a double dash no argument is an option. -/
def ofArguments : List Text → Except Stop (List Word)
  | [] => .ok []
  | argument :: rest =>
    if argument = ['-', '-'] then .ok (separator :: rest.map plain)
    else do
      let word ← ofArgument argument
      return word :: (← ofArguments rest)

end Word

namespace Arguments

/-- The value that an argument is. -/
def value? (argument : Text) : Option Text := if argument = ['-', '-'] then none else argument

/-- The arguments with an option taking effect. -/
def apply (arguments : Arguments) (switch : Switch) (value : Option Text) :
    Except Stop Arguments :=
  match switch with
  | .help => .error .help
  | .version => .error .version
  | .inputFile => .ok { arguments with inputFile := value.getD [] }
  | .site => .ok { arguments with site := true }
  | .searchFolder =>
    .ok { arguments with searchFolders := some (arguments.searchFolders.getD [] ++ [value]) }
  | .postsDirectory => .ok { arguments with postsDirectory := some (value.getD []) }
  | .verbosity => .ok { arguments with verbosity := arguments.verbosity + 1 }
  | .inputMeta | .outputMeta => .ok arguments

def applyAll (arguments : Arguments) (switches : List Switch) : Except Stop Arguments :=
  switches.foldlM (fun arguments switch => arguments.apply switch none) arguments

def complain (switch : Switch) (problem : Text) : Stop :=
  .misuse ("argument ".toList ++ switch.title ++ ": ".toList ++ problem)

def ignored (switch : Switch) (value : Text) : Stop :=
  complain switch ("ignored explicit argument ".toList ++ value.quoted)

/-- The options that share a dash: a first one, and those whose letters follow it. -/
def shared (switch : Switch) : Text → Except Stop (List Switch)
  | [] => .error (ignored switch [])
  | letter :: rest =>
    match Switch.spellings.lookup ['-', letter] with
    | none => .error (ignored switch (letter :: rest))
    | some next =>
      if rest = [] then .ok [switch, next] else (shared next rest).map (switch :: ·)

/-- Arguments read so far, those without a meaning, and the words still to be read. -/
structure Progress where
  arguments : Arguments := {}
  extras : List Text := []
  words : List Word

/-- An option and the value that it takes from the words after it. -/
def readFlag (progress : Progress) (flag : Flag) (following : List Word) :
    Except Stop Progress := do
  match flag.switch, flag.value, following with
  | none, _, _ =>
    return { progress with extras := progress.extras ++ [flag.argument], words := following }
  | some switch, some value, _ =>
    if switch.takesValue then
      return { progress with arguments := ← progress.arguments.apply switch (value? value)
                             words := following }
    else if flag.short then
      return { progress with arguments := ← progress.arguments.applyAll (← shared switch value)
                             words := following }
    else throw (ignored switch value)
  | some switch, none, .plain value :: rest =>
    if switch.takesValue then
      return { progress with arguments := ← progress.arguments.apply switch value, words := rest }
    else
      return { progress with arguments := ← progress.arguments.apply switch none
                             words := following }
  | some switch, none, _ =>
    if switch.takesValue then throw (complain switch "expected one argument".toList)
    else
      return { progress with arguments := ← progress.arguments.apply switch none
                             words := following }

/-- The value of a word that names a directory, with the separators around it, and what follows. A
double dash is a value only as the word that a separator precedes. -/
def readDirectory? (words : List Word) : Option (Option Text × List Word) :=
  match words with
  | .plain argument :: rest => some (value? argument, rest.dropWhile (· = .separator))
  | _ =>
    match words.dropWhile (· = .separator) with
    | .plain argument :: rest => some (argument, rest.dropWhile (· = .separator))
    | _ => none

/-- As many directories as are still to be named and come next. -/
def readDirectories (missing : Nat) (words : List Word) :
    List (Option Text) × List Word :=
  match missing, readDirectory? words with
  | missing + 1, some (directory, rest) =>
    let (directories, rest) := readDirectories missing rest
    (directory :: directories, rest)
  | _, _ => ([], words)

/-- The words up to the next option taken as directories or, where none is missing, as arguments
without a meaning. -/
def readPlain (progress : Progress) : Progress :=
  let (directories, rest) :=
    readDirectories (2 - progress.arguments.directories.length) progress.words
  let arguments :=
    { progress.arguments with directories := progress.arguments.directories ++ directories }
  { arguments
    extras := progress.extras ++ (rest.takeWhile (!·.isFlag)).map Word.text
    words := rest.dropWhile (!·.isFlag) }

/-- The words read up to the end, with at most `room` options among them. -/
def readWords : (room : Nat) → Progress → Except Stop Progress
  | 0, progress => .ok progress
  | room + 1, progress => do
    let progress := readPlain progress
    match progress.words with
    | .flag flag :: following => readWords room (← readFlag progress flag following)
    | _ => return progress

/-- What a command line asks for. -/
def parse (words : List Text) : Except Stop Arguments := do
  let words ← Word.ofArguments words
  let progress ← readWords (words.length + 1) { words }
  match ["inputdir".toList, "outputdir".toList].drop progress.arguments.directories.length with
  | [] =>
    if progress.extras = [] then return progress.arguments
    else throw (.misuse ("unrecognized arguments: ".toList ++ Text.join [' '] progress.extras))
  | missing =>
    throw (.misuse ("the following arguments are required: ".toList ++
      Text.join [',', ' '] missing))

end Arguments

end KitTemplate.Command
