import RouteAtlas.Decimal.Integer
import RouteAtlas.Surface
import RouteAtlas.Text.Class
import RouteAtlas.Text.Quoted

/-!
# Arguments

What the words on the command line ask for. Words that start with a dash are options, which may be
shortened as long as they stay unique; after `--` all words are arguments. The first argument is the
command, whose own words follow it.
-/

namespace RouteAtlas.CommandLine

/-! ### Options -/

inductive Key where
  | help
  | verbose
  | logFile
  | host
  | scheme
  | workers
deriving DecidableEq, Repr

def Key.names : Key → List Text
  | help => ["-h", "--help"]
  | verbose => ["-v", "--verbose"]
  | logFile => ["--log-file"]
  | host => ["--host"]
  | scheme => ["--scheme"]
  | workers => ["--workers"]

def Key.takesValue : Key → Bool
  | help | verbose => false
  | logFile | host | scheme | workers => true

def commonKeys : List Key := [.help, .verbose, .logFile]

def commandKeys : List Key := commonKeys ++ [.host, .scheme, .workers]

inductive Fault where
  | ambiguous (word : Text) (names : List Text)
  /-- A value for an option that takes none. -/
  | ignoredValue (key : Key) (value : Text)
  | missingValue (key : Key)
  | noInteger (key : Key) (value : Text)
  | missingCommand
  | unknownCommand (word : Text)
  | unrecognized (words : List Text)
deriving DecidableEq, Repr

def Key.message (k : Key) (message : Text) : Text :=
  "argument " ++ Text.join "/" k.names ++ ": " ++ message

def Fault.message : Fault → Text
  | ambiguous word names =>
    "ambiguous option: " ++ word ++ " could match " ++ Text.join ", " names
  | ignoredValue k value => k.message ("ignored explicit argument " ++ Text.quote value)
  | missingValue k => k.message "expected one argument"
  | noInteger k value => k.message ("invalid int value: " ++ Text.quote value)
  | missingCommand => "the following arguments are required: command"
  | unknownCommand word =>
    "argument command: invalid choice: " ++ Text.quote word ++ " (choose from 'web', 'dotnet')"
  | unrecognized words => "unrecognized arguments: " ++ Text.join " " words

/-! ### Words -/

/-- What kind of word stands on the command line. -/
inductive Mark where
  | argument
  | dashes
  /-- An option by the name that it was found under, with a value in the same word if there is one;
  `marked` holds where an equals sign stands before it. -/
  | option (key : Key) (name : Text) (value : Option Text) (marked : Bool)
  /-- A word that looks like an option and is none. -/
  | unknown
deriving DecidableEq, Repr

def table (keys : List Key) : List (Text × Key) := keys.flatMap fun k => k.names.map (·, k)

/-- The parts of a word before and after its first equals sign, if there is one. -/
def partAtEquals (word : Text) : Text × Option Text :=
  match word.dropWhile (· ≠ '=') with
  | _ :: value => (word.takeWhile (· ≠ '='), some value)
  | [] => (word, none)

/-- The word is a negative number. One line feed at its end does not count. -/
def isNegativeNumber (word : Text) : Bool :=
  let digits (t : Text) : Bool := t.all fun c => (Text.digit? c).isSome
  let fits (t : Text) : Bool :=
    match t with
    | '-' :: t =>
      let whole := t.takeWhile (· ≠ '.')
      match t.dropWhile (· ≠ '.') with
      | '.' :: fraction => digits whole && !fraction.isEmpty && digits fraction
      | _ => !whole.isEmpty && digits whole
    | _ => false
  fits word || (Text.before? "\n" word).any fits

/-- The options that a word may stand for: with two dashes those whose name it starts, with one dash
the one of its first letter. -/
def candidates (keys : List Key) (word : Text) : List (Text × Mark) :=
  match word with
  | '-' :: '-' :: _ =>
    let (start, value) := partAtEquals word
    (table keys).filterMap fun (name, k) =>
      if Text.startsWith start name then some (name, .option k name value value.isSome) else none
  | _ =>
    (table keys).filterMap fun (name, k) =>
      if name = word.take 2 then some (name, .option k name (some (word.drop 2)) false) else none

/-- The kind of a word in front of which no `--` stands. -/
def classify (keys : List Key) (word : Text) : Except Fault Mark :=
  let (name, value) := partAtEquals word
  match word with
  | '-' :: _ :: _ =>
    match (table keys).lookup word, (table keys).lookup name with
    | some k, _ => .ok (.option k word none false)
    | none, some k => .ok (.option k name value true)
    | none, none =>
      match candidates keys word with
      | [(_, mark)] => .ok mark
      | [] => .ok (if isNegativeNumber word || word.contains ' ' then .argument else .unknown)
      | several => .error (.ambiguous word (several.map Prod.fst))
  | _ => .ok .argument

def marks (keys : List Key) : List Text → Except Fault (List (Text × Mark))
  | [] => .ok []
  | word :: words =>
    if word = "--" then .ok ((word, .dashes) :: words.map (·, .argument))
    else do return (word, ← classify keys word) :: (← marks keys words)

/-! ### Reading options -/

structure Given where
  verbose : Bool := false
  logFile : Option Text := none
  host : Option Text := none
  scheme : Option Text := none
  workers : Option Int := none
deriving DecidableEq, Repr

/-- Why reading stops before its end. -/
inductive Stop where
  | help
  /-- The words are refused by a program or command of this name. -/
  | refused (name : Text) (fault : Fault)
deriving DecidableEq, Repr

def programName : Text := "routegen"

structure Reader where
  name : Text
  keys : List Key

def Reader.refuse {α : Type} (r : Reader) (f : Fault) : Except Stop α := .error (.refused r.name f)

def switch (g : Given) : Key → Except Stop Given
  | .help => .error .help
  | .verbose => .ok { g with verbose := true }
  | _ => .ok g

def Reader.assign (r : Reader) (g : Given) (k : Key) (value : Text) : Except Stop Given :=
  match k with
  | .logFile => .ok { g with logFile := some value }
  | .host => .ok { g with host := some value }
  | .scheme => .ok { g with scheme := some value }
  | .workers =>
    match Decimal.readInteger 10 value with
    | .ok n => .ok { g with workers := some n }
    | .error _ => r.refuse (.noInteger k value)
  | .help | .verbose => .ok g

/-- The options behind a single dash, of which the first has been found, and the rest of the word if it
is no option. A value behind an option that takes none is a fault. -/
def letters (keys : List Key) (k : Key) (marked : Bool) :
    Text → Except Fault (List Key × Option Text)
  | [] => .error (.ignoredValue k [])
  | c :: cs =>
    if marked ∨ c = '-' then .error (.ignoredValue k (c :: cs))
    else
      match (table keys).lookup ['-', c] with
      | none => .ok ([k], some ('-' :: c :: cs))
      | some next =>
        match cs with
        | [] => .ok ([k, next], none)
        | '=' :: value => (letters keys next true value).map fun (ks, left) => (k :: ks, left)
        | cs => (letters keys next false cs).map fun (ks, left) => (k :: ks, left)

/-- What an option does, given the next word if that is an argument: the values after it, the words
that are not recognized, and whether the next word was its value. -/
def Reader.takeOption (r : Reader) (g : Given) (k : Key) (name : Text) (value : Option Text)
    (marked : Bool) (next : Option Text) : Except Stop (Given × List Text × Bool) :=
  match value with
  | some value =>
    if k.takesValue then do return (← r.assign g k value, [], false)
    else if Text.startsWith "--" name then r.refuse (.ignoredValue k value)
    else
      match letters r.keys k marked value with
      | .error f => r.refuse f
      | .ok (ks, left) => do return (← ks.foldlM switch g, left.toList, false)
  | none =>
    if k.takesValue then
      match next with
      | some value => do return (← r.assign g k value, [], true)
      | none => r.refuse (.missingValue k)
    else do return (← switch g k, [], false)

def nextArgument : List (Text × Mark) → Option Text
  | (word, .argument) :: _ => some word
  | _ => none

/-! ### Commands -/

/-- What the words ask for. -/
structure Order where
  surface : Surface
  path : Text := "."
  output : Option Text := none
  given : Given := {}
deriving DecidableEq, Repr

/-- The words of one argument of a run: `--`, the argument and `--` as far as they are there, and the
words behind them. -/
def oneArgument (run : List (Text × Mark)) : List Text × List (Text × Mark) :=
  let isDashes (w : Text × Mark) : Bool := w.2 == .dashes
  let front := run.takeWhile isDashes
  let rest := run.dropWhile isDashes
  let back := (rest.drop 1).takeWhile isDashes
  ((front ++ rest.take 1 ++ back).map Prod.fst, (rest.drop 1).dropWhile isDashes)

/-- The value of an argument: its word other than the first `--`. -/
def argumentValue (words : List Text) : Option Text := (words.erase "--").head?

/-- The arguments of a command from the first run of words that are no options, and the words that are
left over. -/
def readArguments (o : Order) (run : List (Text × Mark)) : Order × List Text :=
  let (path, rest) := oneArgument run
  let (output, rest) := oneArgument rest
  ({ o with path := (argumentValue path).getD o.path, output := argumentValue output },
    rest.map Prod.fst)

/-- The state while the words of a command are read: what is known, the words not recognized, and the
words that are no options since the last option. Nothing is expected any more once `settled` holds. -/
structure Reading where
  order : Order
  extras : List Text := []
  run : List (Text × Mark) := []
  settled : Bool := false

/-- A run of words that are no options has ended. The first such run holds the arguments. -/
def Reading.close (s : Reading) : Reading :=
  match s.run with
  | [] => s
  | run =>
    if s.settled then { s with extras := s.extras ++ run.map Prod.fst, run := [] }
    else
      let (order, left) := readArguments s.order run
      { s with order, extras := s.extras ++ left, run := [], settled := true }

def readCommand (r : Reader) : Reading → List (Text × Mark) → Except Stop Reading
  | s, [] => .ok s.close
  | s, (word, mark) :: rest =>
    match mark with
    | .argument | .dashes => readCommand r { s with run := s.run ++ [(word, mark)] } rest
    | .unknown =>
      let s := s.close
      readCommand r { s with extras := s.extras ++ [word] } rest
    | .option k name value marked => do
      let s := s.close
      let (given, extras, used) ←
        r.takeOption s.order.given k name value marked (nextArgument rest)
      let s := { s with order := { s.order with given }, extras := s.extras ++ extras }
      match used, rest with
      | true, _ :: rest => readCommand r s rest
      | _, rest => readCommand r s rest

/-- Reads the words behind a command. Options in front of it count unless they are given again. Gives
the order and the words that are not recognized. -/
def readSurface (surface : Surface) (before : Given) (words : List Text) :
    Except Stop (Order × List Text) := do
  let r : Reader := ⟨programName ++ ' ' :: surface.name, commandKeys⟩
  match marks r.keys words with
  | .error f => r.refuse f
  | .ok marked =>
    let s ← readCommand r { order := { surface, given := before } } marked
    return (s.order, s.extras)

def programReader : Reader := ⟨programName, commonKeys⟩

def readProgram (given : Given) (extras : List Text) :
    List (Text × Mark) → Except Stop (Order × List Text)
  | [] => programReader.refuse .missingCommand
  | (word, mark) :: rest =>
    match mark with
    | .argument =>
      match [Surface.web, .dotnet].find? fun s => s.name = word with
      | none => programReader.refuse (.unknownCommand word)
      | some surface => do
        let (order, more) ← readSurface surface given (rest.map Prod.fst)
        return (order, extras ++ more)
    | .dashes =>
      programReader.refuse (if rest = [] then .missingCommand else .unknownCommand word)
    | .unknown => readProgram given (extras ++ [word]) rest
    | .option k name value marked => do
      let (given, more, used) ← programReader.takeOption given k name value marked (nextArgument rest)
      match used, rest with
      | true, _ :: rest => readProgram given (extras ++ more) rest
      | _, rest => readProgram given (extras ++ more) rest

/-- What the words on the command line ask for. -/
def read (words : List Text) : Except Stop Order :=
  match marks commonKeys words with
  | .error f => programReader.refuse f
  | .ok marked => do
    let (order, extras) ← readProgram {} [] marked
    if extras ≠ [] then programReader.refuse (.unrecognized extras)
    return order

end RouteAtlas.CommandLine
