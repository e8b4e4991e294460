import Whitespace.CommandLine.Integer
import Whitespace.Text.Quoted

/-!
# Command line options

Options have a long name of two dashes, and most have a short one of a dash and a letter. A long name
may be shortened as long as it stays unique, and its value may follow an equals sign. Short options
that take no value can be joined to the one after them. All arguments are told apart before any
option takes effect.
-/

namespace Whitespace.CommandLine

inductive Key where
  | help
  | file
  | sourceType
  | heapSize
  | raw
  | debug
  | debugHeap
  | quiet
  | noOutput
  | extension
  | tracebackJson
deriving DecidableEq, Repr

namespace Key

def all : List Key :=
  [help, file, sourceType, heapSize, raw, debug, debugHeap, quiet, noOutput, extension,
    tracebackJson]

def names : Key → List String
  | help => ["-h", "--help"]
  | file => ["-f", "--file"]
  | sourceType => ["-t", "--source-type"]
  | heapSize => ["-s", "--heap-size"]
  | raw => ["-i", "--raw"]
  | debug => ["-d", "--debug"]
  | debugHeap => ["-m", "--debug-heap"]
  | quiet => ["-q", "--quiet"]
  | noOutput => ["-n", "--no-output"]
  | extension => ["--ext"]
  | tracebackJson => ["--traceback-json"]

def takesValue : Key → Bool
  | file | sourceType | heapSize | extension => true
  | _ => false

def text (key : Key) : String :=
  String.intercalate "/" key.names

/-- The names of all options, with the options they belong to. -/
def table : List (List Char × Key) :=
  all.flatMap fun key => key.names.map fun name => (name.toList, key)

end Key

inductive UsageError where
  /-- A shortened name belongs to several options. -/
  | ambiguous (argument : String) (names : List String)
  | valueMissing (key : Key)
  /-- An option that takes no value was given one. -/
  | valueIgnored (key : Key) (value : String)
  | notAnInteger (key : Key) (value : String)
  /-- Required options are missing. -/
  | required (keys : List Key)
  /-- There are arguments that belong to no option. -/
  | unrecognized (arguments : List String)
deriving DecidableEq, Repr

namespace UsageError

def message : UsageError → String
  | ambiguous argument names =>
    "ambiguous option: " ++ argument ++ " could match " ++ String.intercalate ", " names
  | valueMissing key => "argument " ++ key.text ++ ": expected one argument"
  | valueIgnored key value =>
    "argument " ++ key.text ++ ": ignored explicit argument " ++ Text.quoted value
  | notAnInteger key value =>
    "argument " ++ key.text ++ ": invalid int value: " ++ Text.quoted value
  | required keys =>
    "the following arguments are required: " ++ String.intercalate ", " (keys.map Key.text)
  | unrecognized arguments =>
    "unrecognized arguments: " ++ String.intercalate " " arguments

end UsageError

inductive Argument where
  /-- A value of an option, or of none. -/
  | plain (text : String)
  /-- Two dashes, after which there are no options. -/
  | separator
  /-- The name of an option, and the value attached to it. -/
  | option (key : Key) (name : List Char) (value : Option (List Char))
  /-- What looks like an option but is none. -/
  | unknown (text : String)
deriving DecidableEq, Repr

def splitEquals (cs : List Char) : List Char × Option (List Char) :=
  match cs.dropWhile (· ≠ '=') with
  | [] => (cs, none)
  | _ :: value => (cs.takeWhile (· ≠ '='), some value)

/-- The options that a shortened name may stand for, each with its name and the value attached. -/
def expansions (cs : List Char) : List (Key × List Char × Option (List Char)) :=
  match cs with
  | '-' :: '-' :: _ =>
    let (start, value) := splitEquals cs
    (Key.table.filter fun entry => start.isPrefixOf entry.1).map fun (name, key) =>
      (key, name, value)
  | _ =>
    Key.table.filterMap fun (name, key) =>
      if name = cs.take 2 then some (key, name, some (cs.drop 2))
      else if cs.isPrefixOf name then some (key, name, none)
      else none

/-- Whether all characters are digits, and there is one. -/
def areDigits (cs : List Char) : Bool :=
  !cs.isEmpty && cs.all fun c => (Text.digitValue? c).isSome

/-- Whether an argument looks like a negative number. Such an argument is never an option. -/
def isNegativeNumber (cs : List Char) : Bool :=
  match cs with
  | '-' :: rest =>
    let rest := if rest.getLast? = some '\n' then rest.dropLast else rest
    let whole := rest.takeWhile fun c => (Text.digitValue? c).isSome
    areDigits rest ||
      match rest.drop whole.length with
      | '.' :: fraction => areDigits fraction
      | _ => false
  | _ => false

/-- Tells what an argument is that stands before any separator. -/
def classify (argument : String) : Except UsageError Argument :=
  let cs := argument.toList
  match cs with
  | '-' :: _ :: _ =>
    match Key.table.lookup cs with
    | some key => .ok (.option key cs none)
    | none =>
      let (name, value) := splitEquals cs
      match value.bind fun _ => Key.table.lookup name with
      | some key => .ok (.option key name value)
      | none =>
        match expansions cs with
        | [(key, name, value)] => .ok (.option key name value)
        | [] =>
          if isNegativeNumber cs || cs.contains ' ' then .ok (.plain argument)
          else .ok (.unknown argument)
        | several =>
          .error (.ambiguous argument (several.map fun e => String.ofList e.2.1))
  | _ => .ok (.plain argument)

def classifyAll : List String → Except UsageError (List Argument)
  | [] => .ok []
  | argument :: rest =>
    if argument = "--" then .ok (.separator :: rest.map .plain)
    else do
      let first ← classify argument
      let more ← classifyAll rest
      return first :: more

/-- An option that was given, with its value if it takes one and the value was not removed. -/
structure Given where
  key : Key
  value : Option String
deriving DecidableEq, Repr

/-- An option with a value attached to it. Two dashes are taken for a separator even there, and are
removed. -/
def Given.attached (key : Key) (value : List Char) : Given :=
  ⟨key, if value = ['-', '-'] then none else some (String.ofList value)⟩

/-- The options that arguments give, and the arguments left after them. -/
abbrev Gathered := Except UsageError (List Given × List Argument)

/-- An option without an attached value. Its value, if it takes one, is the next argument. -/
def gatherPlain (key : Key) (rest : List Argument) : Gathered :=
  if key.takesValue then
    match rest with
    | .plain value :: rest => .ok ([⟨key, some value⟩], rest)
    | _ => .error (.valueMissing key)
  else .ok ([⟨key, none⟩], rest)

/-- An option with what is attached to it. If a short option takes no value, the letters attached to
it are short options themselves. -/
def gatherAttached (key : Key) (isShort : Bool) :
    (attached : List Char) → List Argument → Gathered
  | [], rest =>
    if key.takesValue then .ok ([.attached key []], rest) else .error (.valueIgnored key "")
  | c :: cs, rest =>
    if key.takesValue then .ok ([.attached key (c :: cs)], rest)
    else
      match if isShort then Key.table.lookup ['-', c] else none with
      | none => .error (.valueIgnored key (String.ofList (c :: cs)))
      | some next => do
        let (more, rest) ←
          if cs.isEmpty then gatherPlain next rest else gatherAttached next true cs rest
        return (⟨key, none⟩ :: more, rest)

/-- The options that one argument gives, and the arguments left after the value of the last. -/
def gather (key : Key) (name : List Char) (value : Option (List Char)) (rest : List Argument) :
    Gathered :=
  match value with
  | none => gatherPlain key rest
  | some attached => gatherAttached key (name.take 2 ≠ ['-', '-']) attached rest

/-- What is known of an option that takes a value. -/
inductive OptionValue (α : Type) where
  /-- The option was not given. -/
  | unset
  /-- The option was given, but its value was removed as a separator. -/
  | removed
  | given (value : α)
deriving DecidableEq, Repr

namespace OptionValue

/-- The value of an option that was given. -/
def ofOption {α : Type} : Option α → OptionValue α
  | none => removed
  | some value => given value

def toOption {α : Type} : OptionValue α → Option α
  | given value => some value
  | _ => none

/-- Whether the option was given, even if its value was removed. -/
def isGiven {α : Type} : OptionValue α → Bool
  | unset => false
  | _ => true

end OptionValue

structure Settings where
  file : OptionValue String := .unset
  sourceType : OptionValue String := .unset
  heapSize : OptionValue Int := .unset
  raw : Bool := false
  debug : Bool := false
  debugHeap : Bool := false
  quiet : Bool := false
  noOutput : Bool := false
  /-- The paths of the extensions; `none` for one that was removed as a separator. -/
  extensions : List (Option String) := []
  tracebackJson : Bool := false
deriving DecidableEq, Repr

/-- Why reading the command line ended before all options were read. -/
inductive Interruption where
  | help
  | error (error : UsageError)
deriving DecidableEq, Repr

def Settings.apply (s : Settings) (given : Given) : Except Interruption Settings :=
  match given.key with
  | .help => .error .help
  | .file => .ok { s with file := .ofOption given.value }
  | .sourceType => .ok { s with sourceType := .ofOption given.value }
  | .heapSize =>
    match given.value with
    | none => .ok { s with heapSize := .removed }
    | some text =>
      match readInteger? text with
      | some size => .ok { s with heapSize := .given size }
      | none => .error (.error (.notAnInteger .heapSize text))
  | .raw => .ok { s with raw := true }
  | .debug => .ok { s with debug := true }
  | .debugHeap => .ok { s with debugHeap := true }
  | .quiet => .ok { s with quiet := true }
  | .noOutput => .ok { s with noOutput := true }
  | .extension => .ok { s with extensions := s.extensions ++ [given.value] }
  | .tracebackJson => .ok { s with tracebackJson := true }

/-- Lets the options among the arguments take effect in order, and gives the arguments that belong
to none. There are at most `fuel` arguments. -/
def consume : (fuel : Nat) → List Argument → Settings → List String →
    Except Interruption (Settings × List String)
  | 0, _, s, extra => .ok (s, extra)
  | _, [], s, extra => .ok (s, extra)
  | fuel + 1, .plain text :: rest, s, extra => consume fuel rest s (extra ++ [text])
  | fuel + 1, .separator :: rest, s, extra => consume fuel rest s (extra ++ ["--"])
  | fuel + 1, .unknown text :: rest, s, extra => consume fuel rest s (extra ++ [text])
  | fuel + 1, .option key name value :: rest, s, extra =>
    match gather key name value rest with
    | .error e => .error (.error e)
    | .ok (given, rest) => do
      let s ← given.foldlM Settings.apply s
      consume fuel rest s extra

def Settings.missing (s : Settings) : List Key :=
  (if s.file.isGiven then [] else [Key.file]) ++
    (if s.sourceType.isGiven then [] else [Key.sourceType])

def readSettings (arguments : List String) : Except Interruption Settings := do
  let classified ← (classifyAll arguments).mapError .error
  let (s, extra) ← consume classified.length classified {} []
  if s.missing ≠ [] then throw (.error (.required s.missing))
  if extra ≠ [] then throw (.error (.unrecognized extra))
  return s

end Whitespace.CommandLine
