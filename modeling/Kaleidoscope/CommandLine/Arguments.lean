/-!
# Command line arguments

Arguments are taken from left to right. A request for help or for the version is answered at once,
and so is an argument that has no meaning; what was given too often, or without the value that it
needs, is noticed at the end. A value stands in the same argument as its option or in the next one.
In the same argument it may be led in by equals signs, which do not belong to it. In the next one
it may not look like an option.
-/

namespace Kaleidoscope.CommandLine

/-- An option that needs a value. -/
inductive Valued where
  /-- A binary operator to register. -/
  | operator
  /-- The depth limit. -/
  | maxDepth
  deriving DecidableEq

/-- Why arguments have no meaning. -/
inductive UsageError where
  /-- No flag or option has this name. -/
  | unknown (name : String)
  /-- An option never got a value. -/
  | missingValue (option : Valued)
  /-- The print flag was given more than once. -/
  | repeatedPrint
  /-- The depth limit was given more than once. -/
  | repeatedDepth
  /-- A file was given after another one. -/
  | secondFile (path : String)
  deriving DecidableEq

/-- How messages name an option. -/
def Valued.text : Valued → String
  | .operator => "--operator <CHAR=PREC>..."
  | .maxDepth => "--max-depth <N>"

/-- The wording of an error. -/
def UsageError.message : UsageError → String
  | .unknown name => s!"unknown argument '{name}'"
  | .missingValue option => s!"the argument '{option.text}' requires a value"
  | .repeatedPrint => "the argument '--print' was given more than once"
  | .repeatedDepth => s!"the argument '{Valued.maxDepth.text}' was given more than once"
  | .secondFile path => s!"unknown argument '{path}'"

/-- What the arguments say about a run. -/
structure Options where
  /-- Whether the forms are printed. -/
  print : Bool
  /-- The values of the operator options, in order. -/
  operators : List String
  /-- The value of the depth option. -/
  maxDepth? : Option String
  /-- The file to read instead of the standard input. -/
  file? : Option String
  deriving DecidableEq

/-- What the arguments ask for. -/
inductive Request where
  /-- The description of the arguments. -/
  | help
  /-- The version of the program. -/
  | version
  /-- A run. -/
  | run (options : Options)
  deriving DecidableEq

/-- The arguments that have been taken. -/
structure Taken where
  /-- The number of print flags. -/
  prints : Nat
  /-- The number of operator options. -/
  operatorUses : Nat
  /-- Their values, the last one first. -/
  operators : List String
  /-- The number of depth options. -/
  depthUses : Nat
  /-- Their values, the last one first. -/
  depths : List String
  /-- The file. -/
  file? : Option String
  /-- The option that takes the next argument for its value. -/
  waiting? : Option Valued
  /-- Whether options have been ended, so that only a file can follow. -/
  ended : Bool

namespace Taken

/-- No argument. -/
def nothing : Taken := ⟨0, 0, [], 0, [], none, none, false⟩

/-- An option without its value. -/
def use (taken : Taken) : Valued → Taken
  | .operator => { taken with operatorUses := taken.operatorUses + 1, waiting? := some .operator }
  | .maxDepth => { taken with depthUses := taken.depthUses + 1, waiting? := some .maxDepth }

/-- A value of an option. -/
def value (taken : Taken) (text : String) : Valued → Taken
  | .operator => { taken with operators := text :: taken.operators, waiting? := none }
  | .maxDepth => { taken with depths := text :: taken.depths, waiting? := none }

/-- An option with the text behind it in the same argument, if there is any. -/
def option (taken : Taken) (option : Valued) : Option (List Char) → Taken
  | none => taken.use option
  | some text => (taken.use option).value (String.ofList (text.dropWhile (· = '='))) option

/-- A print flag. -/
def print (taken : Taken) : Taken := { taken with prints := taken.prints + 1, waiting? := none }

/-- A file. -/
def file (taken : Taken) (path : String) : Except UsageError Taken :=
  match taken.file? with
  | none => .ok { taken with file? := some path }
  | some _ => .error (.secondFile path)

/-- What all arguments together ask for. -/
def request (taken : Taken) : Except UsageError Request :=
  if taken.operatorUses ≠ 0 ∧ taken.operators = [] then .error (.missingValue .operator)
  else if taken.depthUses ≠ 0 ∧ taken.depths = [] then .error (.missingValue .maxDepth)
  else if 1 < taken.depthUses then .error .repeatedDepth
  else if 1 < taken.prints then .error .repeatedPrint
  else .ok (.run ⟨taken.prints ≠ 0, taken.operators.reverse, taken.depths.head?, taken.file?⟩)

/-- What follows an argument: the request is settled, or there are more arguments to take. -/
inductive Next where
  /-- The request is settled. -/
  | settled (request : Request)
  /-- More arguments can be taken. -/
  | more (taken : Taken)

/-- A bundle of letters behind one dash. A letter for an option takes the rest of the bundle for its
value, and the next argument when there is no rest. -/
def letters (taken : Taken) : List Char → Except UsageError Next
  | [] => .ok (.more taken)
  | 'p' :: rest => taken.print.letters rest
  | 'h' :: _ => .ok (.settled .help)
  | 'V' :: _ => .ok (.settled .version)
  | 'o' :: rest =>
    .ok (.more (taken.option .operator (if rest.isEmpty then none else some rest)))
  | c :: _ => .error (.unknown (String.ofList ['-', c]))

/-- A long name, and the text behind its first equals sign if there is one. A flag takes no notice
of such a text. -/
def longName (taken : Taken) (name : String) (text? : Option (List Char)) :
    Except UsageError Next :=
  match name with
  | "operator" => .ok (.more (taken.option .operator text?))
  | "max-depth" => .ok (.more (taken.option .maxDepth text?))
  | "print" => .ok (.more taken.print)
  | "help" => .ok (.settled .help)
  | "version" => .ok (.settled .version)
  | _ => .error (.unknown ("--" ++ name))

/-- A long name with what precedes and follows it in one argument: any number of dashes, and a text
behind an equals sign. -/
def long (taken : Taken) (argument : List Char) : Except UsageError Next :=
  let body := argument.dropWhile (· = '-')
  let name := String.ofList (body.takeWhile (· ≠ '='))
  match body.dropWhile (· ≠ '=') with
  | [] => taken.longName name none
  | _ :: text => taken.longName name (some text)

/-- An argument that is neither a flag nor an option: the value that is being waited for, or a
file. -/
def plain (taken : Taken) (argument : String) : Except UsageError Next :=
  match taken.waiting? with
  | some option => .ok (.more (taken.value argument option))
  | none => (taken.file argument).map .more

/-- One argument. A lone dash is plain. -/
def argument (taken : Taken) (text : String) : Except UsageError Next :=
  if taken.ended then (taken.file text).map .more
  else
    match text.toList with
    | ['-', '-'] => .ok (.more { taken with ended := true })
    | '-' :: '-' :: rest => taken.long ('-' :: '-' :: rest)
    | '-' :: c :: rest => { taken with waiting? := none }.letters (c :: rest)
    | _ => taken.plain text

/-- The arguments that follow. -/
def arguments (taken : Taken) : List String → Except UsageError Request
  | [] => taken.request
  | text :: rest =>
    match taken.argument text with
    | .error error => .error error
    | .ok (.settled request) => .ok request
    | .ok (.more taken) => taken.arguments rest

end Taken

/-- What a list of arguments asks for. -/
def Request.ofArguments (arguments : List String) : Except UsageError Request :=
  Taken.nothing.arguments arguments

end Kaleidoscope.CommandLine
