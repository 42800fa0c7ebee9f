/-!
# Command line options

The arguments are read from left to right.  A request for the version or for help is answered as
soon as it is reached; anything that is no option, an option given twice, an option without its
value, a second script or an empty name for one is a misuse as soon as it is reached, and a line
together with a script at the end.
-/

namespace ShellExpr.Command

structure Options where
  /-- The line to run instead of a script. -/
  line : Option String
  /-- The name of the script. -/
  script : Option String
  keepGoing : Bool
  quiet : Bool
deriving DecidableEq, Repr

/-- No argument read. -/
def Options.initial : Options :=
  ⟨none, none, false, false⟩

/-- What is answered without a run. -/
inductive Reply where
  | version
  | help
  | misuse
deriving DecidableEq, Repr

/-- What the arguments ask for. -/
inductive Request where
  | run (options : Options)
  | reply (reply : Reply)
deriving DecidableEq, Repr

/-- What an argument with a dash asks for. -/
inductive Answer where
  | options (options : Options)
  /-- The next argument is the line to run with these options. -/
  | needsLine (options : Options)
  | reply (reply : Reply)
deriving DecidableEq, Repr

namespace Options

def withLine (options : Options) (line : String) : Answer :=
  match options.line with
  | some _ => .reply .misuse
  | none => .options { options with line := some line }

/-- Notes that the next argument is the line to run. -/
def awaitLine (options : Options) : Answer :=
  match options.line with
  | some _ => .reply .misuse
  | none => .needsLine options

def withKeepGoing (options : Options) : Answer :=
  if options.keepGoing then .reply .misuse else .options { options with keepGoing := true }

def withQuiet (options : Options) : Answer :=
  if options.quiet then .reply .misuse else .options { options with quiet := true }

/-- The options with the name of a script, if they have none yet. -/
def withScript? (options : Options) (name : String) : Option Options :=
  match options.script with
  | some _ => none
  | none => if name.isEmpty then none else some { options with script := some name }

/-- Options that are read to the end. -/
def finish (options : Options) : Request :=
  if options.line.isSome && options.script.isSome then .reply .misuse else .run options

end Options

/-! ### Single arguments -/

/-- The letters of an argument with one dash.  What follows the letter of the line is the line,
behind an equals sign if there is one. -/
def readLetters (options : Options) : List Char → Answer
  | [] => .options options
  | 'k' :: letters =>
    match options.withKeepGoing with
    | .options options => readLetters options letters
    | answer => answer
  | 'q' :: letters =>
    match options.withQuiet with
    | .options options => readLetters options letters
    | answer => answer
  | ['e'] => options.awaitLine
  | 'e' :: '=' :: text => options.withLine (String.ofList text)
  | 'e' :: text => options.withLine (String.ofList text)
  | 'V' :: _ => .reply .version
  | 'h' :: _ => .reply .help
  | _ => .reply .misuse

/-- An argument with two dashes: a name, and a value behind an equals sign if there is one. -/
def readName (options : Options) (name : String) (value : Option String) : Answer :=
  match name, value with
  | "expr", some line => options.withLine line
  | "expr", none => options.awaitLine
  | "keep-going", none => options.withKeepGoing
  | "quiet", none => options.withQuiet
  | "version", none => .reply .version
  | "help", none => .reply .help
  | _, _ => .reply .misuse

/-- Splits a text at its first equals sign. -/
def splitValue (cs : List Char) : String × Option String :=
  let name := String.ofList (cs.takeWhile (· != '='))
  match cs.dropWhile (· != '=') with
  | [] => (name, none)
  | _ :: value => (name, some (String.ofList value))

/-- An argument with a dash and something behind it. -/
def isDashed (argument : String) : Bool :=
  match argument.toList with
  | '-' :: _ :: _ => true
  | _ => false

def readDashed (options : Options) (argument : String) : Answer :=
  match argument.toList with
  | '-' :: '-' :: text =>
    let (name, value) := splitValue text
    readName options name value
  | _ :: letters => readLetters options letters
  | [] => .reply .misuse

/-! ### All arguments -/

/-- Names of scripts only. -/
def readScripts (options : Options) : List String → Request
  | [] => options.finish
  | name :: rest =>
    match options.withScript? name with
    | some options => readScripts options rest
    | none => .reply .misuse

def readFrom (options : Options) : List String → Request
  | [] => options.finish
  | argument :: rest =>
    if argument = "--" then readScripts options rest
    else if isDashed argument then
      match readDashed options argument with
      | .reply reply => .reply reply
      | .options options => readFrom options rest
      | .needsLine options =>
        match rest with
        | [] => .reply .misuse
        | line :: rest =>
          if isDashed line then .reply .misuse
          else readFrom { options with line := some line } rest
    else
      match options.withScript? argument with
      | some options => readFrom options rest
      | none => .reply .misuse

/-- What the arguments ask for. -/
def read (arguments : List String) : Request :=
  readFrom .initial arguments

/-! ### A line or a script -/

theorem Options.exclusive_of_finish {options result : Options}
    (h : options.finish = .run result) : ¬(result.line.isSome && result.script.isSome) = true := by
  unfold finish at h
  split at h
  · contradiction
  · rename_i exclusive
    cases h
    exact exclusive

theorem exclusive_of_readScripts {options result : Options} {names : List String}
    (h : readScripts options names = .run result) :
    ¬(result.line.isSome && result.script.isSome) = true := by
  fun_induction readScripts options names with
  | case1 options => exact options.exclusive_of_finish h
  | case2 options name rest next _ ih => exact ih h
  | case3 => contradiction

/-- What is run is a line or a script, never both. -/
theorem exclusive_of_read {arguments : List String} {options : Options}
    (h : read arguments = .run options) :
    ¬(options.line.isSome && options.script.isSome) = true := by
  unfold read at h
  generalize Options.initial = initial at h
  fun_induction readFrom initial arguments with
  | case1 options => exact options.exclusive_of_finish h
  | case2 options rest => exact exclusive_of_readScripts h
  | case4 | case7 | case8 =>
    rename_i ih
    exact ih h
  | _ => contradiction

example : read ["-ke", "(1)", "script"] = .reply .misuse := by
  decide +kernel

end ShellExpr.Command
