import ProcessStart.Files

/-!
The command line. A command is followed by options in any order, each at most
once. The value of an option stands behind an equals sign or is the next
argument, which then must not look like an option. Two hyphens end the
options, and nothing may follow them. Help can be asked for as a command, and
wherever an option can stand; what follows is then not read any more.
-/
namespace ProcessStart.CommandLine

inductive Command where
  | probe (output log : Option (List UInt8)) (runId : List Char)
  | linkArguments (flavor : List Char) (library : Option (List UInt8)) (asJson : Bool)
  | validateLog (log : List UInt8)
  | help
  deriving DecidableEq, Repr

/-- What the value of an option stands for. -/
inductive ValueKind where
  | path
  | text
  deriving DecidableEq, Repr

inductive Value where
  | path (bytes : List UInt8)
  | text (chars : List Char)
  deriving DecidableEq, Repr

/-- A path must not be empty, and a text has to be one. -/
def ValueKind.read? : ValueKind → List UInt8 → Option Value
  | .path, bytes => if bytes.isEmpty then none else some (.path bytes)
  | .text, bytes => (Text.utf8Decode? bytes).map .text

structure Options where
  valued : List (String × ValueKind)
  flags : List String

structure Given where
  values : List (String × Value)
  flags : List String

namespace Given

def none : Given := ⟨[], []⟩

def addValue (g : Given) (name : String) (value : Value) : Option Given :=
  if (g.values.lookup name).isSome then .none
  else some { g with values := (name, value) :: g.values }

def addFlag (g : Given) (name : String) : Option Given :=
  if g.flags.contains name then .none else some { g with flags := name :: g.flags }

def path? (g : Given) (name : String) : Option (List UInt8) :=
  match g.values.lookup name with
  | some (.path bytes) => some bytes
  | _ => .none

def text (g : Given) (name : String) (default : List Char) : List Char :=
  match g.values.lookup name with
  | some (.text chars) => chars
  | _ => default

end Given

def hyphen : UInt8 := 0x2d

def equals : UInt8 := 0x3d

/-- An argument that may be the value of the option before it. -/
def isValue (argument : List UInt8) : Bool :=
  argument.head? != some hyphen || argument == [hyphen]

/-- An option's name and, if there is one, the value behind the equals sign. -/
def splitOption (body : List UInt8) : List UInt8 × Option (List UInt8) :=
  match body.span (· != equals) with
  | (name, []) => (name, .none)
  | (name, _ :: value) => (name, some value)

def findName (names : List String) (name : List UInt8) : Option String :=
  names.find? fun n => Text.utf8Encode n.toList == name

/-- Whether an argument is the option for help, whose short form may have anything behind it. -/
def asksForHelp (argument : List UInt8) : Bool :=
  argument == Text.utf8Encode "--help".toList ||
    (Text.utf8Encode "-h".toList).isPrefixOf argument

def Options.readValue? (o : Options) (g : Given) (option : String) (value : List UInt8) :
    Option Given :=
  (o.valued.lookup option).bind fun kind => (kind.read? value).bind (g.addValue option)

/-- What is made of the arguments behind a command. -/
inductive Scanned where
  | options (given : Given)
  | help

/-- Reads the arguments from the left; there is no result if one of them cannot stand there. -/
def scan (o : Options) (g : Given) : List (List UInt8) → Option Scanned
  | [] => some (.options g)
  | (a :: b :: body) :: rest =>
    if asksForHelp (a :: b :: body) then some .help
    else if a = hyphen ∧ b = hyphen then
      if body.isEmpty then
        if rest.isEmpty then some (.options g) else .none
      else
        let (name, value) := splitOption body
        match findName o.flags name, findName (o.valued.map Prod.fst) name, value with
        | some flag, _, .none => (g.addFlag flag).bind fun g => scan o g rest
        | .none, some option, some value =>
          (o.readValue? g option value).bind fun g => scan o g rest
        | .none, some option, .none =>
          match rest with
          | [] => .none
          | value :: rest =>
            if isValue value then (o.readValue? g option value).bind fun g => scan o g rest
            else .none
        | _, _, _ => .none
    else .none
  | _ :: _ => .none

def probeOptions : Options := ⟨[("output", .path), ("log", .path), ("run-id", .text)], []⟩

def linkOptions : Options := ⟨[("flavor", .text), ("staticlib", .path)], ["json"]⟩

def validateOptions : Options := ⟨[("log", .path)], []⟩

def ofProbe (g : Given) : Option Command :=
  some (.probe (g.path? "output") (g.path? "log") (g.text "run-id" "local".toList))

def ofLinkArguments (g : Given) : Option Command :=
  some (.linkArguments (g.text "flavor" "cc".toList) (g.path? "staticlib")
    (g.flags.contains "json"))

def ofValidateLog (g : Given) : Option Command := (g.path? "log").map .validateLog

def request (o : Options) (ofGiven : Given → Option Command) (arguments : List (List UInt8)) :
    Option Command :=
  (scan o .none arguments).bind fun
    | .options g => ofGiven g
    | .help => some .help

def commandNames : List String := ["probe", "link-args", "validate-log", "help"]

/-- Help is about the program or about one command. -/
def ofHelp : List (List UInt8) → Option Command
  | [] => some .help
  | [name] => (findName commandNames name).map fun _ => .help
  | _ => .none

/-- The request that the arguments make, if they make one. -/
def parse : List (List UInt8) → Option Command
  | [] => .none
  | command :: rest =>
    if asksForHelp command then some .help
    else
      match findName commandNames command with
      | some "probe" => request probeOptions ofProbe rest
      | some "link-args" => request linkOptions ofLinkArguments rest
      | some "validate-log" => request validateOptions ofValidateLog rest
      | some "help" => ofHelp rest
      | _ => .none

end ProcessStart.CommandLine
