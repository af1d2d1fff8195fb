import ProcessStart.Symbol
import ProcessStart.Text.Utf8

/-!
The arguments that put the substitute into a program: the substitute is
referenced, the start routine's name becomes an alias of it, and the library
that looks symbols up at run time is kept even if nothing seems to need it. A
compiler driver hands on to the linker what stands behind `-Wl,`, cut at the
commas.
-/
namespace ProcessStart.LinkLine

/-- Who reads the arguments. -/
inductive Flavor where
  | compiler
  | linker
  deriving DecidableEq, Repr

namespace Flavor

def label : Flavor → String
  | .compiler => "cc"
  | .linker => "ld"

def names : List (String × Flavor) :=
  [("cc", .compiler), ("gcc", .compiler), ("clang", .compiler), ("ld", .linker),
    ("lld", .linker), ("ld.lld", .linker)]

/-- The flavor of a program's name; the case of ASCII letters does not matter. -/
def ofName? (name : List Char) : Option Flavor :=
  names.lookup (String.ofList (name.map Char.toLower))

/-- The mark of arguments that a compiler driver hands on. -/
def passedOn : List Char := "-Wl,".toList

/-- Arguments for the linker, as one argument if a compiler driver hands them on. -/
def pass (f : Flavor) (arguments : List (List Char)) : List (List Char) :=
  match f with
  | .compiler => [passedOn ++ [','].intercalate arguments]
  | .linker => arguments

end Flavor

/-- Makes the linker look for the substitute. -/
def reference : List Char := "--undefined=".toList ++ substitute.toList

/-- Makes the start routine's name stand for the substitute. -/
def secondName : List Char := "--defsym=".toList ++ startMain.toList ++ '=' :: substitute.toList

def before (f : Flavor) : List (List Char) := f.pass [reference] ++ f.pass [secondName]

def behind (f : Flavor) : List (List Char) :=
  f.pass ["--push-state".toList, "--no-as-needed".toList] ++ "-ldl".toList ::
    f.pass ["--pop-state".toList]

/-- All arguments, with the path of the library that holds the substitute, if it is to be named. -/
def arguments (f : Flavor) (library : Option (List UInt8)) : List (List Char) :=
  before f ++ library.toList.map Text.utf8Shown ++ behind f

end ProcessStart.LinkLine
