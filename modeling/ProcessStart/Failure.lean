import ProcessStart.Files
import ProcessStart.Plan
import ProcessStart.Text.Quoted

/-!
What makes a command fail. A failure has a message for readers; a program that
ends with one shows its structure instead.
-/
namespace ProcessStart

inductive Failure where
  | file (path : List UInt8) (error : FileError)
  | start (error : StartError)
  | version (error : Version.ParseError)
  | invalidLog (path : List UInt8) (count : Nat)
  | unknownFlavor (name : List Char)
  /-- What was found and what the library says of itself do not go together. -/
  | inconsistent (generation runtime : String)
  deriving DecidableEq, Repr

namespace Failure

def message : Failure → String
  | .file path e => "i/o error on '" ++ String.ofList (Text.utf8Shown path) ++ "': " ++ e.message
  | .start e => e.message
  | .version e => e.message
  | .invalidLog path count =>
    String.ofList (Text.decimal count) ++ " structured log violation(s) in '" ++
      String.ofList (Text.utf8Shown path) ++ "'"
  | .unknownFlavor name =>
    "unsupported link flavor '" ++ String.ofList name ++ "', expected cc|ld"
  | .inconsistent generation runtime =>
    "symbol probe (" ++ generation ++ ") disagrees with runtime glibc " ++ runtime

def record (name : String) (fields : List (String × String)) : String :=
  name ++ " \x7b " ++ ", ".intercalate (fields.map fun f => f.1 ++ ": " ++ f.2) ++ " \x7d"

def number (n : Nat) : String := String.ofList (Text.decimal n)

def quote (s : String) : String := String.ofList (Text.quoted s.toList)

def quotePath (path : List UInt8) : String := String.ofList (Text.quotedPath path)

def showFileError (e : FileError) : String :=
  match e.number?, e with
  | some n, e => record "Os"
    [("code", number n), ("kind", e.kind), ("message", quote e.description)]
  | none, .other description => record "Custom"
    [("kind", e.kind), ("error", quote description)]
  | none, e => record "Error" [("kind", e.kind), ("message", quote e.description)]

def showStartError : StartError → String
  | .unresolved => record "StartMainUnresolved" [("symbol", quote startMain)]
  | .pseudoAddress a => record "ImplausibleAddress"
    [("symbol", quote startMain), ("addr", number a.toNat)]
  | .resolvedToSelf a => record "ResolvedToShim"
    [("symbol", quote startMain), ("addr", number a.toNat)]

def showVersionError : Version.ParseError → String
  | .empty => "Empty"
  | .missingMinor => "MissingMinor"
  | .notNumeric index => record "NotNumeric" [("index", number index)]

def shown : Failure → String
  | .file path e => record "Io" [("path", quotePath path), ("source", showFileError e)]
  | .start e => "Startup(" ++ showStartError e ++ ")"
  | .version e => "Version(" ++ showVersionError e ++ ")"
  | .invalidLog path count => record "InvalidLog"
    [("path", quotePath path), ("count", number count)]
  | .unknownFlavor name => "UnknownFlavor(" ++ quote (String.ofList name) ++ ")"
  | .inconsistent generation runtime => quote (message (.inconsistent generation runtime))

end Failure
end ProcessStart
