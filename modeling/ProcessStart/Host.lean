import ProcessStart.Files
import ProcessStart.MemoryMap
import ProcessStart.Report
import ProcessStart.Sha256

/-!
The process that a probe runs in: what answers its lookups, what the C library
says of itself, and the listing of its memory. The report of a probe names the
file that holds the address of the lookup without version, and its digest.
-/
namespace ProcessStart

structure Host where
  resolver : Resolver
  /-- The address of the substitute. -/
  self : SymbolAddress
  /-- What the library gives as its version, unless it gives nothing. -/
  versionText : Option (List UInt8)
  /-- The listing of the memory, if it can be had. -/
  memory : Option (List UInt8)

namespace Host

/-- The library's version. A text that is not well formed counts as empty. -/
def version (h : Host) : Except Version.ParseError Version :=
  match h.versionText with
  | none => .error .empty
  | some bytes => Version.parseChars ((Text.utf8Decode? (bytes.takeWhile (· ≠ 0))).getD [])

def objectAt? (h : Host) (address : UInt64) : Option (List Char) :=
  h.memory.bind (MemoryMap.fileOf? address.toNat)

def digestText (content : List UInt8) : String := String.ofList (Text.octets (Sha256.digest content))

/-- Names the object in a report, with its digest if it can be read. -/
def withObject (files : Files) (path : List Char) (r : Report) : Report :=
  { r with
    object := some (String.ofList path)
    digest := (files.read (Text.utf8Encode path)).toOption.map digestText }

def probe (h : Host) (files : Files) : Except StartError Report :=
  (Report.probe h.resolver h.self h.version.toOption).value.map fun report =>
    match (h.resolver .default).bind fun a => h.objectAt? a.val with
    | none => report
    | some path => withObject files path report

end Host
end ProcessStart
