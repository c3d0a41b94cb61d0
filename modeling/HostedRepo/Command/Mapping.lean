import HostedRepo.Failure
import HostedRepo.Files.Disk
import HostedRepo.Remote.FileMap

/-!
# File mappings

A mapping names a local file and the path at which it is committed, written `LOCAL=REMOTE` or as
one path for both.
-/

namespace HostedRepo

structure Mapping where
  source : String
  remote : String
  deriving DecidableEq, Repr

namespace Mapping

/-- Without leading dots that name the current folder. -/
def dropDots : List Char → List Char
  | '.' :: '/' :: s => dropDots s
  | s => s

/-- A path in a repository, without what stands for its root in front. -/
def normalized (s : List Char) : List Char :=
  (dropDots s).dropWhile (· = '/')

/-- Reads a mapping. -/
def parse (text : String) : Except Failure Mapping :=
  let (source, target) := (Text.splitOnce '=' text.toList).getD (text.toList, text.toList)
  let target := normalized target
  if source = [] ∨ target = [] then .error (.mapping text)
  else .ok ⟨String.ofList source, String.ofList target⟩

/-- Reads a local file. -/
def readLocal (d : Files.Disk) (path : String) : Except Failure Bytes :=
  (d.read path).mapError fun f => .during (.read path) (.file f)

/-- Reads the files of mappings, each to a path of its own. -/
def collect (d : Files.Disk) (mappings : List Mapping) : Except Failure FileMap :=
  mappings.foldlM (fun files m => do
    let content ← readLocal d m.source
    if files.contains m.remote then throw (.repeatedPath m.remote)
    return files.insert m.remote content) FileMap.empty

end Mapping
end HostedRepo
