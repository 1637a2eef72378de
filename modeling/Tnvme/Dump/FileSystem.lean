import Tnvme.Lib.Shell

/-!
# The dump directories

The root directory holds two base directories. `SetRootDumpDir` makes and cleans them, `CleanDumpDir` removes all files
from the selected one, and `RotateDumpDir` moves them into a subdirectory. For each step the shell gets a command, which
is put together in a buffer of 256 bytes. A `Char` stands for a byte of a path.
-/

namespace Tnvme

open Shell

structure FileSystem where
  useDirInfo : Bool
  dumpDirInfo : List Char
  dumpDirPending : List Char
  deriving DecidableEq, Repr

/-- `BASE_NAME_DIR_INFO` and `BASE_NAME_PENDING` -/
def baseNameDirInfo : List Char := "/Informative/".toList

def baseNamePending : List Char := "/GrpPending/".toList

/-- What `snprintf` leaves of a text in a buffer, which ends in a zero byte. -/
def snprintf (size : Nat) (text : List Char) : List Char := text.take (size - 1)

namespace FileSystem

/-- The static members at the start. -/
def initial : FileSystem := ⟨true, [], []⟩

def setBaseDumpDir (fs : FileSystem) (useDirInfo : Bool) : FileSystem := { fs with useDirInfo := useDirInfo }

def dumpDir (fs : FileSystem) : List Char := if fs.useDirInfo then fs.dumpDirInfo else fs.dumpDirPending

/-- The command of `CleanDumpDir`. -/
def cleanWork (dumpDir : List Char) : List Char := snprintf 256 ("rm -rf ".toList ++ (dumpDir ++ ['*']))

/-- `CleanDumpDir`, with the commands that it gives to the shell. The check for success asks whether there is a file
that has the command for a name. `pathExists` is `boost::filesystem::exists`, which may throw. -/
def cleanDumpDir (pathExists : List Char → Option Bool) (fs : FileSystem) : Option Bool × List (List Char) :=
  if fs.dumpDir = [] then (some false, [])
  else ((pathExists (cleanWork fs.dumpDir)).map (!·), [cleanWork fs.dumpDir])

/-- `RotateDumpDir`, with the commands that it gives to the shell. -/
def rotateDumpDir (fs : FileSystem) : Bool × List (List Char) :=
  if fs.dumpDir = [] then (true, [])
  else (true, [
    snprintf 256 ("sudo rm ".toList ++ (fs.dumpDir ++ "prev".toList)),
    snprintf 256 ("mkdir ".toList ++ (fs.dumpDir ++ "prev".toList)),
    snprintf 256 ("sudo mv ".toList ++ (fs.dumpDir ++ "* ".toList ++ (fs.dumpDir ++ "prev/".toList)))])

/-- The command that makes a base directory. -/
def mkdirWork (dumpDir : List Char) : List Char := snprintf 256 ("mkdir -p -m 777 ".toList ++ dumpDir)

/-- `SetRootDumpDir`, with the commands that are given to the shell. An exception makes it return false. -/
def setRootDumpDir (pathExists : List Char → Option Bool) (fs : FileSystem) (dir : List Char) :
    Bool × FileSystem × List (List Char) :=
  let fs := { fs with dumpDirPending := dir ++ baseNamePending, dumpDirInfo := dir ++ baseNameDirInfo }
  if pathExists dir = some true then
    let pending := fs.setBaseDumpDir false
    let (cleaned, works) := cleanDumpDir pathExists pending
    let works := mkdirWork fs.dumpDirPending :: works
    if cleaned = some true then
      let info := pending.setBaseDumpDir true
      let (cleaned, works') := cleanDumpDir pathExists info
      (cleaned = some true, info, works ++ mkdirWork fs.dumpDirInfo :: works')
    else (false, pending, works)
  else (false, fs, [])

end FileSystem

/-! ## What the commands may touch -/

/-- A path that is inside a base directory of the root directory. -/
def InBaseDir (root path : List Char) : Prop :=
  Below (root ++ baseNameDirInfo) path ∨ Below (root ++ baseNamePending) path

/-- The commands of the three functions, when the root directory has been set and a base directory is selected. -/
def dumpWorks (pathExists : List Char → Option Bool) (fs : FileSystem) (root : List Char) (useDirInfo : Bool) :
    List (List Char) :=
  let (_, fs, works) := fs.setRootDumpDir pathExists root
  let fs := fs.setBaseDumpDir useDirInfo
  works ++ (fs.cleanDumpDir pathExists).2 ++ fs.rotateDumpDir.2

/-- Whatever files there are when a command is run, it touches none outside the base directories. -/
def Confined (root : List Char) (useDirInfo : Bool) : Prop :=
  ∀ (pathExists : List Char → Option Bool) (fs : FileSystem), pathExists root = some true →
    ∀ work ∈ dumpWorks pathExists fs root useDirInfo,
      ∀ files : Files, files.kind root = some .directory → ∀ path ∈ files.lost work, InBaseDir root path

end Tnvme
