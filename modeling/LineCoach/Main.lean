import LineCoach.Command.Basic
import LineCoach.Concrete.Listing

/-!
# The program

Everything that touches the machine. The files that the arguments and the environment can name are
read into a file tree, the command is carried out on it, and what it left behind is printed and
written.
-/

namespace LineCoach

/-- Read an entry of a directory with everything below it. What cannot be read is left out. -/
partial def loadEntry (entry : IO.FS.DirEntry) : IO (Option FileTree) := do
  try
    match (← entry.path.symlinkMetadata).type with
    | .dir =>
      let entries ← (← entry.path.readDir).toList.mapM fun child => do
        return (← loadEntry child).map fun tree => (child.fileName, tree)
      return some (.directory (entries.filterMap id))
    | .symlink => return some (.link ⟨(← IO.FS.realPath entry.path).toString⟩)
    | _ => return some (.file (← IO.FS.readBinFile entry.path))
  catch _ => return none

/-- Add what stands at a path of the machine to a file tree, at its real place. A path that leads
nowhere adds nothing. -/
def mount (files : FileTree) (path : String) : IO FileTree := do
  try
    let real ← IO.FS.realPath path
    let loaded ← loadEntry ⟨real.parent.getD "/", real.fileName.getD "."⟩
    return match loaded with
      | some tree => files.insert (Path.names ⟨real.toString⟩) tree
      | none => files
  catch _ => return files

/-- Write the configuration file of the project, if the command changed it. -/
def saveConfig (directory : Path) (before after : FileTree) : IO Unit := do
  let content (files : FileTree) : Option ByteArray :=
    (files.read directory Command.configFile).toOption
  match content after with
  | some bytes =>
    unless (content before).any (·.data = bytes.data) do
      IO.FS.writeBinFile (directory.join Command.configFile).text bytes
  | none => return

end LineCoach

open LineCoach in
/-- Run the program with the arguments of the command line. -/
def main (arguments : List String) : IO UInt32 := do
  let directory : Path := ⟨(← IO.currentDir).toString⟩
  let environment : Command.Environment :=
    { config := ← IO.getEnv "LONGLINE_CONFIG"
      configDirectory := ← IO.getEnv "LONGLINE_CONFIG_DIR"
      home := ← IO.getEnv "HOME" }
  let settings := environment.config.toList ++ (environment.userDirectory.map Path.text).toList
  let files ← (directory.text :: settings ++ arguments).foldlM mount FileTree.empty
  let outcome := Command.run ⟨files, directory⟩ (Concrete.listedGrammar files) environment arguments
  saveConfig directory files outcome.files
  for entry in outcome.log do
    (← IO.getStderr).putStrLn entry.line
  (← IO.getStdout).putStr outcome.output
  (← IO.getStderr).putStr outcome.failure
  return outcome.status.toUInt32
