import ResumePress.Batch

/-!
The command: one batch under the variables and the environment files that are found where it is
started. It takes no arguments. No program can be started from here, so each counts as not found.
-/

namespace ResumePress.Command

open Files

/-- The variables that a batch asks for. -/
def variableNames : List String :=
  ["TEMPLATES_DIR", "THUMBNAILS_DIR", "TEMP_DIR", "CACHE_DIR", "TOOLCHAIN_TIMEOUT_SECS",
    "COMPILE_TIMEOUT_SECS", "RETRY_BASE_DELAY_MS", "CACHE_TTL_SECS", "RUN_RETENTION_HOURS",
    "PREVIEW_WORKERS", "RUST_LOG"]

/-- The variables that are set. -/
def environment : IO Config.Environment := do
  let found ← variableNames.mapM fun name => do
    return (← IO.getEnv name).map fun value => (name, Text.encode value)
  return ⟨found.filterMap id⟩

/-- The tree with a folder and its environment file, if there is one. -/
def withFolder (tree : Tree) (folder : Place) : IO Tree := do
  let tree := tree.put folder ⟨.folder, 0⟩
  let file := folder ++ [Config.envFileName]
  match ← (IO.FS.readBinFile ("/" ++ "/".intercalate file)).toBaseIO with
  | .ok bytes => return tree.put file ⟨.file bytes, 0⟩
  | .error _ => return tree

/-- The working folder and the folders it stands in, with their environment files. -/
def workingTree : IO Tree := do
  let home := ((← IO.currentDir).toString.splitOn "/").filter (· != "")
  let folders := (List.range home.length).map fun n => home.take (n + 1)
  folders.foldlM withFolder ⟨[], home⟩

/-- The surroundings of the command. Without programs a batch ends before it asks for the time, so
the clock may stand still. -/
def surroundings : IO (Surroundings Unit) := do
  let bytes ← IO.getRandomBytes 16
  let seed := bytes.toList.foldl (fun n byte => n * 256 + byte.toNat) 0
  return {
    files := ← workingTree
    now := 0
    waited := 0
    random := fun n => seed + n
    drawn := 0
    tools := () }

/-- Programs of which none can be started. -/
def noPrograms : Programs Unit := fun _ _ => return .cannotStart .notFound

/-- Runs a batch; if it fails, prints the report and ends with 1. -/
def run : IO UInt32 := do
  match (Batch.run noPrograms (← environment) (← surroundings)).1 with
  | .ok () => return 0
  | .error report =>
    IO.eprint report.text
    return 1

end ResumePress.Command

/-- The command. -/
def main : IO UInt32 := ResumePress.Command.run
