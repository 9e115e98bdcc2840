import ResumePress.Files.Tree
import ResumePress.Text.Utf8
import ResumePress.Text.Hex

/-!
What the press works in: a tree of files, a clock, a source of random numbers, and whatever its
tools keep for themselves. An action reads and changes these. Waiting is recorded and does not move
the clock, which belongs to the surroundings.
-/

namespace ResumePress

open Files

/-- The state that actions read and change; `σ` is what the tools keep. -/
structure Surroundings (σ : Type) where
  files : Tree
  now : Instant
  /-- The time spent waiting so far. -/
  waited : Duration
  /-- The random numbers, in the order in which they are drawn. -/
  random : Nat → Nat
  /-- How many random numbers have been drawn. -/
  drawn : Nat
  tools : σ

/-- An action in the surroundings. -/
abbrev Act (σ α : Type) := StateM (Surroundings σ) α

namespace Act

variable {σ : Type}

/-- Reads something off the files. -/
def look {α : Type} (f : Tree → α) : Act σ α := fun s => (f s.files, s)

/-- Changes the files, which stay as they are if the change fails. -/
def change (f : Tree → Instant → Except Fault Tree) : Act σ (Except Fault Unit) := fun s =>
  match f s.files s.now with
  | .ok files => (.ok (), { s with files := files })
  | .error e => (.error e, s)

/-- The time on the clock. -/
def now : Act σ Instant := fun s => (s.now, s)

/-- The longest single wait: thirty years of 365 days. -/
def longestWait : Duration := .ofSecs (30 * 365 * 86400)

/-- Waits, but never longer than the longest wait. -/
def wait (d : Duration) : Act σ Unit := fun s =>
  ((), { s with waited := s.waited + min d longestWait })

/-- The time spent waiting so far. -/
def waited : Act σ Duration := fun s => (s.waited, s)

/-- Draws a random number. -/
def draw : Act σ Nat := fun s => (s.random s.drawn, { s with drawn := s.drawn + 1 })

/-- The bytes of a file. -/
def read (path : Path) : Act σ (Except Fault ByteArray) := look (·.read path)

/-- The text of a file. -/
def readText (path : Path) : Act σ (Except Fault String) := do
  match ← read path with
  | .error e => return .error e
  | .ok bytes =>
    match Text.decode? bytes with
    | some text => return .ok text
    | none => return .error .notText

/-- The node behind a path. -/
def stat (path : Path) : Act σ (Except Fault Node) := look (·.stat path)

/-- The node at a path itself. -/
def entry (path : Path) : Act σ (Except Fault Node) := look (·.entry path)

/-- Whether something stands behind a path. -/
def isThere (path : Path) : Act σ Bool := do
  return (← stat path).isOk

/-- When what stands behind a path was last changed. -/
def modified? (path : Path) : Act σ (Option Instant) := do
  return (← stat path).toOption.map Node.modified

/-- The names in a folder. -/
def list (path : Path) : Act σ (Except Fault (List String)) := look (·.list path)

/-- The place of a folder and the names in it. -/
def openFolder (path : Path) : Act σ (Except Fault (Place × List String)) := look (·.openFolder path)

/-- The node at a place. -/
def nodeAt? (place : Place) : Act σ (Option Node) := look (·.get? place)

/-- Gives a file its bytes. -/
def write (path : Path) (bytes : ByteArray) : Act σ (Except Fault Unit) :=
  change fun t now => t.write now path bytes

/-- Makes a folder in a folder that is there. -/
def makeFolder (path : Path) : Act σ (Except Fault Unit) := change (·.makeFolder · path)

/-- Makes a folder and the folders it stands in. -/
def makeFolders (path : Path) : Act σ (Except Fault Unit) := fun s =>
  let made := s.files.makeFolders s.now path
  (made.1, { s with files := made.2 })

/-- Removes a file or a link. -/
def removeFile (path : Path) : Act σ (Except Fault Unit) := change (·.removeFile · path)

/-- Removes a folder with all it holds. -/
def removeFolder (path : Path) : Act σ (Except Fault Unit) := change (·.removeFolder · path)

/-- Gives a file another path. -/
def rename (source target : Path) : Act σ (Except Fault Unit) := change (·.rename · source target)

/-- Writes the bytes of a file at another path. -/
def copy (source target : Path) : Act σ (Except Fault Unit) := change (·.copy · source target)

/-- A path that starts at the root. -/
def absolute (path : Path) : Act σ Path := do
  if path.isAbsolute then return path
  else
    let home ← look fun t => "/" ++ "/".intercalate t.home
    return (Path.mk home).join path.text

/-- Small hexadecimal digits, thirty-two of them, drawn at random. -/
def drawToken : Act σ String := do
  return Text.hexPadded 32 (← draw)

end Act

end ResumePress
