import ResumePress.Files.Fault
import ResumePress.Time

/-!
Trees of files. A tree assigns to places what stands there: a file with its bytes, a folder or a
link. The root is always a folder. A path is walked from the root or from the home folder of the
tree; links on the way are followed, at most forty of them.
-/

namespace ResumePress.Files

/-- The names that lead from the root to a place. -/
abbrev Place := List String

/-- What can stand at a place. -/
inductive Entry where
  | file (bytes : ByteArray)
  | folder
  | link (target : Path)

/-- An entry and the time of its last change. -/
structure Node where
  entry : Entry
  modified : Instant

/-- Whether an entry is a folder. -/
def Entry.isFolder : Entry → Bool
  | .folder => true
  | _ => false

/-- Whether an entry is a file. -/
def Entry.isFile : Entry → Bool
  | .file _ => true
  | _ => false

/-- The content of the places of a tree, and the folder that relative paths start from. -/
structure Tree where
  nodes : List (Place × Node)
  home : Place

/-- The name of a place directly inside a folder. -/
def childName? : (folder place : Place) → Option String
  | [], [name] => some name
  | a :: folder, b :: place => if a = b then childName? folder place else none
  | _, _ => none

namespace Tree

/-- What stands at a place. -/
def get? (t : Tree) (place : Place) : Option Node :=
  if place = [] then some ⟨.folder, 0⟩ else t.nodes.lookup place

/-- The tree with a node at a place. -/
def put (t : Tree) (place : Place) (node : Node) : Tree :=
  { t with nodes := (place, node) :: t.nodes.filter (·.1 != place) }

/-- The tree without what stands at a place and below it. -/
def erase (t : Tree) (place : Place) : Tree :=
  { t with nodes := t.nodes.filter fun n => !place.isPrefixOf n.1 }

/-- The names directly inside a folder. -/
def children (t : Tree) (folder : Place) : List String :=
  t.nodes.filterMap fun n => childName? folder n.1

/-- The tree after a change inside the folder of a place. -/
def stamp (t : Tree) (now : Instant) (place : Place) : Tree :=
  match place.dropLast with
  | [] => t
  | folder =>
    match t.get? folder with
    | some node => t.put folder { node with modified := now }
    | none => t

/-- Goes along steps. What is to be done at a link is given; the last step may lead to a place where
nothing stands. -/
def walk (t : Tree) (atLink : Place → List Path.Step → Path → Except Fault Place)
    (followLast : Bool) : Place → List Path.Step → Except Fault Place
  | place, [] => .ok place
  | place, .here :: rest => walk t atLink followLast place rest
  | place, .up :: rest => walk t atLink followLast place.dropLast rest
  | place, .name s :: rest =>
    let next := place ++ [s]
    if 255 < s.utf8ByteSize then .error .nameTooLong
    else
      match (t.get? next).map Node.entry with
      | some .folder => walk t atLink followLast next rest
      | some (.link target) =>
        if rest.isEmpty && !followLast then .ok next else atLink place rest target
      | some (.file _) => if rest.isEmpty then .ok next else .error .notADirectory
      | none => if rest.isEmpty then .ok next else .error .notFound

/-- Goes along steps and follows at most `links` links. -/
def follow (t : Tree) (followLast : Bool) :
    (links : Nat) → Place → List Path.Step → Except Fault Place
  | 0 => walk t (fun _ _ _ => .error .tooManyLinks) followLast
  | links + 1 =>
    walk t (fun place rest target =>
      follow t followLast links (if target.isAbsolute then [] else place) (target.steps ++ rest))
      followLast

/-- The place that a path leads to. -/
def locate (t : Tree) (followLast : Bool) (path : Path) : Except Fault Place :=
  if path.text.toList.contains '\x00' then .error .nulInPath
  else if path.text = "" then .error .notFound
  else if 4096 ≤ path.text.utf8ByteSize then .error .nameTooLong
  else t.follow followLast 40 (if path.isAbsolute then [] else t.home) path.steps

/-- The node that a path leads to, with its place. -/
def find (t : Tree) (followLast : Bool) (path : Path) : Except Fault (Place × Node) :=
  match t.locate followLast path with
  | .error e => .error e
  | .ok place =>
    match t.get? place with
    | some node => .ok (place, node)
    | none => .error .notFound

/-- The node behind a path. -/
def stat (t : Tree) (path : Path) : Except Fault Node :=
  (t.find true path).map Prod.snd

/-- The node at a path itself, be it a link. -/
def entry (t : Tree) (path : Path) : Except Fault Node :=
  (t.find false path).map Prod.snd

/-- Whether a path leads to a folder. -/
def isFolder (t : Tree) (path : Path) : Bool :=
  match t.stat path with
  | .ok node => node.entry.isFolder
  | .error _ => false

/-- The bytes of a file. -/
def read (t : Tree) (path : Path) : Except Fault ByteArray :=
  match t.stat path with
  | .error e => .error e
  | .ok ⟨.file bytes, _⟩ => .ok bytes
  | .ok _ => .error .isADirectory

/-- The place of a folder and the names in it. -/
def openFolder (t : Tree) (path : Path) : Except Fault (Place × List String) :=
  match t.find true path with
  | .error e => .error e
  | .ok (place, ⟨.folder, _⟩) => .ok (place, t.children place)
  | .ok _ => .error .notADirectory

/-- The names in a folder. -/
def list (t : Tree) (path : Path) : Except Fault (List String) :=
  (t.openFolder path).map Prod.snd

/-- Gives a file its bytes; the file comes to be if its folder is there. -/
def write (t : Tree) (now : Instant) (path : Path) (bytes : ByteArray) : Except Fault Tree :=
  match t.locate true path with
  | .error e => .error e
  | .ok place =>
    match t.get? place with
    | none => .ok ((t.put place ⟨.file bytes, now⟩).stamp now place)
    | some ⟨.folder, _⟩ => .error .isADirectory
    | some _ => .ok (t.put place ⟨.file bytes, now⟩)

/-- Makes a folder in a folder that is there. -/
def makeFolder (t : Tree) (now : Instant) (path : Path) : Except Fault Tree :=
  match t.locate false path.withoutEndSlashes with
  | .error e => .error e
  | .ok place =>
    match t.get? place with
    | none => .ok ((t.put place ⟨.folder, now⟩).stamp now place)
    | some _ => .error .alreadyExists

/-- Makes a folder and, `depth` levels up, the folders it stands in. What was made stays if a later
one cannot be made. -/
def makeFoldersFrom (now : Instant) : (depth : Nat) → Tree → Path → Except Fault Unit × Tree
  | 0, t, _ => (.ok (), t)
  | depth + 1, t, path =>
    if path.components = [] then (.ok (), t)
    else
      match t.makeFolder now path with
      | .ok t' => (.ok (), t')
      | .error .notFound =>
        match path.parent? with
        | none => (.error .notFound, t)
        | some parent =>
          match makeFoldersFrom now depth t parent with
          | (.error e, t') => (.error e, t')
          | (.ok (), t') =>
            match t'.makeFolder now path with
            | .ok t'' => (.ok (), t'')
            | .error e => (if t'.isFolder path then .ok () else .error e, t')
      | .error e => (if t.isFolder path then .ok () else .error e, t)

/-- Makes a folder and the folders it stands in, where they are missing. -/
def makeFolders (t : Tree) (now : Instant) (path : Path) : Except Fault Unit × Tree :=
  makeFoldersFrom now (path.segments.length + 1) t path

/-- Removes a file or a link. -/
def removeFile (t : Tree) (now : Instant) (path : Path) : Except Fault Tree :=
  match t.find false path with
  | .error e => .error e
  | .ok (_, ⟨.folder, _⟩) => .error .isADirectory
  | .ok (place, _) => .ok ((t.erase place).stamp now place)

/-- Removes a folder with all it holds, or a link. -/
def removeFolder (t : Tree) (now : Instant) (path : Path) : Except Fault Tree :=
  match t.find false path with
  | .error e => .error e
  | .ok (_, ⟨.file _, _⟩) => .error .notADirectory
  | .ok ([], _) => .error .permissionDenied
  | .ok (place, _) => .ok ((t.erase place).stamp now place)

/-- Gives a file or a link another path, in the place of a file or a link that has it. -/
def rename (t : Tree) (now : Instant) (source target : Path) : Except Fault Tree :=
  match t.find false source with
  | .error e => .error e
  | .ok (_, ⟨.folder, _⟩) => .error .isADirectory
  | .ok (old, node) =>
    match t.locate false target with
    | .error e => .error e
    | .ok new =>
      if new = old then .ok t
      else
        match t.get? new with
        | some ⟨.folder, _⟩ => .error .isADirectory
        | _ => .ok ((((t.erase old).put new node).stamp now old).stamp now new)

/-- Writes the bytes of a file at another path. -/
def copy (t : Tree) (now : Instant) (source target : Path) : Except Fault Tree :=
  match t.stat source with
  | .error e => .error e
  | .ok ⟨.file bytes, _⟩ => t.write now target bytes
  | .ok _ => .error .notRegular

/-- Sets the time of the last change of what a path leads to. -/
def setModified (t : Tree) (path : Path) (time : Instant) : Except Fault Tree :=
  match t.find true path with
  | .error e => .error e
  | .ok ([], _) => .error .permissionDenied
  | .ok (place, node) => .ok (t.put place { node with modified := time })

/-- In nodes that are kept by a condition on their places, a place that meets it has what it had and
any other has nothing. -/
theorem lookup_filter (keep : Place → Bool) (nodes : List (Place × Node)) (place : Place) :
    (nodes.filter fun n => keep n.1).lookup place =
      if keep place then nodes.lookup place else none := by
  induction nodes with
  | nil => simp
  | cons n nodes ih =>
    obtain ⟨other, node⟩ := n
    by_cases hp : place = other
    · subst hp
      by_cases hk : keep place <;> simp [hk, ih]
    · have hb : (place == other) = false := by simp [hp]
      by_cases hk : keep other <;> simp [hk, hb, ih, List.lookup_cons]

theorem get?_put_self (t : Tree) {place : Place} (h : place ≠ []) (node : Node) :
    (t.put place node).get? place = some node := by
  simp [get?, put, h]

theorem get?_put_of_ne (t : Tree) {place other : Place} (h : other ≠ place) (node : Node) :
    (t.put place node).get? other = t.get? other := by
  have hb : (other == place) = false := by simp [h]
  simp [get?, put, List.lookup_cons, hb, lookup_filter (· != place), h]

theorem get?_erase_of_isPrefixOf (t : Tree) {place other : Place}
    (h : place.isPrefixOf other = true) (ho : other ≠ []) : (t.erase place).get? other = none := by
  simp only [get?, erase, ho, if_false, lookup_filter fun p => !place.isPrefixOf p, h]
  rfl

theorem get?_erase_of_not (t : Tree) {place other : Place} (h : place.isPrefixOf other = false) :
    (t.erase place).get? other = t.get? other := by
  simp [get?, erase, lookup_filter fun p => !place.isPrefixOf p, h]

end Tree

end ResumePress.Files
