import ResumePress.Digest.Sha256
import ResumePress.Surroundings

/-!
The cache of compiled documents: one file for each key in a folder. A key is a digest of all that
the document is made of. An entry counts as long as it is younger than the time to live.
-/

namespace ResumePress

open Files

/-- The bytes that a key is the digest of: the id, the source and the content, with a zero byte
between them. -/
def cacheMessage (id source content : String) : List UInt8 :=
  (Text.encode id).toList ++ 0 :: (Text.encode source).toList ++ 0 :: (Text.encode content).toList

/-- The key of a content in a template. -/
def cacheKey (id source content : String) : String :=
  Text.hex (Digest.Sha256.digest (cacheMessage id source content))

/-- A cache in a folder. -/
structure Cache where
  folder : Path
  timeToLive : Duration

namespace Cache

/-- The extension of entries. -/
def extension : String := "pdf"

/-- The file of an entry. -/
def file (c : Cache) (key : String) : Path := c.folder.join (key ++ "." ++ extension)

/-- Whether a node is younger than the time to live. -/
def isFresh (c : Cache) (now : Instant) (node : Node) : Bool :=
  Instant.since now node.modified < c.timeToLive

variable {σ : Type}

/-- The bytes of a key, if there is an entry that is fresh at the time. -/
def getAt (c : Cache) (key : String) (now : Instant) : Act σ (Option ByteArray) := do
  match ← Act.stat (c.file key) with
  | .error _ => return none
  | .ok node =>
    if c.isFresh now node then return (← Act.read (c.file key)).toOption else return none

/-- The bytes of a key, if there is an entry that is fresh now. -/
def get (c : Cache) (key : String) : Act σ (Option ByteArray) := do
  c.getAt key (← Act.now)

/-- Keeps bytes under a key. They are written aside and put in place when they are complete. If
this cannot be done the entry stays as it was. -/
def put (c : Cache) (key : String) (bytes : ByteArray) : Act σ Unit := do
  match ← Act.makeFolders c.folder with
  | .error _ => return ()
  | .ok () =>
    let staging := c.folder.join (key ++ "." ++ extension ++ "." ++ (← Act.drawToken) ++ ".tmp")
    let written ← do
      match ← Act.write staging bytes with
      | .error e => pure (Except.error e)
      | .ok () => Act.rename staging (c.file key)
    match written with
    | .ok () => return ()
    | .error _ =>
      let _ ← Act.removeFile staging

/-- Removes the entries among the names that are not fresh and returns how many went. -/
def evictAll (c : Cache) (now : Instant) : List String → Act σ Nat
  | [] => return 0
  | name :: rest => do
    let path := c.folder.join name
    let isExpired ← do
      if path.extension? != some extension then pure false
      else
        match ← Act.entry path with
        | .error _ => pure false
        | .ok node => pure (!c.isFresh now node)
    if isExpired then
      match ← Act.removeFile path with
      | .ok () => return (← evictAll c now rest) + 1
      | .error _ => evictAll c now rest
    else evictAll c now rest

/-- Removes every entry that is not fresh at the time and returns how many went. -/
def evictAt (c : Cache) (now : Instant) : Act σ Nat := do
  match ← Act.list c.folder with
  | .error _ => return 0
  | .ok names => c.evictAll now names

/-- Removes every entry that is not fresh now. -/
def evict (c : Cache) : Act σ Nat := do
  c.evictAt (← Act.now)

end Cache

end ResumePress
