import ResumePress.Config.Environment
import ResumePress.Text.Alphanumeric
import ResumePress.Text.Blank

/-!
Files of environment variables. The bytes of a file are cut at line feeds; an assignment ends with
a line that leaves no quote and no escape open, so it can run over several lines. A line assigns a
value to a key, which may follow the word `export`. In a value, quotes and escapes are taken away
and names after a dollar sign stand for earlier values. Reading stops at the first line that is not
of this form; what was assigned before stays.
-/

namespace ResumePress.Config.EnvFile

open Text

/-! ### Where an assignment ends -/

/-- What is open at some point of an assignment. -/
inductive Open where
  | nothing
  | blank
  | escape
  | weakQuote
  | weakEscape
  | strongQuote
  | strongEscape
  | comment
deriving DecidableEq, Repr

/-- What a character opens when nothing else is open. -/
def Open.atPlain (c : Char) : Open :=
  if c = '\\' then .escape
  else if c = '"' then .weakQuote
  else if c = '\'' then .strongQuote
  else .nothing

/-- What is open after one more character. -/
def Open.next (state : Open) (c : Char) : Open :=
  match state with
  | .nothing => if isBlank c && c != '\n' && c != '\r' then .blank else .atPlain c
  | .blank => if c = '#' then .comment else .atPlain c
  | .escape => .nothing
  | .weakQuote => if c = '\\' then .weakEscape else if c = '"' then .nothing else .weakQuote
  | .weakEscape => .weakQuote
  | .strongQuote => if c = '\\' then .strongEscape else if c = '\'' then .nothing else .strongQuote
  | .strongEscape => .strongQuote
  | .comment => .comment

/-- The part of a chunk before a comment, and what is open behind it. -/
def scanChunk (state : Open) : List Char → List Char × Open
  | [] => ([], state)
  | c :: s =>
    match state.next c with
    | .comment => ([], .comment)
    | next => let rest := scanChunk next s; (c :: rest.1, rest.2)

/-- A text without the end of its last line. -/
def withoutLineEnd (s : List Char) : List Char :=
  match s.reverse with
  | '\n' :: '\r' :: before => before.reverse
  | '\n' :: before => before.reverse
  | _ => s

/-- What the chunks of a file come to. -/
inductive Line where
  | text (s : List Char)
  | broken
deriving DecidableEq, Repr

/-- Joins chunks to lines. `pending` is the start of a line that is not complete, and a chunk is
`none` if its bytes are not text. -/
def joinChunks (pending : List Char) (state : Open) : List (Option (List Char)) → List Line
  | [] => if state = .nothing then [] else [.broken]
  | none :: _ => [.broken]
  | some chunk :: rest =>
    if (trimStart (pending ++ chunk)).head? == some '#' then .text [] :: joinChunks [] .nothing rest
    else
      let scanned := scanChunk state chunk
      match scanned.2 with
      | .nothing => .text (withoutLineEnd (pending ++ chunk)) :: joinChunks [] .nothing rest
      | .comment => .text (pending ++ scanned.1) :: joinChunks [] .nothing rest
      | state => joinChunks (pending ++ chunk) state rest

/-! ### What a line assigns -/

/-- Values assigned so far, by key; a key without a value has none. -/
abbrev Assigned := List (String × Option String)

/-- The value that a name stands for: that of the environment, else the one assigned last. -/
def lookUp (env : Environment) (assigned : Assigned) (name : List Char) : List Char :=
  match env.get? (String.ofList name) with
  | some value => value.toList
  | none =>
    match assigned.lookup (String.ofList name) with
    | some (some value) => value.toList
    | _ => []

/-- What is being read inside a value. -/
inductive Mode where
  | plain
  | escaped
  | strong
  | name
  | block
  | behind
deriving DecidableEq, Repr

/-- The state of reading a value: what is being read, whether a double quote is open, the name
read so far, and the value read so far, both from their ends. -/
structure Reading where
  mode : Mode
  weak : Bool
  name : List Char
  value : List Char

namespace Reading

/-- The state before a value. -/
def start : Reading := ⟨.plain, false, [], []⟩

/-- Adds a character to the value. -/
def push (r : Reading) (c : Char) : Reading := { r with value := c :: r.value }

/-- Puts in what the name stands for. -/
def resolve (look : List Char → List Char) (r : Reading) : Reading :=
  { r with name := [], value := (look r.name.reverse).reverse ++ r.value }

/-- A character that is neither escaped nor in single quotes nor part of a name. -/
def plainStep (r : Reading) (c : Char) : Reading :=
  if c = '$' then { r with mode := .name }
  else if r.weak then
    if c = '"' then { r with weak := false }
    else if c = '\\' then { r with mode := .escaped }
    else r.push c
  else if c = '\'' then { r with mode := .strong }
  else if c = '"' then { r with weak := true }
  else if c = '\\' then { r with mode := .escaped }
  else if c = ' ' || c = '\t' then { r with mode := .behind }
  else r.push c

/-- One character of a value; `none` if it cannot stand there. -/
def step (look : List Char → List Char) (r : Reading) (c : Char) : Option Reading :=
  match r.mode with
  | .behind => if c = ' ' || c = '\t' then some r else none
  | .escaped =>
    if c = '\\' || c = '\'' || c = '"' || c = '$' || c = ' ' then
      some { r.push c with mode := .plain }
    else if c = 'n' then some { r.push '\n' with mode := .plain }
    else none
  | .strong => some (if c = '\'' then { r with mode := .plain } else r.push c)
  | .name =>
    if isAlphanumeric c then some { r with name := c :: r.name }
    else if c = '\x7b' && r.name.isEmpty then some { r with mode := .block }
    else if c = '$' then some (r.resolve look)
    else some { (r.resolve look).push c with mode := .plain }
  | .block =>
    if c = '\x7d' then some { r.resolve look with mode := .plain }
    else some { r with name := c :: r.name }
  | .plain => some (r.plainStep c)

/-- The value at the end of a line; `none` if a quote or a block is open. -/
def finish (look : List Char → List Char) (r : Reading) : Option (List Char) :=
  if r.mode = .strong || r.mode = .block || r.weak then none
  else some (r.resolve look).value.reverse

end Reading

/-- Reads a value. Behind a blank only a comment may follow. -/
def readValue (look : List Char → List Char) : Reading → List Char → Option (List Char)
  | r, [] => r.finish look
  | r, c :: s =>
    if r.mode = .behind && c = '#' then r.finish look
    else
      match r.step look c with
      | some r => readValue look r s
      | none => none

/-- Whether a key can start with the character. -/
def isKeyStart (c : Char) : Bool := c.isAlpha || c = '_'

/-- Whether a key can go on with the character. -/
def isKeyPart (c : Char) : Bool := c.isAlphanum || c = '_' || c = '.'

/-- Reads a key and the blanks behind it. -/
def readKey : List Char → Option (List Char × List Char)
  | [] => none
  | c :: s =>
    if isKeyStart c then some (c :: s.takeWhile isKeyPart, trimStart (s.dropWhile isKeyPart))
    else none

/-- The key of a line and what stands behind its equals sign. -/
def readTarget (s : List Char) : Option (List Char × List Char) :=
  match readKey s with
  | none => none
  | some (key, '=' :: rest) => some (key, rest)
  | some (key, rest) =>
    if key = "export".toList then
      match readKey rest with
      | some (key, '=' :: rest) => some (key, rest)
      | _ => none
    else none

/-- What a line comes to. -/
inductive Assignment where
  | nothing
  | assign (key : String) (value : Option String)
  | invalid
deriving DecidableEq, Repr

/-- Reads a line. -/
def readLine (look : List Char → List Char) (line : List Char) : Assignment :=
  let s := trimStart (trimEnd line)
  if s.isEmpty || s.head? == some '#' then .nothing
  else
    match readTarget s with
    | none => .invalid
    | some (key, rest) =>
      let key := String.ofList key
      let rest := trimStart rest
      if rest.isEmpty || rest.head? == some '#' then .assign key none
      else
        match readValue look Reading.start rest with
        | some value => .assign key (some (String.ofList value))
        | none => .invalid

/-- Makes the assignments of lines, up to the first that is invalid. -/
def assignLines : Environment → Assigned → List Line → Environment
  | env, _, [] => env
  | env, _, .broken :: _ => env
  | env, assigned, .text line :: rest =>
    match readLine (lookUp env assigned) line with
    | .nothing => assignLines env assigned rest
    | .invalid => env
    | .assign key value =>
      assignLines (env.default key (value.getD "")) ((key, value) :: assigned) rest

/-! ### Files -/

/-- Cuts bytes behind every line feed. -/
def chunks : List UInt8 → List (List UInt8)
  | [] => []
  | b :: bytes =>
    if b = 10 then [b] :: chunks bytes
    else
      match chunks bytes with
      | [] => [[b]]
      | chunk :: rest => (b :: chunk) :: rest

/-- The bytes without the mark of their order, which can stand in front. -/
def withoutMark : List UInt8 → List UInt8
  | 0xEF :: 0xBB :: 0xBF :: bytes => bytes
  | bytes => bytes

/-- The environment with the assignments of a file; variables that are set stay as they are. -/
def load (env : Environment) (file : ByteArray) : Environment :=
  let texts := (chunks (withoutMark file.toList)).map fun chunk =>
    (Text.decode? ⟨chunk.toArray⟩).map String.toList
  assignLines env [] (joinChunks [] .nothing texts)

end ResumePress.Config.EnvFile
