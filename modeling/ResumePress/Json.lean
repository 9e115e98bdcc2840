import ResumePress.Text.Hex

/-!
Values of the data format JSON and their written form: two blanks of indentation for each level,
one member or element on a line, and only the characters escaped that have to be.
-/

namespace ResumePress

/-- A value. A number is whole, or it has a point or an exponent and stands as digits and places. -/
inductive Json where
  | null
  | bool (b : Bool)
  | int (n : Int)
  | decimal (digits : Int) (places : Nat)
  | str (s : String)
  | arr (elements : List Json)
  | obj (members : List (String × Json))
deriving Inhabited

namespace Json

/-- How a character stands between quotes. -/
def escaped (c : Char) : List Char :=
  match c with
  | '"' => ['\\', '"']
  | '\\' => ['\\', '\\']
  | '\n' => ['\\', 'n']
  | '\r' => ['\\', 'r']
  | '\t' => ['\\', 't']
  | '\x08' => ['\\', 'b']
  | '\x0c' => ['\\', 'f']
  | c => if c.toNat < 0x20 then '\\' :: 'u' :: (Text.hexPadded 4 c.toNat).toList else [c]

/-- A text between quotes. -/
def quote (s : String) : String :=
  String.ofList ('"' :: s.toList.flatMap escaped ++ ['"'])

/-- The digits of a number with a point before the last `places`. -/
def pointed (digits : Int) (places : Nat) : String :=
  let text := Nat.toDigits 10 digits.natAbs
  let padded := List.replicate (places + 1 - text.length) '0' ++ text
  let whole := padded.take (padded.length - places)
  let fraction := padded.drop (padded.length - places)
  String.ofList ((if digits < 0 then ['-'] else []) ++ whole ++
    '.' :: (if fraction.isEmpty then ['0'] else fraction))

/-- The start of a line at a level. -/
def newLine (level : Nat) : String :=
  "\n" ++ String.ofList (List.replicate (2 * level) ' ')

mutual

/-- The written form of a value at a level of indentation. -/
def writeAt (level : Nat) : Json → String
  | .null => "null"
  | .bool true => "true"
  | .bool false => "false"
  | .int n => toString n
  | .decimal digits places => pointed digits places
  | .str s => quote s
  | .arr [] => "[]"
  | .arr (e :: es) =>
    "[" ++ newLine (level + 1) ++ writeAt (level + 1) e ++ writeElements (level + 1) es ++
      newLine level ++ "]"
  | .obj [] => "\x7b\x7d"
  | .obj (m :: ms) =>
    "\x7b" ++ newLine (level + 1) ++ writeMember (level + 1) m ++ writeMembers (level + 1) ms ++
      newLine level ++ "\x7d"

/-- The elements after the first. -/
def writeElements (level : Nat) : List Json → String
  | [] => ""
  | e :: es => "," ++ newLine level ++ writeAt level e ++ writeElements level es

/-- One member. -/
def writeMember (level : Nat) : String × Json → String
  | (key, value) => quote key ++ ": " ++ writeAt level value

/-- The members after the first. -/
def writeMembers (level : Nat) : List (String × Json) → String
  | [] => ""
  | m :: ms => "," ++ newLine level ++ writeMember level m ++ writeMembers level ms

end

/-- The written form of a value. -/
def write (value : Json) : String :=
  value.writeAt 0

/-- A text that may be missing. -/
def ofText? : Option String → Json
  | some s => .str s
  | none => .null

/-- A list of texts. -/
def ofTexts (texts : List String) : Json :=
  .arr (texts.map .str)

end Json

end ResumePress
