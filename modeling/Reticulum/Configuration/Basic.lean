import Reticulum.Discovery.Host
import Reticulum.Lib.Assoc

/-!
# Configuration files

`Config::from_str` with its four passes over a line: the comment comes off, a header is
recognised, a setting is split at the first equals sign, and its value is unquoted.

## Implementation notes

Texts are read as the lists of their characters. A slice that goes out of range is `none`. A hash
map is an association list; `entry` with a default puts the entry in.
-/

namespace Reticulum.Configuration

open Discovery

/-! ## Texts -/

/-- `str::trim`. -/
def trim (chars : List Char) : List Char :=
  dropEndWhile isWhitespace (chars.dropWhile isWhitespace)

/-- A line without the carriage return at its end. -/
def stripCr (line : List Char) : List Char :=
  if line.getLast? = some '\r' then line.dropLast else line

/-- Every line but the last was ended by a line feed, and a last one that is empty is none. -/
def endLines : List (List Char) → List (List Char)
  | [] => []
  | [last] => if last = [] then [] else [last]
  | line :: next :: rest => stripCr line :: endLines (next :: rest)

/-- `str::lines` -/
def lines (chars : List Char) : List (List Char) := endLines (chars.splitOn '\n')

/-- `str::trim_start_matches` of a sign written twice. -/
def trimStartPairs (sign : Char) : List Char → List Char
  | a :: b :: rest => if a = sign ∧ b = sign then trimStartPairs sign rest else a :: b :: rest
  | chars => chars

/-- The same at the end. -/
def trimEndPairs (sign : Char) (chars : List Char) : List Char :=
  (trimStartPairs sign chars.reverse).reverse

/-- `strip_comment`. -/
def stripComment (line : List Char) : List Char :=
  match splitOnce '#' line with
  | some (front, _) => front
  | none => line

/-- `split_kv`: the name and the value of a line, both trimmed. -/
def splitKv (line : List Char) : Option (List Char × List Char) :=
  match splitOnce '=' line with
  | some (key, value) => if trim key = [] then none else some (trim key, trim value)
  | none => none

/-- The line stands between two of this sign. -/
def startsAndEnds (sign : Char) (chars : List Char) : Prop :=
  chars.head? = some sign ∧ chars.getLast? = some sign

instance (sign : Char) (chars : List Char) : Decidable (startsAndEnds sign chars) :=
  inferInstanceAs (Decidable (_ ∧ _))

/-- What stands between the quotes; out of range when a quote stands alone. -/
def unquote (value : List Char) : Option (List Char) :=
  let trimmed := trim value
  if startsAndEnds '"' trimmed ∨ startsAndEnds '\'' trimmed then
    if 2 ≤ trimmed.length then some (trimmed.tail.dropLast) else none
  else some trimmed

/-- The name between double brackets. -/
def subsectionName (line : List Char) : String :=
  String.ofList (trim (trimEndPairs ']' (trimStartPairs '[' line)))

/-- The name between single brackets. -/
def sectionName (line : List Char) : String :=
  String.ofList (trim (dropEndWhile (fun c => c == ']') (line.dropWhile fun c => c == '[')))

/-! ## The configuration -/

/-- `ConfigSection`. -/
structure ConfigSection where
  items : List (String × String) := []
  subsections : List (String × ConfigSection) := []

instance : Inhabited ConfigSection := ⟨{}⟩

namespace ConfigSection

def get (s : ConfigSection) (key : String) : Option String := Assoc.get s.items key

/-- `get_section`. -/
def getSection (s : ConfigSection) (name : String) : Option ConfigSection :=
  Assoc.get s.subsections name

/-- A later item of the same name replaces the value. -/
def insertItem (s : ConfigSection) (key value : String) : ConfigSection :=
  { s with items := Assoc.put s.items key value }

end ConfigSection

/-- `discarded` has the lines that carried a setting and belong to no section, with their
numbers. -/
structure Config where
  sections : List (String × ConfigSection) := []
  discarded : List (Nat × String) := []

def Config.getSection (cfg : Config) (name : String) : Option ConfigSection :=
  Assoc.get cfg.sections name

/-- The section of a name, or a new one, is changed. -/
def alter (m : List (String × ConfigSection)) (name : String)
    (f : ConfigSection → ConfigSection) : List (String × ConfigSection) :=
  Assoc.put m name (f ((Assoc.get m name).getD {}))

/-- The configuration so far, and the section and the subsection that are open. -/
structure Reader where
  cfg : Config := {}
  currentSection : Option String := none
  currentSubsection : Option String := none

namespace Reader

variable (r : Reader)

/-- A line that is not understood is kept with its number. -/
def discard (index : Nat) (line : List Char) : Reader :=
  { r with
    cfg := { r.cfg with discarded := r.cfg.discarded ++ [(index + 1, String.ofList line)] } }

def alterSection (name : String) (f : ConfigSection → ConfigSection) : Reader :=
  { r with cfg := { r.cfg with sections := alter r.cfg.sections name f } }

/-- A line in double brackets. -/
def openSubsection (index : Nat) (line : List Char) : Reader :=
  let name := subsectionName line
  match r.currentSection with
  | some sec =>
      { r.alterSection sec fun s => { s with subsections := alter s.subsections name id }
        with currentSubsection := some name }
  | none => r.discard index line

/-- A line in single brackets. -/
def openSection (line : List Char) : Reader :=
  let name := sectionName line
  { r.alterSection name id with currentSection := some name, currentSubsection := none }

/-- A line with a name and a value. -/
def setItem (index : Nat) (line : List Char) (key value : String) : Reader :=
  match r.currentSection with
  | some sec =>
      r.alterSection sec fun s =>
        match r.currentSubsection with
        | some name =>
            { s with subsections := alter s.subsections name fun t => t.insertItem key value }
        | none => s.insertItem key value
  | none => r.discard index line

/-- What one line does; `none` stands for a panic. -/
def readLine (index : Nat) (rawLine : List Char) : Option Reader :=
  let line := trim (stripComment rawLine)
  if line = [] then some r
  else if ['[', '['] <+: line ∧ [']', ']'] <:+ line then some (r.openSubsection index line)
  else if ['['] <+: line ∧ [']'] <:+ line then some (r.openSection line)
  else
    match splitKv line with
    | some (key, value) => do
        let value ← unquote (trim value)
        some (r.setItem index line (String.ofList key) (String.ofList value))
    | none => some r

end Reader

def readLines : Nat → List (List Char) → Reader → Option Reader
  | _, [], r => some r
  | index, rawLine :: rest, r => do readLines (index + 1) rest (← r.readLine index rawLine)

/-- `Config::from_str`. -/
def Config.fromStr (content : String) : Option Config :=
  (readLines 0 (lines content.toList) {}).map Reader.cfg

example : (Config.fromStr "a = 1\n[s] # x\r\nk = \"v\"\n[[t]]\nk = w").map (fun cfg =>
    (cfg.discarded, (cfg.getSection "s").map fun s =>
      (s.get "k", (s.getSection "t").map fun t => t.get "k"))) =
    some ([(1, "a = 1")], some (some "v", some (some "w"))) := by decide

end Reticulum.Configuration
