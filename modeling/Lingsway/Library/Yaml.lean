import Lingsway.Library.JsonDumps

/-!
# Reading YAML

A reader of YAML 1.2 documents under the core schema. It covers block sequences,
block mappings, and one-line nodes: double-quoted scalars, plain words and
numbers, and flow collections whose keys are quoted. What it does not cover it
refuses. A string keeps every character of a quoted scalar, where all but the
C0 controls may stand as they are, and an escape must name a Unicode scalar value.
-/
namespace Lingsway.Library.Yaml

def hexValue (c : Char) : Option ℕ :=
  if '0' ≤ c ∧ c ≤ '9' then some (c.toNat - 48)
  else if 'a' ≤ c ∧ c ≤ 'f' then some (c.toNat - 87)
  else if 'A' ≤ c ∧ c ≤ 'F' then some (c.toNat - 55)
  else none

def hexNumber (digits : List Char) : Option ℕ :=
  digits.foldlM (fun n c => (hexValue c).map (16 * n + ·)) 0

/-- The Unicode scalar value of a number. -/
def scalar (n : ℕ) : Option Char := if n.isValidChar then some (Char.ofNat n) else none

def escaped (digits : List Char) : Option Char := (hexNumber digits).bind scalar

/-- The escapes of one letter. -/
def letter (c : Char) : Option Char :=
  match c with
  | '0' => some '\x00'
  | 'a' => some '\x07'
  | 'b' => some '\x08'
  | 't' => some '\t'
  | '\t' => some '\t'
  | 'n' => some '\n'
  | 'v' => some '\x0b'
  | 'f' => some '\x0c'
  | 'r' => some '\r'
  | 'e' => some '\x1b'
  | ' ' => some ' '
  | '"' => some '"'
  | '/' => some '/'
  | '\\' => some '\\'
  | 'N' => some '\u0085'
  | '_' => some '\u00a0'
  | 'L' => some '\u2028'
  | 'P' => some '\u2029'
  | _ => none

def push (c : Option Char) (r : Option (List Char × List Char)) : Option (List Char × List Char) := do
  let c ← c
  let (cs, rest) ← r
  some (c :: cs, rest)

/-- A double-quoted scalar after its first quote. -/
def quoted : List Char → Option (List Char × List Char)
  | [] => none
  | c :: rest =>
    if c = '"' then some ([], rest)
    else if c = '\\' then
      match rest with
      | [] => none
      | e :: tail =>
        if e = 'x' then
          match tail with
          | h₁ :: h₂ :: tail => push (escaped [h₁, h₂]) (quoted tail)
          | _ => none
        else if e = 'u' then
          match tail with
          | h₁ :: h₂ :: h₃ :: h₄ :: tail => push (escaped [h₁, h₂, h₃, h₄]) (quoted tail)
          | _ => none
        else if e = 'U' then
          match tail with
          | h₁ :: h₂ :: h₃ :: h₄ :: h₅ :: h₆ :: h₇ :: h₈ :: tail =>
            push (escaped [h₁, h₂, h₃, h₄, h₅, h₆, h₇, h₈]) (quoted tail)
          | _ => none
        else push (letter e) (quoted tail)
    else if c.toNat < 0x20 ∧ c ≠ '\t' then none
    else push (some c) (quoted rest)
termination_by structural cs => cs

def isWordChar (c : Char) : Bool := c.isAlphanum || c = '-' || c = '+' || c = '.' || c = '_' || c = '/'

def naturalOf (digits : List Char) : Option ℕ :=
  if digits ≠ [] ∧ digits.all Char.isDigit then some (Nat.ofDigitChars 10 digits 0) else none

def integerOf : List Char → Option ℤ
  | [] => none
  | c :: digits =>
    if c = '-' then (naturalOf digits).map fun n => -(n : ℤ)
    else if c = '+' then (naturalOf digits).map Int.ofNat
    else (naturalOf (c :: digits)).map Int.ofNat

def nullWords : List String := ["null", "Null", "NULL"]
def trueWords : List String := ["true", "True", "TRUE"]
def falseWords : List String := ["false", "False", "FALSE"]

/-- A plain scalar. Other numbers than integers are not covered. -/
def resolve (word : List Char) : Option Json :=
  match integerOf word with
  | some n => some (.int n)
  | none =>
    match word with
    | [] => none
    | c :: _ =>
      if c.isDigit || c = '-' || c = '+' || c = '.' then none
      else if nullWords.contains (String.ofList word) then some .null
      else if trueWords.contains (String.ofList word) then some (.bool true)
      else if falseWords.contains (String.ofList word) then some (.bool false)
      else some (.str (String.ofList word))

def dropSpaces (cs : List Char) : List Char := cs.dropWhile (· = ' ')

def plain (cs : List Char) : Option (Json × List Char) :=
  (resolve (cs.takeWhile isWordChar)).map fun v => (v, cs.dropWhile isWordChar)

/-- The mapping of members whose keys differ. -/
def mapping {α : Type} (ms : List (String × Json)) (rest : α) : Option (Json × α) :=
  if (ms.map Prod.fst).Nodup then some (.obj ms, rest) else none

mutual

/-- A node in one line. -/
def node : ℕ → List Char → Option (Json × List Char)
  | 0, _ => none
  | fuel + 1, cs =>
    match dropSpaces cs with
    | [] => none
    | c :: rest =>
      if c = '"' then (quoted rest).map fun r => (.str (String.ofList r.1), r.2)
      else if c = '\x7b' then
        if (dropSpaces rest).head? = some '\x7d' then some (.obj [], (dropSpaces rest).tail)
        else (flowMembers fuel rest).bind fun r => mapping r.1 r.2
      else if c = '[' then
        if (dropSpaces rest).head? = some ']' then some (.arr [], (dropSpaces rest).tail)
        else (flowItems fuel rest).map fun r => (.arr r.1, r.2)
      else plain (c :: rest)

/-- The members of a flow mapping, at least one, to its end. -/
def flowMembers : ℕ → List Char → Option (List (String × Json) × List Char)
  | 0, _ => none
  | fuel + 1, cs =>
    match dropSpaces cs with
    | [] => none
    | c :: rest =>
      if c = '"' then do
        let (key, rest) ← quoted rest
        match dropSpaces rest with
        | [] => none
        | d :: rest =>
          if d = ':' then do
            let (value, rest) ← node fuel rest
            match dropSpaces rest with
            | [] => none
            | e :: rest =>
              if e = ',' then do
                let (ms, rest) ← flowMembers fuel rest
                some ((String.ofList key, value) :: ms, rest)
              else if e = '\x7d' then some ([(String.ofList key, value)], rest)
              else none
          else none
      else none

/-- The items of a flow sequence, at least one, to its end. -/
def flowItems : ℕ → List Char → Option (List Json × List Char)
  | 0, _ => none
  | fuel + 1, cs => do
    let (value, rest) ← node fuel cs
    match dropSpaces rest with
    | [] => none
    | e :: rest =>
      if e = ',' then do
        let (xs, rest) ← flowItems fuel rest
        some (value :: xs, rest)
      else if e = ']' then some ([value], rest)
      else none

end

/-- The lines of a text: a line break is a line feed, a carriage return or both. -/
def breakLines : List Char → List (List Char)
  | [] => [[]]
  | c :: cs =>
    if c = '\n' then [] :: breakLines cs
    else if c = '\r' then if cs.head? = some '\n' then breakLines cs else [] :: breakLines cs
    else
      match breakLines cs with
      | [] => [[c]]
      | line :: lines => (c :: line) :: lines

structure Line where
  indent : ℕ
  text : List Char
  deriving Repr, DecidableEq

def lineOf (cs : List Char) : Line := ⟨(cs.takeWhile (· = ' ')).length, dropSpaces cs⟩

def linesOf (cs : List Char) : List Line := ((breakLines cs).map lineOf).filter fun line => line.text ≠ []

/-- What stands behind the dash of a sequence entry. -/
def Line.item (line : Line) : Option Line :=
  match line.text with
  | '-' :: ' ' :: rest => some ⟨line.indent + 2 + (rest.takeWhile (· = ' ')).length, dropSpaces rest⟩
  | _ => none

/-- What stands behind the colon of a key. -/
def afterColon (key : String) : List Char → Option (String × List Char)
  | [':'] => some (key, [])
  | ':' :: ' ' :: rest => some (key, dropSpaces rest)
  | _ => none

/-- The key of a mapping entry, and what stands behind its colon. -/
def Line.entry (line : Line) : Option (String × List Char) :=
  match line.text with
  | [] => none
  | c :: rest =>
    if c = '"' then (quoted rest).bind fun r => afterColon (String.ofList r.1) r.2
    else
      match plain (c :: rest) with
      | some (.str key, rest) => afterColon key rest
      | _ => none

/-- A line that is one node. -/
def inline (text : List Char) : Option Json :=
  match node (text.length + 1) text with
  | some (v, rest) => if dropSpaces rest = [] then some v else none
  | none => none

/-- The lines hold the value of a key at the indentation. -/
def nested (indent : ℕ) : List Line → Bool
  | [] => false
  | line :: _ => indent < line.indent || line.indent = indent && line.item.isSome

mutual

/-- A block node at the beginning of the lines. -/
def block : ℕ → List Line → Option (Json × List Line)
  | 0, _ => none
  | _ + 1, [] => none
  | fuel + 1, line :: lines =>
    if line.item.isSome then (items fuel line.indent (line :: lines)).map fun r => (.arr r.1, r.2)
    else if line.entry.isSome then
      (entries fuel line.indent (line :: lines)).bind fun r => mapping r.1 r.2
    else (inline line.text).map fun v => (v, lines)

/-- The entries of a block sequence at an indentation. -/
def items : ℕ → ℕ → List Line → Option (List Json × List Line)
  | 0, _, _ => none
  | _ + 1, _, [] => some ([], [])
  | fuel + 1, indent, line :: lines =>
    if line.indent < indent then some ([], line :: lines)
    else if indent < line.indent then none
    else
      match line.item with
      | none => some ([], line :: lines)
      | some inner => do
        let (v, rest) ← block fuel (inner :: lines)
        let (vs, rest) ← items fuel indent rest
        some (v :: vs, rest)

/-- The entries of a block mapping at an indentation. -/
def entries : ℕ → ℕ → List Line → Option (List (String × Json) × List Line)
  | 0, _, _ => none
  | _ + 1, _, [] => some ([], [])
  | fuel + 1, indent, line :: lines =>
    if line.indent < indent then some ([], line :: lines)
    else if indent < line.indent then none
    else
      match line.entry with
      | none => none
      | some (key, text) => do
        let (v, rest) ←
          if text ≠ [] then (inline text).map fun v => (v, lines)
          else if nested indent lines then block fuel lines
          else some (.null, lines)
        let (ms, rest) ← entries fuel indent rest
        some ((key, v) :: ms, rest)

end

/-- The document of a text. -/
def read (text : String) : Option Json :=
  match block (text.toList.length + 1) (linesOf text.toList) with
  | some (v, []) => some v
  | _ => none

end Lingsway.Library.Yaml
