import Lingsway.Library.Json

/-!
# JSON texts

`json.dumps` with the separators `,` and `:`. A string is written with the
characters that JSON requires to be escaped, or in ASCII, where a character
beyond the first plane becomes a pair of surrogates.
-/
namespace Lingsway.Library.Json

def hexEscape (n : ℕ) : List Char :=
  ['\\', 'u', Nat.digitChar (n / 4096 % 16), Nat.digitChar (n / 256 % 16), Nat.digitChar (n / 16 % 16),
    Nat.digitChar (n % 16)]

/-- The escapes of one letter. -/
def letterEscape (c : Char) : Option Char :=
  if c = '\\' then some '\\'
  else if c = '"' then some '"'
  else if c = '\n' then some 'n'
  else if c = '\r' then some 'r'
  else if c = '\t' then some 't'
  else if c = '\x0c' then some 'f'
  else if c = '\x08' then some 'b'
  else none

/-- A character under `ensure_ascii=False`. -/
def escapeChar (c : Char) : List Char :=
  match letterEscape c with
  | some letter => ['\\', letter]
  | none => if c.toNat < 0x20 then hexEscape c.toNat else [c]

/-- A character under `ensure_ascii=True`. -/
def escapeAscii (c : Char) : List Char :=
  match letterEscape c with
  | some letter => ['\\', letter]
  | none =>
    if 0x20 ≤ c.toNat ∧ c.toNat ≤ 0x7e then [c]
    else if c.toNat < 0x10000 then hexEscape c.toNat
    else hexEscape (0xd800 + (c.toNat - 0x10000) / 0x400) ++ hexEscape (0xdc00 + (c.toNat - 0x10000) % 0x400)

def quoteWith (escape : Char → List Char) (s : String) : List Char := '"' :: s.toList.flatMap escape ++ ['"']

/-- `json.dumps(s)` -/
def dumpsAscii (s : String) : List Char := quoteWith escapeAscii s

mutual

/-- `json.dumps(x, ensure_ascii=False, separators=(',', ':'))` -/
def dumps : Json → List Char
  | null => "null".toList
  | bool b => if b then "true".toList else "false".toList
  | int n => (toString n).toList
  | float r => r.toList
  | str s => quoteWith escapeChar s
  | arr items => '[' :: dumpsItems items ++ [']']
  | obj members => '\x7b' :: dumpsMembers members ++ ['\x7d']

def dumpsItems : List Json → List Char
  | [] => []
  | [x] => dumps x
  | x :: y :: xs => dumps x ++ ',' :: dumpsItems (y :: xs)

def dumpsMembers : List (String × Json) → List Char
  | [] => []
  | [(k, x)] => quoteWith escapeChar k ++ ':' :: dumps x
  | (k, x) :: m :: ms => quoteWith escapeChar k ++ ':' :: dumps x ++ ',' :: dumpsMembers (m :: ms)

end

mutual

/-- A value without fractions, with one member for a key. -/
def plainValue : Json → Bool
  | float _ => false
  | arr items => plainItems items
  | obj members => (members.map Prod.fst).Nodup && plainMembers members
  | _ => true

def plainItems : List Json → Bool
  | [] => true
  | x :: xs => plainValue x && plainItems xs

def plainMembers : List (String × Json) → Bool
  | [] => true
  | (_, x) :: ms => plainValue x && plainMembers ms

end

end Lingsway.Library.Json
