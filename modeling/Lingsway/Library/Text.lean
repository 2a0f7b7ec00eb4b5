import Mathlib

/-!
# Text as a list of characters

Stripping and splitting of strings, on the list of their code points. White
space is what `str.isspace` accepts.
-/
namespace Lingsway.Library.Text

/-- The code points that `str.strip()` removes. -/
def isSpace (c : Char) : Bool :=
  let n := c.toNat
  (0x09 ≤ n && n ≤ 0x0D) || (0x1C ≤ n && n ≤ 0x20) || n == 0x85 || n == 0xA0 || n == 0x1680 ||
    (0x2000 ≤ n && n ≤ 0x200A) || n == 0x2028 || n == 0x2029 || n == 0x202F || n == 0x205F ||
    n == 0x3000

def lstripBy (p : Char → Bool) (cs : List Char) : List Char := cs.dropWhile p

def rstripBy (p : Char → Bool) (cs : List Char) : List Char := (cs.reverse.dropWhile p).reverse

def strip (s : String) : String := String.ofList (rstripBy isSpace (lstripBy isSpace s.toList))

def rstripChar (c : Char) (s : String) : String := String.ofList (rstripBy (· == c) s.toList)

/-- `s.upper()`, for the ASCII letters of a class name. -/
def upper (s : String) : String := String.ofList (s.toList.map Char.toUpper)

/-- `s.lower()`, for ASCII letters. -/
def lower (s : String) : String := String.ofList (s.toList.map Char.toLower)

/-- `s.lower()`, for a comparison with ASCII words: the Kelvin sign is the only code point
outside ASCII that is lowered to an ASCII word. -/
def lowerWord (s : String) : String :=
  String.ofList (s.toList.map fun c => if c.toNat = 0x212A then 'k' else c.toLower)

/-- `s.split(c)` -/
def splitOnChar (c : Char) : List Char → List (List Char)
  | [] => [[]]
  | d :: ds =>
    if d = c then [] :: splitOnChar c ds
    else match splitOnChar c ds with
      | [] => [[d]]
      | part :: parts => (d :: part) :: parts

/-- `s[:n]`. -/
def take (n : ℕ) (s : String) : String := String.ofList (s.toList.take n)

/-- `sub in s`. -/
def contains (sub s : List Char) : Bool := s.tails.any (sub.isPrefixOf ·)

section Strip

variable {s : String} {cs : List Char} {c : Char}

theorem mem_lstripBy {p : Char → Bool} (hc : c ∈ cs) (hp : p c = false) : c ∈ lstripBy p cs := by
  induction cs with
  | nil => cases hc
  | cons d ds ih =>
    rw [lstripBy, List.dropWhile_cons]
    split_ifs with hd
    · obtain rfl | hc := List.mem_cons.mp hc
      · rw [hp] at hd
        cases hd
      · exact ih hc
    · exact hc

theorem mem_rstripBy {p : Char → Bool} (hc : c ∈ cs) (hp : p c = false) : c ∈ rstripBy p cs := by
  rw [rstripBy, List.mem_reverse]
  exact mem_lstripBy (List.mem_reverse.mpr hc) hp

/-- Only white space is stripped. -/
theorem mem_strip (hc : c ∈ s.toList) (hspace : isSpace c = false) : c ∈ (strip s).toList := by
  rw [strip, String.toList_ofList]
  exact mem_rstripBy (mem_lstripBy hc hspace) hspace

theorem strip_eq_empty_iff : strip s = "" ↔ ∀ c ∈ s.toList, isSpace c = true := by
  constructor
  · intro h c hc
    by_contra hspace
    have hmem := mem_strip hc (Bool.not_eq_true _ ▸ hspace)
    rw [h] at hmem
    cases hmem
  · intro h
    have hnil : lstripBy isSpace s.toList = [] := List.dropWhile_eq_nil_iff.mpr h
    rw [strip, hnil]
    rfl

end Strip

end Lingsway.Library.Text
