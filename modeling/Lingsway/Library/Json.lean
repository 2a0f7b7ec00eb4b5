import Mathlib

/-!
# JSON values

The members of an object are listed in insertion order. A fraction is known by
the text it is printed as.
-/
namespace Lingsway.Library

inductive Json where
  | null
  | bool (b : Bool)
  | int (n : ℤ)
  | float (repr : String)
  | str (s : String)
  | arr (items : List Json)
  | obj (members : List (String × Json))
  deriving Repr, Inhabited

abbrev Members := List (String × Json)

namespace Json

mutual

def beq : Json → Json → Bool
  | null, null => true
  | bool a, bool b => a == b
  | int m, int n => m == n
  | float r, float s => r == s
  | str s, str t => s == t
  | arr xs, arr ys => beqItems xs ys
  | obj ms, obj ns => beqMembers ms ns
  | _, _ => false

def beqItems : List Json → List Json → Bool
  | [], [] => true
  | x :: xs, y :: ys => beq x y && beqItems xs ys
  | _, _ => false

def beqMembers : List (String × Json) → List (String × Json) → Bool
  | [], [] => true
  | (k, x) :: ms, (l, y) :: ns => k == l && beq x y && beqMembers ms ns
  | _, _ => false

end

mutual

theorem beq_iff : ∀ a b : Json, beq a b = true ↔ a = b := by
  intro a b
  cases a <;> cases b <;> simp [beq]
  · exact beqItems_iff _ _
  · exact beqMembers_iff _ _

theorem beqItems_iff : ∀ xs ys : List Json, beqItems xs ys = true ↔ xs = ys
  | [], ys => by cases ys <;> simp [beqItems]
  | x :: xs, [] => by simp [beqItems]
  | x :: xs, y :: ys => by simp [beqItems, beq_iff x y, beqItems_iff xs ys]

theorem beqMembers_iff : ∀ ms ns : List (String × Json), beqMembers ms ns = true ↔ ms = ns
  | [], ns => by cases ns <;> simp [beqMembers]
  | (k, x) :: ms, [] => by simp [beqMembers]
  | (k, x) :: ms, (l, y) :: ns => by simp [beqMembers, beq_iff x y, beqMembers_iff ms ns, and_assoc]

end

instance : DecidableEq Json := fun a b => decidable_of_iff (beq a b = true) (beq_iff a b)

def sortMembers (members : Members) : Members := members.insertionSort fun a b => a.1 ≤ b.1

mutual

/-- The members of every object in the order of their keys. -/
def canonical : Json → Json
  | arr items => arr (canonicalItems items)
  | obj members => obj (sortMembers (canonicalMembers members))
  | null => null
  | bool b => bool b
  | int n => int n
  | float repr => float repr
  | str s => str s

def canonicalItems : List Json → List Json
  | [] => []
  | x :: xs => canonical x :: canonicalItems xs

def canonicalMembers : List (String × Json) → List (String × Json)
  | [] => []
  | (k, x) :: ms => (k, canonical x) :: canonicalMembers ms

end

/-- A whole number that is printed as `n.0`. -/
def wholeFloat (repr : String) : Json :=
  match (String.ofList (repr.toList.take (repr.toList.length - 2))).toInt? with
  | some n => if repr = toString n ++ ".0" then int n else float repr
  | none => float repr

mutual

/-- Numbers of one value are one number: `True == 1` and `1.0 == 1`. -/
def unified : Json → Json
  | arr items => arr (unifiedItems items)
  | obj members => obj (unifiedMembers members)
  | null => null
  | bool b => int (if b then 1 else 0)
  | int n => int n
  | float repr => wholeFloat repr
  | str s => str s

def unifiedItems : List Json → List Json
  | [] => []
  | x :: xs => unified x :: unifiedItems xs

def unifiedMembers : List (String × Json) → List (String × Json)
  | [] => []
  | (k, x) :: ms => (k, unified x) :: unifiedMembers ms

end

/-- `a == b` of the values that JSON texts are read as. -/
def equal (a b : Json) : Bool := a.unified.canonical = b.unified.canonical

@[simp] theorem equal_refl (a : Json) : a.equal a = true := by simp [equal]

end Json

namespace Members

/-- `m.get(key)`, a missing member being null. -/
def item (m : Members) (key : String) : Json := (m.lookup key).getD .null

/-- `set(m) == expected`. -/
def hasKeys (m : Members) (expected : List String) : Bool :=
  m.all (fun member => expected.contains member.1) && expected.all (fun key => (m.lookup key).isSome)

/-- Equality of objects, whose members have no order. -/
def same (m expected : Members) : Bool :=
  m.hasKeys (expected.map Prod.fst) && expected.all (fun member => m.lookup member.1 = some member.2)

end Members
end Lingsway.Library
