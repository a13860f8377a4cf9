import DynvarSync.Lib.PyText
import Mathlib.Data.Rat.Defs

/-! Decoded JSON values with the operations Python gives them: truth value,
comparison with integers and strings, and the `str` and `repr` texts. -/
namespace DynvarSync.Lib
open PyText

/-- A float as a program observes it: its exact value, absent for the infinities
and not-a-number, and its text, which is never a run of hexadecimal digits. -/
structure PyFloat where
  value : Option Rat
  repr : String
  repr_not_hex : ∃ c ∈ repr.toList, digitOf c = none ∧ asciiSpace c = false

inductive Json where
  | null
  | bool (b : Bool)
  | int (n : Int)
  | float (x : PyFloat)
  | str (s : String)
  | arr (items : List Json)
  | obj (fields : List (String × Json))

/-- A decoded JSON object. -/
abbrev Payload := List (String × Json)

/-- `payload.get(key)`. -/
def Payload.get (p : Payload) (key : String) : Json := (p.lookup key).getD .null

/-- `payload.get(key, default)`. -/
def Payload.getD (p : Payload) (key : String) (default : Json) : Json := (p.lookup key).getD default

namespace Json

def isTruthy : Json → Bool
  | .null => false
  | .bool b => b
  | .int n => n ≠ 0
  | .float x => x.value ≠ some 0
  | .str s => s ≠ ""
  | .arr items => !items.isEmpty
  | .obj fields => !fields.isEmpty

/-- `value == n`; booleans and floats compare by number. -/
def eqInt (n : Int) : Json → Bool
  | .bool b => (if b then 1 else 0) = n
  | .int m => m = n
  | .float x => x.value = some (n : Rat)
  | _ => false

/-- `value == text`. -/
def eqStr (text : String) : Json → Bool
  | .str s => s = text
  | _ => false

def isNull : Json → Bool
  | .null => true
  | _ => false

/-- `value is True`. -/
def isTrue : Json → Bool
  | .bool b => b
  | _ => false

/-- `isinstance(value, int)`, which booleans satisfy. -/
def isInt : Json → Bool
  | .bool _ => true
  | .int _ => true
  | _ => false

def asStr : Json → Option String
  | .str s => some s
  | _ => none

def asObj : Json → Option Payload
  | .obj fields => some fields
  | _ => none

private def hexEscape (n : Nat) : List Char :=
  [Char.ofNat 92, 'x', Nat.digitChar (n / 16), Nat.digitChar (n % 16)]

/-- Only the unprintable characters of Latin-1 are escaped by number here. -/
private def reprChar (quote c : Char) : List Char :=
  if c = quote ∨ c = Char.ofNat 92 then [Char.ofNat 92, c]
  else if c = Char.ofNat 10 then [Char.ofNat 92, 'n']
  else if c = Char.ofNat 13 then [Char.ofNat 92, 'r']
  else if c = Char.ofNat 9 then [Char.ofNat 92, 't']
  else if c.toNat < 32 ∨ (127 ≤ c.toNat ∧ c.toNat ≤ 160) ∨ c.toNat = 173 then hexEscape c.toNat
  else [c]

def reprStr (s : String) : String :=
  let single := Char.ofNat 39
  let double := Char.ofNat 34
  let quote := if s.toList.contains single && !s.toList.contains double then double else single
  String.ofList (quote :: s.toList.flatMap (reprChar quote) ++ [quote])

mutual
def repr : Json → String
  | .null => "None"
  | .bool b => if b then "True" else "False"
  | .int n => toString n
  | .float x => x.repr
  | .str s => reprStr s
  | .arr items => "[" ++ reprItems items ++ "]"
  | .obj fields => "\x7b" ++ reprFields fields ++ "\x7d"

def reprItems : List Json → String
  | [] => ""
  | [x] => repr x
  | x :: rest => repr x ++ ", " ++ reprItems rest

def reprFields : List (String × Json) → String
  | [] => ""
  | [(k, x)] => reprStr k ++ ": " ++ repr x
  | (k, x) :: rest => reprStr k ++ ": " ++ repr x ++ ", " ++ reprFields rest
end

/-- `str(value)`. -/
def text : Json → String
  | .str s => s
  | x => repr x

@[simp] theorem isTrue_eq_true_iff (x : Json) : x.isTrue = true ↔ x = .bool true := by
  cases x <;> simp [isTrue]

theorem asStr_eq_some_iff (x : Json) (s : String) : x.asStr = some s ↔ x = .str s := by
  cases x <;> simp [asStr]

theorem asObj_eq_some_iff (x : Json) (p : Payload) : x.asObj = some p ↔ x = .obj p := by
  cases x <;> simp [asObj]

@[simp] theorem isTrue_bool (b : Bool) : (Json.bool b).isTrue = b := rfl

@[simp] theorem eqInt_int (m n : Int) : (Json.int m).eqInt n = decide (m = n) := rfl

@[simp] theorem eqStr_str (s t : String) : (Json.str s).eqStr t = decide (s = t) := rfl

end Json

@[simp] theorem Payload.get_cons (key k : String) (x : Json) (p : Payload) :
    Payload.get ((k, x) :: p) key = if key = k then x else p.get key := by
  unfold Payload.get
  by_cases h : key = k
  · simp [h]
  · simp [List.lookup_cons, h, beq_eq_false_iff_ne.mpr h]

@[simp] theorem Payload.get_nil (key : String) : Payload.get [] key = .null := rfl

@[simp] theorem Payload.getD_cons (key k : String) (x d : Json) (p : Payload) :
    Payload.getD ((k, x) :: p) key d = if key = k then x else p.getD key d := by
  unfold Payload.getD
  by_cases h : key = k
  · simp [h]
  · simp [List.lookup_cons, h, beq_eq_false_iff_ne.mpr h]

end DynvarSync.Lib
