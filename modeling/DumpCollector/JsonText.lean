import DumpCollector.Requests
import Mathlib.Algebra.Group.Int.Defs
import Mathlib.Algebra.Group.Nat.Defs

namespace DumpCollector.JsonText

open Requests

/-- A value of the JSON library. The members of an object are sorted by key, without
repetition; a floating point number is kept with its text and its integral part. -/
inductive Json
  | null
  | boolean (value : Bool)
  | integer (value : Int)
  | float (text : String) (integral : Int)
  | string (value : String)
  | array (elements : List Json)
  | object (members : List (String × Json))

def Json.contains (key : String) : Json → Bool
  | .object members => (members.lookup key).isSome
  | _ => false

def Json.at (j : Json) (key : String) : Except Exn Json :=
  match j with
  | .object members =>
      match members.lookup key with
      | some value => .ok value
      | none => .error .jsonTypeError
  | _ => .error .jsonTypeError

/-- The operator [] on a document that may be changed: a missing key of an object is
inserted with null. -/
def Json.subscript (j : Json) (key : String) : Except Exn Json :=
  match j with
  | .object members => .ok ((members.lookup key).getD .null)
  | .null => .ok .null
  | _ => .error .jsonTypeError

def Json.getString : Json → Except Exn String
  | .string value => .ok value
  | _ => .error .jsonTypeError

/-- The conversion to an integer type, which also takes booleans and cuts off the
fraction of a floating point number. -/
def Json.getInteger : Json → Except Exn Int
  | .integer value => .ok value
  | .boolean value => .ok (if value then 1 else 0)
  | .float _ integral => .ok integral
  | _ => .error .jsonTypeError

def Json.getUnsigned (width : Nat) (j : Json) : Except Exn Nat := do
  let value ← j.getInteger
  return (value % 2 ^ width).toNat

/-- The conversion to the number types of the library itself and to enumerations, which
takes no booleans. -/
def Json.getArithmeticValue : Json → Except Exn Int
  | .integer value => .ok value
  | .float _ integral => .ok integral
  | _ => .error .jsonTypeError

def Json.getNumberUnsigned (j : Json) : Except Exn Nat := do
  let value ← j.getArithmeticValue
  return (value % 2 ^ 64).toNat

def Json.getEnum (j : Json) : Except Exn Int32 := do
  let value ← j.getArithmeticValue
  return Int32.ofInt value

theorem getNumberUnsigned_lt {n : Nat} {j : Json} (h : j.getNumberUnsigned = .ok n) : n < 2 ^ 64 := by
  rw [Json.getNumberUnsigned] at h
  cases hvalue : j.getArithmeticValue with
  | error e =>
      rw [hvalue] at h
      cases h
  | ok value =>
      rw [hvalue] at h
      cases h
      have hnonneg := Int.emod_nonneg value (b := 2 ^ 64) (by decide)
      exact (Int.toNat_lt hnonneg).mpr (Int.emod_lt_of_pos value (by decide))

def hexDigits (n : Nat) : String :=
  String.ofList ((List.range 4).reverse.map fun i => Nat.digitChar (n / 16 ^ i % 16))

def escapeChar (c : Char) : String :=
  match c with
  | '"' => "\\\""
  | '\\' => "\\\\"
  | '\n' => "\\n"
  | '\r' => "\\r"
  | '\t' => "\\t"
  | '\x08' => "\\b"
  | '\x0c' => "\\f"
  | c => if c.toNat < 32 then "\\u" ++ hexDigits c.toNat else String.singleton c

def quoted (s : String) : String := "\"" ++ String.join (s.toList.map escapeChar) ++ "\""

mutual

def Json.dump : Json → String
  | .null => "null"
  | .boolean value => if value then "true" else "false"
  | .integer value => toString value
  | .float text _ => text
  | .string value => quoted value
  | .array elements => "[" ++ ",".intercalate (dumpElements elements) ++ "]"
  | .object members => "\x7b" ++ ",".intercalate (dumpMembers members) ++ "\x7d"

def dumpElements : List Json → List String
  | [] => []
  | j :: rest => j.dump :: dumpElements rest

def dumpMembers : List (String × Json) → List String
  | [] => []
  | (key, j) :: rest => (quoted key ++ ":" ++ j.dump) :: dumpMembers rest

end

example : (Json.object [("dumpId", .integer 7), ("originatorId", .string "a\"b")]).dump =
    "\x7b\"dumpId\":7,\"originatorId\":\"a\\\"b\"\x7d" := by decide +kernel

end DumpCollector.JsonText
