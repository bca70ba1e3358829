/-
  JSON values.
-/
import DumpSplit.Text.Quoted

namespace DumpSplit

/-- A JSON value.  Numbers are kept as written: whole, or as decimals. -/
inductive Json
  | null
  | bool (value : Bool)
  | whole (value : Int)
  /-- `digits / 10 ^ places` -/
  | decimal (digits : Int) (places : Nat)
  | string (text : String)
  | array (items : List Json)
  | object (fields : List (String × Json))
  /-- a value without a JSON form: nothing is written from it on -/
  | unwritable
  deriving Inhabited

namespace Json

/-- A decimal in positional notation: no zeros at its end, but always a digit
    after the point. -/
def decimalText (digits : Int) (places : Nat) : String :=
  let shown := (Nat.toDigits 10 digits.natAbs).leftpad (places + 1) '0'
  let fraction := ((shown.drop (shown.length - places)).reverse.dropWhile (· == '0')).reverse
  (if digits < 0 then "-" else "") ++ String.ofList (shown.take (shown.length - places)) ++ "." ++
    String.ofList (if fraction.isEmpty then ['0'] else fraction)

/-- What a value is, for the message that another kind was expected. -/
def describe : Json → String
  | null | unwritable => "null"
  | bool true => "boolean `true`"
  | bool false => "boolean `false`"
  | whole n => "integer `" ++ toString n ++ "`"
  | decimal digits places => "floating point `" ++ decimalText digits places ++ "`"
  | string text => "string " ++ Text.quoted text
  | array _ => "sequence"
  | object _ => "map"

/-- The value of the field `name` of an object. -/
def field? (fields : List (String × Json)) (name : String) : Option Json :=
  fields.lookup name

end Json

end DumpSplit
