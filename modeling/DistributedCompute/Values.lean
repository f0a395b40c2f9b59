import Mathlib.Data.BitVec

/-! Python values as far as the engine can tell them apart, and which of them
`json.dumps` and `repr` accept. Floats are their binary64 bit patterns; any object
that JSON has no form for is kept as its type's name. A value does not contain
itself. -/
namespace Py

/-- A hashable object in key position. -/
inductive Key
  | none
  | bool (b : Bool)
  | int (n : Int)
  | float (bits : BitVec 64)
  | str (s : String)
  | other (typeName : String)
  deriving DecidableEq, Repr

inductive Val
  | none
  | bool (b : Bool)
  | int (n : Int)
  | float (bits : BitVec 64)
  | str (s : String)
  | list (items : List Val)
  | tuple (items : List Val)
  | dict (entries : List (Key × Val))
  | object (typeName : String)
  deriving Repr

/-- The name of an exception's type, and its text. -/
structure Exn where
  typeName : String
  text : String
  deriving DecidableEq, Repr

/-- CPython refuses to convert an integer of more than 4300 digits to text. -/
def tooManyDigits (n : Int) : Bool := decide (4300 < (Nat.toDigits 10 n.natAbs).length)

def intJsonError (n : Int) : Option String :=
  if tooManyDigits n then some ("Exceeds the limit (4300 digits) for integer string conversion; " ++
    "use sys.set_int_max_str_digits() to increase the limit")
  else .none

def Key.jsonError : Key → Option String
  | .other ty => some s!"keys must be str, int, float, bool or None, not {ty}"
  | .int n => intJsonError n
  | _ => .none

mutual
/-- The text of the exception `json.dumps` raises on a value, if it raises. -/
def Val.jsonError : Val → Option String
  | .object ty => some s!"Object of type {ty} is not JSON serializable"
  | .int n => intJsonError n
  | .list items => listJsonError items
  | .tuple items => listJsonError items
  | .dict entries => entriesJsonError entries
  | _ => .none

def listJsonError : List Val → Option String
  | [] => .none
  | v :: rest => v.jsonError <|> listJsonError rest

def entriesJsonError : List (Key × Val) → Option String
  | [] => .none
  | (k, v) :: rest => k.jsonError <|> v.jsonError <|> entriesJsonError rest
end

/-! ### Floats -/

def floatExponent (bits : BitVec 64) : Nat := bits.toNat / 2 ^ 52 % 2048

def floatIsFinite (bits : BitVec 64) : Bool := floatExponent bits ≠ 2047

/-- The integer a float is equal to, if there is one. -/
def floatInt? (bits : BitVec 64) : Option Int :=
  let fraction := bits.toNat % 2 ^ 52
  let mantissa := if floatExponent bits = 0 then fraction else fraction + 2 ^ 52
  let exponent := if floatExponent bits = 0 then 1 else floatExponent bits
  let sign : Int := if bits.toNat < 2 ^ 63 then 1 else -1
  if floatIsFinite bits = false then .none
  else if 1075 ≤ exponent then some (sign * (mantissa * 2 ^ (exponent - 1075) : Nat))
  else if mantissa % 2 ^ (1075 - exponent) = 0 then some (sign * (mantissa / 2 ^ (1075 - exponent) : Nat))
  else .none

/-- An integer has no nearest finite float: from halfway between the largest one and
`2 ^ 1024` on, it is rounded up. -/
def overflowsFloat (n : Int) : Bool := decide (2 ^ 1024 - 2 ^ 970 ≤ n.natAbs)

/-! ### `json.dumps(value, allow_nan=...)` on a stack of some depth -/

/-- The kinds of exception it raises, with their texts. -/
inductive JsonFault
  | typeError (text : String)
  | valueError (text : String)
  | recursionError
  deriving DecidableEq, Repr

def floatJsonFault (allowNan : Bool) (bits : BitVec 64) : Option JsonFault :=
  if allowNan || floatIsFinite bits then .none
  else some (.valueError "Out of range float values are not JSON compliant")

def Key.jsonFault (allowNan : Bool) : Key → Option JsonFault
  | .other ty => some (.typeError s!"keys must be str, int, float, bool or None, not {ty}")
  | .int n => (intJsonError n).map .valueError
  | .float bits => floatJsonFault allowNan bits
  | _ => .none

mutual
/-- The encoder recurses once for each container inside another, `depth` times at most. -/
def Val.jsonFault (allowNan : Bool) : (depth : Nat) → Val → Option JsonFault
  | _, .object ty => some (.typeError s!"Object of type {ty} is not JSON serializable")
  | _, .int n => (intJsonError n).map .valueError
  | _, .float bits => floatJsonFault allowNan bits
  | 0, .list _ | 0, .tuple _ | 0, .dict _ => some .recursionError
  | depth + 1, .list items => listJsonFault allowNan depth items
  | depth + 1, .tuple items => listJsonFault allowNan depth items
  | depth + 1, .dict entries => entriesJsonFault allowNan depth entries
  | _, _ => .none

def listJsonFault (allowNan : Bool) : (depth : Nat) → List Val → Option JsonFault
  | _, [] => .none
  | depth, v :: rest => v.jsonFault allowNan depth <|> listJsonFault allowNan depth rest

def entriesJsonFault (allowNan : Bool) : (depth : Nat) → List (Key × Val) → Option JsonFault
  | _, [] => .none
  | depth, (k, v) :: rest =>
    k.jsonFault allowNan <|> v.jsonFault allowNan depth <|> entriesJsonFault allowNan depth rest
end

mutual
/-- How many containers lie around the innermost element, the value itself included. -/
def Val.nesting : Val → Nat
  | .list items => listNesting items + 1
  | .tuple items => listNesting items + 1
  | .dict entries => entriesNesting entries + 1
  | _ => 0

def listNesting : List Val → Nat
  | [] => 0
  | v :: rest => max v.nesting (listNesting rest)

def entriesNesting : List (Key × Val) → Nat
  | [] => 0
  | (_, v) :: rest => max v.nesting (entriesNesting rest)
end

/-! ### `repr(value)` -/

def reprRecursionError : Exn :=
  ⟨"RecursionError", "maximum recursion depth exceeded while getting the repr of an object"⟩

def intReprFault (n : Int) : Option Exn := (intJsonError n).map (fun text => ⟨"ValueError", text⟩)

def Key.reprFault : (depth : Nat) → Key → Option Exn
  | 0, _ => some reprRecursionError
  | _ + 1, .int n => intReprFault n
  | _ + 1, _ => .none

mutual
/-- The exception it raises, if it raises. It recurses into every element, `depth`
times at most. -/
def Val.reprFault : (depth : Nat) → Val → Option Exn
  | 0, _ => some reprRecursionError
  | _ + 1, .int n => intReprFault n
  | depth + 1, .list items => listReprFault depth items
  | depth + 1, .tuple items => listReprFault depth items
  | depth + 1, .dict entries => entriesReprFault depth entries
  | _ + 1, _ => .none

def listReprFault : (depth : Nat) → List Val → Option Exn
  | _, [] => .none
  | depth, v :: rest => v.reprFault depth <|> listReprFault depth rest

def entriesReprFault : (depth : Nat) → List (Key × Val) → Option Exn
  | _, [] => .none
  | depth, (k, v) :: rest => k.reprFault depth <|> v.reprFault depth <|> entriesReprFault depth rest
end

/-- The digits and the position of the point of the shortest decimal that reads back as
`mantissa * 2 ^ exponent`, the closest among several. `narrow`: the next float below is
half as far as the one above. -/
def shortestDecimal (mantissa : Nat) (exponent : Int) (narrow : Bool) : String × Int :=
  -- in quarters of a unit of the mantissa, over the denominator `below`
  let above := 2 ^ (exponent - 2).toNat
  let below := 2 ^ (2 - exponent).toNat
  let value := 4 * mantissa * above
  let low := (4 * mantissa - if narrow then 1 else 2) * above
  let high := (4 * mantissa + 2) * above
  -- the least `point` with `value / below < 10 ^ point`
  let point : Int := (((List.range 640).find? fun i => value * 10 ^ 330 < below * 10 ^ i).getD 0 : Nat) - 330
  let candidate (count : Nat) : Option Nat :=
    let shift := point - count
    let unit := 10 ^ shift.toNat * below
    let scale := 10 ^ (-shift).toNat
    let c := value * scale / unit
    let inside (c : Nat) : Bool := if mantissa % 2 = 0 then low * scale ≤ c * unit && c * unit ≤ high * scale
      else low * scale < c * unit && c * unit < high * scale
    let closer : Bool := 2 * value * scale < (2 * c + 1) * unit ||
      (2 * value * scale == (2 * c + 1) * unit && c % 2 == 0)
    if inside c && (closer || !inside (c + 1)) then some c else if inside (c + 1) then some (c + 1) else none
  match (List.range 17).findSome? fun i => (candidate (i + 1)).map fun c => (i + 1, c) with
  | none => ("", 0)
  | some (count, c) =>
    let digits := toString c
    (String.ofList (digits.toList.reverse.dropWhile (· = '0')).reverse, point + (digits.length - count : Int))

/-- `repr` of a float. -/
def floatText (bits : BitVec 64) : String :=
  let fraction : Nat := bits.toNat % 2 ^ 52
  let field : Nat := bits.toNat / 2 ^ 52 % 2048
  let sign := if bits.msb then "-" else ""
  let zeros (n : Int) : String := String.ofList (List.replicate n.toNat '0')
  if field = 2047 then if fraction = 0 then sign ++ "inf" else "nan"
  else if field = 0 ∧ fraction = 0 then sign ++ "0.0"
  else
    let (digits, point) := if field = 0 then shortestDecimal fraction (-1074) false
      else shortestDecimal (fraction + 2 ^ 52) (field - 1075) (fraction = 0 && field ≠ 1)
    let count : Int := digits.length
    sign ++
      if -4 < point ∧ point ≤ 16 then
        if point ≤ 0 then "0." ++ zeros (-point) ++ digits
        else if count ≤ point then digits ++ zeros (point - count) ++ ".0"
        else (digits.take point.toNat).toString ++ "." ++ (digits.drop point.toNat).toString
      else
        let power := toString (point - 1).natAbs
        (digits.take 1).toString ++ (if count = 1 then "" else "." ++ (digits.drop 1).toString) ++
          (if point - 1 < 0 then "e-" else "e+") ++ zeros (2 - power.length) ++ power

/-- `d.get(field)` on a dict whose keys are strings. -/
def field (name : String) (entries : List (String × Val)) : Option Val :=
  (entries.find? (fun e => e.1 = name)).map Prod.snd

/-- `d.get(field)` on an arbitrary dict. -/
def entry (name : String) (entries : List (Key × Val)) : Option Val :=
  (entries.find? (fun e => e.1 = .str name)).map Prod.snd

/-- What a lookup in a dict keyed by strings does with an arbitrary object:
unhashable objects raise, hashable ones that are not strings are absent. -/
inductive Lookup
  | unhashable (typeName : String)
  | absent
  | named (s : String)
  deriving DecidableEq, Repr

def Val.lookup : Val → Lookup
  | .str s => .named s
  | .list _ => .unhashable "list"
  | .dict _ => .unhashable "dict"
  | _ => .absent

/-! ### Values as keys, and the elements of a value -/

/-- Equal objects are one key: `True` and `1.0` are the key `1`. The NaN that
`json.loads` produces is a single object, hence one key too. -/
def Key.canon : Key → Key
  | .bool b => .int (if b then 1 else 0)
  | .float bits =>
    match floatInt? bits with
    | some n => .int n
    | .none => .float bits
  | key => key

def Key.val : Key → Val
  | .none => .none
  | .bool b => .bool b
  | .int n => .int n
  | .float bits => .float bits
  | .str s => .str s
  | .other ty => .object ty

/-- A value decoded from JSON in key position, or the name of its unhashable
type. Such a value is neither a tuple nor another object. -/
def Val.key? : Val → Except String Key
  | .none => .ok .none
  | .bool b => .ok (.bool b)
  | .int n => .ok (.int n)
  | .float bits => .ok (.float bits)
  | .str s => .ok (.str s)
  | .list _ => .error "list"
  | .tuple _ => .error "tuple"
  | .dict _ => .error "dict"
  | .object ty => .error ty

def Val.truthy : Val → Bool
  | .none => false
  | .bool b => b
  | .int n => n ≠ 0
  | .float bits => floatInt? bits ≠ some 0
  | .str s => s ≠ ""
  | .list items => !items.isEmpty
  | .tuple items => !items.isEmpty
  | .dict entries => !entries.isEmpty
  | .object _ => true

/-- The elements a `for` loop visits, or the name of a type that has none. -/
def Val.elements : Val → Except String (List Val)
  | .list items => .ok items
  | .tuple items => .ok items
  | .dict entries => .ok (entries.map (fun e => e.1.val))
  | .str s => .ok (s.toList.map (fun c => .str (String.singleton c)))
  | .none => .error "NoneType"
  | .bool _ => .error "bool"
  | .int _ => .error "int"
  | .float _ => .error "float"
  | .object ty => .error ty

end Py
