/-
  DexProxy.Python.Value — the Python values that cross the Harbor bridge: what the web
  server hands a handler as `params`, what `json.loads` returns for Harbor's bodies, and
  the bodies the handlers return. `Value` is JSON's data model as `json.loads` builds it
  (`None`, `bool`, `int`, `str`, `list`, `dict`); floats are left out.

  Besides the values: their truth value (`bool(v)`), `repr` and `str` (what an f-string
  interpolates), `int(v)` with the `ValueError` and `TypeError` it raises, and the
  exception classes the connector's `except` clauses tell apart.

  `int()` on a `str` follows CPython 3.11: Unicode decimal digits and spaces read as their
  ASCII forms, single `_` between digits, and the limit of 4300 digits on a conversion.
-/

import DexProxy.Python.Str

namespace DexProxy.Python

inductive Value where
  | none
  | bool (b : Bool)
  | int (n : Int)
  | str (s : String)
  | list (vs : List Value)
  | dict (kvs : List (String × Value))
  deriving Repr

/-- A `dict` with `str` keys, as key/value pairs in insertion order. -/
abbrev Dict := List (String × Value)

/-- `d.get(k)`: the value of the first pair with key `k`, `None` without one. -/
def Dict.get (d : Dict) (k : String) : Value := (d.lookup k).getD .none

def Dict.keys (d : Dict) : List String := d.map Prod.fst

/-- The exceptions other than `HarborAPIError`, by the classes the connector's `except`
    clauses and callers tell apart, each with its `str(exc)`. -/
inductive PyExc where
  /-- `aiohttp.ClientError` and its subclasses: the transport failures. -/
  | clientError (msg : String)
  /-- `ValueError`, and so `json.JSONDecodeError` and `UnicodeDecodeError`. -/
  | valueError (msg : String)
  | typeError (msg : String)
  | other (msg : String)
  deriving Repr, DecidableEq

def PyExc.str : PyExc → String
  | clientError m | valueError m | typeError m | other m => m

namespace Value

/-- `bool(v)`. -/
def truthy : Value → Bool
  | none => false
  | bool b => b
  | int n => n != 0
  | str s => Python.truthy s
  | list vs => !vs.isEmpty
  | dict kvs => !kvs.isEmpty

/-- `a or b`. -/
def orElse (a b : Value) : Value := if a.truthy then a else b

@[simp] theorem truthy_orElse (a b : Value) : (a.orElse b).truthy = (a.truthy || b.truthy) := by
  by_cases ha : a.truthy <;> simp [orElse, ha]

/-! ## `repr` and `str` -/

def hexDigit (n : Nat) : Char := if n < 10 then Char.ofNat (48 + n) else Char.ofNat (87 + n)

/-- One character of a `str`'s `repr` between `quote`s (CPython's `unicode_repr`). Characters
    above U+00FF are taken as printable. -/
def reprChar (quote c : Char) : List Char :=
  if c = quote ∨ c = '\\' then ['\\', c]
  else if c = '\t' then ['\\', 't']
  else if c = '\n' then ['\\', 'n']
  else if c = '\r' then ['\\', 'r']
  else if c.toNat < 0x20 ∨ (0x7f ≤ c.toNat ∧ c.toNat ≤ 0xa0) ∨ c.toNat = 0xad then
    ['\\', 'x', hexDigit (c.toNat / 16), hexDigit (c.toNat % 16)]
  else [c]

/-- `repr(s)` of a `str`: single quotes, unless `s` holds a `'` and no `"`. -/
def reprStr (s : String) : String :=
  let quote := if '\'' ∈ s.data ∧ '"' ∉ s.data then '"' else '\''
  ⟨quote :: s.data.flatMap (reprChar quote) ++ [quote]⟩

mutual
/-- `repr(v)`. -/
def repr : Value → String
  | none => "None"
  | bool b => if b then "True" else "False"
  | int n => toString n
  | str s => reprStr s
  | list vs => "[" ++ reprItems vs ++ "]"
  | dict kvs => "\x7b" ++ reprPairs kvs ++ "\x7d"

def reprItems : List Value → String
  | [] => ""
  | [v] => repr v
  | v :: w :: vs => repr v ++ ", " ++ reprItems (w :: vs)

def reprPairs : List (String × Value) → String
  | [] => ""
  | [(k, v)] => reprStr k ++ ": " ++ repr v
  | (k, v) :: kv :: kvs => reprStr k ++ ": " ++ repr v ++ ", " ++ reprPairs (kv :: kvs)
end

/-- `str(v)`, which is also what `f"{v}"` interpolates. -/
def toStr : Value → String
  | .str s => s
  | v => repr v

/-! ## `int(v)` -/

/-- `Py_UNICODE_ISSPACE`, the test of `str.isspace()`. -/
def isSpace (c : Char) : Bool :=
  c = ' ' || ('\t' ≤ c && c ≤ '\r') || ('\x1c' ≤ c && c ≤ '\x1f') || c = '\x85' || c = '\xa0' ||
    c = '\u1680' || ('\u2000' ≤ c && c ≤ '\u200a') || c = '\u2028' || c = '\u2029' ||
    c = '\u202f' || c = '\u205f' || c = '\u3000'

/-- `Py_ISSPACE`: the ASCII blanks `PyLong_FromString` skips. -/
def isAsciiSpace (c : Char) : Bool := c = ' ' || ('\t' ≤ c && c ≤ '\r')

/-- The code points of the decimal digits zero in the Unicode 14.0 database of CPython 3.11;
    each begins a run of the ten digits zero to nine. -/
def decimalZeros : List Nat :=
  [0x30, 0x660, 0x6f0, 0x7c0, 0x966, 0x9e6, 0xa66, 0xae6, 0xb66, 0xbe6, 0xc66, 0xce6, 0xd66,
   0xde6, 0xe50, 0xed0, 0xf20, 0x1040, 0x1090, 0x17e0, 0x1810, 0x1946, 0x19d0, 0x1a80, 0x1a90,
   0x1b50, 0x1bb0, 0x1c40, 0x1c50, 0xa620, 0xa8d0, 0xa900, 0xa9d0, 0xa9f0, 0xaa50, 0xabf0,
   0xff10, 0x104a0, 0x10d30, 0x11066, 0x110f0, 0x11136, 0x111d0, 0x112f0, 0x11450, 0x114d0,
   0x11650, 0x116c0, 0x11730, 0x118e0, 0x11950, 0x11c50, 0x11d50, 0x11da0, 0x16a60, 0x16ac0,
   0x16b50, 0x1d7ce, 0x1d7d8, 0x1d7e2, 0x1d7ec, 0x1d7f6, 0x1e140, 0x1e2f0, 0x1e950, 0x1fbf0]

/-- `Py_UNICODE_TODECIMAL`. -/
def toDecimal (c : Char) : Option Nat :=
  (decimalZeros.find? fun z => z ≤ c.toNat && c.toNat < z + 10).map (c.toNat - ·)

/-- `_PyUnicode_TransformDecimalAndSpaceToASCII`: a character below U+007F is kept; above it a
    space becomes `' '` and a decimal digit its ASCII digit, and any other character becomes
    `'?'`, where the text is cut. -/
def transformDecimalAndSpaceToAscii : List Char → List Char
  | [] => []
  | c :: cs =>
    if c.toNat < 127 then c :: transformDecimalAndSpaceToAscii cs
    else if isSpace c then ' ' :: transformDecimalAndSpaceToAscii cs
    else match toDecimal c with
      | some d => Char.ofNat (48 + d) :: transformDecimalAndSpaceToAscii cs
      | Option.none => ['?']

def readSign : List Char → Bool × List Char
  | '-' :: t => (true, t)
  | '+' :: t => (false, t)
  | t => (false, t)

def digitValue (c : Char) : Nat := c.toNat - 48

/-- The run of digits and underscores `PyLong_FromString` scans after the sign, from the
    character before it and the value and number of digits read so far: the value, the number
    of digits and the text after the run; `none` at a second `_` in a row or a `_` that ends
    the run. -/
def scanDigits (prev : Char) (value digits : Nat) : List Char → Option (Nat × Nat × List Char)
  | c :: cs =>
    if c.isDigit then scanDigits c (10 * value + digitValue c) (digits + 1) cs
    else if c = '_' then if prev = '_' then Option.none else scanDigits c value digits cs
    else if prev = '_' then Option.none else some (value, digits, c :: cs)
  | [] => if prev = '_' then Option.none else some (value, digits, [])

/-- `sys.get_int_max_str_digits()` as the interpreter starts. -/
def maxStrDigits : Nat := 4300

/-- The error for a text `int()` does not read, with `%.200R`: the `repr` cut to 200 characters. -/
def invalidLiteral (s : String) : PyExc :=
  .valueError ("invalid literal for int() with base 10: " ++ ⟨(reprStr s).data.take 200⟩)

def tooManyDigits (digits : Nat) : PyExc :=
  .valueError ("Exceeds the limit (" ++ toString maxStrDigits ++
    " digits) for integer string conversion: value has " ++ toString digits ++
    " digits; use sys.set_int_max_str_digits() to increase the limit")

/-- `int(s)` for a `str`, as `PyLong_FromUnicodeObject` reads it in base 10: the text made
    ASCII, then blanks, a sign, a run of digits not led by `_`, blanks and the end. A run of
    more digits than the limit raises before what follows it is looked at. -/
def parseInt (s : String) : Except PyExc Int :=
  let (negative, t) := readSign ((transformDecimalAndSpaceToAscii s.data).dropWhile isAsciiSpace)
  if t.head? = some '_' then .error (invalidLiteral s) else
  match scanDigits '\x00' 0 0 t with
  | some (value, digits, rest) =>
    if maxStrDigits < digits then .error (tooManyDigits digits)
    else if digits = 0 ∨ rest.dropWhile isAsciiSpace ≠ [] then .error (invalidLiteral s)
    else .ok (if negative then -(value : Int) else value)
  | Option.none => .error (invalidLiteral s)

def intTypeError (kind : String) : PyExc :=
  .typeError ("int() argument must be a string, a bytes-like object or a real number, not '" ++ kind ++ "'")

/-- `int(v)`. -/
def toInt : Value → Except PyExc Int
  | str s => parseInt s
  | int n => .ok n
  | bool b => .ok (if b then 1 else 0)
  | none => .error (intTypeError "NoneType")
  | list _ => .error (intTypeError "list")
  | dict _ => .error (intTypeError "dict")

end Value

end DexProxy.Python
