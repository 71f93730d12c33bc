import UtxoVm.Reasoning.AsStd

/-!
# Contracts/Json — the JSON parser of the contracts

The parser walks over the text; what is left of it stands for the position.  The two loops of
objects and arrays call each other through `parseValue`, so the functions recurse on a fuel that
the length of the text always covers (`parse_ne_outOfFuel`).
-/

namespace UtxoVm.Contracts

open RustStd AsStd

inductive JsonValue where
  | null
  | bool (b : Bool)
  | number (n : Int64)
  | string (s : Text)
  | array (elements : List JsonValue)
  | object (map : List (Text × JsonValue))

/-! ## 1. Reading values -/

/-- `Map.set`: a key keeps its place. -/
def setEntry (key : Text) (val : JsonValue) :
    List (Text × JsonValue) → List (Text × JsonValue)
  | [] => [(key, val)]
  | (k, v) :: map => if k = key then (k, val) :: map else (k, v) :: setEntry key val map

def isWhitespaceChar (c : UInt16) : Bool := c == 0x20 || c == 0x09 || c == 0x0A || c == 0x0D

namespace JsonValue

def get (v : JsonValue) (key : Text) : Option JsonValue :=
  match v with
  | .object map => (map.find? fun entry ↦ entry.1 = key).map (·.2)
  | _ => none

def has (v : JsonValue) (key : Text) : Bool := (v.get key).isSome

def getString (v : JsonValue) (key : Text) : Text :=
  match v.get key with
  | some (.string s) => s
  | _ => []

def getInt (v : JsonValue) (key : Text) : Int64 :=
  match v.get key with
  | some (.number n) => n
  | some (.string s) =>
      -- quoted numbers are allowed
      let trimmed := ((s.dropWhile isWhitespaceChar).reverse.dropWhile isWhitespaceChar).reverse
      if trimmed ≠ [] then parseI64 trimmed else 0
  | _ => 0

def getBool (v : JsonValue) (key : Text) : Bool :=
  match v.get key with
  | some (.bool b) => b
  | some (.string s) => s == lit "true"
  | _ => false

def isObject : JsonValue → Bool
  | .object _ => true
  | _ => false

end JsonValue

/-! ## 2. The parser -/

/-- Why parsing stopped; `pos` is the position in the text. -/
inductive ParseError where
  | failed (msg : Text) (pos : Nat)
  | outOfFuel

def ParseError.errorMsg : ParseError → Text
  | .failed msg pos => msg ++ lit " at pos " ++ decimal pos
  | .outOfFuel => []

namespace JsonParser

def fail {α : Type} (len : Nat) (rest : Text) (msg : Text) : Except ParseError α :=
  .error (.failed msg (len - rest.length))

def skipWhitespace (s : Text) : Text := s.dropWhile isWhitespaceChar

/-- What the escape of one character stands for. -/
def unescape (esc : UInt16) : Option UInt16 :=
  if esc = 0x22 then some 0x22
  else if esc = 0x5C then some 0x5C
  else if esc = 0x2F then some 0x2F
  else if esc = 0x62 then some 0x08
  else if esc = 0x66 then some 0x0C
  else if esc = 0x6E then some 0x0A
  else if esc = 0x72 then some 0x0D
  else if esc = 0x74 then some 0x09
  else none

/-- Puts a unit in front of a string that was read. -/
def consUnit (c : UInt16) (r : Except ParseError (Text × Text)) :
    Except ParseError (Text × Text) :=
  r.map fun (s, rest) ↦ (c :: s, rest)

/-- The string after its opening quote. -/
def parseString (len : Nat) : Text → Except ParseError (Text × Text)
  | [] => fail len [] (lit "Unclosed string literal")
  | c :: rest =>
      if c = 0x22 then .ok ([], rest)
      else if c = 0x5C then
        match rest with
        | [] => fail len [] (lit "Unexpected EOF in string escape")
        | esc :: rest' =>
            match unescape esc with
            | some c => consUnit c (parseString len rest')
            | none =>
                if esc = 0x75 then
                  match rest' with
                  | h₁ :: h₂ :: h₃ :: h₄ :: rest' =>
                      consUnit (charOfHex [h₁, h₂, h₃, h₄]) (parseString len rest')
                  | _ => fail len rest' (lit "Incomplete \\u hex escape in string")
                else fail len rest (lit "Invalid escape character: \\" ++ [esc])
      else if c.toNat < 0x20 then
        fail len (c :: rest) (lit "Unescaped control character in string: " ++ decimal c.toNat)
      else consUnit c (parseString len rest)
termination_by structural s => s

def parseBool (len : Nat) (s : Text) : Except ParseError (JsonValue × Text) :=
  if lit "true" <+: s then .ok (.bool true, s.drop 4)
  else if lit "false" <+: s then .ok (.bool false, s.drop 5)
  else fail len s (lit "Invalid boolean literal")

def parseNull (len : Nat) (s : Text) : Except ParseError (JsonValue × Text) :=
  if lit "null" <+: s then .ok (.null, s.drop 4) else fail len s (lit "Invalid null literal")

def isDigit (c : UInt16) : Bool := 0x30 ≤ c.toNat && c.toNat ≤ 0x39

def parseNumber (len : Nat) (s : Text) : Except ParseError (JsonValue × Text) :=
  let sign : Text := if s.head? = some 0x2D then [0x2D] else []
  let digits := (s.drop sign.length).takeWhile isDigit
  let rest := (s.drop sign.length).dropWhile isDigit
  if digits = [] then fail len rest (lit "Invalid number: missing digits")
  else .ok (.number (parseI64 (sign ++ digits)), rest)

mutual

def parseValue (len : Nat) : Nat → Text → Except ParseError (JsonValue × Text)
  | 0, _ => .error .outOfFuel
  | fuel + 1, s =>
      match skipWhitespace s with
      | [] => fail len [] (lit "Unexpected EOF while parsing value")
      | c :: rest =>
          if c = 0x7B then parseObject len fuel rest
          else if c = 0x5B then parseArray len fuel rest
          else if c = 0x22 then
            match parseString len rest with
            | .error e => .error e
            | .ok (s, rest) => .ok (.string s, rest)
          else if c = 0x74 ∨ c = 0x66 then parseBool len (c :: rest)
          else if c = 0x6E then parseNull len (c :: rest)
          else if c = 0x2D ∨ isDigit c then parseNumber len (c :: rest)
          else fail len (c :: rest) (lit "Unexpected token character: " ++ [c])

/-- The object after its brace. -/
def parseObject (len : Nat) : Nat → Text → Except ParseError (JsonValue × Text)
  | 0, _ => .error .outOfFuel
  | fuel + 1, s =>
      match skipWhitespace s with
      | [] => parseMembers len fuel [] []
      | c :: rest =>
          if c = 0x7D then .ok (.object [], rest) else parseMembers len fuel [] (c :: rest)

/-- The loop of `parseObject`. -/
def parseMembers (len : Nat) : Nat → List (Text × JsonValue) → Text →
    Except ParseError (JsonValue × Text)
  | 0, _, _ => .error .outOfFuel
  | fuel + 1, map, s =>
      if s = [] then fail len [] (lit "Unclosed object at EOF")
      else
        match skipWhitespace s with
        | [] => fail len [] (lit "Expected string key in object")
        | c :: rest =>
            if c ≠ 0x22 then fail len (c :: rest) (lit "Expected string key in object")
            else
              match parseString len rest with
              | .error e => .error e
              | .ok (key, rest) =>
                  match skipWhitespace rest with
                  | [] => fail len [] (lit "Expected ':' after object key")
                  | c :: rest =>
                      if c ≠ 0x3A then fail len (c :: rest) (lit "Expected ':' after object key")
                      else
                        match parseValue len fuel rest with
                        | .error e => .error e
                        | .ok (val, rest) =>
                            match skipWhitespace rest with
                            | [] => fail len [] (lit "Unclosed object")
                            | c :: rest =>
                                if c = 0x7D then .ok (.object (setEntry key val map), rest)
                                else if c = 0x2C then
                                  parseMembers len fuel (setEntry key val map) rest
                                else fail len (c :: rest) (lit "Expected ',' or '\x7d' in object")

/-- The array after its bracket. -/
def parseArray (len : Nat) : Nat → Text → Except ParseError (JsonValue × Text)
  | 0, _ => .error .outOfFuel
  | fuel + 1, s =>
      match skipWhitespace s with
      | [] => parseElements len fuel [] []
      | c :: rest =>
          if c = 0x5D then .ok (.array [], rest) else parseElements len fuel [] (c :: rest)

/-- The loop of `parseArray`. -/
def parseElements (len : Nat) : Nat → List JsonValue → Text →
    Except ParseError (JsonValue × Text)
  | 0, _, _ => .error .outOfFuel
  | fuel + 1, arr, s =>
      if s = [] then fail len [] (lit "Unclosed array at EOF")
      else
        match parseValue len fuel s with
        | .error e => .error e
        | .ok (val, rest) =>
            match skipWhitespace rest with
            | [] => fail len [] (lit "Unclosed array")
            | c :: rest =>
                if c = 0x5D then .ok (.array (arr ++ [val]), rest)
                else if c = 0x2C then parseElements len fuel (arr ++ [val]) rest
                else fail len (c :: rest) (lit "Expected ',' or ']' in array")

end

/-- `new JsonParser(json).parse()`. -/
def parse (json : Text) : Except ParseError JsonValue :=
  match skipWhitespace json with
  | [] => fail json.length [] (lit "Empty JSON input")
  | c :: rest =>
      match parseValue json.length (3 * json.length + 1) (c :: rest) with
      | .error e => .error e
      | .ok (val, rest) =>
          match skipWhitespace rest with
          | [] => .ok val
          | c :: rest => fail json.length (c :: rest) (lit "Unexpected trailing content")

end JsonParser

/-! ## 3. Writing strings -/

def escapeChar (c : UInt16) : Text :=
  if c = 0x22 then [0x5C, 0x22]
  else if c = 0x5C then [0x5C, 0x5C]
  else if c = 0x0A then [0x5C, 0x6E]
  else if c = 0x0D then [0x5C, 0x72]
  else if c = 0x09 then [0x5C, 0x74]
  else [c]

def escapeJsonString (s : Text) : Text := s.flatMap escapeChar

end UtxoVm.Contracts
