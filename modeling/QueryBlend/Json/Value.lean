/-!
# JSON values and how they are written

The values that this library writes: texts, truth values, lists and objects. They are written either
without any blanks or over several lines, with two blanks for each level.
-/
namespace QueryBlend.Json

inductive Value where
  | bool (b : Bool)
  | text (t : List Char)
  | list (items : List Value)
  | object (members : List (List Char × Value))

/-- A hexadecimal digit in small letters. -/
def hexDigit (n : Nat) : Char := if n < 10 then Char.ofNat (48 + n) else Char.ofNat (87 + n)

def escape (c : Char) : List Char :=
  if c = '"' then ['\\', '"']
  else if c = '\\' then ['\\', '\\']
  else if c = '\x08' then ['\\', 'b']
  else if c = '\x0c' then ['\\', 'f']
  else if c = '\n' then ['\\', 'n']
  else if c = '\r' then ['\\', 'r']
  else if c = '\t' then ['\\', 't']
  else if c.toNat < 0x20 then
    ['\\', 'u', '0', '0', hexDigit (c.toNat / 16), hexDigit (c.toNat % 16)]
  else [c]

def quoted (t : List Char) : List Char := '"' :: (t.flatMap escape ++ ['"'])

mutual

def Value.render : Value → List Char
  | .bool true => ['t', 'r', 'u', 'e']
  | .bool false => ['f', 'a', 'l', 's', 'e']
  | .text t => quoted t
  | .list [] => ['[', ']']
  | .list (v :: vs) => '[' :: (v.render ++ renderItems vs)
  | .object [] => ['\x7b', '\x7d']
  | .object ((k, v) :: ms) => '\x7b' :: (quoted k ++ ':' :: (v.render ++ renderMembers ms))

/-- The values behind the first one, and the end of the list. -/
def renderItems : List Value → List Char
  | [] => [']']
  | v :: vs => ',' :: (v.render ++ renderItems vs)

/-- The members behind the first one, and the end of the object. -/
def renderMembers : List (List Char × Value) → List Char
  | [] => ['\x7d']
  | (k, v) :: ms => ',' :: (quoted k ++ ':' :: (v.render ++ renderMembers ms))

end

/-- The start of a line at a level. -/
def indentation (level : Nat) : List Char := '\n' :: List.replicate (2 * level) ' '

mutual

/-- A value over several lines, the first of which stands at a level. -/
def Value.renderLines (level : Nat) : Value → List Char
  | .bool true => ['t', 'r', 'u', 'e']
  | .bool false => ['f', 'a', 'l', 's', 'e']
  | .text t => quoted t
  | .list [] => ['[', ']']
  | .list (v :: vs) =>
    '[' :: (indentation (level + 1) ++ (v.renderLines (level + 1) ++ itemLines level vs))
  | .object [] => ['\x7b', '\x7d']
  | .object ((k, v) :: ms) =>
    '\x7b' :: (indentation (level + 1) ++
      (quoted k ++ ':' :: ' ' :: (v.renderLines (level + 1) ++ memberLines level ms)))

/-- The lines of the values behind the first one, and of the end of the list. -/
def itemLines (level : Nat) : List Value → List Char
  | [] => indentation level ++ [']']
  | v :: vs =>
    ',' :: (indentation (level + 1) ++ (v.renderLines (level + 1) ++ itemLines level vs))

/-- The lines of the members behind the first one, and of the end of the object. -/
def memberLines (level : Nat) : List (List Char × Value) → List Char
  | [] => indentation level ++ ['\x7d']
  | (k, v) :: ms =>
    ',' :: (indentation (level + 1) ++
      (quoted k ++ ':' :: ' ' :: (v.renderLines (level + 1) ++ memberLines level ms)))

end

end QueryBlend.Json
