import QueryBlend.Json.Document
import QueryBlend.Json.Magnitude
import QueryBlend.Text.Unprintable
import QueryBlend.Text.Basic
import QueryBlend.Dict
/-!
# Reading values out of documents

Readers take values out of a document in the order of its text and end with the first problem. A record
is read from an object, whose members may come in any order, may stand there once, and are passed over
if they belong to no field; or from a list of its fields in their order.

Results:
* `readString_text`, `readFlag_bool`, `readOptional_text`: a value of the right shape is read.
-/
namespace QueryBlend.Json
open Text

inductive Problem where
  | trouble (t : Trouble)
  /-- A value of another shape: what it is, and what is wanted. -/
  | invalidType (given wanted : List Char)
  /-- A list too short for a record: its length, and what is wanted. -/
  | invalidLength (length : Nat) (wanted : List Char)
  | missingField (name : List Char)
  | duplicateField (name : List Char)
  | unknownVariant (given : List Char) (wanted : List (List Char))
  deriving DecidableEq, Repr

/-! ## Wording -/

def ticked (name : List Char) : List Char := '\x60' :: (name ++ ['\x60'])

/-- A choice of names. -/
def choiceOf : List (List Char) → List Char
  | [] => "there are no variants".toList
  | [a] => "expected ".toList ++ ticked a
  | [a, b] => "expected ".toList ++ ticked a ++ " or ".toList ++ ticked b
  | names => "expected one of ".toList ++ joinWith ", ".toList (names.map ticked)

def Trouble.message : Trouble → List Char
  | .endsInside => "the text ends inside a value".toList
  | .notJson => "the text is not JSON".toList

def Problem.message : Problem → List Char
  | .trouble t => t.message
  | .invalidType given wanted =>
    "invalid type: ".toList ++ given ++ ", expected ".toList ++ wanted
  | .invalidLength n wanted =>
    "invalid length ".toList ++ Nat.toDigits 10 n ++ ", expected ".toList ++ wanted
  | .missingField name => "missing field ".toList ++ ticked name
  | .duplicateField name => "duplicate field ".toList ++ ticked name
  | .unknownVariant given wanted =>
    "unknown variant ".toList ++ ticked given ++ ", ".toList ++ choiceOf wanted

/-- A character of a text that is shown between double quotes. -/
def shown (c : Char) : List Char :=
  if c = '\x00' then ['\\', '0']
  else if c = '\t' then ['\\', 't']
  else if c = '\r' then ['\\', 'r']
  else if c = '\n' then ['\\', 'n']
  else if c = '"' ∨ c = '\\' then ['\\', c]
  else if c.toNat < 0x20 ∨ c.toNat = 0x7f ∨ shownByCode.has c then
    ['\\', 'u', '\x7b'] ++ Nat.toDigits 16 c.toNat ++ ['\x7d']
  else [c]

/-- A number as it is shown, if it is one. -/
def Number.shown? (n : Number) : Option (List Char) :=
  match n.magnitude with
  | .integer i => some ("integer ".toList ++ ticked (toString i).toList)
  | .fraction f => some ("floating point ".toList ++ ticked (fractionText f))
  | .tooLarge => none

/-- The problem with a value where something else is wanted. -/
def Doc.mismatch (wanted : String) : Doc → Problem
  | .null => .invalidType "null".toList wanted.toList
  | .bool b => .invalidType ("boolean ".toList ++ ticked (toString b).toList) wanted.toList
  | .number n =>
    match n.shown? with
    | some s => .invalidType s wanted.toList
    | none => .trouble .notJson
  | .text t => .invalidType ("string \"".toList ++ t.flatMap shown ++ ['"']) wanted.toList
  | .unpaired => .trouble .notJson
  | .list _ _ => .invalidType "sequence".toList wanted.toList
  | .object _ _ => .invalidType "map".toList wanted.toList
  | .missing t _ _ => .trouble t

/-! ## Simple values -/

def readString : Doc → Except Problem String
  | .text t => .ok (String.ofList t)
  | d => .error (d.mismatch "a string")

def readOptional : Doc → Except Problem (Option String)
  | .null => .ok none
  | d => (readString d).map some

def readFlag : Doc → Except Problem Bool
  | .bool b => .ok b
  | d => .error (d.mismatch "a boolean")

/-- Nothing, if a list or an object was closed. -/
def readEnd : Option Trouble → Except Problem Unit
  | none => .ok ()
  | some t => .error (.trouble t)

def readList {α : Type} (read : Doc → Except Problem α) : Doc → Except Problem (List α)
  | .list items stop => do
    let values ← items.mapM read
    readEnd stop
    return values
  | d => .error (d.mismatch "a sequence")

/-- The name that a token gives. -/
def readName : Token → Except Problem (List Char)
  | .text t => .ok t
  | .brokenText wanted _ => .error (.trouble wanted)
  | .endOfText => .error (.trouble .endsInside)
  | _ => .error (.trouble .notJson)

/-- The members of a dictionary, put into `d` one after the other. -/
def readMembers {α : Type} (read : Doc → Except Problem α) :
    Dict α → List (Token × Doc) → Except Problem (Dict α)
  | d, [] => .ok d
  | d, (k, v) :: ms => do
    let name ← readName k
    let value ← read v
    readMembers read (d.insert (String.ofList name) value) ms

/-- A dictionary; of several members of one name the last one counts. -/
def readDict {α : Type} (read : Doc → Except Problem α) : Doc → Except Problem (Dict α)
  | .object members stop => do
    let d ← readMembers read {} members
    readEnd stop
    return d
  | d => .error (d.mismatch "a map")

/-! ## Choices -/

def readVariant {α : Type} (names : List String) (ofName? : String → Option α) (t : List Char) :
    Except Problem α :=
  match ofName? (String.ofList t) with
  | some v => .ok v
  | none => .error (.unknownVariant t (names.map String.toList))

/-- One of several names, as a text or as the only member of an object, with null as its value. -/
def readChoice {α : Type} (names : List String) (ofName? : String → Option α) :
    Doc → Except Problem α
  | .text t => readVariant names ofName? t
  | .object [] stop => .error (.trouble (stop.getD .notJson))
  | .object ((k, v) :: rest) stop => do
    let name ← readName k
    let value ← readVariant names ofName? name
    match v with
    | .null => if rest.isEmpty then readEnd stop else .error (.trouble .notJson)
    | v => .error (v.mismatch "unit")
    return value
  | .missing _ chosen _ => .error (.trouble chosen)
  | _ => .error (.trouble .notJson)

/-! ## Records -/

/-- How records of a type are read: their name and their fields, each with whether it may be left out;
how the value of a field is put into what has been read so far; and how that is made a record. -/
structure Schema (δ α : Type) where
  name : String
  fields : List (String × Bool)
  start : δ
  put : δ → String → Doc → Except Problem δ
  finish : δ → Except Problem α

namespace Schema

variable {δ α : Type} (s : Schema δ α)

/-- The members of an object, put into `draft` one after the other; `seen` are the fields read so
far. -/
def readObject (seen : List String) (draft : δ) : List (Token × Doc) → Except Problem δ
  | [] => .ok draft
  | (k, v) :: ms => do
    let name ← readName k
    let field := String.ofList name
    if s.fields.any fun f => f.1 == field then
      if field ∈ seen then throw (.duplicateField name)
      let draft ← s.put draft field v
      readObject (field :: seen) draft ms
    else
      match v.skip? with
      | some t => throw (.trouble t)
      | none => readObject seen draft ms

/-- What a list for a record should be. -/
def listWording : String :=
  "struct " ++ s.name ++ " with " ++ toString s.fields.length ++
    (if s.fields.length = 1 then " element" else " elements")

/-- The values of a list, put into `draft` for the fields in their order, of which `index` have been
read. -/
def readFields (stop : Option Trouble) (index : Nat) (draft : δ) :
    List (String × Bool) → List Doc → Except Problem δ
  | [], [] => (readEnd stop).map fun _ => draft
  | [], _ :: _ => .error (.trouble .notJson)
  | f :: fs, [] =>
    match stop with
    | some t => .error (.trouble t)
    | none =>
      if f.2 then readFields stop (index + 1) draft fs []
      else .error (.invalidLength index s.listWording.toList)
  | f :: fs, v :: vs => do
    let draft ← s.put draft f.1 v
    readFields stop (index + 1) draft fs vs

def read : Doc → Except Problem α
  | .object members stop => do
    let draft ← s.readObject [] s.start members
    readEnd stop
    s.finish draft
  | .list items stop => do
    let draft ← s.readFields stop 0 s.start s.fields items
    s.finish draft
  | d => .error (d.mismatch ("struct " ++ s.name))

end Schema

/-- The value of a field that must be there. -/
def required {α : Type} (name : String) : Option α → Except Problem α
  | some v => .ok v
  | none => .error (.missingField name.toList)

/-- The value in a text that holds nothing else. -/
def readDocument {α : Type} (read : Doc → Except Problem α) (s : List Char) : Except Problem α := do
  let (d, more) := document s
  let value ← read d
  if more then throw (.trouble .notJson)
  return value

theorem readString_text (t : List Char) : readString (.text t) = .ok (String.ofList t) := rfl

theorem readFlag_bool (b : Bool) : readFlag (.bool b) = .ok b := rfl

theorem readOptional_text (t : List Char) : readOptional (.text t) = .ok (some (String.ofList t)) :=
  rfl

end QueryBlend.Json
