import QueryBlend.Json.Token
/-!
# JSON documents, as far as they can be read

A document keeps everything in front of the place where its text goes wrong. So who reads values out of
a document in the order of the text comes upon the first thing that is wrong with it, whether that is
the shape of a value or the text itself.

The document is built by a machine that takes one token at a time and keeps the lists and objects that
are still open.

Results:
* `build_go`: a token that does not end the document leads on to the next one.
-/
namespace QueryBlend.Json

/-- A document, or as much of it as its text holds. A list or an object comes with the trouble that it
broke off with, if it was not closed. The member of an object stands under the token that was found
where its name should be. -/
inductive Doc where
  | null
  | bool (b : Bool)
  | number (n : Number)
  | text (t : List Char)
  | unpaired
  | list (items : List Doc) (stop : Option Trouble)
  | object (members : List (Token × Doc)) (stop : Option Trouble)
  /-- No value: the trouble for one who wants it, for one who wants it to be a choice, which is a text or
  an object, and for one who passes over it. -/
  | missing (wanted chosen skipped : Trouble)

/-- No value, with the same trouble for everybody. -/
def Doc.nothing (t : Trouble) : Doc := .missing t t t

/-! ## Passing over values -/

/-- The trouble in passing over what stands where a name should be. What does not start as a text is
no name, even if the document ends within it. -/
def Token.nameTrouble? : Token → Option Trouble
  | .text _ => none
  | .unpaired => none
  | .brokenText _ skipped => some skipped
  | .endOfText => some .endsInside
  | _ => some .notJson

mutual

/-- The trouble that one who passes over the document comes upon. -/
def Doc.skip? : Doc → Option Trouble
  | .list items stop => (skipItems? items).or stop
  | .object members stop => (skipMembers? members).or stop
  | .missing _ _ skipped => some skipped
  | _ => none

/-- The trouble that one who passes over documents comes upon. -/
def skipItems? : List Doc → Option Trouble
  | [] => none
  | d :: ds => (Doc.skip? d).or (skipItems? ds)

/-- The trouble that one who passes over members comes upon. -/
def skipMembers? : List (Token × Doc) → Option Trouble
  | [] => none
  | (k, d) :: ms => ((Token.nameTrouble? k).or (Doc.skip? d)).or (skipMembers? ms)

end

/-! ## Building documents -/

/-- A list or an object that waits for a value: what it holds, the last one first, and for an object
the name of the value. -/
inductive Frame where
  | list (items : List Doc)
  | object (members : List (Token × Doc)) (name : Token)

/-- What comes next. Contents read so far stand with the last one first. -/
inductive Spot where
  | value
  /-- The first value of a list, or its end. -/
  | firstItem
  /-- What follows a value of a list. -/
  | afterItem (items : List Doc)
  /-- The first name of an object, or its end. -/
  | firstName
  | name (members : List (Token × Doc))
  | colon (members : List (Token × Doc)) (name : Token)
  /-- What follows a value of an object. -/
  | afterMember (members : List (Token × Doc))

inductive Step where
  | go (spot : Spot) (frames : List Frame)
  | stop (d : Doc)
  | done (d : Doc)

/-- The document whose innermost part, broken off, is `d`. -/
def breakOff (d : Doc) : List Frame → Doc
  | [] => d
  | .list items :: frames => breakOff (.list (d :: items).reverse (some .notJson)) frames
  | .object members name :: frames =>
    breakOff (.object ((name, d) :: members).reverse (some .notJson)) frames

/-- What follows a complete value. -/
def give (d : Doc) : List Frame → Step
  | [] => .done d
  | .list items :: frames => .go (.afterItem (d :: items)) frames
  | .object members name :: frames => .go (.afterMember ((name, d) :: members)) frames

/-- A token where a value is due. -/
def takeValue (frames : List Frame) : Token → Step
  | .null => give .null frames
  | .bool b => give (.bool b) frames
  | .number n => give (.number n) frames
  | .text t => give (.text t) frames
  | .unpaired => give .unpaired frames
  | .openList => .go .firstItem frames
  | .openObject => .go .firstName frames
  | .broken wanted skipped => .stop (breakOff (.missing wanted .notJson skipped) frames)
  | .brokenText wanted skipped => .stop (breakOff (.missing wanted wanted skipped) frames)
  | .endOfText => .stop (breakOff (.nothing .endsInside) frames)
  | _ => .stop (breakOff (.nothing .notJson) frames)

/-- The trouble with a token where a mark is due. -/
def markTrouble : Token → Trouble
  | .endOfText => .endsInside
  | _ => .notJson

/-- A token where a name is due. -/
def takeName (members : List (Token × Doc)) (frames : List Frame) (t : Token) : Step :=
  match t with
  | .text _ => .go (.colon members t) frames
  | .unpaired => .go (.colon members t) frames
  | _ => .stop (breakOff (.nothing .notJson) (.object members t :: frames))

def step (frames : List Frame) (t : Token) : Spot → Step
  | .value => takeValue frames t
  | .firstItem =>
    match t with
    | .closeList => give (.list [] none) frames
    | .endOfText => .stop (breakOff (.list [] (some .endsInside)) frames)
    | t => takeValue (.list [] :: frames) t
  | .afterItem items =>
    match t with
    | .comma => .go .value (.list items :: frames)
    | .closeList => give (.list items.reverse none) frames
    | t => .stop (breakOff (.list items.reverse (some (markTrouble t))) frames)
  | .firstName =>
    match t with
    | .closeObject => give (.object [] none) frames
    | .endOfText => .stop (breakOff (.object [] (some .endsInside)) frames)
    | t => takeName [] frames t
  | .name members => takeName members frames t
  | .colon members name =>
    match t with
    | .colon => .go .value (.object members name :: frames)
    | t => .stop (breakOff (.nothing (markTrouble t)) (.object members name :: frames))
  | .afterMember members =>
    match t with
    | .comma => .go (.name members) frames
    | .closeObject => give (.object members.reverse none) frames
    | t => .stop (breakOff (.object members.reverse (some (markTrouble t))) frames)

/-- The document of a list of tokens, and whether more than the end of the text follows it. -/
def build (spot : Spot) (frames : List Frame) : List Token → Doc × Bool
  | [] => (breakOff (.nothing .endsInside) frames, false)
  | t :: ts =>
    match step frames t spot with
    | .go spot frames => build spot frames ts
    | .stop d => (d, false)
    | .done d => (d, ts != [.endOfText])

/-- The document of a text, and whether more than blanks follows it. -/
def document (s : List Char) : Doc × Bool := build .value [] (tokens s)

theorem build_go {spot spot' : Spot} {frames frames' : List Frame} {t : Token}
    (h : step frames t spot = .go spot' frames') (ts : List Token) :
    build spot frames (t :: ts) = build spot' frames' ts := by
  simp [build, h]

end QueryBlend.Json
