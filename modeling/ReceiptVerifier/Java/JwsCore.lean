import ReceiptVerifier.Basic
import ReceiptVerifier.Lib.Utf16

/-!
# The Java port's read of a JWS payload

`JsonFields.java` and `JwsCore.java`: the payload is read as a stream of Jackson tokens, each
top-level member handed to a visitor that updates the cells of a `Payload`. A `String` is its UTF-16
code units, lone surrogates included.
-/

namespace ReceiptVerifier

namespace Java.JwsCore

/-- The code units of a text. -/
def units (text : String) : List UInt16 := Utf16.encode text.toList

/-! ## Jackson's parser -/

/-- `JsonToken`, with the text of a token that has one. -/
inductive Token where
  | startObject
  | endObject
  | startArray
  | endArray
  | fieldName (name : List UInt16)
  | valueString (text : List UInt16)
  | valueNumberInt (text : String)
  | valueNumberFloat (text : String)
  | valueTrue
  | valueFalse
  | valueNull
deriving DecidableEq, Repr

/-- `JsonParser`: the token it is on, `none` before the first and after the last, and those to
come. -/
structure JsonParser where
  current : Option Token
  rest : List Token
deriving DecidableEq, Repr

namespace JsonParser

def nextToken (parser : JsonParser) : JsonParser := ⟨parser.rest.head?, parser.rest.tail⟩

/-- To the end of the objects and arrays that are open. -/
def skipTo : Nat → List Token → JsonParser
  | _, [] => ⟨none, []⟩
  | depth, token :: rest =>
    match token with
    | .startObject | .startArray => skipTo (depth + 1) rest
    | .endObject | .endArray => if depth = 1 then ⟨some token, rest⟩ else skipTo (depth - 1) rest
    | _ => skipTo depth rest

/-- On the start of an object or an array, moves to its end. -/
def skipChildren (parser : JsonParser) : JsonParser :=
  match parser.current with
  | some .startObject | some .startArray => skipTo 1 parser.rest
  | _ => parser

end JsonParser

/-! ## Members -/

/-- `JsonFields.Visitor` over cells `σ`: called on a member's first value token; may consume the
value. -/
abbrev Visitor (σ : Type) := σ → List UInt16 → JsonParser → σ × JsonParser

/-- The loop of `members`, a round a member. -/
def membersLoop {σ : Type} (visitor : Visitor σ) : Nat → σ → JsonParser → σ × JsonParser
  | 0, cells, parser => (cells, parser)
  | fuel + 1, cells, parser =>
    let parser := parser.nextToken
    match parser.current with
    | some (.fieldName name) =>
      let (cells, parser) := visitor cells name parser.nextToken
      membersLoop visitor fuel cells parser.skipChildren
    | _ => (cells, parser)

/-- Hands each member of the object whose opening brace the parser is on to the visitor. Each round
takes a token at least. -/
def members {σ : Type} (visitor : Visitor σ) (cells : σ) (parser : JsonParser) : σ × JsonParser :=
  membersLoop visitor (parser.rest.length + 1) cells parser

/-- `read`: `none` when the first token is not an object. -/
def read {σ : Type} (visitor : Visitor σ) (cells : σ) (parser : JsonParser) :
    Option (σ × JsonParser) :=
  let parser := parser.nextToken
  if parser.current = some .startObject then some (members visitor cells parser) else none

/-- The numbers Jackson reads: `getLongValue`, `none` where it throws, and `getDoubleValue`, cast to
a `long` when it lies within its range. -/
structure Jackson where
  long : String → Option Int
  double : String → Option Int

def instant (jackson : Jackson) (value : Option Token) : Option Int :=
  match value with
  | some (.valueNumberInt text) => jackson.long text
  | some (.valueNumberFloat text) => jackson.double text
  | _ => none

/-! ## The payload -/

/-- One place an `environment` member may be: whether it is there, and its string value. -/
structure Place where
  present : Bool := false
  value : Option (List UInt16) := none
deriving DecidableEq, Repr

/-- The string of a token. -/
def stringOf : Option Token → Option (List UInt16)
  | some (.valueString text) => some text
  | _ => none

/-- The member is here, with the value the parser is on. -/
def Place.state (_place : Place) (parser : JsonParser) : Place :=
  { present := true, value := stringOf parser.current }

/-- Reads a `data` or `summary` member for its `environment`, forgetting an earlier one of the same
name. A value that is not an object holds none. -/
def Place.readContainer (_place : Place) (parser : JsonParser) : Place × JsonParser :=
  if parser.current ≠ some .startObject then ({}, parser)
  else
    members (fun place name parser =>
      (if name = units "environment" then place.state parser else place, parser)) {} parser

/-- What one read of a signed payload yields. -/
structure Payload where
  signedDate : Option Int := none
  receiptCreationDate : Option Int := none
  topLevel : Place := {}
  data : Place := {}
  summary : Place := {}
deriving DecidableEq, Repr

def Payload.chainInstant (payload : Payload) : Option Int :=
  match payload.signedDate with
  | some signedDate => some signedDate
  | none => payload.receiptCreationDate

def jwsEnvironment (value : Option (List UInt16)) : Option Environment :=
  if value = some (units "Production") then some .production
  else if value = some (units "Sandbox") then some .sandbox
  else none

/-- The first of the three places that is present decides, whatever its value. -/
def Payload.environment (payload : Payload) : Option Environment :=
  match [payload.topLevel, payload.data, payload.summary].find? Place.present with
  | some place => jwsEnvironment place.value
  | none => none

/-- The visitor of `readPayload`. -/
def Payload.field (jackson : Jackson) : Visitor Payload := fun payload name parser =>
  if name = units "signedDate" then
    ({ payload with signedDate := instant jackson parser.current }, parser)
  else if name = units "receiptCreationDate" then
    ({ payload with receiptCreationDate := instant jackson parser.current }, parser)
  else if name = units "environment" then
    ({ payload with topLevel := payload.topLevel.state parser }, parser)
  else if name = units "data" then
    let (data, parser) := payload.data.readContainer parser
    ({ payload with data := data }, parser)
  else if name = units "summary" then
    let (summary, parser) := payload.summary.readContainer parser
    ({ payload with summary := summary }, parser)
  else (payload, parser)

/-- Reads the tokens of a payload as one object with nothing after it. -/
def readPayload (jackson : Jackson) (tokens : List Token) : Option Payload :=
  match read (Payload.field jackson) {} ⟨none, tokens⟩ with
  | none => none
  | some (payload, parser) =>
    if parser.nextToken.current = none then some payload else none

end Java.JwsCore

end ReceiptVerifier
