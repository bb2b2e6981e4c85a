import ReceiptVerifier.Roots

/-!
# The server's roots

`rust/server/src/roots.rs`: the roots configuration, read once at start, handed to every instance's
`init`, and reported as fingerprints. A root that is PEM is unwrapped here to the DER of its
certificates.
-/

namespace ReceiptVerifier

namespace Server

/-- The crates the server reads and writes roots with. -/
structure Crates where
  base64 : Base64
  json : SerdeJson
  /-- `pem::parse`: the tag and the contents of a block, or the text of the error. -/
  pemParse : String → Except String (String × Bytes)
  /-- A string in its `Debug` form. -/
  debug : String → String
  /-- SHA-256. -/
  sha256 : Bytes → Bytes

/-! ## Lines -/

/-- The loop of `str::lines`: what of the line has been read, in reverse, and the lines that follow.
A line ends at `\n`, or `\r\n`; the last one need not. -/
def linesFrom : List Char → List Char → List (List Char)
  | [], [] => []
  | [], line => [line.reverse]
  | c :: rest, line =>
    if c == '\n' then
      (match line with
        | '\r' :: line => line.reverse
        | line => line.reverse) :: linesFrom rest []
    else linesFrom rest (c :: line)

/-- `str::lines`, each trimmed. -/
def trimmedLines (text : String) : List (List Char) := (linesFrom text.toList []).map trim

def dashes : List Char := ['-', '-', '-', '-', '-']

/-- `-----BEGIN ` at the start of a line. -/
def beginLine : List Char := "-----BEGIN ".toList

/-- Five dashes, a label with no dash in it, and five dashes. -/
def isDelimiter (line : List Char) : Bool :=
  dashes.isPrefixOf line && dashes.isSuffixOf (line.drop 5) &&
    let label := (line.drop 5).take (line.length - 10)
    !label.isEmpty && !label.contains '-'

/-! ## PEM blocks and base64 lines -/

variable (crates : Crates)

/-- One PEM block's DER, if the block is a `CERTIFICATE`. -/
def certificate (block : String) : Except String Bytes :=
  match crates.pemParse block with
  | .error err => .error err
  | .ok (tag, contents) =>
    if tag != "CERTIFICATE" then .error ("only CERTIFICATE PEM blocks are read, not " ++ tag)
    else if contents.isEmpty then .error "empty"
    else .ok contents

def decode (text : String) : Except String Bytes :=
  match crates.base64.decodeStandard (utf8 text) with
  | .error err => .error ("not standard base64: " ++ err)
  | .ok bytes => if bytes.isEmpty then .error "empty" else .ok bytes

/-- A message about line `n`, counted from 0. -/
def atLine (n : Nat) (message : String) : String := "line " ++ toString (n + 1) ++ ": " ++ message

/-- The loop of `read_text` over the lines from number `n`, with the block that is open. `entry`
reads a line outside the blocks, when `lines` is set. -/
def readLines (lines : Bool) (entry : String → Except String (List Bytes)) :
    List (List Char) → Nat → Option String → Except String (List Bytes)
  | [], _, none => .ok []
  | [], _, some _ => .error "a PEM block has no END line"
  | line :: rest, n, block =>
    if dashes.isPrefixOf line && !isDelimiter line then
      .error (atLine n ("malformed PEM line " ++ String.ofList line))
    else
      match block with
      | some open' =>
        if line.isEmpty then readLines lines entry rest (n + 1) (some open')
        else if !dashes.isPrefixOf line && line.any isWhitespace then
          .error (atLine n "whitespace inside PEM base64")
        else if dashes.isPrefixOf line then
          match certificate crates (open' ++ String.ofList line ++ "\n") with
          | .error err => .error (atLine n ("PEM block: " ++ err))
          | .ok der => (readLines lines entry rest (n + 1) none).map fun ders => der :: ders
        else readLines lines entry rest (n + 1) (some (open' ++ String.ofList line ++ "\n"))
      | none =>
        if line.isEmpty || lines && line.head? == some '#' then
          readLines lines entry rest (n + 1) none
        else if beginLine.isPrefixOf line then
          readLines lines entry rest (n + 1) (some (String.ofList line ++ "\n"))
        else if dashes.isPrefixOf line then
          .error (atLine n (String.ofList line ++ " outside a PEM block"))
        else if lines then
          match entry (String.ofList line) with
          | .error err => .error (atLine n err)
          | .ok found => (readLines lines entry rest (n + 1) none).map fun ders => found ++ ders
        else .error (atLine n "text outside a PEM block")

/-- PEM bytes: blocks and blank lines only. -/
def readPem (text : String) : Except String (List Bytes) :=
  readLines crates false (fun _ => .ok []) (trimmedLines text) 0 none

/-- One root as the DER `init` will anchor: PEM becomes the DER of each certificate in it, any other
bytes pass as they are. -/
def root (bytes : Bytes) : Except String (List Bytes) :=
  if !startsPem bytes then .ok [bytes]
  else
    match fromUtf8 bytes with
    | none => .error "PEM root: not UTF-8"
    | some text => (readPem crates text).mapError fun err => "PEM root: " ++ err

/-- A base64 line: a root. -/
def readLine (line : String) : Except String (List Bytes) :=
  match decode crates line with
  | .error err => .error err
  | .ok bytes => root crates bytes

/-- A `--roots` file's text: PEM blocks, blank lines, `#` comments and base64 lines. -/
def readText (text : String) : Except String (List Bytes) :=
  readLines crates true (readLine crates) (trimmedLines text) 0 none

/-! ## Roots -/

/-- The roots every instance is initialised with. -/
inductive Roots where
  /-- The three Apple roots built into the module. -/
  | defaults
  | configured (ders : List Bytes)
deriving DecidableEq, Repr

namespace Roots

def fromFileText (text : String) : Except String Roots :=
  match readText crates text with
  | .error err => .error err
  | .ok ders =>
    if ders.isEmpty then
      .error "the roots file holds no root; omit --roots for the built-in Apple roots"
    else .ok (.configured ders)

/-- One `--roots` file. -/
def fromFile (bytes : Bytes) : Except String Roots :=
  match bytes.head? with
  | none => .error "the file is empty; omit --roots for the built-in Apple roots"
  | some first =>
    if first == 0x30 then .ok (.configured [bytes])
    else
      match fromUtf8 bytes with
      | none => .error "neither a DER certificate (first byte 0x30) nor UTF-8 text"
      | some text => fromFileText crates text

/-- The roots of the files, in order. A file always configures roots. -/
def readFiles : List (String × Bytes) → Except String (List Bytes)
  | [] => .ok []
  | (name, bytes) :: files =>
    match fromFile crates bytes with
    | .error err => .error ("--roots " ++ name ++ ": " ++ err)
    | .ok .defaults => readFiles files
    | .ok (.configured ders) => (readFiles files).map fun rest => ders ++ rest

def fromFiles (files : List (String × Bytes)) : Except String Roots :=
  match readFiles crates files with
  | .error err => .error err
  | .ok ders => .ok (if ders.isEmpty then .defaults else .configured ders)

/-- One entry of a managed roots line, at its index. -/
def readEntry (index : Nat) (entry : JsonValue) : Except String (List Bytes) :=
  match entry with
  | .string text =>
    (readLine crates text).mapError fun err => "roots[" ++ toString index ++ "]: " ++ err
  | _ => .error ("roots[" ++ toString index ++ "] is not a string")

def readEntries : Nat → List JsonValue → Except String (List Bytes)
  | _, [] => .ok []
  | index, entry :: entries =>
    match readEntry crates index entry with
    | .error err => .error err
    | .ok ders => (readEntries (index + 1) entries).map fun rest => ders ++ rest

/-- The managed child's roots line, in the shape of `init`'s configuration. -/
def fromConfigJson (text : String) : Except String Roots :=
  match crates.json.value text with
  | .error err => .error ("roots line is not JSON: " ++ err)
  | .ok (.object members) =>
    match members.find? fun member => member.1 != "roots" with
    | some (name, _) => .error ("roots line has an unknown member " ++ crates.debug name)
    | none =>
      match members.lookup "roots" with
      | none => .ok .defaults
      | some (.array []) =>
        .error "roots is an empty list; send \x7b\x7d for the built-in Apple roots"
      | some (.array entries) =>
        match readEntries crates 0 entries with
        | .error err => .error err
        | .ok ders => .ok (.configured ders)
      | some _ => .error "roots is not an array"
  | .ok _ => .error "roots line is not a JSON object"

/-- `init`'s argument. -/
def configJson : Roots → Bytes
  | .defaults => utf8 "\x7b\x7d"
  | .configured ders =>
    utf8 (JsonValue.object [("roots",
      .array (ders.map fun der => .string (crates.base64.encode der)))]).display

/-- SHA-256 in lower-case hexadecimal. -/
def sha256Hex (bytes : Bytes) : String :=
  String.ofList ((crates.sha256 bytes).flatMap fun byte =>
    [hexDigit (byte.toNat / 16), hexDigit (byte.toNat % 16)])

/-- SHA-256 of the DER of the three Apple roots the module has built in. -/
def defaultRootSha256 : List String :=
  ["b0b1730ecbc7ff4505142c49f1295e6eda6bcaed7e2c68c5be91b5a11001f024",
    "c2b9b042dd57830e7d117dac55ac8ae19407d38e41d88f3215bc3a890444a050",
    "63343abfb89a6a03ebb57e9b3f5fa7be7c4f5c756f3017b3a8c488c3653e9179"]

/-- SHA-256 of each root `init` anchors, over its DER. -/
def fingerprints : Roots → List String
  | .defaults => defaultRootSha256
  | .configured ders => ders.map (sha256Hex crates)

end Roots

end Server

end ReceiptVerifier
