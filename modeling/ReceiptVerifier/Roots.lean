import ReceiptVerifier.Json
import ReceiptVerifier.Receipt

/-!
# Trust anchors

`TrustAnchor::from_der_or_pem` of `rust/src/roots.rs`, and what the module's `init` makes of a
configuration: `read_init_config` of `rust/bindings/wire/src/lib.rs` and `Verifier::new` of
`rust/bindings/surface/src/lib.rs`.
-/

namespace ReceiptVerifier

open Openssl

/-! ## One root -/

def notACertificate : String :=
  "trust anchor is not a certificate: OpenSSL does not read it as one X.509 certificate"

/-- `u8::is_ascii_whitespace`. -/
def isAsciiWhitespace (byte : UInt8) : Bool :=
  byte == 0x20 || byte == 0x09 || byte == 0x0a || byte == 0x0c || byte == 0x0d

/-- `-----BEGIN`. -/
def pemBegin : Bytes := [0x2d, 0x2d, 0x2d, 0x2d, 0x2d, 0x42, 0x45, 0x47, 0x49, 0x4e]

/-- `bytes.trim_ascii_start().starts_with(b"-----BEGIN")`. -/
def startsPem (bytes : Bytes) : Bool := pemBegin.isPrefixOf (bytes.dropWhile isAsciiWhitespace)

namespace TrustAnchor

variable (ssl : OpenSsl)

/-- One whole certificate that a strict reader decodes. -/
def fromDer (der : Bytes) : Except String TrustAnchor :=
  match Certificate.fromDer ssl der with
  | some certificate =>
    if certificate.isReadable ssl then .ok { der := der, certificate := certificate }
    else .error notACertificate
  | none => .error notACertificate

/-- Every certificate OpenSSL's PEM reader finds, through the DER it encodes for it. -/
def allFromPem (pem : Bytes) : Except String (List TrustAnchor) :=
  match Certificate.allFromPem ssl pem with
  | none => .error notACertificate
  | some certificates => certificates.mapM fun certificate => fromDer ssl certificate.der

/-- DER or PEM, told apart by the bytes. -/
def fromDerOrPem (bytes : Bytes) : Except String (List TrustAnchor) :=
  if bytes.head? == some 0x30 then
    match fromDer ssl bytes with
    | .ok anchor => .ok [anchor]
    | .error detail => .error detail
  else if startsPem bytes then
    match allFromPem ssl bytes with
    | .error detail => .error detail
    | .ok anchors => if !anchors.isEmpty then .ok anchors else .error notACertificate
  else .error notACertificate

end TrustAnchor

/-! ## The module's configuration -/

variable (ssl : OpenSsl) (base64 : Base64) (json : SerdeJson)

/-- A struct's derived reader refuses a member named twice. -/
def once (text name : String) : Bool :=
  ((json.wholeObject text).getD []).countP (fun member => member.1 == name) ≤ 1

/-- One entry of `roots`, at its index. -/
def readRoot (index : Nat) (entry : JsonValue) : Except String Bytes :=
  match entry with
  | .string text =>
    match decodeReceiptBase64 base64 (utf8 text) with
    | none => .error ("roots[" ++ toString index ++ "] is not padded standard base64")
    | some bytes => .ok bytes
  | _ => .error ("roots[" ++ toString index ++ "] is not a string")

def readRoots : Nat → List JsonValue → Except String (List Bytes)
  | _, [] => .ok []
  | index, entry :: entries =>
    match readRoot base64 index entry with
    | .error message => .error message
    | .ok bytes =>
      match readRoots (index + 1) entries with
      | .error message => .error message
      | .ok rest => .ok (bytes :: rest)

/-- The bytes of the roots a configuration names; none for the built-in ones. -/
def readInitConfig (config : Bytes) : Except String (List Bytes) :=
  match fromUtf8 config with
  | none => .error "the configuration is not UTF-8"
  | some text =>
    if text.toList.all fun c => c == ' ' || c == '\t' || c == '\n' || c == '\r' then .ok []
    else
      match json.value text with
      | .error _ => .error "the configuration is not JSON"
      | .ok (.object members) =>
        if !once json text "roots" then .error "the configuration names \"roots\" more than once"
        else if members.any fun member => member.1 != "roots" then
          .error "the configuration has a member other than \"roots\""
        else
          match members.lookup "roots" with
          | none => .ok []
          | some (.array []) => .error "roots must not be empty"
          | some (.array entries) => readRoots base64 0 entries
          | some _ => .error "roots is not a list"
      | .ok _ => .error "the configuration is not a JSON object"

/-- The anchors of some roots, in order; the index is for the message. -/
def readAnchors : Nat → List Bytes → Except String (List TrustAnchor)
  | _, [] => .ok []
  | index, root :: roots =>
    match TrustAnchor.fromDerOrPem ssl root with
    | .error detail => .error ("roots[" ++ toString index ++ "]: " ++ detail)
    | .ok anchors =>
      match readAnchors (index + 1) roots with
      | .error message => .error message
      | .ok rest => .ok (anchors ++ rest)

/-- The anchors a verifier is made with: those of its roots, or Apple's when there are none. -/
def newVerifier (appleRoots : List TrustAnchor) (roots : List Bytes) :
    Except String (List TrustAnchor) :=
  match if roots.isEmpty then .ok appleRoots else readAnchors ssl 0 roots with
  | .error message => .error message
  | .ok anchors =>
    if anchors.isEmpty then .error "the bundled Apple roots did not load" else .ok anchors

/-- `init`: the anchors of the verifier it makes, or why the configuration is refused. -/
def initModule (appleRoots : List TrustAnchor) (config : Bytes) :
    Except String (List TrustAnchor) :=
  match readInitConfig base64 json config with
  | .error message => .error message
  | .ok roots => newVerifier ssl appleRoots roots

end ReceiptVerifier
