import Mathlib.Data.Set.Function
import ReceiptVerifier.Verify.Anchors
import ReceiptVerifier.Verify.Wire

/-!
# What a verified JWS is, and how else it may be written

A compact JWS is answered with its payload exactly when it is three segments in canonical base64url,
under a header that names ES256 and three certificates, signed by a leaf that a pinned root vouched
for at the payload's own date. The texts that verify with the same header and payload are as many as
the signatures the leaf's key takes for them: nothing else of a text can be changed.
-/

namespace ReceiptVerifier

open Openssl

variable {ssl : OpenSsl} {base64 : Base64} {json : SerdeJson}

/-! ## Segments -/

theorem not_mem_of_mem_splitOn {α : Type} [DecidableEq α] {a : α} {l segment : List α}
    (mem : segment ∈ l.splitOn a) : a ∉ segment := by
  induction l generalizing segment with
  | nil =>
    rw [List.splitOn_nil, List.mem_singleton] at mem
    rw [mem]
    exact List.not_mem_nil
  | cons b l ih =>
    rw [List.splitOn_cons_eq_if_modifyHead] at mem
    split at mem
    · rcases List.mem_cons.mp mem with rfl | mem
      · exact List.not_mem_nil
      · exact ih mem
    next differs =>
      cases rest : l.splitOn a with
      | nil => exact absurd rest (List.splitOn_ne_nil a l)
      | cons first others =>
        rw [rest] at mem ih
        rcases List.mem_cons.mp mem with rfl | mem
        · rw [List.mem_cons, not_or]
          exact ⟨fun same => differs (by simp [same]), ih List.mem_cons_self⟩
        · exact ih (List.mem_cons_of_mem _ mem)

/-- Three segments without a dot. -/
structure Compact where
  header : Bytes
  payload : Bytes
  signature : Bytes
  header_undotted : 0x2e ∉ header
  payload_undotted : 0x2e ∉ payload
  signature_undotted : 0x2e ∉ signature

namespace Compact

/-- What the signature is over. -/
def signingInput (c : Compact) : Bytes := c.header ++ [0x2e] ++ c.payload

def text (c : Compact) : Bytes := c.signingInput ++ [0x2e] ++ c.signature

theorem splitOn_text (c : Compact) : c.text.splitOn 0x2e = [c.header, c.payload, c.signature] := by
  have joined : c.text = [0x2e].intercalate [c.header, c.payload, c.signature] := by
    simp [text, signingInput, List.intercalate]
  rw [joined]
  refine List.splitOn_intercalate _ ?_ (List.cons_ne_nil _ _)
  simp only [List.forall_mem_cons, List.not_mem_nil, false_implies, implies_true, and_true]
  exact ⟨c.header_undotted, c.payload_undotted, c.signature_undotted⟩

theorem of_splitOn {jws header payload signature : Bytes}
    (split : jws.splitOn 0x2e = [header, payload, signature]) :
    ∃ c : Compact, c.text = jws ∧ c.header = header ∧ c.payload = payload ∧
      c.signature = signature := by
  have undotted : ∀ segment ∈ [header, payload, signature], 0x2e ∉ segment := by
    rw [← split]
    exact fun segment => not_mem_of_mem_splitOn
  simp only [List.forall_mem_cons, List.not_mem_nil, false_implies, implies_true,
    and_true] at undotted
  refine ⟨⟨header, payload, signature, undotted.1, undotted.2.1, undotted.2.2⟩, ?_, rfl, rfl, rfl⟩
  have joined : [0x2e].intercalate (jws.splitOn 0x2e) = jws := List.intercalate_splitOn 0x2e
  rw [← joined, split]
  simp [text, signingInput, List.intercalate]

end Compact

/-! ## The outer structure -/

theorem segment_ok_iff {text bytes : Bytes} {what : String} :
    segment base64 text what = .ok bytes ↔ base64.decodeUrl text = some bytes := by
  unfold segment decodeBase64urlStrict
  cases base64.decodeUrl text <;> simp

/-- An `x5c` entry that is a certificate, one a strict reader decodes. -/
def IsEntry (ssl : OpenSsl) (base64 : Base64) (entry : String) (certificate : Certificate) : Prop :=
  ∃ der, decodeReceiptBase64 base64 (utf8 entry) = some der ∧
    Certificate.fromDer ssl der = some certificate ∧ certificate.isReadable ssl = true

theorem parseX5cCertificate_ok_iff {entry : String} {certificate : Certificate} :
    parseX5cCertificate ssl base64 entry = .ok certificate ↔
      IsEntry ssl base64 entry certificate := by
  unfold parseX5cCertificate decodeX5cEntry IsEntry
  cases decodeReceiptBase64 base64 (utf8 entry) with
  | none => simp
  | some der =>
    simp only [Option.some.injEq, exists_eq_left']
    cases parsed : (Certificate.fromDer ssl der).filter
        fun certificate => certificate.isReadable ssl with
    | none =>
      rw [Option.filter_eq_none_iff] at parsed
      simp only [reduceCtorEq, false_iff, not_and]
      exact fun found => by simpa using parsed certificate found
    | some found =>
      rw [Option.filter_eq_some_iff] at parsed
      simp only [Except.ok.injEq]
      constructor
      · rintro rfl
        exact parsed
      · rintro ⟨same, -⟩
        rw [parsed.1] at same
        exact Option.some.inj same

/-- A header that is a JSON object whose last `alg` is ES256 and whose last `x5c` is three
certificates. -/
def NamesPair (ssl : OpenSsl) (base64 : Base64) (json : SerdeJson) (header : Bytes)
    (leaf intermediate : Certificate) : Prop :=
  ∃ text members leafEntry intermediateEntry rootEntry root,
    fromUtf8 header = some text ∧ wholeObjectMembers json text = some members ∧
    string json members "alg" = some "ES256" ∧
    strings json members "x5c" = some [leafEntry, intermediateEntry, rootEntry] ∧
    IsEntry ssl base64 leafEntry leaf ∧ IsEntry ssl base64 intermediateEntry intermediate ∧
    IsEntry ssl base64 rootEntry root

theorem readHeader_ok_iff {bytes : Bytes} {alg : Option String} {x5c : Option (List String)} :
    readHeader json bytes = .ok (alg, x5c) ↔
      ∃ text members, fromUtf8 bytes = some text ∧ wholeObjectMembers json text = some members ∧
        string json members "alg" = alg ∧ strings json members "x5c" = x5c := by
  unfold readHeader
  cases fromUtf8 bytes with
  | none => simp
  | some text =>
    simp only [Option.some.injEq, exists_and_left, exists_eq_left']
    cases wholeObjectMembers json text <;> simp

theorem readShell_ok_iff {header signatureB64 signature : Bytes} {leaf intermediate : Certificate} :
    readShell ssl base64 json header signatureB64 = .ok (signature, leaf, intermediate) ↔
      base64.decodeUrl signatureB64 = some signature ∧
        NamesPair ssl base64 json header leaf intermediate := by
  unfold readShell
  dsimp only [bind]
  rw [bind_eq_ok]
  constructor
  · rintro ⟨decoded, decodes, rest⟩
    obtain ⟨⟨alg, x5c⟩, read, rest⟩ := bind_eq_ok.mp rest
    obtain ⟨text, members, utf, whole, rfl, listed⟩ := readHeader_ok_iff.mp read
    dsimp only at rest
    split at rest
    · cases rest
    next es256 =>
      split at rest
      next leafEntry intermediateEntry rootEntry =>
        obtain ⟨leaf', leafRead, rest⟩ := bind_eq_ok.mp rest
        obtain ⟨intermediate', intermediateRead, rest⟩ := bind_eq_ok.mp rest
        obtain ⟨root, rootRead, rest⟩ := bind_eq_ok.mp rest
        obtain ⟨rfl, rfl, rfl⟩ : decoded = signature ∧ leaf' = leaf ∧
            intermediate' = intermediate := by simpa using rest
        exact ⟨segment_ok_iff.mp decodes, text, members, leafEntry, intermediateEntry, rootEntry,
          root, utf, whole, not_not.mp es256, listed, parseX5cCertificate_ok_iff.mp leafRead,
          parseX5cCertificate_ok_iff.mp intermediateRead, parseX5cCertificate_ok_iff.mp rootRead⟩
      · cases rest
  · rintro ⟨decodes, text, members, leafEntry, intermediateEntry, rootEntry, root, utf, whole,
      es256, listed, leafRead, intermediateRead, rootRead⟩
    refine ⟨signature, segment_ok_iff.mpr decodes, bind_eq_ok.mpr ⟨_,
      readHeader_ok_iff.mpr ⟨text, members, utf, whole, es256, listed⟩, ?_⟩⟩
    dsimp only
    rw [if_neg (not_not.mpr rfl), parseX5cCertificate_ok_iff.mpr leafRead]
    dsimp only [Except.bind]
    rw [parseX5cCertificate_ok_iff.mpr intermediateRead, parseX5cCertificate_ok_iff.mpr rootRead]

/-- A compact JWS in its parts: what its segments decode to, and the certificates it is signed
under. -/
structure SignedText (ssl : OpenSsl) (base64 : Base64) (json : SerdeJson) extends Compact where
  headerBytes : Bytes
  payloadBytes : Bytes
  signatureBytes : Bytes
  leaf : Certificate
  intermediate : Certificate
  header_read : base64.decodeUrl header = some headerBytes
  payload_read : base64.decodeUrl payload = some payloadBytes
  signature_read : base64.decodeUrl signature = some signatureBytes
  names : NamesPair ssl base64 json headerBytes leaf intermediate

namespace SignedText

/-- As the checks after the outer structure take it. -/
def outer (signed : SignedText ssl base64 json) : OuterJws where
  headerB64 := signed.header
  payloadB64 := signed.payload
  signature := signed.signatureBytes
  leaf := signed.leaf
  intermediate := signed.intermediate
  payload := readPayload json signed.payloadBytes

end SignedText

theorem readOuter_ok_iff {jws : Bytes} {outer : OuterJws} :
    readOuter ssl base64 json jws = .ok outer ↔
      jws.length ≤ maxJwsBytes ∧
        ∃ signed : SignedText ssl base64 json, signed.text = jws ∧ signed.outer = outer := by
  constructor
  · intro read
    have shape : jws.length ≤ maxJwsBytes ∧
        ∃ header payload signature, jws.splitOn 0x2e = [header, payload, signature] := by
      unfold readOuter at read
      split at read
      · cases read
      next within =>
        split at read
        next split => exact ⟨Nat.not_lt.mp within, _, _, _, split⟩
        · cases read
    obtain ⟨within, header, payload, signature, split⟩ := shape
    rw [readOuter_of_segments within split, bind_eq_ok] at read
    obtain ⟨headerBytes, headerRead, read⟩ := read
    obtain ⟨payloadBytes, payloadRead, read⟩ := bind_eq_ok.mp read
    obtain ⟨c, rfl, rfl, rfl, rfl⟩ := Compact.of_splitOn split
    cases shell : readShell ssl base64 json headerBytes c.signature with
    | error failure =>
      rw [shell] at read
      cases read
    | ok parts =>
      rw [shell] at read
      cases read
      obtain ⟨signatureRead, names⟩ := readShell_ok_iff.mp shell
      exact ⟨within, { c with
        headerBytes, payloadBytes, signatureBytes := parts.1, leaf := parts.2.1,
        intermediate := parts.2.2, header_read := segment_ok_iff.mp headerRead,
        payload_read := segment_ok_iff.mp payloadRead, signature_read := signatureRead, names },
        rfl, rfl⟩
  · rintro ⟨within, signed, rfl, rfl⟩
    rw [readOuter_of_segments within signed.splitOn_text,
      segment_ok_iff.mpr signed.header_read, bind_eq_ok]
    refine ⟨_, rfl, ?_⟩
    rw [segment_ok_iff.mpr signed.payload_read, bind_eq_ok]
    refine ⟨_, rfl, ?_⟩
    rw [readShell_ok_iff.mpr ⟨signed.signature_read, signed.names⟩]
    rfl

/-! ## Acceptance -/

/-- The pair is vouched for, and OpenSSL's path for it is the pair under an anchor. -/
theorem validatePair_ok_iff_validAt {leaf intermediate : Certificate} {roots : List TrustAnchor}
    {atMillis : Int} :
    (validatePair ssl leaf intermediate roots atMillis).value = .ok () ↔
      PairVouched ssl leaf intermediate roots ∧
        ValidAt ssl leaf [intermediate] roots atMillis [leaf, intermediate] := by
  rw [validatePair_ok_iff]
  refine and_congr_right fun _ => ?_
  rw [← receiptPath_ok_iff_validAt, receiptPath_ok_iff]
  refine and_congr_right fun _ => ?_
  generalize (checkedPath ssl leaf [intermediate] roots atMillis).value.chain = chain
  match chain with
  | [] => simp [isPair]
  | [_] => simp [isPair]
  | [_, _] => simp [isPair]
  | [pathLeaf, pathIntermediate, top] =>
    simp only [isPair, Certificate.sameAs, Bool.and_eq_true, beq_iff_eq, List.dropLast,
      List.cons.injEq, and_true]
    exact and_congr eq_comm eq_comm
  | _ :: _ :: _ :: _ :: _ => simp [isPair]

/-- An ES256 signature under the certificate's key: 64 bytes, and the key on P-256. -/
def Es256 (ssl : OpenSsl) (leaf : Certificate) (signature message : Bytes) : Prop :=
  signature.length = 64 ∧ ∃ key check, ssl.publicKey leaf = some key ∧ ssl.isP256 key = true ∧
    ssl.ecdsa (signature.take 32) (signature.drop 32) = some check ∧ check key message = true

theorem value_verifyEs256_iff {leaf : Certificate} {signature message : Bytes} :
    (verifyEs256 ssl leaf signature message).value = true ↔ Es256 ssl leaf signature message := by
  unfold verifyEs256 Es256
  by_cases size : signature.length = 64
  · simp only [size, ne_eq, not_true_eq_false, ↓reduceIte, true_and]
    cases ssl.publicKey leaf with
    | none => simp
    | some key =>
      cases p256 : ssl.isP256 key with
      | false => simp [p256]
      | true => cases ssl.ecdsa (signature.take 32) (signature.drop 32) <;> simp [p256]
  · simp [size]

namespace SignedText

/-- The chain, the markers and the signature of a signed text, at an instant. -/
structure Verified (signed : SignedText ssl base64 json) (roots : List TrustAnchor)
    (atMillis : Int) : Prop where
  vouched : PairVouched ssl signed.leaf signed.intermediate roots
  valid : ValidAt ssl signed.leaf [signed.intermediate] roots atMillis
    [signed.leaf, signed.intermediate]
  leafMarker : ssl.hasExtension signed.leaf signingLeafOid = true
  wwdrMarker : ssl.hasExtension signed.intermediate wwdrIntermediateOid = true
  signature : Es256 ssl signed.leaf signed.signatureBytes signed.signingInput

/-- The payload is a JSON object in UTF-8, which states a date or none. -/
def ReadsAs (signed : SignedText ssl base64 json) (payload : JsonPayload) (date : Option Int) :
    Prop :=
  ∃ members, fromUtf8 signed.payloadBytes = some payload.json ∧
    wholeObjectMembers json payload.json = some members ∧
    payload.environment = environment json members ∧
    date = (instant json members "signedDate").or (instant json members "receiptCreationDate")

theorem verified_iff {signed : SignedText ssl base64 json} {roots : List TrustAnchor}
    {atMillis : Int} :
    signed.Verified roots atMillis ↔ LeafPasses ssl signed.outer roots atMillis := by
  constructor
  · rintro ⟨vouched, valid, leafMarker, wwdrMarker, signature⟩
    exact ⟨validatePair_ok_iff_validAt.mpr ⟨vouched, valid⟩, leafMarker, wwdrMarker,
      value_verifyEs256_iff.mpr signature⟩
  · rintro ⟨pair, leafMarker, wwdrMarker, signature⟩
    obtain ⟨vouched, valid⟩ := validatePair_ok_iff_validAt.mp pair
    exact ⟨vouched, valid, leafMarker, wwdrMarker, value_verifyEs256_iff.mp signature⟩

/-- The content read before the chain is the one answered after the signature. -/
theorem readsAs_iff {signed : SignedText ssl base64 json} {payload : JsonPayload}
    {date : Option Int} :
    signed.ReadsAs payload date ↔
      signedPayload signed.outer.payload = .ok payload ∧
        signed.outer.payload.toOption.bind ReadPayload.signedDate = date := by
  unfold ReadsAs outer readPayload
  dsimp only
  cases utf : fromUtf8 signed.payloadBytes with
  | none => simp [signedPayload]
  | some text =>
    dsimp only
    cases whole : wholeObjectMembers json text with
    | none =>
      simp only [signedPayload, reduceCtorEq, false_and, iff_false, not_exists]
      rintro members ⟨same, read, -⟩
      rw [← Option.some.inj same, whole] at read
      cases read
    | some members =>
      obtain ⟨own, environment⟩ := payload
      simp only [signedPayload, Except.ok.injEq, JsonPayload.mk.injEq, Except.toOption,
        Option.bind_some, Option.some.injEq]
      constructor
      · rintro ⟨members', rfl, read, rfl, rfl⟩
        obtain rfl := Option.some.inj (whole.symm.trans read)
        exact ⟨⟨rfl, rfl⟩, rfl⟩
      · rintro ⟨⟨rfl, rfl⟩, rfl⟩
        exact ⟨members, rfl, whole, rfl, rfl⟩

end SignedText

theorem signedInstant_of_readOuter {jws : Bytes} {outer : OuterJws} {now : Nat → Option Int}
    (read : readOuter ssl base64 json jws = .ok outer) :
    signedInstant ssl base64 json jws now =
      (outer.payload.toOption.bind ReadPayload.signedDate).or (now 0) := by
  simp only [signedInstant, jwsDate, read]

theorem checkAnchors_ok_iff {roots : List TrustAnchor} :
    Verifier.checkAnchors roots = .ok () ↔ roots ≠ [] := by
  unfold Verifier.checkAnchors
  cases roots <;> simp

/-- A JWS is answered with its payload when every check on it passed and its content reads. -/
theorem value_signedData_ok_iff {roots : List TrustAnchor} {jws : Bytes} {now : Nat → Option Int}
    {payload : JsonPayload} :
    (Verifier.signedData ssl base64 json roots jws now).value.1 = .ok payload ↔
      ∃ outer, JwsPasses ssl base64 json roots jws now outer ∧
        signedPayload outer.payload = .ok payload := by
  rw [value_signedData, bind_eq_ok]
  simp only [jwsPasses_iff, bind_eq_ok]
  constructor
  · rintro ⟨outer, opened, _, passed, content⟩
    exact ⟨outer, ⟨opened, passed⟩, content⟩
  · rintro ⟨outer, ⟨opened, passed⟩, content⟩
    exact ⟨outer, opened, (), passed, content⟩

/-- A signed text is answered with a payload: at the payload's own date, or the clock's when it
states none, it is verified. -/
def SignedText.AnsweredWith (signed : SignedText ssl base64 json) (roots : List TrustAnchor)
    (now : Nat → Option Int) (payload : JsonPayload) : Prop :=
  ∃ date atMillis, signed.ReadsAs payload date ∧ date.or (now 0) = some atMillis ∧
    signed.Verified roots atMillis

theorem answered_iff {roots : List TrustAnchor} {jws : Bytes} {now : Nat → Option Int}
    {payload : JsonPayload} :
    (Verifier.signedData ssl base64 json roots jws now).value.1 = .ok payload ↔
      roots ≠ [] ∧ jws.length ≤ maxJwsBytes ∧
      ∃ signed : SignedText ssl base64 json, signed.text = jws ∧
        signed.AnsweredWith roots now payload := by
  rw [value_signedData_ok_iff]
  constructor
  · rintro ⟨outer, ⟨anchored, opened, atMillis, instant, passes⟩, content⟩
    obtain ⟨within, signed, rfl, rfl⟩ := readOuter_ok_iff.mp opened
    rw [signedInstant_of_readOuter opened] at instant
    exact ⟨checkAnchors_ok_iff.mp anchored, within, signed, rfl, _, atMillis,
      SignedText.readsAs_iff.mpr ⟨content, rfl⟩, instant, SignedText.verified_iff.mpr passes⟩
  · rintro ⟨anchored, within, signed, rfl, date, atMillis, reads, instant, verified⟩
    obtain ⟨content, rfl⟩ := SignedText.readsAs_iff.mp reads
    have opened : readOuter ssl base64 json signed.text = .ok signed.outer :=
      readOuter_ok_iff.mpr ⟨within, signed, rfl, rfl⟩
    refine ⟨signed.outer, ⟨checkAnchors_ok_iff.mpr anchored, opened, atMillis, ?_,
      SignedText.verified_iff.mp verified⟩, content⟩
    rw [signedInstant_of_readOuter opened, instant]

/-- **Exact acceptance of a JWS.** A text is answered with a payload exactly when there is an
anchor, the text is within the cap and three segments in canonical base64url, its header is a JSON
object that names ES256 and three readable certificates, its payload is a JSON object in UTF-8, the
one answered, and at the payload's own date, or the clock's when it states none, the pair is vouched
for and valid under an anchor, with both markers, and the leaf's key on P-256 signed the first two
segments. -/
theorem signedData_accepts_exactly (ssl : OpenSsl) (base64 : Base64) (json : SerdeJson)
    (roots : List TrustAnchor) (jws : Bytes) (now : Nat → Option Int) (payload : JsonPayload) :
    (Verifier.signedData ssl base64 json roots jws now).value.1 = .ok payload ↔
      roots ≠ [] ∧ jws.length ≤ maxJwsBytes ∧
      ∃ header body signature headerBytes bodyBytes signatureBytes,
        jws = header ++ [0x2e] ++ body ++ [0x2e] ++ signature ∧
        (0x2e ∉ header ∧ 0x2e ∉ body ∧ 0x2e ∉ signature) ∧
        base64.decodeUrl header = some headerBytes ∧ base64.decodeUrl body = some bodyBytes ∧
        base64.decodeUrl signature = some signatureBytes ∧
        ∃ leaf intermediate, NamesPair ssl base64 json headerBytes leaf intermediate ∧
          ∃ members, fromUtf8 bodyBytes = some payload.json ∧
            wholeObjectMembers json payload.json = some members ∧
            payload.environment = environment json members ∧
            ∃ atMillis, ((instant json members "signedDate").or
                (instant json members "receiptCreationDate")).or (now 0) = some atMillis ∧
              PairVouched ssl leaf intermediate roots ∧
              ValidAt ssl leaf [intermediate] roots atMillis [leaf, intermediate] ∧
              ssl.hasExtension leaf signingLeafOid = true ∧
              ssl.hasExtension intermediate wwdrIntermediateOid = true ∧
              Es256 ssl leaf signatureBytes (header ++ [0x2e] ++ body) := by
  rw [answered_iff]
  refine and_congr_right fun _ => and_congr_right fun _ => ?_
  constructor
  · rintro ⟨signed, rfl, _, atMillis, ⟨members, utf, whole, environment, rfl⟩, instant, verified⟩
    exact ⟨signed.header, signed.payload, signed.signature, signed.headerBytes,
      signed.payloadBytes, signed.signatureBytes, rfl,
      ⟨signed.header_undotted, signed.payload_undotted, signed.signature_undotted⟩,
      signed.header_read, signed.payload_read, signed.signature_read, signed.leaf,
      signed.intermediate, signed.names, members, utf, whole, environment, atMillis, instant,
      verified.vouched, verified.valid, verified.leafMarker, verified.wwdrMarker,
      verified.signature⟩
  · rintro ⟨header, body, signature, headerBytes, bodyBytes, signatureBytes, rfl,
      ⟨headerUndotted, bodyUndotted, signatureUndotted⟩, headerRead, bodyRead, signatureRead, leaf,
      intermediate, names, members, utf, whole, environment, atMillis, instant, vouched, valid,
      leafMarker, wwdrMarker, holds⟩
    exact ⟨⟨⟨header, body, signature, headerUndotted, bodyUndotted, signatureUndotted⟩, headerBytes,
      bodyBytes, signatureBytes, leaf, intermediate, headerRead, bodyRead, signatureRead, names⟩,
      rfl, _, atMillis, ⟨members, utf, whole, environment, rfl⟩, instant, vouched, valid,
        leafMarker,
      wwdrMarker, holds⟩

/-! ## Spellings -/

/-- The `base64` crate's URL-safe engine without padding: a byte sequence has one text, as long as
its bytes ask for, in an alphabet without a dot. -/
structure CanonicalUrl (base64 : Base64) (encodeUrl : Bytes → Bytes) : Prop where
  decodeUrl_iff : ∀ text bytes, base64.decodeUrl text = some bytes ↔ text = encodeUrl bytes
  undotted : ∀ bytes, 0x2e ∉ encodeUrl bytes
  length : ∀ bytes, (encodeUrl bytes).length = (4 * bytes.length + 2) / 3

theorem CanonicalUrl.injective {encodeUrl : Bytes → Bytes}
    (canonical : CanonicalUrl base64 encodeUrl) : encodeUrl.Injective := by
  intro bytes bytes' same
  have back := (canonical.decodeUrl_iff (encodeUrl bytes) bytes).mpr rfl
  rw [same, (canonical.decodeUrl_iff _ _).mpr rfl] at back
  exact (Option.some.inj back).symm

/-- A header, a payload and a signature, written as a compact JWS. -/
def spelling (encodeUrl : Bytes → Bytes) (header payload signature : Bytes) : Bytes :=
  encodeUrl header ++ [0x2e] ++ encodeUrl payload ++ [0x2e] ++ encodeUrl signature

/-- The texts that carry a header and a payload, whatever their signature, and are answered with a
payload. -/
def acceptedSpellings (ssl : OpenSsl) (base64 : Base64) (json : SerdeJson)
    (roots : List TrustAnchor) (now : Nat → Option Int) (header payload : Bytes) : Set Bytes :=
  {jws | (∃ answer, (Verifier.signedData ssl base64 json roots jws now).value.1 = .ok answer) ∧
    ∃ c : Compact, c.text = jws ∧ base64.decodeUrl c.header = some header ∧
      base64.decodeUrl c.payload = some payload}

/-- Two texts of one JWS have the same segments. -/
theorem Compact.text_inj {c c' : Compact} (same : c.text = c'.text) : c = c' := by
  have split := c.splitOn_text
  rw [same, c'.splitOn_text] at split
  cases c
  cases c'
  simp only [List.cons.injEq, and_true] at split
  obtain ⟨rfl, rfl, rfl⟩ := split
  rfl

theorem IsEntry.unique {entry : String} {c c' : Certificate} (own : IsEntry ssl base64 entry c)
    (other : IsEntry ssl base64 entry c') : c' = c := by
  obtain ⟨der, decoded, parsed, -⟩ := own
  obtain ⟨der', decoded', parsed', -⟩ := other
  obtain rfl := Option.some.inj (decoded.symm.trans decoded')
  exact Option.some.inj (parsed'.symm.trans parsed)

/-- A header names one pair. -/
theorem NamesPair.unique {header : Bytes} {leaf leaf' intermediate intermediate' : Certificate}
    (own : NamesPair ssl base64 json header leaf intermediate)
    (other : NamesPair ssl base64 json header leaf' intermediate') :
    leaf' = leaf ∧ intermediate' = intermediate := by
  obtain ⟨text, members, leafEntry, intermediateEntry, rootEntry, root, utf, whole, -, listed,
    leafRead, intermediateRead, -⟩ := own
  obtain ⟨text', members', leafEntry', intermediateEntry', rootEntry', root', utf', whole', -,
    listed', leafRead', intermediateRead', -⟩ := other
  obtain rfl := Option.some.inj (utf.symm.trans utf')
  obtain rfl := Option.some.inj (whole.symm.trans whole')
  rw [listed] at listed'
  simp only [Option.some.injEq, List.cons.injEq, and_true] at listed'
  obtain ⟨rfl, rfl, rfl⟩ := listed'
  exact ⟨leafRead.unique leafRead', intermediateRead.unique intermediateRead'⟩

namespace SignedText

/-- A text has one reading. -/
theorem eq_of_text {signed signed' : SignedText ssl base64 json}
    (same : signed'.text = signed.text) :
    signed' = signed := by
  have compact : signed'.toCompact = signed.toCompact := Compact.text_inj same
  obtain ⟨c, headerBytes, payloadBytes, signatureBytes, leaf, intermediate, headerRead, payloadRead,
    signatureRead, names⟩ := signed
  obtain ⟨c', headerBytes', payloadBytes', signatureBytes', leaf', intermediate', headerRead',
    payloadRead', signatureRead', names'⟩ := signed'
  dsimp only at compact
  subst compact
  obtain rfl := Option.some.inj (headerRead.symm.trans headerRead')
  obtain rfl := Option.some.inj (payloadRead.symm.trans payloadRead')
  obtain rfl := Option.some.inj (signatureRead.symm.trans signatureRead')
  obtain ⟨rfl, rfl⟩ := names.unique names'
  rfl

/-- The same text under another signature. -/
def withSignature (signed : SignedText ssl base64 json) {encodeUrl : Bytes → Bytes}
    (canonical : CanonicalUrl base64 encodeUrl) (signature : Bytes) :
    SignedText ssl base64 json :=
  { signed with
    signature := encodeUrl signature
    signature_undotted := canonical.undotted signature
    signatureBytes := signature
    signature_read := (canonical.decodeUrl_iff _ _).mpr rfl }

variable {encodeUrl : Bytes → Bytes}

theorem text_eq_spelling (signed : SignedText ssl base64 json)
    (canonical : CanonicalUrl base64 encodeUrl) :
    signed.text =
      spelling encodeUrl signed.headerBytes signed.payloadBytes signed.signatureBytes := by
  rw [Compact.text, Compact.signingInput, spelling,
    (canonical.decodeUrl_iff _ _).mp signed.header_read,
    (canonical.decodeUrl_iff _ _).mp signed.payload_read,
    (canonical.decodeUrl_iff _ _).mp signed.signature_read]

/-- Signatures of one length are written in one length. -/
theorem length_withSignature (signed : SignedText ssl base64 json)
    (canonical : CanonicalUrl base64 encodeUrl) {signature : Bytes}
    (size : signature.length = signed.signatureBytes.length) :
    (signed.withSignature canonical signature).text.length = signed.text.length := by
  have lengths : (encodeUrl signature).length = (encodeUrl signed.signatureBytes).length := by
    rw [canonical.length, canonical.length, size]
  rw [text_eq_spelling _ canonical, text_eq_spelling _ canonical]
  change (spelling encodeUrl signed.headerBytes signed.payloadBytes signature).length = _
  simp only [spelling, List.length_append, lengths]

/-- Another signature that the leaf's key takes verifies too. -/
theorem Verified.withSignature {signed : SignedText ssl base64 json} {roots : List TrustAnchor}
    {atMillis : Int} (verified : signed.Verified roots atMillis)
    (canonical : CanonicalUrl base64 encodeUrl) {signature : Bytes}
    (holds : Es256 ssl signed.leaf signature signed.signingInput) :
    (signed.withSignature canonical signature).Verified roots atMillis :=
  { verified with signature := holds }

end SignedText

section

variable {encodeUrl : Bytes → Bytes} {roots : List TrustAnchor} {now : Nat → Option Int}
  {payload : JsonPayload} {signed : SignedText ssl base64 json}

/-- Under another signature that the leaf's key takes, the answer is the same. -/
theorem accepted_withSignature (canonical : CanonicalUrl base64 encodeUrl)
    (accepted : (Verifier.signedData ssl base64 json roots signed.text now).value.1 = .ok payload)
    {signature : Bytes} (holds : Es256 ssl signed.leaf signature signed.signingInput) :
    (Verifier.signedData ssl base64 json roots (signed.withSignature canonical signature).text
      now).value.1 = .ok payload := by
  obtain ⟨anchored, within, signed', same, date, atMillis, reads, instant, verified⟩ :=
    answered_iff.mp accepted
  obtain rfl := SignedText.eq_of_text same
  have size : signature.length = signed'.signatureBytes.length := by
    rw [holds.1, verified.signature.1]
  refine answered_iff.mpr ⟨anchored, ?_, _, rfl, date, atMillis, reads, instant,
    verified.withSignature canonical holds⟩
  rw [signed'.length_withSignature canonical size]
  exact within

/-- A text accepted with the same header and payload differs in its signature alone. -/
theorem mem_acceptedSpellings (canonical : CanonicalUrl base64 encodeUrl) {jws' : Bytes}
    (mem : jws' ∈ acceptedSpellings ssl base64 json roots now signed.headerBytes
      signed.payloadBytes) :
    ∃ signature, Es256 ssl signed.leaf signature signed.signingInput ∧
      jws' = (signed.withSignature canonical signature).text := by
  obtain ⟨⟨answer, accepted⟩, c, rfl, headerRead, payloadRead⟩ := mem
  obtain ⟨-, -, signed', same, date, atMillis, -, -, verified⟩ :=
    answered_iff.mp accepted
  obtain rfl := Compact.text_inj same
  have header : signed'.headerBytes = signed.headerBytes :=
    Option.some.inj (signed'.header_read.symm.trans headerRead)
  have body : signed'.payloadBytes = signed.payloadBytes :=
    Option.some.inj (signed'.payload_read.symm.trans payloadRead)
  have leaf : signed'.leaf = signed.leaf :=
    (signed.names.unique (header ▸ signed'.names)).1
  have input : signed'.signingInput = signed.signingInput := by
    rw [Compact.signingInput, Compact.signingInput,
      (canonical.decodeUrl_iff _ _).mp signed'.header_read,
      (canonical.decodeUrl_iff _ _).mp signed'.payload_read, header, body,
      ← (canonical.decodeUrl_iff _ _).mp signed.header_read,
      ← (canonical.decodeUrl_iff _ _).mp signed.payload_read]
  refine ⟨signed'.signatureBytes, ?_, ?_⟩
  · rw [← leaf, ← input]
    exact verified.signature
  · rw [signed'.text_eq_spelling canonical, header, body,
      (signed.withSignature canonical _).text_eq_spelling canonical]
    rfl

end

/-- **Spellings are signatures.** For an accepted JWS there are a header, a payload and the leaf the
header names such that the texts with that header and payload which verify are, one for one, the
signatures the leaf's key takes over them: each such text is the one encoding of its three parts,
and each is answered with the same payload. -/
theorem spellings_are_signatures {encodeUrl : Bytes → Bytes}
    (canonical : CanonicalUrl base64 encodeUrl) {roots : List TrustAnchor} {jws : Bytes}
    {now : Nat → Option Int} {payload : JsonPayload}
    (accepted : (Verifier.signedData ssl base64 json roots jws now).value.1 = .ok payload) :
    ∃ header body leaf,
      (∃ intermediate, NamesPair ssl base64 json header leaf intermediate) ∧
      jws ∈ acceptedSpellings ssl base64 json roots now header body ∧
      Set.BijOn (spelling encodeUrl header body)
        {signature | Es256 ssl leaf signature (encodeUrl header ++ [0x2e] ++ encodeUrl body)}
        (acceptedSpellings ssl base64 json roots now header body) ∧
      ∀ jws' ∈ acceptedSpellings ssl base64 json roots now header body,
        (Verifier.signedData ssl base64 json roots jws' now).value.1 = .ok payload := by
  obtain ⟨-, -, signed, rfl, -⟩ := answered_iff.mp accepted
  have input : encodeUrl signed.headerBytes ++ [0x2e] ++ encodeUrl signed.payloadBytes =
      signed.signingInput := by
    rw [Compact.signingInput, (canonical.decodeUrl_iff _ _).mp signed.header_read,
      (canonical.decodeUrl_iff _ _).mp signed.payload_read]
  have spelled : ∀ signature, spelling encodeUrl signed.headerBytes signed.payloadBytes signature =
      (signed.withSignature canonical signature).text := fun signature =>
    ((signed.withSignature canonical signature).text_eq_spelling canonical).symm
  refine ⟨signed.headerBytes, signed.payloadBytes, signed.leaf, ⟨signed.intermediate, signed.names⟩,
    ⟨⟨payload, accepted⟩, signed.toCompact, rfl, signed.header_read, signed.payload_read⟩, ?_, ?_⟩
  · rw [input]
    refine ⟨fun signature holds => ?_, fun signature _ signature' _ same => ?_, fun jws' mem => ?_⟩
    · rw [spelled]
      exact ⟨⟨payload, accepted_withSignature canonical accepted holds⟩,
        (signed.withSignature canonical signature).toCompact, rfl, signed.header_read,
        signed.payload_read⟩
    · exact canonical.injective (List.append_cancel_left same)
    · obtain ⟨signature, holds, rfl⟩ := mem_acceptedSpellings canonical mem
      exact ⟨signature, holds, spelled signature⟩
  · intro jws' mem
    obtain ⟨signature, holds, rfl⟩ := mem_acceptedSpellings canonical mem
    exact accepted_withSignature canonical accepted holds

namespace Sample

theorem ascii_ofNat : ∀ n < 256, (ascii (Char.ofNat n)).toNat = n := by decide +kernel

theorem urlBase64_canonical : CanonicalUrl urlBase64 encodeUrl where
  decodeUrl_iff text bytes := by
    have isAscii : ∀ c ∈ Rfc4648.encodeUrl bytes, c.toNat < 0x80 :=
      Rfc4648.forall_mem_encodeUrl (by decide +kernel) bytes
    change Rfc4648.decodeUrl (chars text) = some bytes ↔ _
    rw [Rfc4648.decodeUrl_eq_some_iff]
    constructor
    · intro read
      rw [encodeUrl, ← read, chars, List.map_map]
      refine (List.map_id text).symm.trans (List.map_congr_left fun b _ => ?_)
      exact UInt8.toNat_inj.mp (ascii_ofNat b.toNat b.toNat_lt).symm
    · rintro rfl
      rw [chars, encodeUrl, List.map_map]
      refine (List.map_congr_left fun c mem => ?_).trans (List.map_id _)
      change Char.ofNat (ascii c).toNat = c
      rw [toNat_ascii (isAscii c mem), Char.ofNat_toNat]
  undotted bytes := by
    have undotted : ∀ c ∈ Rfc4648.encodeUrl bytes, ascii c ≠ 0x2e :=
      Rfc4648.forall_mem_encodeUrl (by decide +kernel) bytes
    intro mem
    obtain ⟨c, written, dot⟩ := List.mem_map.mp mem
    exact undotted c written dot
  length bytes := by rw [encodeUrl, List.length_map, Rfc4648.encodeUrl_length]

def storeJws : Bytes :=
  spelling encodeUrl (utf8 header) (utf8 content)
    (List.replicate 32 1 ++ List.replicate 32 2)

theorem storeJws_accepted :
    (Verifier.signedData es256 urlBase64 jwsJson anchors storeJws (Verifier.clockAt 0)).value.1 =
      .ok ⟨content, none⟩ := by
  decide +kernel

end Sample

/-- A JWS whose key takes two signatures has two spellings. -/
theorem spellings_are_signatures_two :
    CanonicalUrl Sample.urlBase64 Sample.encodeUrl ∧
    (Verifier.signedData Sample.es256 Sample.urlBase64 Sample.jwsJson Sample.anchors Sample.storeJws
      (Verifier.clockAt 0)).value.1 = .ok ⟨Sample.content, none⟩ ∧
    ∃ header body leaf,
      (∃ intermediate, NamesPair Sample.es256 Sample.urlBase64 Sample.jwsJson header leaf
        intermediate) ∧
      Sample.storeJws ∈ acceptedSpellings Sample.es256 Sample.urlBase64 Sample.jwsJson
        Sample.anchors (Verifier.clockAt 0) header body ∧
      Set.BijOn (spelling Sample.encodeUrl header body)
        {signature | Es256 Sample.es256 leaf signature
          (Sample.encodeUrl header ++ [0x2e] ++ Sample.encodeUrl body)}
        (acceptedSpellings Sample.es256 Sample.urlBase64 Sample.jwsJson Sample.anchors
          (Verifier.clockAt 0) header body) ∧
      ∀ jws' ∈ acceptedSpellings Sample.es256 Sample.urlBase64 Sample.jwsJson Sample.anchors
        (Verifier.clockAt 0) header body,
        (Verifier.signedData Sample.es256 Sample.urlBase64 Sample.jwsJson Sample.anchors jws'
          (Verifier.clockAt 0)).value.1 = .ok ⟨Sample.content, none⟩ :=
  ⟨Sample.urlBase64_canonical, Sample.storeJws_accepted,
    spellings_are_signatures Sample.urlBase64_canonical Sample.storeJws_accepted⟩

end ReceiptVerifier
