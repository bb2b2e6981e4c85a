import ReceiptVerifier.Verify.Envelope
import ReceiptVerifier.Verify.Ffi
import ReceiptVerifier.Verify.HostPayload

/-!
# The values of the other answers

A verified JWS and a refusal are written by hand, as a verified receipt is (`answerValue`). Each
text spells an object of three members, for any failure and any payload. And a receipt that verifies
is in range, so that its answer is one every host can read.
-/

namespace ReceiptVerifier

open Openssl

/-! ## A refusal -/

/-- The members of a refusal, in the order they are written. -/
def refusedFieldValues (failure : Failure) : List (String × JsonValue) := [
  ("verified", .bool false),
  ("reason", .string failure.reason.asStr),
  ("message", .string failure.message)]

/-- The value of a refusal. -/
def refusedValue (failure : Failure) : JsonValue := .object (refusedFieldValues failure)

/-- The answer to what was refused is a text of the refusal. -/
theorem text_refusedValue (failure : Failure) :
    (refusedValue failure).tree.Text (refused failure).toList := by
  have plain : ∀ name ∈ ["verified", "reason", "message"], isPlain name = true := by decide
  rw [refused_eq, refusedValue, tree_object]
  refine Json.padded_self (spells_objectJson (written plain ?_))
  exact .cons ⟨rfl, spells_bool false⟩ <|
    .cons ⟨rfl, spells_string failure.reason.asStr⟩ <|
    .cons ⟨rfl, spells_string failure.message⟩ <|
    .nil

theorem fits_refusedValue (failure : Failure) {depth : Nat} :
    (refusedValue failure).Fits (depth + 1) := by
  rw [refusedValue, JsonValue.Fits, membersFit_iff]
  exact ⟨by simp [refusedFieldValues], by simp [refusedFieldValues, JsonValue.Fits]⟩

/-! ## A verified JWS -/

/-- The members of the answer to a JWS that verified. -/
def signedFieldValues (payload : JsonPayload) : List (String × JsonValue) := [
  ("verified", .bool true),
  ("payload", .string payload.json),
  ("environment", textValue (payload.environment.map Environment.asStr))]

/-- The value of the answer for a verified JWS. -/
def signedValue (payload : JsonPayload) : JsonValue := .object (signedFieldValues payload)

/-- The answer to a JWS that verified is a text of its payload. -/
theorem text_signedValue (payload : JsonPayload) :
    (signedValue payload).tree.Text (verifySignedDataResult (.ok payload)).toList := by
  have text : verifySignedDataResult (.ok payload) =
      verified (json (.string payload.json)) payload.environment := rfl
  have plain : ∀ name ∈ ["verified", "payload", "environment"], isPlain name = true := by
    decide
  rw [text, verified_eq, signedValue, tree_object]
  refine Json.padded_self (spells_objectJson (written plain ?_))
  refine .cons ⟨rfl, spells_bool true⟩ <| .cons ⟨rfl, spells_string payload.json⟩ <|
    .cons ⟨rfl, ?_⟩ .nil
  change (textValue (payload.environment.map Environment.asStr)).tree.Spells _
  rw [tree_textValue]
  exact spells_optionText _

theorem fits_signedValue (payload : JsonPayload) {depth : Nat} :
    (signedValue payload).Fits (depth + 1) := by
  rw [signedValue, JsonValue.Fits, membersFit_iff]
  exact ⟨by simp [signedFieldValues], by simp [signedFieldValues, JsonValue.Fits, fits_textValue]⟩

/-! ## The answer of `init` -/

/-- The value of a refusing answer of `init`. -/
def initRefusal (message : String) : JsonValue :=
  .object [("ok", .bool false), ("message", .string message)]

/-- The refusal of `init`, as an object of its members. -/
theorem initResult_error (message : String) :
    initResult (.error message) =
      objectJson [("ok", json (.bool false)), ("message", json (.string message))] := by
  have front :
    "\x7b\"ok\":false,\"message\":" = "\x7b" ++ ("\"" ++ "ok" ++ "\":" ++ "false") ++ "," ++
      ("\"" ++ "message" ++ "\":") := by decide
  have literal : json (.bool false) = "false" := by rw [json, JsonValue.display]; rfl
  have joined : ∀ a b : String, ",".intercalate [a, b] = a ++ "," ++ b := fun _ _ => rfl
  refine Eq.trans (congrArg (· ++ json (.string message) ++ "\x7d") front) ?_
  simp only [objectJson, List.map_cons, List.map_nil, joined, literal, String.append_assoc]

theorem text_initRefusal (message : String) :
    (initRefusal message).tree.Text (initResult (.error message)).toList := by
  have plain : ∀ name ∈ ["ok", "message"], isPlain name = true := by decide
  rw [initResult_error, initRefusal, tree_object]
  refine Json.padded_self (spells_objectJson (written plain ?_))
  exact .cons ⟨rfl, spells_bool false⟩ <| .cons ⟨rfl, spells_string message⟩ .nil

theorem fits_initRefusal (message : String) {depth : Nat} :
    (initRefusal message).Fits (depth + 1) := by
  rw [initRefusal, JsonValue.Fits, membersFit_iff]
  exact ⟨by simp, by simp [JsonValue.Fits]⟩

/-- The value of an accepting answer of `init`. -/
def initAcceptance : JsonValue :=
  .object [("ok", .bool true), ("max_input_bytes", .number maxInputBytes)]

/-- What `init` answers to a configuration it takes is a text of the limit. -/
theorem text_initAcceptance : initAcceptance.tree.Text (initResult (.ok ())).toList := by
  have written : initResult (.ok ()) =
      objectJson [("ok", json (.bool true)),
        ("max_input_bytes", json (.number maxInputBytes))] := by
    decide
  have plain : ∀ name ∈ ["ok", "max_input_bytes"], isPlain name = true := by decide
  rw [written, initAcceptance, tree_object]
  refine Json.padded_self (spells_objectJson (ReceiptVerifier.written plain ?_))
  exact .cons ⟨rfl, spells_bool true⟩ <| .cons ⟨rfl, spells_number _⟩ .nil

theorem fits_initAcceptance {depth : Nat} : initAcceptance.Fits (depth + 1) := by
  have small : IsI64 maxInputBytes := by unfold IsI64; decide
  rw [initAcceptance, JsonValue.Fits, membersFit_iff]
  refine ⟨by simp, ?_⟩
  simp only [List.forall_mem_cons, List.not_mem_nil, false_implies, implies_true, and_true]
  exact ⟨trivial, by rwa [JsonValue.Fits]⟩

/-! ## A verified receipt is in range -/

variable {ssl : OpenSsl} {jiff : Jiff} {base64 : Base64}

/-- Every number of a payload the core decoded fits 64 bits. -/
theorem payloadFits_verifyReceipt {text : Bytes} {anchors : List TrustAnchor} {clock : Clock}
    {payload : ReceiptPayload}
    (verified : (verifyReceipt ssl jiff base64 text anchors clock).value.1 = .ok payload) :
    PayloadFits payload := by
  unfold verifyReceipt at verified
  split at verified
  · cases verified
  · split at verified
    · cases verified
    · next der decoded =>
      simp only [Traced.value_bind] at verified
      rcases run : (verifyEnvelope ssl jiff der anchors clock).value with ⟨verdict, clock'⟩
      rw [run] at verified
      cases verdict with
      | error failure => cases verified
      | ok attributes =>
        have passed : (verifyEnvelope ssl jiff der anchors clock).value.1 = .ok attributes := by
          rw [run]
        cases parsed : SignedData.parse ssl der envelopeLimits with
        | error err =>
          rw [verifyEnvelope, parsed] at passed
          cases passed
        | ok cms =>
          have own := ((value_verifyEnvelope_ok_iff parsed).mp passed).1
          cases attributes with
          | error err => cases verified
          | ok attributes =>
            cases verified
            exact payloadFits_parseReceiptPayload own.symm

theorem payloadFits_verifyReceiptBytesAt {anchors : List TrustAnchor} {text : Bytes} {nowMs : Int}
    {payload : ReceiptPayload}
    (verified : Verifier.verifyReceiptBytesAt ssl jiff base64 anchors text nowMs = .ok payload) :
    PayloadFits payload := by
  unfold Verifier.verifyReceiptBytesAt Verifier.receipt Verifier.contained at verified
  split at verified
  · cases verified
  · exact payloadFits_verifyReceipt verified

end ReceiptVerifier
