import ReceiptVerifier.Verify.Answers
import ReceiptVerifier.Verify.GoTold
import ReceiptVerifier.Verify.Hosts
import ReceiptVerifier.Verify.Response

/-!
# The Go verifier is the core behind a pool

What a call of the pool's returned was answered by the core, from the caller's own input and the
pool's own configuration (`pool_answers`). The facade reads the answer back, so that what it tells a
caller is the core's verdict.
-/

namespace ReceiptVerifier

open Openssl

namespace Go

/-! ## What the module answered the pool -/

section

variable {ssl : OpenSsl} {jiff : Jiff} {base64 : Base64} {json : SerdeJson}
  {appleRoots : List TrustAnchor} {fails : Prop} {config : Bytes}
  {unmarshal : Bytes → Option InitReply}

/-- `encoding/json` on the two answers of `init`. -/
structure ReadsInit (unmarshal : Bytes → Option InitReply) : Prop where
  accepted : unmarshal (utf8 (initResult (.ok ()))) = some ⟨some true, "", some cap⟩
  refused : ∀ message,
    unmarshal (utf8 (initResult (.error message))) = some ⟨some false, message, none⟩

/-- `json.Valid` takes every text of a value that nests no deeper than the core's answers. -/
def TakesTexts (valid : String → Bool) : Prop :=
  ∀ value : JsonValue, value.Fits answerDepth → ∀ text : String, value.tree.Text text.toList →
    valid text = true

theorem answers_keeps {anchors : List TrustAnchor} (i : Abi.Instance) (r : Request)
    (response : Response r) (i' : Abi.Instance) (filled : i.slot = some anchors)
    (now : Answers ssl jiff base64 json appleRoots fails i r response i') :
    i'.slot = some anchors := by
  cases r with
  | dead | maxInput | close => exact (congrArg Abi.Instance.slot now).trans filled
  | readUint32Le | read | copy => exact (congrArg Abi.Instance.slot now.1).trans filled
  | write ptr bytes =>
    obtain ⟨-, rfl⟩ := now
    split
    · exact filled
    · exact filled
  | realloc n => cases response with
    | error err => exact now.1.trans filled
    | ok res => exact now.1.trans filled
  | invoke fn core => cases response with
    | error err => exact now.1 anchors filled
    | ok ret =>
      obtain ⟨text, ended, -⟩ := now
      exact Abi.invoke_keeps ended filled
  | postReturn fn rp => cases response with
    | error err => exact now.1.trans filled
    | ok _ => exact (show i'.slot = i.slot from now).trans filled

/-- A trace of an instance whose guest was told a cap. -/
theorem follows_own {i i' : Abi.Instance} {trace : Trace} {max : UInt32}
    (told : ∀ e ∈ trace, Own max e)
    (follows : (Answers ssl jiff base64 json appleRoots fails).Follows i trace i') :
    (OwnAnswers ssl jiff base64 json appleRoots fails max).Follows i trace i' :=
  follows.mono fun _ _ e mem now => ⟨now, told e mem⟩

/-- `init` on an instance without a verifier: accepted, or why not. -/
theorem first_answered {i i' : Abi.Instance} {first : Call} (reads : ReadsInit unmarshal)
    (empty : i.slot = none) (goes : first.Goes) (initial : first.First config)
    (follows : (Answers ssl jiff base64 json appleRoots fails).Follows i first.trace i') :
    (∀ answer max, first.result = .ok answer → initAnswer unmarshal answer = .ok max →
      max = cap ∧ config.length < 2 ^ 32 ∧
        ∃ anchors, initModule ssl base64 json appleRoots config = .ok anchors ∧
          i'.slot = some anchors) ∧
    ((∀ answer max, first.result = .ok answer → initAnswer unmarshal answer ≠ .ok max) →
      ∀ anchors, initModule ssl base64 json appleRoots config = .ok anchors →
        config.length < 2 ^ 32 → fails) := by
  have steps := goes.1
  rw [initial.fn, initial.args] at steps
  have answered : Answer fails i.slot (Abi.init ssl base64 json appleRoots i.slot config) config i'
      first.result := steps.meets meets_init (follows_own initial.told follows)
  rw [empty] at answered
  refine ⟨fun answer max returned stated => ?_, fun unstated anchors made small => ?_⟩
  · rw [returned] at answered
    obtain ⟨⟨text, ended, rfl⟩, small⟩ := answered
    cases made : initModule ssl base64 json appleRoots config with
    | error message =>
      rw [Abi.init, made] at ended
      simp only [Option.some.injEq, Prod.mk.injEq] at ended
      rw [← ended.1] at stated
      rw [initAnswer, Except.map, reads.refused] at stated
      cases stated
    | ok anchors =>
      rw [Abi.init, made] at ended
      simp only [Option.some.injEq, Prod.mk.injEq] at ended
      rw [← ended.1] at stated
      rw [initAnswer, Except.map, reads.accepted] at stated
      refine ⟨?_, small, anchors, rfl, ended.2.symm⟩
      have other : cap ≠ 0 := by decide
      simpa [other, eq_comm] using stated
  · cases returned : first.result with
    | error err =>
      rw [returned] at answered
      obtain ⟨-, failed | trapped | long⟩ := answered
      · exact failed
      · cases trapped
      · omega
    | ok answer =>
      rw [returned] at answered
      obtain ⟨⟨text, ended, rfl⟩, -⟩ := answered
      rw [Abi.init, made] at ended
      simp only [Option.some.injEq, Prod.mk.injEq] at ended
      refine absurd ?_ (unstated _ cap returned)
      rw [← ended.1, initAnswer, Except.map, reads.accepted]
      rfl

/-- Every later call answers as the core does, whatever the calls before it did. -/
theorem rest_answered {anchors : List TrustAnchor} : ∀ {rest : List Call} {i i' : Abi.Instance},
    i.slot = some anchors → (∀ call ∈ rest, call.Goes) →
      (∀ call ∈ rest, ∀ e ∈ call.trace, Own cap e) →
      (Answers ssl jiff base64 json appleRoots fails).Follows i (rest.flatMap Call.trace) i' →
      ∀ call ∈ rest, ∀ method input, call.fn = method.fn → call.args = Method.args method input →
        method.Returns ssl jiff base64 json fails anchors input call.result := by
  intro rest
  induction rest with
  | nil => simp
  | cons call rest ih =>
    intro i i' filled goes told follows
    rw [List.forall_mem_cons] at goes told
    rw [List.flatMap_cons] at follows
    obtain ⟨i₁, own, later⟩ := World.follows_append.mp follows
    rw [List.forall_mem_cons]
    refine ⟨fun method input fn args => ?_, ?_⟩
    · have steps := goes.1.1
      rw [fn, args] at steps
      exact (steps.meets (meets_method filled method input) (follows_own told.1 own)).2
    · exact ih (own.invariant (I := fun i => i.slot = some anchors) answers_keeps filled) goes.2
        told.2 later

/-- A ready instance was made from the pool's configuration, and its calls are the core's. -/
theorem ready_answered {guest : Guest} (reads : ReadsInit unmarshal) (sane : guest.Sane)
    (answered : Answered ssl jiff base64 json appleRoots fails guest.history)
    (ready : guest.Ready config unmarshal) :
    config.length < 2 ^ 32 ∧ ∃ anchors,
      initModule ssl base64 json appleRoots config = .ok anchors ∧
      ∀ call ∈ guest.calls.tail, ∀ method input, call.fn = method.fn →
        call.args = Method.args method input →
        method.Returns ssl jiff base64 json fails anchors input call.result := by
  obtain ⟨first, rest, opens⟩ := ready
  obtain ⟨answer, returned, stated⟩ := opens.stated
  obtain ⟨i, i', empty, follows⟩ := answered
  obtain ⟨more, history⟩ := sane.history
  have goes := sane.calls
  rw [opens.calls, List.forall_mem_cons] at goes
  rw [opens.calls, List.flatMap_cons] at history
  rw [← history] at follows
  obtain ⟨i₂, ended, -⟩ := World.follows_append.mp follows
  obtain ⟨i₁, own, later⟩ := World.follows_append.mp ended
  obtain ⟨maxInput, small, anchors, made, filled⟩ :=
    (first_answered reads empty goes.1 opens.initial own).1 answer _ returned stated
  refine ⟨small, anchors, made, ?_⟩
  rw [opens.calls, List.tail_cons]
  exact rest_answered filled goes.2 (maxInput ▸ opens.told) later

/-- An instance whose `init` stated no cap failed, if the configuration is good. -/
theorem refused_answered {guest : Guest} {anchors : List TrustAnchor} (reads : ReadsInit unmarshal)
    (sane : guest.Sane) (answered : Answered ssl jiff base64 json appleRoots fails guest.history)
    (refused : guest.Refused config unmarshal)
    (made : initModule ssl base64 json appleRoots config = .ok anchors)
    (small : config.length < 2 ^ 32) : fails := by
  obtain ⟨first, head, initial, unstated⟩ := refused
  obtain ⟨rest, calls⟩ := List.head?_eq_some_iff.mp head
  obtain ⟨i, i', empty, follows⟩ := answered
  obtain ⟨more, history⟩ := sane.history
  have goes := sane.calls
  rw [calls, List.forall_mem_cons] at goes
  rw [calls, List.flatMap_cons] at history
  rw [← history] at follows
  obtain ⟨i₂, ended, -⟩ := World.follows_append.mp follows
  obtain ⟨i₁, own, later⟩ := World.follows_append.mp ended
  exact (first_answered reads empty goes.1 initial own).2 unstated anchors made small

/-- What a caller of the pool gets. -/
def Method.Gets (ssl : OpenSsl) (jiff : Jiff) (base64 : Base64) (json : SerdeJson) (fails : Prop)
    (anchors : List TrustAnchor) (method : Method) (input : Bytes)
    (result : Except Error Bytes) : Prop :=
  method.Returns ssl jiff base64 json fails anchors input result ∨
    ∃ message, result = .error (.instantiating (.text message))

/-- **The pool answers with the core.** In every state that any number of callers reach, what a
caller got back is the core's answer to its own input under the pool's own configuration, or the
error of an instance that could not be made or that failed. -/
theorem pool_answers {s : Host} {events : List Event} (reads : ReadsInit unmarshal)
    (run : Host.init.run config unmarshal events = some s)
    (answered : ∀ g, Answered ssl jiff base64 json appleRoots fails (s.guests g).history)
    {c : Nat} {result : Except Error Bytes} (returned : s.callers c = .returned result) :
    ∃ anchors, initModule ssl base64 json appleRoots config = .ok anchors ∧
      ∀ method input, asked events c = some (Method.asks method input) →
        method.Gets ssl jiff base64 json fails anchors input result := by
  have told := told_run run
  have mine := told.callers c
  rw [returned] at mine
  obtain ⟨fn, args, own, served⟩ := mine
  have entered : entries events ≠ [] := by
    cases c with
    | zero => cases own
    | succ c =>
      intro none
      rw [asked, none] at own
      cases own
  obtain ⟨g, ready⟩ := told.opened (.inr entered)
  obtain ⟨small, anchors, made, -⟩ := ready_answered reads (told.inv.guests g) (answered g) ready
  refine ⟨anchors, made, fun method input asks => ?_⟩
  rw [asks] at own
  cases own
  cases served with
  | @call g' _ ready own =>
    obtain ⟨call, mem, fn, args, rfl⟩ := own
    obtain ⟨-, anchors', made', answers⟩ :=
      ready_answered reads (told.inv.guests g') (answered g') ready
    rw [made] at made'
    cases made'
    exact .inl (answers call mem method input fn args)
  | unmade message => exact .inr ⟨message, rfl⟩
  | @refused g' err refused =>
    exact .inl (.inl (refused_answered reads (told.inv.guests g') (answered g') refused made small))

end

/-! ## What the facade makes of an answer -/

section

variable {encoding : Encoding} {base64 : Base64} (reads : ReadsTexts encoding.parse)

include reads

theorem readResult_refused (failure : Failure) :
    readResult encoding (refused failure) = .error failure := by
  have parsed := reads _ (fits_refusedValue failure) _ (text_refusedValue failure)
  have filled : decodeStruct encoding resultFields ResultJson.assign {} (refusedValue failure) =
      .ok { verified := some false, reason := some failure.reason.asStr
            message := some failure.message } := by
    rw [refusedValue, decodeStruct, refusedFieldValues]
    simp (disch := decide) only [decodeMembers, fieldNamed_of_mem, ResultJson.assign]
    rfl
  have known : allReasons.find? (fun known => known.asStr == failure.reason.asStr) =
      some failure.reason := by
    cases failure.reason <;> rfl
  rw [readResult, parsed]
  dsimp only
  rw [filled]
  dsimp only
  rw [known]
  rfl

theorem readResult_signed (payload : JsonPayload) :
    readResult encoding (verifySignedDataResult (.ok payload)) =
      .ok (.string payload.json, payload.environment) := by
  have parsed := reads _ (fits_signedValue payload) _ (text_signedValue payload)
  have filled : decodeStruct encoding resultFields ResultJson.assign {} (signedValue payload) =
      .ok { verified := some true, payload := some (.string payload.json)
            environment := some (textValue (payload.environment.map Environment.asStr)) } := by
    rw [signedValue, decodeStruct, signedFieldValues]
    simp (disch := decide) only [decodeMembers, fieldNamed_of_mem, ResultJson.assign]
    rfl
  have known : environmentFromJson
      (some (textValue (payload.environment.map Environment.asStr))) =
        some payload.environment := by
    rcases payload.environment with _ | _ | _ <;> rfl
  rw [readResult, parsed]
  dsimp only
  rw [filled]
  dsimp only
  rw [known]
  rfl

/-- Whatever the core decided of a receipt, the facade says the same. -/
theorem receiptAnswer_result (decodes : Decodes base64 encoding.decodeString)
    {result : Except Failure ReceiptPayload}
    (fits : ∀ payload, result = .ok payload → PayloadFits payload) :
    receiptAnswer encoding (verifyReceiptResult base64 result) =
      result.map Host.ReceiptPayload.ofCore := by
  cases result with
  | ok payload => exact receiptAnswer_answer decodes reads (fits payload rfl)
  | error failure =>
    rw [receiptAnswer, verifyReceiptResult, readResult_refused reads]
    rfl

/-- Whatever the core decided of a JWS, the facade says the same. -/
theorem signedAnswer_result (result : Except Failure JsonPayload) :
    (do let (value, environment) ← readResult encoding (verifySignedDataResult result)
        let signed ← signedFromJson value
        pure (⟨signed, environment⟩ : JsonPayload)) = result := by
  cases result with
  | ok payload =>
    rw [readResult_signed reads]
    rfl
  | error failure =>
    rw [verifySignedDataResult, readResult_refused reads]
    rfl

end

/-! ## The facade is the core -/

section

variable (ssl : OpenSsl) (jiff : Jiff) (base64 : Base64) (json : SerdeJson) (fails : Prop)
  (encoding : Encoding) (valid : String → Bool) (anchors : List TrustAnchor)

/-- A caller that was served no instance, or one that failed. -/
def Unserved (result : Except Error Bytes) : Prop :=
  ∃ err, result = .error err ∧ (fails ∨ ∃ message, err = .instantiating (.text message))

/-- What a caller of the facade is told, whose clock answered an instant and whose call of the pool
returned: the core's verdict, or where the machinery failed nobody's. -/
structure SaysTheCore (instant : Int64) (input : Bytes) (asked : Option (String × List Value))
    (result : Except Error Bytes) : Prop where
  receipt : asked = some ((Method.verifyReceipt instant.toUInt64).asks input) →
    ¬ Unserved fails result →
      verifyReceipt encoding (some instant) (fun _ _ => result) input =
        (Verifier.verifyReceiptBytesAt ssl jiff base64 anchors input instant.toInt).map
          Host.ReceiptPayload.ofCore
  signed : asked = some ((Method.verifySignedData instant.toUInt64).asks input) →
    ¬ Unserved fails result →
      verifySignedData encoding (some instant) (fun _ _ => result) input =
        Verifier.verifySignedDataBytesAt ssl base64 json anchors input instant.toInt
  endpoint : ∀ environment,
    asked = some ((Method.verifyReceiptEndpoint (discriminant environment) instant.toUInt64).asks
      input) →
    ¬ Unserved fails result →
      verifyReceiptEndpoint (some instant) (fun _ _ => result) valid environment input =
        Verifier.verifyReceiptEndpointBytesAt ssl jiff base64 json anchors environment input
          instant.toInt
  broken : Unserved fails result → ∀ method, ∃ message,
    answerText (some instant) (fun _ _ => result) method input = .error ⟨.internalError, message⟩

end

section

variable {ssl : OpenSsl} {jiff : Jiff} {base64 : Base64} {json : SerdeJson}
  {appleRoots anchors : List TrustAnchor} {fails : Prop} {config : Bytes}
  {unmarshal : Bytes → Option InitReply} {encoding : Encoding} {instant : Int64} {input : Bytes}
  {result : Except Error Bytes}

theorem now_some (after : 0 ≤ instant) : now (some instant) = .ok instant.toUInt64 :=
  if_neg (Int64.not_lt.mpr after)

theorem liftInt_toUInt64 (instant : Int64) : Abi.liftInt instant.toUInt64 = instant.toInt := rfl

/-- The text of a method's answer, on a machinery that did not fail. -/
theorem answerText_eq (after : 0 ≤ instant) {method : UInt64 → Method} {op : Op}
    (known : (method instant.toUInt64).op = some op)
    (gets : (method instant.toUInt64).Gets ssl jiff base64 json fails anchors input result)
    (sound : ¬ Unserved fails result) :
    answerText (some instant) (fun _ _ => result) method input =
      .ok (op.answer base64 ssl jiff json anchors input) := by
  obtain returns | ⟨message, rfl⟩ := gets
  · cases result with
    | error err =>
      obtain failed | trapped := returns
      · exact absurd ⟨err, rfl, .inl failed⟩ sound
      · rw [known] at trapped
        cases trapped
    | ok out =>
      obtain ⟨op', known', rfl⟩ := returns
      rw [known] at known'
      cases known'
      rw [answerText, now_some after, ok_bind]
      dsimp only
      rw [fromUtf8_utf8]
  · exact absurd ⟨_, rfl, .inr ⟨message, rfl⟩⟩ sound

theorem answerText_broken (after : 0 ≤ instant) (broken : Unserved fails result)
    (method : UInt64 → Method) :
    ∃ message, answerText (some instant) (fun _ _ => result) method input =
      .error ⟨.internalError, message⟩ := by
  obtain ⟨err, rfl, -⟩ := broken
  rw [answerText, now_some after, ok_bind]
  dsimp only
  unfold hostFailure
  split
  · exact ⟨_, rfl⟩
  · split
    · exact ⟨_, rfl⟩
    · exact ⟨_, rfl⟩

theorem verifyReceipt_eq (texts : ReadsTexts encoding.parse)
    (decodes : Decodes base64 encoding.decodeString) (after : 0 ≤ instant)
    (gets : (Method.verifyReceipt instant.toUInt64).Gets ssl jiff base64 json fails anchors input
      result) (sound : ¬ Unserved fails result) :
    verifyReceipt encoding (some instant) (fun _ _ => result) input =
      (Verifier.verifyReceiptBytesAt ssl jiff base64 anchors input instant.toInt).map
        Host.ReceiptPayload.ofCore := by
  rw [verifyReceipt, answerText_eq after rfl gets sound, ok_bind, Op.answer, liftInt_toUInt64]
  exact receiptAnswer_result texts decodes fun _ => payloadFits_verifyReceiptBytesAt

theorem verifySignedData_eq (texts : ReadsTexts encoding.parse) (after : 0 ≤ instant)
    (gets : (Method.verifySignedData instant.toUInt64).Gets ssl jiff base64 json fails anchors input
      result) (sound : ¬ Unserved fails result) :
    verifySignedData encoding (some instant) (fun _ _ => result) input =
      Verifier.verifySignedDataBytesAt ssl base64 json anchors input instant.toInt := by
  rw [verifySignedData, answerText_eq after rfl gets sound, ok_bind, Op.answer, liftInt_toUInt64]
  exact signedAnswer_result texts _

theorem verifyReceiptEndpoint_eq {valid : String → Bool} (takes : TakesTexts valid)
    (environment : Environment) (after : 0 ≤ instant)
    (gets : (Method.verifyReceiptEndpoint (discriminant environment) instant.toUInt64).Gets ssl jiff
      base64 json fails anchors input result) (sound : ¬ Unserved fails result) :
    verifyReceiptEndpoint (some instant) (fun _ _ => result) valid environment input =
      Verifier.verifyReceiptEndpointBytesAt ssl jiff base64 json anchors environment input
        instant.toInt := by
  have known : (Method.verifyReceiptEndpoint (discriminant environment) instant.toUInt64).op =
      some (.endpoint environment instant.toInt) := by
    cases environment <;> rfl
  rw [verifyReceiptEndpoint, answerText_eq after known gets sound]
  obtain ⟨members, body, fits, -⟩ := respondsWith_endpoint ssl jiff base64 json anchors environment
    input (Verifier.clockAt instant.toInt)
  have taken : valid (Verifier.verifyReceiptEndpointBytesAt ssl jiff base64 json anchors environment
      input instant.toInt) = true := by
    rw [Verifier.verifyReceiptEndpointBytesAt, body]
    exact takes _ fits _ (Json.padded_self (spells_display fits))
  exact if_pos taken

/-- **The Go verifier says what the core says.** Any number of callers verify over a pool of
instances, in any order of steps. A call that came back through the facade is the core's verdict on
the caller's own input and instant, under the anchors the pool's own configuration names, unless the
machinery failed; then it is an internal error. -/
theorem says_the_core (reads : ReadsInit unmarshal) (texts : ReadsTexts encoding.parse)
    (decodes : Decodes base64 encoding.decodeString) {valid : String → Bool}
    (takes : TakesTexts valid) {s : Host}
    {events : List Event} (run : Host.init.run config unmarshal events = some s)
    (answered : ∀ g, Answered ssl jiff base64 json appleRoots fails (s.guests g).history) {c : Nat}
    (returned : s.callers c = .returned result) (after : 0 ≤ instant) :
    ∃ anchors, initModule ssl base64 json appleRoots config = .ok anchors ∧
      ∀ input, SaysTheCore ssl jiff base64 json fails encoding valid anchors instant input
        (asked events c) result := by
  obtain ⟨anchors, made, gets⟩ := pool_answers reads run answered returned
  refine ⟨anchors, made, fun input => ?_⟩
  exact {
    receipt := fun asks => verifyReceipt_eq texts decodes after (gets _ _ asks)
    signed := fun asks => verifySignedData_eq texts after (gets _ _ asks)
    endpoint := fun environment asks =>
      verifyReceiptEndpoint_eq takes environment after (gets _ _ asks)
    broken := fun broken => answerText_broken after broken }

end

end Go

/-! ## A receipt through the pool -/

namespace Sample

/-- `encoding/json` on an answer of `init`. -/
def unmarshalInit (answer : Bytes) : Option Go.InitReply :=
  if answer = utf8 (initResult (.ok ())) then some ⟨some true, "", some Go.cap⟩
  else
    match (fromUtf8 answer).bind parseText with
    | some (.object [("ok", .bool false), ("message", .string message)]) =>
      some ⟨some false, message, none⟩
    | _ => none

theorem readsInit : Go.ReadsInit unmarshalInit where
  accepted := if_pos rfl
  refused message := by
    have other : utf8 (initResult (.error message)) ≠ utf8 (initResult (.ok ())) := by
      intro same
      have texts : initResult (.error message) = initResult (.ok ()) :=
        Option.some.inj (by rw [← fromUtf8_utf8, ← fromUtf8_utf8, same])
      have refused : initResult (.error message) =
          "\x7b\"ok\":f" ++ ("alse,\"message\":" ++ json (.string message) ++ "\x7d") := by
        have front : "\x7b\"ok\":false,\"message\":" = "\x7b\"ok\":f" ++ "alse,\"message\":" := by
          decide +kernel
        refine Eq.trans (congrArg (· ++ json (.string message) ++ "\x7d") front) ?_
        simp only [String.append_assoc]
      have accepted : (initResult (.ok ())).toList[6]? = some 't' := by decide +kernel
      rw [← texts, refused, String.toList_append, List.getElem?_append_left (by decide +kernel)]
        at accepted
      exact absurd accepted (by decide +kernel)
    have fits : (initRefusal message).Fits answerDepth := fits_initRefusal message
    rw [unmarshalInit, if_neg other, fromUtf8_utf8, Option.bind_some,
      parseText_eq fits (text_initRefusal message)]
    rfl

/-- Memory with the return area of a text of `n` bytes at 0 and its bytes behind it. -/
def area (n : UInt8) (text : String) : Bytes := [8, 0, 0, 0, n, 0, 0, 0] ++ utf8 text

theorem length_area {n : UInt8} {text : String} (size : (utf8 text).length = n.toNat) :
    (area n text).length = n.toNat + 8 := by
  rw [area, List.length_append, size]
  exact Nat.add_comm 8 _

/-- The length and the bytes of the text are where its return area says. -/
theorem area_holds {n : UInt8} {text : String} (slot : Abi.Slot)
    (size : (utf8 text).length = n.toNat) :
    (⟨area n text, slot⟩ : Abi.Instance).readUint32Le 4 = some n.toUInt32 ∧
      (⟨area n text, slot⟩ : Abi.Instance).Inside 8 n.toNat ∧
      (⟨area n text, slot⟩ : Abi.Instance).slice 8 n.toNat = utf8 text := by
  refine ⟨?_, ?_, ?_⟩
  · simp [Abi.Instance.readUint32Le, Abi.Instance.slice, area]
  · rw [Abi.Instance.Inside, length_area size, Nat.add_comm]
    exact Nat.le_refl _
  · rw [Abi.Instance.slice, ← size]
    exact List.take_length

theorem returns_area {n : UInt8} {text : String} {slot : Abi.Slot}
    (size : (utf8 text).length = n.toNat) :
    (⟨area n text, slot⟩ : Abi.Instance).Returns 0 text := by
  obtain ⟨length, inside, bytes⟩ := area_holds slot size
  exact ⟨by decide, 8, n.toUInt32, rfl, length, inside, bytes⟩

/-- What the instance answers in a call that ends with a text of `n` bytes. -/
def replies (n : UInt32) (text : String) : (r : Go.Request) → Go.Response r
  | .dead => false
  | .maxInput => 0
  | .realloc _ => .ok 1
  | .write _ _ => true
  | .invoke _ _ => .ok 0
  | .readUint32Le offset => some (if offset = 0 then 8 else n)
  | .read _ _ => true
  | .copy _ _ => utf8 text
  | .postReturn _ _ => .ok ()
  | .close => ()

/-- The ten requests of a call, with those answers. -/
def callTrace (max : UInt32) (fn : String) (scalars : List UInt64) (input : Bytes) (n : UInt32)
    (text : String) : Go.Trace := [
  ⟨.dead, false⟩, ⟨.maxInput, max⟩, ⟨.realloc input.length, .ok 1⟩, ⟨.write 1 input, true⟩,
  ⟨.invoke fn (scalars ++ [1, .ofNat input.length]), .ok 0⟩, ⟨.readUint32Le 0, some 8⟩,
  ⟨.readUint32Le 4, some n⟩, ⟨.read 8 n, true⟩, ⟨.copy 8 n, utf8 text⟩,
  ⟨.postReturn fn 0, .ok ()⟩]

/-- What the module answers a receipt that is no base64, a JWS that verifies and an endpoint request
without a receipt. -/
def receiptText : String :=
  "\x7b\"verified\":false,\"reason\":\"MALFORMED\",\"message\":\"receipt is not valid base64\"\x7d"

def signedText : String :=
  "\x7b\"verified\":true,\"payload\":\"\x7b\\\"signedDate\\\":0\x7d\",\"environment\":null\x7d"

def endpointText : String := "\x7b\"status\":21002\x7d"

def repliesTo (c : Nat) (n : UInt32) (text : String) : List Go.Event :=
  List.replicate 10 (.reply c (replies n text))

/-- The first caller takes the instance of the pool, and the second one makes another while the
first is served. The third is served by the first instance again. -/
def verifierEvents : List Go.Event := List.flatten [
  [.instantiate 0 none], repliesTo 0 37 (initResult (.ok ())),
  [.finish 0, .enter "verify-receipt" [.uint64 0, .string (utf8 "!")],
    .enter "verify-signed-data" [.uint64 0, .string (signedJws content)],
    .enter "verify-receipt-endpoint" [.uint32 0, .uint64 0, .string (utf8 "\x7b\x7d")],
    .get 1 (some 0), .get 2 none, .instantiate 2 none],
  repliesTo 2 37 (initResult (.ok ())), [.finish 2],
  (repliesTo 1 79 receiptText).zipWith (fun a b => [a, b]) (repliesTo 2 67 signedText) |>.flatten,
  [.finish 1, .put 1 1048576, .finish 2, .get 3 (some 0)], repliesTo 3 16 endpointText,
  [.finish 3, .put 3 1048576, .put 2 1048576]]

set_option maxRecDepth 8192 in
/-- Every call came back, of two instances. -/
theorem verifierEvents_run : (Go.Host.init.run [] unmarshalInit verifierEvents).map (fun s =>
    ((s.guests 0).history, (s.guests 1).history, s.callers 1, s.callers 2, s.callers 3, s.made)) =
      some (callTrace 0 "init" [] [] 37 (initResult (.ok ())) ++
          (callTrace Go.cap "verify-receipt" [0] (utf8 "!") 79 receiptText ++
          callTrace Go.cap "verify-receipt-endpoint" [0, 0] (utf8 "\x7b\x7d") 16 endpointText),
        callTrace 0 "init" [] [] 37 (initResult (.ok ())) ++
          callTrace Go.cap "verify-signed-data" [0] (signedJws content) 67 signedText,
        .returned (.ok (utf8 receiptText)), .returned (.ok (utf8 signedText)),
        .returned (.ok (utf8 endpointText)), 2) := rfl

/-- An input written behind the first byte of memory that just holds it. -/
theorem write_room (input : Bytes) (slot : Abi.Slot) :
    (⟨List.replicate (input.length + 1) 0, slot⟩ : Abi.Instance).write 1 input =
      ⟨0 :: input, slot⟩ := by
  simp [Abi.Instance.write, List.replicate_succ, Nat.add_comm (1 : Nat)]

/-- A call that ends with a text happens on an instance, which keeps the text in its return area. -/
theorem follows_callTrace {fn : String} {scalars : List UInt64} {input memory : Bytes}
    {slot slot' : Abi.Slot} {text : String} (max : UInt32) (n : UInt8)
    (size : (utf8 text).length = n.toNat) (small : input.length < 2 ^ 31)
    (body : (⟨0 :: input, slot⟩ : Abi.Instance).invoke es256 .gregorian urlBase64 jwsJson
      anchors fn (scalars ++ [1, .ofNat input.length]) = some (text, slot')) :
    (Go.Answers es256 .gregorian urlBase64 jwsJson anchors False).Follows ⟨memory, slot⟩
      (callTrace max fn scalars input n.toUInt32 text) ⟨area n text, slot'⟩ := by
  obtain ⟨length, inside, bytes⟩ := area_holds slot' size
  let room : Abi.Instance := ⟨List.replicate (input.length + 1) 0, slot⟩
  have fits : room.Inside 1 input.length := by
    simp [Abi.Instance.Inside, room, Nat.add_comm _ (1 : Nat)]
  have allocated : Go.Answers es256 .gregorian urlBase64 jwsJson anchors False
      ⟨memory, slot⟩ (.realloc input.length) (.ok 1) room := by
    refine ⟨rfl, by decide, ?_, ?_⟩
    · rw [Nat.mod_eq_of_lt (by omega)]
      exact fits
    · simp only [room, List.length_replicate]
      omega
  refine .cons rfl (.cons rfl (.cons allocated (.cons ⟨?_, rfl⟩ ?_)))
  · exact (decide_eq_true fits).symm
  · rw [if_pos rfl, write_room]
    exact .cons ⟨text, body, returns_area size⟩ (.cons ⟨rfl, rfl⟩ (.cons ⟨rfl, length.symm⟩
      (.cons ⟨rfl, (decide_eq_true inside).symm⟩ (.cons ⟨rfl, bytes.symm⟩ (.cons rfl (.nil _))))))

theorem opened_callTrace : (Go.Answers es256 .gregorian urlBase64 jwsJson anchors False).Follows
    ⟨[], none⟩ (callTrace 0 "init" [] [] 37 (initResult (.ok ())))
      ⟨area 37 (initResult (.ok ())), some anchors⟩ :=
  follows_callTrace 0 37 (by decide +kernel) (by decide) (by decide +kernel)

theorem receipt_callTrace (memory : Bytes) :
    (Go.Answers es256 .gregorian urlBase64 jwsJson anchors False).Follows ⟨memory, some anchors⟩
      (callTrace Go.cap "verify-receipt" [0] (utf8 "!") 79 receiptText)
      ⟨area 79 receiptText, some anchors⟩ :=
  follows_callTrace Go.cap 79 (by decide +kernel) (by decide) (by decide +kernel)

theorem signed_callTrace (memory : Bytes) :
    (Go.Answers es256 .gregorian urlBase64 jwsJson anchors False).Follows ⟨memory, some anchors⟩
      (callTrace Go.cap "verify-signed-data" [0] (signedJws content) 67 signedText)
      ⟨area 67 signedText, some anchors⟩ :=
  follows_callTrace Go.cap 67 (by decide +kernel) (by decide +kernel) (by decide +kernel)

theorem endpoint_callTrace (memory : Bytes) :
    (Go.Answers es256 .gregorian urlBase64 jwsJson anchors False).Follows ⟨memory, some anchors⟩
      (callTrace Go.cap "verify-receipt-endpoint" [0, 0] (utf8 "\x7b\x7d") 16 endpointText)
      ⟨area 16 endpointText, some anchors⟩ :=
  follows_callTrace Go.cap 16 (by decide +kernel) (by decide) (by decide +kernel)

/-- `json.Valid`, on what the parser reads. -/
def valid (text : String) : Bool := (goEncoding.parse text).isSome

theorem takesTexts : Go.TakesTexts valid := by
  intro value fits text spelt
  have read : goEncoding.parse text = some (value, false) :=
    readsTexts_parseText value fits text spelt
  rw [valid, read]
  rfl

end Sample

/-- Three callers at once, each told the core's verdict on its own input: a receipt refused, a JWS
accepted, and an endpoint request answered. -/
theorem says_the_core_three :
    Go.verifyReceipt Sample.goEncoding (some 0) (fun _ _ => .ok (utf8 Sample.receiptText))
        (utf8 "!") =
      (Verifier.verifyReceiptBytesAt Sample.es256 .gregorian Sample.urlBase64 Sample.anchors
        (utf8 "!") 0).map Host.ReceiptPayload.ofCore ∧
    Go.verifySignedData Sample.goEncoding (some 0) (fun _ _ => .ok (utf8 Sample.signedText))
        (Sample.signedJws Sample.content) =
      Verifier.verifySignedDataBytesAt Sample.es256 Sample.urlBase64 Sample.jwsJson Sample.anchors
        (Sample.signedJws Sample.content) 0 ∧
    Go.verifyReceiptEndpoint (some 0) (fun _ _ => .ok (utf8 Sample.endpointText)) Sample.valid
        .production (utf8 "\x7b\x7d") =
      Verifier.verifyReceiptEndpointBytesAt Sample.es256 .gregorian Sample.urlBase64 Sample.jwsJson
        Sample.anchors .production (utf8 "\x7b\x7d") 0 := by
  obtain ⟨s, run, facts⟩ := Option.map_eq_some_iff.mp Sample.verifierEvents_run
  simp only [Prod.mk.injEq] at facts
  obtain ⟨history, history', first, second, third, made⟩ := facts
  have answered : ∀ g, Go.Answered Sample.es256 .gregorian Sample.urlBase64 Sample.jwsJson
      Sample.anchors False (s.guests g).history := by
    intro g
    match g with
    | 0 =>
      rw [history]
      exact ⟨_, _, rfl, World.follows_append.mpr ⟨_, Sample.opened_callTrace,
        World.follows_append.mpr ⟨_, Sample.receipt_callTrace _, Sample.endpoint_callTrace _⟩⟩⟩
    | 1 =>
      rw [history']
      exact ⟨_, _, rfl, World.follows_append.mpr ⟨_, Sample.opened_callTrace,
        Sample.signed_callTrace _⟩⟩
    | g + 2 =>
      rw [(Go.inv_run Go.inv_init run).unmade (g + 2) (by omega)]
      exact ⟨⟨[], none⟩, _, rfl, .nil _⟩
  have texts : ReadsTexts Sample.goEncoding.parse := Sample.readsTexts_parseText
  have decodes : Decodes Sample.urlBase64 Sample.goEncoding.decodeString :=
    Sample.decodeBase64_encode
  have after : (0 : Int64) ≤ 0 := by decide
  have core {c : Nat} {text : String} (returned : s.callers c = .returned (.ok (utf8 text))) :
      ∀ input, Go.SaysTheCore Sample.es256 .gregorian Sample.urlBase64 Sample.jwsJson False
        Sample.goEncoding Sample.valid Sample.anchors 0 input
        (Go.asked Sample.verifierEvents c) (.ok (utf8 text)) := by
    obtain ⟨anchors, made, core⟩ := Go.says_the_core Sample.readsInit texts decodes
      Sample.takesTexts run answered returned after
    have opened : initModule Sample.es256 Sample.urlBase64 Sample.jwsJson Sample.anchors [] =
        .ok Sample.anchors := by decide +kernel
    obtain rfl : Sample.anchors = anchors := Except.ok.inj (opened.symm.trans made)
    exact core
  have served {text : String} : ¬ Go.Unserved False (.ok (utf8 text)) := by
    rintro ⟨err, ⟨⟩, -⟩
  refine ⟨(core first _).receipt ?_ served, (core second _).signed ?_ served,
    (core third _).endpoint .production ?_ served⟩
  · rfl
  · rfl
  · rfl

end ReceiptVerifier
