import Mathlib.Data.List.Forall2
import ReceiptVerifier.Verifier
import ReceiptVerifier.Verify.Endpoint

/-!
# The clock decides only where the input leaves it to

One call asks the caller's clock once at the most, also when the clock panics, and an input that
dates itself never asks it. `Asked` is the invariant of the clock inside a call; a clock that broke
is outside it and ends the call.
-/

namespace ReceiptVerifier

open Openssl

variable {ssl : OpenSsl} {jiff : Jiff} {base64 : Base64} {json : SerdeJson}

/-! ## Clocks -/

/-- A clock over `now` that was not asked yet, or was asked once and remembers. -/
inductive Asked (now : Nat → Option Int) : Clock → Prop
  | never : Asked now (Clock.new now)
  | once {millis : Int} (h : now 0 = some millis) : Asked now ⟨now, some millis, 1⟩

/-- What a call leaves: such a clock, or one that broke at its one read, which is then the
failure. -/
def LeavesClock (now : Nat → Option Int) {α : Type} (answer : Except Failure α × Clock) : Prop :=
  Asked now answer.2 ∨ (answer.2.reads = 1 ∧ answer.1 = .error clockPanicked)

variable {now : Nat → Option Int} {clock : Clock}

theorem Asked.reads_le (h : Asked now clock) : clock.reads ≤ 1 := by
  cases h with
  | never => exact Nat.zero_le 1
  | once _ => exact Nat.le_refl 1

theorem LeavesClock.reads_le {α : Type} {answer : Except Failure α × Clock}
    (h : LeavesClock now answer) : answer.2.reads ≤ 1 := by
  rcases h with asked | ⟨broken, _⟩
  · exact asked.reads_le
  · exact Nat.le_of_eq broken

theorem LeavesClock.of_ok {α : Type} {a : α} {clock : Clock}
    (h : LeavesClock now ((.ok a : Except Failure α), clock)) : Asked now clock := by
  rcases h with asked | ⟨_, failed⟩
  · exact asked
  · cases failed

/-- Asking keeps the invariant. -/
theorem leavesClock_now (h : Asked now clock) : LeavesClock now clock.now := by
  cases h with
  | never =>
    cases given : now 0 with
    | none =>
      right
      simp [Clock.now, Clock.new, given, clockPanicked]
    | some millis =>
      left
      simp only [Clock.now, Clock.new, given]
      exact .once given
  | once given => exact .inl (.once given)

theorem leavesClock_chainInstant (ssl : OpenSsl) (jiff : Jiff) (attributes : SignedAttributes)
    (h : Asked now clock) :
    LeavesClock now (chainInstant ssl jiff attributes clock) := by
  unfold chainInstant
  split
  · exact .inl h
  · exact leavesClock_now h

/-! ## Runs -/

/-- The loop over the `SignerInfo`s asks at most once: what it learns it keeps, and a clock that
breaks ends it. -/
theorem leavesClock_verifySignerInfos {cms : SignedData} {embedded : Embedded}
    {anchors : List TrustAnchor} : ∀ (infos : List SignerInfo) (loop : SignerLoop),
    Asked now loop.clock →
    LeavesClock now (verifySignerInfos ssl jiff cms embedded anchors infos loop).value := by
  intro infos
  induction infos with
  | nil =>
    intro loop asked
    exact .inl asked
  | cons info infos ih =>
    intro loop asked
    rw [verifySignerInfos]
    cases signerCertificates ssl info embedded with
    | error failure => exact ih _ asked
    | ok matched =>
      obtain ⟨first, others⟩ := matched
      simp only [Traced.value_bind]
      generalize loop.parsed.getD (parsePayloadAttributes ssl cms.content) = attributes
      have left := leavesClock_chainInstant ssl jiff attributes asked
      rcases taken : chainInstant ssl jiff attributes loop.clock with ⟨instant, clock⟩
      rw [taken] at left
      cases instant with
      | error failure =>
        rw [chainInstant_error taken]
        rcases left with asked | ⟨broken, _⟩
        · exact .inl asked
        · exact .inr ⟨broken, rfl⟩
      | ok millis =>
        generalize (loop.verdict ssl cms embedded anchors info first others (.ok millis)).value =
          verdict
        obtain ⟨verdict, authenticated⟩ := verdict
        cases verdict with
        | ok => exact .inl left.of_ok
        | error failure =>
          dsimp only
          split
          · exact .inl left.of_ok
          · exact ih _ left.of_ok

theorem leavesClock_verifyEnvelope (ssl : OpenSsl) (jiff : Jiff) (der : Bytes)
    (anchors : List TrustAnchor) (asked : Asked now clock) :
    LeavesClock now (verifyEnvelope ssl jiff der anchors clock).value := by
  unfold verifyEnvelope
  split
  · exact .inl asked
  · exact leavesClock_verifySignerInfos _ _ asked

theorem leavesClock_verifyReceipt (ssl : OpenSsl) (jiff : Jiff) (base64 : Base64) (text : Bytes)
    (anchors : List TrustAnchor) (asked : Asked now clock) :
    LeavesClock now (verifyReceipt ssl jiff base64 text anchors clock).value := by
  unfold verifyReceipt
  split
  · exact .inl asked
  · split
    · exact .inl asked
    next der _ =>
      have left := leavesClock_verifyEnvelope ssl jiff der anchors asked
      simp only [Traced.value_bind]
      rcases run : (verifyEnvelope ssl jiff der anchors clock).value with ⟨verdict, clock'⟩
      rw [run] at left
      cases verdict with
      | error failure =>
        rcases left with asked | ⟨broken, failed⟩
        · exact .inl asked
        · cases failed
          exact .inr ⟨broken, rfl⟩
      | ok attributes => exact .inl left.of_ok

theorem leavesClock_verifyJws (ssl : OpenSsl) (base64 : Base64) (json : SerdeJson) (jws : Bytes)
    (anchors : List TrustAnchor) (asked : Asked now clock) :
    LeavesClock now (verifyJws ssl base64 json jws anchors clock).value := by
  unfold verifyJws
  split
  · exact .inl asked
  next outer _ =>
    have left : LeavesClock now (jwsInstant outer.payload clock) := by
      unfold jwsInstant
      split
      · exact .inl asked
      · exact leavesClock_now asked
    rcases taken : jwsInstant outer.payload clock with ⟨instant, clock'⟩
    rw [taken] at left
    cases instant with
    | error failure =>
      rcases left with asked | ⟨broken, failed⟩
      · exact .inl asked
      · cases failed
        exact .inr ⟨broken, rfl⟩
    | ok millis =>
      dsimp only
      rw [Traced.value_bind]
      split
      · exact .inl left.of_ok
      · exact .inl left.of_ok

theorem clock_respondVerified (jiff : Jiff) (environment : Environment) (payload : ReceiptPayload)
    (clock : Clock) :
    (respondVerified jiff environment payload clock).2 = clock ∨
      (respondVerified jiff environment payload clock).2 = clock.now.2 := by
  rcases taken : clock.now with ⟨instant, clock'⟩
  simp only [respondVerified, taken]
  cases instant <;> dsimp only <;> repeat' split
  all_goals simp

/-- The endpoint asks again only where the verification left the clock unbroken. -/
theorem reads_respond_le (ssl : OpenSsl) (jiff : Jiff) (base64 : Base64) (json : SerdeJson)
    (environment : Environment) (request : Bytes) (anchors : List TrustAnchor)
    (asked : Asked now clock) :
    (respond ssl jiff base64 json environment request anchors clock).value.2.reads ≤ 1 := by
  unfold respond
  split
  · exact asked.reads_le
  next data _ =>
    have left := leavesClock_verifyReceipt ssl jiff base64 (utf8 data) anchors asked
    rw [Traced.value_bind]
    rcases run : (verifyReceipt ssl jiff base64 (utf8 data) anchors clock).value with
      ⟨verdict, clock'⟩
    rw [run] at left
    cases verdict with
    | error failure => exact left.reads_le
    | ok payload =>
      change (respondVerified jiff environment payload clock').2.reads ≤ 1
      rcases clock_respondVerified jiff environment payload clock' with same | once
      · rw [same]
        exact left.of_ok.reads_le
      · rw [once]
        exact (leavesClock_now left.of_ok).reads_le

/-! ## Answers by the one value -/

/-- The verdict on an envelope depends on the clock by its instant alone. -/
theorem value_verifyEnvelope_congr {der : Bytes} {anchors : List TrustAnchor} {clock clock' : Clock}
    (h : clock.instant = clock'.instant) :
    (verifyEnvelope ssl jiff der anchors clock).value.1 =
      (verifyEnvelope ssl jiff der anchors clock').value.1 := by
  cases parsed : SignedData.parse ssl der envelopeLimits with
  | error err => simp only [verifyEnvelope, parsed, Traced.value_pure]
  | ok cms =>
    rw [value_verifyEnvelope parsed, value_verifyEnvelope parsed, instantOf, instantOf, h]

theorem value_verifyReceipt (ssl : OpenSsl) (jiff : Jiff) (base64 : Base64) (text : Bytes)
    (anchors : List TrustAnchor) (clock : Clock) :
    (verifyReceipt ssl jiff base64 text anchors clock).value.1 =
      if text.length > maxReceiptBytes then
        .error ⟨.tooLarge, "receipt exceeds the maximum accepted size of " ++
          toString maxReceiptBytes ++ " bytes"⟩
      else
        (decodeReceiptData base64 text).bind fun der =>
          (verifyEnvelope ssl jiff der anchors clock).value.1.bind
            (decodeSignedPayload ssl jiff) := by
  unfold verifyReceipt
  split
  · rfl
  · cases decodeReceiptData base64 text with
    | error failure => rfl
    | ok der =>
      rw [Traced.value_bind]
      rcases run : (verifyEnvelope ssl jiff der anchors clock).value with ⟨verdict, clock'⟩
      cases verdict <;> simp only [Except.bind, run, Traced.value_pure]

theorem value_verifyReceipt_congr {text : Bytes} {anchors : List TrustAnchor} {clock clock' : Clock}
    (h : clock.instant = clock'.instant) :
    (verifyReceipt ssl jiff base64 text anchors clock).value.1 =
      (verifyReceipt ssl jiff base64 text anchors clock').value.1 := by
  simp only [value_verifyReceipt, value_verifyEnvelope_congr h]

/-- An instant, or the failure of the clock that gave none. -/
def instantOrPanic (instant : Option Int) : Except Failure Int :=
  instant.elim (.error clockPanicked) .ok

theorem now_fst (clock : Clock) : clock.now.1 = instantOrPanic clock.instant := by
  cases given : clock.instant with
  | none => exact Clock.now_of_no_instant given
  | some millis =>
    obtain ⟨_, read, -⟩ := Clock.now_of_instant given
    rw [read]
    rfl

/-- What the chain of a JWS is judged at. -/
def jwsInstantOf (payload : Except Unreadable ReadPayload) (clock : Clock) : Option Int :=
  (payload.toOption.bind ReadPayload.signedDate).or clock.instant

theorem jwsInstant_fst (payload : Except Unreadable ReadPayload) (clock : Clock) :
    (jwsInstant payload clock).1 = instantOrPanic (jwsInstantOf payload clock) := by
  unfold jwsInstant jwsInstantOf
  cases payload.toOption.bind ReadPayload.signedDate with
  | some millis => rfl
  | none =>
    rw [Option.none_or]
    exact now_fst clock

theorem value_verifyJws (ssl : OpenSsl) (base64 : Base64) (json : SerdeJson) (jws : Bytes)
    (anchors : List TrustAnchor) (clock : Clock) :
    (verifyJws ssl base64 json jws anchors clock).value.1 =
      (readOuter ssl base64 json jws).bind fun outer =>
        (instantOrPanic (jwsInstantOf outer.payload clock)).bind fun atMillis =>
          (verifyLeaf ssl outer anchors atMillis).value.bind fun _ =>
            signedPayload outer.payload := by
  unfold verifyJws
  cases readOuter ssl base64 json jws with
  | error failure => rfl
  | ok outer =>
    simp only [Except.bind]
    rw [← jwsInstant_fst]
    rcases jwsInstant outer.payload clock with ⟨instant, clock'⟩
    cases instant with
    | error failure => rfl
    | ok atMillis =>
      simp only [Traced.value_bind]
      cases (verifyLeaf ssl outer anchors atMillis).value <;> rfl

theorem value_verifyJws_congr {jws : Bytes} {anchors : List TrustAnchor} {clock clock' : Clock}
    (h : clock.instant = clock'.instant) :
    (verifyJws ssl base64 json jws anchors clock).value.1 =
      (verifyJws ssl base64 json jws anchors clock').value.1 := by
  simp only [value_verifyJws, jwsInstantOf, h]

/-! ## Inputs that date themselves -/

/-- The date a receipt in its base64 form states: its first attribute 12. -/
def receiptDate (ssl : OpenSsl) (jiff : Jiff) (base64 : Base64) (text : Bytes) : Option Int :=
  match decodeReceiptData base64 text with
  | .error _ => none
  | .ok der =>
    match SignedData.parse ssl der envelopeLimits with
    | .error _ => none
    | .ok cms => signedCreationDate ssl jiff (parsePayloadAttributes ssl cms.content)

/-- The date a JWS states: its `signedDate` or its `receiptCreationDate`. -/
def jwsDate (ssl : OpenSsl) (base64 : Base64) (json : SerdeJson) (jws : Bytes) : Option Int :=
  match readOuter ssl base64 json jws with
  | .error _ => none
  | .ok outer => outer.payload.toOption.bind ReadPayload.signedDate

/-- The loop leaves the clock alone when the content is dated. -/
theorem clock_verifySignerInfos {cms : SignedData} {embedded : Embedded}
    {anchors : List TrustAnchor} {millis : Int}
    (dated : signedCreationDate ssl jiff (parsePayloadAttributes ssl cms.content) = some millis) :
    ∀ (infos : List SignerInfo) (loop : SignerLoop),
      loop.parsed.getD (parsePayloadAttributes ssl cms.content) =
        parsePayloadAttributes ssl cms.content →
      (verifySignerInfos ssl jiff cms embedded anchors infos loop).value.2 = loop.clock := by
  intro infos
  induction infos with
  | nil =>
    intro loop _
    rfl
  | cons info infos ih =>
    intro loop parsed
    rw [verifySignerInfos]
    cases signerCertificates ssl info embedded with
    | error failure => exact ih _ parsed
    | ok matched =>
      obtain ⟨first, others⟩ := matched
      simp only [Traced.value_bind, parsed, chainInstant, dated]
      generalize (loop.verdict ssl cms embedded anchors info first others (.ok millis)).value =
        verdict
      obtain ⟨verdict, authenticated⟩ := verdict
      cases verdict with
      | ok => rfl
      | error failure =>
        dsimp only
        split
        · rfl
        · exact ih _ rfl

theorem dated_verifyReceipt {text : Bytes} {anchors : List TrustAnchor} {millis : Int}
    (dated : receiptDate ssl jiff base64 text = some millis) (clock clock' : Clock) :
    (verifyReceipt ssl jiff base64 text anchors clock).value.2 = clock ∧
      (verifyReceipt ssl jiff base64 text anchors clock).value.1 =
        (verifyReceipt ssl jiff base64 text anchors clock').value.1 := by
  unfold receiptDate at dated
  split at dated
  · cases dated
  next der decoded =>
    split at dated
    · cases dated
    next cms parsed =>
      have unread : (verifyEnvelope ssl jiff der anchors clock).value.2 = clock := by
        simp only [verifyEnvelope, parsed]
        exact clock_verifySignerInfos dated _ _ rfl
      have same : (verifyEnvelope ssl jiff der anchors clock).value.1 =
          (verifyEnvelope ssl jiff der anchors clock').value.1 := by
        rw [value_verifyEnvelope parsed, value_verifyEnvelope parsed, instantOf, instantOf, dated,
          Option.some_or, Option.some_or]
      refine ⟨?_, by simp only [value_verifyReceipt, decoded, Except.bind, same]⟩
      unfold verifyReceipt
      split
      · rfl
      · simp only [decoded, Traced.value_bind]
        split
        · exact unread
        · exact unread

theorem dated_verifyJws {jws : Bytes} {anchors : List TrustAnchor} {millis : Int}
    (dated : jwsDate ssl base64 json jws = some millis) (clock clock' : Clock) :
    (verifyJws ssl base64 json jws anchors clock).value.2 = clock ∧
      (verifyJws ssl base64 json jws anchors clock).value.1 =
        (verifyJws ssl base64 json jws anchors clock').value.1 := by
  unfold jwsDate at dated
  split at dated
  · cases dated
  next outer read =>
    refine ⟨?_, ?_⟩
    · simp only [verifyJws, read, jwsInstant, dated, Traced.value_bind]
      split
      · rfl
      · rfl
    · simp only [value_verifyJws, read, Except.bind, jwsInstantOf, dated, Option.some_or]

/-! ## The answers of the endpoint -/

/-- Two objects with the same names in the same order, whose values differ under `names` only. -/
def AgreeOutside (names : List String) (json json' : JsonMap) : Prop :=
  List.Forall₂ (fun member member' => member.1 = member'.1 ∧
    (member.1 ∉ names → member.2 = member'.2)) json json'

section

variable {names : List String} {map map' : JsonMap}

theorem AgreeOutside.insert (h : AgreeOutside names map map') (key : String)
    {value value' : JsonValue}
    (same : key ∉ names → value = value') :
    AgreeOutside names (map.insert key value) (map'.insert key value') := by
  induction h with
  | nil => exact .cons ⟨rfl, same⟩ .nil
  | cons head tail ih =>
    rename_i member member' map map'
    obtain ⟨name, held⟩ := member
    obtain ⟨name', held'⟩ := member'
    obtain ⟨rfl, values⟩ := head
    simp only [JsonMap.insert]
    split
    · exact .cons ⟨rfl, same⟩ (.cons ⟨rfl, values⟩ tail)
    · split
      · exact .cons ⟨rfl, same⟩ tail
      · exact .cons ⟨rfl, values⟩ ih

theorem AgreeOutside.presentString (h : AgreeOutside names map map') (key : String)
    (value : Option String) :
    AgreeOutside names (presentString map key value) (presentString map' key value) := by
  cases value with
  | none => exact h
  | some value => exact h.insert key fun _ => rfl

theorem AgreeOutside.presentNumberAsString (h : AgreeOutside names map map') (key : String)
    (value : Option Int) :
    AgreeOutside names (presentNumberAsString map key value)
      (presentNumberAsString map' key value) := by
  cases value with
  | none => exact h
  | some value => exact h.presentString key (some (toString value))

theorem rel_bind {α β γ δ : Type} {R : α → β → Prop} {S : γ → δ → Prop} {x : Option α}
    {y : Option β} {f : α → Option γ} {g : β → Option δ} (h : Option.Rel R x y)
    (step : ∀ a b, R a b → Option.Rel S (f a) (g b)) : Option.Rel S (x.bind f) (y.bind g) := by
  cases h with
  | none => exact .none
  | some related => exact step _ _ related

theorem AgreeOutside.appleDates (h : AgreeOutside names map map') (name : String)
    (millis : Option Int) :
    Option.Rel (AgreeOutside names) (appleDates jiff map name millis)
      (appleDates jiff map' name millis) := by
  unfold ReceiptVerifier.appleDates
  cases millis with
  | none => exact .some h
  | some millis =>
    dsimp only
    cases formatEtcGmt jiff millis with
    | none => exact .none
    | some gmt =>
      cases formatPacific jiff millis with
      | none => exact .none
      | some pacific =>
        exact .some (((h.presentString _ _).presentNumberAsString _ _).presentString _ _)

/-- Two dates under names that are left out. -/
theorem AgreeOutside.appleDates_renders (h : AgreeOutside names map map') {name : String}
    {millis millis' : Int} (shown : renders millis = true) (shown' : renders millis' = true)
    (out : name ∈ names) (outMs : name ++ "_ms" ∈ names) (outPst : name ++ "_pst" ∈ names) :
    Option.Rel (AgreeOutside names) (ReceiptVerifier.appleDates jiff map name (some millis))
      (ReceiptVerifier.appleDates jiff map' name (some millis')) := by
  obtain ⟨gmt, eq⟩ :=
    Option.isSome_iff_exists.mp (@formatEtcGmt_isSome_iff jiff millis |>.mpr shown)
  obtain ⟨gmt', eq'⟩ :=
    Option.isSome_iff_exists.mp (@formatEtcGmt_isSome_iff jiff millis' |>.mpr shown')
  obtain ⟨pst, pacific⟩ := Option.isSome_iff_exists.mp (@formatPacific_isSome jiff millis shown)
  obtain ⟨pst', pacific'⟩ := Option.isSome_iff_exists.mp (@formatPacific_isSome jiff millis' shown')
  simp only [ReceiptVerifier.appleDates, eq, pacific, eq', pacific']
  exact .some (((h.insert name (absurd out)).insert (name ++ "_ms") (absurd outMs)).insert
    (name ++ "_pst") (absurd outPst))

end

/-- The members the time of the request is in. -/
def requestDateNames : List String := ["request_date", "request_date_ms", "request_date_pst"]

/-- Objects that differ in the request dates alone. -/
inductive SameReceipt : JsonValue → JsonValue → Prop
  | object {map map' : JsonMap} (h : AgreeOutside requestDateNames map map') :
    SameReceipt (.object map) (.object map')

theorem receiptJson_agree (receipt : ReceiptPayload) {millis millis' : Int}
    (shown : renders millis = true) (shown' : renders millis' = true) :
    Option.Rel SameReceipt (receiptJson jiff receipt millis)
      (receiptJson jiff receipt millis') := by
  have same : ∀ map : JsonMap, AgreeOutside requestDateNames map map :=
    fun map => List.forall₂_same.mpr fun _ _ => ⟨rfl, fun _ => rfl⟩
  unfold receiptJson
  refine rel_bind ((same _).appleDates _ _) fun _ _ agree => ?_
  refine rel_bind (agree.appleDates_renders shown shown' (by decide) (by decide) (by decide))
    fun _ _ agree => ?_
  refine rel_bind (agree.appleDates _ _) fun _ _ agree => ?_
  refine rel_bind (agree.appleDates _ _) fun _ _ agree => ?_
  refine rel_bind (agree.appleDates _ _) fun _ _ agree => ?_
  cases receipt.inApp.mapM (purchaseJson jiff) with
  | none => exact .none
  | some inApp => exact .some (.object (agree.insert "in_app" fun _ => rfl))

/-- Two answers for one request that differ in the request dates alone. -/
def SameAnswer (environment : Environment) (answer answer' : String) : Prop :=
  answer = answer' ∨ ∃ receipt receipt', answer = okResponse environment receipt ∧
    answer' = okResponse environment receipt' ∧ SameReceipt receipt receipt'

theorem respondVerified_agree {environment : Environment} {payload : ReceiptPayload}
    {now now' : Nat → Option Int} {millis millis' : Int} (given : now 0 = some millis)
    (given' : now' 0 = some millis') (shown : renders millis = true)
    (shown' : renders millis' = true) :
    SameAnswer environment (respondVerified jiff environment payload (Clock.new now)).1
      (respondVerified jiff environment payload (Clock.new now')).1 := by
  by_cases routed : Routed environment payload
  · by_cases raw : 17 ∈ payload.unknownAttributes
    · exact .inl ((respondVerified_undecoded routed raw).trans
        (respondVerified_undecoded routed raw).symm)
    · rw [respondVerified_routed routed raw, respondVerified_routed routed raw]
      have read : (Clock.new now).instant = some millis := given
      have read' : (Clock.new now').instant = some millis' := given'
      have same := @receiptJson_agree jiff payload millis millis' shown shown'
      rw [now_fst, now_fst, read, read']
      dsimp only [instantOrPanic, Option.elim]
      unfold render
      generalize receiptJson jiff payload millis = receipt at same ⊢
      generalize receiptJson jiff payload millis' = receipt' at same ⊢
      cases same with
      | none => exact .inl rfl
      | some same => exact .inr ⟨_, _, rfl, rfl, same⟩
  · exact .inl ((respondVerified_misrouted routed).trans (respondVerified_misrouted routed).symm)

theorem respondVerified_congr {environment : Environment} {payload : ReceiptPayload}
    {clock clock' : Clock} (h : clock.instant = clock'.instant) :
    (respondVerified jiff environment payload clock).1 =
      (respondVerified jiff environment payload clock').1 := by
  by_cases routed : Routed environment payload
  · by_cases raw : 17 ∈ payload.unknownAttributes
    · rw [respondVerified_undecoded routed raw, respondVerified_undecoded routed raw]
    · rw [respondVerified_routed routed raw, respondVerified_routed routed raw, now_fst, now_fst, h]
  · rw [respondVerified_misrouted routed, respondVerified_misrouted routed]

/-- The endpoint's answer depends on the clock by its instant alone. -/
theorem value_respond_congr {environment : Environment} {request : Bytes}
    {anchors : List TrustAnchor} {clock clock' : Clock} (h : clock.instant = clock'.instant) :
    (respond ssl jiff base64 json environment request anchors clock).value.1 =
      (respond ssl jiff base64 json environment request anchors clock').value.1 := by
  unfold respond
  split
  · rfl
  next data _ =>
    have verdicts := @value_verifyReceipt_congr ssl jiff base64 (utf8 data) anchors clock clock' h
    have kept := @verifyReceipt_ok ssl jiff base64 (utf8 data) anchors clock
    have kept' := @verifyReceipt_ok ssl jiff base64 (utf8 data) anchors clock'
    simp only [Traced.value_bind]
    rcases run : (verifyReceipt ssl jiff base64 (utf8 data) anchors clock).value with
      ⟨verdict, left⟩
    rcases run' : (verifyReceipt ssl jiff base64 (utf8 data) anchors clock').value with
      ⟨verdict', left'⟩
    rw [run] at verdicts kept
    rw [run'] at verdicts kept'
    obtain rfl : verdict = verdict' := verdicts
    cases verdict with
    | error failure => rfl
    | ok payload =>
      obtain ⟨_, _, -, -, -, same⟩ := kept rfl
      obtain ⟨_, _, -, -, -, same'⟩ := kept' rfl
      exact respondVerified_congr (same.trans (h.trans same'.symm))

theorem dated_respond {environment : Environment} {request : Bytes} {data : String}
    {anchors : List TrustAnchor} {now now' : Nat → Option Int} {signed millis millis' : Int}
    (own : receiptData json request = .ok data)
    (dated : receiptDate ssl jiff base64 (utf8 data) = some signed) (given : now 0 = some millis)
    (given' : now' 0 = some millis') (shown : renders millis = true)
    (shown' : renders millis' = true) :
    SameAnswer environment
      (respond ssl jiff base64 json environment request anchors (Clock.new now)).value.1
      (respond ssl jiff base64 json environment request anchors (Clock.new now')).value.1 := by
  obtain ⟨unread, same⟩ :=
    @dated_verifyReceipt ssl jiff base64 _ anchors _ dated (Clock.new now) (Clock.new now')
  obtain ⟨unread', -⟩ :=
    @dated_verifyReceipt ssl jiff base64 _ anchors _ dated (Clock.new now') (Clock.new now)
  simp only [respond, own, Traced.value_bind]
  rcases run : (verifyReceipt ssl jiff base64 (utf8 data) anchors (Clock.new now)).value with
    ⟨verdict, clock⟩
  rcases run' : (verifyReceipt ssl jiff base64 (utf8 data) anchors (Clock.new now')).value with
    ⟨verdict', clock'⟩
  rw [run] at same unread
  rw [run'] at same unread'
  obtain rfl : verdict = verdict' := same
  obtain rfl : clock = Clock.new now := unread
  obtain rfl : clock' = Clock.new now' := unread'
  cases verdict with
  | error failure => exact .inl rfl
  | ok payload => exact respondVerified_agree given given' shown shown'

/-! ## The operations -/

section

variable {α : Type} (call : (Nat → Option Int) → Run (α × Clock))

/-- A call that asks the clock once at the most, and answers by what the first read gave. -/
structure OneRead : Prop where
  once : ∀ now, (call now).value.2.reads ≤ 1
  one_value : ∀ now, (call now).value.1 = (call fun _ => now 0).value.1

/-- A call that never asks the clock, and answers alike for all of them. -/
structure NoRead : Prop where
  unread : ∀ now, (call now).value.2.reads = 0
  same : ∀ now now', (call now).value.1 = (call now').value.1

end

theorem oneRead_contained {α : Type} (roots : List TrustAnchor)
    {verify : Clock → Run (Except Failure α × Clock)}
    (once : ∀ now, LeavesClock now (verify (Clock.new now)).value)
    (congr : ∀ clock clock' : Clock, clock.instant = clock'.instant →
      (verify clock).value.1 = (verify clock').value.1) :
    OneRead fun now => Verifier.contained roots now verify := by
  unfold Verifier.contained
  cases Verifier.checkAnchors roots with
  | error failure => exact ⟨fun _ => Nat.zero_le 1, fun _ => rfl⟩
  | ok => exact ⟨fun now => (once now).reads_le, fun _ => congr _ _ rfl⟩

theorem noRead_contained {α : Type} (roots : List TrustAnchor)
    {verify : Clock → Run (Except Failure α × Clock)}
    (unread : ∀ clock clock' : Clock, (verify clock).value.2 = clock ∧
      (verify clock).value.1 = (verify clock').value.1) :
    NoRead fun now => Verifier.contained roots now verify := by
  unfold Verifier.contained
  cases Verifier.checkAnchors roots with
  | error failure => exact ⟨fun _ => rfl, fun _ _ => rfl⟩
  | ok =>
    refine ⟨fun now => ?_, fun now now' => (unread _ (Clock.new now')).2⟩
    dsimp only
    rw [(unread (Clock.new now) (Clock.new now)).1]
    rfl

theorem oneRead_endpoint (ssl : OpenSsl) (jiff : Jiff) (base64 : Base64) (json : SerdeJson)
    (roots : List TrustAnchor) (environment : Environment) (request : Bytes) :
    OneRead (Verifier.endpoint ssl jiff base64 json roots environment request) := by
  unfold Verifier.endpoint
  cases Verifier.checkAnchors roots with
  | error failure => exact ⟨fun _ => Nat.zero_le 1, fun _ => rfl⟩
  | ok =>
    exact ⟨fun now => reads_respond_le ssl jiff base64 json environment request roots .never,
      fun _ => value_respond_congr rfl⟩

/-- **The clock decides only where the input leaves it to.** An input that dates itself is judged
without it; every call asks it at most once and knows nothing of it but what that read gave; and the
endpoint's answers on a receipt that dates itself differ in the request dates alone. -/
theorem clock_independence (ssl : OpenSsl) (jiff : Jiff) (base64 : Base64) (json : SerdeJson)
    (roots : List TrustAnchor) :
    (∀ text millis, receiptDate ssl jiff base64 text = some millis →
      NoRead (Verifier.receipt ssl jiff base64 roots text)) ∧
    (∀ jws millis, jwsDate ssl base64 json jws = some millis →
      NoRead (Verifier.signedData ssl base64 json roots jws)) ∧
    (∀ text, OneRead (Verifier.receipt ssl jiff base64 roots text)) ∧
    (∀ jws, OneRead (Verifier.signedData ssl base64 json roots jws)) ∧
    (∀ environment request,
      OneRead (Verifier.endpoint ssl jiff base64 json roots environment request)) ∧
    ∀ environment request data signed now now' millis millis',
      receiptData json request = .ok data →
      receiptDate ssl jiff base64 (utf8 data) = some signed →
      now 0 = some millis → now' 0 = some millis' → renders millis = true →
      renders millis' = true →
      SameAnswer environment (endpoint ssl jiff base64 json roots environment request now).value
        (endpoint ssl jiff base64 json roots environment request now').value := by
  refine ⟨fun text millis dated => ?_, fun jws millis dated => ?_, fun text => ?_, fun jws => ?_,
    oneRead_endpoint ssl jiff base64 json roots, ?_⟩
  · exact noRead_contained roots fun clock clock' => dated_verifyReceipt dated clock clock'
  · exact noRead_contained roots fun clock clock' => dated_verifyJws dated clock clock'
  · exact oneRead_contained roots
      (fun _ => leavesClock_verifyReceipt ssl jiff base64 text roots .never)
      (fun _ _ same => value_verifyReceipt_congr same)
  · exact oneRead_contained roots (fun _ => leavesClock_verifyJws ssl base64 json jws roots .never)
      (fun _ _ same => value_verifyJws_congr same)
  · intro environment request data signed now now' millis millis' own dated given given'
      shown shown'
    rw [Verifier.value_endpoint, Verifier.value_endpoint]
    unfold Verifier.endpoint
    cases Verifier.checkAnchors roots with
    | error failure => exact .inl rfl
    | ok => exact dated_respond own dated given given' shown shown'

/-! ## A receipt that dates itself -/

namespace Sample

/-- The `IA5String` of a date. -/
def dateValue : Bytes := [0x16, 0x14] ++ utf8 "2020-01-01T00:00:00Z"

/-- The attribute SET of an attribute 12 alone. -/
def datedContent : Bytes :=
  [0x31, 0x20, 0x30, 0x1e, 0x02, 0x01, 0x0c, 0x02, 0x01, 0x01, 0x04, 0x16] ++ dateValue

/-- The sample world with that content in its envelope. -/
def datedSsl : OpenSsl :=
  { openSsl with
    contentInfo := fun der =>
      (contentInfo der).map fun info => ({ info with content := some datedContent }, true)
    receiptPayload := fun der =>
      if der = datedContent then some [[.integer 12, .integer 1, .octetString dateValue]] else none
    displayText := fun der =>
      if der = dateValue then some (22, utf8 "2020-01-01T00:00:00Z") else none }

/-- The base64 form of the envelope `30 00`. -/
def receiptBase64 : Base64 where
  decodeReceipt text := if text = utf8 "MAA=" then some [0x30, 0x00] else none
  decodeUrl _ := none
  decodeStandard text :=
    if text = utf8 "MAA=" then .ok [0x30, 0x00] else .error "Invalid symbol"
  encode bytes := if bytes = [0x30, 0x00] then "MAA=" else ""

end Sample

/-- A clock that panics does not keep a dated receipt from verifying. -/
theorem clock_independence_dated :
    receiptDate Sample.datedSsl .gregorian Sample.receiptBase64 (utf8 "MAA=") = some 1577836800000 ∧
      NoRead (Verifier.receipt Sample.datedSsl .gregorian Sample.receiptBase64 Sample.anchors
        (utf8 "MAA=")) ∧
      ((Verifier.receipt Sample.datedSsl .gregorian Sample.receiptBase64 Sample.anchors
        (utf8 "MAA=")
        fun _ => none).value.1.map ReceiptPayload.receiptCreationDateMs).toOption =
          some (some 1577836800000) := by
  have dated : receiptDate Sample.datedSsl .gregorian Sample.receiptBase64 (utf8 "MAA=") =
      some 1577836800000 := by decide +kernel
  exact ⟨dated, (clock_independence Sample.datedSsl .gregorian Sample.receiptBase64
    ⟨fun _ => none, fun _ => none, fun _ => .error "", fun _ => none, fun _ => none, fun _ => none⟩
    Sample.anchors).1 _ _ dated, by decide +kernel⟩

end ReceiptVerifier
