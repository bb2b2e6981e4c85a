import ReceiptVerifier.Python.Verifier
import ReceiptVerifier.Verify.GoCalls
import ReceiptVerifier.Verify.PythonWire

/-!
# One call of the Python host on an instance of the module

On an instance that answers as the canonical ABI says (`Python.Answers`) a call returns what the
export's body answers to the input (`meets_call`), so that what a thread does with an instance comes
to the core's verdict (`meets_serve`).
-/

namespace ReceiptVerifier

open Openssl

namespace Python

/-! ## Words -/

theorem unsigned_lt (value : Int) : unsigned value < 2 ^ 32 := by
  unfold unsigned
  omega

theorem toUInt64_ofNat {n : Nat} (small : n < 2 ^ 32) : (UInt32.ofNat n).toUInt64 = .ofNat n := by
  apply UInt64.toNat_inj.mp
  rw [UInt32.toNat_toUInt64, UInt32.toNat_ofNat', UInt64.toNat_ofNat']
  omega

theorem toNat_ofNat {n : Nat} (small : n < 2 ^ 32) : (UInt32.ofNat n).toNat = n := by
  rw [UInt32.toNat_ofNat']
  omega

/-- An instant of the clock reaches the core as it is. -/
theorem liftInt_ofInt {n : Int} (low : 0 ≤ n) (high : n ≤ 2 ^ 63 - 1) :
    Abi.liftInt (UInt64.ofInt n) = n := by
  obtain ⟨k, rfl⟩ := Int.eq_ofNat_of_zero_le low
  have whole : UInt64.ofInt (k : Int) = .ofNat k := by
    rw [UInt64.ofInt]
    congr 1
    omega
  rw [Abi.liftInt, whole, UInt64.toInt64_ofNat', Int64.toInt_ofNat_of_lt (by omega)]

theorem bytes_of_readUint32Le {i : Abi.Instance} {offset word : UInt32}
    (there : i.readUint32Le offset = some word) :
    ∃ a b c d, (i.memory.drop offset.toNat).take 4 = [a, b, c, d] ∧
      word.toNat = Python.word a b c d := by
  rw [Abi.Instance.readUint32Le, Abi.Instance.slice] at there
  split at there
  next a b c d bytes =>
    cases there
    exact ⟨a, b, c, d, bytes, rfl⟩
  · cases there

/-- The eight bytes of a return area are its two words. -/
theorem unpack_area {i : Abi.Instance} {area : UInt32} (near : area ≤ 0xffffffff - 8)
    {ptr n : UInt32} (ptrAt : i.readUint32Le area = some ptr)
    (nAt : i.readUint32Le (area + 4) = some n) :
    unpack ((i.memory.drop area.toNat).take 8) = some (ptr.toNat, n.toNat) ∧
      area.toNat + 8 ≤ i.memory.length := by
  have later : (area + 4).toNat = area.toNat + 4 := by
    have bound : area.toNat ≤ 0xffffffff - 8 := UInt32.le_iff_toNat_le.mp near
    rw [UInt32.toNat_add]
    change (area.toNat + 4) % 2 ^ 32 = area.toNat + 4
    omega
  obtain ⟨a, b, c, d, front, ptrIs⟩ := bytes_of_readUint32Le ptrAt
  obtain ⟨e, f, g, h, back, nIs⟩ := bytes_of_readUint32Le nAt
  rw [later] at back
  have whole : (i.memory.drop area.toNat).take 8 = [a, b, c, d] ++ [e, f, g, h] := by
    rw [← front, ← back, ← List.drop_drop]
    exact List.take_add (i := 4) (j := 4)
  constructor
  · rw [whole, ptrIs, nIs]
    rfl
  · have four := congrArg List.length back
    rw [List.length_take, List.length_drop] at four
    change min 4 _ = 4 at four
    omega

section

variable {ssl : OpenSsl} {jiff : Jiff} {base64 : Base64} {json : SerdeJson}
  {appleRoots : List TrustAnchor} {fails : Prop}

/-! ## One call on an instance -/

/-- How a call may end on an instance: with the text of the export's body over the input handed on,
or not at all where the machinery failed, the body trapped or the input has no 32-bit length. -/
def Ended (fails : Prop) (slot : Abi.Slot) (outcome : Option (String × Abi.Slot)) (input : Bytes)
    (i : Abi.Instance) : Except Fault String → Prop
  | .ok text => outcome = some (text, i.slot) ∧ input.length < 2 ^ 32
  | .error _ =>
    (∀ anchors, slot = some anchors → i.slot = some anchors) ∧
      (fails ∨ outcome = none ∨ 2 ^ 32 ≤ input.length)

variable {α β : Type} {world : World Abi.Instance Request Response}
  {post : Abi.Instance → Except Fault α → Prop} {i : Abi.Instance}

/-- A request meets a postcondition where what it raises does, and the rest from its answer on. -/
theorem meets_ask {r : Request} {f : Answer r → Call α}
    (raised : ∀ type i', world i r (.error type) i' → post i' (.error (r.fault type)))
    (answered : ∀ a i', world i r (.ok a) i' → (f a).run.Meets world post i') :
    (ask r >>= f).run.Meets world post i := by
  intro response i' now
  cases response with
  | error type => exact raised type i' now
  | ok a => exact answered a i' now

/-- A sequence meets a postcondition where the faults of its first part do, and the rest from its
results on. -/
theorem meets_bind {p : Call β} {f : β → Call α} {mid : Abi.Instance → Except Fault β → Prop}
    (first : p.run.Meets world mid i)
    (faults : ∀ fault i', mid i' (.error fault) → post i' (.error fault))
    (rest : ∀ b i', mid i' (.ok b) → (f b).run.Meets world post i') :
    (p >>= f).run.Meets world post i := by
  rw [ExceptT.run_bind, Program.meets_bind]
  refine first.mono fun i' outcome met => ?_
  cases outcome with
  | error fault => exact faults fault i' met
  | ok b => exact rest b i' met

/-- Reading the return area of a text, where the export left one. -/
theorem meets_answer {fn : String} {area : UInt32} {text : String} {slot slot' : Abi.Slot}
    {input : Bytes} (returns : i.Returns area text) (left : i.slot = slot')
    (short : input.length < 2 ^ 32)
    (keeps : ∀ anchors, slot = some anchors → i.slot = some anchors) :
    (answer fn area.toNat).run.Meets (Answers ssl jiff base64 json appleRoots fails)
      (Ended fails slot (some (text, slot')) input) i := by
  obtain ⟨near, ptr, n, ptrAt, nAt, inside, held⟩ := returns
  obtain ⟨words, room⟩ := unpack_area near ptrAt nAt
  have inside : ptr.toNat + n.toNat ≤ i.memory.length := inside
  refine meets_ask ?_ ?_
  · rintro type _ ⟨rfl, failed⟩
    exact ⟨keeps, .inl failed⟩
  rintro _ _ ⟨rfl, rfl⟩
  rw [if_neg (Nat.not_lt.mpr room)]
  refine meets_ask ?_ ?_
  · rintro type _ ⟨rfl, failed⟩
    exact ⟨keeps, .inl failed⟩
  rintro _ _ ⟨rfl, rfl⟩
  rw [Nat.add_sub_cancel_left, words]
  dsimp only
  rw [if_neg (Nat.not_lt.mpr inside)]
  refine meets_ask ?_ ?_
  · rintro type _ ⟨rfl, failed⟩
    exact ⟨keeps, .inl failed⟩
  rintro _ _ ⟨rfl, rfl⟩
  refine meets_ask ?_ ?_
  · rintro type i' ⟨same, failed⟩
    exact ⟨fun anchors filled => same.trans (keeps anchors filled), .inl failed⟩
  intro _ i' same
  have same : i'.slot = _ := same
  have read := congrArg fromUtf8 held
  rw [Abi.Instance.slice, fromUtf8_utf8] at read
  rw [Nat.add_sub_cancel_left, read]
  exact ⟨by rw [same, left], short⟩

/-- How the input may come to lie in its buffer: so that an export lifts it from there, or not at
all where the machinery failed or the input has no 32-bit length. -/
def Placed (fails : Prop) (slot : Abi.Slot) (pointer : Nat) (input : Bytes) (i : Abi.Instance) :
    Except Fault Unit → Prop
  | .ok _ => i.slot = slot ∧ input.length < 2 ^ 32 ∧
    Abi.liftList i.memory (.ofNat pointer) (.ofNat input.length) = some input
  | .error _ => i.slot = slot ∧ (fails ∨ 2 ^ 32 ≤ input.length)

/-- A guest's own buffer takes the input. -/
theorem meets_place {input : Bytes} {buffer : Int} {slot : Abi.Slot} (same : i.slot = slot)
    (positive : 0 < unsigned buffer)
    (room : unsigned buffer + input.length % 2 ^ 32 ≤ i.memory.length)
    (small : i.memory.length ≤ 2 ^ 32) :
    (place input (unsigned buffer)).run.Meets (Answers ssl jiff base64 json appleRoots fails)
      (Placed fails slot (unsigned buffer) input) i := by
  have ptr : (UInt32.ofNat (unsigned buffer)).toNat = unsigned buffer :=
    toNat_ofNat (unsigned_lt buffer)
  unfold place
  split
  next none =>
    refine ⟨same, by omega, ?_⟩
    obtain rfl := List.length_eq_zero_iff.mp none
    have start : (UInt64.ofNat (unsigned buffer)).toUInt32.toNat = unsigned buffer := by
      rw [← toUInt64_ofNat (unsigned_lt buffer), UInt32.toUInt32_toUInt64, ptr]
    rw [Abi.liftList, start]
    simp only [List.length_nil, Nat.zero_mod, Nat.add_zero] at room
    simp [Nat.not_lt.mpr room]
  next some =>
    refine meets_ask ?_ ?_
    · rintro type i₁ ⟨rfl, failed⟩
      exact ⟨same, .inl failed⟩
    rintro _ i₁ ⟨rfl, rfl⟩
    split
    next outside =>
      have outside : i₁.memory.length < unsigned buffer + input.length := outside
      exact ⟨same, .inr (by omega)⟩
    next inside =>
      have inside : ¬ i₁.memory.length < unsigned buffer + input.length := inside
      have short : input.length < 2 ^ 32 := by omega
      have fits : i₁.Inside (.ofNat (unsigned buffer)) input.length := by
        rw [Abi.Instance.Inside, ptr]
        omega
      have lifted := Abi.liftList_write fits short
      rw [toUInt64_ofNat (unsigned_lt buffer)] at lifted
      intro response i₂ now
      cases response with
      | error type =>
        obtain ⟨unchanged, failed | outside⟩ := now
        · exact ⟨unchanged ▸ same, .inl failed⟩
        · exact absurd outside inside
      | ok _ =>
        obtain rfl : i₂ = _ := now
        exact ⟨same, short, lifted⟩

/-- **One call returns what the export answers to its input.** The input passes cut to the limit of
its instance, through a buffer of the guest's own, and the text comes back through the return
area. -/
theorem meets_call {fn : String} {scalars : List Int} {data : Bytes} {maxInput : Option Nat}
    (body : Bytes → Abi.Slot → Option (String × Abi.Slot))
    (lifts : ∀ (i : Abi.Instance) (ptr len : UInt64) (input : Bytes),
      Abi.liftList i.memory ptr len = some input →
      i.invoke ssl jiff base64 json appleRoots fn (scalars.map UInt64.ofInt ++ [ptr, len]) =
        body input i.slot)
    {input : Bytes} (handed : cut maxInput fn data = input) :
    (call maxInput fn scalars data).run.Meets (Answers ssl jiff base64 json appleRoots fails)
      (Ended fails i.slot (body input i.slot) input) i := by
  unfold call
  rw [handed]
  refine meets_ask ?_ ?_
  · rintro type i' ⟨same, failed⟩
    exact ⟨fun anchors filled => same.trans filled, .inl failed⟩
  rintro buffer i₁ ⟨same, positive, room, small⟩
  refine meets_bind (meets_place same positive room small) ?_ ?_
  · rintro fault i₂ ⟨kept, why⟩
    exact ⟨fun anchors filled => kept.trans filled, why.imp_right .inr⟩
  rintro _ i₂ ⟨kept, short, lifted⟩
  have ended := lifts i₂ _ _ _ lifted
  rw [kept] at ended
  refine meets_ask ?_ ?_
  · rintro type i₃ ⟨keeps, why⟩
    rw [kept] at keeps
    rw [coreArguments, ended] at why
    exact ⟨keeps, why.imp_right .inl⟩
  rintro area i₃ ⟨text, invoked, returns⟩
  have keeps : ∀ anchors, i.slot = some anchors → i₃.slot = some anchors :=
    fun anchors filled => Abi.invoke_keeps invoked (kept.trans filled)
  rw [coreArguments, ended] at invoked
  rw [invoked]
  have start : (UInt32.ofNat (unsigned area)).toNat = unsigned area :=
    toNat_ofNat (unsigned_lt area)
  rw [← start]
  exact meets_answer returns rfl short keeps

/-! ## The exports -/

variable (config : Bytes) (accepts : String → Option Nat)

/-- How making an instance may end: with what `init` answers to the configuration, or not at all. -/
def Created (ssl : OpenSsl) (base64 : Base64) (json : SerdeJson) (appleRoots : List TrustAnchor)
    (fails : Prop) (i : Abi.Instance) : Except Fault (Option Nat × String) → Prop
  | .ok (maxInput, answer) =>
    Abi.init ssl base64 json appleRoots none config = some (answer, i.slot) ∧
      maxInput = accepts answer ∧ config.length < 2 ^ 32
  | .error _ => fails ∨ 2 ^ 32 ≤ config.length

theorem meets_create :
    (create config accepts).run.Meets (Answers ssl jiff base64 json appleRoots fails)
      (Created config accepts ssl base64 json appleRoots fails) i := by
  refine meets_ask (fun _ _ failed => .inl failed) fun _ i₁ (empty : i₁.slot = none) => ?_
  have called : (call none "init" [] config).run.Meets
      (Answers ssl jiff base64 json appleRoots fails)
      (Ended fails i₁.slot (Abi.init ssl base64 json appleRoots i₁.slot config) config) i₁ := by
    refine meets_call (fun input slot => Abi.init ssl base64 json appleRoots slot input) ?_ rfl
    intro i ptr len input lifted
    simp [Abi.Instance.invoke, lifted]
  rw [empty] at called
  refine meets_bind called ?_ ?_
  · rintro fault i₂ ⟨-, failed | trapped | long⟩
    · exact .inl failed
    · cases trapped
    · exact .inr long
  · rintro answer i₂ ⟨ended, small⟩
    exact ⟨ended, rfl, small⟩

end

section

variable {ssl : OpenSsl} {jiff : Jiff} {base64 : Base64} {json : SerdeJson}
  {appleRoots anchors : List TrustAnchor} {fails : Prop} {library : Library} {i : Abi.Instance}

/-- What the core decides of an input, as the method tells it. -/
def Method.verdict (ssl : OpenSsl) (jiff : Jiff) (base64 : Base64) (json : SerdeJson)
    (anchors : List TrustAnchor) (method : Method) (now : Int) (data : Bytes) : Reply :=
  match method with
  | .verifyReceipt => .receipt
    ((Verifier.verifyReceiptBytesAt ssl jiff base64 anchors data now).map
      Host.ReceiptPayload.ofCore)
  | .verifySignedData => .signedData
    (Verifier.verifySignedDataBytesAt ssl base64 json anchors data now)
  | .verifyReceiptEndpoint environment => .endpoint
    (Verifier.verifyReceiptEndpointBytesAt ssl jiff base64 json anchors environment data now)

theorem parse_answer (reads : Wire.Reads base64 library) (method : Method) (now : Int)
    (data : Bytes) :
    (method.job library now data).parse ((method.op now).answer base64 ssl jiff json anchors data) =
      .ok (method.verdict ssl jiff base64 json anchors now data) := by
  cases method with
  | verifyReceipt =>
    have fits : ∀ receipt, Verifier.verifyReceiptBytesAt ssl jiff base64 anchors data now =
        .ok receipt → PayloadFits receipt := fun _ => payloadFits_verifyReceiptBytesAt
    simp only [Method.job, Method.op, Op.answer, Wire.receiptResult_eq reads fits]
    rfl
  | verifySignedData =>
    simp only [Method.job, Method.op, Op.answer, Wire.signedDataResult_eq reads]
    rfl
  | verifyReceiptEndpoint environment =>
    obtain ⟨members, responds⟩ :=
      respondsWith_endpoint ssl jiff base64 json anchors environment data
      fun _ => some now
    have read := Wire.endpointAnswer_eq reads responds
    simp only [Method.job, Method.op, Op.answer]
    exact congrArg (Except.map Reply.endpoint) read

/-- A method on an instance whose `init` accepted answers the whole input. -/
theorem meets_method (filled : i.slot = some anchors) (method : Method) {now : Int} (low : 0 ≤ now)
    (high : now ≤ 2 ^ 63 - 1) (data : Bytes) :
    (call (some maxInputBytes) (method.job library now data).fn
        (method.job library now data).scalars data).run.Meets
      (Answers ssl jiff base64 json appleRoots fails)
      (fun i' outcome => match outcome with
        | .ok text => i'.slot = some anchors ∧
          text = (method.op now).answer base64 ssl jiff json anchors data
        | .error _ => fails) i := by
  have instant := liftInt_ofInt low high
  have codes : ∀ environment,
      Abi.liftEnvironment (UInt64.ofInt (environmentCode environment)) = some environment := by
    intro environment
    cases environment <;> rfl
  have called : (call (some maxInputBytes) (method.job library now data).fn
      (method.job library now data).scalars data).run.Meets
        (Answers ssl jiff base64 json appleRoots fails)
        (Ended fails i.slot (Abi.verify ssl jiff base64 json i.slot (method.op now)
          (cut (some maxInputBytes) (method.job library now data).fn data))
          (cut (some maxInputBytes) (method.job library now data).fn data)) i := by
    refine meets_call (fun input slot => Abi.verify ssl jiff base64 json slot (method.op now) input)
      ?_ rfl
    intro i ptr len input lifted
    cases method <;> simp [Abi.Instance.invoke, Method.job, Method.op, lifted, instant, codes]
  have verification : (method.job library now data).fn ≠ "init" := by
    cases method <;> simp [Method.job]
  refine called.mono fun i' outcome ended => ?_
  rw [filled, Abi.verify_some] at ended
  cases outcome with
  | ok text =>
    obtain ⟨ended, -⟩ := ended
    have whole : (method.op now).answer base64 ssl jiff json anchors
        (cut (some maxInputBytes) (method.job library now data).fn data) =
          (method.op now).answer base64 ssl jiff json anchors data := by
      unfold cut
      dsimp only
      split
      · exact answer_take (Nat.le_refl _) _
      · rfl
    rw [whole] at ended
    simp only [Option.some.injEq, Prod.mk.injEq] at ended
    exact ⟨ended.2.symm, ended.1.symm⟩
  | error fault =>
    obtain ⟨-, failed | trapped | long⟩ := ended
    · exact failed
    · cases trapped
    · have small : maxInputBytes < 2 ^ 32 := by decide
      unfold cut at long
      dsimp only at long
      split at long
      · rw [List.length_take] at long
        omega
      next within =>
        have short : ¬ maxInputBytes < data.length := fun exceeds => within ⟨verification, exceeds⟩
        omega

/-! ## A borrowed instance -/

variable {config : Bytes}

/-- An instance with a verifier over the anchors, and the limit it stated. -/
def Opened (anchors : List TrustAnchor) (i : Abi.Instance) (maxInput : Option Nat) : Prop :=
  maxInput = some maxInputBytes ∧ i.slot = some anchors

/-- An instance that accepted the configuration of the anchors. -/
theorem opened_of_created (reads : Wire.Reads base64 library)
    (made : initModule ssl base64 json appleRoots config = .ok anchors) {maxInput : Option Nat}
    {answer : String}
    (created : Created config (Wire.initAccepted library) ssl base64 json appleRoots fails i
      (.ok (maxInput, answer))) : Opened anchors i maxInput := by
  obtain ⟨ended, rfl, -⟩ := created
  rw [Abi.init, made] at ended
  simp only [Except.map, Except.toOption, Option.some.injEq, Prod.mk.injEq] at ended
  obtain ⟨rfl, filled⟩ := ended
  have accepted := Wire.initAccepted_eq reads (.ok ())
  exact ⟨accepted, filled.symm⟩

/-- How a thread may be done with an instance: with the core's verdict, or not at all where the
machinery failed. -/
def Served (fails : Prop) (anchors : List TrustAnchor) (verdict : Reply) (i : Abi.Instance) :
    Except Fault (Option Nat × Reply × Bool) → Prop
  | .ok (maxInput, reply, _) => Opened anchors i maxInput ∧ reply = verdict
  | .error _ => fails

theorem meets_borrowed (reads : Wire.Reads base64 library)
    (made : initModule ssl base64 json appleRoots config = .ok anchors)
    (small : config.length < 2 ^ 32) {found : Option (Option Nat)}
    (start : ∀ maxInput, found = some maxInput → Opened anchors i maxInput) :
    (borrowed config (Wire.initAccepted library) found).run.Meets
      (Answers ssl jiff base64 json appleRoots fails)
      (fun i' outcome => match outcome with
        | .ok maxInput => Opened anchors i' maxInput
        | .error _ => fails) i := by
  cases found with
  | some maxInput => exact start maxInput rfl
  | none =>
    refine meets_bind (meets_create config (Wire.initAccepted library)) ?_ ?_
    · rintro fault i' (failed | long)
      · exact failed
      · omega
    · rintro ⟨maxInput, answer⟩ i' created
      obtain ⟨rfl, filled⟩ := opened_of_created reads made created
      exact ⟨rfl, filled⟩

/-- **What a thread does with an instance comes to the core's verdict**, on its own input and
instant, whichever instance it has. -/
theorem meets_serve (reads : Wire.Reads base64 library)
    (made : initModule ssl base64 json appleRoots config = .ok anchors)
    (small : config.length < 2 ^ 32) (method : Method) {now : Int} (low : 0 ≤ now)
    (high : now ≤ 2 ^ 63 - 1) (data : Bytes) {found : Option (Option Nat)}
    (start : ∀ maxInput, found = some maxInput → Opened anchors i maxInput) :
    (serve config (Wire.initAccepted library) (method.job library now data) found).run.Meets
      (Answers ssl jiff base64 json appleRoots fails)
      (Served fails anchors (method.verdict ssl jiff base64 json anchors now data)) i := by
  refine meets_bind (meets_borrowed reads made small start) (fun _ _ failed => failed) ?_
  rintro maxInput i₁ ⟨rfl, filled⟩
  have own : (method.job library now data).data = data := by cases method <;> rfl
  rw [own]
  refine meets_bind (meets_method filled method low high data) (fun _ _ failed => failed) ?_
  rintro text i₂ ⟨kept, rfl⟩
  unfold finish
  rw [parse_answer reads]
  dsimp only
  refine meets_ask ?_ ?_
  · rintro type i₃ ⟨rfl, failed⟩
    exact failed
  · rintro size i₃ ⟨rfl, rfl⟩
    exact ⟨⟨rfl, kept⟩, rfl⟩

end

end Python

end ReceiptVerifier
