import ReceiptVerifier.Go.Verifier
import ReceiptVerifier.Verify.Http

/-!
# One call of the Go host on an instance of the module

A call lowers its arguments into linear memory, runs an export and reads the text back through the
return area. On an instance that answers as the canonical ABI says (`Go.Answers`) it returns what
the export's body answers to the input (`meets_call`), and what the core answers to the whole of it
where `init` accepted (`meets_method`), whatever the memory looks like.
-/

namespace ReceiptVerifier

open Openssl

namespace Abi

/-! ## Linear memory -/

theorem slice_write {i : Instance} {ptr : UInt32} {bytes : Bytes}
    (inside : i.Inside ptr bytes.length) :
    (i.write ptr bytes).slice ptr bytes.length = bytes := by
  have front : (i.memory.take ptr.toNat).length = ptr.toNat :=
    List.length_take_of_le (Nat.le_trans (Nat.le_add_right _ _) inside)
  have skipped : (i.write ptr bytes).memory.drop ptr.toNat =
      bytes ++ i.memory.drop (ptr.toNat + bytes.length) := by
    rw [Instance.write, List.append_assoc]
    exact List.drop_left' front
  rw [Instance.slice, skipped, List.take_left]

theorem length_write {i : Instance} {ptr : UInt32} {bytes : Bytes}
    (inside : i.Inside ptr bytes.length) :
    (i.write ptr bytes).memory.length = i.memory.length := by
  have inside : ptr.toNat + bytes.length ≤ i.memory.length := inside
  simp only [Instance.write, List.length_append, List.length_take, List.length_drop]
  omega

/-- What was written to a buffer is what an export lifts from it. -/
theorem liftList_write {i : Instance} {ptr : UInt32} {bytes : Bytes}
    (inside : i.Inside ptr bytes.length) (small : bytes.length < 2 ^ 32) :
    liftList (i.write ptr bytes).memory ptr.toUInt64 (.ofNat bytes.length) = some bytes := by
  have length : (UInt64.ofNat bytes.length).toUInt32.toNat = bytes.length := by
    rw [UInt64.toNat_toUInt32, UInt64.toNat_ofNat']
    omega
  have start : ptr.toUInt64.toUInt32 = ptr := by simp
  have fits : ¬ ptr.toNat + bytes.length > (i.write ptr bytes).memory.length := by
    rw [length_write inside]
    exact Nat.not_lt.mpr inside
  rw [liftList, length, start, if_neg fits]
  exact congrArg some (slice_write inside)

/-! ## The slot -/

section

variable {ssl : OpenSsl} {jiff : Jiff} {base64 : Base64} {json : SerdeJson}
  {appleRoots : List TrustAnchor}

theorem verify_some (verifier : List TrustAnchor) (op : Op) (input : Bytes) :
    verify ssl jiff base64 json (some verifier) op input =
      some (op.answer base64 ssl jiff json verifier input, some verifier) := rfl

theorem verify_keeps {slot slot' : Slot} {op : Op} {input : Bytes} {text : String}
    (ended : verify ssl jiff base64 json slot op input = some (text, slot')) : slot' = slot := by
  cases slot with
  | none => cases ended
  | some verifier =>
    rw [verify_some] at ended
    cases ended
    rfl

/-- No export empties the slot or fills it anew. -/
theorem invoke_keeps {i : Instance} {fn : String} {core : List UInt64} {text : String}
    {slot' : Slot}
    {anchors : List TrustAnchor}
    (ended : i.invoke ssl jiff base64 json appleRoots fn core = some (text, slot'))
    (filled : i.slot = some anchors) : slot' = some anchors := by
  unfold Instance.invoke at ended
  split at ended
  · obtain ⟨config, -, ended⟩ := Option.bind_eq_some_iff.mp ended
    rw [filled] at ended
    cases ended
  · obtain ⟨input, -, ended⟩ := Option.bind_eq_some_iff.mp ended
    rw [verify_keeps ended, filled]
  · obtain ⟨input, -, ended⟩ := Option.bind_eq_some_iff.mp ended
    rw [verify_keeps ended, filled]
  · obtain ⟨environment, -, ended⟩ := Option.bind_eq_some_iff.mp ended
    obtain ⟨input, -, ended⟩ := Option.bind_eq_some_iff.mp ended
    rw [verify_keeps ended, filled]
  · cases ended

end

end Abi

namespace Go

section

variable {ssl : OpenSsl} {jiff : Jiff} {base64 : Base64} {json : SerdeJson}
  {appleRoots : List TrustAnchor} {fails : Prop}

/-! ## One call on an instance -/

/-- A guest that is alive and was told a cap. -/
def Own (max : UInt32) (e : Exchange Request Response) : Prop :=
  match e with
  | ⟨.dead, dead⟩ => dead = false
  | ⟨.maxInput, maxInput⟩ => maxInput = max
  | _ => True

/-- What an instance answers a guest of its own. -/
def OwnAnswers (ssl : OpenSsl) (jiff : Jiff) (base64 : Base64) (json : SerdeJson)
    (appleRoots : List TrustAnchor) (fails : Prop) (max : UInt32) :
    World Abi.Instance Request Response := fun i r response i' =>
  Answers ssl jiff base64 json appleRoots fails i r response i' ∧ Own max ⟨r, response⟩

/-- How a call may end on an instance: with the text of the export's body over the input handed on,
or not at all where the machinery failed, the body trapped or the input has no 32-bit length. -/
def Answer (fails : Prop) (slot : Abi.Slot) (outcome : Option (String × Abi.Slot)) (input : Bytes)
    (i : Abi.Instance) : Except Error Bytes → Prop
  | .ok out => (∃ text, outcome = some (text, i.slot) ∧ out = utf8 text) ∧ input.length < 2 ^ 32
  | .error _ =>
    (∀ anchors, slot = some anchors → i.slot = some anchors) ∧
      (fails ∨ outcome = none ∨ 2 ^ 32 ≤ input.length)

theorem meets_fail {fn : String} {err : Error} {max : UInt32} {i : Abi.Instance} {slot : Abi.Slot}
    {outcome : Option (String × Abi.Slot)} {input : Bytes}
    (keeps : ∀ anchors, slot = some anchors → i.slot = some anchors)
    (why : fails ∨ outcome = none ∨ 2 ^ 32 ≤ input.length) :
    (fail fn err).Meets (OwnAnswers ssl jiff base64 json appleRoots fails max)
      (Answer fails slot outcome input) i := by
  unfold fail
  split
  · exact ⟨keeps, why⟩
  · simp only [ask, Program.meets_bind, Program.meets_request]
    rintro _ _ ⟨rfl, -⟩
    split
    · exact ⟨keeps, why⟩
    · exact ⟨keeps, why⟩

/-- Reading the return area of a text, where the export left one. -/
theorem meets_answer {fn : String} {rp : UInt32} {max : UInt32} {i : Abi.Instance} {text : String}
    {slot slot' : Abi.Slot} {input : Bytes} (returns : i.Returns rp text)
    (left : i.slot = slot') (short : input.length < 2 ^ 32)
    (keeps : ∀ anchors, slot = some anchors → i.slot = some anchors) :
    (answer fn rp).Meets (OwnAnswers ssl jiff base64 json appleRoots fails max)
      (Answer fails slot (some (text, slot')) input) i := by
  obtain ⟨near, ptr, n, ptrAt, nAt, inside, held⟩ := returns
  simp only [answer, ask, Program.meets_bind, Program.meets_request]
  rintro _ _ ⟨⟨rfl, rfl⟩, -⟩ _ _ ⟨⟨rfl, rfl⟩, -⟩
  rw [ptrAt, nAt]
  dsimp only
  rw [if_neg (UInt32.not_lt.mpr near)]
  simp only [Program.meets_bind, Program.meets_request]
  rintro _ _ ⟨⟨rfl, rfl⟩, -⟩
  rw [if_pos (decide_eq_true inside)]
  simp only [Program.meets_bind, Program.meets_request]
  rintro _ _ ⟨⟨rfl, rfl⟩, -⟩ freed i' ⟨same, -⟩
  cases freed with
  | error err =>
    obtain ⟨same, why⟩ := same
    exact meets_fail (fun anchors filled => same ▸ keeps anchors filled) (.inl why)
  | ok _ =>
    have same : i'.slot = _ := same
    exact ⟨⟨text, by rw [same, left], held⟩, short⟩

theorem lowerArguments_scalars (fn : String) (scalars : List UInt64) (rest : List Argument) :
    ∀ (k : Nat) (out : List UInt64), lowerArguments fn k (scalars.map .scalar ++ rest) out =
      lowerArguments fn (k + scalars.length) rest (out ++ scalars) := by
  induction scalars with
  | nil =>
    intro k out
    rw [List.append_nil]
    rfl
  | cons v scalars ih =>
    intro k out
    rw [List.map_cons, List.cons_append, lowerArguments, ih, List.length_cons, List.append_assoc,
      Nat.add_right_comm, Nat.add_assoc k]
    rfl

/-- **One call returns what the export answers to its input.** The input passes cut to the cap the
guest was told, through a buffer of the instance's own, and the text comes back through the return
area. -/
theorem meets_call {fn : String} {args : List Value} {max : UInt32} {i : Abi.Instance}
    (sig : List Char) (scalars : List UInt64) (v : Bytes)
    (body : Bytes → Abi.Slot → Option (String × Abi.Slot)) (known : sigs.lookup fn = some sig)
    (count : sig.length = args.length)
    (typed : arguments fn 0 sig args = .ok (scalars.map .scalar ++ [.list v]))
    (lifts : ∀ (i : Abi.Instance) (ptr len : UInt64) (input : Bytes),
      Abi.liftList i.memory ptr len = some input →
      i.invoke ssl jiff base64 json appleRoots fn (scalars ++ [ptr, len]) = body input i.slot)
    {input : Bytes} (handed : v.take (cut max.toNat v.length) = input) :
    (call fn args).Meets (OwnAnswers ssl jiff base64 json appleRoots fails max)
      (Answer fails i.slot (body input i.slot) input) i := by
  simp only [call, lower, known, typed, ask, Program.meets_bind, Program.meets_request]
  rintro _ i ⟨rfl, alive⟩
  obtain rfl : _ = false := alive
  rw [if_neg Bool.false_ne_true, if_neg (not_not.mpr count)]
  rw [lowerArguments_scalars, List.nil_append, lowerArguments]
  simp only [ask, Program.meets_bind, Program.meets_request]
  rintro maxInput i ⟨rfl, told⟩
  obtain rfl : maxInput = max := told
  rw [handed]
  rintro res i₁ ⟨allocated, -⟩
  cases res with
  | error err =>
    obtain ⟨same, why⟩ := allocated
    refine meets_fail (fun anchors filled => ?_) (.inl why)
    rw [same, filled]
  | ok ptr =>
    obtain ⟨same, positive, room, small⟩ := allocated
    simp only [Program.meets_bind, Program.meets_request]
    rintro inside i₂ ⟨⟨rfl, rfl⟩, -⟩
    by_cases inside : i₁.Inside ptr.toUInt32 input.length
    · have short : input.length < 2 ^ 32 := by
        have inside : ptr.toUInt32.toNat + input.length ≤ i₁.memory.length := inside
        omega
      rw [decide_eq_true inside, if_pos rfl, if_pos rfl, lowerArguments]
      simp only [Program.meets_pure, Program.meets_bind, Program.meets_request]
      have lifted := lifts (i₁.write ptr.toUInt32 input) _ _ _ (Abi.liftList_write inside short)
      have kept : (i₁.write ptr.toUInt32 input).slot = i.slot := same
      rintro ret i₃ ⟨invoked, -⟩
      cases ret with
      | error err =>
        obtain ⟨keeps, why⟩ := invoked
        rw [kept] at keeps
        rw [lifted, kept] at why
        exact meets_fail keeps (why.imp_right .inl)
      | ok ret =>
        obtain ⟨text, ended, returns⟩ := invoked
        have keeps : ∀ anchors, i.slot = some anchors → i₃.slot = some anchors :=
          fun anchors filled => Abi.invoke_keeps ended (kept.trans filled)
        rw [lifted, kept] at ended
        rw [ended]
        exact meets_answer returns rfl short keeps
    · have long : 2 ^ 32 ≤ input.length := by
        by_contra short
        exact inside (by rwa [Nat.mod_eq_of_lt (by omega)] at room)
      rw [decide_eq_false inside, if_neg Bool.false_ne_true, if_neg Bool.false_ne_true]
      refine meets_fail (fun anchors filled => ?_) (.inr (.inr long))
      rw [same, filled]

/-- `init` gets its configuration whole. -/
theorem meets_init {config : Bytes} {i : Abi.Instance} :
    (call "init" [.bytes config]).Meets (OwnAnswers ssl jiff base64 json appleRoots fails 0)
      (Answer fails i.slot (Abi.init ssl base64 json appleRoots i.slot config) config) i := by
  refine meets_call ['b'] [] config
    (fun input slot => Abi.init ssl base64 json appleRoots slot input) rfl rfl rfl ?_ ?_
  · intro i ptr len input lifted
    simp [Abi.Instance.invoke, lifted]
  · exact List.take_length

/-- The cap that `init` states. -/
def cap : UInt32 := .ofNat maxInputBytes

theorem cap_toNat : cap.toNat = maxInputBytes := by decide

/-- What a call of the pool's returns, on an instance with a verifier over some anchors. -/
def Method.Returns (ssl : OpenSsl) (jiff : Jiff) (base64 : Base64) (json : SerdeJson) (fails : Prop)
    (anchors : List TrustAnchor) (method : Method) (input : Bytes) : Except Error Bytes → Prop
  | .ok out => ∃ op, method.op = some op ∧ out = utf8 (op.answer base64 ssl jiff json anchors input)
  | .error _ => fails ∨ method.op = none

/-- The body of a method's export. -/
def Method.body (ssl : OpenSsl) (jiff : Jiff) (base64 : Base64) (json : SerdeJson) (method : Method)
    (input : Bytes) (slot : Abi.Slot) : Option (String × Abi.Slot) :=
  method.op.bind fun op => Abi.verify ssl jiff base64 json slot op input

theorem meets_body {i : Abi.Instance} (method : Method) (v : Bytes) {max : UInt32} {input : Bytes}
    (handed : v.take (cut max.toNat v.length) = input) :
    (call method.fn (method.args v)).Meets (OwnAnswers ssl jiff base64 json appleRoots fails max)
      (Answer fails i.slot (method.body ssl jiff base64 json input i.slot) input) i := by
  cases method with
  | verifyReceipt nowMs =>
    refine meets_call ['d', 'b'] [nowMs] v
      ((Method.verifyReceipt nowMs).body ssl jiff base64 json) rfl rfl rfl ?_ handed
    intro i ptr len input lifted
    simp [Abi.Instance.invoke, Method.fn, Method.body, Method.op, lifted]
  | verifySignedData nowMs =>
    refine meets_call ['d', 'b'] [nowMs] v
      ((Method.verifySignedData nowMs).body ssl jiff base64 json) rfl rfl rfl ?_ handed
    intro i ptr len input lifted
    simp [Abi.Instance.invoke, Method.fn, Method.body, Method.op, lifted]
  | verifyReceiptEndpoint env nowMs =>
    refine meets_call ['w', 'd', 'b'] [env.toUInt64, nowMs] v
      ((Method.verifyReceiptEndpoint env nowMs).body ssl jiff base64 json) rfl rfl rfl ?_ handed
    intro i ptr len input lifted
    cases known : Abi.liftEnvironment env.toUInt64 <;>
      simp [Abi.Instance.invoke, Method.fn, Method.body, Method.op, lifted, known]

/-- A method on an instance whose `init` accepted answers the whole input. -/
theorem meets_method {i : Abi.Instance} {anchors : List TrustAnchor}
    (filled : i.slot = some anchors)
    (method : Method) (input : Bytes) :
    (call method.fn (method.args input)).Meets
      (OwnAnswers ssl jiff base64 json appleRoots fails cap)
      (fun i result => i.slot = some anchors ∧
        method.Returns ssl jiff base64 json fails anchors input result) i := by
  refine (meets_body method input rfl).mono fun i' result answered => ?_
  rw [filled, cap_toNat] at answered
  cases result with
  | ok out =>
    obtain ⟨⟨text, ended, rfl⟩, -⟩ := answered
    obtain ⟨op, known, ended⟩ := Option.bind_eq_some_iff.mp ended
    rw [Abi.verify_some, answer_cut] at ended
    simp only [Option.some.injEq, Prod.mk.injEq] at ended
    exact ⟨ended.2.symm, op, known, by rw [ended.1]⟩
  | error err =>
    obtain ⟨keeps, why⟩ := answered
    refine ⟨keeps anchors rfl, ?_⟩
    obtain failed | trapped | long := why
    · exact .inl failed
    · right
      cases known : method.op with
      | none => rfl
      | some op => simp [Method.body, known, Abi.verify_some] at trapped
    · have short : cut maxInputBytes input.length ≤ maxInputBytes := by
        unfold cut
        split
        · exact Nat.le_refl _
        · next h => exact Nat.not_lt.mp fun more => h ⟨by decide, more⟩
      have small : maxInputBytes < 2 ^ 32 := by decide
      rw [List.length_take] at long
      omega

end

end Go

end ReceiptVerifier
