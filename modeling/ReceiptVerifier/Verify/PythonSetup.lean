import ReceiptVerifier.Verify.PythonCalls
import ReceiptVerifier.Verify.Roots

/-!
# How a Python verifier is made

The module reads the roots of the configuration off the text `init_config` writes of them
(`newVerifier_of_initModule`), and `Verifier._setup` comes to what the core makes of that text
(`setup_tells`).
-/

namespace ReceiptVerifier

open Openssl

namespace Python

section

variable {ssl : OpenSsl} {jiff : Jiff} {base64 : Base64} {json : SerdeJson}
  {appleRoots anchors : List TrustAnchor} {fails : Prop} {library : Library}
  {roots : Option (List Bytes)} {i i' : Abi.Instance}

/-! ## The configuration -/

/-- The value `init_config` writes. -/
def rootsValue (library : Library) : Option (List Bytes) → JsonValue
  | none => .object []
  | some roots => .object [("roots", .array (roots.map fun der => .string (library.b64encode der)))]

/-- What is relied on of `serde_json` and `base64`: the text that `json.dumps` wrote of the roots is
read as its value, with no name twice, and what was encoded is decoded. -/
structure ReadsRoots (base64 : Base64) (json : SerdeJson) (library : Library)
    (roots : Option (List Bytes)) : Prop where
  value : json.value (Wire.dumps (rootsValue library roots)) = .ok (rootsValue library roots)
  once : once json (Wire.dumps (rootsValue library roots)) "roots" = true
  decode : ∀ bytes, base64.decodeReceipt (utf8 (library.b64encode bytes)) = some bytes

theorem initConfig_eq (library : Library) (roots : Option (List Bytes)) :
    Wire.initConfig library roots = utf8 (Wire.dumps (rootsValue library roots)) := by
  cases roots with
  | none => rfl
  | some roots => rfl

theorem head_dumps (library : Library) (roots : Option (List Bytes)) :
    (Wire.dumps (rootsValue library roots)).toList.head? = some '\x7b' := by
  cases roots <;> simp [rootsValue, Wire.dumps, JsonValue.displayWith]

/-- The roots the module reads are those of the configuration. -/
theorem readInitConfig_initConfig (reads : ReadsRoots base64 json library roots) {read : List Bytes}
    (accepted : readInitConfig base64 json (Wire.initConfig library roots) = .ok read) :
    read = roots.getD [] := by
  have value := reads.value
  cases roots with
  | none =>
    rw [initConfig_eq, readInitConfig_empty (head_dumps library none) value reads.once] at accepted
    exact (Except.ok.inj accepted).symm
  | some roots =>
    rw [initConfig_eq, readInitConfig_roots (head_dumps library (some roots)) value reads.once]
      at accepted
    split at accepted
    · cases accepted
    · exact readRoots_encode (fun der _ => reads.decode der) accepted

/-- What `init` makes of the configuration is a verifier over its roots. -/
theorem newVerifier_of_initModule (reads : ReadsRoots base64 json library roots)
    (made : initModule ssl base64 json appleRoots (Wire.initConfig library roots) = .ok anchors) :
    newVerifier ssl appleRoots (roots.getD []) = .ok anchors := by
  unfold initModule at made
  split at made
  · cases made
  next read accepted =>
    obtain rfl := readInitConfig_initConfig reads accepted
    exact made

/-! ## The first instance -/

/-- What the first instance is asked, as far as wasmtime answered. -/
def firstTrace (library : Library) (roots : Option (List Bytes))
    (answers : List ((r : Request) → Response r)) : Trace :=
  ((create (Wire.initConfig library roots) (Wire.initAccepted library)).run.feed answers).1

/-- The first instance, where wasmtime answered all of it. -/
theorem created_of_feed {answers : List ((r : Request) → Response r)} {trace : Trace}
    {outcome : Except Fault (Option Nat × String)}
    (fed : (create (Wire.initConfig library roots) (Wire.initAccepted library)).run.feed answers =
      (trace, .done outcome))
    (began : (Answers ssl jiff base64 json appleRoots fails).Follows i
      (firstTrace library roots answers) i') :
    Created (Wire.initConfig library roots) (Wire.initAccepted library) ssl base64 json appleRoots
      fails i' outcome := by
  have steps := Program.steps_feed
    (create (Wire.initConfig library roots) (Wire.initAccepted library)).run answers
  rw [firstTrace, fed] at began
  rw [fed] at steps
  exact steps.meets (meets_create _ _) began

/-- How the host reads what `init` answered of a configuration: taken, or the core's refusal. -/
theorem init_of_created {config : Bytes} (reads : Wire.Reads base64 library)
    {maxInput : Option Nat} {answer : String}
    (created : Created config (Wire.initAccepted library) ssl base64 json appleRoots fails i
      (.ok (maxInput, answer))) :
    (∃ anchors, initModule ssl base64 json appleRoots config = .ok anchors ∧
      maxInput.isSome = true) ∨
    ∃ refusal, initModule ssl base64 json appleRoots config = .error refusal ∧
      maxInput.isSome = false ∧ Wire.checkInit library answer = .ok (some refusal) := by
  obtain ⟨ended, rfl, -⟩ := created
  rw [Abi.init] at ended
  cases made : initModule ssl base64 json appleRoots config with
  | ok anchors =>
    rw [made] at ended
    obtain ⟨rfl, -⟩ := Prod.mk.inj (Option.some.inj ended)
    refine .inl ⟨anchors, rfl, ?_⟩
    rw [Except.map, Wire.initAccepted_eq reads]
    rfl
  | error refusal =>
    rw [made] at ended
    obtain ⟨rfl, -⟩ := Prod.mk.inj (Option.some.inj ended)
    refine .inr ⟨refusal, rfl, ?_, Wire.checkInit_error reads refusal⟩
    rw [Except.map, Wire.initAccepted_eq reads]
    rfl

/-- What `_setup` may come to over a module that answers: a pool where the core takes the roots, a
`ValueError` where there are none or the core refuses them, or a `RuntimeError` where the machinery
failed or the configuration has no 32-bit length. -/
def Tells (ssl : OpenSsl) (base64 : Base64) (json : SerdeJson) (appleRoots : List TrustAnchor)
    (fails : Prop) (library : Library) (roots : Option (List Bytes)) (cpuCount : Option Nat)
    (answers : List ((r : Request) → Response r)) : Except SetupError (Pool Reply) → Prop
  | .ok p =>
    (∃ accepted answer, Pool.new (Wire.initConfig library roots) (Wire.initAccepted library)
      (poolSize cpuCount) answers = some (.ok (p, accepted, answer))) ∧
    (Wire.initConfig library roots).length < 2 ^ 32 ∧
    ∃ anchors, initModule ssl base64 json appleRoots (Wire.initConfig library roots) = .ok anchors
  | .error (.valueError message) =>
    roots = some [] ∧ message = "config.roots must not be empty" ∨
    ∃ refusal, initModule ssl base64 json appleRoots (Wire.initConfig library roots) =
      .error refusal ∧ message = s!"the module refused config.roots: {refusal}"
  | .error (.runtimeError _) => fails ∨ 2 ^ 32 ≤ (Wire.initConfig library roots).length

/-- `_setup` comes to what the core makes of the configuration. -/
theorem setup_tells (reads : Wire.Reads base64 library) {cpuCount : Option Nat}
    {answers : List ((r : Request) → Response r)} {outcome : Except SetupError (Pool Reply)}
    (made : setup library roots cpuCount answers = some outcome)
    (began : (Answers ssl jiff base64 json appleRoots fails).Follows i
      (firstTrace library roots answers) i') :
    Tells ssl base64 json appleRoots fails library roots cpuCount answers outcome := by
  unfold setup at made
  split at made
  next none =>
    cases made
    exact .inl ⟨none, rfl⟩
  next =>
    cases new : Pool.new (T := Reply) (Wire.initConfig library roots) (Wire.initAccepted library)
      (poolSize cpuCount) answers with
    | none =>
      rw [new] at made
      cases made
    | some started =>
      rw [new] at made
      have kept := new
      unfold Pool.new at new
      split at new
      · cases new
      next fed =>
        cases new
        cases made
        exact created_of_feed fed began
      next trace maxInput answer fed =>
        cases new
        have created := created_of_feed fed began
        have small : (Wire.initConfig library roots).length < 2 ^ 32 := created.2.2
        obtain ⟨anchors, taken, accepted⟩ | ⟨refusal, refused, unaccepted, checked⟩ :=
          init_of_created reads created
        · simp only [accepted] at made kept
          cases made
          exact ⟨⟨_, _, kept⟩, small, anchors, taken⟩
        · simp only [unaccepted, checked] at made
          cases made
          exact .inr ⟨refusal, refused, rfl⟩

end

end Python

end ReceiptVerifier
