import ReceiptVerifier.Lib.Lease
import ReceiptVerifier.Verify.GoVerifier
import ReceiptVerifier.Verify.PythonHost
import ReceiptVerifier.Verify.PythonSetup

/-!
# The Python verifier is the core behind a pool

A `Verifier` is made where the core takes the roots of its configuration, and what a method of it
answers is the core's verdict on the caller's own text and instant, under the anchors of these
roots, whatever the other threads do (`verifier_is_the_core`). The pool carries with every thread
what the rest of its call comes to on the instance it has (`Pool.Honest`).
-/

namespace ReceiptVerifier

open Openssl

namespace Python

section

variable {ssl : OpenSsl} {jiff : Jiff} {base64 : Base64} {json : SerdeJson}
  {appleRoots anchors : List TrustAnchor} {fails : Prop} {library : Library} {config : Bytes}
  {size : Nat} {p q p₀ : Pool Reply}

/-! ## What the pool comes to -/

/-- A job of one of the three methods, at an instant the clock may answer. -/
structure Asks (library : Library) (job : Job Reply) (method : Method) (now : Int) (data : Bytes) :
    Prop where
  job : job = method.job library now data
  low : 0 ≤ now
  high : now ≤ 2 ^ 63 - 1

/-- The rest of a call comes to a verdict, on the instance that serves it. -/
def Point.Honest (world : World Abi.Instance Request Response) (fails : Prop)
    (anchors : List TrustAnchor) (verdict : Reply) (ends : Nat → Abi.Instance) :
    Point Reply → Prop
  | .serving store rest => rest.Meets world (Served fails anchors verdict) (ends store)
  | .giving inst result => Opened anchors (ends inst.store) inst.maxInput ∧ result = verdict
  | .releasing (.ok reply) => reply = verdict
  | .releasing (.error _) => fails
  | .returned (.ok reply) => reply = verdict
  | .returned (.error _) => fails
  | _ => True

/-- What holds of the pool whose instances end as told. -/
structure Pool.Honest (ssl : OpenSsl) (jiff : Jiff) (base64 : Base64) (json : SerdeJson)
    (appleRoots anchors : List TrustAnchor) (fails : Prop) (library : Library) (p : Pool Reply)
    (ends : Nat → Abi.Instance) : Prop where
  free : ∀ inst ∈ p.free, Opened anchors (ends inst.store) inst.maxInput
  threads : ∀ thread ∈ p.threads, ∀ method now data, Asks library thread.job method now data →
    thread.point.Honest (Answers ssl jiff base64 json appleRoots fails) fails anchors
      (method.verdict ssl jiff base64 json anchors now data) ends

/-- Every thread runs one of the three methods. -/
def Pool.Methods (library : Library) (p : Pool Reply) : Prop :=
  ∀ thread ∈ p.threads, ∃ method now data, Asks library thread.job method now data

/-- The instances answered what they were asked, and ended so. -/
def Pool.Ends (world : World Abi.Instance Request Response) (p : Pool Reply)
    (ends : Nat → Abi.Instance) : Prop :=
  ∀ store, ∃ i, world.Follows i (p.history store) (ends store)

theorem Point.Honest.update {world : World Abi.Instance Request Response} {verdict : Reply}
    {point : Point Reply} {ends ends' : Nat → Abi.Instance} {store : Nat}
    (honest : point.Honest world fails anchors verdict ends)
    (same : ∀ store' ≠ store, ends' store' = ends store') (other : point.holds ≠ some store) :
    point.Honest world fails anchors verdict ends' := by
  cases point with
  | serving store' rest =>
    have differ : store' ≠ store := fun same => other (congrArg some same)
    simpa [Point.Honest, same store' differ] using honest
  | giving inst result =>
    have differ : inst.store ≠ store := fun same => other (congrArg some same)
    simpa [Point.Honest, same inst.store differ] using honest
  | waiting | taking => trivial
  | releasing outcome | returned outcome => cases outcome <;> exact honest

namespace Pool

/-- Every step keeps it. -/
theorem honest_step (reads : Wire.Reads base64 library)
    (made : initModule ssl base64 json appleRoots config = .ok anchors)
    (small : config.length < 2 ^ 32) (inv : p.Inv config (Wire.initAccepted library) size)
    (methods : p.Methods library)
    (before : ∀ ends, p.Ends (Answers ssl jiff base64 json appleRoots fails) ends →
      p.Honest ssl jiff base64 json appleRoots anchors fails library ends)
    {e : Event Reply} (h : p.step config (Wire.initAccepted library) size e = some q) :
    ∀ ends, q.Ends (Answers ssl jiff base64 json appleRoots fails) ends →
      q.Honest ssl jiff base64 json appleRoots anchors fails library ends := by
  intro ends ended
  have others : p.Honest ssl jiff base64 json appleRoots anchors fails library ends →
      ∀ {c : Nat} (j : Nat) thread, j ≠ c → p.threads[j]? = some thread →
        ∀ method now data, Asks library thread.job method now data →
          thread.point.Honest (Answers ssl jiff base64 json appleRoots fails) fails anchors
            (method.verdict ssl jiff base64 json anchors now data) ends :=
    fun honest c j thread other at_ => honest.threads thread (List.mem_of_getElem? at_)
  cases goes_of_step h with
  | enter job =>
    have honest := before ends ended
    exact ⟨honest.free, List.forall_mem_append.mpr ⟨honest.threads,
      List.forall_mem_singleton.mpr fun _ _ _ _ => trivial⟩⟩
  | acquire at_ point permits =>
    have honest := before ends ended
    exact ⟨honest.free, forall_move (fun _ _ _ _ => trivial) (others honest)⟩
  | @take c thread answers inst free at_ point found =>
    have honest := before ends ended
    have opened := honest.free
    rw [found, List.forall_mem_cons] at opened
    refine ⟨opened.2, forall_move (fun method now data asks => ?_) (others honest)⟩
    dsimp only at asks ⊢
    rw [asks.job]
    refine meets_serve reads made small method asks.low asks.high data fun maxInput same => ?_
    cases same
    exact opened.1
  | @make c thread answers at_ point found =>
    have honest := before ends ended
    refine ⟨honest.free, forall_move (fun method now data asks => ?_) (others honest)⟩
    dsimp only at asks ⊢
    rw [asks.job]
    exact meets_serve reads made small method asks.low asks.high data nofun
  | @exchange c thread answers store r next at_ point =>
    -- the instance before the exchange
    obtain ⟨i, follows⟩ := ended store
    have now : (p.record store ⟨r, answers r⟩).history store =
        p.history store ++ [⟨r, answers r⟩] := Function.update_self ..
    change World.Follows _ i ((p.record store ⟨r, answers r⟩).history store) _ at follows
    rw [now] at follows
    obtain ⟨mid, first, last⟩ := World.follows_append.mp follows
    have exchanged :
      Answers ssl jiff base64 json appleRoots fails mid r (answers r) (ends store) := by
      obtain ⟨_, own, rfl⟩ : ∃ i', _ ∧ ends store = i' := by simpa using last
      exact own
    have same : ∀ store' ≠ store, ends store' = Function.update ends store mid store' :=
      fun store' other => (Function.update_of_ne other ..).symm
    have honest := before (Function.update ends store mid) fun store' => by
      by_cases own : store' = store
      · subst own
        rw [Function.update_self]
        exact ⟨i, first⟩
      · obtain ⟨i', follows'⟩ := ended store'
        have kept : (p.record store ⟨r, answers r⟩).history store' = p.history store' :=
          Function.update_of_ne own ..
        change World.Follows _ i' ((p.record store ⟨r, answers r⟩).history store') _ at follows'
        rw [kept] at follows'
        rw [Function.update_of_ne own]
        exact ⟨i', follows'⟩
    have holds : thread.point.permit = .holding store := by
      rw [point]
      rfl
    obtain ⟨unfree, alone, -⟩ := inv.apart at_ holds
    refine ⟨fun inst mem => ?_, forall_move (p := p.record store ⟨r, answers r⟩) ?_ ?_⟩
    · have opened := honest.free inst mem
      rwa [Function.update_of_ne (unfree inst mem)] at opened
    · intro method now data asks
      have rest := honest.threads thread (List.mem_of_getElem? at_) method now data asks
      rw [point] at rest
      simp only [Point.Honest, Function.update_self] at rest
      exact rest (answers r) (ends store) exchanged
    · intro j thread' other at_' method now data asks
      exact (honest.threads thread' (List.mem_of_getElem? at_') method now data asks).update same
        (alone j thread' other at_')
  | @keep c thread answers store maxInput result at_ point =>
    have honest := before ends ended
    refine ⟨honest.free, forall_move (fun method now data asks => ?_) (others honest)⟩
    have rest := honest.threads thread (List.mem_of_getElem? at_) method now data asks
    rw [point] at rest
    exact rest
  | @drop c thread answers store outcome at_ point =>
    have honest := before ends ended
    refine ⟨honest.free, forall_move (fun method now data asks => ?_) (others honest)⟩
    have rest := honest.threads thread (List.mem_of_getElem? at_) method now data asks
    rw [point] at rest
    cases outcome with
    | error fault => exact rest
    | ok ended => exact rest.2
  | @give c thread answers inst result at_ point =>
    have honest := before ends ended
    obtain ⟨method, now, data, asks⟩ := methods thread (List.mem_of_getElem? at_)
    have rest := honest.threads thread (List.mem_of_getElem? at_)
    simp only [point] at rest
    refine ⟨List.forall_mem_cons.mpr ⟨(rest method now data asks).1, honest.free⟩,
      forall_move (fun method now data asks => ?_) (others honest)⟩
    exact (rest method now data asks).2
  | @release c thread answers outcome at_ point below =>
    have honest := before ends ended
    refine ⟨honest.free, forall_move (fun method now data asks => ?_) (others honest)⟩
    have rest := honest.threads thread (List.mem_of_getElem? at_) method now data asks
    rw [point] at rest
    cases outcome <;> exact rest
  | refuse at_ point full =>
    -- the thread still has its permit
    obtain ⟨rest, before, -⟩ := permitted_move at_
    rw [point] at before
    exact absurd (inv.sound.below before rfl) (Nat.not_lt.mpr full)

/-- Nothing makes a thread run anything but a method. -/
theorem methods_step (methods : p.Methods library) {e : Event Reply}
    (asks : ∀ job, e = .enter job → ∃ method now data, Asks library job method now data)
    (h : p.step config (Wire.initAccepted library) size e = some q) : q.Methods library := by
  have others : ∀ {c : Nat} (j : Nat) thread, j ≠ c → p.threads[j]? = some thread →
      ∃ method now data, Asks library thread.job method now data :=
    fun _ thread _ at_ => methods thread (List.mem_of_getElem? at_)
  cases goes_of_step h with
  | enter job =>
    exact List.forall_mem_append.mpr ⟨methods, List.forall_mem_singleton.mpr (asks job rfl)⟩
  | acquire at_ | take at_ | make at_ | keep at_ | drop at_ | give at_ | release at_ | refuse at_ =>
    have own := methods _ (List.mem_of_getElem? at_)
    exact forall_move own others
  | @exchange c thread answers store r next at_ point =>
    have own := methods _ (List.mem_of_getElem? at_)
    exact forall_move (p := p.record store ⟨r, answers r⟩) own others

/-- The pool a verifier is made with. -/
theorem honest_new (reads : Wire.Reads base64 library)
    (made : initModule ssl base64 json appleRoots config = .ok anchors)
    {answers : List ((r : Request) → Response r)} {accepted : Bool} {answer : String}
    (positive : 1 ≤ size)
    (new : new config (Wire.initAccepted library) size answers = some (.ok (p, accepted, answer))) :
    p.threads = [] ∧
      ∀ ends, p.Ends (Answers ssl jiff base64 json appleRoots fails) ends →
        p.Honest ssl jiff base64 json appleRoots anchors fails library ends := by
  have steps := (inv_new positive new).2
  have none : p.threads = [] := threads_new new
  have first : ∀ inst ∈ p.free, inst.store = 0 ∧ p.free = [inst] := by
    unfold Pool.new at new
    split at new
    · cases new
    · cases new
    · cases new
      intro inst mem
      dsimp only at mem ⊢
      split at mem
      next filled =>
        rw [List.mem_singleton.mp mem, if_pos filled]
        exact ⟨rfl, rfl⟩
      · cases mem
  refine ⟨none, fun ends ended => ⟨fun inst mem => ?_, ?_⟩⟩
  · obtain ⟨store, alone⟩ := first inst mem
    obtain ⟨i, follows⟩ := ended 0
    have created := steps.meets (meets_create config (Wire.initAccepted library)) follows
    rw [alone, List.head?_cons, Option.bind_some] at created
    rw [store]
    exact opened_of_created reads made created
  · rw [none]
    exact List.forall_mem_nil _

/-- Every run keeps it. -/
theorem honest_run (reads : Wire.Reads base64 library)
    (made : initModule ssl base64 json appleRoots config = .ok anchors)
    (small : config.length < 2 ^ 32) {events : List (Event Reply)}
    (asks : ∀ job, Event.enter job ∈ events → ∃ method now data, Asks library job method now data)
    (inv : p.Inv config (Wire.initAccepted library) size) (methods : p.Methods library)
    (before : ∀ ends, p.Ends (Answers ssl jiff base64 json appleRoots fails) ends →
      p.Honest ssl jiff base64 json appleRoots anchors fails library ends)
    (h : p.run config (Wire.initAccepted library) size events = some q) :
    ∀ ends, q.Ends (Answers ssl jiff base64 json appleRoots fails) ends →
      q.Honest ssl jiff base64 json appleRoots anchors fails library ends := by
  induction events generalizing p with
  | nil =>
    obtain rfl := Option.some.inj h
    exact before
  | cons e events ih =>
    obtain ⟨next, step, rest⟩ := Option.bind_eq_some_iff.mp h
    have entered : ∀ job, e = .enter job → ∃ method now data, Asks library job method now data :=
      fun job same => asks job (same ▸ List.mem_cons_self)
    exact ih (fun job mem => asks job (List.mem_cons_of_mem _ mem)) (inv.step step)
      (methods_step methods entered step)
        (honest_step reads made small inv methods before step) rest

end Pool

/-- What is told over a pool. Of any calls in any order of the threads' steps, one whose clock
answered and that came back is the core's verdict on the caller's own text and instant, or an
internal error where the machinery failed. -/
def Pool.SaysTheCore (ssl : OpenSsl) (jiff : Jiff) (base64 : Base64) (json : SerdeJson)
    (appleRoots anchors : List TrustAnchor) (fails : Prop) (library : Library) (config : Bytes)
    (size : Nat) (p₀ : Pool Reply) : Prop :=
  ∀ (events : List (Pool.Event Reply)) (p : Pool Reply) (ends : Nat → Abi.Instance),
    (∀ job, Pool.Event.enter job ∈ events → ∃ method now data, Asks library job method now data) →
    p₀.run config (Wire.initAccepted library) size events = some p →
    p.Ends (Answers ssl jiff base64 json appleRoots fails) ends →
    ∀ method clock instant text outcome, now clock = .ok instant →
      ⟨method.job library instant (bytes text), .returned outcome⟩ ∈ p.threads →
        let told := verify library clock (fun _ => outcome) method text
        told = .ok (method.verdict ssl jiff base64 json anchors instant (bytes text)) ∨
          fails ∧ ∃ fault, told = .ok (method.internalError fault)

/-- An instant that `_now` lets through is one the core takes. -/
theorem now_ok {clock : ClockAnswer} {instant : Int} (answered : now clock = .ok instant) :
    0 ≤ instant ∧ instant ≤ 2 ^ 63 - 1 := by
  unfold now at answered
  split at answered
  · cases answered
  · cases answered
  · split at answered
    next range =>
      cases answered
      exact range
    · cases answered

/-- The methods are the core behind a pool. -/
theorem methods_are_the_core (positive : 1 ≤ size) (reads : Wire.Reads base64 library)
    (made : initModule ssl base64 json appleRoots config = .ok anchors)
    (small : config.length < 2 ^ 32) {answers : List ((r : Request) → Response r)}
    {accepted : Bool} {answer : String}
    (new : Pool.new config (Wire.initAccepted library) size answers =
      some (.ok (p₀, accepted, answer))) :
    p₀.SaysTheCore ssl jiff base64 json appleRoots anchors fails library config size := by
  intro events p ends asks run answered method clock instant text outcome read returned
  obtain ⟨low, high⟩ := now_ok read
  obtain ⟨none, start⟩ : p₀.threads = [] ∧
      ∀ ends, p₀.Ends (Answers ssl jiff base64 json appleRoots fails) ends →
        p₀.Honest ssl jiff base64 json appleRoots anchors fails library ends :=
    Pool.honest_new reads made positive new
  have inv := (Pool.inv_new positive new).1
  have methods : p₀.Methods library := by
    rw [Pool.Methods, none]
    exact List.forall_mem_nil _
  have honest := (Pool.honest_run reads made small asks inv methods start run ends answered).threads
    _ returned method instant (bytes text) ⟨rfl, low, high⟩
  unfold verify
  rw [read]
  cases outcome with
  | ok reply => exact .inl (congrArg Except.ok honest)
  | error raised =>
    cases raised with
    | fault fault => exact .inr ⟨honest, fault, rfl⟩
    | valueError =>
      exact absurd rfl ((Pool.inv_run inv run).safe.released _ returned)

theorem poolSize_pos (cpuCount : Option Nat) : 1 ≤ poolSize cpuCount :=
  Nat.le_trans (by decide) (Nat.le_max_left 2 _)

/-- **A Python verifier is the core over its roots.** Whatever the module's first instance answers,
a verifier is made only where the core takes the roots of the configuration, and it says what the
core says under their anchors. A `ValueError` means that there are none or that the core refuses
them, and a `RuntimeError` that the machinery failed or their text has no 32-bit length. -/
theorem verifier_is_the_core (reads : Wire.Reads base64 library) {roots : Option (List Bytes)}
    (readsRoots : ReadsRoots base64 json library roots) {cpuCount : Option Nat}
    {answers : List ((r : Request) → Response r)} {outcome : Except SetupError (Pool Reply)}
    (made : setup library roots cpuCount answers = some outcome) {i i' : Abi.Instance}
    (began : (Answers ssl jiff base64 json appleRoots fails).Follows i
      (firstTrace library roots answers) i') :
    (∀ p₀, outcome = .ok p₀ → ∃ anchors, newVerifier ssl appleRoots (roots.getD []) = .ok anchors ∧
      p₀.SaysTheCore ssl jiff base64 json appleRoots anchors fails library
        (Wire.initConfig library roots) (poolSize cpuCount)) ∧
    (∀ message, outcome = .error (.valueError message) →
      roots = some [] ∧ message = "config.roots must not be empty" ∨
      ∃ refusal, initModule ssl base64 json appleRoots (Wire.initConfig library roots) =
        .error refusal ∧ message = s!"the module refused config.roots: {refusal}") ∧
    ∀ message, outcome = .error (.runtimeError message) →
      fails ∨ 2 ^ 32 ≤ (Wire.initConfig library roots).length := by
  have tells := setup_tells reads made began
  refine ⟨?_, ?_, ?_⟩
  · rintro p₀ rfl
    obtain ⟨⟨accepted, answer, new⟩, small, anchors, taken⟩ := tells
    exact ⟨anchors, newVerifier_of_initModule readsRoots taken,
      methods_are_the_core (poolSize_pos cpuCount) reads taken small new⟩
  · rintro message rfl
    exact tells
  · rintro message rfl
    exact tells

end

end Python

/-! ## Three calls on two instances -/

namespace Sample

/-- The root, as a configuration has it. -/
def rootDer : Bytes := [0x30, 1]

def oneRoot : Option (List Bytes) := some [rootDer]

def rootAnchors : List TrustAnchor := [⟨rootDer, root⟩]

/-- Reads the root too. -/
def rootSsl : OpenSsl :=
  { es256 with
    d2iX509 := fun der => if der = rootDer then some (root, true) else es256.d2iX509 der }

def rootConfigText : String := "\x7b\"roots\":[\"MAE=\"]\x7d"

/-- Reads the configuration too. -/
def rootJson : SerdeJson :=
  { jwsJson with
    wholeObject := fun text =>
      if text = rootConfigText then some [("roots", "[\"MAE=\"]")] else jwsJson.wholeObject text
    value := fun text =>
      if text = rootConfigText then .ok (.object [("roots", .array [.string "MAE="])])
      else .error "expected value at line 1 column 1" }

theorem rootReads : Python.Wire.Reads urlBase64 pythonLibrary :=
  ⟨pythonReads.texts, pythonReads.decodes, pythonReads.encodes, pythonReads.int⟩

theorem rootReadsRoots : Python.ReadsRoots urlBase64 rootJson pythonLibrary oneRoot := by
  have encoded : pythonLibrary.b64encode rootDer = "MAE=" := by decide +kernel
  have value : Python.rootsValue pythonLibrary oneRoot =
      .object [("roots", .array [.string "MAE="])] := by
    rw [oneRoot, Python.rootsValue, List.map_singleton, encoded]
  have text : Python.Wire.dumps (Python.rootsValue pythonLibrary oneRoot) = rootConfigText := by
    rw [value]
    decide +kernel
  refine ⟨?_, ?_, decodeText_encode⟩
  · rw [text, value]
    dsimp only [rootJson]
    exact if_pos rfl
  · rw [text]
    decide +kernel

/-- What wasmtime answers around a call that ends with a text of `n` bytes, with so much memory. -/
def replying (size : Nat) (n : UInt8) (text : String) : (r : Python.Request) → Python.Response r
  | .instantiate => .ok ()
  | .realloc _ => .ok 1
  | .dataLen => .ok size
  | .write _ _ => .ok ()
  | .invoke _ _ _ _ => .ok 0
  | .read start _ => .ok (if start = 0 then [8, 0, 0, 0, n, 0, 0, 0] else utf8 text)
  | .post _ _ => .ok ()

/-- The answers in a call on so many bytes that ends with a text of `n`. -/
def callReplies (size : Nat) (n : UInt8) (text : String) :
    List ((r : Python.Request) → Python.Response r) :=
  List.replicate 4 (replying (size + 1) n text) ++ List.replicate 4 (replying (n.toNat + 8) n text)

def createReplies : List ((r : Python.Request) → Python.Response r) :=
  replying 0 0 "" :: callReplies 18 37 (initResult (.ok ()))

/-- The text of some ASCII. -/
def pythonText (input : Bytes) : Python.Str :=
  input.map fun byte => ⟨byte.toNat, Nat.lt_trans byte.toNat_lt (by decide)⟩

def pythonCalls : List (Python.Method × Python.Str) := [
  (.verifySignedData, pythonText (signedJws content)),
  (.verifyReceiptEndpoint .production, pythonText (utf8 "\x7b\x7d")),
  (.verifyReceipt, pythonText (utf8 "!"))]

def pythonJobs : List (Python.Job Python.Reply) :=
  pythonCalls.map fun call => call.1.job pythonLibrary 0 (Python.bytes (some call.2))

/-- A thread that has its instance goes on to the end of its call. -/
def servedSteps (c size : Nat) (n : UInt8) (text : String) :
    List (Python.Pool.Event Python.Reply) :=
  (callReplies size n text ++ List.replicate 4 (replying (n.toNat + 8) n text)).map (.step c)

/-- The first thread takes the instance of the pool and the second one makes another. The third has
to wait for a permit, and is served by the second instance. -/
def pythonEvents : List (Python.Pool.Event Python.Reply) := List.flatten [
  pythonJobs.map .enter, [0, 1, 0, 1].map fun c => .step c (replying 0 0 ""),
  createReplies.map (.step 1), servedSteps 0 169 67 signedText, servedSteps 1 2 16 endpointText,
  [2, 2].map fun c => .step c (replying 0 0 ""), servedSteps 2 1 79 receiptText]

/-- The eight requests of a call, with those answers. -/
def pythonTrace (fn : String) (scalars : List Int) (input : Bytes) (n : UInt8) (text : String) :
    Python.Trace := [
  ⟨.realloc input.length, .ok 1⟩, ⟨.dataLen, .ok (input.length + 1)⟩, ⟨.write input 1, .ok ()⟩,
  ⟨.invoke fn scalars 1 input.length, .ok 0⟩, ⟨.dataLen, .ok (n.toNat + 8)⟩,
  ⟨.read 0 8, .ok [8, 0, 0, 0, n, 0, 0, 0]⟩, ⟨.read 8 (8 + n.toNat), .ok (utf8 text)⟩,
  ⟨.post fn 0, .ok ()⟩]

def rootConfig : Bytes := Python.Wire.initConfig pythonLibrary oneRoot

def createTrace : Python.Trace :=
  ⟨.instantiate, .ok ()⟩ :: pythonTrace "init" [] rootConfig 37 (initResult (.ok ()))

/-- What the instance that serves the first thread is asked of it. -/
def signedTrace : Python.Trace :=
  pythonTrace "verify-signed-data" [0] (signedJws content) 67 signedText ++ [⟨.dataLen, .ok 75⟩]

/-- What the instance that serves the other two is asked of them. -/
def laterTrace : Python.Trace :=
  pythonTrace "verify-receipt-endpoint" [0, 0] (utf8 "\x7b\x7d") 16 endpointText ++
    (⟨.dataLen, .ok 24⟩ :: (pythonTrace "verify-receipt" [0] (utf8 "!") 79 receiptText ++
      [⟨.dataLen, .ok 87⟩]))

def cameBack : Python.Point Python.Reply → Bool
  | .returned _ => true
  | _ => false

/-- What the instances were asked in the run, how many there are, and which calls came back. -/
def pythonRun : Option (Python.Trace × Python.Trace × Nat × List Bool) :=
  match Python.setup pythonLibrary oneRoot (some 1) createReplies with
  | some (.ok p₀) =>
    (p₀.run rootConfig (Python.Wire.initAccepted pythonLibrary) (Python.poolSize (some 1))
      pythonEvents).map fun p =>
        (p.history 0, p.history 1, p.made, p.threads.map fun thread => cameBack thread.point)
  | _ => none

/-- A call that ends with a text happens on an instance, which keeps the text in its return area. -/
theorem follows_pythonTrace {fn : String} {scalars : List Int} {input memory : Bytes}
    {slot slot' : Abi.Slot} {n : UInt8} {text : String} (size : (utf8 text).length = n.toNat)
    (small : input.length < 2 ^ 31)
    (body : (⟨0 :: input, slot⟩ : Abi.Instance).invoke rootSsl .gregorian urlBase64 rootJson [] fn
      (Python.coreArguments scalars 1 input.length) = some (text, slot')) :
    (Python.Answers rootSsl .gregorian urlBase64 rootJson [] False).Follows ⟨memory, slot⟩
      (pythonTrace fn scalars input n text) ⟨area n text, slot'⟩ := by
  let room : Abi.Instance := ⟨List.replicate (input.length + 1) 0, slot⟩
  have allocated : Python.Answers rootSsl .gregorian urlBase64 rootJson [] False ⟨memory, slot⟩
      (.realloc input.length) (.ok 1) room := by
    refine ⟨rfl, Nat.one_pos, ?_, ?_⟩
    · rw [Nat.mod_eq_of_lt (by omega)]
      simp [room, Python.unsigned, Nat.add_comm]
    · simp only [room, List.length_replicate]
      omega
  have whole : utf8 text = ((area n text).drop 8).take (8 + n.toNat - 8) := by
    rw [Nat.add_sub_cancel_left]
    exact (area_holds slot' size).2.2.symm
  exact .cons allocated (.cons ⟨rfl, by simp [room]⟩ (.cons (write_room input slot).symm
    (.cons ⟨text, body, returns_area size⟩ (.cons ⟨rfl, (length_area size).symm⟩
      (.cons ⟨rfl, rfl⟩ (.cons ⟨rfl, whole⟩ (.cons rfl (.nil _))))))))

/-- What wasmtime answered is what an instance of the module does. -/
theorem follows_traces :
    (Python.Answers rootSsl .gregorian urlBase64 rootJson [] False).Follows ⟨[], none⟩ createTrace
      ⟨area 37 (initResult (.ok ())), some rootAnchors⟩ ∧
    (Python.Answers rootSsl .gregorian urlBase64 rootJson [] False).Follows
      ⟨area 37 (initResult (.ok ())), some rootAnchors⟩ signedTrace
      ⟨area 67 signedText, some rootAnchors⟩ ∧
    (Python.Answers rootSsl .gregorian urlBase64 rootJson [] False).Follows
      ⟨area 37 (initResult (.ok ())), some rootAnchors⟩ laterTrace
      ⟨area 79 receiptText, some rootAnchors⟩ := by
  refine ⟨?_, ?_, ?_⟩
  · have body : (⟨0 :: rootConfig, none⟩ : Abi.Instance).invoke rootSsl .gregorian urlBase64
        rootJson [] "init" (Python.coreArguments [] 1 rootConfig.length) =
          some (initResult (.ok ()), some rootAnchors) := by decide +kernel
    have started : Python.Answers rootSsl .gregorian urlBase64 rootJson [] False ⟨[], none⟩
        .instantiate (.ok ()) ⟨[], none⟩ := rfl
    have size : (utf8 (initResult (.ok ()))).length = (37 : UInt8).toNat := by decide +kernel
    exact .cons started (follows_pythonTrace size (by decide +kernel) body)
  · have size : (utf8 signedText).length = (67 : UInt8).toNat := by decide +kernel
    have body : (⟨0 :: signedJws content, some rootAnchors⟩ : Abi.Instance).invoke rootSsl
        .gregorian urlBase64 rootJson [] "verify-signed-data"
        (Python.coreArguments [0] 1 (signedJws content).length) =
          some (signedText, some rootAnchors) := by decide +kernel
    refine World.follows_append.mpr
      ⟨_, follows_pythonTrace size (by decide +kernel) body, ?_⟩
    exact .cons ⟨rfl, (length_area size).symm⟩ (.nil _)
  · have size : (utf8 endpointText).length = (16 : UInt8).toNat := by decide +kernel
    have size' : (utf8 receiptText).length = (79 : UInt8).toNat := by decide +kernel
    have body : (⟨0 :: utf8 "\x7b\x7d", some rootAnchors⟩ : Abi.Instance).invoke rootSsl .gregorian
        urlBase64 rootJson [] "verify-receipt-endpoint"
        (Python.coreArguments [0, 0] 1 (utf8 "\x7b\x7d").length) =
          some (endpointText, some rootAnchors) := by decide +kernel
    have body' : (⟨0 :: utf8 "!", some rootAnchors⟩ : Abi.Instance).invoke rootSsl .gregorian
        urlBase64 rootJson [] "verify-receipt" (Python.coreArguments [0] 1 (utf8 "!").length) =
          some (receiptText, some rootAnchors) := by decide +kernel
    refine World.follows_append.mpr
      ⟨_, follows_pythonTrace size (by decide +kernel) body,
        .cons ⟨rfl, (length_area size).symm⟩ (World.follows_append.mpr
          ⟨_, follows_pythonTrace size' (by decide +kernel) body', ?_⟩)⟩
    exact .cons ⟨rfl, (length_area size').symm⟩ (.nil _)

def pythonEnds : Nat → Abi.Instance
  | 0 => ⟨area 67 signedText, some rootAnchors⟩
  | 1 => ⟨area 79 receiptText, some rootAnchors⟩
  | _ => ⟨[], none⟩

end Sample

/-- Three calls of a verifier over one root, on a pool of two: a JWS accepted, an
endpoint request answered and a receipt refused, each as the core says. -/
theorem verifier_is_the_core_three : ∃ p₀ p : Python.Pool Python.Reply,
    Python.setup Sample.pythonLibrary Sample.oneRoot (some 1) Sample.createReplies =
      some (.ok p₀) ∧
    p₀.run Sample.rootConfig (Python.Wire.initAccepted Sample.pythonLibrary)
      (Python.poolSize (some 1)) Sample.pythonEvents = some p ∧ p.made = 2 ∧
    (∀ (c : Nat) method text, Sample.pythonCalls[c]? = some (method, text) → ∃ outcome,
      p.threads[c]? = some ⟨method.job Sample.pythonLibrary 0 (Python.bytes (some text)),
        .returned outcome⟩ ∧
      Python.verify Sample.pythonLibrary (.int 0) (fun _ => outcome) method (some text) =
        .ok (method.verdict Sample.rootSsl .gregorian Sample.urlBase64 Sample.rootJson
          Sample.rootAnchors 0 (Python.bytes (some text)))) ∧
    Verifier.verifySignedDataBytesAt Sample.rootSsl Sample.urlBase64 Sample.rootJson
      Sample.rootAnchors (Sample.signedJws Sample.content) 0 = .ok ⟨Sample.content, none⟩ := by
  have first : Python.firstTrace Sample.pythonLibrary Sample.oneRoot Sample.createReplies =
      Sample.createTrace := by decide +kernel
  have ran : Sample.pythonRun = some (Sample.createTrace ++ Sample.signedTrace,
      Sample.createTrace ++ Sample.laterTrace, 2, [true, true, true]) := by decide +kernel
  have own : newVerifier Sample.rootSsl [] [Sample.rootDer] = .ok Sample.rootAnchors := by
    decide +kernel
  have accepted : Verifier.verifySignedDataBytesAt Sample.rootSsl Sample.urlBase64 Sample.rootJson
      Sample.rootAnchors (Sample.signedJws Sample.content) 0 = .ok ⟨Sample.content, none⟩ := by
    decide +kernel
  obtain ⟨created, signed, later⟩ := Sample.follows_traces
  unfold Sample.pythonRun at ran
  split at ran
  next p₀ made =>
    obtain ⟨p, run, facts⟩ := Option.map_eq_some_iff.mp ran
    simp only [Prod.mk.injEq] at facts
    obtain ⟨history, history', two, back⟩ := facts
    have began := created
    rw [← first] at began
    obtain ⟨anchors, opened, core⟩ := (Python.verifier_is_the_core Sample.rootReads
      Sample.rootReadsRoots made began).1 p₀ rfl
    obtain rfl : Sample.rootAnchors = anchors := Except.ok.inj (own.symm.trans opened)
    obtain ⟨⟨taken, answer, new⟩, -, -⟩ := Python.setup_tells Sample.rootReads made began
    have entered : Sample.pythonEvents.flatMap Python.Pool.Event.entered = Sample.pythonJobs := rfl
    have jobs := Python.Pool.jobs_run run
    rw [Python.Pool.threads_new new, List.map_nil, List.nil_append, entered] at jobs
    have ended : p.Ends (Python.Answers Sample.rootSsl .gregorian Sample.urlBase64
        Sample.rootJson [] False) Sample.pythonEnds := by
      intro store
      match store with
      | 0 =>
        rw [history]
        exact ⟨_, World.follows_append.mpr ⟨_, created, signed⟩⟩
      | 1 =>
        rw [history']
        exact ⟨_, World.follows_append.mpr ⟨_, created, later⟩⟩
      | store + 2 =>
        have inv := Python.Pool.inv_run
          (Python.Pool.inv_new (Python.poolSize_pos (some 1)) new).1 run
        rw [inv.blank (store + 2) (by omega)]
        exact ⟨_, .nil _⟩
    have asks : ∀ job, Python.Pool.Event.enter job ∈ Sample.pythonEvents →
        ∃ method now data, Python.Asks Sample.pythonLibrary job method now data := by
      intro job mem
      have own : job ∈ Sample.pythonEvents.flatMap Python.Pool.Event.entered :=
        List.mem_flatMap.mpr ⟨_, mem, List.mem_singleton_self job⟩
      rw [entered] at own
      obtain ⟨⟨method, text⟩, -, rfl⟩ := List.mem_map.mp own
      exact ⟨method, 0, _, rfl, by decide, by decide⟩
    refine ⟨p₀, p, made, run, two, fun c method text call => ?_, accepted⟩
    have at_ : (p.threads.map Python.Thread.job)[c]? =
        some (method.job Sample.pythonLibrary 0 (Python.bytes (some text))) := by
      rw [jobs, Sample.pythonJobs, List.getElem?_map, call]
      rfl
    rw [List.getElem?_map] at at_
    obtain ⟨⟨job, point⟩, own, rfl⟩ := Option.map_eq_some_iff.mp at_
    have mem := List.mem_of_getElem? own
    have came : Sample.cameBack point = true := by
      have listed := List.mem_map_of_mem (f := fun thread => Sample.cameBack thread.point) mem
      rw [back] at listed
      simpa using listed
    cases point with
    | returned outcome =>
      refine ⟨outcome, own, ?_⟩
      have told := core _ p _ asks run ended method (.int 0) 0 (some text) outcome rfl mem
      exact told.resolve_right fun failed => failed.1
    | waiting | taking | serving store rest | giving inst result | releasing outcome => cases came
  · cases ran

end ReceiptVerifier
