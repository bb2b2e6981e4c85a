import ReceiptVerifier.Verify.GoHost
import ReceiptVerifier.Verify.Http
import ReceiptVerifier.Verify.Runtime

/-!
# Instances are not shared, reused after a failure, or handed out before `init`

The two pools, in every state that any number of callers reach in any order of steps, whatever the
guest answers.
-/

namespace ReceiptVerifier

namespace Go

section

variable (config : Bytes) (unmarshal : Bytes → Option InitReply)

/-- What the Go pool promises of a state. -/
structure Host.Safe (s : Host) : Prop where
  pooled : ∀ g ∈ s.pool, Fit config unmarshal (s.guests g).calls
  handed : ∀ c g run, s.callers c = .calling g run → Fit config unmarshal (s.guests g).calls
  once : s.pool.Nodup
  apart : ∀ g ∈ s.pool, ∀ c, (s.callers c).holds ≠ some g
  alone : ∀ c c' g, (s.callers c).holds = some g → (s.callers c').holds = some g → c = c'
  /-- The calls that ended on an instance asked what the instance was asked, in order. -/
  recorded : ∀ g, (s.guests g).calls.flatMap Call.trace <+: (s.guests g).history
  /-- After the guest failed or the instance was closed, no export is called. -/
  silent : ∀ g, Silent (s.guests g).history
  returned : ∀ g, ∀ call ∈ (s.guests g).calls, ∀ out, call.result = .ok out →
    Returned call.fn call.trace out
  failing : ∀ g, ∀ call ∈ (s.guests g).calls, call.Failed → Failing call.fn call.trace
  usage : ∀ g, ∀ call ∈ (s.guests g).calls, ∀ err, call.result = .error err →
    err.isUsage = true → ∀ e ∈ call.trace, e.request.exports = false
  /-- After a usage error `put` pools the instance again, unless its memory is over the limit. -/
  kept : ∀ c g err, s.callers c = .putting g (.error err) → err.isUsage = true →
    (s.guests g).dead = false ∧ ∀ size, ∃ s', s.step config unmarshal (.put c size) = some s' ∧
      (g ∈ s'.pool ↔ size ≤ maxPooledMemory)
  /-- The call of `init` in `newGuest` is never a usage error. -/
  init : ∀ c task g run err, s.callers c = .initialising task g run →
    run.rest = .done (.error err) → err.isUsage = false

end

variable {config : Bytes} {unmarshal : Bytes → Option InitReply} {s s' : Host}

theorem Host.Inv.safe (inv : s.Inv config unmarshal) : s.Safe config unmarshal where
  pooled g mem := inv.sound.fit g mem
  handed c g run at_ := by
    have ok := inv.callers c
    rw [at_] at ok
    exact ok.1
  once := inv.sound.nodup
  apart g mem c held := inv.sound.apart held mem
  alone c c' g held held' := inv.sound.alone held held'
  recorded g := (inv.guests g).history
  silent g := (inv.guests g).silent
  returned g call mem out result := by
    have ends := Goes.ends ((inv.guests g).calls call mem)
    rwa [result] at ends
  failing g call mem fails := ((inv.guests g).calls call mem).failing fails
  usage g call mem err result own := by
    have ends := Goes.ends ((inv.guests g).calls call mem)
    have trace : call.trace = [⟨.dead, false⟩] := by simpa [result, Ends, own] using ends
    intro e mem
    rw [trace] at mem
    obtain rfl := List.mem_singleton.mp mem
    rfl
  kept c g err at_ usage := by
    have ok := inv.callers c
    rw [at_] at ok
    have fine : ¬ Fails (.error err) := by
      rintro ⟨err', ⟨⟩, own⟩
      rw [usage] at own
      cases own
    have idle := (ok.2 fine).2
    have unpooled : g ∉ s.pool := inv.sound.apart (h := c) (congrArg Caller.holds at_)
    refine ⟨idle.alive, fun size => ⟨_, by simp only [Host.step, at_]; rfl, ?_⟩⟩
    change g ∈ (s.put g size).pool ↔ _
    rw [put_pool s idle.alive]
    split
    · next large =>
      exact ⟨fun mem => absurd mem unpooled, fun small => absurd large (UInt32.not_lt.mpr small)⟩
    · next small => exact ⟨fun _ => UInt32.not_lt.mp small, fun _ => List.mem_cons_self⟩
  init c task g run err at_ rest := by
    have ok := inv.callers c
    rw [at_] at ok
    obtain ⟨fn, args, -, busy⟩ := ok
    have goes := busy.goes
    rw [fn, args, rest] at goes
    exact init_not_usage goes

/-- After a call failed inside the guest, no export of its instance is called again. -/
theorem exports_run (inv : s.Inv config unmarshal) {events : List Event}
    (run : s.run config unmarshal events = some s') {g : Nat}
    (fails : ∃ call ∈ (s.guests g).calls, call.Failed) :
    (s'.guests g).history.filter (·.request.exports) =
      (s.guests g).history.filter (·.request.exports) := by
  obtain ⟨call, mem, fails⟩ := fails
  obtain ⟨later, grown⟩ := history_run run g
  obtain ⟨before, trace, -, -⟩ := ((inv.guests g).calls call mem).failing fails
  have closed : ⟨.close, ()⟩ ∈ (s.guests g).history := by
    refine (inv.guests g).history.subset (List.mem_flatMap.mpr ⟨call, mem, ?_⟩)
    rw [trace]
    exact List.mem_append_right _ (List.mem_singleton_self _)
  have silent := ((inv_run inv run).guests g).silent
  rw [← grown] at silent
  have none : later.filter (·.request.exports) = [] := by
    refine List.filter_eq_nil_iff.mpr fun e last => ?_
    rw [(List.pairwise_append.mp silent).2.2 _ closed e last rfl]
    exact Bool.false_ne_true
  rw [← grown, List.filter_append, none, List.append_nil]

end Go

namespace Server

section

variable (config : Bytes) (json : SerdeJson)

/-- What the server's pool promises of a state. -/
structure Runtime.Safe (s : Runtime) : Prop where
  pooled : ∀ i ∈ s.pool, Fit config json (s.calls i)
  handed : ∀ c i op input, s.callers c = .calling i op input → Fit config json (s.calls i)
  once : s.pool.Nodup
  apart : ∀ i ∈ s.pool, ∀ c, (s.callers c).holds ≠ some i
  alone : ∀ c c' i, (s.callers c).holds = some i → (s.callers c').holds = some i → c = c'
  /-- A failed call is the last of its instance. -/
  last : ∀ i, (s.calls i).Pairwise fun call _ => ¬ call.Failed

end

variable {config : Bytes} {json : SerdeJson} {s s' : Runtime}

theorem Runtime.Inv.safe (inv : s.Inv config json) : s.Safe config json where
  pooled i mem := inv.sound.fit i mem
  handed c i op input at_ := by
    have ok := inv.callers c
    rwa [at_] at ok
  once := inv.sound.nodup
  apart i mem c held := inv.sound.apart held mem
  alone c c' i held held' := inv.sound.alone held held'
  last := inv.last

/-- After a call failed, its instance is not called again. -/
theorem failed_run (inv : s.Inv config json) {events : List Event}
    (run : s.run config json events = some s') {i : Nat}
    (fails : ∃ call ∈ s.calls i, call.Failed) : s'.calls i = s.calls i := by
  obtain ⟨call, mem, fails⟩ := fails
  obtain ⟨later, grown⟩ := calls_run run i
  have last := (inv_run inv run).last i
  rw [← grown] at last
  have none : later = [] := by
    refine List.eq_nil_iff_forall_not_mem.mpr fun next own => ?_
    exact (List.pairwise_append.mp last).2.2 call mem next own fails
  rw [← grown, none, List.append_nil]

end Server

/-- **Instances are never shared, reused after a failure, or handed out before `init`.** Whatever
the guest answers and in whatever order the callers' steps come, every state either pool reaches is
safe, and an instance one of whose calls failed is never called again. -/
theorem instances_never_shared (config : Bytes) (unmarshal : Bytes → Option Go.InitReply)
    (json : SerdeJson) :
    (∀ events s, Go.Host.init.run config unmarshal events = some s →
      s.Safe config unmarshal ∧
      ∀ later s', s.run config unmarshal later = some s' → ∀ g,
        (∃ call ∈ (s.guests g).calls, call.Failed) →
        (s'.guests g).history.filter (·.request.exports) =
          (s.guests g).history.filter (·.request.exports)) ∧
    ∀ pool events s, (Server.Runtime.init pool).run config json events = some s →
      s.Safe config json ∧
      ∀ later s', s.run config json later = some s' → ∀ i,
        (∃ call ∈ s.calls i, call.Failed) → s'.calls i = s.calls i := by
  constructor
  · intro events s run
    have inv := Go.inv_run Go.inv_init run
    exact ⟨inv.safe, fun later s' run g fails => Go.exports_run inv run fails⟩
  · intro pool events s run
    have inv := Server.inv_run (Server.inv_init pool) run
    exact ⟨inv.safe, fun later s' run i fails => Server.failed_run inv run fails⟩

namespace Sample

/-- The module's accepting answer to `init`. -/
def accepting : Bytes := utf8 (initResult (.ok ()))

/-- `encoding/json` on that answer. -/
def unmarshal (answer : Bytes) : Option Go.InitReply :=
  if answer = accepting then some ⟨some true, "", some 3145729⟩ else none

/-- A guest that accepts every `init` and frees every answer. -/
def accepts : (r : Go.Request) → Go.Response r
  | .dead => false
  | .maxInput => 0
  | .realloc _ => .ok 1024
  | .write _ _ => true
  | .invoke _ _ => .ok 512
  | .readUint32Le _ => some 2048
  | .read _ _ => true
  | .copy _ _ => accepting
  | .postReturn _ _ => .ok ()
  | .close => ()

/-- A guest that traps where it is asked for a buffer. -/
def traps : (r : Go.Request) → Go.Response r
  | .realloc _ => .error "wasm error: unreachable"
  | r => accepts r

/-- The ten requests of a call of `init`. -/
def initReplies (c : Nat) : List Go.Event := List.replicate 10 (.reply c accepts)

/-- While one caller's instance traps, another makes its own, calls no export in a usage error, and
gives it back. -/
def goEvents : List Go.Event := List.flatten [
  [.instantiate 0 none],
  initReplies 0,
  [.finish 0, .enter "verify-receipt" [.uint64 0, .string []], .enter "verify" [],
    .get 1 (some 0), .get 2 none, .reply 1 traps, .instantiate 2 none, .reply 1 traps,
    .reply 1 traps],
  initReplies 2,
  [.reply 1 traps, .finish 2, .finish 1, .put 1 0, .reply 2 accepts, .finish 2,
    .put 2 1048576]]

/-- The same on the server, where the second caller's call answers. -/
def serverEvents : List Server.Event := [
  .instantiate 0 none, .call 0 (.ok (initResult (.ok ()))),
  .enter (.verify (.verifyReceipt 0)) [], .enter (.verify (.verifyReceipt 0)) [], .pop 1, .pop 2,
  .instantiate 2 none, .call 1 (.error (.trap "unreachable")),
  .call 2 (.ok (initResult (.ok ()))), .call 2 (.ok ""), .push 2]

end Sample

theorem instances_never_shared_events :
    (∃ s, Go.Host.init.run [] Sample.unmarshal Sample.goEvents = some s ∧ s.pool = [1] ∧
      s.Safe [] Sample.unmarshal) ∧
    ∃ s, (Server.Runtime.init true).run [] Sample.initJson Sample.serverEvents = some s ∧
      s.pool = [1] ∧ s.Safe [] Sample.initJson := by
  have go : (Go.Host.init.run [] Sample.unmarshal Sample.goEvents).map (·.pool) = some [1] := by
    decide +kernel
  have server : ((Server.Runtime.init true).run [] Sample.initJson Sample.serverEvents).map
      (·.pool) = some [1] := by
    decide +kernel
  obtain ⟨s, run, pool⟩ := Option.map_eq_some_iff.mp go
  obtain ⟨s', run', pool'⟩ := Option.map_eq_some_iff.mp server
  have safe := instances_never_shared [] Sample.unmarshal Sample.initJson
  exact ⟨⟨s, run, pool, (safe.1 _ s run).1⟩, s', run', pool', (safe.2 true _ s' run').1⟩

end ReceiptVerifier
