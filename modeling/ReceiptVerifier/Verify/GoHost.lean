import ReceiptVerifier.Go.Host
import ReceiptVerifier.Lib.Lease

/-!
# The Go host's instances

What a call asks of its instance is settled first, for every way the guest answers (`obeys_call`).
The pool then moves leases: an instance is in the pool or with one caller, and the pool holds those
whose `init` accepted and whose calls did not fail (`Host.Inv`).
-/

namespace ReceiptVerifier

namespace Go

/-! ## One call -/

/-- The functions the module exports. -/
def Request.exports : Request → Bool
  | .realloc _ => true
  | .invoke _ _ => true
  | .postReturn _ _ => true
  | _ => false

def Request.frees : Request → Bool
  | .postReturn _ _ => true
  | _ => false

def Request.closes : Request → Bool
  | .close => true
  | _ => false

/-- The guest trapped or answered outside memory. -/
def failed : Exchange Request Response → Bool
  | ⟨.realloc _, .error _⟩ => true
  | ⟨.write _ _, inside⟩ => !inside
  | ⟨.invoke _ _, .error _⟩ => true
  | ⟨.invoke _ _, .ok ret⟩ => 0xffffffff - 8 < ret.toUInt32
  | ⟨.readUint32Le _, word⟩ => word.isNone
  | ⟨.read _ _, inside⟩ => !inside
  | ⟨.postReturn _ _, .error _⟩ => true
  | _ => false

/-- After such an exchange no export may be called. -/
def stops (e : Exchange Request Response) : Bool := failed e || e.request.closes

/-- Nothing stopped yet, and the answer is not freed. -/
def Clean (trace : Trace) : Prop := ∀ e ∈ trace, stops e = false ∧ e.request.frees = false

/-- Nothing is asked of a closed instance, and exports are called only while nothing stopped. -/
def allowed (trace : Trace) (r : Request) : Prop :=
  (∀ e ∈ trace, e.request.closes = false) ∧ (r.exports = true → ∀ e ∈ trace, stops e = false)

theorem closes_eq_false {e : Exchange Request Response} (on : stops e = false) :
    e.request.closes = false :=
  (Bool.or_eq_false_iff.mp on).2

theorem Clean.allowed {trace : Trace} (clean : Clean trace) (r : Request) : allowed trace r :=
  ⟨fun e mem => closes_eq_false (clean e mem).1, fun _ e mem => (clean e mem).1⟩

theorem Clean.snoc {trace : Trace} {e : Exchange Request Response} (clean : Clean trace)
    (on : stops e = false) (unfreed : e.request.frees = false) : Clean (trace ++ [e]) :=
  List.forall_mem_append.mpr ⟨clean, List.forall_mem_singleton.mpr ⟨on, unfreed⟩⟩

/-- Neither is the answer freed nor the instance closed. -/
def Open (trace : Trace) : Prop :=
  ∀ e ∈ trace, e.request.frees = false ∧ e.request.closes = false

theorem Clean.open {trace : Trace} (clean : Clean trace) : Open trace :=
  fun e mem => ⟨(clean e mem).2, closes_eq_false (clean e mem).1⟩

theorem Open.snoc {trace : Trace} {e : Exchange Request Response} (opened : Open trace)
    (unfreed : e.request.frees = false) (unclosed : e.request.closes = false) :
    Open (trace ++ [e]) :=
  List.forall_mem_append.mpr ⟨opened, List.forall_mem_singleton.mpr ⟨unfreed, unclosed⟩⟩

/-- A call broke off before it freed the answer: the guest failed in it. -/
def Broken (trace : Trace) : Prop := (∃ e ∈ trace, failed e = true) ∧ Open trace

theorem Clean.broken {trace : Trace} {e : Exchange Request Response} (clean : Clean trace)
    (fails : failed e = true) (unfreed : e.request.frees = false)
    (unclosed : e.request.closes = false) : Broken (trace ++ [e]) :=
  ⟨⟨e, by simp, fails⟩, clean.open.snoc unfreed unclosed⟩

/-- What `lower` leaves: every argument in the guest, a refusal that asked nothing, or a guest that
failed. -/
def Lowered (start trace : Trace) : Except Error (List UInt64) → Prop
  | .ok _ => Clean trace
  | .error err => if err.isUsage then trace = start else Broken trace

theorem obeys_lowerArguments (fn : String) (i : Nat) (args : List Argument) (out : List UInt64)
    {start trace : Trace} (clean : Clean trace) :
    (lowerArguments fn i args out).Obeys allowed (Lowered start) trace := by
  fun_induction lowerArguments fn i args out generalizing trace with
  | case1 i out => exact clean
  | case2 i v args out ih => exact ih clean
  | case3 i v args out ih =>
    simp only [ask, Program.obeys_bind, Program.obeys_request]
    refine ⟨clean.allowed _, fun maxInput => ?_⟩
    have clean := clean.snoc (e := ⟨.maxInput, maxInput⟩) rfl rfl
    refine ⟨clean.allowed _, fun res => ?_⟩
    cases res with
    | error err => exact clean.broken rfl rfl rfl
    | ok res =>
      let n := (v.take (cut (UInt32.toNat maxInput) v.length)).length
      have clean := clean.snoc (e := ⟨.realloc n, .ok res⟩) rfl rfl
      simp only [Program.obeys_bind, Program.obeys_request]
      refine ⟨clean.allowed _, fun inside => ?_⟩
      cases inside with
      | false => exact clean.broken rfl rfl rfl
      | true => exact ih maxInput res (clean.snoc rfl rfl)

theorem arguments_isUsage {fn : String} {i : Nat} {sig : List Char} {args : List Value}
    {err : Error} (h : arguments fn i sig args = .error err) : err.isUsage = true := by
  fun_induction arguments fn i sig args with
  | case1 => cases h; rfl
  | case2 i wit sig a args argument _ ih =>
    cases rest : arguments fn (i + 1) sig args with
    | error err' =>
      rw [rest] at h
      cases h
      exact ih rest
    | ok => rw [rest] at h; cases h
  | case3 => cases h

theorem obeys_lower (fn : String) (args : List Value) {trace : Trace} (clean : Clean trace) :
    (lower fn args).Obeys allowed (Lowered trace) trace := by
  unfold lower
  dsimp only
  split
  · exact rfl
  · split
    · exact rfl
    · split
      · next err refused => simp [Lowered, arguments_isUsage refused]
      · exact obeys_lowerArguments fn 0 _ [] clean

/-- The answer was copied and then freed, and neither happened before. -/
def Returned (fn : String) (trace : Trace) (out : Bytes) : Prop :=
  ∃ before ptr n rp, trace = before ++ [⟨.copy ptr n, out⟩, ⟨.postReturn fn rp, .ok ()⟩] ∧
    Clean before

/-- The answer was not freed, or the call broke off in freeing it. -/
def FreedLast (fn : String) (trace : Trace) : Prop :=
  (∀ e ∈ trace, e.request.frees = false) ∨
    ∃ before rp err, trace = before ++ [⟨.postReturn fn rp, .error err⟩] ∧
      ∀ e ∈ before, e.request.frees = false

/-- The guest failed and the instance was closed last. -/
def Failing (fn : String) (trace : Trace) : Prop :=
  ∃ before, trace = before ++ [⟨.close, ()⟩] ∧ (∃ e ∈ before, failed e = true) ∧
    FreedLast fn before

/-- How a call ends. -/
def Ends (fn : String) (trace : Trace) : Except Error Bytes → Prop
  | .ok out => Returned fn trace out
  | .error err =>
    if err.isUsage then trace = [⟨.dead, false⟩]
    else trace = [⟨.dead, true⟩] ∨ Failing fn trace

theorem obeys_fail {fn : String} {err : Error} {trace : Trace} (own : err.isUsage = false)
    (fails : ∃ e ∈ trace, failed e = true) (unclosed : ∀ e ∈ trace, e.request.closes = false)
    (freed : FreedLast fn trace) : (fail fn err).Obeys allowed (Ends fn) trace := by
  have closed : Failing fn (trace ++ [⟨.close, ()⟩]) := ⟨trace, rfl, fails, freed⟩
  have free : allowed trace .close := ⟨unclosed, fun exports => nomatch exports⟩
  rw [fail, if_neg (by simp [own])]
  simp only [ask, Program.obeys_bind, Program.obeys_request]
  refine ⟨free, fun _ => ?_⟩
  split
  · simpa [Ends, own] using Or.inr closed
  · simpa [Ends, Error.isUsage, own] using Or.inr closed

theorem Broken.obeys_fail {fn : String} {err : Error} {trace : Trace} (broken : Broken trace)
    (own : err.isUsage = false) : (fail fn err).Obeys allowed (Ends fn) trace :=
  Go.obeys_fail own broken.1 (fun e mem => (broken.2 e mem).2)
    (.inl fun e mem => (broken.2 e mem).1)

/-- Reading the answer, after an export whose return area may be out of range. -/
theorem obeys_answer (fn : String) {rp : UInt32} {trace : Trace} (opened : Open trace)
    (far : 0xffffffff - 8 < rp → ∃ e ∈ trace, failed e = true)
    (near : ¬ 0xffffffff - 8 < rp → Clean trace) :
    (answer fn rp).Obeys allowed (Ends fn) trace := by
  have reads : ∀ {trace} offset, Open trace → allowed trace (.readUint32Le offset) :=
    fun offset opened => ⟨fun e mem => (opened e mem).2, fun exports => nomatch exports⟩
  simp only [answer, ask, Program.obeys_bind, Program.obeys_request]
  refine ⟨reads rp opened, fun ptr => ?_⟩
  have once := opened.snoc (e := ⟨.readUint32Le rp, ptr⟩) rfl rfl
  refine ⟨reads (rp + 4) once, fun n => ?_⟩
  have twice := once.snoc (e := ⟨.readUint32Le (rp + 4), n⟩) rfl rfl
  split
  · next ptr n =>
    split
    · next large =>
      obtain ⟨e, mem, fails⟩ := far large
      exact Broken.obeys_fail ⟨⟨e, by simp [mem], fails⟩, twice⟩ rfl
    · next small =>
      have clean := ((near small).snoc (e := ⟨.readUint32Le rp, some ptr⟩) rfl rfl).snoc
        (e := ⟨.readUint32Le (rp + 4), some n⟩) rfl rfl
      simp only [Program.obeys_bind, Program.obeys_request]
      refine ⟨clean.allowed _, fun inside => ?_⟩
      cases inside with
      | false =>
        rw [if_neg Bool.false_ne_true]
        exact Broken.obeys_fail (clean.broken rfl rfl rfl) rfl
      | true =>
        have clean := clean.snoc (e := ⟨.read ptr n, true⟩) rfl rfl
        rw [if_pos rfl]
        simp only [Program.obeys_bind, Program.obeys_request]
        refine ⟨clean.allowed _, fun out => ?_⟩
        have copied := clean.snoc (e := ⟨.copy ptr n, out⟩) rfl rfl
        refine ⟨copied.allowed _, fun freed => ?_⟩
        cases freed with
        | error err =>
          refine obeys_fail rfl ⟨⟨.postReturn fn rp, .error err⟩, by simp, rfl⟩ ?_
            (.inr ⟨_, rp, err, rfl, fun e mem => (copied e mem).2⟩)
          exact List.forall_mem_append.mpr
            ⟨fun e mem => closes_eq_false (copied e mem).1, List.forall_mem_singleton.mpr rfl⟩
        | ok _ => exact ⟨_, ptr, n, rp, by simp, clean⟩
  · next missing =>
    refine Broken.obeys_fail ⟨?_, twice⟩ rfl
    cases ptr with
    | none => exact ⟨⟨.readUint32Le rp, none⟩, by simp, rfl⟩
    | some ptr =>
      cases n with
      | none => exact ⟨⟨.readUint32Le (rp + 4), none⟩, by simp, rfl⟩
      | some n => exact absurd rfl (missing ptr n rfl)

/-- **Every call ends in one of four ways.** However the guest answers, no export follows a failure,
an answer is freed once and after it was copied, and a usage error asks nothing of the guest. -/
theorem obeys_call (fn : String) (args : List Value) :
    (call fn args).Obeys allowed (Ends fn) [] := by
  have clean : Clean [] := by simp [Clean]
  simp only [call, ask, Program.obeys_bind, Program.obeys_request]
  refine ⟨clean.allowed _, fun dead => ?_⟩
  cases dead with
  | true => simp [Ends, Error.isUsage]
  | false =>
    have clean := clean.snoc (e := ⟨.dead, false⟩) rfl rfl
    rw [if_neg Bool.false_ne_true]
    simp only [Program.obeys_bind]
    refine (obeys_lower fn args clean).mono fun trace core lowered => ?_
    cases core with
    | error err =>
      by_cases usage : err.isUsage
      · simp_all [Lowered, Ends, fail]
      · have broken : Broken trace := by simpa [Lowered, usage] using lowered
        exact broken.obeys_fail (by simpa using usage)
    | ok core =>
      have clean : Clean trace := lowered
      simp only [Program.obeys_bind, Program.obeys_request]
      refine ⟨clean.allowed _, fun ret => ?_⟩
      cases ret with
      | error err => exact Broken.obeys_fail (clean.broken rfl rfl rfl) rfl
      | ok ret =>
        refine obeys_answer fn ?_ ?_ ?_
        · exact clean.open.snoc rfl rfl
        · intro large
          exact ⟨⟨.invoke fn core, .ok ret⟩, by simp, by simpa [failed] using large⟩
        · intro small
          refine clean.snoc ?_ rfl
          simpa [stops, failed, Request.closes] using small

/-- No export follows what stops a call. -/
def Silent (trace : Trace) : Prop :=
  trace.Pairwise fun e later => stops e = true → later.request.exports = false

theorem Silent.snoc {trace : Trace} {e : Exchange Request Response} (silent : Silent trace)
    (free : e.request.exports = true → ∀ e' ∈ trace, stops e' = false) :
    Silent (trace ++ [e]) := by
  refine List.pairwise_append.mpr ⟨silent, List.pairwise_singleton _ _, fun e' mem later last => ?_⟩
  obtain rfl := List.mem_singleton.mp last
  intro stopped
  rw [← Bool.not_eq_true]
  intro exports
  rw [free exports e' mem] at stopped
  cases stopped

/-- A call that is under way or ended on an instance that was alive. -/
def Goes (fn : String) (args : List Value) (trace : Trace)
    (rest : Asks (Except Error Bytes)) : Prop :=
  (call fn args).Steps trace rest ∧ ⟨.dead, true⟩ ∉ trace

theorem Goes.allowed {fn : String} {args : List Value} {trace : Trace} {r : Request}
    {next : Response r → Asks (Except Error Bytes)} (goes : Goes fn args trace (.ask r next)) :
    allowed trace r :=
  (goes.1.obeys (obeys_call fn args)).1

theorem Goes.ends {fn : String} {args : List Value} {trace : Trace}
    {result : Except Error Bytes} (goes : Goes fn args trace (.done result)) :
    Ends fn trace result :=
  goes.1.obeys (obeys_call fn args)

/-- An error other than a usage error: the guest failed. -/
def Fails (result : Except Error Bytes) : Prop := ∃ err, result = .error err ∧ err.isUsage = false

namespace Call

def Goes (call : Call) : Prop := Go.Goes call.fn call.args call.trace (.done call.result)

/-- The call failed inside the guest. -/
def Failed (call : Call) : Prop := Fails call.result

theorem Goes.failing {call : Call} (goes : call.Goes) (fails : call.Failed) :
    Failing call.fn call.trace := by
  obtain ⟨err, result, own⟩ := fails
  have ends := Go.Goes.ends goes
  simp only [result, Ends, own, Bool.false_eq_true, if_false] at ends
  obtain dead | failing := ends
  · exact absurd (by simp [dead]) goes.2
  · exact failing

/-- A call that did not fail leaves nothing that stops the next. -/
theorem Goes.clean {call : Call} (goes : call.Goes) (fine : ¬ call.Failed) :
    ∀ e ∈ call.trace, stops e = false := by
  have ends := Go.Goes.ends goes
  cases result : call.result with
  | ok out =>
    rw [result] at ends
    obtain ⟨before, ptr, n, rp, trace, clean⟩ := ends
    intro e mem
    rw [trace] at mem
    obtain mem | rfl | rfl := by simpa using mem
    · exact (clean e mem).1
    · rfl
    · rfl
  | error err =>
    have usage : err.isUsage = true := by
      rw [← Bool.not_eq_false]
      exact fun own => fine ⟨err, result, own⟩
    have trace : call.trace = [⟨.dead, false⟩] := by simpa [result, Ends, usage] using ends
    intro e mem
    rw [trace] at mem
    obtain rfl := List.mem_singleton.mp mem
    rfl

end Call

/-- `init` gets the configuration as its one list of bytes, so it is no usage error. -/
theorem init_not_usage {config : Bytes} {trace : Trace} {err : Error}
    (goes : Goes "init" [.bytes config] trace (.done (.error err))) : err.isUsage = false := by
  have asks : (call "init" [.bytes config]).Obeys (fun _ _ => True)
      (fun trace _ => trace ≠ [⟨.dead, false⟩]) [] := by
    refine ⟨trivial, fun dead => ?_⟩
    cases dead with
    | true =>
      have other : ([⟨.dead, true⟩] : Trace) ≠ [⟨.dead, false⟩] := by simp
      exact other
    | false =>
      have further : ∀ maxInput, ∀ p : Asks (Except Error Bytes),
          p.Obeys (fun _ _ => True) (fun trace _ => trace ≠ [⟨.dead, false⟩])
            [⟨.dead, false⟩, ⟨.maxInput, maxInput⟩] := by
        intro maxInput p
        refine Program.obeys_of_prefix fun longer _ grown same => ?_
        rw [same] at grown
        exact absurd grown.length_le (by simp)
      exact ⟨trivial, fun maxInput => further maxInput _⟩
  have ends := goes.ends
  rw [← Bool.not_eq_true]
  intro usage
  simp only [Ends, usage, if_true] at ends
  exact goes.1.obeys asks ends

/-! ## The pool -/

section

variable (config : Bytes) (unmarshal : Bytes → Option InitReply)

/-- `init` got the pool's configuration and accepted it. -/
def Call.Accepts (call : Call) : Prop :=
  call.fn = "init" ∧ call.args = [.bytes config] ∧
    ∃ answer max, call.result = .ok answer ∧ initAnswer unmarshal answer = .ok max

/-- An instance to hand out: its `init` accepted, and no call of it failed. -/
def Fit (calls : List Call) : Prop :=
  (∃ call ∈ calls, call.Accepts config unmarshal) ∧ ∀ call ∈ calls, ¬ call.Failed

/-- The pool as leases of instances to callers. -/
def Host.leases (s : Host) : Lease.Pool Nat Nat Call where
  pooled := s.pool
  holds := Caller.holds ∘ s.callers
  made := {g | g < s.made}
  log := Guest.calls ∘ s.guests

end

namespace Guest

/-- What holds of every instance, wherever it is. -/
structure Sane (guest : Guest) : Prop where
  calls : ∀ call ∈ guest.calls, call.Goes
  history : guest.calls.flatMap Call.trace <+: guest.history
  silent : Silent guest.history

/-- An instance between calls. -/
structure Idle (guest : Guest) : Prop where
  alive : guest.dead = false
  history : guest.history = guest.calls.flatMap Call.trace
  fine : ∀ call ∈ guest.calls, ¬ call.Failed

/-- An instance in a call. -/
structure Busy (guest : Guest) (run : Run) : Prop where
  dead : guest.dead = run.trace.any (·.request.closes)
  history : guest.history = guest.calls.flatMap Call.trace ++ run.trace
  fine : ∀ call ∈ guest.calls, ¬ call.Failed
  goes : Goes run.fn run.args run.trace run.rest

variable {guest : Guest} {run : Run}

theorem record_calls (guest : Guest) (e : Exchange Request Response) :
    (guest.record e).calls = guest.calls := rfl

theorem Idle.start (idle : guest.Idle) (fn : String) (args : List Value) :
    guest.Busy (.start fn args) where
  dead := idle.alive
  history := by rw [idle.history]; exact (List.append_nil _).symm
  fine := idle.fine
  goes := ⟨.refl _, List.not_mem_nil⟩

theorem Sane.past_clean (sane : guest.Sane) (fine : ∀ call ∈ guest.calls, ¬ call.Failed) :
    ∀ e ∈ guest.calls.flatMap Call.trace, stops e = false := by
  intro e mem
  obtain ⟨call, own, mem⟩ := List.mem_flatMap.mp mem
  exact (sane.calls call own).clean (fine call own) e mem

theorem Sane.close (sane : guest.Sane) : guest.close.Sane where
  calls := sane.calls
  history := sane.history.trans (List.prefix_append _ _)
  silent := sane.silent.snoc fun exports => nomatch exports

section Exchange

variable {r : Request} {next : Response r → Asks (Except Error Bytes)}
  (answers : (r : Request) → Response r)

theorem Busy.exchange_sane (busy : guest.Busy run) (sane : guest.Sane)
    (rest : run.rest = .ask r next) (response : Response r) :
    (guest.record ⟨r, response⟩).Sane where
  calls := sane.calls
  history := sane.history.trans (List.prefix_append _ _)
  silent := by
    refine sane.silent.snoc fun exports e mem => ?_
    have goes := busy.goes
    rw [rest] at goes
    rw [busy.history] at mem
    obtain past | own := List.mem_append.mp mem
    · exact sane.past_clean busy.fine e past
    · exact goes.allowed.2 exports e own

/-- A call under way was let in: the instance was not dead when it looked. -/
theorem Busy.alive (busy : guest.Busy run) (rest : run.rest = .ask r next) :
    guest.dead = false := by
  have goes := busy.goes
  rw [rest] at goes
  rw [busy.dead, List.any_eq_false]
  intro e mem
  rw [goes.allowed.1 e mem]
  exact Bool.false_ne_true

theorem Busy.exchange (busy : guest.Busy run) (rest : run.rest = .ask r next) :
    (guest.record ⟨r, guest.respond answers r⟩).Busy
      { run with
        trace := run.trace ++ [⟨r, guest.respond answers r⟩]
        rest := next (guest.respond answers r) } where
  dead := by
    have := busy.dead
    cases r <;> simp_all [record, Request.closes]
  history := by
    change guest.history ++ _ = guest.calls.flatMap Call.trace ++ _
    rw [busy.history, List.append_assoc]
  fine := busy.fine
  goes := by
    have alive := busy.alive rest
    have goes := busy.goes
    rw [rest] at goes
    refine ⟨.snoc _ goes.1, fun mem => ?_⟩
    obtain mem | last := List.mem_append.mp mem
    · exact goes.2 mem
    · cases r with
      | dead =>
        have looked : true = guest.dead := by simpa [respond] using last
        rw [alive] at looked
        cases looked
      | _ => simp at last

end Exchange

section Ended

variable {result : Except Error Bytes}

theorem Busy.ended_goes (busy : guest.Busy run) (rest : run.rest = .done result) :
    (⟨run.fn, run.args, run.trace, result⟩ : Call).Goes := by
  have goes := busy.goes
  rw [rest] at goes
  exact goes

theorem ended_history (busy : guest.Busy run) :
    (guest.ended run result).history = (guest.ended run result).calls.flatMap Call.trace := by
  simp [ended, busy.history]

theorem Busy.ended_sane (busy : guest.Busy run) (sane : guest.Sane)
    (rest : run.rest = .done result) : (guest.ended run result).Sane where
  calls := List.forall_mem_append.mpr
    ⟨sane.calls, List.forall_mem_singleton.mpr (busy.ended_goes rest)⟩
  history := ⟨[], by rw [List.append_nil, ended_history busy]⟩
  silent := sane.silent

/-- A call that did not fail leaves the instance as it was. -/
theorem Busy.ended_idle (busy : guest.Busy run) (rest : run.rest = .done result)
    (fine : ¬ Fails result) : (guest.ended run result).Idle where
  alive := by
    change guest.dead = false
    rw [busy.dead, List.any_eq_false]
    intro e mem
    rw [closes_eq_false ((busy.ended_goes rest).clean fine e mem)]
    exact Bool.false_ne_true
  history := ended_history busy
  fine := List.forall_mem_append.mpr ⟨busy.fine, List.forall_mem_singleton.mpr fine⟩

/-- A call that failed closed the instance. -/
theorem Busy.ended_dead (busy : guest.Busy run) (rest : run.rest = .done result)
    (fails : Fails result) : (guest.ended run result).dead = true := by
  obtain ⟨before, trace, -, -⟩ := (busy.ended_goes rest).failing fails
  have trace : run.trace = before ++ [⟨.close, ()⟩] := trace
  change guest.dead = true
  rw [busy.dead, trace]
  simp [Request.closes]

end Ended

end Guest

section

variable (config : Bytes) (unmarshal : Bytes → Option InitReply)

/-- What holds where a caller is, of the instance it holds. -/
def Caller.Ok (guests : Nat → Guest) : Caller → Prop
  | .initialising _ g run =>
    run.fn = "init" ∧ run.args = [.bytes config] ∧ (guests g).calls = [] ∧ (guests g).Busy run
  | .calling g run => Fit config unmarshal (guests g).calls ∧ (guests g).Busy run
  | .putting g result =>
    (Fails result → (guests g).dead = true) ∧
    (¬ Fails result → Fit config unmarshal (guests g).calls ∧ (guests g).Idle)
  | _ => True

/-- The invariant of the host. -/
structure Host.Inv (s : Host) : Prop where
  sound : Lease.Sound (Fit config unmarshal) s.leases
  guests : ∀ g, (s.guests g).Sane
  unmade : ∀ g, s.made ≤ g → s.guests g = {}
  pooled : ∀ g ∈ s.pool, (s.guests g).Idle
  callers : ∀ c, (s.callers c).Ok config unmarshal s.guests
  absent : ∀ c, s.entered ≤ c → s.callers c = .absent

end

variable {config : Bytes} {unmarshal : Bytes → Option InitReply} {s s' : Host}

open Function (update)

/-- A caller looks at no instance but its own. -/
theorem Caller.Ok.congr {guests guests' : Nat → Guest} {caller : Caller}
    (ok : caller.Ok config unmarshal guests)
    (same : ∀ g, caller.holds = some g → guests' g = guests g) :
    caller.Ok config unmarshal guests' := by
  cases caller with
  | initialising task g run => simpa only [Caller.Ok, same g rfl] using ok
  | calling g run => simpa only [Caller.Ok, same g rfl] using ok
  | putting g result => simpa only [Caller.Ok, same g rfl] using ok
  | _ => trivial

/-- One caller moves, and of the instances only its own changes. -/
theorem Host.Inv.move (inv : s.Inv config unmarshal) {c g : Nat}
    (held : (s.callers c).holds = some g)
    (moves : Relation.ReflTransGen (Lease.Move (Fit config unmarshal)) s.leases s'.leases)
    (made : s'.made = s.made) (entered : s'.entered = s.entered)
    (others : ∀ c', c' ≠ c → s'.callers c' = s.callers c')
    (same : ∀ g', g' ≠ g → s'.guests g' = s.guests g')
    (pool : ∀ g' ∈ s'.pool, g' ∈ s.pool ∨ (g' = g ∧ (s'.guests g).Idle))
    (sane : (s'.guests g).Sane) (ok : (s'.callers c).Ok config unmarshal s'.guests) :
    s'.Inv config unmarshal where
  sound := Lease.sound_of_moves moves inv.sound
  guests := by
    intro g'
    by_cases own : g' = g
    · exact own ▸ sane
    · exact same g' own ▸ inv.guests g'
  unmade := by
    intro g' large
    have live : g < s.made := inv.sound.held_made (h := c) held
    rw [same g' (by omega)]
    exact inv.unmade g' (by omega)
  pooled := by
    intro g' mem
    obtain mem | ⟨rfl, idle⟩ := pool g' mem
    · have other : g' ≠ g := by
        rintro rfl
        exact inv.sound.apart (h := c) held mem
      exact same g' other ▸ inv.pooled g' mem
    · exact idle
  callers := by
    intro c'
    by_cases own : c' = c
    · exact own ▸ ok
    · rw [others c' own]
      refine (inv.callers c').congr fun g' held' => same g' ?_
      rintro rfl
      exact own (inv.sound.alone held' held)
  absent := by
    intro c' large
    have entered' : c' ≠ c := by
      rintro rfl
      rw [inv.absent c' (by omega)] at held
      cases held
    rw [others c' entered', inv.absent c' (by omega)]

theorem leases_move (s : Host) (c : Nat) (caller : Caller) :
    (s.move c caller).leases =
      { s.leases with holds := update s.leases.holds c caller.holds } := by
  simp only [Host.leases, Host.move, Function.comp_update]

theorem leases_change (s : Host) (g : Nat) (guest : Guest) :
    (s.change g guest).leases = { s.leases with log := update s.leases.log g guest.calls } := by
  simp only [Host.leases, Host.change, Function.comp_update]

theorem leases_move_same {c : Nat} {caller : Caller} (same : caller.holds = (s.callers c).holds) :
    (s.move c caller).leases = s.leases := by
  have : update s.leases.holds c caller.holds = s.leases.holds := by
    rw [same]
    exact Function.update_eq_self c s.leases.holds
  rw [leases_move, this]

theorem leases_change_same {g : Nat} {guest : Guest} (same : guest.calls = (s.guests g).calls) :
    (s.change g guest).leases = s.leases := by
  have : update s.leases.log g guest.calls = s.leases.log := by
    rw [same]
    exact Function.update_eq_self g s.leases.log
  rw [leases_change, this]

/-- One request of a call under way, in `init` or another. -/
theorem Host.Inv.exchange (inv : s.Inv config unmarshal) {c g : Nat} {run : Run}
    {resume : Run → Caller} {answers : (r : Request) → Response r}
    (held : (s.callers c).holds = some g) (keeps : ∀ run, (resume run).holds = some g)
    (busy : (s.guests g).Busy run)
    (ok : ∀ guest run', guest.calls = (s.guests g).calls → run'.fn = run.fn →
      run'.args = run.args → guest.Busy run' →
      (resume run').Ok config unmarshal (update s.guests g guest))
    (step : s.exchange c g run resume answers = some s') : s'.Inv config unmarshal := by
  unfold Host.exchange at step
  split at step
  · cases step
  · next r next rest =>
    obtain rfl := Option.some.inj step
    refine inv.move held ?_ rfl rfl (fun c' other => by simp [Host.move, Host.change, other])
      (fun g' other => by simp [Host.move, Host.change, other]) (fun g' mem => .inl mem) ?_ ?_
    · rw [leases_move_same (by rw [keeps]; exact held.symm),
        leases_change_same (Guest.record_calls _ _)]
    · simpa [Host.move, Host.change] using busy.exchange_sane (inv.guests g) rest _
    · have further := busy.exchange answers rest
      have ok := ok _ _ (Guest.record_calls _ _) (by rfl) (by rfl) further
      simpa [Host.move, Host.change] using ok

theorem Host.Inv.reply (inv : s.Inv config unmarshal) {c : Nat}
    {answers : (r : Request) → Response r}
    (step : s.step config unmarshal (.reply c answers) = some s') : s'.Inv config unmarshal := by
  have ok := inv.callers c
  simp only [Host.step] at step
  split at step
  · next task g run at_ =>
    rw [at_] at ok
    obtain ⟨fn, args, calls, busy⟩ := ok
    refine inv.exchange (by rw [at_]; rfl) (fun _ => rfl) busy ?_ step
    intro guest run' calls' fn' args' busy'
    refine ⟨fn'.trans fn, args'.trans args, ?_, ?_⟩
    · simp [calls', calls]
    · simpa using busy'
  · next g run at_ =>
    rw [at_] at ok
    obtain ⟨fit, busy⟩ := ok
    refine inv.exchange (by rw [at_]; rfl) (fun _ => rfl) busy ?_ step
    intro guest run' calls' fn' args' busy'
    refine ⟨?_, ?_⟩
    · simpa [calls'] using fit
    · simpa using busy'
  · cases step

theorem Fit.snoc {calls : List Call} {call : Call} (fit : Fit config unmarshal calls)
    (fine : ¬ call.Failed) : Fit config unmarshal (calls ++ [call]) := by
  obtain ⟨⟨first, mem, accepts⟩, all⟩ := fit
  exact ⟨⟨first, List.mem_append_left _ mem, accepts⟩,
    List.forall_mem_append.mpr ⟨all, List.forall_mem_singleton.mpr fine⟩⟩

/-- The end of a call is one use of the lease. -/
theorem move_ended {c g : Nat} {run : Run} {result : Except Error Bytes}
    (held : (s.callers c).holds = some g) :
    Lease.Move (Fit config unmarshal) s.leases
      (s.change g ((s.guests g).ended run result)).leases := by
  rw [leases_change]
  exact .use (h := c) held _

theorem Host.Inv.finishCall (inv : s.Inv config unmarshal) {c g : Nat} {run : Run}
    {result : Except Error Bytes} (at_ : s.callers c = .calling g run)
    (rest : run.rest = .done result) :
    ((s.change g ((s.guests g).ended run result)).move c
      (.putting g result)).Inv config unmarshal := by
  have held : (s.callers c).holds = some g := by rw [at_]; rfl
  have ok := inv.callers c
  rw [at_] at ok
  obtain ⟨fit, busy⟩ := ok
  refine inv.move held ?_ rfl rfl (fun c' other => by simp [Host.move, Host.change, other])
    (fun g' other => by simp [Host.move, Host.change, other]) (fun g' mem => .inl mem) ?_ ?_
  · rw [leases_move_same (by exact held.symm)]
    exact .single (move_ended held)
  · simpa [Host.move, Host.change] using busy.ended_sane (inv.guests g) rest
  · simp only [Host.move, Host.change, Function.update_self, Caller.Ok]
    exact ⟨busy.ended_dead rest, fun fine => ⟨fit.snoc fine, busy.ended_idle rest fine⟩⟩

theorem holds_fail (task : Task) (err : Error) : (task.fail err).holds = none := by
  cases task <;> rfl

theorem ok_fail (task : Task) (err : Error) (guests : Nat → Guest) :
    (task.fail err).Ok config unmarshal guests := by
  cases task <;> trivial

/-- `newGuest` gives up on the instance it made. -/
theorem Host.Inv.giveUp (inv : s.Inv config unmarshal) {c g : Nat} {run : Run}
    {result : Except Error Bytes} {task task' : Task} {err : Error} {guest : Guest}
    (at_ : s.callers c = .initialising task g run)
    (calls : guest.calls = ((s.guests g).ended run result).calls) (sane : guest.Sane) :
    (((s.change g ((s.guests g).ended run result)).change g guest).move c
      (task'.fail err)).Inv config unmarshal := by
  have held : (s.callers c).holds = some g := by rw [at_]; rfl
  refine inv.move held ?_ rfl rfl (fun c' other => by simp [Host.move, Host.change, other])
    (fun g' other => by simp [Host.move, Host.change, other]) (fun g' mem => .inl mem) ?_ ?_
  · rw [leases_move, leases_change_same (by simp [Host.change, calls]), holds_fail]
    exact .tail (.single (move_ended held)) .drop
  · simpa [Host.move, Host.change] using sane
  · simpa [Host.move] using ok_fail task' err _

/-- What `newPool` or `Pool.get` does with an instance that is ready. -/
theorem Host.Inv.accept (inv : s.Inv config unmarshal) {c g : Nat} {run : Run} {task : Task}
    {result : Except Error Bytes} (max : UInt32) (at_ : s.callers c = .initialising task g run)
    (fit : Fit config unmarshal ((s.guests g).ended run result).calls)
    (sane : ((s.guests g).ended run result).Sane) (idle : ((s.guests g).ended run result).Idle) :
    let ready := (s.change g ((s.guests g).ended run result)).change g
      { (s.guests g).ended run result with maxInput := max }
    { ready.move c (.opened none) with opened := true, pool := g :: ready.pool }.Inv
        config unmarshal ∧
      ∀ fn args, (ready.move c (.calling g (.start fn args))).Inv config unmarshal := by
  intro ready
  have held : (s.callers c).holds = some g := by rw [at_]; rfl
  have used : Lease.Move (Fit config unmarshal) s.leases ready.leases := by
    rw [leases_change_same (by simp [Host.change])]
    exact move_ended held
  have own : ready.guests g = { (s.guests g).ended run result with maxInput := max } :=
    Function.update_self _ _ _
  have idle : (ready.guests g).Idle := own ▸ ⟨idle.alive, idle.history, idle.fine⟩
  have sane : (ready.guests g).Sane := own ▸ ⟨sane.calls, sane.history, sane.silent⟩
  have fit : Fit config unmarshal (ready.guests g).calls := own ▸ fit
  have still : ∀ g', g' ≠ g → ready.guests g' = s.guests g' := by
    intro g' other
    simp [ready, Host.change, other]
  refine ⟨?_, fun fn args => ?_⟩
  · refine inv.move held ?_ rfl rfl (fun c' other => ?_) still ?_ sane ?_
    · have given : Lease.Move (Fit config unmarshal) ready.leases
          { ready.leases with
            pooled := g ::ₘ ready.leases.pooled
            holds := update ready.leases.holds c none } := .give held fit
      refine .tail (.single used) ?_
      simpa [Host.leases, Host.move, Function.comp_update, Caller.holds] using given
    · simp [ready, Host.move, Host.change, other]
    · intro g' mem
      obtain rfl | mem := List.mem_cons.mp mem
      · exact .inr ⟨rfl, idle⟩
      · exact .inl mem
    · simp [Host.move, Caller.Ok]
  · refine inv.move held ?_ rfl rfl (fun c' other => ?_) still (fun g' mem => .inl mem) sane ?_
    · rw [leases_move_same (by exact held.symm)]
      exact .single used
    · simp [ready, Host.move, Host.change, other]
    · simpa [Host.move, Caller.Ok] using ⟨fit, idle.start fn args⟩

theorem Host.Inv.finishInit (inv : s.Inv config unmarshal) {c g : Nat} {run : Run} {task : Task}
    {result : Except Error Bytes} (at_ : s.callers c = .initialising task g run)
    (rest : run.rest = .done result) :
    ((s.change g ((s.guests g).ended run result)).initialised unmarshal c g task
      result).Inv config unmarshal := by
  have held : (s.callers c).holds = some g := by rw [at_]; rfl
  have ok := inv.callers c
  rw [at_] at ok
  obtain ⟨fn, args, calls, busy⟩ := ok
  have sane := busy.ended_sane (inv.guests g) rest
  have own : (s.change g ((s.guests g).ended run result)).guests g =
      (s.guests g).ended run result := Function.update_self _ _ _
  cases result with
  | error err =>
    have same : s.change g ((s.guests g).ended run (.error err)) =
        (s.change g ((s.guests g).ended run (.error err))).change g
          ((s.guests g).ended run (.error err)) := by
      simp [Host.change, Function.update_idem]
    rw [Host.initialised, same]
    exact inv.giveUp at_ rfl sane
  | ok answer =>
    rw [Host.initialised]
    split
    · next err refused =>
      rw [own]
      exact inv.giveUp at_ rfl sane.close
    · next max accepted =>
      have fine : ¬ Fails (.ok answer) := by rintro ⟨err, ⟨⟩, -⟩
      have idle := busy.ended_idle rest fine
      have fit : Fit config unmarshal ((s.guests g).ended run (.ok answer)).calls := by
        have accepts : Call.Accepts config unmarshal ⟨run.fn, run.args, run.trace, .ok answer⟩ :=
          ⟨fn, args, answer, max, rfl, accepted⟩
        have only : ((s.guests g).ended run (.ok answer)).calls =
            [⟨run.fn, run.args, run.trace, .ok answer⟩] := by
          simp [Guest.ended, calls]
        rw [only]
        exact ⟨⟨_, List.mem_singleton_self _, accepts⟩, List.forall_mem_singleton.mpr fine⟩
      have ready := inv.accept max at_ fit sane idle
      rw [own]
      cases task with
      | newPool => exact ready.1
      | call fn args => exact ready.2 fn args

theorem Host.Inv.finish (inv : s.Inv config unmarshal) {c : Nat}
    (step : s.step config unmarshal (.finish c) = some s') : s'.Inv config unmarshal := by
  simp only [Host.step] at step
  split at step
  · next task g run at_ =>
    split at step
    · next result rest =>
      obtain rfl := Option.some.inj step
      exact inv.finishInit at_ rest
    · cases step
  · next g run at_ =>
    split at step
    · next result rest =>
      obtain rfl := Option.some.inj step
      exact inv.finishCall at_ rest
    · cases step
  · cases step

/-- An instance that is alive is pooled again unless its memory is over the limit. -/
theorem put_pool (s : Host) {g : Nat} (alive : (s.guests g).dead = false) (size : UInt32) :
    (s.put g size).pool = if maxPooledMemory < size then s.pool else g :: s.pool := by
  rw [Host.put, alive, if_neg Bool.false_ne_true]
  split <;> rfl

theorem Host.Inv.put (inv : s.Inv config unmarshal) {c : Nat} {size : UInt32}
    (step : s.step config unmarshal (.put c size) = some s') : s'.Inv config unmarshal := by
  have ok := inv.callers c
  simp only [Host.step] at step
  split at step
  · next g result at_ =>
    obtain rfl := Option.some.inj step
    have held : (s.callers c).holds = some g := by rw [at_]; rfl
    rw [at_] at ok
    unfold Host.put
    split
    · refine inv.move held ?_ rfl rfl (fun c' other => by simp [Host.move, other])
        (fun g' other => rfl) (fun g' mem => .inl mem) (inv.guests g)
        (by simp [Host.move, Caller.Ok])
      rw [leases_move]
      exact .single .drop
    · next alive =>
      split
      · refine inv.move held ?_ rfl rfl (fun c' other => by simp [Host.move, Host.change, other])
          (fun g' other => by simp [Host.move, Host.change, other]) (fun g' mem => .inl mem) ?_
          (by simp [Host.move, Caller.Ok])
        · rw [leases_move, leases_change_same (by rfl)]
          exact .single .drop
        · simpa [Host.move, Host.change] using (inv.guests g).close
      · have fine : ¬ Fails result := fun fails => alive (ok.1 fails)
        obtain ⟨fit, idle⟩ := ok.2 fine
        refine inv.move held ?_ rfl rfl (fun c' other => by simp [Host.move, other])
          (fun g' other => rfl) ?_ (inv.guests g) (by simp [Host.move, Caller.Ok])
        · have given : Lease.Move (Fit config unmarshal) s.leases
              { s.leases with
                pooled := g ::ₘ s.leases.pooled
                holds := update s.leases.holds c none } := .give held fit
          refine .single ?_
          simpa [Host.leases, Host.move, Function.comp_update, Caller.holds] using given
        · intro g' mem
          obtain rfl | mem := List.mem_cons.mp mem
          · exact .inr ⟨rfl, idle⟩
          · exact .inl mem
  · cases step

/-- A caller moves, and no instance changes. -/
theorem Host.Inv.callers_move (inv : s.Inv config unmarshal) {c : Nat} {caller : Caller}
    (ok : caller.Ok config unmarshal s.guests) (c' : Nat) :
    ((s.move c caller).callers c').Ok config unmarshal s.guests := by
  by_cases own : c' = c
  · simpa [Host.move, own] using ok
  · simpa [Host.move, own] using inv.callers c'

theorem Host.Inv.absent_move (inv : s.Inv config unmarshal) {c c' : Nat} {caller : Caller}
    (entered : s.callers c ≠ .absent) (large : s.entered ≤ c') :
    (s.move c caller).callers c' = .absent := by
  have other : c' ≠ c := by
    rintro rfl
    exact entered (inv.absent c' large)
  simpa [Host.move, other] using inv.absent c' large

/-- A caller moves on without an instance. -/
theorem Host.Inv.pass (inv : s.Inv config unmarshal) {c : Nat} {caller : Caller}
    (entered : s.callers c ≠ .absent) (holds : caller.holds = none)
    (ok : caller.Ok config unmarshal s.guests) : (s.move c caller).Inv config unmarshal := by
  have dropped : Lease.Move (Fit config unmarshal) s.leases (s.move c caller).leases := by
    rw [leases_move, holds]
    exact .drop
  exact { inv with
    sound := dropped.sound inv.sound
    callers := inv.callers_move ok
    absent := fun _ => inv.absent_move entered }

theorem Host.Inv.enter (inv : s.Inv config unmarshal) {fn : String} {args : List Value}
    (step : s.step config unmarshal (.enter fn args) = some s') : s'.Inv config unmarshal := by
  simp only [Host.step] at step
  split at step
  · obtain rfl := Option.some.inj step
    have absent := inv.absent s.entered le_rfl
    have same : (s.move s.entered (.getting fn args)).leases = s.leases :=
      leases_move_same (by rw [absent]; rfl)
    refine { inv with sound := ?_, callers := ?_, absent := ?_ }
    · exact same.symm ▸ inv.sound
    · intro c'
      by_cases own : c' = s.entered
      · simp [Host.move, own, Caller.Ok]
      · simpa [Host.move, own] using inv.callers c'
    · intro c' large
      have later : s.entered + 1 ≤ c' := large
      have other : c' ≠ s.entered := by omega
      simpa [Host.move, other] using inv.absent c' (by omega)
  · cases step

theorem Host.Inv.take (inv : s.Inv config unmarshal) {c g : Nat} {fn : String}
    {args : List Value} (entered : s.callers c ≠ .absent) (mem : g ∈ s.pool) :
    { s.move c (.calling g (.start fn args)) with pool := s.pool.erase g }.Inv
      config unmarshal := by
  have taken : Lease.Move (Fit config unmarshal) s.leases
      { s.leases with
        pooled := s.leases.pooled.erase g
        holds := update s.leases.holds c (some g) } := .take mem
  have fit : Fit config unmarshal (s.guests g).calls := inv.sound.fit g mem
  refine { inv with
    sound := ?_
    pooled := fun g' mem' => inv.pooled g' (List.mem_of_mem_erase mem')
    callers := inv.callers_move ⟨fit, (inv.pooled g mem).start fn args⟩
    absent := fun _ => inv.absent_move entered }
  have sound := taken.sound inv.sound
  simpa [Host.leases, Host.move, Function.comp_update, Caller.holds] using sound

theorem Host.Inv.get (inv : s.Inv config unmarshal) {c : Nat} {taken : Option Nat}
    (step : s.step config unmarshal (.get c taken) = some s') : s'.Inv config unmarshal := by
  simp only [Host.step] at step
  split at step
  · next fn args g at_ =>
    split at step
    · next mem =>
      obtain rfl := Option.some.inj step
      exact inv.take (by simp [at_]) mem
    · cases step
  · next fn args at_ =>
    obtain rfl := Option.some.inj step
    exact inv.pass (by simp [at_]) rfl trivial
  · cases step

/-- A new instance, and its `init` begins. -/
theorem Host.Inv.make (inv : s.Inv config unmarshal) {c : Nat} {task : Task}
    (entered : s.callers c ≠ .absent) :
    { s.move c (.initialising task s.made (.start "init" [.bytes config])) with
      made := s.made + 1 }.Inv config unmarshal := by
  have fresh : s.guests s.made = {} := inv.unmade s.made le_rfl
  have idle : (s.guests s.made).Idle := by
    rw [fresh]
    exact ⟨rfl, rfl, by simp⟩
  have made : Lease.Move (Fit config unmarshal) s.leases
      { s.leases with
        holds := update s.leases.holds c (some s.made)
        made := insert s.made s.leases.made } := .make (by simp [Host.leases])
  have busy := idle.start "init" [.bytes config]
  refine { inv with
    sound := ?_
    unmade := fun g large => inv.unmade g (Nat.le_of_succ_le large)
    callers := inv.callers_move ⟨rfl, rfl, by rw [fresh], busy⟩
    absent := fun _ => inv.absent_move entered }
  have sound := made.sound inv.sound
  have grown : insert s.made {g | g < s.made} = {g | g < s.made + 1} := by
    ext g
    exact (Nat.lt_succ_iff_lt_or_eq.trans or_comm).symm
  simpa [Host.leases, Host.move, Function.comp_update, Caller.holds, grown] using sound

theorem Host.Inv.instantiate (inv : s.Inv config unmarshal) {c : Nat} {failure : Option String}
    (step : s.step config unmarshal (.instantiate c failure) = some s') :
    s'.Inv config unmarshal := by
  simp only [Host.step] at step
  split at step
  · next task err at_ =>
    obtain rfl := Option.some.inj step
    exact inv.pass (by simp [at_]) (holds_fail task _) (ok_fail task _ _)
  · next task at_ =>
    obtain rfl := Option.some.inj step
    exact inv.make (by simp [at_])
  · cases step

theorem Host.Inv.collect (inv : s.Inv config unmarshal) {g : Nat}
    (step : s.step config unmarshal (.collect g) = some s') : s'.Inv config unmarshal := by
  simp only [Host.step] at step
  split at step
  · obtain rfl := Option.some.inj step
    refine { inv with
      sound := ?_
      pooled := fun g' mem => inv.pooled g' (List.mem_of_mem_erase mem) }
    have lost : Lease.Move (Fit config unmarshal) s.leases
        { s.leases with pooled := s.leases.pooled.erase g } := .lose
    simpa [Host.leases] using lost.sound inv.sound
  · cases step

/-- Nobody looks at an instance whose finalizer runs. -/
theorem Host.Inv.finalize (inv : s.Inv config unmarshal) {g : Nat}
    (step : s.step config unmarshal (.finalize g) = some s') : s'.Inv config unmarshal := by
  simp only [Host.step] at step
  split at step
  · next guard =>
    obtain ⟨live, ⟨unpooled, unheld⟩, -⟩ := guard
    obtain rfl := Option.some.inj step
    have same : ∀ g', g' ≠ g → (s.change g (s.guests g).close).guests g' = s.guests g' := by
      intro g' other
      simp [Host.change, other]
    have others : ∀ g', g' ∈ s.pool → g' ≠ g := by
      rintro g' mem rfl
      exact unpooled mem
    refine ⟨?_, ?_, ?_, ?_, ?_, inv.absent⟩
    · rw [leases_change_same (by rfl)]
      exact inv.sound
    · intro g'
      by_cases own : g' = g
      · simpa [Host.change, own] using (inv.guests g).close
      · exact same g' own ▸ inv.guests g'
    · intro g' large
      have large : s.made ≤ g' := large
      rw [same g' (by omega)]
      exact inv.unmade g' large
    · intro g' mem
      exact same g' (others g' mem) ▸ inv.pooled g' mem
    · intro c
      refine (inv.callers c).congr fun g' held => same g' ?_
      rintro rfl
      by_cases entered : c < s.entered
      · exact unheld c entered held
      · have held : (s.callers c).holds = some g' := held
        rw [inv.absent c (by omega)] at held
        cases held
  · cases step

theorem inv_init : Host.init.Inv config unmarshal where
  sound := by
    refine Lease.sound_of_empty rfl fun c => ?_
    change (Host.init.callers c).holds = none
    by_cases first : c = 0
    · simp [Host.init, first, Caller.holds]
    · simp [Host.init, first, Caller.holds]
  guests _ := ⟨(fun _ mem => nomatch mem), List.prefix_rfl, .nil⟩
  unmade _ _ := rfl
  pooled _ mem := nomatch mem
  callers c := by
    by_cases first : c = 0
    · simp [Host.init, first, Caller.Ok]
    · simp [Host.init, first, Caller.Ok]
  absent c large := by
    have large : 1 ≤ c := large
    have other : c ≠ 0 := by omega
    simp [Host.init, other]

theorem inv_step (inv : s.Inv config unmarshal) {event : Event}
    (step : s.step config unmarshal event = some s') : s'.Inv config unmarshal := by
  cases event with
  | enter fn args => exact inv.enter step
  | get c taken => exact inv.get step
  | instantiate c failure => exact inv.instantiate step
  | reply c answers => exact inv.reply step
  | finish c => exact inv.finish step
  | put c size => exact inv.put step
  | collect g => exact inv.collect step
  | finalize g => exact inv.finalize step

theorem inv_run (inv : s.Inv config unmarshal) {events : List Event}
    (run : s.run config unmarshal events = some s') : s'.Inv config unmarshal :=
  rel_of_foldlM (R := fun s s' : Host => s.Inv config unmarshal → s'.Inv config unmarshal)
    (fun _ => id) (fun first rest inv => rest (first inv)) (fun step inv => inv_step inv step)
    run inv

/-- The record of an instance only grows. -/
theorem history_change {g : Nat} {guest : Guest}
    (grows : (s.guests g).history <+: guest.history) (g' : Nat) :
    (s.guests g').history <+: ((s.change g guest).guests g').history := by
  by_cases own : g' = g
  · simpa [Host.change, own] using grows
  · simp [Host.change, own]

theorem history_exchange {c g : Nat} {run : Run} {resume : Run → Caller}
    {answers : (r : Request) → Response r}
    (step : s.exchange c g run resume answers = some s') (g' : Nat) :
    (s.guests g').history <+: (s'.guests g').history := by
  unfold Host.exchange at step
  split at step
  · cases step
  · obtain rfl := Option.some.inj step
    exact history_change (List.prefix_append _ _) g'

theorem history_initialised {c g : Nat} {task : Task} {result : Except Error Bytes} (g' : Nat) :
    (s.guests g').history <+:
      ((s.initialised unmarshal c g task result).guests g').history := by
  unfold Host.initialised
  split
  · exact List.prefix_rfl
  · split
    · exact history_change (List.prefix_append _ _) g'
    · cases task with
      | newPool => exact history_change (by exact List.prefix_rfl) g'
      | call fn args => exact history_change (by exact List.prefix_rfl) g'

theorem history_put {g : Nat} {size : UInt32} (g' : Nat) :
    (s.guests g').history <+: ((s.put g size).guests g').history := by
  unfold Host.put
  split
  · exact List.prefix_rfl
  · split
    · exact history_change (List.prefix_append _ _) g'
    · exact List.prefix_rfl

theorem history_step {event : Event} (step : s.step config unmarshal event = some s') (g : Nat) :
    (s.guests g).history <+: (s'.guests g).history := by
  unfold Host.step at step
  cases event with
  | reply c answers =>
    dsimp only at step
    split at step
    · exact history_exchange step g
    · exact history_exchange step g
    · cases step
  | finish c =>
    have grown : ∀ g' run result, (s.guests g).history <+:
        ((s.change g' ((s.guests g').ended run result)).guests g).history :=
      fun _ _ _ => history_change (by exact List.prefix_rfl) g
    dsimp only at step
    split at step
    · split at step
      · obtain rfl := Option.some.inj step
        exact (grown _ _ _).trans (history_initialised g)
      · cases step
    · split at step
      · obtain rfl := Option.some.inj step
        exact grown _ _ _
      · cases step
    · cases step
  | put c size =>
    dsimp only at step
    split at step
    · obtain rfl := Option.some.inj step
      exact history_put g
    · cases step
  | finalize g' =>
    dsimp only at step
    split at step
    · obtain rfl := Option.some.inj step
      exact history_change (List.prefix_append _ _) g
    · cases step
  | _ =>
    -- No other event asks an instance anything.
    dsimp only at step
    repeat' split at step
    all_goals first | (obtain rfl := Option.some.inj step; exact List.prefix_rfl) | cases step

theorem history_run {events : List Event} (run : s.run config unmarshal events = some s')
    (g : Nat) : (s.guests g).history <+: (s'.guests g).history :=
  rel_of_foldlM
    (R := fun s s' : Host => ∀ g, (s.guests g).history <+: (s'.guests g).history)
    (fun _ _ => List.prefix_rfl) (fun first rest g => (first g).trans (rest g))
    (fun step => history_step step) run g

end Go

end ReceiptVerifier
