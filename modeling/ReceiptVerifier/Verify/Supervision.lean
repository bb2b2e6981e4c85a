import ReceiptVerifier.JavaWasm.ServerProcess
import ReceiptVerifier.Lib.Lease

/-!
# The supervised server

Over every run of the calls that take the lock, and with children dying between any two steps:
starts are bounded in every minute (`Window`), no child is left behind, and a target belongs to the
child whose handshake completed last.
-/

namespace ReceiptVerifier.JavaWasm.ServerProcess

namespace Call

/-- In `start`, after the attempt was recorded. -/
def started : Call → Bool
  | .verifying => true
  | .mounting => true
  | .spawning => true
  | .handshaking _ => true
  | .refusing _ => true
  | _ => false

/-- In `start`. -/
def starting (c : Call) : Bool := c == .timing || c.started

/-- A child that is no longer, or not yet, the process. -/
def pending : Call → Option Nat
  | .handshaking child => some child
  | .refusing child => some child
  | .ending child => some child
  | _ => none

end Call

/-! ## What a step can do -/

def State.setLine (s : State) (child : Nat) (line : Option (List Char)) : State :=
  { s with children := s.children.modify child fun c => { c with line := line } }

/-- The children once the process is destroyed. -/
def State.replacing (s : State) : List Child :=
  match s.process with
  | some child => (s.destroyForcibly child).children
  | none => s.children

inductive Steps (s : State) (e : Event) : State → Prop
  /-- A call that changes no field ends at once, or `recover` waits. -/
  | pass (free : s.unlocked = true) (call : Call)
      (next : (∃ message, call = .threw message) ∨ call = .done ∨ call = .waiting) :
      Steps s e { s with call := call }
  | found (free : s.unlocked = true) {child : Nat} {target : Target}
      (process : s.process = some child) (own : s.target = some target)
      (alive : s.isAlive child = true) : Steps s e { s with call := .returned target }
  | begin (free : s.unlocked = true) (running : s.stopped = false) :
    Steps s e { s with call := .timing }
  | stop (free : s.unlocked = true) :
      Steps s e { s with
        stopped := true, process := none, target := none,
        call := match s.process with
          | some child => .ending child
          | none => .done }
  | capped (call : s.call = .timing) {now : Int} (le : s.nanoTime ≤ now)
    (because message : String) :
      Steps s e { s with
        nanoTime := now, recentStarts := Window.prune minuteNanos now s.recentStarts,
        stopped := true, stoppedBecause := some because, call := .threw message }
  | attempt (call : s.call = .timing) {now : Int} (le : s.nanoTime ≤ now)
      (room : (Window.prune minuteNanos now s.recentStarts).length < maxStartsPerMinute)
      (restarts : Nat) :
      Steps s e { s with
        nanoTime := now, recentStarts := Window.prune minuteNanos now s.recentStarts ++ [now],
        attempts := s.attempts ++ [now], call := .verifying, children := s.replacing,
        restarts := restarts }
  | check (call : s.call.started = true) (bare : s.call.pending = none) (next : Call)
      (goes : next = .mounting ∨ next = .spawning ∨ ∃ message, next = .threw message) :
      Steps s e { s with call := next }
  | spawn (call : s.call = .spawning) (token : String) :
      Steps s e { s with
        children := s.children ++ [{ token := token }], call := .handshaking s.children.length }
  | broken {child : Nat} (call : s.call.pending = some child) (own : s.call.started = true)
      (message : String) : Steps s e (s.reject child message)
  | report {child : Nat} (call : s.call = .handshaking child) (line : Option (List Char)) :
      Steps s e { s.setLine child line with call := .refusing child }
  | misreport {child : Nat} (call : s.call = .handshaking child) (line : Option (List Char))
      (message : String) : Steps s e ((s.setLine child line).reject child message)
  | complete {child : Nat} (call : s.call = .handshaking child) {line : Option (List Char)}
      {own : Child} (at_ : s.children[child]? = some own) {port : Int}
      (port_ : portOf line = some port) :
      Steps s e ((s.setLine child line).complete child own.token port)
  | refuse {child : Nat} (call : s.call = .refusing child) (exited : s.isAlive child = false)
      (message : String) : Steps s e { s with call := .threw message }
  | waited {child : Nat} (call : s.call = .waiting) (process : s.process = some child)
      (target : Option Target) (kept : target = s.target ∨ target = none) :
      Steps s e { s with target := target, call := .done }
  | exited {child : Nat} (call : s.call = .ending child) (exited : s.isAlive child = false) :
      Steps s e { s with call := .done }
  | ended {child : Nat} (call : s.call = .ending child) :
      Steps s e { s.destroyForcibly child with call := .done }
  | dies (child : Nat) (own : e = .dies child) :
      Steps s e { s with children := s.children.modify child fun c => { c with alive := false } }

theorem steps_of_firstLine {s s' : State} {config : Config}
    {answer : Except String (Option (List Char))}
    (h : s.step config (.firstLine answer) = some s') : Steps s (.firstLine answer) s' := by
  simp only [State.step] at h
  split at h
  · next child call =>
    cases answer with
    | error e =>
      cases h
      exact .broken (by rw [call]; rfl) (by rw [call]; rfl) _
    | ok line =>
      simp only at h
      split at h
      · cases h
        exact .report call line
      · next rest prefix_ =>
        split at h
        · next port own parsed at_ =>
          cases h
          rw [List.getElem?_modify_eq] at at_
          cases before : s.children[child]? with
          | none =>
            rw [before] at at_
            cases at_
          | some old =>
            rw [before] at at_
            cases at_
            have named : portOf line = some port := by rw [portOf, prefix_]; exact parsed
            exact Steps.complete call before named
        · cases h
          exact .misreport call line _
        · cases h
  · cases h

theorem steps_of_step {s s' : State} {config : Config} {e : Event}
    (h : s.step config e = some s') : Steps s e s' := by
  cases e with
  | target =>
    simp only [State.step] at h
    split at h
    · cases h
    · next free =>
      have free : s.unlocked = true := by simpa using free
      split at h
      · cases h
        exact .pass free _ (.inl ⟨_, rfl⟩)
      · next running =>
        have running : s.stopped = false := by simpa using running
        split at h
        · next child target process own =>
          cases h
          split
          · next alive => exact .found free process own alive
          · exact .begin free running
        · cases h
          exact .begin free running
  | recover failedGeneration =>
    simp only [State.step] at h
    split at h
    · cases h
    · next free =>
      have free : s.unlocked = true := by simpa using free
      split at h <;> cases h
      · exact .pass free _ (.inr (.inl rfl))
      · exact .pass free _ (.inr (.inr rfl))
  | stop =>
    simp only [State.step] at h
    split at h
    · cases h
    · next free =>
      cases h
      exact .stop (by simpa using free)
  | nanoTime now =>
    simp only [State.step] at h
    split at h
    · next call =>
      split at h
      · next le =>
        cases h
        simp only [State.attempt]
        split
        · exact .capped call le _ _
        · next room =>
          have room := Nat.lt_of_not_le room
          have step : ∀ restarts, Steps s (.nanoTime now) _ := .attempt call le room
          unfold State.replacing at step
          cases process : s.process with
          | some child =>
            rw [process] at step
            exact step (s.restarts + 1)
          | none =>
            rw [process] at step
            exact step s.restarts
      · cases h
    · cases h
  | verifyBeforeStart failure =>
    simp only [State.step] at h
    split at h
    · next call =>
      split at h <;> cases h
      · exact .check (by rw [call]; rfl) (by rw [call]; rfl) _ (.inr (.inr ⟨_, rfl⟩))
      · exact .check (by rw [call]; rfl) (by rw [call]; rfl) _ (.inl rfl)
    · cases h
  | noexec advice =>
    simp only [State.step] at h
    split at h
    · next call =>
      split at h <;> cases h
      · exact .check (by rw [call]; rfl) (by rw [call]; rfl) _ (.inr (.inr ⟨_, rfl⟩))
      · exact .check (by rw [call]; rfl) (by rw [call]; rfl) _ (.inr (.inl rfl))
    · cases h
  | spawn token failure =>
    simp only [State.step] at h
    split at h
    · next call =>
      split at h <;> cases h
      · exact .check (by rw [call]; rfl) (by rw [call]; rfl) _ (.inr (.inr ⟨_, rfl⟩))
      · exact .spawn call token
    · cases h
  | firstLine answer => exact steps_of_firstLine h
  | rootsRefusal answer =>
    simp only [State.step] at h
    split at h
    · next child call =>
      split at h
      · split at h
        · cases h
        · next exited =>
          cases h
          exact .refuse call (by simpa using exited) _
      · cases h
        exact .broken (by rw [call]; rfl) (by rw [call]; rfl) _
    · cases h
  | waited =>
    simp only [State.step] at h
    split at h
    · next child call process =>
      cases h
      refine .waited call process _ ?_
      split
      · exact .inl rfl
      · exact .inr rfl
    · cases h
  | ended exited =>
    simp only [State.step] at h
    split at h
    · next child call =>
      split at h
      · split at h
        · cases h
        · next exited =>
          cases h
          exact .exited call (by simpa using exited)
      · cases h
        exact .ended call
    · cases h
  | dies child =>
    cases h
    exact .dies child rfl

/-! ## What becomes of a child -/

/-- A child that exited or was destroyed. -/
def Over (children : List Child) (c : Nat) : Prop :=
  ∀ child, children[c]? = some child → child.alive = false ∨ child.destroyed = true

section

variable {children : List Child} {c i : Nat}

theorem Over.modify (done : Over children c) {f : Child → Child}
    (keeps : ∀ child : Child, child.alive = false ∨ child.destroyed = true →
      (f child).alive = false ∨ (f child).destroyed = true) : Over (children.modify i f) c := by
  intro child at_
  rw [List.getElem?_modify] at at_
  obtain ⟨old, before, rfl⟩ := Option.map_eq_some_iff.mp at_
  split
  · exact keeps old (done old before)
  · exact done old before

theorem Over.append (done : Over children c) (inside : c < children.length) (new : List Child) :
    Over (children ++ new) c := by
  intro child at_
  rw [List.getElem?_append_left inside] at at_
  exact done child at_

theorem over_destroyed :
    Over (children.modify c fun child => { child with destroyed := true }) c := by
  intro child at_
  rw [List.getElem?_modify_eq] at at_
  obtain ⟨old, -, rfl⟩ := Option.map_eq_some_iff.mp at_
  exact .inr rfl

theorem over_of_isAlive {s : State} (exited : s.isAlive c = false) : Over s.children c := by
  intro child at_
  rw [State.isAlive, at_] at exited
  exact .inl exited

end

/-- No child is left behind: each is the process, is in the hands of the call, or is done; and the
process is done once a start was attempted in its place. -/
structure Kept (s : State) : Prop where
  children : ∀ c < s.children.length,
    s.process = some c ∨ s.call.pending = some c ∨ Over s.children c
  replaced : s.call.started = true → ∀ p, s.process = some p → Over s.children p
  inside : ∀ p, s.process = some p → p < s.children.length
  stopped : s.stopped = true → s.call.starting = false

section

variable {s s' : State} {e : Event}

theorem pending_of_unlocked (free : s.unlocked = true) : s.call.pending = none := by
  unfold State.unlocked at free
  cases call : s.call <;> rw [call] at free <;> first | rfl | cases free

theorem starting_of_started {call : Call} (started : call.started = true) :
    call.starting = true := by
  rw [Call.starting, started, Bool.or_true]

/-- Only the point of the call changes, and no child is dropped from its hands. -/
theorem Kept.goOn (kept : Kept s) (call : Call)
    (pending : ∀ c, s.call.pending = some c → call.pending = some c ∨ Over s.children c)
    (started : call.started = true → s.call.started = true)
    (starting : s.stopped = true → s.call.starting = false → call.starting = false) :
    Kept { s with call := call } where
  children c inside := by
    rcases kept.children c inside with process | own | done
    · exact .inl process
    · exact .inr (pending c own)
    · exact .inr (.inr done)
  replaced now := kept.replaced (started now)
  inside := kept.inside
  stopped stop := starting stop (kept.stopped stop)

/-- A child changes, and not for the better. -/
theorem Kept.modify (kept : Kept s) (i : Nat) {f : Child → Child}
    (keeps : ∀ child : Child, child.alive = false ∨ child.destroyed = true →
      (f child).alive = false ∨ (f child).destroyed = true) :
    Kept { s with children := s.children.modify i f } where
  children c inside := by
    dsimp only at inside
    rw [List.length_modify] at inside
    rcases kept.children c inside with process | own | done
    · exact .inl process
    · exact .inr (.inl own)
    · exact .inr (.inr (done.modify keeps))
  replaced now p process := (kept.replaced now p process).modify keeps
  inside p process := by
    dsimp only
    rw [List.length_modify]
    exact kept.inside p process
  stopped := kept.stopped

theorem Kept.destroyForcibly (kept : Kept s) (child : Nat) : Kept (s.destroyForcibly child) :=
  kept.modify child fun _ _ => .inr rfl

theorem Kept.setLine (kept : Kept s) (child : Nat) (line : Option (List Char)) :
    Kept (s.setLine child line) :=
  kept.modify child fun _ done => done

theorem Kept.reject (kept : Kept s) {child : Nat} (own : s.call.pending = some child)
    (message : String) : Kept (s.reject child message) := by
  refine (kept.destroyForcibly child).goOn (.threw message) ?_ nofun fun _ _ => rfl
  intro c pending
  have same : some child = some c := own.symm.trans pending
  obtain rfl := Option.some.inj same
  exact .inr over_destroyed

theorem Kept.running (kept : Kept s) (starting : s.call.starting = true) : s.stopped = false := by
  cases stop : s.stopped with
  | false => rfl
  | true =>
    rw [kept.stopped stop] at starting
    cases starting

theorem length_replacing (s : State) : s.replacing.length = s.children.length := by
  unfold State.replacing
  split
  · exact List.length_modify _ _ _
  · rfl

theorem over_replacing {p : Nat} (process : s.process = some p) : Over s.replacing p := by
  unfold State.replacing
  rw [process]
  exact over_destroyed

theorem Over.replacing {c : Nat} (done : Over s.children c) : Over s.replacing c := by
  unfold State.replacing
  split
  · exact done.modify fun _ _ => .inr rfl
  · exact done

theorem kept_step (step : Steps s e s') (kept : Kept s) : Kept s' := by
  cases step with
  | pass free call next =>
    refine kept.goOn call (fun c own => ?_) ?_ ?_
    · rw [pending_of_unlocked free] at own
      cases own
    · rcases next with ⟨_, rfl⟩ | rfl | rfl <;> rintro ⟨⟩
    · rcases next with ⟨_, rfl⟩ | rfl | rfl <;> exact fun _ _ => rfl
  | found free =>
    refine kept.goOn _ (fun c own => ?_) nofun fun _ _ => rfl
    rw [pending_of_unlocked free] at own
    cases own
  | begin free running =>
    refine kept.goOn _ (fun c own => ?_) nofun fun stop => ?_
    · rw [pending_of_unlocked free] at own
      cases own
    · rw [running] at stop
      cases stop
  | stop free =>
    refine ⟨fun c inside => ?_, fun now => ?_, nofun, fun _ => ?_⟩
    · rcases kept.children c inside with process | own | done
      · right; left
        dsimp only
        rw [process]
        rfl
      · rw [pending_of_unlocked free] at own
        cases own
      · exact .inr (.inr done)
    · dsimp only at now
      split at now <;> cases now
    · dsimp only
      split <;> rfl
  | capped call le because message =>
    have threw := kept.goOn (.threw message) (fun c own => by rw [call] at own; cases own) nofun
      fun _ _ => rfl
    exact ⟨threw.children, nofun, threw.inside, fun _ => rfl⟩
  | attempt call le room restarts =>
    refine ⟨fun c inside => ?_, fun _ p process => over_replacing process, fun p process => ?_,
      fun stop => ?_⟩
    · dsimp only at inside
      rw [length_replacing] at inside
      rcases kept.children c inside with process | own | done
      · exact .inl process
      · rw [call] at own
        cases own
      · exact .inr (.inr done.replacing)
    · dsimp only
      rw [length_replacing]
      exact kept.inside p process
    · rw [kept.running (by rw [call]; rfl)] at stop
      cases stop
  | check call bare next goes =>
    refine kept.goOn next (fun c own => ?_) (fun _ => call) fun _ idle => ?_
    · rw [bare] at own
      cases own
    · rw [starting_of_started call] at idle
      cases idle
  | spawn call token =>
    refine ⟨fun c inside => ?_, fun _ p own => ?_, fun p own => ?_, fun stop => ?_⟩
    · dsimp only at inside
      rw [List.length_append, List.length_singleton] at inside
      by_cases old : c < s.children.length
      · rcases kept.children c old with process | own | done
        · exact .inl process
        · rw [call] at own
          cases own
        · exact .inr (.inr (done.append old _))
      · have new : c = s.children.length := by omega
        exact .inr (.inl (by rw [new]; rfl))
    · exact (kept.replaced (by rw [call]; rfl) p own).append (kept.inside p own) _
    · have := kept.inside p own
      dsimp only
      rw [List.length_append]
      omega
    · have idle := kept.stopped stop
      rw [call] at idle
      cases idle
  | broken call own message => exact kept.reject call message
  | report call line =>
    refine (kept.setLine _ line).goOn _ (fun c own => ?_) (fun _ => ?_) fun _ idle => ?_
    · have own : s.call.pending = some c := own
      rw [call] at own
      exact .inl own
    · change s.call.started = true
      rw [call]
      rfl
    · have idle : s.call.starting = false := idle
      rw [call] at idle
      cases idle
  | misreport call line message =>
    exact (kept.setLine _ line).reject (by change s.call.pending = _; rw [call]; rfl) message
  | @complete child call line own at_ port port_ =>
    have set := kept.setLine child line
    refine ⟨fun c inside => ?_, nofun, fun p process => ?_, fun _ => rfl⟩
    · rcases set.children c inside with process | pending | done
      · right; right
        exact set.replaced (by change s.call.started = true; rw [call]; rfl) c process
      · have pending : s.call.pending = some c := pending
        rw [call] at pending
        exact .inl pending
      · exact .inr (.inr done)
    · obtain rfl := Option.some.inj process
      have inside : child < s.children.length := (List.getElem?_eq_some_iff.mp at_).1
      simpa [State.complete, State.setLine] using inside
  | refuse call exited message =>
    refine kept.goOn _ (fun c own => ?_) nofun fun _ _ => rfl
    rw [call] at own
    obtain rfl := Option.some.inj own
    exact .inr (over_of_isAlive exited)
  | waited call process target _ =>
    have done := kept.goOn .done (fun c own => by rw [call] at own; cases own) nofun fun _ _ => rfl
    exact ⟨done.children, nofun, done.inside, fun _ => rfl⟩
  | exited call exited =>
    refine kept.goOn _ (fun c own => ?_) nofun fun _ _ => rfl
    rw [call] at own
    obtain rfl := Option.some.inj own
    exact .inr (over_of_isAlive exited)
  | @ended child call =>
    refine (kept.destroyForcibly child).goOn _ (fun c own => ?_) nofun fun _ _ => rfl
    have own : s.call.pending = some c := own
    rw [call] at own
    obtain rfl := Option.some.inj own
    exact .inr over_destroyed
  | dies child own => exact kept.modify child fun _ _ => .inl rfl

end

/-! ## How often -/

/-- What the kept times say of all attempts. -/
def Paced (s : State) : Prop :=
  Window.Bounded minuteNanos maxStartsPerMinute s.nanoTime s.attempts s.recentStarts

theorem paced_step {s s' : State} {e : Event} (step : Steps s e s') (paced : Paced s) :
    Paced s' := by
  cases step with
  | capped call le => exact paced.prune le
  | attempt call le room => exact (paced.prune le).push room
  | _ => exact paced

/-! ## Whose target -/

/-- The target names the child's port and token. -/
def Reports (child : Child) (target : Target) : Prop :=
  ∃ port, portOf child.line = some port ∧
    target = ⟨"127.0.0.1", port, false, "", some child.token, target.generation⟩

/-- The process and the target are of the handshake that completed last. -/
structure Owned (s : State) : Prop where
  process : ∀ p, s.process = some p → ∃ t, s.completed.getLast? = some (p, t)
  target : ∀ t, s.target = some t →
    ∃ p, s.process = some p ∧ s.completed.getLast? = some (p, t)
  reported : ∀ c t, (c, t) ∈ s.completed → ∃ child, s.children[c]? = some child ∧ Reports child t
  latest : ∀ c t, (c, t) ∈ s.completed → t.generation ≤ s.generation
  increasing : s.completed.Pairwise fun a b => a.2.generation < b.2.generation
  fresh : ∀ c, s.call = .handshaking c → ∀ t, (c, t) ∉ s.completed

section

variable {s s' : State} {e : Event}

theorem Owned.goOn (owned : Owned s) (call : Call) (next : ∀ c, call ≠ .handshaking c) :
    Owned { s with call := call } :=
  { owned with fresh := fun c now => absurd now (next c) }

/-- Children change, but not the token or the line of one that is reported. -/
theorem Owned.change (owned : Owned s) {children : List Child}
    (keeps : ∀ c t, (c, t) ∈ s.completed → ∀ child, s.children[c]? = some child →
      ∃ child', children[c]? = some child' ∧ child'.token = child.token ∧
        child'.line = child.line) : Owned { s with children := children } := by
  refine { owned with reported := fun c t mem => ?_ }
  obtain ⟨child, at_, port, named, own⟩ := owned.reported c t mem
  obtain ⟨child', at', token, line⟩ := keeps c t mem child at_
  exact ⟨child', at', port, by rw [line]; exact named, by rw [token]; exact own⟩

theorem getElem?_modify_keeps {children : List Child} {c i : Nat} {child : Child}
    (at_ : children[c]? = some child) {f : Child → Child} (other : i ≠ c ∨
      (∀ child : Child, (f child).token = child.token ∧ (f child).line = child.line)) :
    ∃ child', (children.modify i f)[c]? = some child' ∧ child'.token = child.token ∧
      child'.line = child.line := by
  rw [List.getElem?_modify, at_]
  refine ⟨_, rfl, ?_⟩
  dsimp only
  split
  · next same =>
    rcases other with differ | keeps
    · exact absurd same differ
    · exact keeps child
  · exact ⟨rfl, rfl⟩

theorem Owned.destroyForcibly (owned : Owned s) (child : Nat) : Owned (s.destroyForcibly child) :=
  owned.change fun _ _ _ _ at_ => getElem?_modify_keeps at_ (.inr fun _ => ⟨rfl, rfl⟩)

theorem Owned.reject (owned : Owned s) (child : Nat) (message : String) :
    Owned (s.reject child message) :=
  (owned.destroyForcibly child).goOn _ nofun

/-- The line is set on a child that has reported nothing yet. -/
theorem Owned.setLine (owned : Owned s) {child : Nat} (call : s.call = .handshaking child)
    (line : Option (List Char)) : Owned (s.setLine child line) := by
  refine owned.change fun c t mem _ at_ => getElem?_modify_keeps at_ (.inl ?_)
  rintro rfl
  exact owned.fresh _ call t mem

theorem owned_step (step : Steps s e s') (owned : Owned s) : Owned s' := by
  cases step with
  | pass free call next =>
    refine owned.goOn call fun c now => ?_
    rw [now] at next
    obtain ⟨_, same⟩ | same | same := next <;> cases same
  | found => exact owned.goOn _ nofun
  | begin => exact owned.goOn _ nofun
  | stop free =>
    refine { owned with process := nofun, target := nofun, fresh := fun c now => ?_ }
    dsimp only at now
    split at now <;> cases now
  | capped => exact { owned with fresh := nofun }
  | attempt call le room restarts =>
    have replaced : Owned { s with children := s.replacing } := by
      refine owned.change fun c t mem child at_ => ?_
      unfold State.replacing
      split
      · exact getElem?_modify_keeps at_ (.inr fun _ => ⟨rfl, rfl⟩)
      · exact ⟨child, at_, rfl, rfl⟩
    exact { replaced with fresh := nofun }
  | check call bare next goes =>
    refine owned.goOn next fun c now => ?_
    rw [now] at goes
    obtain same | same | ⟨_, same⟩ := goes <;> cases same
  | spawn call token =>
    have more : Owned { s with children := s.children ++ [{ token := token }] } := by
      refine owned.change fun c t mem child at_ => ⟨child, ?_, rfl, rfl⟩
      rw [List.getElem?_append_left (List.getElem?_eq_some_iff.mp at_).1]
      exact at_
    refine { more with fresh := fun c now t mem => ?_ }
    obtain rfl := Call.handshaking.inj now
    obtain ⟨child, at_, -⟩ := owned.reported _ t mem
    exact absurd (List.getElem?_eq_some_iff.mp at_).1 (Nat.lt_irrefl _)
  | broken call own message => exact owned.reject _ message
  | report call line => exact (owned.setLine call line).goOn _ nofun
  | misreport call line message => exact (owned.setLine call line).reject _ message
  | @complete child call line own at_ port port_ =>
    have set := owned.setLine call line
    refine ⟨fun p process => ?_, fun t target => ?_, fun c t mem => ?_, fun c t mem => ?_, ?_,
      nofun⟩
    · obtain rfl := Option.some.inj process
      exact ⟨_, List.getLast?_concat⟩
    · obtain rfl := Option.some.inj target
      exact ⟨child, rfl, List.getLast?_concat⟩
    · rcases List.mem_append.mp mem with old | new
      · exact set.reported c t old
      · obtain ⟨rfl, rfl⟩ := Prod.mk.inj (List.mem_singleton.mp new)
        refine ⟨{ own with line := line }, ?_, port, port_, rfl⟩
        simp [State.complete, State.setLine, List.getElem?_modify_eq, at_]
    · rcases List.mem_append.mp mem with old | new
      · exact Nat.le_succ_of_le (owned.latest c t old)
      · obtain ⟨rfl, rfl⟩ := Prod.mk.inj (List.mem_singleton.mp new)
        exact Nat.le_refl _
    · refine List.pairwise_append.mpr ⟨owned.increasing, List.pairwise_singleton _ _, ?_⟩
      rintro ⟨c, t⟩ old _ new
      obtain rfl := List.mem_singleton.mp new
      exact Nat.lt_succ_of_le (owned.latest c t old)
  | refuse => exact owned.goOn _ nofun
  | waited call process target kept =>
    refine { owned with target := fun t own => ?_, fresh := nofun }
    rcases kept with rfl | rfl
    · exact owned.target t own
    · cases own
  | exited => exact owned.goOn _ nofun
  | ended call => exact (owned.destroyForcibly _).goOn _ nofun
  | dies child own =>
    exact owned.change fun _ _ _ _ at_ => getElem?_modify_keeps at_ (.inr fun _ => ⟨rfl, rfl⟩)

end

/-! ## Over a whole run -/

namespace Call

/-- An attempt that has made no child yet. -/
def unspent : Call → Nat
  | .verifying => 1
  | .mounting => 1
  | .spawning => 1
  | _ => 0

theorem unspent_of_bare {call : Call} (started : call.started = true)
    (bare : call.pending = none) : call.unspent = 1 := by
  cases call with
  | verifying | mounting | spawning => rfl
  | handshaking | refusing => cases bare
  | _ => cases started

end Call

/-- Every child is of an attempt of its own. -/
def Attempted (s : State) : Prop := s.children.length + s.call.unspent ≤ s.attempts.length

section

variable {s s' : State} {e : Event}

theorem attempted_step (step : Steps s e s') (attempted : Attempted s) : Attempted s' := by
  unfold Attempted at attempted ⊢
  have already : s.children.length ≤ s.attempts.length := Nat.le_of_add_right_le attempted
  cases step with
  | pass free call next =>
    obtain ⟨_, rfl⟩ | rfl | rfl := next <;> exact already
  | stop free =>
    dsimp only
    split <;> exact already
  | attempt call le room restarts =>
    dsimp only [Call.unspent]
    rw [length_replacing, List.length_append, List.length_singleton]
    omega
  | check call bare next goes =>
    rw [Call.unspent_of_bare call bare] at attempted
    obtain rfl | rfl | ⟨_, rfl⟩ := goes
    · exact attempted
    · exact attempted
    · exact already
  | spawn call token =>
    rw [call] at attempted
    dsimp only [Call.unspent] at attempted ⊢
    rw [List.length_append, List.length_singleton]
    exact attempted
  | broken call own message =>
    simpa [State.reject, State.destroyForcibly, Call.unspent] using already
  | report call line => simpa [State.setLine, Call.unspent] using already
  | misreport call line message =>
    simpa [State.setLine, State.reject, State.destroyForcibly, Call.unspent] using already
  | complete call at_ port_ => simpa [State.setLine, State.complete, Call.unspent] using already
  | ended call => simpa [State.destroyForcibly, Call.unspent] using already
  | dies child own => simpa using attempted
  | _ => exact already

end

/-- All that every step keeps. -/
structure Inv (s : State) : Prop where
  paced : Paced s
  kept : Kept s
  owned : Owned s
  attempted : Attempted s

theorem inv_step {config : Config} {s s' : State} {e : Event} (h : s.step config e = some s')
    (inv : Inv s) : Inv s' :=
  have step := steps_of_step h
  ⟨paced_step step inv.paced, kept_step step inv.kept, owned_step step inv.owned,
    attempted_step step inv.attempted⟩

theorem inv_init (nanoTime : Int) : Inv { nanoTime := nanoTime } where
  paced := Window.bounded_nil
  kept := ⟨nofun, nofun, nofun, nofun⟩
  owned := ⟨nofun, nofun, nofun, nofun, .nil, nofun⟩
  attempted := Nat.le_refl 0

section

variable {config : Config} {s s' : State}

end

end ReceiptVerifier.JavaWasm.ServerProcess
