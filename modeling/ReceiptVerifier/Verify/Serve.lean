import ReceiptVerifier.Lib.Lease
import ReceiptVerifier.Lib.Tally
import ReceiptVerifier.Server.Serve
import ReceiptVerifier.Verify.Http

/-!
# Serving

Over every order of the steps of the accepting loop, the connections and the calls: no permit is
lost or made, so connections, bodies in memory and running calls stay within their bounds; every
reply is the one `run` gives to that request alone; and the server's own steps run out, with every
request answered, whatever the clients do not do.
-/

namespace ReceiptVerifier

namespace Server

namespace Serve

open Openssl

variable {m : Machine} {s s' : State}

/-! ## The body, frame by frame -/

theorem readFrames_cons (keep : Nat) (announcedBig : Bool) (frame : Except String Frame)
    (frames : List (Except String Frame)) (buf : Bytes) (total : Nat) :
    readFrames keep announcedBig (frame :: frames) buf total =
      match readFrame keep announcedBig frame buf total with
      | .ok (.inl (buf, total)) => readFrames keep announcedBig frames buf total
      | .ok (.inr body) => .ok body
      | .error err => .error err := by
  cases frame with
  | error err => rfl
  | ok frame =>
    cases frame with
    | trailers => rfl
    | data data =>
      rw [readFrames, readFrame]
      dsimp only
      split
      · rfl
      · split <;> rfl

/-- What was read of a body, and that the rest is read from there. -/
structure Reads (keep : Nat) (head : Head) (frames : List (Except String Frame)) (buf : Bytes)
    (total : Nat) : Prop where
  soFar : ∃ consumed, ReadSoFar keep consumed buf total
  rest : ∀ rest, readCapped head.contentLength (frames ++ rest) keep =
    readFrames keep head.announcedBig rest buf total

variable {keep : Nat} {head : Head} {frames : List (Except String Frame)} {buf : Bytes}
    {total : Nat}

theorem Reads.length_le (reads : Reads keep head frames buf total) : buf.length ≤ keep := by
  obtain ⟨consumed, soFar⟩ := reads.soFar
  rw [soFar.buf_eq, List.length_take]
  exact Nat.min_le_left ..

theorem reads_nil (keep : Nat) (head : Head) : Reads keep head [] [] 0 where
  soFar := ⟨[], by simp, by simp⟩
  rest _ := rfl

/-- No turn of the loop runs below zero. -/
theorem Reads.readFrame (reads : Reads keep head frames buf total) (frame : Except String Frame) :
    match Serve.readFrame keep head.announcedBig frame buf total with
    | .ok (.inl (buf, total)) => Reads keep head (frames ++ [frame]) buf total
    | .ok (.inr body) => body.bytes.length ≤ keep ∧
        readCapped head.contentLength (frames ++ [frame]) keep = .ok body
    | .error (.problem problem) =>
        readCapped head.contentLength (frames ++ [frame]) keep = .error (.problem problem)
    | .error .underflow => False := by
  have next : ∀ rest, readCapped head.contentLength (frames ++ [frame] ++ rest) keep =
      readFrames keep head.announcedBig (frame :: rest) buf total := by
    intro rest
    rw [List.append_assoc, List.singleton_append]
    exact reads.rest (frame :: rest)
  have last := next []
  rw [List.append_nil] at last
  simp only [readFrames_cons] at next last
  cases frame with
  | error err => exact last
  | ok frame =>
    cases frame with
    | trailers => exact ⟨reads.soFar, next⟩
    | data data =>
      obtain ⟨consumed, soFar⟩ := reads.soFar
      obtain ⟨room, more⟩ := soFar.data data
      have within : (buf ++ data.take (min data.length (keep - buf.length))).length ≤ keep := by
        rw [more.buf_eq, List.length_take]
        exact Nat.min_le_left ..
      simp only [Serve.readFrame, if_neg (Nat.not_lt.mpr room)] at next last ⊢
      by_cases stops : ((head.announcedBig && decide (keep ≤ min (total + data.length) usizeMax)) ||
          decide (maxDrain < min (total + data.length) usizeMax)) = true
      · rw [if_pos stops] at last ⊢
        exact ⟨within, last⟩
      · simp only [if_neg stops] at next ⊢
        exact ⟨⟨_, more⟩, next⟩

theorem Reads.ended (reads : Reads keep head frames buf total) :
    readCapped head.contentLength frames keep =
      .ok { bytes := buf, overCap := keep ≤ total, close := false } := by
  have last := reads.rest []
  rwa [List.append_nil] at last

/-! ## Replies -/

/-- The reply to a request by itself: to a body that its frames make up, after some call. -/
def Machine.Replies (m : Machine) (request : Request) (frames : List (Except String Frame))
    (reply : Reply) : Prop :=
  if m.authorizes request.head then
    match m.handler request.head.route with
    | .inr page => reply = page
    | .inl op => ∃ call bodyInTime response, reply = .response response ∧
        run (m.app request.clockMs call bodyInTime) request.head.now request.head.contentLength
          frames op = .ok response
  else reply = .response (.problem Machine.unauthorized false)

/-- The reply to a head that asks for no call. -/
theorem replies_of_route {request : Request} {reply : Reply}
    (routed : m.route request = .inr reply) : m.Replies request [] reply := by
  unfold Machine.route at routed
  unfold Machine.Replies
  split at routed
  · next refused =>
    rw [if_neg (by simpa using refused)]
    exact (Sum.inr.inj routed).symm
  · next passed =>
    rw [if_pos (by simpa using passed)]
    cases found : m.handler request.head.route with
    | inr page =>
      rw [found] at routed
      exact (Sum.inr.inj routed).symm
    | inl op =>
      rw [found] at routed
      dsimp only at routed
      split at routed
      · cases routed
      · next problem bad =>
        refine ⟨0, true, .problem problem false, (Sum.inr.inj routed).symm, ?_⟩
        rw [run, bad]

/-- The reply to a request whose operation is known is what `run` gives. -/
theorem replies_of_run {request : Request} {op : Op} {frames : List (Except String Frame)}
    (routed : m.route request = .inl op) (call : Nat) (bodyInTime : Bool) {response : Response}
    (runs : ∀ (opAt : Int → Op) now,
      nowMs (m.app request.clockMs call bodyInTime) request.head.now = .ok now → op = opAt now →
      run (m.app request.clockMs call bodyInTime) request.head.now request.head.contentLength frames
        opAt = .ok response) :
    m.Replies request frames (.response response) := by
  unfold Machine.route at routed
  unfold Machine.Replies
  split at routed
  · cases routed
  · next passed =>
    rw [if_pos (by simpa using passed)]
    cases found : m.handler request.head.route with
    | inr page =>
      rw [found] at routed
      cases routed
    | inl opAt =>
      rw [found] at routed
      dsimp only at routed
      split at routed
      · next now given =>
        refine ⟨call, bodyInTime, response, rfl, runs opAt now ?_ (Sum.inl.inj routed).symm⟩
        -- the instant depends on the clock alone
        exact given
      · cases routed

theorem replies_timeout {request : Request} {op : Op} (frames : List (Except String Frame))
    (routed : m.route request = .inl op) :
    m.Replies request frames (.response (.problem m.requestTimeout true)) := by
  refine replies_of_run routed 0 false fun opAt now given _ => ?_
  rw [run, given]
  rfl

theorem replies_problem {request : Request} {op : Op} {frames : List (Except String Frame)}
    (routed : m.route request = .inl op) {problem : Problem}
    (read : readCapped request.head.contentLength frames m.keep = .error (.problem problem)) :
    m.Replies request frames (.response (.problem problem false)) := by
  refine replies_of_run routed 0 true fun opAt now given _ => ?_
  have own : readCapped request.head.contentLength frames (m.app request.clockMs 0 true).keep =
      .error (.problem problem) := read
  rw [run, given]
  dsimp only
  rw [own]
  rfl

theorem replies_called {request : Request} {op : Op} {frames : List (Except String Frame)}
    (routed : m.route request = .inl op) {body : Capped}
    (read : readCapped request.head.contentLength frames m.keep = .ok body) (call : Nat) :
    m.Replies request frames (m.reply request op body call) := by
  refine replies_of_run routed call true fun opAt now given same => ?_
  have own : readCapped request.head.contentLength frames (m.app request.clockMs call true).keep =
      .ok body := read
  rw [run, given]
  dsimp only
  rw [own, same]
  rfl

/-! ## What holds of a connection -/

/-- What is known of a connection at a point, given the tasks. -/
def Point.Ok (m : Machine) (tasks : List Task) : Point → Prop
  | .admitting request op => m.route request = .inl op
  | .reading request op frames buf total =>
    m.route request = .inl op ∧ Reads m.keep request.head frames buf total
  | .queued request op frames body =>
    m.route request = .inl op ∧ body.bytes.length ≤ m.keep ∧
      readCapped request.head.contentLength frames m.keep = .ok body
  | .calling request op frames body call =>
    m.route request = .inl op ∧ readCapped request.head.contentLength frames m.keep = .ok body ∧
      ∃ task : Task, tasks[call]? = some task ∧ task.op = op ∧ task.input = body.bytes
  | .answering request frames reply => m.Replies request frames reply
  | .idle | .closed => True

structure Sound (m : Machine) (s : State) : Prop where
  places : s.places + s.acceptor.places + tally Point.places s.connections = m.maxConnections
  uploads : s.uploads + tally Point.uploads s.connections = m.workers * uploadsPerWorker
  permits : s.permits + tally Task.permits s.tasks = m.workers
  points : ∀ point ∈ s.connections, point.Ok m s.tasks
  inputs : ∀ task ∈ s.tasks, task.input.length ≤ m.keep

/-- Tasks come, and end; none changes its call. -/
theorem Point.Ok.tasks {point : Point} {tasks tasks' : List Task} (ok : point.Ok m tasks)
    (kept : ∀ (k : Nat) (task : Task), tasks[k]? = some task →
      ∃ task' : Task, tasks'[k]? = some task' ∧ task'.op = task.op ∧ task'.input = task.input) :
    point.Ok m tasks' := by
  cases point with
  | calling request op frames body call =>
    obtain ⟨routed, read, task, at_, op_eq, input_eq⟩ := ok
    obtain ⟨task', at', same, same'⟩ := kept call task at_
    exact ⟨routed, read, task', at', same.trans op_eq, same'.trans input_eq⟩
  | _ => exact ok

/-! ## What a step can do -/

/-- Where the loop is in its turn. -/
def Acceptor.rank : Acceptor → Nat
  | .failing => 4
  | .acquiring => 3
  | .accepting => 2
  | .draining => 1
  | .returned => 0

/-- What a connection still has before it; a call of a worker is worth one more. -/
def Point.rank : Point → Nat
  | .admitting .. => 7
  | .reading .. => 6
  | .queued .. => 5
  | .calling .. => 3
  | .answering .. => 2
  | .idle => 1
  | .closed => 0

/-- The request a connection is at, until its reply is sent. -/
def Point.request : Point → Option Request
  | .admitting request _ | .reading request .. | .queued request .. | .calling request ..
  | .answering request .. => some request
  | .idle | .closed => none

/-- The server's own work, which no client takes part in. -/
def Event.works : Event → Bool
  | .acquire | .woke | .stop | .drained | .admitted _ | .timeout _ | .call _ | .finish _
  | .join _ => true
  | _ => false

/-- The server's own steps: its work, and the deadlines of heads and writes. -/
def Event.own : Event → Bool
  | .deadline _ => true
  | e => e.works

inductive Steps (m : Machine) (s : State) (e : Event) : State → Prop
  | signal (client : e.own = false) : Steps m s e { s with signalled := true }
  | loop {acceptor : Acceptor} {places : Nat}
      (count : places + acceptor.places = s.places + s.acceptor.places)
      (lower : e.own = true → acceptor.rank < s.acceptor.rank)
      (stays : s.acceptor.listens = false → acceptor.listens = false) :
      Steps m s e { s with acceptor := acceptor, places := places }
  | accept (client : e.own = false) (accepting : s.acceptor = .accepting) :
      Steps m s e { s with acceptor := .acquiring, connections := s.connections ++ [.idle] }
  | move {c : Nat} {old : Point} (at_ : s.connections[c]? = some old) {new : Point}
      {places uploads : Nat} (placed : places + new.places = s.places + old.places)
      (uploaded : uploads + new.uploads = s.uploads + old.uploads)
      (ok : old.Ok m s.tasks → new.Ok m s.tasks) (lower : e.own = true → new.rank < old.rank)
      (keeps : e.works = true → new.request = old.request) :
      Steps m s e { s.move c new with places := places, uploads := uploads }
  | call {c : Nat} {request : Request} {op : Op} {frames : List (Except String Frame)}
    {body : Capped}
      (at_ : s.connections[c]? = some (.queued request op frames body)) {permits : Nat}
      (free : s.permits = permits + 1) :
      Steps m s e { s.move c (.calling request op frames body s.tasks.length) with
        permits := permits
        uploads := s.uploads + 1
        tasks := s.tasks ++ [{ op, input := body.bytes, running := true }] }
  | finish {k : Nat} {task : Task} (at_ : s.tasks[k]? = some task) (running : task.running = true) :
      Steps m s e { s with
        permits := s.permits + 1
        tasks := s.tasks.set k { task with running := false } }

/-- A connection ends, with what it holds. -/
theorem Steps.drop {e : Event} {c : Nat} {point : Point} (at_ : s.connections[c]? = some point)
    (places : point.places = 1) (lower : e.own = true → 0 < point.rank)
    (idles : e.works = false) : Steps m s e (s.drop c point) :=
  .move at_ (congrArg (s.places + ·) places).symm rfl (fun _ => trivial) lower
    fun works => absurd (idles.symm.trans works) nofun

theorem steps_of_step {e : Event} (h : s.step m e = some s') : Steps m s e s' := by
  cases e with
  | signal =>
    cases h
    exact .signal rfl
  | acquire =>
    simp only [State.step] at h
    split at h
    · next places acquiring free =>
      cases h
      exact .loop (by rw [acquiring, free]; rfl) (fun _ => by rw [acquiring]; decide)
        fun gone => by rw [acquiring] at gone; cases gone
    · cases h
  | accept =>
    simp only [State.step] at h
    split at h
    · next accepting =>
      cases h
      exact .accept rfl accepting
    · cases h
  | acceptFailed skipped =>
    simp only [State.step] at h
    split at h
    · next accepting =>
      cases h
      exact .loop (by rw [accepting]; rfl) nofun fun gone => by rw [accepting] at gone; cases gone
    · next accepting =>
      cases h
      exact .loop (by rw [accepting]; rfl) nofun fun gone => by rw [accepting] at gone; cases gone
    · cases h
  | woke =>
    simp only [State.step] at h
    split at h
    · next failing =>
      cases h
      exact .loop (by rw [failing]; rfl) (fun _ => by rw [failing]; decide)
        fun gone => by rw [failing] at gone; cases gone
    · cases h
  | stop =>
    simp only [State.step] at h
    split at h
    · next acquiring =>
      cases h
      exact .loop (by rw [acquiring]; rfl) (fun _ => by rw [acquiring]; decide) fun _ => rfl
    · next accepting =>
      cases h
      exact .loop (by rw [accepting]; rfl) (fun _ => by rw [accepting]; decide) fun _ => rfl
    · cases h
  | drained =>
    simp only [State.step] at h
    split at h
    · next draining =>
      split at h
      · cases h
        exact .loop (by rw [draining]; rfl) (fun _ => by rw [draining]; decide) fun _ => rfl
      · cases h
    · cases h
  | head c request =>
    simp only [State.step] at h
    split at h
    · next at_ =>
      split at h
      · next op routed =>
        cases h
        exact .move at_ rfl rfl (fun _ => routed) nofun nofun
      · next reply routed =>
        cases h
        exact .move at_ rfl rfl (fun _ => replies_of_route routed) nofun nofun
    · cases h
  | admitted c =>
    simp only [State.step] at h
    split at h
    · next request op uploads at_ free =>
      cases h
      exact .move at_ rfl free.symm (fun routed => ⟨routed, reads_nil ..⟩)
        (fun _ => by simp [Point.rank]) fun _ => rfl
    · cases h
  | frame c frame =>
    simp only [State.step] at h
    split at h
    · next request op frames buf total at_ =>
      split at h
      · next buf' total' turn =>
        cases h
        refine .move at_ rfl rfl (fun ok => ⟨ok.1, ?_⟩) nofun nofun
        have next := ok.2.readFrame frame
        rwa [turn] at next
      · next body turn =>
        cases h
        refine .move at_ rfl rfl (fun ok => ⟨ok.1, ?_⟩) nofun nofun
        have next := ok.2.readFrame frame
        rwa [turn] at next
      · next problem turn =>
        cases h
        refine .move at_ rfl rfl (fun ok => replies_problem ok.1 ?_) nofun nofun
        have next := ok.2.readFrame frame
        rwa [turn] at next
      · cases h
        exact .drop at_ rfl nofun rfl
    · cases h
  | ended c =>
    simp only [State.step] at h
    split at h
    · next at_ =>
      cases h
      exact .move at_ rfl rfl (fun ok => ⟨ok.1, ok.2.length_le, ok.2.ended⟩) nofun nofun
    · cases h
  | timeout c =>
    simp only [State.step] at h
    split at h
    · next at_ =>
      cases h
      exact .move at_ rfl rfl (fun ok => replies_timeout _ ok.1)
        (fun _ => by simp [Point.rank]) fun _ => rfl
    · cases h
  | call c =>
    simp only [State.step] at h
    split at h
    · next at_ free =>
      cases h
      exact .call at_ free
    · cases h
  | finish k =>
    simp only [State.step] at h
    split at h
    · next at_ =>
      split at h
      · next running =>
        cases h
        exact .finish at_ running
      · cases h
    · cases h
  | join c =>
    simp only [State.step] at h
    split at h
    · next call at_ =>
      split at h
      · split at h
        · cases h
        · cases h
          exact .move at_ rfl rfl (fun ok => replies_called ok.1 ok.2.1 call)
            (fun _ => by simp [Point.rank]) fun _ => rfl
      · cases h
    · cases h
  | written c keepAlive =>
    simp only [State.step] at h
    split at h
    · next at_ =>
      split at h
      · cases h
        exact .move at_ rfl rfl (fun _ => trivial) nofun nofun
      · cases h
        exact .drop at_ rfl nofun rfl
    · cases h
  | deadline c =>
    simp only [State.step] at h
    split at h
    · next at_ =>
      cases h
      exact .drop at_ rfl (fun _ => by simp [Point.rank]) rfl
    · next at_ =>
      cases h
      exact .drop at_ rfl (fun _ => by simp [Point.rank]) rfl
    · cases h
  | gone c =>
    simp only [State.step] at h
    split at h
    · cases h
    · next point there at_ =>
      cases h
      refine .drop at_ ?_ nofun rfl
      cases point with
      | closed => exact (there rfl).elim
      | _ => rfl
    · cases h

/-! ## What a step keeps -/

theorem mem_set_cases {connections : List Point} {c : Nat} {point new : Point}
    (mem : point ∈ connections.set c new) : point = new ∨ point ∈ connections :=
  (List.mem_or_eq_of_mem_set mem).symm

theorem sound_step (sound : Sound m s) {e : Event} (h : s.step m e = some s') : Sound m s' := by
  cases steps_of_step h with
  | signal => exact { sound with }
  | loop count =>
    have places := sound.places
    exact { sound with places := by dsimp only; omega }
  | accept _ accepting =>
    have places := sound.places
    rw [accepting] at places
    refine { sound with places := ?_, uploads := ?_, points := ?_ }
    · simp only [tally_concat, Acceptor.places, Point.places] at places ⊢
      omega
    · rw [tally_concat]
      exact sound.uploads
    · intro point mem
      rcases List.mem_append.mp mem with old | new
      · exact sound.points point old
      · rw [List.mem_singleton.mp new]
        trivial
  | @move c old at_ new places uploads placed uploaded ok =>
    have old_ok := sound.points old (List.mem_of_getElem? at_)
    refine { sound with places := ?_, uploads := ?_, points := fun point mem => ?_ }
    · have before := sound.places
      have changed := tally_set Point.places at_ new
      simp only [State.move] at changed ⊢
      omega
    · have before := sound.uploads
      have changed := tally_set Point.uploads at_ new
      simp only [State.move] at changed ⊢
      omega
    · rcases mem_set_cases mem with rfl | mem
      · exact ok old_ok
      · exact sound.points point mem
  | @call c request op frames body at_ permits free =>
    have old_ok := sound.points _ (List.mem_of_getElem? at_)
    have kept : ∀ (k : Nat) (task : Task), s.tasks[k]? = some task →
        ∃ task' : Task, (s.tasks ++ [{ op, input := body.bytes, running := true }])[k]? =
          some task' ∧ task'.op = task.op ∧ task'.input = task.input := by
      intro k task has
      refine ⟨task, ?_, rfl, rfl⟩
      rwa [List.getElem?_append_left (List.getElem?_eq_some_iff.mp has).1]
    refine ⟨?_, ?_, ?_, fun point mem => ?_, fun task mem => ?_⟩
    · have before := sound.places
      have changed := tally_set Point.places at_
        (.calling request op frames body s.tasks.length)
      simp only [State.move, Point.places] at changed ⊢
      omega
    · have before := sound.uploads
      have changed := tally_set Point.uploads at_
        (.calling request op frames body s.tasks.length)
      simp only [State.move, Point.uploads] at changed ⊢
      omega
    · have before := sound.permits
      simp only [tally_concat, Task.permits, ↓reduceIte]
      omega
    · rcases mem_set_cases mem with rfl | mem
      · exact ⟨old_ok.1, old_ok.2.2, _, List.getElem?_concat_length, rfl, rfl⟩
      · exact (sound.points point mem).tasks kept
    · rcases List.mem_append.mp mem with old | new
      · exact sound.inputs task old
      · rw [List.mem_singleton.mp new]
        exact old_ok.2.1
  | @finish k task at_ running =>
    have kept : ∀ (k' : Nat) (task' : Task), s.tasks[k']? = some task' →
        ∃ task'' : Task, (s.tasks.set k { task with running := false })[k']? = some task'' ∧
          task''.op = task'.op ∧ task''.input = task'.input := by
      intro k' task' has
      by_cases same : k = k'
      · subst same
        obtain rfl := Option.some.inj (at_.symm.trans has)
        exact ⟨_, List.getElem?_set_self (List.getElem?_eq_some_iff.mp at_).1, rfl, rfl⟩
      · exact ⟨task', by rwa [List.getElem?_set_ne same], rfl, rfl⟩
    refine { sound with permits := ?_, points := fun point mem => ?_, inputs := fun t mem => ?_ }
    · have before := sound.permits
      have changed := tally_set Task.permits at_ { task with running := false }
      simp only [Task.permits, running, ↓reduceIte, Bool.false_eq_true] at changed
      dsimp only
      omega
    · exact (sound.points point mem).tasks kept
    · rcases List.mem_or_eq_of_mem_set mem with old | rfl
      · exact sound.inputs t old
      · exact sound.inputs task (List.mem_of_getElem? at_)

theorem sound_run {events : List Event} (run : State.run m events = some s) : Sound m s := by
  refine rel_of_foldlM (R := fun s s' => Sound m s → Sound m s') (fun _ => id)
    (fun first second sound => second (first sound)) (fun h sound => sound_step sound h) run ?_
  exact ⟨rfl, rfl, rfl, List.forall_mem_nil _, List.forall_mem_nil _⟩

/-! ## What is held at once -/

theorem Point.held_le {point : Point} {tasks : List Task} (ok : point.Ok m tasks) :
    point.held ≤ m.keep * point.uploads := by
  cases point with
  | reading request op frames buf total =>
    rw [Point.uploads, Nat.mul_one]
    exact ok.2.length_le
  | queued request op frames body =>
    rw [Point.uploads, Nat.mul_one]
    exact ok.2.1
  | _ => exact Nat.zero_le _

theorem Task.held_le {task : Task} (short : task.input.length ≤ m.keep) :
    task.held ≤ m.keep * task.permits := by
  unfold Task.held Task.permits
  split
  · rwa [Nat.mul_one]
  · exact Nat.zero_le _

/-- Bodies before their calls, and those of the calls. -/
theorem Sound.held (sound : Sound m s) :
    tally Point.held s.connections ≤ m.workers * uploadsPerWorker * m.keep ∧
      tally Task.held s.tasks ≤ m.workers * m.keep := by
  constructor
  · have uploads := sound.uploads
    calc tally Point.held s.connections
        ≤ m.keep * tally Point.uploads s.connections :=
          tally_le fun point mem => Point.held_le (sound.points point mem)
      _ ≤ m.keep * (m.workers * uploadsPerWorker) := Nat.mul_le_mul_left _ (by omega)
      _ = m.workers * uploadsPerWorker * m.keep := Nat.mul_comm ..
  · have permits := sound.permits
    calc tally Task.held s.tasks
        ≤ m.keep * tally Task.permits s.tasks :=
          tally_le fun task mem => Task.held_le (sound.inputs task mem)
      _ ≤ m.keep * m.workers := Nat.mul_le_mul_left _ (by omega)
      _ = m.workers * m.keep := Nat.mul_comm ..

/-! ## The server's own steps -/

/-- What the server still has to do. -/
def State.remains (s : State) : Nat :=
  s.acceptor.rank + tally Point.rank s.connections + tally Task.permits s.tasks

theorem lowers {e : Event} (own : e.own = true) (h : s.step m e = some s') :
    s'.remains < s.remains := by
  cases steps_of_step h with
  | signal client => rw [client] at own; cases own
  | loop count lower =>
    have lower := lower own
    simp only [State.remains]
    omega
  | accept client => rw [client] at own; cases own
  | @move c old at_ new places uploads placed uploaded ok lower =>
    have lower := lower own
    have changed := tally_set Point.rank at_ new
    simp only [State.remains, State.move]
    omega
  | @call c request op frames body at_ permits free =>
    have changed := tally_set Point.rank at_
      (.calling request op frames body s.tasks.length)
    simp only [State.remains, State.move, tally_concat, Task.permits, Point.rank, ↓reduceIte]
      at changed ⊢
    omega
  | @finish k task at_ running =>
    have changed := tally_set Task.permits at_ { task with running := false }
    simp only [State.remains]
    simp only [Task.permits, running, ↓reduceIte, Bool.false_eq_true] at changed ⊢
    omega

theorem Event.own_of_works {e : Event} (works : e.works = true) : e.own = true := by
  cases e <;> first | rfl | cases works

/-- The server's work ends no connection, and takes no other request to it. -/
theorem request_of_works {e : Event} (works : e.works = true) (h : s.step m e = some s') {c : Nat}
    {point : Point} (at_ : s.connections[c]? = some point) :
    ∃ point', s'.connections[c]? = some point' ∧ point'.request = point.request := by
  have moved : ∀ {c' : Nat} {old new : Point}, s.connections[c']? = some old →
      new.request = old.request → ∃ point', (s.connections.set c' new)[c]? = some point' ∧
        point'.request = point.request := by
    intro c' old new there keeps
    by_cases same : c' = c
    · subst same
      obtain rfl := Option.some.inj (there.symm.trans at_)
      exact ⟨new, List.getElem?_set_self (List.getElem?_eq_some_iff.mp there).1, keeps⟩
    · exact ⟨point, by rwa [List.getElem?_set_ne same], rfl⟩
  cases steps_of_step h with
  | move there _ _ _ _ keeps => exact moved there (keeps works)
  | call there => exact moved there rfl
  | accept client => rw [Event.own_of_works works] at client; cases client
  | _ => exact ⟨point, at_, rfl⟩

theorem request_of_run {events : List Event} (works : ∀ e ∈ events, e.works = true)
    (run : events.foldlM (State.step m) s = some s') {c : Nat} {point : Point}
    (at_ : s.connections[c]? = some point) :
    ∃ point', s'.connections[c]? = some point' ∧ point'.request = point.request := by
  induction events generalizing s point with
  | nil =>
    obtain rfl := Option.some.inj run
    exact ⟨point, at_, rfl⟩
  | cons e events ih =>
    rw [List.forall_mem_cons] at works
    obtain ⟨next, first, rest⟩ := Option.bind_eq_some_iff.mp run
    obtain ⟨point', at', same⟩ := request_of_works works.1 first at_
    obtain ⟨point'', at'', same'⟩ := ih works.2 rest at'
    exact ⟨point'', at'', same'.trans same⟩

/-! ## Where the server rests -/

/-- Its request waits for something that is not the client's. -/
def Point.waits : Point → Bool
  | .admitting .. | .reading .. | .queued .. | .calling .. => true
  | _ => false

section Rests

variable (sound : Sound m s) (workers : 0 < m.workers)
  (rests : ∀ e : Event, e.works = true → s.step m e = none)

include rests

theorem ended_of_rests {task : Task} (mem : task ∈ s.tasks) : task.running = false := by
  obtain ⟨k, at_⟩ := List.mem_iff_getElem?.mp mem
  cases running : task.running with
  | false => rfl
  | true =>
    have none := rests (.finish k) rfl
    simp only [State.step, at_, running, ↓reduceIte] at none
    cases none

include sound

theorem permits_of_rests : s.permits = m.workers := by
  have none : tally Task.permits s.tasks = 0 := tally_eq_zero fun task mem => by
    rw [Task.permits, if_neg (by simp [ended_of_rests rests mem])]
  have permits := sound.permits
  omega

include workers

/-- No body is held, as a read has a deadline and every worker is free. -/
theorem unheld_of_rests {point : Point} (mem : point ∈ s.connections) : point.uploads = 0 := by
  obtain ⟨c, at_⟩ := List.mem_iff_getElem?.mp mem
  cases point with
  | reading =>
    have none := rests (.timeout c) rfl
    simp only [State.step, at_] at none
    cases none
  | queued =>
    obtain ⟨permits, free⟩ := Nat.exists_eq_add_one.mpr workers
    have none := rests (.call c) rfl
    simp only [State.step, at_, permits_of_rests sound rests, free] at none
    cases none
  | _ => rfl

theorem uploads_of_rests : s.uploads = m.workers * uploadsPerWorker := by
  have none : tally Point.uploads s.connections = 0 :=
    tally_eq_zero fun point mem => unheld_of_rests sound workers rests mem
  have uploads := sound.uploads
  omega

/-- Every request has its reply. -/
theorem waits_of_rests {point : Point} (mem : point ∈ s.connections) : point.waits = false := by
  have unheld := unheld_of_rests sound workers rests mem
  have ok := sound.points point mem
  obtain ⟨c, at_⟩ := List.mem_iff_getElem?.mp mem
  cases point with
  | admitting =>
    have some : 0 < m.workers * uploadsPerWorker := Nat.mul_pos workers (by decide)
    obtain ⟨uploads, free⟩ := Nat.exists_eq_add_one.mpr some
    have none := rests (.admitted c) rfl
    simp only [State.step, at_, uploads_of_rests sound workers rests, free] at none
    cases none
  | reading => cases unheld
  | queued => cases unheld
  | calling =>
    obtain ⟨-, -, task, there, -⟩ := ok
    have ended := ended_of_rests rests (List.mem_of_getElem? there)
    have none := rests (.join c) rfl
    simp only [State.step, at_, there, ended, Bool.false_eq_true, ↓reduceIte] at none
    cases none
  | _ => rfl

end Rests

/-- With the deadlines too, every connection ended, and the loop waits for the next or is over. -/
theorem closed_of_rests (sound : Sound m s) (workers : 0 < m.workers) (some : 0 < m.maxConnections)
    (rests : ∀ e : Event, e.own = true → s.step m e = none) :
    (∀ point ∈ s.connections, point = .closed) ∧
      (s.acceptor = .accepting ∧ s.signalled = false ∨
        s.acceptor = .returned ∧ s.places = m.maxConnections) := by
  have works := fun e own => rests e (Event.own_of_works own)
  have closed : ∀ point ∈ s.connections, point = .closed := by
    intro point mem
    have waits := waits_of_rests sound workers works mem
    obtain ⟨c, at_⟩ := List.mem_iff_getElem?.mp mem
    have none := rests (.deadline c) rfl
    simp only [State.step, at_] at none
    cases point with
    | closed => rfl
    | idle => cases none
    | answering => cases none
    | _ => cases waits
  have empty : tally Point.places s.connections = 0 :=
    tally_eq_zero fun point mem => by rw [closed point mem, Point.places]
  have places := sound.places
  refine ⟨closed, ?_⟩
  cases acceptor : s.acceptor with
  | acquiring =>
    rw [acceptor] at places
    obtain ⟨free, eq⟩ := Nat.exists_eq_add_one.mpr (show 0 < s.places by
      simp only [Acceptor.places] at places
      omega)
    have none := rests .acquire rfl
    simp only [State.step, acceptor, eq] at none
    cases none
  | accepting =>
    cases signalled : s.signalled with
    | false => exact .inl ⟨rfl, rfl⟩
    | true =>
      have none := rests .stop rfl
      simp only [State.step, acceptor, signalled] at none
      cases none
  | failing =>
    have none := rests .woke rfl
    simp only [State.step, acceptor] at none
    cases none
  | draining =>
    have unplaced : (s.connections.all fun point => point.places == 0) = true :=
      List.all_eq_true.mpr fun point mem => by rw [closed point mem]; rfl
    have none := rests .drained rfl
    simp only [State.step, acceptor, unplaced, ↓reduceIte] at none
    cases none
  | returned =>
    rw [acceptor, empty] at places
    exact .inr ⟨rfl, places⟩

/-- A loop that left its listener accepts no more. -/
theorem listens_step {e : Event} (h : s.step m e = some s') (gone : s.acceptor.listens = false) :
    s'.acceptor.listens = false ∧ s'.connections.length = s.connections.length := by
  cases steps_of_step h with
  | signal => exact ⟨gone, rfl⟩
  | loop _ _ stays => exact ⟨stays gone, rfl⟩
  | accept _ accepting => rw [accepting] at gone; cases gone
  | move => exact ⟨gone, List.length_set⟩
  | call => exact ⟨gone, List.length_set⟩
  | finish => exact ⟨gone, rfl⟩

/-! ## Main results -/

/-- In every reachable state each permit is free or held by whom it was given to: connections and
running calls stay within their bounds, and the bodies in memory, before their calls and in them,
take at most five times the module's cap for each worker. Every reply is the one `run` gives to its
own request and body, whatever the others do. -/
theorem serves_within {events : List Event} (run : State.run m events = some s) :
    s.places + s.acceptor.places + tally Point.places s.connections = m.maxConnections ∧
    s.uploads + tally Point.uploads s.connections = m.workers * uploadsPerWorker ∧
    s.permits + tally Task.permits s.tasks = m.workers ∧
    tally Point.held s.connections + tally Task.held s.tasks ≤
      m.workers * (uploadsPerWorker + 1) * m.keep ∧
    ∀ request frames reply, .answering request frames reply ∈ s.connections →
      m.Replies request frames reply := by
  have sound := sound_run run
  refine ⟨sound.places, sound.uploads, sound.permits, ?_,
    fun request frames reply mem => sound.points _ mem⟩
  calc tally Point.held s.connections + tally Task.held s.tasks
      ≤ m.workers * uploadsPerWorker * m.keep + m.workers * m.keep :=
        Nat.add_le_add sound.held.1 sound.held.2
    _ = m.workers * (uploadsPerWorker + 1) * m.keep := by
        rw [← Nat.add_mul, Nat.mul_add, Nat.mul_one]

/-- A server of one worker, with a token. -/
private def server : Machine where
  maxConnections := 2
  workers := 1
  keep := 4
  bodyTimeoutMs := 30000
  token := some [1]
  sha256 := id
  info := "[]"
  openapi := "[]"
  invoke _ _ _ := .ok "[]"
  lost _ := none

private def ask : Request := ⟨⟨.verifyReceipt, some [1], none, none⟩, 0⟩

/-- Two requests; the client of the first leaves while its call runs. -/
private def requests : List Event :=
  [.acquire, .accept, .acquire, .accept, .head 0 ask, .head 1 ask, .admitted 0,
    .frame 0 (.ok (.data [1, 2, 3, 4, 5])), .ended 0, .call 0, .gone 0, .admitted 1, .ended 1]

private def answered : State := (State.run server (requests ++ [.finish 0, .call 1, .finish 1,
  .join 1])).get rfl

theorem serves_within_requests : answered.permits + tally Task.permits answered.tasks = 1 ∧
    server.Replies ask [] (server.reply ask (.verifyReceipt 0) ⟨[], false, false⟩ 1) := by
  have run : State.run server (requests ++ [.finish 0, .call 1, .finish 1, .join 1]) =
      some answered := rfl
  have within := serves_within run
  exact ⟨within.2.2.1, within.2.2.2.2 _ _ _ (.tail _ (.head _))⟩

/-- The server's own steps run out from every reachable state. Where its work rests, whichever order
it was done in, every request that waited has its reply, with no step of any client; where its
deadlines passed too, every connection ended, and the loop is at `accept` or, after the signal,
over. A loop that left for the signal accepts no more. -/
theorem serves_all (workers : 0 < m.workers) (connections : 0 < m.maxConnections)
    {events : List Event} (run : State.run m events = some s) :
    (∀ (more : List Event) (t : State), (∀ e ∈ more, e.own = true) →
      more.foldlM (State.step m) s = some t → more.length ≤ s.remains) ∧
    (∀ (more : List Event) (t : State), (∀ e ∈ more, e.works = true) →
      more.foldlM (State.step m) s = some t →
      (∀ e : Event, e.works = true → t.step m e = none) →
      ∀ (c : Nat) (point : Point), s.connections[c]? = some point → point.waits = true →
        ∃ request frames reply, point.request = some request ∧
          t.connections[c]? = some (.answering request frames reply) ∧
          m.Replies request frames reply) ∧
    (∀ (more : List Event) (t : State), more.foldlM (State.step m) s = some t →
      (∀ e : Event, e.own = true → t.step m e = none) →
      (∀ point ∈ t.connections, point = .closed) ∧
        (t.acceptor = .accepting ∧ t.signalled = false ∨
          t.acceptor = .returned ∧ t.places = m.maxConnections)) ∧
    (∃ (more : List Event) (t : State), (∀ e ∈ more, e.own = true) ∧
      more.foldlM (State.step m) s = some t ∧ ∀ e : Event, e.own = true → t.step m e = none) ∧
    (s.acceptor.listens = false → ∀ (more : List Event) (t : State),
      more.foldlM (State.step m) s = some t →
      t.acceptor.listens = false ∧ t.connections.length = s.connections.length) := by
  have sound := sound_run run
  have later : ∀ {more : List Event} {t : State}, more.foldlM (State.step m) s = some t →
      Sound m t := by
    intro more t after
    exact rel_of_foldlM (R := fun s s' => Sound m s → Sound m s') (fun _ => id)
      (fun first second sound => second (first sound)) (fun h sound => sound_step sound h) after
      sound
  have lower : ∀ {s : State} {e : Event} {t : State}, Sound m s → e.own = true →
      s.step m e = some t → t.remains < s.remains := fun _ own h => lowers own h
  refine ⟨fun more t own after => ?_, fun more t works after rests c point at_ waits => ?_,
    fun more t after rests => closed_of_rests (later after) workers connections rests, ?_,
    fun gone more t after => ?_⟩
  · have bound := (length_le_of_lowers (fun sound h => sound_step sound h) lower own sound after).2
    omega
  · obtain ⟨point', there, same⟩ := request_of_run works after at_
    have mem := List.mem_of_getElem? there
    have answered := waits_of_rests (later after) workers rests mem
    obtain ⟨request, has⟩ : ∃ request, point.request = some request := by
      cases point <;> first | exact ⟨_, rfl⟩ | cases waits
    rw [has] at same
    cases point' with
    | answering request' frames reply =>
      obtain rfl := Option.some.inj same
      exact ⟨request', frames, reply, has, there, (later after).points _ mem⟩
    | idle => cases same
    | closed => cases same
    | _ => cases answered
  · exact exists_run_to_rest (fun sound h => sound_step sound h) lower sound
  · refine rel_of_foldlM (R := fun s t => s.acceptor.listens = false →
      t.acceptor.listens = false ∧ t.connections.length = s.connections.length)
      (fun _ gone => ⟨gone, rfl⟩) (fun first second gone => ?_) (fun h gone => listens_step h gone)
      after gone
    obtain ⟨gone', same⟩ := first gone
    obtain ⟨gone'', same'⟩ := second gone'
    exact ⟨gone'', same'.trans same⟩

/-- The same two requests; then the signal arrives and the loop leaves. -/
private def stopped : State := (State.run server (requests ++ [.signal, .stop])).get rfl

/-- The client of the first request left while its call runs, and the second request waits for the
worker: its reply comes, the loop returns, and no third connection is accepted. -/
theorem serves_all_requests :
    stopped.permits = 0 ∧
    (∀ (more : List Event) (t : State), (∀ e ∈ more, e.own = true) →
      more.foldlM (State.step server) stopped = some t → more.length ≤ stopped.remains) ∧
    (∀ (more : List Event) (t : State), (∀ e ∈ more, e.works = true) →
      more.foldlM (State.step server) stopped = some t →
      (∀ e : Event, e.works = true → t.step server e = none) →
      ∃ frames reply, t.connections[1]? = some (.answering ask frames reply) ∧
        server.Replies ask frames reply) ∧
    (∃ (more : List Event) (t : State), more.foldlM (State.step server) stopped = some t ∧
      (∀ point ∈ t.connections, point = .closed) ∧ t.acceptor = .returned ∧ t.places = 2) ∧
    ∀ (more : List Event) (t : State), more.foldlM (State.step server) stopped = some t →
      t.connections.length = 2 := by
  have run : State.run server (requests ++ [.signal, .stop]) = some stopped := rfl
  obtain ⟨bounded, replied, ended, rest, gone⟩ := serves_all (by decide) (by decide) run
  refine ⟨rfl, bounded, fun more t works after rests => ?_, ?_,
    fun more t after => (gone rfl more t after).2⟩
  · obtain ⟨request, frames, reply, asks, there, replies⟩ :=
      replied more t works after rests 1 _ rfl rfl
    obtain rfl := Option.some.inj asks
    exact ⟨frames, reply, there, replies⟩
  · obtain ⟨more, t, -, after, rests⟩ := rest
    obtain ⟨closed, ⟨accepting, -⟩ | returned⟩ := ended more t after rests
    · have left := (gone rfl more t after).1
      rw [accepting] at left
      cases left
    · exact ⟨more, t, after, closed, returned⟩

end Serve

end Server

end ReceiptVerifier
