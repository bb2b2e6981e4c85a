import Mathlib.Logic.Function.Basic
import ReceiptVerifier.Basic

/-!
# The java-wasm host's server binaries

`ServerBinary.java`: a cache directory that any number of JVMs install binaries into and start them
from. The state is moved by their threads, one operation on the file system or on a lock at a time;
each may fail, a JVM may be killed between any two of them, and something else may write in the
directory. A binary is named by the SHA-256 it is pinned to.
-/

namespace ReceiptVerifier

namespace JavaWasm

namespace ServerBinary

/-- A download is refused past this size. -/
def maxBinary : Nat := 128 * 2 ^ 20

/-- A file of the directory. -/
structure File where
  bytes : Bytes
  /-- Its owner may execute it. -/
  executable : Bool
  /-- For the record: something other than an installation wrote it. -/
  foreign : Bool
deriving DecidableEq, Repr

/-- Where a thread is, in `install` or on the way to start an installed binary. -/
inductive Point
  /-- Before `ownerOnlyDirectory`. -/
  | entering
  /-- Before the monitor of the directory. -/
  | waiting
  /-- Before `FileChannel.open`. -/
  | opening
  /-- Before `channel.lock()`. -/
  | locking
  /-- Before `Files.isRegularFile(target)`. -/
  | checking
  /-- Before `sha256(target)`. -/
  | hashing
  /-- Before `Files.delete(target)`. -/
  | deleting
  /-- Before `temporaryFile(dir)`. -/
  | creating
  /-- Before `fetch.open()`. -/
  | fetching (temporary : Nat)
  /-- In `copyAndHash`, before `Files.newOutputStream`. -/
  | truncating (temporary : Nat)
  /-- Before `in.read(buffer)`, with what was read. -/
  | reading (temporary : Nat) (copied : Bytes)
  /-- Before `out.write(buffer)`. -/
  | writing (temporary : Nat) (copied buffer : Bytes)
  /-- Before the streams are closed. -/
  | closing (temporary : Nat) (copied : Bytes)
  /-- Before `executable(temporary)`. -/
  | marking (temporary : Nat)
  /-- Before the atomic `Files.move`. -/
  | moving (temporary : Nat)
  /-- Before the `Files.move` that replaces. -/
  | replacing (temporary : Nat)
  /-- Before `Files.deleteIfExists(temporary)`. -/
  | cleaning (temporary : Nat) (result : Except String Unit)
  /-- Before the file lock and its channel are closed. -/
  | unlocking (result : Except String Unit)
  /-- Before the monitor is left. -/
  | leaving (result : Except String Unit)
  /-- `install` returned the target. -/
  | returned
  | threw (message : String)
  /-- In `verifyBeforeStart`, before `sha256(binary)`. -/
  | verifying
  /-- Before `Files.deleteIfExists(binary)`. -/
  | discarding (got : String)
  /-- Before `ProcessBuilder.start()`. -/
  | starting
  /-- The binary runs. -/
  | started
  /-- Its JVM was killed. -/
  | killed

namespace Point

/-- The monitor of the directory is held. -/
def synchronized : Point → Bool
  | entering | waiting | returned | threw _ | verifying | discarding _ | starting | started
  | killed => false
  | _ => true

/-- The file lock is held. -/
def locked : Point → Bool
  | opening | locking | leaving _ => false
  | p => p.synchronized

/-- The temporary file of a thread. -/
def temporary : Point → Option Nat
  | fetching t | truncating t | reading t _ | writing t _ _ | closing t _ | marking t | moving t
  | replacing t | cleaning t _ => some t
  | _ => none

end Point

structure Thread where
  jvm : Nat
  /-- The SHA-256 the binary is pinned to. -/
  pin : String
  point : Point

/-- What was done with the binary of a pin. -/
inductive Deed
  /-- `fetch.open()` returned. -/
  | fetched
  | installed
  | deleted
  /-- A process runs this file. -/
  | ran (file : File)
deriving DecidableEq, Repr

structure State where
  /-- `aprv-<sha256>`, by its pin. -/
  targets : String → Option File := fun _ => none
  temporaries : Nat → Option File := fun _ => none
  /-- The temporary files that were made, by the pin of the binary each is for. -/
  made : List String := []
  /-- Who has the monitor of the directory, in each JVM. -/
  monitors : Nat → Option Nat := fun _ => none
  /-- Who has the lock of the file `.lock`. -/
  lock : Option Nat := none
  threads : List Thread := []
  /-- For the record: what was done, in order. -/
  log : List (String × Deed) := []
  /-- For the record: the temporary files that nobody removes any more. -/
  abandoned : List Nat := []

namespace State

def move (s : State) (i : Nat) (t : Thread) (point : Point) : State :=
  { s with threads := s.threads.set i { t with point := point } }

def note (s : State) (pin : String) (deed : Deed) : State :=
  { s with log := s.log ++ [(pin, deed)] }

def setTarget (s : State) (pin : String) (file : Option File) : State :=
  { s with targets := Function.update s.targets pin file }

def setTemporary (s : State) (temporary : Nat) (file : Option File) : State :=
  { s with temporaries := Function.update s.temporaries temporary file }

end State

/-- How a `Files.move` ended. -/
inductive Moved
  | done
  /-- `AtomicMoveNotSupportedException` or `FileAlreadyExistsException`. -/
  | unsupported
  /-- Another exception, after the target was removed or not. -/
  | failed (message : String) (removed : Bool)

/-- What happens next, and what the operation came to; a failure is the text of an exception. -/
inductive Event
  | install (jvm : Nat) (pin : String)
  /-- An installed binary is to be started. -/
  | start (jvm : Nat) (pin : String)
  | ownerOnlyDirectory (thread : Nat) (failure : Option String)
  | synchronized (thread : Nat)
  | open_ (thread : Nat) (failure : Option String)
  | lock (thread : Nat) (failure : Option String)
  | isRegularFile (thread : Nat) (answer : Bool)
  /-- `Files.isRegularFile` cannot tell, and answers `false` whatever is there. -/
  | undetermined (thread : Nat)
  /-- The bytes are read and hashed in one step. -/
  | sha256 (thread : Nat) (failure : Option String)
  | delete (thread : Nat) (failure : Option String)
  | temporaryFile (thread : Nat) (failure : Option String)
  | fetch (thread : Nat) (failure : Option String)
  | newOutputStream (thread : Nat) (failure : Option String)
  /-- The next bytes of the source; none at its end. -/
  | read (thread : Nat) (answer : Except String Bytes)
  /-- What was not written where the write failed. -/
  | write (thread : Nat) (failure : Option (String × Nat))
  | close (thread : Nat) (failure : Option String)
  | executable (thread : Nat) (failure : Option String)
  | move (thread : Nat) (moved : Moved)
  | deleteIfExists (thread : Nat) (failure : Option String)
  | unlock (thread : Nat) (failure : Option String)
  | exit (thread : Nat)
  /-- The process starts, or does not. -/
  | exec (thread : Nat) (failure : Option String)
  | kill (jvm : Nat)
  /-- Something else writes or removes a target. Nothing else removes `.lock`, which would let two
  threads in. -/
  | meddle (pin : String) (file : Option (Bytes × Bool))
  /-- Something else writes or removes a temporary file. -/
  | meddleTemporary (temporary : Nat) (file : Option (Bytes × Bool))

/-- The file something else leaves. -/
def foreignFile (file : Option (Bytes × Bool)) : Option File :=
  file.map fun (bytes, executable) => ⟨bytes, executable, true⟩

/-- What is thrown, or `done`. -/
def Point.after (failure : Option String) (threw : String → Point) (done : Point) : Point :=
  match failure with
  | some message => threw message
  | none => done

/-- A failure takes the place of a result; one beside an exception is suppressed. -/
def closed (result : Except String Unit) (failure : Option String) : Except String Unit :=
  match result, failure with
  | .ok (), some message => .error message
  | result, _ => result

def tooLarge : String := "the binary is larger than " ++ toString maxBinary ++ " bytes"

def mismatch (got pin : String) : String :=
  "the binary hashes to " ++ got ++ ", not the pinned " ++ pin ++ "; it was not made executable"

def changed (target got pin : String) : String :=
  target ++ " changed after it was installed (sha256 " ++ got ++ ", pinned " ++ pin ++
    "); it was deleted and not started"

/-- The temporary files of the threads of a JVM. -/
def State.temporariesOf (s : State) (jvm : Nat) : List Nat :=
  s.threads.filterMap fun t => if t.jvm = jvm then t.point.temporary else none

/-- The threads of a JVM end where they are, and the system takes its lock back. -/
def State.kill (s : State) (jvm : Nat) : State :=
  { s with
    threads := s.threads.map fun t => if t.jvm = jvm then { t with point := .killed } else t
    monitors := Function.update s.monitors jvm none
    lock := s.lock.filter fun i => (s.threads[i]?).any fun t => t.jvm ≠ jvm
    abandoned := s.abandoned ++ s.temporariesOf jvm }

/-- SHA-256 in hex, and the file system of the directory. -/
structure Machine where
  sha256 : Bytes → String
  /-- It has the `posix` file attributes. -/
  posix : Bool
  windows : Bool
  /-- `dir.resolve`. -/
  resolve : String → String

variable (m : Machine)

/-- The path of the binary of a pin. -/
def Machine.target (pin : String) : String :=
  m.resolve ("aprv-" ++ pin ++ if m.windows then ".exe" else "")

/-- One step of one thread; `none` where it cannot happen. -/
def State.step (s : State) : Event → Option State
  | .install jvm pin => some { s with threads := s.threads ++ [⟨jvm, pin, .entering⟩] }
  | .start jvm pin => some { s with threads := s.threads ++ [⟨jvm, pin, .verifying⟩] }
  | .ownerOnlyDirectory i failure =>
    match s.threads[i]? with
    | some t@⟨_, _, .entering⟩ => some (s.move i t (.after failure .threw .waiting))
    | _ => none
  | .synchronized i =>
    match s.threads[i]? with
    | some t@⟨jvm, _, .waiting⟩ =>
      match s.monitors jvm with
      | none =>
        some { s.move i t .opening with monitors := Function.update s.monitors jvm (some i) }
      | some _ => none
    | _ => none
  | .open_ i failure =>
    match s.threads[i]? with
    | some t@⟨_, _, .opening⟩ => some (s.move i t (.after failure (.leaving ∘ .error) .locking))
    | _ => none
  | .lock i failure =>
    match s.threads[i]?, failure with
    | some t@⟨_, _, .locking⟩, some message => some (s.move i t (.leaving (.error message)))
    | some t@⟨_, _, .locking⟩, none =>
      match s.lock with
      | none => some { s.move i t .checking with lock := some i }
      | some _ => none
    | _, _ => none
  | .isRegularFile i answer =>
    match s.threads[i]? with
    | some t@⟨_, pin, .checking⟩ =>
      -- what something else put there may be a link or a directory
      match s.targets pin, answer with
      | some _, true => some (s.move i t .hashing)
      | some file, false => if file.foreign then some (s.move i t .creating) else none
      | none, false => some (s.move i t .creating)
      | none, true => none
    | _ => none
  | .undetermined i =>
    match s.threads[i]? with
    | some t@⟨_, _, .checking⟩ => some (s.move i t .creating)
    | _ => none
  | .sha256 i failure =>
    match s.threads[i]? with
    | some t@⟨_, pin, .hashing⟩ =>
      match failure, s.targets pin with
      | some message, _ => some (s.move i t (.unlocking (.error message)))
      | none, some file =>
        some (s.move i t (if m.sha256 file.bytes = pin then .unlocking (.ok ()) else .deleting))
      | none, none => none
    | some t@⟨_, pin, .verifying⟩ =>
      match failure, s.targets pin with
      | some _, _ =>
        let message := "cannot read " ++ m.target pin ++ " to check it before starting it"
        some (s.move i t (.threw message))
      | none, some file =>
        let got := m.sha256 file.bytes
        some (s.move i t (if got = pin then .starting else .discarding got))
      | none, none => none
    | _ => none
  | .delete i failure =>
    match s.threads[i]? with
    | some t@⟨_, pin, .deleting⟩ =>
      match failure, s.targets pin with
      | some message, _ => some (s.move i t (.unlocking (.error message)))
      | none, some _ => some (((s.setTarget pin none).note pin .deleted).move i t .creating)
      | none, none => none
    | _ => none
  | .temporaryFile i failure =>
    match s.threads[i]? with
    | some t@⟨_, pin, .creating⟩ =>
      match failure with
      | some message => some (s.move i t (.unlocking (.error message)))
      | none =>
        let temporary := s.made.length
        let next :=
          (s.setTemporary temporary (some ⟨[], false, false⟩)).move i t (.fetching temporary)
        some { next with made := s.made ++ [pin] }
    | _ => none
  | .fetch i failure =>
    match s.threads[i]? with
    | some t@⟨_, pin, .fetching temporary⟩ =>
      match failure with
      | some message => some (s.move i t (.cleaning temporary (.error message)))
      | none => some ((s.note pin .fetched).move i t (.truncating temporary))
    | _ => none
  | .newOutputStream i failure =>
    match s.threads[i]? with
    | some t@⟨_, _, .truncating temporary⟩ =>
      match failure, s.temporaries temporary with
      | some message, _ => some (s.move i t (.cleaning temporary (.error message)))
      | none, some file =>
        some ((s.setTemporary temporary (some { file with bytes := [] })).move i t
          (.reading temporary []))
      | none, none => none
    | _ => none
  | .read i answer =>
    match s.threads[i]? with
    | some t@⟨_, _, .reading temporary copied⟩ =>
      match answer with
      | .error message => some (s.move i t (.cleaning temporary (.error message)))
      | .ok [] => some (s.move i t (.closing temporary copied))
      | .ok buffer =>
        some (s.move i t (if maxBinary < copied.length + buffer.length then
          .cleaning temporary (.error tooLarge) else .writing temporary copied buffer))
    | _ => none
  | .write i failure =>
    match s.threads[i]? with
    | some t@⟨_, _, .writing temporary copied buffer⟩ =>
      let append (piece : Bytes) := (s.temporaries temporary).map fun file =>
        { file with bytes := file.bytes ++ piece }
      match failure with
      | some (message, missing) =>
        some ((s.setTemporary temporary (append (buffer.take (buffer.length - missing)))).move i t
          (.cleaning temporary (.error message)))
      | none =>
        some ((s.setTemporary temporary (append buffer)).move i t
          (.reading temporary (copied ++ buffer)))
    | _ => none
  | .close i failure =>
    match s.threads[i]? with
    | some t@⟨_, pin, .closing temporary copied⟩ =>
      match failure with
      | some message => some (s.move i t (.cleaning temporary (.error message)))
      | none =>
        let got := m.sha256 copied
        some (s.move i t (if got = pin then .marking temporary
          else .cleaning temporary (.error (mismatch got pin))))
    | _ => none
  | .executable i failure =>
    match s.threads[i]? with
    | some t@⟨_, _, .marking temporary⟩ =>
      match failure, s.temporaries temporary with
      | some message, _ => some (s.move i t (.cleaning temporary (.error message)))
      | none, file =>
        if !m.posix then some (s.move i t (.moving temporary))
        else
          match file with
          | some file =>
            some ((s.setTemporary temporary (some { file with executable := true })).move i t
              (.moving temporary))
          | none => none
    | _ => none
  | .move i moved =>
    match s.threads[i]? with
    | some t@⟨_, pin, .moving temporary⟩ =>
      match moved, s.temporaries temporary with
      | .done, some file =>
        some ((((s.setTarget pin (some file)).setTemporary temporary none).note
          pin .installed).move i
          t (.cleaning temporary (.ok ())))
      | .done, none => none
      | .unsupported, _ => some (s.move i t (.replacing temporary))
      | .failed message _, _ => some (s.move i t (.cleaning temporary (.error message)))
    | some t@⟨_, pin, .replacing temporary⟩ =>
      match moved, s.temporaries temporary with
      | .done, some file =>
        some ((((s.setTarget pin (some file)).setTemporary temporary none).note
          pin .installed).move i
          t (.cleaning temporary (.ok ())))
      | .failed message true, _ =>
        some ((s.setTarget pin none).move i t (.cleaning temporary (.error message)))
      | .failed message false, _ => some (s.move i t (.cleaning temporary (.error message)))
      | _, _ => none
    | _ => none
  | .deleteIfExists i failure =>
    match s.threads[i]? with
    | some t@⟨_, _, .cleaning temporary result⟩ =>
      match failure with
      | some message =>
        some { s.move i t (.unlocking (.error message)) with
          abandoned := s.abandoned ++ [temporary] }
      | none => some ((s.setTemporary temporary none).move i t (.unlocking result))
    | some t@⟨_, pin, .discarding got⟩ =>
      let threw := Point.threw (changed (m.target pin) got pin)
      match failure with
      | some _ => some (s.move i t threw)
      | none => some (((s.setTarget pin none).note pin .deleted).move i t threw)
    | _ => none
  | .unlock i failure =>
    match s.threads[i]? with
    | some t@⟨_, _, .unlocking result⟩ =>
      some { s.move i t (.leaving (closed result failure)) with lock := none }
    | _ => none
  | .exit i =>
    match s.threads[i]? with
    | some t@⟨jvm, _, .leaving result⟩ =>
      let point := match result with
        | .ok () => .returned
        | .error message => .threw message
      some { s.move i t point with monitors := Function.update s.monitors jvm none }
    | _ => none
  | .exec i failure =>
    match s.threads[i]? with
    | some t@⟨_, pin, .starting⟩ =>
      match failure, s.targets pin with
      | some message, _ => some (s.move i t (.threw message))
      | none, some file => some ((s.note pin (.ran file)).move i t .started)
      | none, none => none
    | _ => none
  | .kill jvm => some (s.kill jvm)
  | .meddle pin file => some (s.setTarget pin (foreignFile file))
  | .meddleTemporary temporary file =>
    if temporary < s.made.length then some (s.setTemporary temporary (foreignFile file)) else none

/-- The states reached from an empty directory. -/
def State.run (events : List Event) : Option State := events.foldlM (State.step m) {}

end ServerBinary

end JavaWasm

end ReceiptVerifier
