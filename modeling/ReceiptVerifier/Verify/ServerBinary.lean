import ReceiptVerifier.JavaWasm.ServerBinary
import ReceiptVerifier.Lib.Lease

/-!
# Installed binaries

Over every run of the threads of any number of JVMs, with failures, kills and foreign writes at any
point: one thread installs at a time, and nothing an installation leaves executable, and nothing
that is started, hashes to anything but its pin. Where nothing else writes in the directory and what
is there can be told, a binary is installed once and fetched no more.
-/

namespace ReceiptVerifier.JavaWasm.ServerBinary

variable {m : Machine} {s s' : State} {i j : Nat} {t t' : Thread}

namespace State

theorem setTarget_self (s : State) (pin : String) (file : Option File) :
    (s.setTarget pin file).targets pin = file :=
  Function.update_self ..

theorem setTarget_of_ne (s : State) {pin pin' : String} (other : pin' ≠ pin) (file : Option File) :
    (s.setTarget pin file).targets pin' = s.targets pin' :=
  Function.update_of_ne other ..

theorem setTemporary_self (s : State) (temporary : Nat) (file : Option File) :
    (s.setTemporary temporary file).temporaries temporary = file :=
  Function.update_self ..

theorem setTemporary_of_ne (s : State) {temporary n : Nat} (other : n ≠ temporary)
    (file : Option File) : (s.setTemporary temporary file).temporaries n = s.temporaries n :=
  Function.update_of_ne other ..

end State

namespace Point

/-- In `install`, where the target was not there and is not yet. -/
def busy : Point → Bool
  | creating | fetching _ | truncating _ | reading _ _ | writing _ _ _ | closing _ _ | marking _
  | moving _ | replacing _ => true
  | _ => false

/-- In `install`, which found the target or put it there. -/
def settled : Point → Bool
  | cleaning _ (.ok _) | unlocking (.ok _) | leaving (.ok _) | returned => true
  | _ => false

/-- Before it deletes the target. -/
def removes : Point → Bool
  | deleting | discarding _ => true
  | _ => false

end Point

/-! ## What a thread relies on -/

/-- What an installed file is. -/
structure Machine.Pinned (m : Machine) (pin : String) (file : File) : Prop where
  sha256 : m.sha256 file.bytes = pin
  executable : file.executable = m.posix

/-- What is known of the temporary file of a thread. -/
def Point.Fits (m : Machine) (pin : String) (file : File) : Point → Prop
  | .fetching _ | .truncating _ => file.executable = false
  | .reading _ copied | .writing _ copied _ | .closing _ copied =>
    file.bytes = copied ∧ file.executable = false
  | .marking _ => m.sha256 file.bytes = pin ∧ file.executable = false
  | .moving _ | .replacing _ => m.Pinned pin file
  | .cleaning _ _ => file.executable = true → m.sha256 file.bytes = pin
  | _ => True

theorem Point.Fits.sha256 {pin : String} {file : File} {point : Point} {temporary : Nat}
    (fits : point.Fits m pin file) (own : point.temporary = some temporary)
    (executable : file.executable = true) : m.sha256 file.bytes = pin := by
  cases point with
  | moving _ | replacing _ => exact Machine.Pinned.sha256 fits
  | marking _ => exact fits.1
  | cleaning _ _ => exact fits executable
  | fetching _ | truncating _ =>
    exact absurd executable (by simp [show file.executable = false from fits])
  | reading _ _ | writing _ _ _ | closing _ _ => exact absurd executable (by simp [fits.2])
  | _ => cases own

theorem Point.synchronized_of_locked {point : Point} (locked : point.locked = true) :
    point.synchronized = true := by
  cases point <;> first | rfl | cases locked

theorem Point.locked_of_temporary {point : Point} {temporary : Nat}
    (own : point.temporary = some temporary) : point.locked = true := by
  cases point <;> first | rfl | cases own

structure Thread.Ok (m : Machine) (s : State) (i : Nat) (t : Thread) : Prop where
  locked : t.point.locked = true → s.lock = some i
  synchronized : t.point.synchronized = true → s.monitors t.jvm = some i
  made : ∀ temporary, t.point.temporary = some temporary → s.made[temporary]? = some t.pin
  fits : ∀ temporary file, t.point.temporary = some temporary →
    s.temporaries temporary = some file → file.foreign = false → t.point.Fits m t.pin file

structure Sound (m : Machine) (s : State) : Prop where
  threads : ∀ i (t : Thread), s.threads[i]? = some t → t.Ok m s i
  holder : ∀ i, s.lock = some i → ∃ t : Thread, s.threads[i]? = some t ∧ t.point.locked = true
  targets : ∀ pin file, s.targets pin = some file → file.foreign = false → m.Pinned pin file
  temporaries : ∀ temporary file, s.temporaries temporary = some file →
    ∃ pin, s.made[temporary]? = some pin ∧
      (file.foreign = false → file.executable = true → m.sha256 file.bytes = pin)
  owned : ∀ temporary file, s.temporaries temporary = some file → file.foreign = false →
    temporary ∈ s.abandoned ∨ ∃ (i : Nat) (t : Thread), s.threads[i]? = some t ∧
      t.point.temporary = some temporary
  ran : ∀ pin file, (pin, .ran file) ∈ s.log → file.foreign = false → m.sha256 file.bytes = pin

namespace Sound

variable (sound : Sound m s)

include sound

theorem locked_unique (at_ : s.threads[i]? = some t) (at' : s.threads[j]? = some t')
    (locked : t.point.locked = true) (locked' : t'.point.locked = true) : i = j :=
  Option.some.inj (((sound.threads i t at_).locked locked).symm.trans
    ((sound.threads j t' at').locked locked'))

/-- A temporary file is one thread's. -/
theorem temporary_unique (at_ : s.threads[i]? = some t) (at' : s.threads[j]? = some t')
    {temporary : Nat} (own : t.point.temporary = some temporary)
    (own' : t'.point.temporary = some temporary) : i = j :=
  sound.locked_unique at_ at' (Point.locked_of_temporary own) (Point.locked_of_temporary own')

end Sound

/-! ## What a step can do -/

/-- Nothing else writes in the directory, and what is there can be told. -/
def Event.calm : Event → Bool
  | .meddle _ _ | .meddleTemporary _ _ | .undetermined _ => false
  | _ => true

/-- A thread moves on, with the locks and the temporary file it has. -/
structure Thread.Goes (m : Machine) (s : State) (t : Thread) (point : Point) : Prop where
  locked : point.locked = t.point.locked
  synchronized : point.synchronized = t.point.synchronized
  temporary : point.temporary = t.point.temporary
  fits : ∀ file, t.point.Fits m t.pin file → point.Fits m t.pin file
  busy : point.busy = true →
    t.point.busy = true ∨ ∀ file, s.targets t.pin = some file → file.foreign = true
  settled : point.settled = true → t.point.settled = true ∨ (s.targets t.pin).isSome = true
  removes : point.removes = true →
    ∃ file, s.targets t.pin = some file ∧ m.sha256 file.bytes ≠ t.pin

inductive Steps (m : Machine) (s : State) (e : Event) : State → Prop
  | enter {t : Thread} (outside : t.point = .entering ∨ t.point = .verifying) :
      Steps m s e { s with threads := s.threads ++ [t] }
  | pass {i : Nat} {t : Thread} (at_ : s.threads[i]? = some t) {point : Point}
      (goes : t.Goes m s point) : Steps m s e (s.move i t point)
  /-- The target may be there. -/
  | unseen (stirred : e.calm = false) {i jvm : Nat} {pin : String}
      (at_ : s.threads[i]? = some ⟨jvm, pin, .checking⟩) :
      Steps m s e (s.move i ⟨jvm, pin, .checking⟩ .creating)
  | synchronize {i jvm : Nat} {pin : String} (at_ : s.threads[i]? = some ⟨jvm, pin, .waiting⟩)
      (free : s.monitors jvm = none) :
      Steps m s e { s.move i ⟨jvm, pin, .waiting⟩ .opening with
        monitors := Function.update s.monitors jvm (some i) }
  | lock {i jvm : Nat} {pin : String} (at_ : s.threads[i]? = some ⟨jvm, pin, .locking⟩)
      (free : s.lock = none) :
      Steps m s e { s.move i ⟨jvm, pin, .locking⟩ .checking with lock := some i }
  | unlock {i jvm : Nat} {pin : String} {result : Except String Unit}
      (at_ : s.threads[i]? = some ⟨jvm, pin, .unlocking result⟩) (failure : Option String) :
      Steps m s e { s.move i ⟨jvm, pin, .unlocking result⟩ (.leaving (closed result failure)) with
        lock := none }
  | exit {i jvm : Nat} {pin : String} {result : Except String Unit}
      (at_ : s.threads[i]? = some ⟨jvm, pin, .leaving result⟩) {point : Point}
      (outcome : point = .returned ∧ result = .ok () ∨ ∃ message, point = .threw message) :
      Steps m s e { s.move i ⟨jvm, pin, .leaving result⟩ point with
        monitors := Function.update s.monitors jvm none }
  | remove {i : Nat} {t : Thread} (at_ : s.threads[i]? = some t) {point : Point}
      (outcome : t.point = .deleting ∧ point = .creating ∨
        ∃ got message, t.point = .discarding got ∧ point = .threw message) :
      Steps m s e (((s.setTarget t.pin none).note t.pin .deleted).move i t point)
  | create {i : Nat} {t : Thread} (at_ : s.threads[i]? = some t) (creating : t.point = .creating) :
      Steps m s e { (s.setTemporary s.made.length (some ⟨[], false, false⟩)).move i t
        (.fetching s.made.length) with made := s.made ++ [t.pin] }
  | fetch {i jvm : Nat} {pin : String} {temporary : Nat}
      (at_ : s.threads[i]? = some ⟨jvm, pin, .fetching temporary⟩) :
      Steps m s e ((s.note pin .fetched).move i ⟨jvm, pin, .fetching temporary⟩
        (.truncating temporary))
  | carry {i : Nat} {t : Thread} (at_ : s.threads[i]? = some t) {temporary : Nat}
      (own : t.point.temporary = some temporary) (f : File → File) (point : Point)
      (keeps : point.temporary = some temporary) (quiet : point.settled = false)
      (busy : point.busy = true → t.point.busy = true)
      (fits : ∀ file, t.point.Fits m t.pin file → point.Fits m t.pin (f file))
      (foreign : ∀ file, (f file).foreign = file.foreign) :
      Steps m s e ((s.setTemporary temporary ((s.temporaries temporary).map f)).move i t point)
  | moved {i : Nat} {t : Thread} (at_ : s.threads[i]? = some t) {temporary : Nat}
      (point : t.point = .moving temporary ∨ t.point = .replacing temporary) {file : File}
      (has : s.temporaries temporary = some file) :
      Steps m s e ((((s.setTarget t.pin (some file)).setTemporary temporary none).note t.pin
        .installed).move i t (.cleaning temporary (.ok ())))
  | lost {i jvm : Nat} {pin : String} {temporary : Nat}
      (at_ : s.threads[i]? = some ⟨jvm, pin, .replacing temporary⟩) (message : String) :
      Steps m s e ((s.setTarget pin none).move i ⟨jvm, pin, .replacing temporary⟩
        (.cleaning temporary (.error message)))
  | clean {i jvm : Nat} {pin : String} {temporary : Nat} {result : Except String Unit}
      (at_ : s.threads[i]? = some ⟨jvm, pin, .cleaning temporary result⟩) :
      Steps m s e ((s.setTemporary temporary none).move i ⟨jvm, pin, .cleaning temporary result⟩
        (.unlocking result))
  | abandon {i jvm : Nat} {pin : String} {temporary : Nat} {result : Except String Unit}
      (at_ : s.threads[i]? = some ⟨jvm, pin, .cleaning temporary result⟩) (message : String) :
      Steps m s e
        { s.move i ⟨jvm, pin, .cleaning temporary result⟩ (.unlocking (.error message)) with
        abandoned := s.abandoned ++ [temporary] }
  | exec {i jvm : Nat} {pin : String} (at_ : s.threads[i]? = some ⟨jvm, pin, .starting⟩)
    {file : File}
      (has : s.targets pin = some file) :
      Steps m s e ((s.note pin (.ran file)).move i ⟨jvm, pin, .starting⟩ .started)
  | kill (jvm : Nat) : Steps m s e (s.kill jvm)
  | meddle (stirred : e.calm = false) (pin : String) (file : Option (Bytes × Bool)) :
      Steps m s e (s.setTarget pin (foreignFile file))
  | meddleTemporary (stirred : e.calm = false) {temporary : Nat}
    (inside : temporary < s.made.length)
      (file : Option (Bytes × Bool)) :
      Steps m s e (s.setTemporary temporary (foreignFile file))

/-- Where no temporary file is concerned, nor a target. -/
theorem Thread.Goes.plain {t : Thread} {point : Point} (locked : point.locked = t.point.locked)
    (synchronized : point.synchronized = t.point.synchronized)
    (temporary : point.temporary = t.point.temporary)
    (fits : ∀ file, t.point.Fits m t.pin file → point.Fits m t.pin file)
    (busy : point.busy = true → t.point.busy = true)
    (settled : point.settled = true → t.point.settled = true)
    (removes : point.removes = false) : t.Goes m s point where
  locked := locked
  synchronized := synchronized
  temporary := temporary
  fits := fits
  busy own := .inl (busy own)
  settled own := .inl (settled own)
  removes own := by rw [removes] at own; cases own

/-- A file that may not be executed needs no pin. -/
theorem fits_cleaning {pin : String} {file : File} (still : file.executable = false)
    {temporary : Nat} {result : Except String Unit} :
    (Point.cleaning temporary result).Fits m pin file :=
  fun executable => absurd (still.symm.trans executable) nofun

theorem steps_of_step {e : Event} (h : s.step m e = some s') : Steps m s e s' := by
  cases e with
  | install jvm pin =>
    cases h
    exact .enter (.inl rfl)
  | start jvm pin =>
    cases h
    exact .enter (.inr rfl)
  | ownerOnlyDirectory i failure =>
    simp only [State.step] at h
    split at h
    · next at_ =>
      cases h
      cases failure with
      | none => exact .pass at_ (.plain rfl rfl rfl (fun _ => id) nofun nofun rfl)
      | some _ => exact .pass at_ (.plain rfl rfl rfl (fun _ => id) nofun nofun rfl)
    · cases h
  | synchronized i =>
    simp only [State.step] at h
    split at h
    · next at_ =>
      split at h
      · next free =>
        cases h
        exact .synchronize at_ free
      · cases h
    · cases h
  | open_ i failure =>
    simp only [State.step] at h
    split at h
    · next at_ =>
      cases h
      cases failure with
      | none => exact .pass at_ (.plain rfl rfl rfl (fun _ => id) nofun nofun rfl)
      | some _ => exact .pass at_ (.plain rfl rfl rfl (fun _ => id) nofun nofun rfl)
    · cases h
  | lock i failure =>
    simp only [State.step] at h
    split at h
    · next at_ =>
      cases h
      exact .pass at_ (.plain rfl rfl rfl (fun _ => id) nofun nofun rfl)
    · next at_ =>
      split at h
      · next free =>
        cases h
        exact .lock at_ free
      · cases h
    · cases h
  | isRegularFile i answer =>
    simp only [State.step] at h
    split at h
    · next at_ =>
      split at h
      · cases h
        exact .pass at_ (.plain rfl rfl rfl (fun _ => id) nofun nofun rfl)
      · next file has =>
        split at h
        · next foreign =>
          cases h
          refine .pass at_
            ⟨rfl, rfl, rfl, fun _ => id, fun _ => .inr fun f found => ?_, nofun, nofun⟩
          obtain rfl := Option.some.inj (has.symm.trans found)
          exact foreign
        · cases h
      · next has =>
        cases h
        refine .pass at_ ⟨rfl, rfl, rfl, fun _ => id, fun _ => .inr fun f found => ?_, nofun, nofun⟩
        exact absurd (has.symm.trans found) nofun
      · cases h
    · cases h
  | undetermined i =>
    simp only [State.step] at h
    split at h
    · next at_ =>
      cases h
      exact .unseen rfl at_
    · cases h
  | sha256 i failure =>
    simp only [State.step] at h
    split at h
    · next at_ =>
      split at h
      · cases h
        exact .pass at_ (.plain rfl rfl rfl (fun _ => id) nofun nofun rfl)
      · next file has =>
        cases h
        split
        · refine .pass at_ ⟨rfl, rfl, rfl, fun _ => id, nofun, fun _ => .inr ?_, nofun⟩
          exact Option.isSome_iff_exists.mpr ⟨file, has⟩
        · next differs =>
          exact .pass at_ ⟨rfl, rfl, rfl, fun _ => id, nofun, nofun, fun _ => ⟨file, has, differs⟩⟩
      · cases h
    · next at_ =>
      split at h
      · cases h
        exact .pass at_ (.plain rfl rfl rfl (fun _ => id) nofun nofun rfl)
      · next file has =>
        cases h
        split
        · exact .pass at_ (.plain rfl rfl rfl (fun _ => id) nofun nofun rfl)
        · next differs =>
          exact .pass at_ ⟨rfl, rfl, rfl, fun _ => id, nofun, nofun, fun _ => ⟨file, has, differs⟩⟩
      · cases h
    · cases h
  | delete i failure =>
    simp only [State.step] at h
    split at h
    · next at_ =>
      split at h
      · cases h
        exact .pass at_ (.plain rfl rfl rfl (fun _ => id) nofun nofun rfl)
      · cases h
        exact .remove at_ (.inl ⟨rfl, rfl⟩)
      · cases h
    · cases h
  | temporaryFile i failure =>
    simp only [State.step] at h
    split at h
    · next at_ =>
      split at h
      · cases h
        exact .pass at_ (.plain rfl rfl rfl (fun _ => id) nofun nofun rfl)
      · cases h
        exact .create at_ rfl
    · cases h
  | fetch i failure =>
    simp only [State.step] at h
    split at h
    · next at_ =>
      split at h
      · cases h
        exact .pass at_ (.plain rfl rfl rfl (fun _ still => fits_cleaning still) nofun nofun rfl)
      · cases h
        exact .fetch at_
    · cases h
  | newOutputStream i failure =>
    simp only [State.step] at h
    split at h
    · next temporary at_ =>
      split at h
      · cases h
        exact .pass at_ (.plain rfl rfl rfl (fun _ still => fits_cleaning still) nofun nofun rfl)
      · next file has =>
        cases h
        have carry := Steps.carry (m := m) (e := .newOutputStream i none) at_ rfl
          (fun file => { file with bytes := [] }) (.reading temporary []) rfl rfl
          (fun _ => rfl) (fun _ still => ⟨rfl, still⟩) fun _ => rfl
        rwa [has] at carry
      · cases h
    · cases h
  | read i answer =>
    simp only [State.step] at h
    split at h
    · next at_ =>
      split at h
      · cases h
        exact .pass at_ (.plain rfl rfl rfl (fun _ fits => fits_cleaning fits.2) nofun nofun rfl)
      · cases h
        exact .pass at_ (.plain rfl rfl rfl (fun _ => id) (fun _ => rfl) nofun rfl)
      · cases h
        split
        · exact .pass at_ (.plain rfl rfl rfl (fun _ fits => fits_cleaning fits.2) nofun nofun rfl)
        · exact .pass at_ (.plain rfl rfl rfl (fun _ => id) (fun _ => rfl) nofun rfl)
    · cases h
  | write i failure =>
    simp only [State.step] at h
    split at h
    · next at_ =>
      split at h
      · cases h
        refine .carry at_ rfl _ _ rfl rfl nofun (fun _ fits => ?_) fun _ => rfl
        exact fun executable => absurd (executable.symm.trans fits.2) nofun
      · cases h
        refine .carry at_ rfl _ _ rfl rfl (fun _ => rfl) (fun _ fits => ?_) fun _ => rfl
        exact ⟨congrArg (· ++ _) fits.1, fits.2⟩
    · cases h
  | close i failure =>
    simp only [State.step] at h
    split at h
    · next at_ =>
      split at h
      · cases h
        exact .pass at_ (.plain rfl rfl rfl (fun _ fits => fits_cleaning fits.2) nofun nofun rfl)
      · cases h
        split
        · next pinned =>
          refine .pass at_ (.plain rfl rfl rfl (fun _ fits => ?_) (fun _ => rfl) nofun rfl)
          exact ⟨(congrArg m.sha256 fits.1).trans pinned, fits.2⟩
        · exact .pass at_ (.plain rfl rfl rfl (fun _ fits => fits_cleaning fits.2) nofun nofun rfl)
    · cases h
  | executable i failure =>
    simp only [State.step] at h
    split at h
    · next temporary at_ =>
      split at h
      · cases h
        exact .pass at_ (.plain rfl rfl rfl (fun _ fits => fits_cleaning fits.2) nofun nofun rfl)
      · split at h
        · next posix =>
          cases h
          have plain : m.posix = false := by simpa using posix
          refine .pass at_ (.plain rfl rfl rfl (fun _ fits => ?_) (fun _ => rfl) nofun rfl)
          exact ⟨fits.1, fits.2.trans plain.symm⟩
        · next posix =>
          have own : m.posix = true := by simpa using posix
          split at h
          · next _ file has =>
            cases h
            have carry := Steps.carry (m := m) (e := .executable i none) at_ rfl
              (fun file => { file with executable := true }) (.moving temporary) rfl rfl
              (fun _ => rfl) (fun _ fits => ⟨fits.1, own.symm⟩) fun _ => rfl
            rwa [has] at carry
          · cases h
    · cases h
  | move i moved =>
    simp only [State.step] at h
    split at h
    · next at_ =>
      split at h
      · next has =>
        cases h
        exact .moved at_ (.inl rfl) has
      · cases h
      · cases h
        exact .pass at_ (.plain rfl rfl rfl (fun _ => id) (fun _ => rfl) nofun rfl)
      · cases h
        exact .pass at_
          (.plain rfl rfl rfl (fun _ fits _ => Machine.Pinned.sha256 fits) nofun nofun rfl)
    · next at_ =>
      split at h
      · next has =>
        cases h
        exact .moved at_ (.inr rfl) has
      · cases h
        exact .lost at_ _
      · cases h
        exact .pass at_
          (.plain rfl rfl rfl (fun _ fits _ => Machine.Pinned.sha256 fits) nofun nofun rfl)
      · cases h
    · cases h
  | deleteIfExists i failure =>
    simp only [State.step] at h
    split at h
    · next at_ =>
      split at h
      · cases h
        exact .abandon at_ _
      · cases h
        exact .clean at_
    · next at_ =>
      split at h
      · cases h
        exact .pass at_ (.plain rfl rfl rfl (fun _ => id) nofun nofun rfl)
      · cases h
        exact .remove at_ (.inr ⟨_, _, rfl, rfl⟩)
    · cases h
  | unlock i failure =>
    simp only [State.step] at h
    split at h
    · next at_ =>
      cases h
      exact .unlock at_ failure
    · cases h
  | exit i =>
    simp only [State.step] at h
    split at h
    · next result at_ =>
      cases h
      cases result with
      | ok _ => exact .exit at_ (.inl ⟨rfl, rfl⟩)
      | error message => exact .exit at_ (.inr ⟨message, rfl⟩)
    · cases h
  | exec i failure =>
    simp only [State.step] at h
    split at h
    · next at_ =>
      split at h
      · cases h
        exact .pass at_ (.plain rfl rfl rfl (fun _ => id) nofun nofun rfl)
      · next has =>
        cases h
        exact .exec at_ has
      · cases h
    · cases h
  | kill jvm =>
    cases h
    exact .kill jvm
  | meddle pin file =>
    cases h
    exact .meddle rfl pin file
  | meddleTemporary n file =>
    simp only [State.step] at h
    split at h
    · next inside =>
      cases h
      exact .meddleTemporary rfl inside file
    · cases h

/-! ## What a step keeps -/

theorem getElem?_set_cases {threads : List Thread} {x : Thread}
    (at_ : (threads.set i t')[j]? = some x) (inside : threads[i]? = some t) :
    (j = i ∧ x = t') ∨ (j ≠ i ∧ threads[j]? = some x) := by
  by_cases same : i = j
  · subst same
    have bound := (List.getElem?_eq_some_iff.mp inside).1
    rw [List.getElem?_set_self bound] at at_
    exact .inl ⟨rfl, (Option.some.inj at_).symm⟩
  · rw [List.getElem?_set_ne same] at at_
    exact .inr ⟨fun eq => same eq.symm, at_⟩

theorem getElem?_set_of_ne {threads : List Thread} (at_ : threads[j]? = some t) (other : j ≠ i) :
    (threads.set i t')[j]? = some t := by
  rwa [List.getElem?_set_ne fun eq => other eq.symm]

theorem getElem?_set_own {threads : List Thread} (at_ : threads[i]? = some t) :
    (threads.set i t')[i]? = some t' :=
  List.getElem?_set_self (List.getElem?_eq_some_iff.mp at_).1

/-- A thread comes, with no lock. -/
theorem Sound.enter (sound : Sound m s) (t : Thread) (outside : t.point.synchronized = false) :
    Sound m { s with threads := s.threads ++ [t] } := by
  have kept : ∀ {j : Nat} {x : Thread}, s.threads[j]? = some x →
      (s.threads ++ [t])[j]? = some x := by
    intro j x at_
    rw [List.getElem?_append_left (List.getElem?_eq_some_iff.mp at_).1]
    exact at_
  have unlocked : t.point.locked = false := by
    cases locked : t.point.locked with
    | false => rfl
    | true => rw [Point.synchronized_of_locked locked] at outside; cases outside
  have bare : t.point.temporary = none := by
    cases own : t.point.temporary with
    | none => rfl
    | some _ => rw [Point.locked_of_temporary own] at unlocked; cases unlocked
  refine { sound with threads := fun j x at_ => ?_, holder := fun j holds => ?_, owned := ?_ }
  · rcases Nat.lt_or_ge j s.threads.length with before | after
    · have own : s.threads[j]? = some x := by
        rwa [List.getElem?_append_left before] at at_
      have ok := sound.threads j x own
      exact { ok with }
    · obtain ⟨rfl, rfl⟩ : j = s.threads.length ∧ t = x := by
        rw [List.getElem?_append_right after] at at_
        have inside := (List.getElem?_eq_some_iff.mp at_).1
        simp only [List.length_singleton] at inside
        have zero : j - s.threads.length = 0 := by omega
        rw [zero] at at_
        exact ⟨by omega, Option.some.inj at_⟩
      exact ⟨by simp [unlocked], by simp [outside], by simp [bare], by simp [bare]⟩
  · obtain ⟨x, at_, locked⟩ := sound.holder j holds
    exact ⟨x, kept at_, locked⟩
  · intro temporary file at_ own
    rcases sound.owned temporary file at_ own with gone | ⟨j, x, where_, has⟩
    · exact .inl gone
    · exact .inr ⟨j, x, kept where_, has⟩

/-- A thread moves on, with the locks it has and the temporary file it has. -/
theorem Sound.pass (sound : Sound m s) (at_ : s.threads[i]? = some t) {point : Point}
    (locked : point.locked = t.point.locked)
    (synchronized : point.synchronized = t.point.synchronized)
    (temporary : point.temporary = t.point.temporary)
    (fits : ∀ temporary file, t.point.temporary = some temporary →
      s.temporaries temporary = some file → file.foreign = false →
      t.point.Fits m t.pin file → point.Fits m t.pin file) :
    Sound m (s.move i t point) := by
  have ok := sound.threads i t at_
  refine { sound with threads := fun j x at' => ?_, holder := fun j holds => ?_, owned := ?_ }
  · rcases getElem?_set_cases at' at_ with ⟨rfl, rfl⟩ | ⟨_, at'⟩
    · refine ⟨?_, ?_, ?_, ?_⟩
      · exact fun own => ok.locked (locked ▸ own)
      · exact fun own => ok.synchronized (synchronized ▸ own)
      · exact fun n own => ok.made n (temporary ▸ own)
      · intro n file own has native
        exact fits n file (temporary ▸ own) has native (ok.fits n file (temporary ▸ own) has native)
    · have other := sound.threads j x at'
      exact { other with }
  · obtain ⟨x, at', own⟩ := sound.holder j holds
    by_cases same : j = i
    · subst same
      obtain rfl := Option.some.inj (at_.symm.trans at')
      exact ⟨_, getElem?_set_own at_, locked.trans own⟩
    · exact ⟨x, getElem?_set_of_ne at' same, own⟩
  · intro n file has native
    rcases sound.owned n file has native with gone | ⟨j, x, at', own⟩
    · exact .inl gone
    · by_cases same : j = i
      · subst same
        obtain rfl := Option.some.inj (at_.symm.trans at')
        exact .inr ⟨j, _, getElem?_set_own at_, temporary.trans own⟩
      · exact .inr ⟨j, x, getElem?_set_of_ne at' same, own⟩

theorem Sound.setTarget (sound : Sound m s) (pin : String) (file : Option File)
    (pinned : ∀ f, file = some f → f.foreign = false → m.Pinned pin f) :
    Sound m (s.setTarget pin file) := by
  refine { sound with threads := fun j x at_ => ?_, targets := fun pin' f at_ native => ?_ }
  · have ok := sound.threads j x at_
    exact { ok with }
  · by_cases same : pin' = pin
    · subst same
      exact pinned f ((s.setTarget_self pin' file).symm.trans at_) native
    · exact sound.targets pin' f ((s.setTarget_of_ne same file).symm.trans at_) native

theorem Sound.note (sound : Sound m s) (pin : String) (deed : Deed)
    (ran : ∀ file, deed = .ran file → file.foreign = false → m.sha256 file.bytes = pin) :
    Sound m (s.note pin deed) := by
  refine { sound with threads := fun j x at_ => ?_, ran := fun pin' file mem native => ?_ }
  · have ok := sound.threads j x at_
    exact { ok with }
  · rcases List.mem_append.mp mem with before | last
    · exact sound.ran pin' file before native
    · obtain ⟨rfl, rfl⟩ := Prod.mk.inj (List.mem_singleton.mp last)
      exact ran file rfl native

/-- A temporary file changes, and its thread moves on. -/
theorem Sound.carry (sound : Sound m s) (at_ : s.threads[i]? = some t) {point : Point}
    {temporary : Nat}
    {file : Option File} (own : t.point.temporary = some temporary)
    (keeps : point.temporary = some temporary)
    (fits : ∀ f, file = some f → f.foreign = false → point.Fits m t.pin f) :
    Sound m ((s.setTemporary temporary file).move i t point) := by
  have ok := sound.threads i t at_
  have locked := Point.locked_of_temporary own
  have elsewhere : ∀ {j : Nat} {x : Thread} {n : Nat}, s.threads[j]? = some x → j ≠ i →
    x.point.temporary = some n →
      n ≠ temporary := by
    rintro j x n at' other has rfl
    exact other (sound.temporary_unique at' at_ has own)
  refine { sound with
    threads := fun j x at' => ?_
    holder := fun j holds => ?_
    temporaries := fun n f has => ?_
    owned := fun n f has native => ?_ }
  · rcases getElem?_set_cases at' at_ with ⟨rfl, rfl⟩ | ⟨other, at'⟩
    · refine ⟨fun _ => ok.locked locked, fun _ => ok.synchronized
        (Point.synchronized_of_locked locked), fun n has => ?_, fun n f has here native => ?_⟩
      · obtain rfl := Option.some.inj (keeps.symm.trans has)
        exact ok.made temporary own
      · obtain rfl := Option.some.inj (keeps.symm.trans has)
        exact fits f ((s.setTemporary_self temporary file).symm.trans here) native
    · have kept := sound.threads j x at'
      refine { kept with fits := fun n f has here native => ?_ }
      exact kept.fits n f has
        ((s.setTemporary_of_ne (elsewhere at' other has) file).symm.trans here) native
  · obtain ⟨x, at', holding⟩ := sound.holder j holds
    by_cases same : j = i
    · subst same
      exact ⟨_, getElem?_set_own at_, Point.locked_of_temporary keeps⟩
    · exact ⟨x, getElem?_set_of_ne at' same, holding⟩
  · by_cases same : n = temporary
    · subst same
      refine ⟨t.pin, ok.made n own, fun native executable => ?_⟩
      exact (fits f ((s.setTemporary_self n file).symm.trans has) native).sha256 keeps executable
    · exact sound.temporaries n f ((s.setTemporary_of_ne same file).symm.trans has)
  · by_cases same : n = temporary
    · subst same
      exact .inr ⟨i, _, getElem?_set_own at_, keeps⟩
    · rcases sound.owned n f ((s.setTemporary_of_ne same file).symm.trans has) native with
        gone | ⟨j, x, at', has'⟩
      · exact .inl gone
      · by_cases here : j = i
        · subst here
          obtain rfl := Option.some.inj (at_.symm.trans at')
          exact absurd (Option.some.inj (has'.symm.trans own)) same
        · exact .inr ⟨j, x, getElem?_set_of_ne at' here, has'⟩

/-- Nobody knows anything of a temporary file that is gone, or that something else wrote. -/
theorem Sound.setForeign (sound : Sound m s) (n : Nat) (file : Option File)
    (foreign : ∀ f, file = some f → f.foreign = true ∧ n < s.made.length) :
    Sound m (s.setTemporary n file) := by
  refine { sound with
    threads := fun j x at_ => ?_
    temporaries := fun n' f has => ?_
    owned := fun n' f has native => ?_ }
  · have ok := sound.threads j x at_
    refine { ok with fits := fun n' f own has native => ?_ }
    by_cases same : n' = n
    · subst same
      have other := (foreign f ((s.setTemporary_self n' file).symm.trans has)).1
      rw [native] at other
      cases other
    · exact ok.fits n' f own ((s.setTemporary_of_ne same file).symm.trans has) native
  · by_cases same : n' = n
    · subst same
      obtain ⟨other, inside⟩ := foreign f ((s.setTemporary_self n' file).symm.trans has)
      exact ⟨_, List.getElem?_eq_getElem inside, fun native => by rw [native] at other; cases other⟩
    · exact sound.temporaries n' f ((s.setTemporary_of_ne same file).symm.trans has)
  · by_cases same : n' = n
    · subst same
      have other := (foreign f ((s.setTemporary_self n' file).symm.trans has)).1
      rw [native] at other
      cases other
    · exact sound.owned n' f ((s.setTemporary_of_ne same file).symm.trans has) native

theorem Sound.abandon (sound : Sound m s) (more : List Nat) :
    Sound m { s with abandoned := s.abandoned ++ more } := by
  refine { sound with threads := fun j x at_ => ?_, owned := fun n f has native => ?_ }
  · have ok := sound.threads j x at_
    exact { ok with }
  · rcases sound.owned n f has native with gone | own
    · exact .inl (List.mem_append_left _ gone)
    · exact .inr own

/-- A thread leaves its temporary file, which is gone or given up. -/
theorem Sound.leave (sound : Sound m s) (at_ : s.threads[i]? = some t) {point : Point}
    {temporary : Nat} (own : t.point.temporary = some temporary)
    (gone : ∀ f, s.temporaries temporary = some f → temporary ∈ s.abandoned)
    (bare : point.temporary = none) (locked : point.locked = true) :
    Sound m (s.move i t point) := by
  have ok := sound.threads i t at_
  have holds := ok.locked (Point.locked_of_temporary own)
  refine { sound with
    threads := fun j x at' => ?_
    holder := fun j holds' => ?_
    owned := fun n f has native => ?_ }
  · rcases getElem?_set_cases at' at_ with ⟨rfl, rfl⟩ | ⟨_, at'⟩
    · refine ⟨fun _ => holds, fun _ => ok.synchronized (Point.synchronized_of_locked
        (Point.locked_of_temporary own)), ?_, ?_⟩
      · exact fun n has => absurd (bare.symm.trans has) nofun
      · exact fun n f has => absurd (bare.symm.trans has) nofun
    · have other := sound.threads j x at'
      exact { other with }
  · obtain rfl := Option.some.inj (holds.symm.trans holds')
    exact ⟨_, getElem?_set_own at_, locked⟩
  · rcases sound.owned n f has native with given | ⟨j, x, at', has'⟩
    · exact .inl given
    · by_cases same : j = i
      · subst same
        obtain rfl := Option.some.inj (at_.symm.trans at')
        obtain rfl := Option.some.inj (has'.symm.trans own)
        exact .inl (gone f has)
      · exact .inr ⟨j, x, getElem?_set_of_ne at' same, has'⟩

/-- A thread without a temporary file takes a lock or gives one back. -/
theorem Sound.relock (sound : Sound m s) (at_ : s.threads[i]? = some t) {point : Point}
    {lock : Option Nat} {monitors : Nat → Option Nat} (had : t.point.temporary = none)
    (bare : point.temporary = none) (own : point.locked = true ↔ lock = some i)
    (others : ∀ j, j ≠ i → (lock = some j ↔ s.lock = some j))
    (enters : point.synchronized = true → monitors t.jvm = some i)
    (kept : ∀ j jvm, j ≠ i → s.monitors jvm = some j → monitors jvm = some j) :
    Sound m { s.move i t point with lock := lock, monitors := monitors } := by
  refine { sound with
    threads := fun j x at' => ?_
    holder := fun j holds => ?_
    owned := fun n f has native => ?_ }
  · rcases getElem?_set_cases at' at_ with ⟨rfl, rfl⟩ | ⟨other, at'⟩
    · exact ⟨own.mp, enters, fun n has => absurd (bare.symm.trans has) nofun,
        fun n f has => absurd (bare.symm.trans has) nofun⟩
    · have ok := sound.threads j x at'
      refine { ok with locked := fun locked => ?_, synchronized := fun inside => ?_ }
      · exact (others j other).mpr (ok.locked locked)
      · exact kept j x.jvm other (ok.synchronized inside)
  · by_cases same : j = i
    · subst same
      exact ⟨_, getElem?_set_own at_, own.mpr holds⟩
    · obtain ⟨x, at', locked⟩ := sound.holder j ((others j same).mp holds)
      exact ⟨x, getElem?_set_of_ne at' same, locked⟩
  · rcases sound.owned n f has native with given | ⟨j, x, at', has'⟩
    · exact .inl given
    · by_cases same : j = i
      · subst same
        obtain rfl := Option.some.inj (at_.symm.trans at')
        exact absurd (had.symm.trans has') nofun
      · exact .inr ⟨j, x, getElem?_set_of_ne at' same, has'⟩

/-- A thread makes a temporary file. -/
theorem Sound.create (sound : Sound m s) (at_ : s.threads[i]? = some t)
    (creating : t.point = .creating) :
    Sound m { (s.setTemporary s.made.length (some ⟨[], false, false⟩)).move i t
      (.fetching s.made.length) with made := s.made ++ [t.pin] } := by
  have ok := sound.threads i t at_
  have locked : t.point.locked = true := by rw [creating]; rfl
  have grown : ∀ {n : Nat} {pin : String}, s.made[n]? = some pin →
      (s.made ++ [t.pin])[n]? = some pin := by
    intro n pin has
    rwa [List.getElem?_append_left (List.getElem?_eq_some_iff.mp has).1]
  have old : ∀ {n : Nat} {pin : String}, s.made[n]? = some pin → n ≠ s.made.length :=
    fun has => Nat.ne_of_lt (List.getElem?_eq_some_iff.mp has).1
  have last : (s.made ++ [t.pin])[s.made.length]? = some t.pin := List.getElem?_concat_length
  refine { sound with
    threads := fun j x at' => ?_
    holder := fun j holds => ?_
    temporaries := fun n f has => ?_
    owned := fun n f has native => ?_ }
  · rcases getElem?_set_cases at' at_ with ⟨rfl, rfl⟩ | ⟨_, at'⟩
    · refine ⟨fun _ => ok.locked locked, fun _ => ok.synchronized
        (Point.synchronized_of_locked locked), fun n has => ?_, fun n f has here _ => ?_⟩
      · obtain rfl := Option.some.inj has
        exact last
      · obtain rfl := Option.some.inj has
        obtain rfl := Option.some.inj ((s.setTemporary_self s.made.length _).symm.trans here)
        rfl
    · have other := sound.threads j x at'
      refine { other with made := fun n has => grown (other.made n has), fits := ?_ }
      intro n f has here
      exact other.fits n f has
        ((s.setTemporary_of_ne (old (other.made n has)) _).symm.trans here)
  · obtain rfl := Option.some.inj ((ok.locked locked).symm.trans holds)
    exact ⟨_, getElem?_set_own at_, rfl⟩
  · by_cases same : n = s.made.length
    · subst same
      obtain rfl := Option.some.inj ((s.setTemporary_self s.made.length _).symm.trans has)
      exact ⟨t.pin, last, fun _ executable => nomatch executable⟩
    · obtain ⟨pin, own, pinned⟩ :=
        sound.temporaries n f ((s.setTemporary_of_ne same _).symm.trans has)
      exact ⟨pin, grown own, pinned⟩
  · by_cases same : n = s.made.length
    · subst same
      exact .inr ⟨i, _, getElem?_set_own at_, rfl⟩
    · rcases sound.owned n f ((s.setTemporary_of_ne same _).symm.trans has) native with
        given | ⟨j, x, at', has'⟩
      · exact .inl given
      · by_cases here : j = i
        · subst here
          obtain rfl := Option.some.inj (at_.symm.trans at')
          rw [creating] at has'
          cases has'
        · exact .inr ⟨j, x, getElem?_set_of_ne at' here, has'⟩

/-- A JVM is killed: its files stay, its locks do not. -/
theorem Sound.kill (sound : Sound m s) (jvm : Nat) : Sound m (s.kill jvm) := by
  have found : ∀ {j : Nat} {x : Thread}, (s.kill jvm).threads[j]? = some x →
      ∃ y, s.threads[j]? = some y ∧
        x = if y.jvm = jvm then { y with point := .killed } else y := by
    intro j x at_
    obtain ⟨y, own, eq⟩ := Option.map_eq_some_iff.mp ((List.getElem?_map ..).symm.trans at_)
    exact ⟨y, own, eq.symm⟩
  have kept : ∀ {j : Nat} {y : Thread}, s.threads[j]? = some y → y.jvm ≠ jvm →
      (s.kill jvm).threads[j]? = some y := by
    intro j y at_ other
    refine (List.getElem?_map ..).trans ?_
    rw [at_, Option.map_some, if_neg other]
  refine { sound with
    threads := fun j x at_ => ?_
    holder := fun j holds => ?_
    owned := fun n f has native => ?_ }
  · obtain ⟨y, own, rfl⟩ := found at_
    by_cases same : y.jvm = jvm
    · rw [if_pos same]
      exact ⟨nofun, nofun, nofun, nofun⟩
    · rw [if_neg same]
      have ok := sound.threads j y own
      refine { ok with locked := fun locked => ?_, synchronized := fun inside => ?_ }
      · have holds := ok.locked locked
        exact Option.filter_eq_some_iff.mpr ⟨holds, by simp [own, same]⟩
      · exact (Function.update_of_ne same ..).trans (ok.synchronized inside)
  · obtain ⟨holds', alive⟩ := Option.filter_eq_some_iff.mp holds
    obtain ⟨y, own, locked⟩ := sound.holder j holds'
    have other : y.jvm ≠ jvm := by simpa [own] using alive
    exact ⟨y, kept own other, locked⟩
  · rcases sound.owned n f has native with given | ⟨j, y, own, has'⟩
    · exact .inl (List.mem_append_left _ given)
    · by_cases same : y.jvm = jvm
      · refine .inl (List.mem_append_right _ (List.mem_filterMap.mpr ⟨y, ?_, ?_⟩))
        · exact List.mem_of_getElem? own
        · rw [if_pos same, has']
      · exact .inr ⟨j, y, kept own same, has'⟩

/-- The file of a thread that moves it becomes the target. -/
theorem Sound.moved (sound : Sound m s) {jvm : Nat} {pin : String} {point : Point}
    (at_ : s.threads[i]? = some ⟨jvm, pin, point⟩) {temporary : Nat} {file : File}
    (own : point.temporary = some temporary) (has : s.temporaries temporary = some file)
    (pinned : point.Fits m pin file → m.Pinned pin file) :
    Sound m ((((s.setTarget pin (some file)).setTemporary temporary none).note
      pin .installed).move i
      ⟨jvm, pin, point⟩ (.cleaning temporary (.ok ()))) := by
  have ok := sound.threads i _ at_
  have target : Sound m (s.setTarget pin (some file)) := by
    refine sound.setTarget pin _ fun f eq native => ?_
    obtain rfl := Option.some.inj eq
    exact pinned (ok.fits temporary file own has native)
  have gone := target.setForeign temporary none nofun
  have noted := gone.note pin .installed nofun
  refine noted.pass at_ (Point.locked_of_temporary own).symm
    (Point.synchronized_of_locked (Point.locked_of_temporary own)).symm own.symm ?_
  intro n f own' has'
  obtain rfl := Option.some.inj (own.symm.trans own')
  exact absurd (((s.setTarget pin (some file)).setTemporary_self temporary none).symm.trans has')
    nofun

/-- Every step of every thread keeps it, and so do kills and foreign writes. -/
theorem sound_step (sound : Sound m s) {e : Event} (h : s.step m e = some s') : Sound m s' := by
  cases steps_of_step h with
  | enter outside =>
    refine sound.enter _ ?_
    rcases outside with eq | eq
    · rw [eq]; rfl
    · rw [eq]; rfl
  | pass at_ goes =>
    exact sound.pass at_ goes.locked goes.synchronized goes.temporary fun _ file _ _ _ =>
      goes.fits file
  | unseen stirred at_ => exact sound.pass at_ rfl rfl rfl nofun
  | @synchronize i jvm pin at_ free =>
    refine sound.relock at_ rfl rfl ⟨nofun, fun holds => ?_⟩ (fun _ _ => .rfl)
      (fun _ => Function.update_self ..) fun j jvm' other has => ?_
    · obtain ⟨x, own, locked⟩ := sound.holder i holds
      obtain rfl := Option.some.inj (at_.symm.trans own)
      cases locked
    · by_cases same : jvm' = jvm
      · rw [same, free] at has
        cases has
      · exact (Function.update_of_ne same ..).trans has
  | lock at_ free =>
    have ok := sound.threads _ _ at_
    refine sound.relock at_ rfl rfl ⟨fun _ => rfl, fun _ => rfl⟩ (fun j other => ?_)
      (fun _ => ok.synchronized rfl) fun _ _ _ => id
    rw [free]
    simp [other.symm]
  | unlock at_ failure =>
    have ok := sound.threads _ _ at_
    refine sound.relock at_ rfl rfl ⟨nofun, nofun⟩ (fun j other => ?_)
      (fun _ => ok.synchronized rfl) fun _ _ _ => id
    rw [ok.locked rfl]
    simp [other.symm]
  | @exit i jvm pin result at_ point outcome =>
    have ok := sound.threads _ _ at_
    have free : s.lock = some i → False := by
      intro holds
      obtain ⟨x, own, locked⟩ := sound.holder i holds
      obtain rfl := Option.some.inj (at_.symm.trans own)
      cases locked
    have kept : ∀ (j jvm' : Nat), j ≠ i → s.monitors jvm' = some j →
        Function.update s.monitors jvm none jvm' = some j := by
      intro j jvm' other has
      by_cases same : jvm' = jvm
      · rw [same, ok.synchronized rfl] at has
        exact absurd (Option.some.inj has).symm other
      · exact (Function.update_of_ne same ..).trans has
    rcases outcome with ⟨rfl, -⟩ | ⟨_, rfl⟩
    · exact sound.relock at_ rfl rfl ⟨nofun, fun holds => (free holds).elim⟩ (fun _ _ => .rfl)
        nofun kept
    · exact sound.relock at_ rfl rfl ⟨nofun, fun holds => (free holds).elim⟩ (fun _ _ => .rfl)
        nofun kept
  | @remove i t at_ point outcome =>
    have gone := (sound.setTarget t.pin none nofun).note t.pin .deleted nofun
    obtain ⟨jvm, pin, at'⟩ := t
    rcases outcome with ⟨rfl, rfl⟩ | ⟨_, _, rfl, rfl⟩
    · exact gone.pass at_ rfl rfl rfl nofun
    · exact gone.pass at_ rfl rfl rfl nofun
  | create at_ creating => exact sound.create at_ creating
  | @fetch i jvm pin temporary at_ =>
    exact (sound.note pin .fetched nofun).pass at_ rfl rfl rfl fun _ _ _ _ _ => id
  | @carry i t at_ temporary own f point keeps quiet busy fits foreign =>
    refine sound.carry at_ own keeps fun file eq native => ?_
    obtain ⟨file', has, rfl⟩ := Option.map_eq_some_iff.mp eq
    exact fits file' ((sound.threads i t at_).fits temporary file' own has
      ((foreign file').symm.trans native))
  | @moved i t at_ temporary point file has =>
    obtain ⟨jvm, pin, at'⟩ := t
    rcases point with rfl | rfl
    · exact sound.moved at_ rfl has id
    · exact sound.moved at_ rfl has id
  | @lost i jvm pin temporary at_ message =>
    exact (sound.setTarget pin none nofun).pass at_ rfl rfl rfl
      fun _ _ _ _ _ pinned _ => Machine.Pinned.sha256 pinned
  | @clean i jvm pin temporary result at_ =>
    refine (sound.setForeign temporary none nofun).leave at_ rfl
      (fun f has => ?_) rfl rfl
    exact absurd ((s.setTemporary_self temporary none).symm.trans has) nofun
  | @abandon i jvm pin temporary result at_ message =>
    refine (sound.abandon [temporary]).leave at_ rfl (fun _ _ => ?_) rfl rfl
    exact List.mem_append_right _ (List.mem_singleton_self temporary)
  | @exec i jvm pin at_ file has =>
    have noted : Sound m (s.note pin (.ran file)) := by
      refine sound.note pin _ fun f eq native => ?_
      cases eq
      exact (sound.targets pin file has native).sha256
    exact noted.pass at_ rfl rfl rfl nofun
  | kill jvm => exact sound.kill jvm
  | meddle own pin file =>
    refine sound.setTarget pin _ fun f eq native => ?_
    obtain ⟨_, _, rfl⟩ := Option.map_eq_some_iff.mp eq
    cases native
  | meddleTemporary own inside file =>
    refine sound.setForeign _ _ fun f eq => ?_
    obtain ⟨_, _, rfl⟩ := Option.map_eq_some_iff.mp eq
    exact ⟨rfl, inside⟩

theorem sound_run {events : List Event} (run : State.run m events = some s) : Sound m s :=
  rel_of_foldlM (R := fun s s' => Sound m s → Sound m s') (fun _ => id)
    (fun first second sound => second (first sound)) (fun h sound => sound_step sound h) run
    ⟨nofun, nofun, nofun, nofun, nofun, nofun⟩

/-! ## Where nothing else writes -/

structure Thread.Quiet (s : State) (t : Thread) : Prop where
  busy : t.point.busy = true → s.targets t.pin = none
  settled : t.point.settled = true → (s.targets t.pin).isSome = true
  keeps : t.point.removes = false

/-- Only starts follow the installation of a binary. -/
def Once (log : List (String × Deed)) (pin : String) : Prop :=
  ∀ before after, log = before ++ (pin, .installed) :: after →
    ∀ deed, (pin, deed) ∈ after → ∃ file, deed = .ran file

structure Quiet (s : State) : Prop where
  targets : ∀ pin file, s.targets pin = some file → file.foreign = false
  temporaries : ∀ n file, s.temporaries n = some file → file.foreign = false
  threads : ∀ (i : Nat) (t : Thread), s.threads[i]? = some t → Thread.Quiet s t
  once : ∀ pin, Once s.log pin
  installed : ∀ pin, (pin, .installed) ∈ s.log → (s.targets pin).isSome = true
  kept : ∀ pin, (pin, .deleted) ∉ s.log

theorem Point.locked_of_busy {point : Point} (busy : point.busy = true) : point.locked = true := by
  cases point <;> first | rfl | cases busy

/-- The log of a binary that is not installed yet, and that of one that is. -/
theorem Once.note {log : List (String × Deed)} {pin pin' : String} {deed : Deed}
    (once : Once log pin) (new : pin' = pin → (pin, .installed) ∉ log ∨ ∃ file, deed = .ran file) :
    Once (log ++ [(pin', deed)]) pin := by
  intro before after eq deed' mem
  rcases List.append_eq_append_iff.mp eq with ⟨rest, rfl, split⟩ | ⟨rest, rfl, split⟩
  · -- the installation is the new entry, or after it: nothing follows
    cases rest with
    | nil =>
      obtain ⟨-, rfl⟩ := List.cons.inj split
      cases mem
    | cons _ rest =>
      obtain ⟨-, tail⟩ := List.cons.inj split
      exact absurd tail.symm (by simp)
  · cases rest with
    | nil =>
      obtain ⟨-, rfl⟩ := List.cons.inj split
      cases mem
    | cons head rest =>
      obtain ⟨rfl, rfl⟩ := List.cons.inj split
      rcases List.mem_append.mp mem with old | last
      · exact once before rest rfl deed' old
      · obtain ⟨rfl, rfl⟩ := Prod.mk.inj (List.mem_singleton.mp last)
        rcases new rfl with fresh | ran
        · exact absurd (List.mem_append_right _ (List.mem_cons_self ..)) fresh
        · exact ran

namespace Quiet

variable (quiet : Quiet s)

include quiet

/-- Targets and log stay, and one thread moves on. -/
theorem goes (at_ : s.threads[i]? = some t) (threads : s'.threads = s.threads.set i t')
    (targets : s'.targets = s.targets) (log : s'.log = s.log)
    (native : ∀ n file, s'.temporaries n = some file → file.foreign = false) (own : t'.Quiet s) :
    Quiet s' where
  targets := targets ▸ quiet.targets
  temporaries := native
  threads j x at' := by
    rw [threads] at at'
    have old : x.Quiet s := by
      rcases getElem?_set_cases at' at_ with ⟨-, rfl⟩ | ⟨-, at'⟩
      · exact own
      · exact quiet.threads j x at'
    exact ⟨targets ▸ old.busy, targets ▸ old.settled, old.keeps⟩
  once := log ▸ quiet.once
  installed := log ▸ targets ▸ quiet.installed
  kept := log ▸ quiet.kept

/-- A binary is noted that is not installed yet, or started. -/
theorem note {pin : String} {deed : Deed}
    (new : s.targets pin = none ∧ deed = .fetched ∨ ∃ file, deed = .ran file) :
    Quiet (s.note pin deed) := by
  have other : ∀ pin' : String,
      (pin', deed) = (pin', .installed) ∨ (pin', deed) = (pin', .deleted) → False := by
    intro pin' eq
    rcases new with ⟨-, rfl⟩ | ⟨file, rfl⟩
    · rcases eq with eq | eq <;> cases eq
    · rcases eq with eq | eq <;> cases eq
  refine { quiet with
    threads := fun j x at_ => ?_
    once := fun pin' => (quiet.once pin').note fun same => ?_
    installed := fun pin' mem => ?_
    kept := fun pin' mem => ?_ }
  · have old := quiet.threads j x at_
    exact { old with }
  · subst same
    rcases new with ⟨absent, -⟩ | ran
    · refine .inl fun mem => ?_
      have present := quiet.installed pin mem
      rw [absent] at present
      cases present
    · exact .inr ran
  · rcases List.mem_append.mp mem with old | last
    · exact quiet.installed pin' old
    · have eq := List.mem_singleton.mp last
      obtain rfl := (Prod.mk.inj eq).1
      exact (other pin' (.inl eq.symm)).elim
  · rcases List.mem_append.mp mem with old | last
    · exact quiet.kept pin' old
    · have eq := List.mem_singleton.mp last
      obtain rfl := (Prod.mk.inj eq).1
      exact (other pin' (.inr eq.symm)).elim

theorem native_setTemporary (n : Nat) (file : Option File)
    (native : ∀ f, file = some f → f.foreign = false) :
    ∀ n' f, (s.setTemporary n file).temporaries n' = some f → f.foreign = false := by
  intro n' f has
  by_cases same : n' = n
  · subst same
    exact native f ((s.setTemporary_self n' file).symm.trans has)
  · exact quiet.temporaries n' f ((s.setTemporary_of_ne same file).symm.trans has)

/-- The one thread that may install puts a target where none is. -/
theorem install (sound : Sound m s) (at_ : s.threads[i]? = some t) (busy : t.point.busy = true)
    {temporary : Nat} {file : File} (has : s.temporaries temporary = some file) :
    Quiet ((((s.setTarget t.pin (some file)).setTemporary temporary none).note
      t.pin .installed).move
      i t (.cleaning temporary (.ok ()))) := by
  have absent := (quiet.threads i t at_).busy busy
  have there : ∀ {pin}, (s.targets pin).isSome = true →
      ((s.setTarget t.pin (some file)).targets pin).isSome = true := by
    intro pin present
    by_cases same : pin = t.pin
    · rw [same, State.setTarget_self]
      rfl
    · rwa [State.setTarget_of_ne s same]
  refine ⟨fun pin f found => ?_, fun n f found => ?_, fun j x at' => ?_, fun pin => ?_,
    fun pin mem => ?_, fun pin mem => ?_⟩
  · by_cases same : pin = t.pin
    · subst same
      obtain rfl := Option.some.inj ((s.setTarget_self t.pin _).symm.trans found)
      exact quiet.temporaries temporary file has
    · exact quiet.targets pin f ((s.setTarget_of_ne same _).symm.trans found)
  · exact quiet.native_setTemporary temporary none nofun n f found
  · rcases getElem?_set_cases at' at_ with ⟨rfl, rfl⟩ | ⟨other, at'⟩
    · exact ⟨nofun, fun _ => Option.isSome_iff_exists.mpr ⟨file, s.setTarget_self t.pin _⟩, rfl⟩
    · have old := quiet.threads j x at'
      refine ⟨fun installs => ?_, fun settled => there (old.settled settled), old.keeps⟩
      exact absurd (sound.locked_unique at' at_ (Point.locked_of_busy installs)
        (Point.locked_of_busy busy)) other
  · refine (quiet.once pin).note fun same => .inl fun mem => ?_
    have present := quiet.installed pin mem
    rw [← same, absent] at present
    cases present
  · rcases List.mem_append.mp mem with old | last
    · exact there (quiet.installed pin old)
    · obtain rfl := (Prod.mk.inj (List.mem_singleton.mp last)).1
      exact Option.isSome_iff_exists.mpr ⟨file, s.setTarget_self _ _⟩
  · rcases List.mem_append.mp mem with old | last
    · exact quiet.kept pin old
    · cases (Prod.mk.inj (List.mem_singleton.mp last)).2

end Quiet

/-- A target that hashes to its pin stays, and nobody installs it again. -/
theorem quiet_step (sound : Sound m s) (quiet : Quiet s) {e : Event} (calm : e.calm = true)
    (h : s.step m e = some s') : Quiet s' := by
  cases steps_of_step h with
  | @enter t outside =>
    refine { quiet with threads := fun j x at_ => ?_ }
    rcases Nat.lt_or_ge j s.threads.length with before | after
    · have own : s.threads[j]? = some x := by
        rwa [List.getElem?_append_left before] at at_
      have old := quiet.threads j x own
      exact { old with }
    · rw [List.getElem?_append_right after] at at_
      obtain rfl := List.mem_singleton.mp (List.mem_of_getElem? at_)
      rcases outside with eq | eq
      · exact ⟨by simp [eq, Point.busy], by simp [eq, Point.settled], by simp [eq, Point.removes]⟩
      · exact ⟨by simp [eq, Point.busy], by simp [eq, Point.settled], by simp [eq, Point.removes]⟩
  | @pass i t at_ point goes =>
    have old := quiet.threads i t at_
    refine quiet.goes at_ rfl rfl rfl quiet.temporaries ⟨fun busy => ?_, fun settled => ?_, ?_⟩
    · rcases goes.busy busy with had | foreign
      · exact old.busy had
      · cases has : s.targets t.pin with
        | none => rfl
        | some file =>
          have native := quiet.targets t.pin file has
          rw [foreign file has] at native
          cases native
    · rcases goes.settled settled with had | found
      · exact old.settled had
      · exact found
    · cases removes : point.removes with
      | false => rfl
      | true =>
        obtain ⟨file, has, differs⟩ := goes.removes removes
        have native := quiet.targets t.pin file has
        exact absurd (sound.targets t.pin file has native).sha256 differs
  | unseen stirred => rw [calm] at stirred; cases stirred
  | synchronize at_ free =>
    exact quiet.goes at_ rfl rfl rfl quiet.temporaries ⟨nofun, nofun, rfl⟩
  | lock at_ free => exact quiet.goes at_ rfl rfl rfl quiet.temporaries ⟨nofun, nofun, rfl⟩
  | @unlock i jvm pin result at_ failure =>
    have old := quiet.threads _ _ at_
    refine quiet.goes at_ rfl rfl rfl quiet.temporaries ⟨nofun, fun settled => ?_, rfl⟩
    refine old.settled ?_
    cases result with
    | ok _ => rfl
    | error _ => cases settled
  | exit at_ outcome =>
    have old := quiet.threads _ _ at_
    rcases outcome with ⟨rfl, rfl⟩ | ⟨_, rfl⟩
    · exact quiet.goes at_ rfl rfl rfl quiet.temporaries ⟨nofun, fun _ => old.settled rfl, rfl⟩
    · exact quiet.goes at_ rfl rfl rfl quiet.temporaries ⟨nofun, nofun, rfl⟩
  | remove at_ outcome =>
    have keeps := (quiet.threads _ _ at_).keeps
    rcases outcome with ⟨eq, -⟩ | ⟨_, _, eq, -⟩
    · rw [eq] at keeps
      cases keeps
    · rw [eq] at keeps
      cases keeps
  | create at_ creating =>
    have absent := (quiet.threads _ _ at_).busy (by rw [creating]; rfl)
    refine quiet.goes at_ rfl rfl rfl ?_ ⟨fun _ => absent, nofun, rfl⟩
    refine quiet.native_setTemporary _ _ fun f eq => ?_
    obtain rfl := Option.some.inj eq
    rfl
  | fetch at_ =>
    have absent := (quiet.threads _ _ at_).busy rfl
    exact (quiet.note (.inl ⟨absent, rfl⟩)).goes at_ rfl rfl rfl quiet.temporaries
      ⟨fun _ => absent, nofun, rfl⟩
  | @carry i t at_ temporary own f point keeps calm' busy fits foreign =>
    have old := quiet.threads i t at_
    refine quiet.goes at_ rfl rfl rfl ?_ ⟨fun now => old.busy (busy now), fun settled => ?_, ?_⟩
    · refine quiet.native_setTemporary _ _ fun file eq => ?_
      obtain ⟨file', has, rfl⟩ := Option.map_eq_some_iff.mp eq
      exact (foreign file').trans (quiet.temporaries temporary file' has)
    · rw [show point.settled = false from calm'] at settled
      cases settled
    · cases point <;> first | rfl | cases keeps
  | moved at_ point has =>
    refine quiet.install sound at_ ?_ has
    rcases point with eq | eq
    · rw [eq]; rfl
    · rw [eq]; rfl
  | @lost i jvm pin temporary at_ message =>
    have absent := (quiet.threads _ _ at_).busy rfl
    have same : (s.setTarget pin none).targets = s.targets := by
      rw [State.setTarget, ← absent]
      exact Function.update_eq_self ..
    exact quiet.goes at_ rfl same rfl quiet.temporaries ⟨nofun, nofun, rfl⟩
  | @clean i jvm pin temporary result at_ =>
    have old := quiet.threads _ _ at_
    refine quiet.goes at_ rfl rfl rfl (quiet.native_setTemporary _ _ nofun)
      ⟨nofun, fun settled => old.settled ?_, rfl⟩
    cases result with
    | ok _ => rfl
    | error _ => cases settled
  | abandon at_ message =>
    exact quiet.goes at_ rfl rfl rfl quiet.temporaries ⟨nofun, nofun, rfl⟩
  | exec at_ has =>
    exact (quiet.note (.inr ⟨_, rfl⟩)).goes at_ rfl rfl rfl quiet.temporaries ⟨nofun, nofun, rfl⟩
  | kill jvm =>
    refine { quiet with threads := fun j x at_ => ?_ }
    obtain ⟨y, own, rfl⟩ := Option.map_eq_some_iff.mp ((List.getElem?_map ..).symm.trans at_)
    have old := quiet.threads j y own
    by_cases same : y.jvm = jvm
    · rw [if_pos same]
      exact ⟨nofun, nofun, rfl⟩
    · rw [if_neg same]
      exact { old with }
  | meddle stirred => rw [calm] at stirred; cases stirred
  | meddleTemporary stirred => rw [calm] at stirred; cases stirred

theorem quiet_run {events : List Event} (calm : ∀ e ∈ events, e.calm = true)
    (run : State.run m events = some s) : Sound m s ∧ Quiet s := by
  have keeps : ∀ (events : List Event) (s₀ : State), (∀ e ∈ events, e.calm = true) →
      events.foldlM (State.step m) s₀ = some s → Sound m s₀ ∧ Quiet s₀ → Sound m s ∧ Quiet s := by
    intro events
    induction events with
    | nil =>
      intro s₀ _ run both
      obtain rfl := Option.some.inj run
      exact both
    | cons e events ih =>
      intro s₀ calm run both
      obtain ⟨next, first, rest⟩ := Option.bind_eq_some_iff.mp run
      rw [List.forall_mem_cons] at calm
      exact ih next calm.2 rest
        ⟨sound_step both.1 first, quiet_step both.1 both.2 calm.1 first⟩
  refine keeps events {} calm run ⟨⟨nofun, nofun, nofun, nofun, nofun, nofun⟩, ?_⟩
  exact ⟨nofun, nofun, nofun, fun _ before after eq => by simp at eq, nofun, nofun⟩

/-! ## Main results -/

/-- A machine where one binary has the digest `aprv`. -/
private def machine : Machine where
  sha256 bytes := if bytes = [1, 2] then "aprv" else "other"
  posix := true
  windows := false
  resolve name := "/cache/" ++ name

/-- Two JVMs install one binary. The first starts it; the other is killed while it has the lock. -/
private def rival : List Event :=
  [.install 0 "aprv", .install 1 "aprv", .ownerOnlyDirectory 1 none, .ownerOnlyDirectory 0 none,
    .synchronized 0, .synchronized 1, .open_ 0 none, .open_ 1 none, .lock 0 none,
    .isRegularFile 0 false, .temporaryFile 0 none, .fetch 0 none, .newOutputStream 0 none,
    .read 0 (.ok [1, 2]), .write 0 none, .read 0 (.ok []), .close 0 none, .executable 0 none,
    .move 0 .unsupported, .move 0 .done, .deleteIfExists 0 none, .unlock 0 none, .lock 1 none,
    .exit 0, .isRegularFile 1 true, .kill 1, .start 0 "aprv", .sha256 2 none, .exec 2 none]

private def rivalled : State := (State.run machine rival).get rfl

private theorem run_rival : State.run machine rival = some rivalled := rfl

/-- Where nothing else writes in the directory, and what is there can be told: once a binary was
installed it is never removed, installed or fetched again, only started; and an `install` that
returned left it where it is. -/
theorem installs_once {events : List Event} (calm : ∀ e ∈ events, e.calm = true)
    (run : State.run m events = some s) :
    (∀ pin, Once s.log pin) ∧
    (∀ pin, (pin, .deleted) ∉ s.log) ∧
    (∀ pin, (pin, .installed) ∈ s.log → ∃ file, s.targets pin = some file ∧ m.Pinned pin file) ∧
    ∀ (i : Nat) (t : Thread), s.threads[i]? = some t → t.point = .returned →
      ∃ file, s.targets t.pin = some file ∧ m.Pinned t.pin file := by
  obtain ⟨sound, quiet⟩ := quiet_run calm run
  have pinned : ∀ {pin}, (s.targets pin).isSome = true →
      ∃ file, s.targets pin = some file ∧ m.Pinned pin file := by
    intro pin present
    obtain ⟨file, has⟩ := Option.isSome_iff_exists.mp present
    exact ⟨file, has, sound.targets pin file has (quiet.targets pin file has)⟩
  refine ⟨quiet.once, quiet.kept, fun pin mem => pinned (quiet.installed pin mem), ?_⟩
  intro i t at_ returned
  refine pinned ((quiet.threads i t at_).settled ?_)
  rw [returned]
  rfl

theorem installs_once_rival : Once rivalled.log "aprv" ∧
    ∃ file, rivalled.targets "aprv" = some file ∧ machine.Pinned "aprv" file := by
  have once := installs_once (by decide) run_rival
  exact ⟨once.1 "aprv", once.2.2.2 0 ⟨0, "aprv", .returned⟩ rfl rfl⟩

end ReceiptVerifier.JavaWasm.ServerBinary
