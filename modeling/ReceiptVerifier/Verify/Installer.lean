import ReceiptVerifier.Php.Installer

/-!
# What a failed installation leaves

`Kept` is the invariant up to the rename: the destination is as it was, at every cut. The download
and the check of its hash keep it, whatever they come to. What follows depends on the platform: the
rename alone replaces the destination, but on Windows the destination is unlinked before it, so
there the two have to be told apart (`UnlinkedInVain`).
-/

namespace ReceiptVerifier

namespace Php.Installer

variable {m : Machine} {w : World} {a : Arguments} {before : Option Bytes} {files files' : Files}
  {past : List Event}

/-! ## The steps -/

/-- The destination is as it was, and has been at every step. -/
structure Kept (before : Option Bytes) (files : Files) (past : List Event) : Prop where
  final : files.final = before
  held : ∀ e ∈ past, e.files.final = before

theorem Kept.note (kept : Kept before files past) (step : Step) (succeeded : Bool)
    (same : files'.final = files.final) :
    Kept before files' (past ++ [⟨step, succeeded, files'⟩]) where
  final := same.trans kept.final
  held e mem := by
    rcases List.mem_append.1 mem with mem | mem
    · exact kept.held e mem
    · rw [List.mem_singleton.1 mem]
      exact same.trans kept.final

variable {Q : Bool → Files → List Event → Prop} {E : Thrown → Files → List Event → Prop}

/-- An attempt succeeds with what it makes of the files, or fails and leaves them. -/
theorem meets_attempt {step : Step} {succeeds : Bool} {f : Files → Option Files}
    (ok : ∀ files', succeeds = true → f files = some files' →
      Q true files' (past ++ [⟨step, true, files'⟩]))
    (failed : succeeds = false ∨ f files = none → Q false files (past ++ [⟨step, false, files⟩])) :
    (attempt step succeeds f files).Meets Q E past := by
  rw [attempt, Watched.meets_step]
  cases succeeds with
  | false => exact failed (.inl rfl)
  | true =>
    cases made : f files with
    | none =>
      simp only [↓reduceIte]
      exact failed (.inr made)
    | some files' =>
      simp only [↓reduceIte]
      exact ok files' rfl made

/-! ## The download -/

/-- What the server sends. -/
def World.body (w : World) : Bytes := w.chunks.flatMap Chunk.data

/-- Nothing about the download fails, and it is within the bound. -/
structure Downloads (m : Machine) (w : World) : Prop where
  curl : w.curl = true
  fopen : w.fopen = true
  curlInit : w.curlInit = true
  taken : ∀ c ∈ w.chunks, c.data.length ≤ c.taken
  bounded : w.body.length ≤ MAX_BYTES
  curlExec : w.curlExec = true
  allowed : urlAllowed m w.effective = true

/-- The write function takes a piece whole, or not at all, or what the disk takes of it. -/
theorem writeFunction_meets {c : Chunk} {written : Nat} {bytes : Bytes}
    (kept : Kept before files past) (temporary : files.temporary = some bytes) :
    (writeFunction c written files).Meets
      (fun r files' past' => Kept before files' past' ∧ r.2 = written + c.data.length ∧
        (MAX_BYTES < r.2 ∧ r.1 = 0 ∧ files'.temporary = some bytes ∨
          r.2 ≤ MAX_BYTES ∧ r.1 = (c.data.take c.taken).length ∧
            files'.temporary = some (bytes ++ c.data.take c.taken)))
      (fun _ _ _ => False) past := by
  unfold writeFunction fwrite
  rw [Watched.meets_ite]
  constructor
  · intro large
    rw [Watched.meets_pure]
    exact ⟨kept, rfl, .inl ⟨large, rfl, temporary⟩⟩
  · intro small
    simp only [Watched.meets_bind, Watched.meets_step, Watched.meets_pure, temporary]
    exact ⟨kept.note .fwrite _ rfl, trivial, .inr ⟨Nat.le_of_not_lt small, trivial, rfl⟩⟩

/-- The pieces arrive whole and within the bound exactly when every one is taken whole and they do
not pass it, and then the temporary file holds them all. -/
theorem receive_meets {chunks : List Chunk} {written : Nat} {bytes : Bytes}
    (kept : Kept before files past) (temporary : files.temporary = some bytes) :
    (receive chunks written files).Meets
      (fun r files' past' => Kept before files' past' ∧
        (r.1 = true ∧ r.2 ≤ MAX_BYTES ↔
          (∀ c ∈ chunks, c.data.length ≤ c.taken) ∧
            written + (chunks.flatMap Chunk.data).length ≤ MAX_BYTES) ∧
        (r.1 = true → r.2 ≤ MAX_BYTES →
          files'.temporary = some (bytes ++ chunks.flatMap Chunk.data)))
      (fun _ _ _ => False) past := by
  induction chunks generalizing written bytes files past with
  | nil =>
    rw [receive, Watched.meets_pure]
    simp [kept, temporary]
  | cons c chunks ih =>
    rw [receive, Watched.meets_bind]
    refine (writeFunction_meets kept temporary).mono ?_ fun _ _ _ => False.elim
    rintro ⟨returned, written'⟩ files' past' ⟨kept', rfl, ends⟩
    rw [Watched.meets_ite, List.forall_mem_cons, List.flatMap_cons, List.length_append,
      ← Nat.add_assoc]
    rcases ends with ⟨large, rfl, temporary'⟩ | ⟨small, rfl, temporary'⟩
    · -- The piece that passes the bound is refused; an empty one is not, and changes nothing.
      have never : ¬(written + c.data.length + (chunks.flatMap Chunk.data).length ≤ MAX_BYTES) :=
        fun bounded => absurd large (Nat.not_lt.2 (Nat.le_trans (Nat.le_add_right _ _) bounded))
      constructor
      · intro
        refine (ih kept' temporary').mono ?_ fun _ _ _ => False.elim
        rintro ⟨whole, written'⟩ files'' past'' ⟨kept'', arrives, -⟩
        have refused := fun arrived => never (arrives.1 arrived).2
        exact ⟨kept'', ⟨fun arrived => (refused arrived).elim, fun taken => (never taken.2).elim⟩,
          fun ok bounded => (refused ⟨ok, bounded⟩).elim⟩
      · intro
        rw [Watched.meets_pure]
        exact ⟨kept', ⟨fun arrived => (by cases arrived.1), fun taken => (never taken.2).elim⟩,
          fun ok => by cases ok⟩
    · have whole_iff : (c.data.take c.taken).length = c.data.length ↔ c.data.length ≤ c.taken := by
        rw [List.length_take]
        omega
      constructor
      · intro whole
        have taken := whole_iff.1 whole
        rw [List.take_of_length_le taken] at temporary'
        refine (ih kept' temporary').mono ?_ fun _ _ _ => False.elim
        rintro ⟨whole, written'⟩ files'' past'' ⟨kept'', arrives, holds⟩
        refine ⟨kept'', ?_, fun ok bounded => ?_⟩
        · rw [arrives, and_iff_right taken]
        · rw [holds ok bounded, List.append_assoc]
      · intro part
        rw [Watched.meets_pure]
        exact ⟨kept', ⟨fun arrived => (by cases arrived.1),
          fun taken => (part (whole_iff.2 taken.1.1)).elim⟩, fun ok => by cases ok⟩

theorem meets_fclose {Q : Unit → Files → List Event → Prop} :
    (fclose files).Meets Q E past ↔ Q () files (past ++ [⟨.fclose, true, files⟩]) := by
  simp only [fclose, attempt, Watched.meets_bind, Watched.meets_step, Watched.meets_pure,
    ↓reduceIte]

/-- The destination is out of the download's reach. When it ends well, it was whole, and the
temporary file holds it. -/
theorem transfer_meets {url : String} (kept : Kept before files past)
    (temporary : files.temporary = some []) (curl : w.curl = true) (fopen : w.fopen = true) :
    (transfer m w url files).Meets
      (fun _ files' past' => Kept before files' past' ∧ Downloads m w ∧
        files'.temporary = some w.body)
      (fun _ files' past' => Kept before files' past' ∧ ¬Downloads m w) past := by
  unfold transfer
  rw [Watched.meets_bind, Watched.meets_throwIf]
  refine ⟨fun failed => ⟨kept, fun downloads => ?_⟩, fun curlInit => ?_⟩
  · cases failed.symm.trans downloads.curlInit
  rw [Watched.meets_bind]
  refine (receive_meets kept temporary).mono ?_ fun _ _ _ => False.elim
  rintro ⟨whole, written⟩ files' past' ⟨kept', arrives, holds⟩
  rw [Nat.zero_add] at arrives
  simp only [Watched.meets_bind, Watched.meets_throwIf]
  refine ⟨fun large => ⟨kept', fun downloads => ?_⟩, fun small =>
    ⟨fun failed => ⟨kept', fun downloads => ?_⟩, fun ok =>
      ⟨fun refused => ⟨kept', fun downloads => ?_⟩, fun allowed => ?_⟩⟩⟩
  · exact absurd large (Nat.not_lt.2 (arrives.2 ⟨downloads.taken, downloads.bounded⟩).2)
  · have arrived := arrives.2 ⟨downloads.taken, downloads.bounded⟩
    rw [show whole = true from arrived.1, downloads.curlExec] at failed
    cases failed
  · cases refused.symm.trans downloads.allowed
  · rw [Bool.not_eq_false, Bool.and_eq_true] at ok
    have small := Nat.le_of_not_lt small
    obtain ⟨taken, bounded⟩ := arrives.1 ⟨ok.1, small⟩
    exact ⟨kept', ⟨curl, fopen, eq_true_of_ne_false curlInit, taken, bounded, ok.2,
      eq_true_of_ne_false allowed⟩, holds ok.1 small⟩

theorem download_meets {url destination : String} (kept : Kept before files past) :
    (download m w url destination files).Meets
      (fun _ files' past' => Kept before files' past' ∧ Downloads m w ∧
        files'.temporary = some w.body)
      (fun _ files' past' => Kept before files' past' ∧ ¬Downloads m w) past := by
  unfold download
  rw [Watched.meets_bind, Watched.meets_throwIf]
  refine ⟨fun failed => ⟨kept, fun downloads => ?_⟩, fun curl => ?_⟩
  · cases failed.symm.trans downloads.curl
  rw [Watched.meets_bind]
  refine meets_attempt (fun files' fopen made => ?_) fun failed => ?_
  · cases made
    rw [Watched.meets_bind, Watched.meets_throwIf]
    refine ⟨fun opened => (by cases opened), fun _ => ?_⟩
    rw [Watched.meets_ensuring]
    have opened : Kept before { files with temporary := some [] } _ :=
      kept.note .fopen true rfl
    refine (transfer_meets opened rfl (eq_true_of_ne_false curl) fopen).mono ?_ ?_
    · rintro _ files' past' ⟨kept', rest⟩
      exact meets_fclose.2 ⟨kept'.note .fclose true rfl, rest⟩
    · rintro _ files' past' ⟨kept', rest⟩
      exact meets_fclose.2 ⟨kept'.note .fclose true rfl, rest⟩
  · rw [Watched.meets_bind, Watched.meets_throwIf]
    refine ⟨fun _ => ⟨kept.note .fopen false rfl, fun downloads => ?_⟩,
      fun opened => absurd rfl opened⟩
    rcases failed with failed | failed
    · cases failed.symm.trans downloads.fopen
    · cases failed

/-! ## The rename -/

/-- The destination never held anything but what it did before, or bytes of the pinned hash. -/
def Held (m : Machine) (before : Option Bytes) (pinned : String) (past : List Event) : Prop :=
  ∀ e ∈ past, ∀ bytes, e.files.final = some bytes → before = some bytes ∨ m.sha256 bytes = pinned

theorem Kept.heldBy {pinned : String} (kept : Kept before files past) :
    Held m before pinned past :=
  fun e mem _ holds => .inl ((kept.held e mem).symm.trans holds)

theorem Held.note {pinned : String} (held : Held m before pinned past) (step : Step)
    (succeeded : Bool)
    (now : ∀ bytes, files.final = some bytes → before = some bytes ∨ m.sha256 bytes = pinned) :
    Held m before pinned (past ++ [⟨step, succeeded, files⟩]) := by
  intro e mem
  rcases List.mem_append.1 mem with mem | mem
  · exact held e mem
  · rw [List.mem_singleton.1 mem]
    exact now

/-- The unlink of the temporary file was tried in vain. -/
def StaysBehind (past : List Event) : Prop :=
  ∃ e ∈ past, e.step = .unlinkTemporary ∧ e.succeeded = false

/-- Whether the destination is unlinked before the rename. -/
def Unlinks (m : Machine) (w : World) (before : Option Bytes) : Prop :=
  m.osFamily = "Windows" ∧ before.isSome = true ∧ w.unlinksFinal = true

/-- Elsewhere than on Windows the destination is as it was until the rename; there it may be
gone. -/
theorem makeReady_meets (pinned : String) (kept : Kept before files past) :
    (makeReady m w files).Meets
      (fun _ files' past' => Held m before pinned past' ∧ files'.temporary = files.temporary ∧
        (Unlinks m w before → files'.final = none) ∧
        (¬Unlinks m w before → files'.final = before))
      (fun _ _ _ => False) past := by
  unfold makeReady
  rw [Watched.meets_ite]
  constructor
  · intro elsewhere
    rw [Watched.meets_bind]
    refine meets_attempt (fun files' _ made => ?_) fun _ => ?_
    · cases made
      rw [Watched.meets_pure]
      exact ⟨(kept.note .chmod true rfl).heldBy, rfl, fun unlinks => (elsewhere unlinks.1).elim,
        fun _ => kept.final⟩
    · rw [Watched.meets_pure]
      exact ⟨(kept.note .chmod false rfl).heldBy, rfl, fun unlinks => (elsewhere unlinks.1).elim,
        fun _ => kept.final⟩
  · intro windows
    rw [Decidable.not_not] at windows
    rw [Watched.meets_bind, isFinal, Watched.meets_look, Watched.meets_ite]
    constructor
    · intro present
      rw [Watched.meets_bind]
      refine meets_attempt (fun files' succeeds made => ?_) fun failed => ?_
      · obtain ⟨bytes, -, rfl⟩ := Option.map_eq_some_iff.1 made
        rw [Watched.meets_pure]
        have held : Held m before pinned past := kept.heldBy
        refine ⟨held.note .unlinkFinal true fun bytes holds => (by cases holds), rfl, fun _ => rfl,
          fun stays => (stays ⟨windows, ?_, succeeds⟩).elim⟩
        rw [← kept.final]
        exact present
      · rw [Watched.meets_pure]
        refine ⟨(kept.note .unlinkFinal false rfl).heldBy, rfl, fun unlinks => ?_,
          fun _ => kept.final⟩
        rcases failed with failed | absent
        · cases failed.symm.trans unlinks.2.2
        · rw [Option.map_eq_none_iff.1 absent] at present
          cases present
    · intro absent
      rw [Watched.meets_pure]
      refine ⟨kept.heldBy, rfl, fun unlinks => ?_, fun _ => kept.final⟩
      rw [kept.final] at absent
      exact (absent unlinks.2.1).elim

/-- What `install` does once it has a temporary file, as far as it depends on nothing else. -/
structure Replaces (m : Machine) (w : World) (pinned : String) : Prop where
  downloads : Downloads m w
  reads : w.readsTemporary = true
  hash : m.sha256 w.body = pinned

/-- The destination is unlinked for a file that cannot be moved to it. -/
def Vain (m : Machine) (w : World) (before : Option Bytes) : Prop :=
  Unlinks m w before ∧ w.renames = false

theorem replace_meets {c : Choice} {final temporary : String} (kept : Kept before files past) :
    (replace m w c final temporary files).Meets
      (fun _ files' past' => Held m before c.pinned past' ∧
        ¬(Replaces m w c.pinned ∧ Vain m w before) ∧
        ∃ bytes, files' = ⟨some bytes, none⟩ ∧ m.sha256 bytes = c.pinned)
      (fun _ files' past' => Held m before c.pinned past' ∧
        (Replaces m w c.pinned ∧ Vain m w before → files'.final = none) ∧
        (¬(Replaces m w c.pinned ∧ Vain m w before) → files'.final = before))
      past := by
  unfold replace
  rw [Watched.meets_bind]
  refine (download_meets kept).mono ?_ ?_
  · rintro _ files' past' ⟨kept', downloads, temporary'⟩
    rw [Watched.meets_bind, hashTemporary, Watched.meets_look, Watched.meets_bind,
      Watched.meets_throwIf, temporary']
    have matching : (if w.readsTemporary then (some w.body).map m.sha256 else none) =
        some c.pinned ↔ w.readsTemporary = true ∧ m.sha256 w.body = c.pinned := by
      simp
    rw [Ne, matching, Decidable.not_not]
    refine ⟨fun wrong => ?_, fun ⟨reads, hash⟩ => ?_⟩
    · exact ⟨kept'.heldBy, fun both => (wrong ⟨both.1.reads, both.1.hash⟩).elim,
        fun _ => kept'.final⟩
    have replaces : Replaces m w c.pinned := ⟨downloads, reads, hash⟩
    rw [Watched.meets_bind]
    refine (makeReady_meets c.pinned kept').mono ?_ fun _ _ _ => False.elim
    rintro _ files'' past'' ⟨held, same, unlinked, stays⟩
    rw [Watched.meets_bind]
    refine meets_attempt (fun files' renames made => ?_) fun failed => ?_
    · obtain ⟨bytes, holds, rfl⟩ := Option.map_eq_some_iff.1 made
      rw [same, temporary'] at holds
      cases holds
      rw [Watched.meets_throwIf]
      refine ⟨fun moved => (by cases moved), fun _ => ⟨?_, fun both => ?_, w.body, rfl, hash⟩⟩
      · refine held.note .rename true fun bytes now => .inr ?_
        cases now
        exact hash
      · cases renames.symm.trans both.2.2
    · have fails : w.renames = false := by
        rcases failed with failed | absent
        · exact failed
        · rw [Option.map_eq_none_iff, same, temporary'] at absent
          cases absent
      rw [Watched.meets_throwIf]
      refine ⟨fun _ => ⟨?_, fun both => unlinked both.2.1, fun spared => ?_⟩,
        fun moved => absurd rfl moved⟩
      · refine held.note .rename false fun bytes now => .inl ?_
        rcases (Classical.em (Unlinks m w before)).imp unlinked stays with gone | same'
        · cases gone.symm.trans now
        · exact same'.symm.trans now
      · exact stays fun unlinks => spared ⟨replaces, unlinks, fails⟩
  · rintro _ files' past' ⟨kept', fails⟩
    exact ⟨kept'.heldBy, fun both => (fails both.1.downloads).elim, fun _ => kept'.final⟩

/-! ## The whole run -/

/-- The temporary file is removed, or its unlink fails; the destination is not touched. -/
theorem cleanUp_meets {pinned : String} (held : Held m before pinned past)
    (now : ∀ bytes, files.final = some bytes → before = some bytes ∨ m.sha256 bytes = pinned) :
    (cleanUp w files).Meets
      (fun _ files' past' => Held m before pinned past' ∧ files'.final = files.final ∧
        (files'.temporary = none ∨ StaysBehind past'))
      (fun _ _ _ => False) past := by
  unfold cleanUp
  rw [Watched.meets_bind, isTemporary, Watched.meets_look, Watched.meets_ite]
  constructor
  · intro present
    rw [Watched.meets_bind]
    refine meets_attempt (fun files' _ made => ?_) fun _ => ?_
    · obtain ⟨bytes, -, rfl⟩ := Option.map_eq_some_iff.1 made
      rw [Watched.meets_pure]
      exact ⟨held.note .unlinkTemporary true now, rfl, .inl rfl⟩
    · rw [Watched.meets_pure]
      refine ⟨held.note .unlinkTemporary false now, rfl, .inr ?_⟩
      exact ⟨_, List.mem_append_right _ (List.mem_singleton_self _), rfl, rfl⟩
  · intro absent
    rw [Option.isSome_iff_ne_none, Decidable.not_not] at absent
    rw [Watched.meets_pure]
    exact ⟨held, rfl, .inl absent⟩

/-- The `try` of `install` with its `finally`. -/
theorem replace_cleanUp_meets {c : Choice} {final temporary : String}
    (kept : Kept before files past) :
    ((replace m w c final temporary).ensuring (cleanUp w) files).Meets
      (fun _ files' past' => Held m before c.pinned past' ∧
        (files'.temporary = none ∨ StaysBehind past') ∧
        ¬(Replaces m w c.pinned ∧ Vain m w before) ∧
        ∃ bytes, files'.final = some bytes ∧ m.sha256 bytes = c.pinned)
      (fun _ files' past' => Held m before c.pinned past' ∧
        (files'.temporary = none ∨ StaysBehind past') ∧
        (Replaces m w c.pinned ∧ Vain m w before → files'.final = none) ∧
        (¬(Replaces m w c.pinned ∧ Vain m w before) → files'.final = before))
      past := by
  rw [Watched.meets_ensuring]
  refine (replace_meets kept).mono ?_ ?_
  · rintro _ files' past' ⟨held, spared, bytes, rfl, hash⟩
    have now : ∀ bytes', some bytes = some bytes' →
        before = some bytes' ∨ m.sha256 bytes' = c.pinned := by
      rintro _ ⟨⟩
      exact .inr hash
    refine (cleanUp_meets held now).mono ?_ fun _ _ _ => False.elim
    rintro _ files'' past'' ⟨held', same, gone⟩
    exact ⟨held', gone, spared, bytes, same, hash⟩
  · rintro _ files' past' ⟨held, lost, stays⟩
    have now : ∀ bytes, files'.final = some bytes →
        before = some bytes ∨ m.sha256 bytes = c.pinned := by
      intro bytes holds
      rcases (Classical.em _).imp lost stays with gone | same
      · cases gone.symm.trans holds
      · exact .inl (same.symm.trans holds)
    refine (cleanUp_meets held now).mono ?_ fun _ _ _ => False.elim
    rintro _ files'' past'' ⟨held', same, gone⟩
    exact ⟨held', gone, fun both => same.trans (lost both), fun spared => same.trans (stays spared)⟩

theorem makeDirectory_meets {directory : String} (kept : Kept before files past) :
    (makeDirectory w directory files).Meets
      (fun _ files' past' => Kept before files' past' ∧ files'.temporary = files.temporary ∧
        (w.isDir = true ∨ w.mkdir = true ∨ w.isDirNow = true))
      (fun _ files' past' => Kept before files' past' ∧ files'.temporary = files.temporary ∧
        ¬(w.isDir = true ∨ w.mkdir = true ∨ w.isDirNow = true))
      past := by
  unfold makeDirectory
  rw [Watched.meets_ite]
  constructor
  · intro isDir
    rw [Watched.meets_pure]
    exact ⟨kept, rfl, .inl isDir⟩
  · intro notDir
    rw [Watched.meets_bind]
    refine meets_attempt (fun files' mkdir made => ?_) fun failed => ?_
    · cases made
      rw [Watched.meets_throwIf]
      exact ⟨fun failed => (by cases failed.1),
        fun _ => ⟨kept.note .mkdir true rfl, rfl, .inr (.inl mkdir)⟩⟩
    · have fails : w.mkdir = false := failed.resolve_right fun none => (by cases none)
      rw [Watched.meets_throwIf]
      refine ⟨fun missing => ⟨kept.note .mkdir false rfl, rfl, ?_⟩, fun found => ?_⟩
      · rintro (isDir | mkdir | isDirNow)
        · exact notDir isDir
        · cases fails.symm.trans mkdir
        · cases missing.2.symm.trans isDirNow
      · refine ⟨kept.note .mkdir false rfl, rfl, .inr (.inr ?_)⟩
        exact eq_true_of_ne_false fun missing => found ⟨rfl, missing⟩

theorem tempnam_meets (kept : Kept before files past) :
    (tempnam w files).Meets
      (fun name files' past' => Kept before files' past' ∧ name = w.tempnam ∧
        (name = none → files'.temporary = files.temporary))
      (fun _ _ _ => False) past := by
  unfold tempnam
  rw [Watched.meets_bind]
  refine meets_attempt (fun files' named made => ?_) fun failed => ?_
  · cases made
    rw [Watched.meets_pure]
    refine ⟨kept.note .tempnam true rfl, rfl, fun absent => ?_⟩
    rw [show w.tempnam = none from absent] at named
    cases named
  · have fails : w.tempnam = none := by
      rcases failed with failed | failed
      · exact Option.not_isSome_iff_eq_none.1 (Bool.not_eq_true _ ▸ failed)
      · cases failed
    rw [Watched.meets_pure]
    exact ⟨kept.note .tempnam false rfl, fails.symm, fun _ => rfl⟩

/-- Whether the destination needs no download. -/
def Already (m : Machine) (w : World) (a : Arguments) (before : Option Bytes) (pinned : String) :
    Prop :=
  a.force = false ∧ w.readsFinal = true ∧ before.map m.sha256 = some pinned

theorem installed_meets {pinned : String} (kept : Kept before files past) :
    (installed m w a.force pinned files).Meets
      (fun already files' past' => files' = files ∧ past' = past ∧
        (already = true ↔ Already m w a before pinned))
      (fun _ _ _ => False) past := by
  unfold installed Already
  rw [Watched.meets_ite, Watched.meets_pure, Watched.meets_bind, isFinal, Watched.meets_look,
    Watched.meets_ite, Watched.meets_bind, hashFinal, Watched.meets_look, Watched.meets_pure,
    Watched.meets_pure, kept.final]
  refine ⟨fun force => ?_, fun force => ⟨fun present => ?_, fun absent => ?_⟩⟩
  · simp [force]
  · simp [force]
  · rw [Option.not_isSome_iff_eq_none] at absent
    simp [absent]

/-- On Windows, a download of the pinned hash is about to take the place of another file: that one
is unlinked, and then the rename fails. -/
structure UnlinkedInVain (m : Machine) (w : World) (a : Arguments) (before : Option Bytes)
    (c : Choice) : Prop where
  needed : ¬Already m w a before c.pinned
  directory : w.isDir = true ∨ w.mkdir = true ∨ w.isDirNow = true
  tempnam : w.tempnam.isSome = true
  replaces : Replaces m w c.pinned
  vain : Vain m w before

/-- What a run leaves, once it is known what is to be installed. -/
theorem choice_meets {c : Choice} (chosen : choose m w a = .ok c) :
    (install m w a ⟨before, none⟩).Meets
      (fun _ files' notes => Held m before c.pinned notes ∧
        (files'.temporary = none ∨ StaysBehind notes) ∧ ¬UnlinkedInVain m w a before c ∧
        ∃ bytes, files'.final = some bytes ∧ m.sha256 bytes = c.pinned)
      (fun _ files' notes => Held m before c.pinned notes ∧
        (files'.temporary = none ∨ StaysBehind notes) ∧
        (UnlinkedInVain m w a before c → files'.final = none) ∧
        (¬UnlinkedInVain m w a before c → files'.final = before))
      [] := by
  have start : Kept before ⟨before, none⟩ [] := ⟨rfl, fun _ mem => (List.not_mem_nil mem).elim⟩
  unfold install
  rw [Watched.meets_bind, Watched.meets_lift, chosen]
  refine ⟨?_, fun e failed => (by cases failed)⟩
  rintro _ ⟨⟩
  rw [Watched.meets_bind]
  refine (installed_meets start).mono ?_ fun _ _ _ => False.elim
  rintro already _ _ ⟨rfl, rfl, already_iff⟩
  rw [Watched.meets_ite]
  refine ⟨fun already => ?_, fun needed => ?_⟩
  · rw [Watched.meets_pure]
    have found := already_iff.1 already
    refine ⟨start.heldBy, .inl rfl, fun vain => vain.needed found, ?_⟩
    exact Option.map_eq_some_iff.1 found.2.2
  rw [already_iff] at needed
  rw [Watched.meets_bind]
  refine (makeDirectory_meets start).mono ?_ ?_
  · rintro _ files' past' ⟨kept, same, directory⟩
    rw [Watched.meets_bind]
    refine (tempnam_meets kept).mono ?_ fun _ _ _ => False.elim
    rintro name files'' past'' ⟨kept', rfl, same'⟩
    cases named : w.tempnam with
    | none =>
      simp only [Watched.meets_lift]
      refine ⟨fun _ failed => (by cases failed), fun e _ => ?_⟩
      refine ⟨kept'.heldBy, .inl ((same' named).trans same), fun vain => ?_, fun _ => kept'.final⟩
      have := vain.tempnam
      rw [named] at this
      cases this
    | some temporary =>
      simp only [Watched.meets_bind]
      refine (replace_cleanUp_meets kept').mono ?_ ?_
      · rintro _ files₃ past₃ ⟨held, gone, spared, holds⟩
        rw [Watched.meets_pure]
        exact ⟨held, gone, fun vain => spared ⟨vain.replaces, vain.vain⟩, holds⟩
      · rintro _ files₃ past₃ ⟨held, gone, lost, stays⟩
        refine ⟨held, gone, fun vain => lost ⟨vain.replaces, vain.vain⟩, fun spared => ?_⟩
        refine stays fun both => spared ⟨needed, directory, ?_, both.1, both.2⟩
        rw [named]
        rfl
  · rintro _ files' past' ⟨kept, same, missing⟩
    exact ⟨kept.heldBy, .inl same, fun vain => (missing vain.directory).elim, fun _ => kept.final⟩

/-- The SHA-256 that is pinned for what the run is to install. -/
def Pinned (m : Machine) (w : World) (a : Arguments) (hash : String) : Prop :=
  ∃ c, choose m w a = .ok c ∧ c.pinned = hash

/-- The destination is of the pinned hash, or a failed installation has left it as it was; it was
never anything else; and nothing stays beside it. -/
structure LeavesInstalled (m : Machine) (w : World) (a : Arguments) (before : Option Bytes) :
    Prop where
  returned : ∀ text, (run m w a before).result = .ok text →
    ∃ bytes, (run m w a before).state.final = some bytes ∧ Pinned m w a (m.sha256 bytes)
  thrown : ∀ e, (run m w a before).result = .error e → (run m w a before).state.final = before
  held : ∀ e ∈ (run m w a before).notes, ∀ bytes, e.files.final = some bytes →
    before = some bytes ∨ Pinned m w a (m.sha256 bytes)
  cleaned : (run m w a before).state.temporary = none ∨ StaysBehind (run m w a before).notes

/-- A run that chooses nothing touches nothing. -/
theorem run_of_choose_error {e : Thrown} (refused : choose m w a = .error e) :
    run m w a before = ⟨.error e, ⟨before, none⟩, []⟩ := by
  have refused' : (Watched.lift (choose m w a) : Action Choice) ⟨before, none⟩ =
      ⟨.error e, ⟨before, none⟩, []⟩ := by
    rw [refused]
    rfl
  change Watched.bind _ _ _ = _
  rw [Watched.bind, refused']

theorem leavesInstalled_of_spared
    (spared : ∀ c, choose m w a = .ok c → ¬UnlinkedInVain m w a before c) :
    LeavesInstalled m w a before := by
  cases chosen : choose m w a with
  | error e =>
    have untouched := @run_of_choose_error m w a before e chosen
    refine ⟨fun _ ended => ?_, fun _ _ => ?_, fun _ mem => ?_, .inl ?_⟩
    · rw [untouched] at ended
      cases ended
    · rw [untouched]
    · rw [untouched] at mem
      exact (List.not_mem_nil mem).elim
    · rw [untouched]
  | ok c =>
    have meets := @choice_meets m w a before c chosen
    have held : Held m before c.pinned (run m w a before).notes ∧
        ((run m w a before).state.temporary = none ∨ StaysBehind (run m w a before).notes) := by
      cases ended : (run m w a before).result with
      | ok text =>
        have post := meets.returned text ended
        exact ⟨post.1, post.2.1⟩
      | error e =>
        have post := meets.thrown e ended
        exact ⟨post.1, post.2.1⟩
    refine ⟨fun text ended => ?_, fun e ended => ?_, fun e mem bytes holds => ?_, held.2⟩
    · obtain ⟨-, -, -, bytes, holds, hash⟩ := meets.returned text ended
      exact ⟨bytes, holds, c, chosen, hash.symm⟩
    · exact (meets.thrown e ended).2.2.2 (spared c chosen)
    · exact (held.1 e mem bytes holds).imp_right fun hash => ⟨c, chosen, hash.symm⟩

/-- Elsewhere than on Windows a failed installation always leaves the binary as it was. -/
theorem leavesInstalled_of_ne_windows (elsewhere : m.osFamily ≠ "Windows") :
    LeavesInstalled m w a before :=
  leavesInstalled_of_spared fun _ _ lost => elsewhere lost.vain.1.1

/-- A run leaves what was installed unless the destination is unlinked in vain. -/
theorem leavesInstalled_iff (m : Machine) (w : World) (a : Arguments) (before : Option Bytes) :
    LeavesInstalled m w a before ↔ ∀ c, choose m w a = .ok c → ¬UnlinkedInVain m w a before c := by
  refine ⟨fun leaves c chosen lost => ?_, leavesInstalled_of_spared⟩
  have meets := @choice_meets m w a before c chosen
  cases ended : (run m w a before).result with
  | ok text => exact (meets.returned text ended).2.2.1 lost
  | error e =>
    have gone := (meets.thrown e ended).2.2.1 lost
    have present := lost.vain.1.2.1
    rw [← leaves.thrown e ended] at present
    change (run m w a before).state.final = none at gone
    rw [gone] at present
    cases present

/-- Windows, with the SHA-256 of `"old"` and of `"new"`. -/
def windows : Machine where
  osFamily := "Windows"
  uname := "AMD64"
  sha256 bytes :=
    if bytes = [0x6E, 0x65, 0x77] then
      "11507a0e2f5e69d5dfa40a62a1bd7b6ee57e6bcd85c67c9b8431b36fff21c437"
    else "cba06b5736faf67e54b07b561eae94395e774c517a7d910a54369e1263ccfbd4"
  parseUrl _ := (some "https", some "github.com")
  jsonEncode _ := ""

/-- Every step succeeds but the rename, and the download is `"new"`, as pinned. -/
def renameFails : World where
  sums := some (("11507a0e2f5e69d5dfa40a62a1bd7b6ee57e6bcd85c67c9b8431b36fff21c437" ++
    "  v0.13.0/aprv-x86_64-pc-windows-msvc.exe\n").toList.map fun c => UInt8.ofNat c.toNat)
  readsFinal := true
  isDir := true
  mkdir := true
  isDirNow := true
  tempnam := some "C:\\bin\\.apr1.tmp"
  curl := true
  fopen := true
  curlInit := true
  chunks := [⟨[0x6E, 0x65, 0x77], 3⟩]
  curlExec := true
  error := ""
  effective := "https://github.com/"
  readsTemporary := true
  chmod := true
  unlinksFinal := true
  renames := false
  unlinksTemporary := true

/-- The destination held `"old"`, and after an installation that throws it is gone. -/
theorem installed_binary_lost :
    ¬LeavesInstalled windows renameFails ⟨"SHA256SUMS", "C:\\bin", none, none, false, none⟩
      (some [0x6F, 0x6C, 0x64]) := by
  intro leaves
  have both : (run windows renameFails ⟨"SHA256SUMS", "C:\\bin", none, none, false, none⟩
      (some [0x6F, 0x6C, 0x64])).result =
        .error (.install "cannot move the binary to C:\\bin\\aprv.exe" FAILED) ∧
      (run windows renameFails ⟨"SHA256SUMS", "C:\\bin", none, none, false, none⟩
        (some [0x6F, 0x6C, 0x64])).state.final = none := by
    decide +kernel
  obtain ⟨ended, gone⟩ := both
  cases (leaves.thrown _ ended).symm.trans gone

end Php.Installer

end ReceiptVerifier
