import Mathlib.Data.Multiset.Range
import ReceiptVerifier.Lib.Permits
import ReceiptVerifier.Lib.Tally
import ReceiptVerifier.Python.Host

/-!
# The Python pool

Nothing is asked of an instance once something it was asked raised (`Careful`), and what a thread
does with an instance is a bounded number of requests. The pool then moves as one behind a semaphore
does (`moves_of_goes`), so that no instance is shared, lost or used again after a fault, and no
permit is lost or given back twice (`Pool.Inv`).
-/

namespace ReceiptVerifier

namespace Python

/-! ## One call -/

def raised (e : Exchange Request Response) : Bool :=
  match e.response with
  | .ok _ => false
  | .error _ => true

/-- Nothing raised yet. -/
def Clean (trace : Trace) : Prop := ∀ e ∈ trace, raised e = false

theorem Clean.snoc {trace : Trace} {e : Exchange Request Response} (clean : Clean trace)
    (on : raised e = false) : Clean (trace ++ [e]) :=
  List.forall_mem_append.mpr ⟨clean, List.forall_mem_singleton.mpr on⟩

section

variable {α β : Type}

/-- Requests are made only while nothing raised, and where a call returns nothing did. -/
def Careful (p : Call α) : Prop :=
  ∀ trace, Clean trace → p.run.Obeys (fun trace _ => Clean trace)
    (fun trace outcome => ∀ a, outcome = .ok a → Clean trace) trace

theorem careful_pure (a : α) : Careful (pure a : Call α) := fun _ clean _ _ => clean

theorem careful_throw (fault : Fault) : Careful (throw fault : Call α) := fun _ clean _ _ => clean

theorem careful_ask (r : Request) : Careful (ask r) := by
  intro trace clean
  refine ⟨clean, fun response a returned => clean.snoc ?_⟩
  cases response with
  | ok answer => rfl
  | error type => cases returned

theorem Careful.bind {p : Call β} {f : β → Call α} (first : Careful p)
    (rest : ∀ b, Careful (f b)) : Careful (p >>= f) := by
  intro trace clean
  rw [ExceptT.run_bind, Program.obeys_bind]
  refine (first trace clean).mono fun trace outcome kept => ?_
  cases outcome with
  | error fault => exact nofun
  | ok b => exact rest b trace (kept b rfl)

/-- However it is answered, a call makes no more requests than this. -/
def Takes (n : Nat) (p : Call α) : Prop := p.run.Within n

theorem takes_pure (n : Nat) (a : α) : Takes n (pure a : Call α) := Program.within_pure n _

theorem takes_throw (n : Nat) (fault : Fault) : Takes n (throw fault : Call α) :=
  Program.within_pure n _

theorem takes_ask (r : Request) : Takes 1 (ask r) := fun _ => Program.within_pure 0 _

theorem Takes.bind {n m : Nat} {p : Call β} {f : β → Call α} (first : Takes n p)
    (rest : ∀ b, Takes m (f b)) : Takes (m + n) (p >>= f) := by
  rw [Takes, ExceptT.run_bind, Nat.add_comm]
  refine Program.Within.bind first fun outcome => ?_
  cases outcome with
  | error fault => exact Program.within_pure m _
  | ok b => exact rest b

end

theorem careful_place (data : Bytes) (pointer : Nat) : Careful (place data pointer) := by
  unfold place
  split
  · exact careful_pure ()
  · refine (careful_ask _).bind fun size => ?_
    split
    · exact careful_throw _
    · exact careful_ask _

theorem takes_place (data : Bytes) (pointer : Nat) : Takes 2 (place data pointer) := by
  unfold place
  split
  · exact takes_pure 2 ()
  · refine (takes_ask _).bind fun size => ?_
    split
    · exact takes_throw 1 _
    · exact takes_ask _

theorem careful_answer (fn : String) (area : Nat) : Careful (answer fn area) := by
  refine (careful_ask _).bind fun size => ?_
  split
  · exact careful_throw _
  · refine (careful_ask _).bind fun fields => ?_
    split
    · exact careful_throw _
    · split
      · exact careful_throw _
      · refine (careful_ask _).bind fun bytes => (careful_ask _).bind fun _ => ?_
        split
        · exact careful_throw _
        · exact careful_pure _

theorem takes_answer (fn : String) (area : Nat) : Takes 4 (answer fn area) := by
  refine (takes_ask _).bind fun size => ?_
  split
  · exact takes_throw 3 _
  · refine (takes_ask _).bind fun fields => ?_
    split
    · exact takes_throw 2 _
    · split
      · exact takes_throw 2 _
      · refine (takes_ask _).bind fun bytes => (takes_ask _).bind fun _ => ?_
        split
        · exact takes_throw 0 _
        · exact takes_pure 0 _

theorem careful_call (maxInput : Option Nat) (fn : String) (scalars : List Int) (data : Bytes) :
    Careful (call maxInput fn scalars data) :=
  (careful_ask _).bind fun _ => (careful_place _ _).bind fun _ => (careful_ask _).bind fun _ =>
    careful_answer fn _

theorem takes_call (maxInput : Option Nat) (fn : String) (scalars : List Int) (data : Bytes) :
    Takes 8 (call maxInput fn scalars data) :=
  (takes_ask _).bind fun _ => (takes_place _ _).bind fun _ => (takes_ask _).bind fun _ =>
    takes_answer fn _

/-! ## One borrowed instance -/

section

variable (config : Bytes) (accepts : String → Option Nat)

/-- An instance whose `init` stated this limit, and that raised nothing. -/
structure Fits (history : Trace) (maxInput : Option Nat) : Prop where
  stated : maxInput.isSome = true
  clean : Clean history
  opened : ∃ opening answer, opening <+: history ∧
    (create config accepts).run.Steps opening (.done (.ok (maxInput, answer)))

theorem careful_create : Careful (create config accepts) :=
  (careful_ask _).bind fun _ => (careful_call _ _ _ _).bind fun _ => careful_pure _

theorem takes_create : Takes 9 (create config accepts) :=
  (takes_ask _).bind fun _ => (takes_call _ _ _ _).bind fun _ => takes_pure 0 _

variable {config accepts}

/-- What is done with an instance that fits leaves it so where it returns. -/
theorem Careful.keeps {α : Type} {p : Call α} (careful : Careful p) {history : Trace}
    {maxInput : Option Nat} (fits : Fits config accepts history maxInput) :
    p.run.Obeys (fun trace _ => Clean trace)
      (fun trace outcome => ∀ a, outcome = .ok a → Fits config accepts trace maxInput) history := by
  refine (careful history fits.clean).steps.mono ?_
  rintro trace outcome ⟨kept, own, rfl, -⟩ a returned
  obtain ⟨opening, answer, before, made⟩ := fits.opened
  exact ⟨fits.stated, kept a returned, opening, answer, before.trans (List.prefix_append _ _), made⟩

/-- The instance a thread has fits, or there is none yet. -/
def Found (config : Bytes) (accepts : String → Option Nat) (history : Trace) :
    Option (Option Nat) → Prop
  | some maxInput => Fits config accepts history maxInput
  | none => history = []

theorem obeys_borrowed {history : Trace} {found : Option (Option Nat)}
    (start : Found config accepts history found) :
    (borrowed config accepts found).run.Obeys (fun trace _ => Clean trace)
      (fun trace outcome => ∀ maxInput, outcome = .ok maxInput →
        Fits config accepts trace maxInput) history := by
  cases found with
  | some maxInput =>
    intro maxInput' returned
    cases returned
    exact start
  | none =>
    obtain rfl : history = [] := start
    have clean : Clean [] := List.forall_mem_nil _
    rw [borrowed, ExceptT.run_bind, Program.obeys_bind]
    refine (careful_create config accepts [] clean).steps.mono ?_
    rintro trace outcome ⟨kept, own, rfl, made⟩
    cases outcome with
    | error fault => exact nofun
    | ok created =>
      obtain ⟨maxInput, answer⟩ := created
      cases maxInput with
      | none => exact nofun
      | some limit =>
        intro maxInput returned
        cases returned
        exact ⟨rfl, kept _ rfl, _, answer, List.prefix_rfl, made⟩

variable {T : Type}

theorem careful_finish (job : Job T) (maxInput : Option Nat) (text : String) :
    Careful (finish job maxInput text) := by
  unfold finish
  split
  · exact careful_throw _
  · exact (careful_ask _).bind fun _ => careful_pure _

theorem takes_finish (job : Job T) (maxInput : Option Nat) (text : String) :
    Takes 1 (finish job maxInput text) := by
  unfold finish
  split
  · exact takes_throw 1 _
  · exact (takes_ask _).bind fun _ => takes_pure 0 _

/-- What comes back with a result is the limit of the instance. -/
theorem finish_states (job : Job T) (maxInput : Option Nat) (text : String) {trace : Trace} :
    (finish job maxInput text).run.Obeys (fun _ _ => True)
      (fun _ outcome => ∀ kept result keep, outcome = .ok (kept, result, keep) → kept = maxInput)
      trace := by
  unfold finish
  split
  · exact fun _ _ _ => nofun
  · refine ⟨trivial, fun response => ?_⟩
    cases response with
    | error type => exact fun _ _ _ => nofun
    | ok size =>
      intro kept result keep returned
      cases returned
      rfl

/-- **An instance is used with care.** Requests are made of it only while nothing raised, and where
a result comes back nothing did, on an instance whose `init` accepted. -/
theorem obeys_serve (job : Job T) {history : Trace} {found : Option (Option Nat)}
    (start : Found config accepts history found) :
    (serve config accepts job found).run.Obeys (fun trace _ => Clean trace)
      (fun trace outcome => ∀ maxInput result keep, outcome = .ok (maxInput, result, keep) →
        Fits config accepts trace maxInput) history := by
  rw [serve, ExceptT.run_bind, Program.obeys_bind]
  refine (obeys_borrowed start).mono fun trace outcome borrowed => ?_
  cases outcome with
  | error fault => exact fun _ _ _ => nofun
  | ok maxInput =>
    have fits := borrowed maxInput rfl
    dsimp only
    rw [ExceptT.run_bind, Program.obeys_bind]
    refine ((careful_call maxInput job.fn job.scalars job.data).keeps fits).mono ?_
    intro trace outcome called
    cases outcome with
    | error fault => exact fun _ _ _ => nofun
    | ok text =>
      have finished := (careful_finish job maxInput text).keeps (called text rfl)
      refine (finished.and (finish_states job maxInput text)).mono ?_
      rintro trace outcome ⟨kept, states⟩ maxInput' result keep rfl
      obtain rfl := states _ _ _ rfl
      exact kept _ rfl

theorem takes_borrowed (found : Option (Option Nat)) :
    Takes 9 (borrowed config accepts found) := by
  cases found with
  | some maxInput => exact takes_pure 9 _
  | none =>
    refine (takes_create config accepts).bind (m := 0) fun created => ?_
    obtain ⟨maxInput, answer⟩ := created
    dsimp only
    split
    · exact takes_throw 0 _
    · exact takes_pure 0 _

theorem takes_serve (job : Job T) (found : Option (Option Nat)) :
    Takes 18 (serve config accepts job found) :=
  (takes_borrowed found).bind fun _ => (takes_call _ _ _ _).bind fun _ => takes_finish job _ _

end

/-! ## One step of the pool -/

section

variable {T : Type} {config : Bytes} {accepts : String → Option Nat} {size : Nat} {p q : Pool T}

/-- One step, by where its thread is. -/
inductive Pool.Goes (config : Bytes) (accepts : String → Option Nat) (size : Nat) (p : Pool T) :
    Pool.Event T → Pool T → Prop
  | enter (job) : Goes config accepts size p (.enter job)
      { p with threads := p.threads ++ [⟨job, .waiting⟩] }
  | acquire {c thread answers n} (at_ : p.threads[c]? = some thread)
      (point : thread.point = .waiting) (permits : p.permits = n + 1) :
      Goes config accepts size p (.step c answers)
        ({ p with permits := n }.move c thread .taking)
  | take {c thread answers inst free} (at_ : p.threads[c]? = some thread)
      (point : thread.point = .taking) (found : p.free = inst :: free) :
      Goes config accepts size p (.step c answers)
        ({ p with free := free }.move c thread
          (.serving inst.store (serve config accepts thread.job (some inst.maxInput)).run))
  | make {c thread answers} (at_ : p.threads[c]? = some thread) (point : thread.point = .taking)
      (found : p.free = []) :
      Goes config accepts size p (.step c answers)
        ({ p with made := p.made + 1 }.move c thread
          (.serving p.made (serve config accepts thread.job none).run))
  | exchange {c thread answers store r next} (at_ : p.threads[c]? = some thread)
      (point : thread.point = .serving store (.ask r next)) :
      Goes config accepts size p (.step c answers)
        ((p.record store ⟨r, answers r⟩).move c thread (.serving store (next (answers r))))
  | keep {c thread answers store maxInput result} (at_ : p.threads[c]? = some thread)
      (point : thread.point = .serving store (.done (.ok (maxInput, result, true)))) :
      Goes config accepts size p (.step c answers)
        (p.move c thread (.giving ⟨store, maxInput⟩ result))
  | drop {c thread answers store} {outcome : Except Fault (Option Nat × T × Bool)}
      (at_ : p.threads[c]? = some thread)
      (point : thread.point = .serving store (.done outcome)) :
      Goes config accepts size p (.step c answers)
        ({ p with gone := store :: p.gone }.move c thread
          (.releasing (Except.map (fun ended : Option Nat × T × Bool => ended.2.1) outcome)))
  | give {c thread answers inst result} (at_ : p.threads[c]? = some thread)
      (point : thread.point = .giving inst result) :
      Goes config accepts size p (.step c answers)
        ({ p with free := inst :: p.free }.move c thread (.releasing (.ok result)))
  | release {c thread answers outcome} (at_ : p.threads[c]? = some thread)
      (point : thread.point = .releasing outcome) (below : p.permits < size) :
      Goes config accepts size p (.step c answers)
        ({ p with permits := p.permits + 1 }.move c thread (.returned (outcome.mapError .fault)))
  | refuse {c thread answers outcome} (at_ : p.threads[c]? = some thread)
      (point : thread.point = .releasing outcome) (full : size ≤ p.permits) :
      Goes config accepts size p (.step c answers)
        (p.move c thread (.returned (.error .valueError)))

theorem Pool.goes_of_step {e : Pool.Event T} (h : p.step config accepts size e = some q) :
    p.Goes config accepts size e q := by
  cases e with
  | enter job =>
    cases h
    exact .enter job
  | step c answers =>
    rw [step] at h
    cases at_ : p.threads[c]? with
    | none => simp [at_] at h
    | some thread =>
      simp only [at_] at h
      cases point : thread.point with
      | waiting =>
        simp only [point] at h
        split at h
        · cases h
        · cases h
          exact .acquire at_ point (by omega)
      | taking =>
        simp only [point] at h
        cases found : p.free with
        | nil =>
          simp only [found] at h
          cases h
          exact .make at_ point found
        | cons inst free =>
          simp only [found] at h
          cases h
          exact .take at_ point found
      | serving store rest =>
        simp only [point] at h
        cases rest with
        | ask r next =>
          cases h
          exact .exchange at_ point
        | done outcome =>
          cases outcome with
          | error fault =>
            cases h
            exact .drop at_ point
          | ok ended =>
            obtain ⟨maxInput, result, keep⟩ := ended
            cases keep with
            | true =>
              cases h
              exact .keep at_ point
            | false =>
              cases h
              exact .drop at_ point
      | giving inst result =>
        simp only [point] at h
        cases h
        exact .give at_ point
      | releasing outcome =>
        simp only [point] at h
        split at h
        next full =>
          cases h
          exact .refuse at_ point full
        next below =>
          cases h
          exact .release at_ point (Nat.lt_of_not_le below)
      | returned outcome => simp [point] at h

/-! ## The semaphore -/

namespace Point

def permit : Point T → Permits.Point Nat
  | .waiting => .outside
  | .taking => .inside
  | .serving store _ => .holding store
  | .giving inst _ => .holding inst.store
  | .releasing _ => .leaving
  | .returned _ => .outside

/-- Has a permit. -/
def inside (point : Point T) : Bool := point.permit.admitted

/-- The instance a thread has. -/
def holds (point : Point T) : Option Nat := point.permit.resource

end Point

namespace Pool

/-- The pool as one behind a semaphore. -/
def permitted (p : Pool T) : Permits.Pool Nat where
  permits := p.permits
  free := Multiset.ofList (p.free.map Instance.store)
  threads := Permits.points (fun thread => thread.point.permit) p.threads
  gone := Multiset.ofList p.gone
  made := Multiset.range p.made

/-- One thread and the others, in the pool. -/
theorem permitted_move {c : Nat} {thread : Thread T} (at_ : p.threads[c]? = some thread) :
    ∃ rest, p.permitted.threads = thread.point.permit ::ₘ rest ∧
      ∀ (p' : Pool T) point, p'.threads = p.threads → (p'.move c thread point).permitted =
        { p'.permitted with threads := point.permit ::ₘ rest } := by
  obtain ⟨rest, before, after, -⟩ :=
    Permits.exists_rest (fun thread : Thread T => thread.point.permit) at_
  refine ⟨rest, before, fun p' point same => ?_⟩
  simp only [permitted, move, same, after]

/-- A step that changes nothing of the pool. -/
theorem permitted_stay {c : Nat} {thread : Thread T} (at_ : p.threads[c]? = some thread)
    {point : Point T} (same : point.permit = thread.point.permit) :
    (p.move c thread point).permitted = p.permitted := by
  obtain ⟨rest, before, after⟩ := permitted_move at_
  rw [after p point rfl, same, ← before]

open Permits (Move) in
/-- Every step is steps of a pool behind a semaphore, or a release too many. -/
theorem moves_of_goes {e : Event T} (goes : p.Goes config accepts size e q) :
    Relation.ReflTransGen Move p.permitted q.permitted ∨
      size ≤ p.permits ∧ ∃ (c : Nat) (thread : Thread T), p.threads[c]? = some thread ∧
        thread.point.permit = .leaving := by
  cases goes with
  | enter job =>
    refine .inl (.single ?_)
    have entered := Permits.points_append (fun thread : Thread T => thread.point.permit) p.threads
      ⟨job, .waiting⟩
    simp only [permitted, entered]
    exact .enter
  | @acquire c thread answers n at_ point permits =>
    obtain ⟨rest, before, after⟩ := permitted_move at_
    rw [point] at before
    rw [after { p with permits := n } .taking rfl]
    exact .inl (.single (.acquire before permits))
  | @take c thread answers inst free at_ point found =>
    obtain ⟨rest, before, after⟩ := permitted_move at_
    rw [point] at before
    rw [after { p with free := free } _ rfl]
    have head : p.permitted.free = inst.store ::ₘ Multiset.ofList (free.map Instance.store) := by
      simp only [permitted, found, List.map_cons, Multiset.cons_coe]
    exact .inl (.single (.take before head))
  | make at_ point found =>
    obtain ⟨rest, before, after⟩ := permitted_move at_
    rw [point] at before
    rw [after { p with made := p.made + 1 } _ rfl]
    have none : p.permitted.free = 0 := by
      simp only [permitted, found, List.map_nil, Multiset.coe_nil]
    have fresh : p.made ∉ p.permitted.made := Multiset.notMem_range_self
    have made : Multiset.range (p.made + 1) = p.made ::ₘ p.permitted.made :=
      Multiset.range_succ p.made
    have step : Move p.permitted _ := .make before none fresh
    rw [← made] at step
    exact .inl (.single step)
  | @exchange c thread answers store r next at_ point =>
    refine .inl ?_
    rw [permitted_stay (p := p.record store ⟨r, answers r⟩) at_ (by rw [point]; rfl)]
    exact Relation.ReflTransGen.refl
  | keep at_ point =>
    refine .inl ?_
    rw [permitted_stay at_ (by rw [point]; rfl)]
  | @drop c thread answers store outcome at_ point =>
    obtain ⟨rest, before, after⟩ := permitted_move at_
    rw [point] at before
    rw [after { p with gone := store :: p.gone } _ rfl]
    exact .inl (.single (.discard before))
  | @give c thread answers inst result at_ point =>
    obtain ⟨rest, before, after⟩ := permitted_move at_
    rw [point] at before
    rw [after { p with free := inst :: p.free } _ rfl]
    exact .inl (.single (.give before))
  | release at_ point below =>
    obtain ⟨rest, before, after⟩ := permitted_move at_
    rw [point] at before
    rw [after { p with permits := p.permits + 1 } _ rfl]
    exact .inl (.single (.release before))
  | refuse at_ point full => exact .inr ⟨full, _, _, at_, by rw [point]; rfl⟩

end Pool

end

/-! ## What holds in every state -/

section

variable {T : Type} (config : Bytes) (accepts : String → Option Nat)

/-- What a thread relies on. -/
def Point.Right (history : Nat → Trace) : Point T → Prop
  | .serving store rest =>
    rest.Obeys (fun trace _ => Clean trace)
      (fun trace outcome => ∀ maxInput result keep, outcome = .ok (maxInput, result, keep) →
        Fits config accepts trace maxInput) (history store) ∧ rest.Within 18
  | .giving inst _ => Fits config accepts (history inst.store) inst.maxInput
  | .returned outcome => outcome ≠ .error .valueError
  | _ => True

/-- The invariant of the pool. -/
structure Pool.Inv (size : Nat) (p : Pool T) : Prop where
  sound : Permits.Sound size p.permitted
  free : ∀ inst ∈ p.free, Fits config accepts (p.history inst.store) inst.maxInput
  threads : ∀ thread ∈ p.threads, thread.point.Right config accepts p.history
  /-- Nothing was asked of an instance after something raised. -/
  quiet : ∀ store, Clean (p.history store).dropLast
  blank : ∀ store, p.made ≤ store → p.history store = []

end

section

variable {T : Type} {config : Bytes} {accepts : String → Option Nat} {size : Nat} {p q : Pool T}

theorem Point.Right.update {point : Point T} {history : Nat → Trace} {store : Nat} {trace : Trace}
    (right : point.Right config accepts history) (other : point.holds ≠ some store) :
    point.Right config accepts (Function.update history store trace) := by
  cases point with
  | serving store' rest =>
    have differ : store' ≠ store := fun same => other (congrArg some same)
    simpa [Point.Right, differ] using right
  | giving inst result =>
    have differ : inst.store ≠ store := fun same => other (congrArg some same)
    simpa [Point.Right, differ] using right
  | waiting | taking | releasing outcome | returned outcome => exact right

namespace Pool

/-- One thread moves, and the others stay as they are. -/
theorem forall_move {c : Nat} {thread : Thread T} {point : Point T} {P : Thread T → Prop}
    (new : P { thread with point := point })
    (others : ∀ (j : Nat) thread', j ≠ c → p.threads[j]? = some thread' → P thread') :
    ∀ thread' ∈ (p.move c thread point).threads, P thread' := by
  intro thread' mem
  obtain ⟨j, at_⟩ := List.mem_iff_getElem?.mp mem
  simp only [move, List.getElem?_set] at at_
  split at at_
  next =>
    split at at_
    · cases at_
      exact new
    · cases at_
  next other => exact others j thread' (Ne.symm other) at_

theorem right_move {c : Nat} {thread : Thread T} {point : Point T} {history : Nat → Trace}
    (new : point.Right config accepts history)
    (others : ∀ (j : Nat) (thread' : Thread T), j ≠ c → p.threads[j]? = some thread' →
      thread'.point.Right config accepts history) :
    ∀ thread' ∈ (p.move c thread point).threads, thread'.point.Right config accepts history :=
  forall_move (P := fun thread => thread.point.Right config accepts history) new others

theorem Inv.others (inv : p.Inv config accepts size) {c : Nat} :
    ∀ (j : Nat) (thread' : Thread T), j ≠ c → p.threads[j]? = some thread' →
      thread'.point.Right config accepts p.history :=
  fun _ _ _ at_ => inv.threads _ (List.mem_of_getElem? at_)

theorem Inv.right (inv : p.Inv config accepts size) {c : Nat} {thread : Thread T}
    (at_ : p.threads[c]? = some thread) : thread.point.Right config accepts p.history :=
  inv.threads thread (List.mem_of_getElem? at_)

/-- A thread's instance is no other's, and not free. -/
theorem Inv.apart (inv : p.Inv config accepts size) {c store : Nat} {thread : Thread T}
    (at_ : p.threads[c]? = some thread) (holds : thread.point.permit = .holding store) :
    (∀ inst ∈ p.free, inst.store ≠ store) ∧
      (∀ (j : Nat) (thread' : Thread T), j ≠ c → p.threads[j]? = some thread' →
        thread'.point.holds ≠ some store) ∧ store < p.made := by
  obtain ⟨rest, before, -, others⟩ :=
    Permits.exists_rest (fun thread : Thread T => thread.point.permit) at_
  have held : p.permitted.threads = .holding store ::ₘ rest := by
    rw [← holds]
    exact before
  refine ⟨fun inst mem same => ?_, fun j thread' other at_' => ?_, ?_⟩
  · refine inv.sound.unfree held (Multiset.mem_coe.mpr ?_)
    exact same ▸ List.mem_map_of_mem mem
  · exact inv.sound.alone held _ (others j thread' other at_')
  · exact Multiset.mem_range.mp (inv.sound.held_made held)

theorem Inv.sound_step (inv : p.Inv config accepts size) {e : Event T}
    (goes : p.Goes config accepts size e q) : Permits.Sound size q.permitted := by
  obtain moves | ⟨full, c, thread, at_, leaving⟩ := moves_of_goes goes
  · exact Permits.sound_of_moves moves inv.sound
  · obtain ⟨rest, before, -⟩ := permitted_move at_
    rw [leaving] at before
    exact absurd (inv.sound.below before rfl) (Nat.not_lt.mpr full)

/-- Every step keeps it. -/
theorem Inv.step (inv : p.Inv config accepts size) {e : Event T}
    (h : p.step config accepts size e = some q) : q.Inv config accepts size := by
  have goes := goes_of_step h
  have sound := inv.sound_step goes
  cases goes with
  | enter job =>
    refine { sound, free := inv.free, threads := ?_, quiet := inv.quiet, blank := inv.blank }
    exact List.forall_mem_append.mpr ⟨inv.threads, List.forall_mem_singleton.mpr trivial⟩
  | acquire at_ point permits =>
    exact { sound, free := inv.free, threads := right_move trivial inv.others, quiet := inv.quiet
            blank := inv.blank }
  | @take c thread answers inst free at_ point found =>
    have fits := inv.free
    rw [found, List.forall_mem_cons] at fits
    refine { sound, free := fits.2, threads := right_move ?_ inv.others, quiet := inv.quiet
             blank := inv.blank }
    exact ⟨obeys_serve thread.job fits.1, takes_serve thread.job _⟩
  | @make c thread answers at_ point found =>
    refine { sound, free := inv.free, threads := right_move ?_ inv.others, quiet := inv.quiet
             blank := fun store le => inv.blank store (Nat.le_of_succ_le le) }
    exact ⟨obeys_serve thread.job (inv.blank p.made (Nat.le_refl _)), takes_serve thread.job _⟩
  | @exchange c thread answers store r next at_ point =>
    have holds : thread.point.permit = .holding store := by
      rw [point]
      rfl
    obtain ⟨unfree, alone, made⟩ := inv.apart at_ holds
    have right := inv.right at_
    rw [point] at right
    obtain ⟨⟨clean, obeys⟩, within⟩ := right
    refine { sound, free := ?_, threads := right_move ?_ ?_, quiet := ?_, blank := ?_ }
    · intro inst mem
      simpa [record, move, unfree inst mem] using inv.free inst mem
    · have now : (p.record store ⟨r, answers r⟩).history store =
          p.history store ++ [⟨r, answers r⟩] := Function.update_self ..
      refine ⟨?_, (within.next (answers r)).mono (by decide)⟩
      have next := obeys (answers r)
      rwa [← now] at next
    · intro j thread' other at_'
      exact (inv.others j thread' other at_').update (alone j thread' other at_')
    · intro store'
      by_cases same : store' = store
      · subst same
        simpa [record, move] using clean
      · simpa [record, move, same] using inv.quiet store'
    · intro store' unmade
      have other : store' ≠ store := by
        rintro rfl
        exact absurd made (Nat.not_lt.mpr unmade)
      simpa [record, move, other] using inv.blank store' unmade
  | keep at_ point =>
    have right := inv.right at_
    rw [point] at right
    exact { sound, free := inv.free, threads := right_move (right.1 _ _ _ rfl) inv.others
            quiet := inv.quiet, blank := inv.blank }
  | drop at_ point =>
    exact { sound, free := inv.free, threads := right_move trivial inv.others, quiet := inv.quiet
            blank := inv.blank }
  | give at_ point =>
    have right := inv.right at_
    rw [point] at right
    refine { sound, free := List.forall_mem_cons.mpr ⟨right, inv.free⟩
             threads := right_move trivial inv.others, quiet := inv.quiet, blank := inv.blank }
  | @release c thread answers outcome at_ point below =>
    refine { sound, free := inv.free, threads := right_move ?_ inv.others, quiet := inv.quiet
             blank := inv.blank }
    cases outcome <;> exact nofun
  | refuse at_ point full =>
    -- the thread still has its permit
    obtain ⟨rest, before, -⟩ := permitted_move at_
    rw [point] at before
    exact absurd (inv.sound.below before rfl) (Nat.not_lt.mpr full)

/-- The first instance fits, or was dropped. -/
theorem inv_new (positive : 1 ≤ size) {answers : List ((r : Request) → Response r)}
    {accepted : Bool} {answer : String}
    (made : new config accepts size answers = some (.ok (p, accepted, answer))) :
    p.Inv config accepts size ∧
      (create config accepts).run.Steps (p.history 0)
        (.done (.ok ((p.free.head?.bind Instance.maxInput), answer))) := by
  unfold new at made
  have steps := Program.steps_feed (create config accepts).run answers
  split at made
  · cases made
  · cases made
  next trace maxInput text fed =>
    rw [fed] at steps
    have clean : Clean trace :=
      steps.obeys (careful_create config accepts [] (List.forall_mem_nil _)) _ rfl
    cases made
    have first : Function.update (fun _ => []) 0 trace 0 = trace := Function.update_self ..
    have blank : ∀ store ≠ 0, Function.update (fun _ => []) 0 trace store = [] :=
      fun store other => Function.update_of_ne other ..
    refine ⟨{ sound := ?_, free := ?_, threads := List.forall_mem_nil _, quiet := ?_, blank := ?_ },
      ?_⟩
    · cases maxInput with
      | none => exact ⟨rfl, Nat.zero_le size, rfl, Multiset.nodup_range 1⟩
      | some limit => exact ⟨rfl, positive, rfl, Multiset.nodup_range 1⟩
    · cases maxInput with
      | none => exact List.forall_mem_nil _
      | some limit =>
        refine List.forall_mem_singleton.mpr ?_
        dsimp only
        rw [first]
        exact ⟨rfl, clean, trace, answer, List.prefix_rfl, steps⟩
    · intro store
      by_cases same : store = 0
      · subst same
        dsimp only
        rw [first]
        exact fun e mem => clean e (List.dropLast_subset _ mem)
      · dsimp only
        rw [blank store same]
        exact List.forall_mem_nil _
    · intro store unmade
      exact blank store (Nat.ne_of_gt unmade)
    · dsimp only
      rw [first]
      cases maxInput <;> exact steps

theorem inv_run {events : List (Event T)} (inv : p.Inv config accepts size)
    (h : p.run config accepts size events = some q) : q.Inv config accepts size := by
  induction events generalizing p with
  | nil =>
    obtain rfl := Option.some.inj h
    exact inv
  | cons e events ih =>
    obtain ⟨next, first, rest⟩ := Option.bind_eq_some_iff.mp h
    exact ih (inv.step first) rest

/-- A pool starts with no threads. -/
theorem threads_new {answers : List ((r : Request) → Response r)} {accepted : Bool}
    {answer : String} (made : new config accepts size answers = some (.ok (p, accepted, answer))) :
    p.threads = [] := by
  unfold new at made
  split at made
  · cases made
  · cases made
  · cases made
    rfl

/-! ### What the threads run -/

/-- The job of the thread that an event starts. -/
def Event.entered : Event T → List (Job T)
  | .enter job => [job]
  | .step _ _ => []

theorem jobs_move {c : Nat} {thread : Thread T} (at_ : p.threads[c]? = some thread)
    (point : Point T) :
    (p.move c thread point).threads.map Thread.job = p.threads.map Thread.job := by
  obtain ⟨inside, own⟩ := List.getElem?_eq_some_iff.mp at_
  rw [move, List.map_set, ← own, ← List.getElem_map Thread.job (h := by simpa using inside)]
  exact List.set_getElem_self _

/-- A thread keeps its job. -/
theorem jobs_step {e : Event T} (h : p.step config accepts size e = some q) :
    q.threads.map Thread.job = p.threads.map Thread.job ++ e.entered := by
  have kept : ∀ {p' : Pool T} {c : Nat} {thread : Thread T} (point : Point T),
      p'.threads = p.threads → p.threads[c]? = some thread →
        (p'.move c thread point).threads.map Thread.job = p.threads.map Thread.job ++ [] :=
    fun {p' c thread} point same at_ => by
      rw [jobs_move (same ▸ at_), same, List.append_nil]
  cases goes_of_step h with
  | enter job => exact List.map_append
  | acquire at_ | take at_ | make at_ | exchange at_ | keep at_ | drop at_ | give at_ | release at_
  | refuse at_ => exact kept _ rfl at_

theorem jobs_run {events : List (Event T)} (h : p.run config accepts size events = some q) :
    q.threads.map Thread.job = p.threads.map Thread.job ++ events.flatMap Event.entered := by
  induction events generalizing p with
  | nil =>
    obtain rfl := Option.some.inj h
    exact (List.append_nil _).symm
  | cons e events ih =>
    obtain ⟨next, first, rest⟩ := Option.bind_eq_some_iff.mp h
    rw [ih rest, jobs_step first, List.flatMap_cons, List.append_assoc]

end Pool

end

/-! ## Safety -/

section

variable {T : Type} {config : Bytes} {accepts : String → Option Nat} {size : Nat} {p p₀ : Pool T}

/-- What a pool of so many permits never loses. -/
structure Pool.Safe (config : Bytes) (accepts : String → Option Nat) (size : Nat) (p : Pool T) :
    Prop where
  /-- Each permit is free or with one thread inside. -/
  permits : p.permits + p.threads.countP (fun thread => thread.point.inside) = size
  /-- There are no more instances about than threads that may be inside. -/
  room : p.free.length + (p.threads.filterMap fun thread => thread.point.holds).length ≤ size
  /-- Each instance made is free, with one thread, or dropped. -/
  placed : (p.free.map Instance.store ++ p.threads.filterMap (fun thread => thread.point.holds) ++
    p.gone).Perm (List.range p.made)
  /-- A free one accepted the configuration, and nothing it was asked raised. -/
  free : ∀ inst ∈ p.free, Fits config accepts (p.history inst.store) inst.maxInput
  /-- Nothing is asked of one after something raised. -/
  quiet : ∀ store, Clean (p.history store).dropLast
  /-- The semaphore is never released too often. -/
  released : ∀ thread ∈ p.threads, thread.point ≠ .returned (.error .valueError)

theorem admitted_points (threads : List (Thread T)) :
    Permits.admitted (Permits.points (fun thread => thread.point.permit) threads) =
      threads.countP fun thread => thread.point.inside := by
  induction threads with
  | nil => rfl
  | cons thread threads ih =>
    have head : Permits.points (fun thread : Thread T => thread.point.permit) (thread :: threads) =
        thread.point.permit ::ₘ Permits.points (fun thread => thread.point.permit) threads := rfl
    rw [head, Permits.admitted_cons, ih, List.countP_cons, Point.inside]
    cases thread.point.permit.admitted <;> rfl

theorem heldBy_points (threads : List (Thread T)) :
    Permits.heldBy (Permits.points (fun thread => thread.point.permit) threads) =
      Multiset.ofList (threads.filterMap fun thread => thread.point.holds) := by
  have merged : (threads.map fun thread => thread.point.permit).filterMap Permits.Point.resource =
      threads.filterMap fun thread => thread.point.holds := List.filterMap_map ..
  rw [← merged]
  exact Multiset.filterMap_coe ..

theorem Pool.Inv.safe (inv : p.Inv config accepts size) : p.Safe config accepts size where
  permits := by
    rw [← admitted_points]
    exact inv.sound.permits
  room := by
    have room := inv.sound.room
    simpa [permitted, heldBy_points] using room
  placed := by
    have placed := inv.sound.placed
    simp only [permitted, heldBy_points, Multiset.coe_add] at placed
    exact Multiset.coe_eq_coe.mp placed
  free := inv.free
  quiet := inv.quiet
  released thread mem same := by
    have right := inv.threads thread mem
    rw [same] at right
    exact right rfl

/-- **No instance is shared, lost or used after a fault, and no permit either.** Whatever wasmtime
answers or raises, in any order of the threads' steps, the pool stays safe. -/
theorem pool_is_safe (positive : 1 ≤ size) {answers : List ((r : Request) → Response r)}
    {accepted : Bool} {answer : String}
    (made : Pool.new config accepts size answers = some (.ok (p₀, accepted, answer)))
    {events : List (Pool.Event T)}
    (run : p₀.run config accepts size events = some p) : p.Safe config accepts size :=
  (Pool.inv_run (Pool.inv_new positive made).1 run).safe

end

namespace Sample

/-- wasmtime over an instance that answers the empty text. -/
def replies : (r : Request) → Response r
  | .instantiate => .ok ()
  | .realloc _ => .ok 8
  | .dataLen => .ok 64
  | .write _ _ => .ok ()
  | .invoke _ _ _ _ => .ok 16
  | .read start stop => .ok (List.replicate (stop - start) 0)
  | .post _ _ => .ok ()

def job : Job Unit := ⟨"verify-receipt", [0], [1], fun _ => .ok ()⟩

/-- Two threads: wasmtime raises at the first thing one asks, and the other takes a permit. -/
def events : List (Pool.Event Unit) :=
  [.enter job, .enter job, .step 0 replies, .step 0 replies, .step 0 fun _ => .error "Trap",
    .step 1 replies, .step 0 replies]

end Sample

/-- Two threads of which the first meets a trap. -/
theorem pool_is_safe_trap : ∃ p₀ p : Pool Unit,
    Pool.new [] (fun _ => some 8) 2 (List.replicate 7 Sample.replies) =
      some (.ok (p₀, true, "")) ∧
    p₀.run [] (fun _ => some 8) 2 Sample.events = some p ∧ p.Safe [] (fun _ => some 8) 2 := by
  refine ⟨_, _, rfl, rfl, ?_⟩
  exact pool_is_safe (by decide)
    (show Pool.new [] (fun _ => some 8) 2 (List.replicate 7 Sample.replies) = _ from rfl)
    (show Pool.run [] (fun _ => some 8) 2 _ Sample.events = _ from rfl)

/-! ## Every call returns -/

section

variable {T : Type} {config : Bytes} {accepts : String → Option Nat} {size : Nat}
  {p p₀ q : Pool T}

/-- The most steps a thread still takes. -/
noncomputable def Point.weight : Point T → Nat
  | .waiting => 23
  | .taking => 22
  | .serving _ rest => rest.height + 3
  | .giving _ _ => 2
  | .releasing _ => 1
  | .returned _ => 0

def Point.isReturned : Point T → Bool
  | .returned _ => true
  | _ => false

/-- A thread takes its next step, whatever wasmtime then answers. -/
def Pool.Event.Own (e : Pool.Event T) : Prop := ∃ c answers, e = .step c answers

namespace Pool

/-- The most steps the threads still take. -/
noncomputable def left (p : Pool T) : Nat := tally (fun thread => thread.point.weight) p.threads

theorem left_move {c : Nat} {thread : Thread T} (at_ : p.threads[c]? = some thread)
    {point : Point T} (lower : point.weight < thread.point.weight) :
    (p.move c thread point).left < p.left := by
  have changed := tally_set (fun thread : Thread T => thread.point.weight) at_
    { thread with point := point }
  dsimp only [left, move] at changed ⊢
  omega

/-- Every step of a thread lowers what is left. -/
theorem lowers (inv : p.Inv config accepts size) {e : Event T} (own : e.Own)
    (h : p.step config accepts size e = some q) : q.left < p.left := by
  obtain ⟨c, answers, rfl⟩ := own
  have served : ∀ (job : Job T) (found : Option (Option Nat)),
      (serve config accepts job found).run.height ≤ 18 :=
    fun job found => Program.height_le (takes_serve job found)
  cases goes_of_step h with
  | acquire at_ point permits | give at_ point | release at_ point below | refuse at_ point full =>
    exact left_move at_ (by rw [point]; simp [Point.weight])
  | keep at_ point | drop at_ point =>
    exact left_move at_ (by rw [point]; simp only [Point.weight]; omega)
  | @take _ thread _ inst _ at_ point found =>
    have bound := served thread.job (some inst.maxInput)
    exact left_move (p := { p with free := _ }) at_ (by rw [point]; simp only [Point.weight]; omega)
  | @make _ thread _ at_ point found =>
    have bound := served thread.job none
    exact left_move (p := { p with made := _ }) at_ (by rw [point]; simp only [Point.weight]; omega)
  | @exchange _ thread _ store r next at_ point =>
    have right := inv.right at_
    rw [point] at right
    have lower := Program.height_lt right.2 (answers r)
    refine left_move (p := p.record store ⟨r, answers r⟩) at_ ?_
    rw [point]
    simp only [Point.weight]
    omega

theorem weight_le (inv : p.Inv config accepts size) {thread : Thread T} (mem : thread ∈ p.threads) :
    thread.point.weight ≤ 23 * (!thread.point.isReturned).toNat := by
  have right := inv.threads thread mem
  cases point : thread.point with
  | serving store rest =>
    rw [point] at right
    have bound := Program.height_le right.2
    simp only [Point.weight, Point.isReturned, Bool.not_false, Bool.toNat_true]
    omega
  | waiting | taking | giving inst result | releasing outcome | returned outcome =>
    simp [Point.weight, Point.isReturned]

theorem tally_toNat (f : Thread T → Bool) (threads : List (Thread T)) :
    tally (fun thread => (f thread).toNat) threads = threads.countP f := by
  induction threads with
  | nil => rfl
  | cons thread threads ih =>
    rw [tally_cons, ih, List.countP_cons, Nat.add_comm]
    cases f thread <;> rfl

/-- A thread inside is never held up. -/
theorem step_of_inside {c : Nat} {thread : Thread T} (at_ : p.threads[c]? = some thread)
    (inside : thread.point.inside = true) (answers : (r : Request) → Response r) :
    p.step config accepts size (.step c answers) ≠ none := by
  rw [step]
  simp only [at_]
  cases point : thread.point with
  | waiting | returned outcome =>
    rw [point] at inside
    cases inside
  | taking =>
    dsimp only
    split <;> exact nofun
  | serving store rest => cases rest <;> exact nofun
  | giving inst result => exact nofun
  | releasing outcome =>
    dsimp only
    split <;> exact nofun

/-- Where no thread can take a step, every call has returned, and the permits and instances are
back. -/
theorem all_returned (positive : 1 ≤ size) (inv : p.Inv config accepts size)
    (rests : ∀ e : Event T, e.Own → p.step config accepts size e = none) :
    (∀ thread ∈ p.threads, ∃ outcome, thread.point = .returned outcome) ∧ p.permits = size ∧
      (p.free.map Instance.store ++ p.gone).Perm (List.range p.made) := by
  let answers : (r : Request) → Response r := fun _ => .error ""
  have outside : ∀ thread ∈ p.threads, thread.point.inside = false := by
    intro thread mem
    obtain ⟨c, at_⟩ := List.mem_iff_getElem?.mp mem
    refine Bool.eq_false_iff.mpr fun inside => ?_
    exact step_of_inside at_ inside answers (rests _ ⟨c, answers, rfl⟩)
  have permits := inv.safe.permits
  rw [List.countP_eq_zero.mpr fun thread mem => by simp [outside thread mem],
    Nat.add_zero] at permits
  have returned : ∀ thread ∈ p.threads, ∃ outcome, thread.point = .returned outcome := by
    intro thread mem
    obtain ⟨c, at_⟩ := List.mem_iff_getElem?.mp mem
    have still := outside thread mem
    cases point : thread.point with
    | returned outcome => exact ⟨outcome, rfl⟩
    | waiting =>
      have stuck := rests _ ⟨c, answers, rfl⟩
      simp only [step, at_, point] at stuck
      split at stuck
      · omega
      · cases stuck
    | taking | serving store rest | giving inst result | releasing outcome =>
      rw [point] at still
      cases still
  refine ⟨returned, permits, ?_⟩
  have placed := inv.safe.placed
  have none : p.threads.filterMap (fun thread => thread.point.holds) = [] := by
    refine List.filterMap_eq_nil_iff.mpr fun thread mem => ?_
    obtain ⟨outcome, point⟩ := returned thread mem
    rw [point]
    rfl
  rwa [none, List.append_nil] at placed

end Pool

/-- **Every call returns.** From every state the threads take at most 23 steps each, whatever
wasmtime answers or raises, and where they can take no more every call has returned, every permit is
back, and every instance is free or dropped. -/
theorem every_call_returns (positive : 1 ≤ size) {answers : List ((r : Request) → Response r)}
    {accepted : Bool} {answer : String}
    (made : Pool.new config accepts size answers = some (.ok (p₀, accepted, answer)))
    {events : List (Pool.Event T)}
    (run : p₀.run config accepts size events = some p) :
    (∀ own q, (∀ e ∈ own, Pool.Event.Own e) → p.run config accepts size own = some q →
      own.length ≤ 23 * p.threads.countP fun thread => !thread.point.isReturned) ∧
    (∃ own q, (∀ e ∈ own, Pool.Event.Own e) ∧ p.run config accepts size own = some q ∧
      ∀ e : Pool.Event T, e.Own → q.step config accepts size e = none) ∧
    ((∀ e : Pool.Event T, e.Own → p.step config accepts size e = none) →
      (∀ thread ∈ p.threads, ∃ outcome, thread.point = .returned outcome) ∧ p.permits = size ∧
        (p.free.map Instance.store ++ p.gone).Perm (List.range p.made)) := by
  have inv := Pool.inv_run (Pool.inv_new positive made).1 run
  have keeps : ∀ {s : Pool T} {e t}, s.Inv config accepts size →
      s.step config accepts size e = some t → t.Inv config accepts size := fun inv h => inv.step h
  have lower : ∀ {s : Pool T} {e : Pool.Event T} {t : Pool T}, s.Inv config accepts size → e.Own →
      s.step config accepts size e = some t → t.left < s.left :=
    fun inv own h => Pool.lowers inv own h
  refine ⟨fun own q steps ran => ?_, exists_run_to_rest keeps lower inv,
    Pool.all_returned positive inv⟩
  have bound := (length_le_of_lowers keeps lower steps inv ran).2
  have most : p.left ≤ 23 * tally (fun thread => (!thread.point.isReturned).toNat) p.threads :=
    tally_le fun thread mem => Pool.weight_le inv mem
  rw [Pool.tally_toNat fun thread => !thread.point.isReturned] at most
  omega

end

/-- The same two threads. -/
theorem every_call_returns_trap : ∃ p₀ p : Pool Unit,
    Pool.new [] (fun _ => some 8) 2 (List.replicate 7 Sample.replies) =
      some (.ok (p₀, true, "")) ∧
    p₀.run [] (fun _ => some 8) 2 Sample.events = some p ∧
    (∀ own q, (∀ e ∈ own, Pool.Event.Own e) → p.run [] (fun _ => some 8) 2 own = some q →
      own.length ≤ 23 * p.threads.countP fun thread => !thread.point.isReturned) ∧
    (∃ own q, (∀ e ∈ own, Pool.Event.Own e) ∧ p.run [] (fun _ => some 8) 2 own = some q ∧
      ∀ e : Pool.Event Unit, e.Own → q.step [] (fun _ => some 8) 2 e = none) ∧
    ((∀ e : Pool.Event Unit, e.Own → p.step [] (fun _ => some 8) 2 e = none) →
      (∀ thread ∈ p.threads, ∃ outcome, thread.point = .returned outcome) ∧ p.permits = 2 ∧
        (p.free.map Instance.store ++ p.gone).Perm (List.range p.made)) := by
  refine ⟨_, _, rfl, rfl, ?_⟩
  exact every_call_returns (by decide)
    (show Pool.new [] (fun _ => some 8) 2 (List.replicate 7 Sample.replies) = _ from rfl)
    (show Pool.run [] (fun _ => some 8) 2 _ Sample.events = _ from rfl)

end Python

end ReceiptVerifier
