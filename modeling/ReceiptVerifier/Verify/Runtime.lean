import ReceiptVerifier.Lib.Lease
import ReceiptVerifier.Server.Runtime

/-!
# The server's instances

The server's pool moves leases too: an instance is in the pool or with one caller, and the pool
holds those whose `init` accepted and whose calls did not fail (`Runtime.Inv`).
-/

namespace ReceiptVerifier

namespace Server

/-- The call ended in an error, whatever the instance was asked. -/
def Call.Failed (call : Call) : Prop := ∃ e, call.result = .error e

section

variable (config : Bytes) (json : SerdeJson)

/-- `init` got the configuration and accepted it. -/
def Call.Accepts (call : Call) : Prop :=
  call.op = .init ∧ call.input = config ∧
    ∃ answer max, call.result = .ok answer ∧ maxInputBytes json answer = .ok (some max)

/-- An instance to hand out: its `init` accepted, and no call of it failed. -/
def Fit (calls : List Call) : Prop :=
  (∃ call ∈ calls, call.Accepts config json) ∧ ∀ call ∈ calls, ¬ call.Failed

end

/-- The instances in the pool. -/
def Runtime.pool (s : Runtime) : List Nat :=
  match s.lifecycle with
  | some (.pool instances) => instances
  | _ => []

/-- The pool as leases of instances to callers. -/
def Runtime.leases (s : Runtime) : Lease.Pool Nat Nat Call where
  pooled := s.pool
  holds := Caller.holds ∘ s.callers
  made := {i | i < s.made}
  log := s.calls

/-- A caller in `Verifier::new`. -/
def Caller.starts : Caller → Bool
  | .instantiating (.new _) => true
  | .initialising (.new _) _ => true
  | _ => false

section

variable (config : Bytes) (json : SerdeJson)

/-- What holds where a caller is, of the instance it owns. -/
def Caller.Ok (calls : Nat → List Call) : Caller → Prop
  | .initialising _ i => calls i = []
  | .calling i _ _ => Fit config json (calls i)
  | .pushing i _ => Fit config json (calls i)
  | _ => True

/-- The invariant of the server. -/
structure Runtime.Inv (s : Runtime) : Prop where
  sound : Lease.Sound (Fit config json) s.leases
  unmade : ∀ i, s.made ≤ i → s.calls i = []
  callers : ∀ c, (s.callers c).Ok config json s.calls
  absent : ∀ c, s.entered ≤ c → s.callers c = .absent
  /-- A failed call is the last of its instance. -/
  last : ∀ i, (s.calls i).Pairwise fun call _ => ¬ call.Failed
  /-- Only the first caller starts the server, and before there is a pool. -/
  starts : ∀ c, (s.callers c).starts = true → c = 0 ∧ s.lifecycle = none

end

variable {config : Bytes} {json : SerdeJson} {s s' : Runtime}

open Function (update)

/-- What is asked of a caller looks at no instance but the one it holds. -/
theorem Caller.Ok.congr {calls calls' : Nat → List Call} {caller : Caller}
    (ok : caller.Ok config json calls)
    (same : ∀ i, caller.holds = some i → calls' i = calls i) : caller.Ok config json calls' := by
  cases caller with
  | initialising task i => simpa only [Caller.Ok, same i rfl] using ok
  | calling i op input => simpa only [Caller.Ok, same i rfl] using ok
  | pushing i out => simpa only [Caller.Ok, same i rfl] using ok
  | _ => trivial

theorem leases_move (s : Runtime) (c : Nat) (caller : Caller) :
    (s.move c caller).leases =
      { s.leases with holds := update s.leases.holds c caller.holds } := by
  simp only [Runtime.leases, Runtime.move, Runtime.pool, Function.comp_update]

/-- A caller that keeps what it holds keeps the leases. -/
theorem leases_move_same {c : Nat} {caller : Caller} (same : caller.holds = (s.callers c).holds) :
    (s.move c caller).leases = s.leases := by
  have : update s.leases.holds c caller.holds = s.leases.holds := by
    rw [same]
    exact Function.update_eq_self c s.leases.holds
  rw [leases_move, this]

/-- Of the callers one moves, and of the instances only its own changes. -/
theorem Runtime.Inv.move (inv : s.Inv config json) {c : Nat} {caller : Caller}
    (entered : s.callers c ≠ .absent)
    (moves : Relation.ReflTransGen (Lease.Move (Fit config json)) s.leases s'.leases)
    (callers : s'.callers = update s.callers c caller)
    (made : s.made ≤ s'.made) (entered' : s'.entered = s.entered)
    (same : ∀ i, s'.calls i ≠ s.calls i → (s.callers c).holds = some i)
    (last : ∀ i, (s'.calls i).Pairwise fun call _ => ¬ call.Failed)
    (ok : caller.Ok config json s'.calls)
    (starts : ∀ c', (s'.callers c').starts = true → c' = 0 ∧ s'.lifecycle = none) :
    s'.Inv config json where
  sound := Lease.sound_of_moves moves inv.sound
  unmade := by
    intro i large
    by_cases kept : s'.calls i = s.calls i
    · rw [kept, inv.unmade i (by omega)]
    · have live : i < s.made := inv.sound.held_made (h := c) (same i kept)
      omega
  callers := by
    intro c'
    rw [callers]
    by_cases own : c' = c
    · simpa [own] using ok
    · rw [Function.update_of_ne own]
      refine (inv.callers c').congr fun i held => ?_
      by_contra changed
      exact own (inv.sound.alone held (same i changed))
  absent := by
    intro c' large
    have other : c' ≠ c := by
      rintro rfl
      exact entered (inv.absent c' (by omega))
    rw [callers, Function.update_of_ne other, inv.absent c' (by omega)]
  last := last
  starts := starts

/-- A caller that moves starts the server only if it did before. -/
theorem starts_update {c c' : Nat} {caller : Caller}
    (quiet : caller.starts = true → (s.callers c).starts = true)
    (starts : (update s.callers c caller c').starts = true) : (s.callers c').starts = true := by
  by_cases own : c' = c
  · subst own
    rw [Function.update_self] at starts
    exact quiet starts
  · rwa [Function.update_of_ne own] at starts

/-- A caller that holds no instance before or after keeps the invariant. -/
theorem Runtime.Inv.pass (inv : s.Inv config json) {c : Nat} {caller : Caller}
    (entered : s.callers c ≠ .absent) (holds : caller.holds = none) (quiet : caller.starts = false)
    (ok : caller.Ok config json s.calls) : (s.move c caller).Inv config json := by
  refine inv.move entered ?_ rfl le_rfl rfl (fun i changed => absurd rfl changed) inv.last ok ?_
  · rw [leases_move, holds]
    exact .single .drop
  · intro c' starts
    exact inv.starts c' (starts_update (by simp [quiet]) starts)

/-- A new caller holds no instance. -/
theorem Runtime.Inv.enterAs (inv : s.Inv config json) {caller : Caller}
    (holds : caller.holds = none) (quiet : caller.starts = false)
    (ok : caller.Ok config json s.calls) :
    { s.move s.entered caller with entered := s.entered + 1 }.Inv config json := by
  have same : (s.move s.entered caller).leases = s.leases :=
    leases_move_same (by rw [holds, inv.absent s.entered le_rfl]; rfl)
  refine { inv with sound := same.symm ▸ inv.sound, callers := ?_, absent := ?_, starts := ?_ }
  · intro c
    by_cases own : c = s.entered
    · simpa [Runtime.move, own] using ok
    · simpa [Runtime.move, own] using inv.callers c
  · intro c large
    have later : s.entered + 1 ≤ c := large
    have other : c ≠ s.entered := by omega
    simpa [Runtime.move, other] using inv.absent c (by omega)
  · intro c starts
    exact inv.starts c (starts_update (by simp [quiet]) starts)

theorem Runtime.Inv.enter (inv : s.Inv config json) {op : InstanceOp} {input : Bytes}
    (step : s.step config json (.enter op input) = some s') : s'.Inv config json := by
  simp only [Runtime.step] at step
  split at step
  · cases step
  · obtain rfl := Option.some.inj step
    exact inv.enterAs rfl rfl trivial
  · obtain rfl := Option.some.inj step
    exact inv.enterAs rfl rfl trivial

theorem coe_snoc (instances : List Nat) (i : Nat) :
    ((instances ++ [i] : List Nat) : Multiset Nat) = i ::ₘ instances :=
  Multiset.coe_eq_coe.mpr (List.perm_append_singleton i instances)

/-- An instance taken from the pool is the caller's alone. -/
theorem Runtime.Inv.pop (inv : s.Inv config json) {c : Nat}
    (step : s.step config json (.pop c) = some s') : s'.Inv config json := by
  simp only [Runtime.step] at step
  split at step
  · next op input instances at_ lifecycle =>
    split at step
    · next i last =>
      obtain rfl := Option.some.inj step
      have pooled : s.leases.pooled = i ::ₘ (instances.dropLast : Multiset Nat) := by
        rw [← coe_snoc, List.dropLast_append_getLast? i last]
        simp [Runtime.leases, Runtime.pool, lifecycle]
      have taken : Lease.Move (Fit config json) s.leases
          { s.leases with
            pooled := s.leases.pooled.erase i
            holds := update s.leases.holds c (some i) } := .take (by simp [pooled])
      rw [pooled, Multiset.erase_cons_head] at taken
      refine inv.move (by simp [at_]) ?_ rfl le_rfl rfl (fun i changed => absurd rfl changed)
        inv.last ?_ ?_
      · refine .single ?_
        simpa [Runtime.leases, Runtime.move, Runtime.pool, Function.comp_update,
          Caller.holds] using taken
      · exact inv.sound.fit i (by simp [pooled])
      · intro c' starts
        have before := inv.starts c' (starts_update (by simp [Caller.starts]) starts)
        simp [lifecycle] at before
    · obtain rfl := Option.some.inj step
      exact inv.pass (by simp [at_]) rfl rfl trivial
  · cases step

theorem holds_fail (task : Task) (e : InvokeError) : (task.fail e).holds = none := by
  cases task <;> rfl

theorem starts_fail (task : Task) (e : InvokeError) : (task.fail e).starts = false := by
  cases task <;> rfl

theorem ok_fail (task : Task) (e : InvokeError) (calls : Nat → List Call) :
    (task.fail e).Ok config json calls := by
  cases task <;> trivial

/-- An instance that was just made belongs to the caller that made it. -/
theorem Runtime.Inv.instantiate (inv : s.Inv config json) {c : Nat} {failure : Option InvokeError}
    (step : s.step config json (.instantiate c failure) = some s') : s'.Inv config json := by
  simp only [Runtime.step] at step
  split at step
  · next task e at_ =>
    obtain rfl := Option.some.inj step
    exact inv.pass (by simp [at_]) (holds_fail task e) (starts_fail task e) (ok_fail task e _)
  · next task at_ =>
    obtain rfl := Option.some.inj step
    have made : Lease.Move (Fit config json) s.leases
        { s.leases with
          holds := update s.leases.holds c (some s.made)
          made := insert s.made s.leases.made } := .make (by simp [Runtime.leases])
    refine inv.move (by simp [at_]) ?_ rfl (Nat.le_succ _) rfl
      (fun i changed => absurd rfl changed) inv.last (inv.unmade s.made le_rfl) ?_
    · have grown : insert s.made {i | i < s.made} = {i | i < s.made + 1} := by
        ext i
        exact (Nat.lt_succ_iff_lt_or_eq.trans or_comm).symm
      refine .single ?_
      simpa [Runtime.leases, Runtime.move, Runtime.pool, Function.comp_update, Caller.holds,
        grown] using made
    · intro c' starts
      refine inv.starts c' (starts_update ?_ starts)
      rw [at_]
      cases task <;> simp [Caller.starts]
  · cases step

/-- A call ends on a caller's own instance, and the caller goes on from there. -/
theorem Runtime.Inv.use (inv : s.Inv config json) {c i : Nat} {caller : Caller} (call : Call)
    (held : (s.callers c).holds = some i) (fine : ∀ call ∈ s.calls i, ¬ call.Failed)
    (moves : Relation.ReflTransGen (Lease.Move (Fit config json)) (s.record i call).leases
      s'.leases)
    (callers : s'.callers = update s.callers c caller)
    (calls : s'.calls = (s.record i call).calls) (made : s'.made = s.made)
    (entered : s'.entered = s.entered) (ok : caller.Ok config json s'.calls)
    (starts : ∀ c', (s'.callers c').starts = true → c' = 0 ∧ s'.lifecycle = none) :
    s'.Inv config json := by
  have used : Lease.Move (Fit config json) s.leases (s.record i call).leases :=
    .use (h := c) held call
  have others : ∀ i', i' ≠ i → s'.calls i' = s.calls i' := by
    intro i' other
    rw [calls]
    simp [Runtime.record, other]
  refine inv.move ?_ (.head used moves) callers made.ge entered ?_ ?_ ok starts
  · intro absent
    rw [absent] at held
    cases held
  · intro i' changed
    have own : i' = i := by
      by_contra other
      exact changed (others i' other)
    rw [own, held]
  · intro i'
    by_cases own : i' = i
    · subst own
      rw [calls]
      simp only [Runtime.record, Function.update_self]
      refine List.pairwise_append.mpr ⟨inv.last i', List.pairwise_singleton _ _, ?_⟩
      exact fun call' mem _ _ => fine call' mem
    · rw [others i' own]
      exact inv.last i'

/-- An instance that is called once more and dropped. -/
theorem Runtime.Inv.useAndDrop (inv : s.Inv config json) {c i : Nat} {caller : Caller} (call : Call)
    (held : (s.callers c).holds = some i) (fine : ∀ call ∈ s.calls i, ¬ call.Failed)
    (holds : caller.holds = none) (quiet : caller.starts = false)
    (ok : ∀ calls, caller.Ok config json calls) :
    ((s.record i call).move c caller).Inv config json := by
  refine inv.use call held fine ?_ rfl rfl rfl rfl (ok _) ?_
  · rw [leases_move, holds]
    exact .single .drop
  · intro c' starts
    exact inv.starts c' (starts_update (by simp [quiet]) starts)

/-- One more call that did not fail, of an instance that fits. -/
theorem Fit.snoc {calls : List Call} {call : Call} (fit : Fit config json calls)
    (fine : ¬ call.Failed) : Fit config json (calls ++ [call]) := by
  obtain ⟨⟨first, mem, accepts⟩, all⟩ := fit
  exact ⟨⟨first, List.mem_append_left _ mem, accepts⟩,
    List.forall_mem_append.mpr ⟨all, List.forall_mem_singleton.mpr fine⟩⟩

theorem not_failed_ok {op : InstanceOp} {input : Bytes} {out : String} :
    ¬ (⟨op, input, .ok out⟩ : Call).Failed := by
  rintro ⟨e, ⟨⟩⟩

/-- The end of a call: the instance goes back only where it did not fail. -/
theorem Runtime.Inv.finishCall (inv : s.Inv config json) {c i : Nat} {op : InstanceOp}
    {input : Bytes} {result : Except InvokeError String}
    (at_ : s.callers c = .calling i op input) :
    ((s.record i ⟨op, input, result⟩).move c (.returned result)).Inv config json ∧
      ∀ out, result = .ok out →
        ((s.record i ⟨op, input, result⟩).move c (.pushing i out)).Inv config json := by
  have held : (s.callers c).holds = some i := by rw [at_]; rfl
  have fit : Fit config json (s.calls i) := by
    have ok := inv.callers c
    rwa [at_] at ok
  refine ⟨inv.useAndDrop _ held fit.2 rfl rfl (fun _ => trivial), ?_⟩
  rintro out rfl
  refine inv.use ⟨op, input, .ok out⟩ held fit.2 ?_ rfl rfl rfl rfl ?_ ?_
  · rw [leases_move_same (by exact held.symm)]
  · change Fit config json ((s.record i _).calls i)
    simpa [Runtime.record] using fit.snoc not_failed_ok
  · intro c' starts
    exact inv.starts c' (starts_update (by simp [Caller.starts]) starts)

theorem holds_refused (task : Task) (answer : String) : (task.refused answer).holds = none := by
  cases task <;> rfl

theorem starts_refused (task : Task) (answer : String) :
    (task.refused answer).starts = false := by
  cases task <;> rfl

theorem ok_refused (task : Task) (answer : String) (calls : Nat → List Call) :
    (task.refused answer).Ok config json calls := by
  cases task <;> trivial

/-- What `Verifier::new` or `invoke` does with an instance that is ready. -/
theorem Runtime.Inv.ready (inv : s.Inv config json) {c i max : Nat} {task : Task} {call : Call}
    (at_ : s.callers c = .initialising task i)
    (fit : Fit config json ((s.record i call).calls i)) :
    ((s.record i call).ready c i max task).Inv config json := by
  have held : (s.callers c).holds = some i := by rw [at_]; rfl
  have fine : ∀ call ∈ s.calls i, ¬ call.Failed := by
    have ok := inv.callers c
    rw [at_] at ok
    simp [show s.calls i = [] from ok]
  cases task with
  | new pool =>
    obtain ⟨first, none⟩ := inv.starts c (by rw [at_]; rfl)
    refine inv.use call held fine ?_ rfl rfl rfl rfl trivial ?_
    · have empty : (s.record i call).leases.pooled = 0 := by
        simp [Runtime.leases, Runtime.pool, Runtime.record, none]
      refine .single ?_
      cases pool with
      | false =>
        have dropped : Lease.Move (Fit config json) (s.record i call).leases
            { (s.record i call).leases with
              holds := update (s.record i call).leases.holds c Option.none } := .drop
        simpa [Runtime.leases, Runtime.ready, Runtime.move, Runtime.pool, Runtime.record, none,
          Function.comp_update, Caller.holds] using dropped
      | true =>
        have given : Lease.Move (Fit config json) (s.record i call).leases
            { (s.record i call).leases with
              pooled := i ::ₘ (s.record i call).leases.pooled
              holds := update (s.record i call).leases.holds c Option.none } := .give held fit
        rw [empty] at given
        simpa [Runtime.leases, Runtime.ready, Runtime.move, Runtime.pool, Runtime.record, none,
          Function.comp_update, Caller.holds] using given
    · intro c' starts
      have before := starts_update (by simp [Caller.starts]) starts
      have same : c' = c := (inv.starts c' before).1.trans first.symm
      simp [Runtime.ready, Runtime.move, Runtime.record, same, Caller.starts] at starts
  | invoke op input =>
    refine inv.use call held fine ?_ rfl rfl rfl rfl fit ?_
    · rw [Runtime.ready, leases_move_same (by exact held.symm)]
    · intro c' starts
      exact inv.starts c' (starts_update (by simp [Caller.starts]) starts)

/-- The end of `init`: the instance is kept only where the configuration was accepted. -/
theorem Runtime.Inv.finishInit (inv : s.Inv config json) {c i : Nat} {task : Task}
    {result : Except InvokeError String} (at_ : s.callers c = .initialising task i) :
    ((s.record i ⟨.init, config, result⟩).initialised json c i task result).Inv config json := by
  have held : (s.callers c).holds = some i := by rw [at_]; rfl
  have fresh : s.calls i = [] := by
    have ok := inv.callers c
    rwa [at_] at ok
  have fine : ∀ call ∈ s.calls i, ¬ call.Failed := by simp [fresh]
  cases result with
  | error e =>
    exact inv.useAndDrop _ held fine (holds_fail task e) (starts_fail task e) (ok_fail task e)
  | ok answer =>
    rw [Runtime.initialised]
    split
    · next e broken =>
      exact inv.useAndDrop _ held fine (holds_fail task e) (starts_fail task e) (ok_fail task e)
    · exact inv.useAndDrop _ held fine (holds_refused task answer) (starts_refused task answer)
        (ok_refused task answer)
    · next max accepted =>
      refine inv.ready at_ ?_
      have only : (s.record i ⟨.init, config, .ok answer⟩).calls i =
          [⟨.init, config, .ok answer⟩] := by
        simp [Runtime.record, fresh]
      rw [only]
      exact ⟨⟨_, List.mem_singleton_self _, rfl, rfl, answer, max, rfl, accepted⟩,
        List.forall_mem_singleton.mpr not_failed_ok⟩

theorem Runtime.Inv.call (inv : s.Inv config json) {c : Nat} {result : Except InvokeError String}
    (step : s.step config json (.call c result) = some s') : s'.Inv config json := by
  simp only [Runtime.step] at step
  split at step
  · next task i at_ =>
    obtain rfl := Option.some.inj step
    exact inv.finishInit at_
  · next i op input at_ =>
    split at step
    · next out instances lifecycle =>
      obtain rfl := Option.some.inj step
      exact (inv.finishCall at_).2 out rfl
    · obtain rfl := Option.some.inj step
      exact (inv.finishCall at_).1
  · cases step

/-- An instance goes back to the pool with its lease. -/
theorem Runtime.Inv.push (inv : s.Inv config json) {c : Nat}
    (step : s.step config json (.push c) = some s') : s'.Inv config json := by
  simp only [Runtime.step] at step
  split at step
  · next i out instances at_ lifecycle =>
    obtain rfl := Option.some.inj step
    have held : (s.callers c).holds = some i := by rw [at_]; rfl
    have fit : Fit config json (s.calls i) := by
      have ok := inv.callers c
      rwa [at_] at ok
    refine inv.move (by simp [at_]) ?_ rfl le_rfl rfl (fun i changed => absurd rfl changed)
      inv.last trivial ?_
    · have given : Lease.Move (Fit config json) s.leases
          { s.leases with
            pooled := i ::ₘ s.leases.pooled
            holds := update s.leases.holds c none } := .give held fit
      have pooled : i ::ₘ s.leases.pooled = ((instances ++ [i] : List Nat) : Multiset Nat) := by
        rw [coe_snoc]
        simp [Runtime.leases, Runtime.pool, lifecycle]
      rw [pooled] at given
      refine .single ?_
      simpa [Runtime.leases, Runtime.move, Runtime.pool, Function.comp_update,
        Caller.holds] using given
    · intro c' starts
      have before := inv.starts c' (starts_update (by simp [Caller.starts]) starts)
      simp [lifecycle] at before
  · cases step

/-- It holds before the first instance is made. -/
theorem inv_init (pool : Bool) : (Runtime.init pool).Inv config json where
  sound := by
    refine Lease.sound_of_empty rfl fun c => ?_
    change ((Runtime.init pool).callers c).holds = none
    by_cases first : c = 0
    · simp [Runtime.init, first, Caller.holds]
    · simp [Runtime.init, first, Caller.holds]
  unmade _ _ := rfl
  callers c := by
    by_cases first : c = 0
    · simp [Runtime.init, first, Caller.Ok]
    · simp [Runtime.init, first, Caller.Ok]
  absent c large := by
    have large : 1 ≤ c := large
    have other : c ≠ 0 := by omega
    simp [Runtime.init, other]
  last _ := .nil
  starts c starts := by
    refine ⟨?_, rfl⟩
    by_contra other
    simp [Runtime.init, other, Caller.starts] at starts

/-- Every step keeps it. -/
theorem inv_step (inv : s.Inv config json) {event : Event}
    (step : s.step config json event = some s') : s'.Inv config json := by
  cases event with
  | enter op input => exact inv.enter step
  | pop c => exact inv.pop step
  | instantiate c failure => exact inv.instantiate step
  | call c result => exact inv.call step
  | push c => exact inv.push step

/-- Every run keeps it. -/
theorem inv_run (inv : s.Inv config json) {events : List Event}
    (run : s.run config json events = some s') : s'.Inv config json :=
  rel_of_foldlM (R := fun s s' : Runtime => s.Inv config json → s'.Inv config json)
    (fun _ => id) (fun first rest inv => rest (first inv)) (fun step inv => inv_step inv step)
    run inv

/-- The record of an instance only grows. -/
theorem calls_record {i : Nat} {call : Call} (i' : Nat) :
    s.calls i' <+: (s.record i call).calls i' := by
  by_cases own : i' = i
  · simp [Runtime.record, own]
  · simp [Runtime.record, own]

/-- What follows `init` calls no instance. -/
theorem calls_initialised {c i : Nat} {task : Task} {result : Except InvokeError String} :
    (s.initialised json c i task result).calls = s.calls := by
  unfold Runtime.initialised
  split
  · rfl
  · split
    · rfl
    · rfl
    · cases task <;> rfl

/-- A step adds calls to an instance and takes none away. -/
theorem calls_step {event : Event} (step : s.step config json event = some s') (i : Nat) :
    s.calls i <+: s'.calls i := by
  unfold Runtime.step at step
  cases event with
  | call c result =>
    dsimp only at step
    split at step
    · obtain rfl := Option.some.inj step
      rw [calls_initialised]
      exact calls_record i
    · split at step
      · obtain rfl := Option.some.inj step
        exact calls_record i
      · obtain rfl := Option.some.inj step
        exact calls_record i
    · cases step
  | _ =>
    -- No other event calls an instance.
    dsimp only at step
    repeat' split at step
    all_goals first | (obtain rfl := Option.some.inj step; exact List.prefix_rfl) | cases step

/-- So does a run. -/
theorem calls_run {events : List Event} (run : s.run config json events = some s') (i : Nat) :
    s.calls i <+: s'.calls i :=
  rel_of_foldlM (R := fun s s' : Runtime => ∀ i, s.calls i <+: s'.calls i)
    (fun _ _ => List.prefix_rfl) (fun first rest i => (first i).trans (rest i))
    (fun step => calls_step step) run i

end Server

end ReceiptVerifier
