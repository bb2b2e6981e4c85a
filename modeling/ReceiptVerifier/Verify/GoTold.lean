import Mathlib.Data.List.Induction
import ReceiptVerifier.Verify.GoCalls
import ReceiptVerifier.Verify.GoHost

/-!
# What the instances of the Go pool were told

An input is cut to the cap that `init` stated to its own instance. That the cap is the one later
calls are told, and that a result goes to the caller who asked for it, is an invariant of the pool
(`Host.Told`) beside the one of its leases: every caller carries what it asked, every instance the
lengths it was told.
-/

namespace ReceiptVerifier

namespace Go

/-! ## What the instances of the pool were told -/

section

variable (config : Bytes) (unmarshal : Bytes → Option InitReply)

/-- A call of `init` with the pool's configuration, before a cap is known. -/
structure Call.First (call : Call) : Prop where
  fn : call.fn = "init"
  args : call.args = [.bytes config]
  told : ∀ e ∈ call.trace, Own 0 e

/-- An instance whose `init` stated the cap that every later call was told. -/
structure Guest.Opens (guest : Guest) (first : Call) (rest : List Call) : Prop where
  calls : guest.calls = first :: rest
  initial : first.First config
  stated : ∃ answer, first.result = .ok answer ∧ initAnswer unmarshal answer = .ok guest.maxInput
  told : ∀ call ∈ rest, ∀ e ∈ call.trace, Own guest.maxInput e

def Guest.Ready (guest : Guest) : Prop := ∃ first rest, guest.Opens config unmarshal first rest

/-- The instance was made, and its `init` stated no cap. -/
def Guest.Refused (guest : Guest) : Prop :=
  ∃ first, guest.calls.head? = some first ∧ first.First config ∧
    ∀ answer max, first.result = .ok answer → initAnswer unmarshal answer ≠ .ok max

/-- Where the result of a call comes from: a call on an instance that was ready, or no instance was
to be had. -/
inductive Served (fn : String) (args : List Value) (guests : Nat → Guest) :
    Except Error Bytes → Prop
  | call {g result} (ready : (guests g).Ready config unmarshal)
      (own : ∃ call ∈ (guests g).calls.tail,
        call.fn = fn ∧ call.args = args ∧ call.result = result) : Served fn args guests result
  | unmade (message) : Served fn args guests (.error (.instantiating (.text message)))
  | refused {g} (err) (refused : (guests g).Refused config unmarshal) :
      Served fn args guests (.error err)

/-- What a caller asked, as far as it still knows. -/
def Task.Asked (asked : Option (String × List Value)) : Task → Prop
  | .newPool => asked = none
  | .call fn args => asked = some (fn, args)

/-- What holds of a caller that asked something. -/
def Caller.Told (asked : Option (String × List Value)) (guests : Nat → Guest) : Caller → Prop
  | .absent => True
  | .getting fn args => asked = some (fn, args)
  | .instantiating task => task.Asked asked
  | .initialising task g run =>
    task.Asked asked ∧ (guests g).maxInput = 0 ∧ ∀ e ∈ run.trace, Own 0 e
  | .calling g run =>
    asked = some (run.fn, run.args) ∧ (guests g).Ready config unmarshal ∧
      ∀ e ∈ run.trace, Own (guests g).maxInput e
  | .putting g result =>
    (guests g).Ready config unmarshal ∧
      ∃ fn args, asked = some (fn, args) ∧ Served config unmarshal fn args guests result
  | .returned result =>
    ∃ fn args, asked = some (fn, args) ∧ Served config unmarshal fn args guests result
  | .opened _ => True

/-- The invariant of a run: what every caller asked, and what every instance was told. -/
structure Host.Told (s : Host) (events : List Event) : Prop where
  inv : s.Inv config unmarshal
  pooled : ∀ g ∈ s.pool, (s.guests g).Ready config unmarshal
  callers : ∀ c, (s.callers c).Told config unmarshal (asked events c) s.guests
  opened : s.opened = true ∨ entries events ≠ [] → ∃ g, (s.guests g).Ready config unmarshal
  entered : s.entered = (entries events).length + 1

end

section

variable {config : Bytes} {unmarshal : Bytes → Option InitReply} {guests guests' : Nat → Guest}

/-- An instance goes on: its calls stay, and it stays ready. -/
structure Guest.Grows (config : Bytes) (unmarshal : Bytes → Option InitReply)
    (guest guest' : Guest) : Prop where
  calls : guest.calls <+: guest'.calls
  ready : guest.Ready config unmarshal → guest'.Ready config unmarshal

theorem Guest.Grows.refl (guest : Guest) : guest.Grows config unmarshal guest :=
  ⟨List.prefix_rfl, id⟩

/-- An instance of the same calls and cap is as ready. -/
theorem Guest.Ready.congr {guest guest' : Guest} (ready : guest.Ready config unmarshal)
    (calls : guest'.calls = guest.calls) (maxInput : guest'.maxInput = guest.maxInput) :
    guest'.Ready config unmarshal := by
  obtain ⟨first, rest, opens⟩ := ready
  exact ⟨first, rest, calls.trans opens.calls, opens.initial, maxInput ▸ opens.stated,
    maxInput ▸ opens.told⟩

theorem Guest.Grows.same {guest guest' : Guest} (calls : guest'.calls = guest.calls)
    (maxInput : guest'.maxInput = guest.maxInput) : guest.Grows config unmarshal guest' :=
  ⟨calls ▸ List.prefix_rfl, fun ready => ready.congr calls maxInput⟩

theorem Served.grows {fn : String} {args : List Value} {result : Except Error Bytes}
    (grows : ∀ g, (guests g).Grows config unmarshal (guests' g))
    (served : Served config unmarshal fn args guests result) :
    Served config unmarshal fn args guests' result := by
  cases served with
  | @call g _ ready own =>
    obtain ⟨call, mem, asked⟩ := own
    obtain ⟨more, calls⟩ := (grows g).calls
    refine .call (g := g) ((grows g).ready ready) ⟨call, ?_, asked⟩
    rw [← calls, List.tail_append_of_ne_nil (by rintro none; rw [none] at mem; cases mem)]
    exact List.mem_append_left _ mem
  | unmade message => exact .unmade message
  | @refused g err refused =>
    obtain ⟨first, head, rest⟩ := refused
    obtain ⟨more, calls⟩ := (grows g).calls
    refine .refused (g := g) err ⟨first, ?_, rest⟩
    rw [← calls, List.head?_append, head, Option.some_or]

/-- A caller looks at its own instance, and at no other but for where a result came from. -/
theorem Caller.Told.grows {asked : Option (String × List Value)} {caller : Caller}
    (told : caller.Told config unmarshal asked guests)
    (grows : ∀ g, (guests g).Grows config unmarshal (guests' g))
    (same : ∀ g, caller.holds = some g → guests' g = guests g) :
    caller.Told config unmarshal asked guests' := by
  cases caller with
  | initialising task g run => simpa only [Caller.Told, same g rfl] using told
  | calling g run => simpa only [Caller.Told, same g rfl] using told
  | putting g result =>
    obtain ⟨ready, fn, args, own, served⟩ := told
    exact ⟨(grows g).ready ready, fn, args, own, served.grows grows⟩
  | returned result =>
    obtain ⟨fn, args, own, served⟩ := told
    exact ⟨fn, args, own, served.grows grows⟩
  | _ => exact told

variable {s s' : Host} {events : List Event} {event : Event}

open Function (update)

theorem entries_append (events more : List Event) :
    entries (events ++ more) = entries events ++ entries more := List.filterMap_append

/-- A step of one caller, which enters nobody. -/
theorem Host.Told.move (told : s.Told config unmarshal events) {c : Nat}
    (inv : s'.Inv config unmarshal) (quiet : entries [event] = [])
    (entered : s'.entered = s.entered)
    (grows : ∀ g, (s.guests g).Grows config unmarshal (s'.guests g))
    (others : ∀ c', c' ≠ c → s'.callers c' = s.callers c')
    (same : ∀ c', c' ≠ c → ∀ g, (s.callers c').holds = some g → s'.guests g = s.guests g)
    (own : (s'.callers c).Told config unmarshal (asked events c) s'.guests)
    (pooled : ∀ g ∈ s'.pool, g ∈ s.pool ∨ (s'.guests g).Ready config unmarshal)
    (opened : s'.opened = true → s.opened = true ∨ ∃ g, (s'.guests g).Ready config unmarshal) :
    s'.Told config unmarshal (events ++ [event]) := by
  have still : entries (events ++ [event]) = entries events := by
    rw [entries_append, quiet, List.append_nil]
  have asks : ∀ c, asked (events ++ [event]) c = asked events c := by
    intro c
    cases c with
    | zero => rfl
    | succ c => rw [asked, asked, still]
  refine ⟨inv, ?_, ?_, ?_, ?_⟩
  · intro g mem
    obtain mem | ready := pooled g mem
    · exact (grows g).ready (told.pooled g mem)
    · exact ready
  · intro c'
    rw [asks]
    by_cases moved : c' = c
    · exact moved ▸ own
    · rw [others c' moved]
      exact (told.callers c').grows grows (same c' moved)
  · have before : s.opened = true ∨ entries events ≠ [] →
        ∃ g, (s'.guests g).Ready config unmarshal := by
      intro known
      obtain ⟨g, ready⟩ := told.opened known
      exact ⟨g, (grows g).ready ready⟩
    rw [still]
    rintro (now | entered)
    · exact (opened now).elim (fun open_ => before (.inl open_)) id
    · exact before (.inr entered)
  · rw [entered, told.entered, still]

theorem own_respond {guest : Guest} (alive : guest.dead = false)
    (answers : (r : Request) → Response r) (r : Request) :
    Own guest.maxInput ⟨r, guest.respond answers r⟩ := by
  cases r with
  | dead => exact alive
  | maxInput => rfl
  | _ => trivial

theorem exchange_cases {c g : Nat} {run : Run} {resume : Run → Caller}
    {answers : (r : Request) → Response r} (step : s.exchange c g run resume answers = some s') :
    ∃ r next, run.rest = .ask r next ∧
      s' = (s.change g ((s.guests g).record ⟨r, (s.guests g).respond answers r⟩)).move c
        (resume { run with
          trace := run.trace ++ [⟨r, (s.guests g).respond answers r⟩]
          rest := next ((s.guests g).respond answers r) }) := by
  unfold Host.exchange at step
  split at step
  · cases step
  · next r next rest => exact ⟨r, next, rest, (Option.some.inj step).symm⟩

/-- No instance but one changes, so no other caller's does. -/
theorem Host.Told.apart (told : s.Told config unmarshal events) {c c' g g' : Nat}
    (held : (s.callers c).holds = some g) (other : c' ≠ c)
    (held' : (s.callers c').holds = some g') : g' ≠ g := by
  rintro rfl
  exact other (told.inv.sound.alone held' held)

/-- A caller moves, and of the instances only its own goes on. -/
theorem Host.Told.use (told : s.Told config unmarshal events) {c g : Nat} {guest : Guest}
    {caller : Caller} (held : (s.callers c).holds = some g) (quiet : entries [event] = [])
    (inv : ((s.change g guest).move c caller).Inv config unmarshal)
    (grows : (s.guests g).Grows config unmarshal guest)
    (own : caller.Told config unmarshal (asked events c) (update s.guests g guest)) :
    ((s.change g guest).move c caller).Told config unmarshal (events ++ [event]) := by
  refine told.move (c := c) inv quiet rfl ?_ ?_ ?_ ?_ (fun g mem => .inl mem) .inl
  · intro g'
    by_cases changed : g' = g
    · subst changed
      simpa [Host.move, Host.change] using grows
    · simpa [Host.move, Host.change, changed] using Guest.Grows.refl _
  · intro c' other
    simp [Host.move, Host.change, other]
  · intro c' other g' held'
    simp [Host.move, Host.change, told.apart held other held']
  · simpa [Host.move, Host.change] using own

theorem Host.Told.exchange (told : s.Told config unmarshal events) {c g : Nat} {run : Run}
    {resume : Run → Caller} {answers : (r : Request) → Response r}
    (held : (s.callers c).holds = some g) (inv : s'.Inv config unmarshal)
    (quiet : entries [event] = []) (busy : (s.guests g).Busy run)
    (own : ∀ guest e run', guest.calls = (s.guests g).calls →
      guest.maxInput = (s.guests g).maxInput → Own guest.maxInput e → run'.fn = run.fn →
      run'.args = run.args → run'.trace = run.trace ++ [e] →
      (resume run').Told config unmarshal (asked events c) (update s.guests g guest))
    (step : s.exchange c g run resume answers = some s') :
    s'.Told config unmarshal (events ++ [event]) := by
  obtain ⟨r, next, rest, rfl⟩ := exchange_cases step
  refine told.use held quiet inv (.same rfl rfl) ?_
  exact own _ _ _ rfl rfl (own_respond (busy.alive rest) answers r) rfl rfl rfl

theorem Host.Told.reply (told : s.Told config unmarshal events) {c : Nat}
    {answers : (r : Request) → Response r}
    (step : s.step config unmarshal (.reply c answers) = some s') :
    s'.Told config unmarshal (events ++ [.reply c answers]) := by
  have inv := inv_step told.inv step
  have ok := told.inv.callers c
  have mine := told.callers c
  simp only [Host.step] at step
  split at step
  · next task g run at_ =>
    rw [at_] at ok mine
    obtain ⟨-, -, -, busy⟩ := ok
    obtain ⟨asks, unstated, told₀⟩ := mine
    refine told.exchange (by rw [at_]; rfl) inv rfl busy ?_ step
    intro guest e run' calls maxInput fits fn args trace
    refine ⟨asks, ?_, ?_⟩
    · simpa [maxInput] using unstated
    · rw [maxInput, unstated] at fits
      rw [trace]
      exact List.forall_mem_append.mpr ⟨told₀, List.forall_mem_singleton.mpr fits⟩
  · next g run at_ =>
    rw [at_] at ok mine
    obtain ⟨-, busy⟩ := ok
    obtain ⟨asks, ready, toldCap⟩ := mine
    refine told.exchange (by rw [at_]; rfl) inv rfl busy ?_ step
    intro guest e run' calls maxInput fits fn args trace
    refine ⟨by rw [asks, fn, args], ?_, ?_⟩
    · rw [Function.update_self]
      exact ready.congr calls maxInput
    · rw [Function.update_self, trace]
      rw [← maxInput] at toldCap
      exact List.forall_mem_append.mpr ⟨toldCap, List.forall_mem_singleton.mpr fits⟩
  · cases step

/-- A call that ended on a ready instance leaves it ready. -/
theorem Guest.Ready.ended {guest : Guest} {run : Run} {result : Except Error Bytes}
    (ready : guest.Ready config unmarshal) (told : ∀ e ∈ run.trace, Own guest.maxInput e) :
    (guest.ended run result).Ready config unmarshal := by
  obtain ⟨first, rest, opens⟩ := ready
  refine ⟨first, rest ++ [⟨run.fn, run.args, run.trace, result⟩], ?_, opens.initial,
    opens.stated, ?_⟩
  · rw [Guest.ended, opens.calls]
    rfl
  · exact List.forall_mem_append.mpr ⟨opens.told, List.forall_mem_singleton.mpr told⟩

theorem Host.Told.finishCall (told : s.Told config unmarshal events) {c g : Nat} {run : Run}
    {result : Except Error Bytes} (at_ : s.callers c = .calling g run)
    (quiet : entries [event] = [])
    (inv : ((s.change g ((s.guests g).ended run result)).move c
      (.putting g result)).Inv config unmarshal) :
    ((s.change g ((s.guests g).ended run result)).move c
      (.putting g result)).Told config unmarshal (events ++ [event]) := by
  have held : (s.callers c).holds = some g := by rw [at_]; rfl
  have mine := told.callers c
  rw [at_] at mine
  obtain ⟨asks, ready, toldCap⟩ := mine
  have later : ((s.guests g).ended run result).Ready config unmarshal := ready.ended toldCap
  refine told.use held quiet inv ⟨List.prefix_append _ _, fun _ => later⟩ ?_
  obtain ⟨first, rest, opens⟩ := ready
  have ready : (update s.guests g ((s.guests g).ended run result) g).Ready config unmarshal := by
    rw [Function.update_self]
    exact later
  refine ⟨ready, run.fn, run.args, asks, .call (g := g) ready ?_⟩
  · refine ⟨⟨run.fn, run.args, run.trace, result⟩, ?_, rfl, rfl, rfl⟩
    simp [Guest.ended, opens.calls]

/-- `newGuest` gives up: its caller is served no instance. -/
theorem told_fail {task : Task} {asked : Option (String × List Value)} {g : Nat} {err : Error}
    (asks : task.Asked asked) (refused : (guests g).Refused config unmarshal) :
    (task.fail err).Told config unmarshal asked guests := by
  cases task with
  | newPool => trivial
  | call fn args => exact ⟨fn, args, asks, .refused err refused⟩

theorem change_change (s : Host) (g : Nat) (guest guest' : Guest) :
    (s.change g guest).change g guest' = s.change g guest' := by
  simp [Host.change, Function.update_idem]

theorem Host.Told.finishInit (told : s.Told config unmarshal events) {c g : Nat} {run : Run}
    {task : Task} {result : Except Error Bytes} (at_ : s.callers c = .initialising task g run)
    (quiet : entries [event] = [])
    (inv : ((s.change g ((s.guests g).ended run result)).initialised unmarshal c g task
      result).Inv config unmarshal) :
    ((s.change g ((s.guests g).ended run result)).initialised unmarshal c g task
      result).Told config unmarshal (events ++ [event]) := by
  have held : (s.callers c).holds = some g := by rw [at_]; rfl
  have ok := told.inv.callers c
  have mine := told.callers c
  rw [at_] at ok mine
  obtain ⟨fn, args, calls, -⟩ := ok
  obtain ⟨asks, -, told₀⟩ := mine
  have current : (s.change g ((s.guests g).ended run result)).guests g =
      (s.guests g).ended run result := Function.update_self _ _ _
  let first : Call := ⟨run.fn, run.args, run.trace, result⟩
  have initial : first.First config := ⟨fn, args, told₀⟩
  have only : ((s.guests g).ended run result).calls = [first] := by
    rw [Guest.ended, calls]
    rfl
  have unready : ∀ guest, (s.guests g).calls <+: guest.calls →
      (s.guests g).Grows config unmarshal guest := by
    refine fun guest grown => ⟨grown, ?_⟩
    rintro ⟨first, rest, opens⟩
    rw [opens.calls] at calls
    cases calls
  have grown : (s.guests g).calls <+: ((s.guests g).ended run result).calls :=
    List.prefix_append _ _
  have refuses : ∀ guest, guest.calls = ((s.guests g).ended run result).calls →
      (∀ answer max, result = .ok answer → initAnswer unmarshal answer ≠ .ok max) →
      (update s.guests g guest g).Refused config unmarshal := by
    intro guest same unstated
    rw [Function.update_self]
    exact ⟨first, by rw [same, only]; rfl, initial, unstated⟩
  cases result with
  | error err =>
    exact told.use held quiet inv (unready _ grown) (told_fail asks (refuses _ rfl (by simp)))
  | ok answer =>
    unfold Host.initialised at inv ⊢
    dsimp only at inv ⊢
    cases stated : initAnswer unmarshal answer with
    | error err =>
      rw [stated] at inv
      dsimp only at inv ⊢
      rw [current, change_change] at inv ⊢
      refine told.use held quiet inv (unready _ grown) (told_fail asks (refuses _ rfl ?_))
      rintro _ max ⟨⟩
      rw [stated]
      simp
    | ok max =>
      rw [stated] at inv
      dsimp only at inv ⊢
      rw [current, change_change] at inv ⊢
      let guest : Guest := { (s.guests g).ended run (.ok answer) with maxInput := max }
      have ready : guest.Ready config unmarshal :=
        ⟨first, [], only, initial, ⟨answer, rfl, stated⟩, by simp⟩
      cases task with
      | newPool =>
        refine told.move (c := c) inv quiet rfl ?_ ?_ ?_ ?_ ?_ ?_
        · intro g'
          by_cases changed : g' = g
          · subst changed
            simpa [Host.move, Host.change] using unready guest grown
          · simpa [Host.move, Host.change, changed] using Guest.Grows.refl _
        · intro c' other
          simp [Host.move, Host.change, other]
        · intro c' other g' held'
          simp [Host.move, Host.change, told.apart held other held']
        · simp [Host.move, Caller.Told]
        · intro g' mem
          obtain rfl | mem := List.mem_cons.mp mem
          · right
            simpa [Host.move, Host.change] using ready
          · exact .inl mem
        · intro _
          right
          refine ⟨g, ?_⟩
          simpa [Host.move, Host.change] using ready
      | call fn' args' =>
        refine told.use held quiet inv (unready guest grown) ⟨asks, ?_, by simp [Run.start]⟩
        rw [Function.update_self]
        exact ready

theorem Host.Told.finish (told : s.Told config unmarshal events) {c : Nat}
    (step : s.step config unmarshal (.finish c) = some s') :
    s'.Told config unmarshal (events ++ [.finish c]) := by
  have inv := inv_step told.inv step
  simp only [Host.step] at step
  split at step
  · next task g run at_ =>
    split at step
    · next result rest =>
      obtain rfl := Option.some.inj step
      exact told.finishInit at_ rfl inv
    · cases step
  · next g run at_ =>
    split at step
    · next result rest =>
      obtain rfl := Option.some.inj step
      exact told.finishCall at_ rfl inv
    · cases step
  · cases step

theorem Guest.Grows.close (guest : Guest) : guest.Grows config unmarshal guest.close :=
  .same rfl rfl

/-- A caller moves, and no instance changes but for one that is closed or pooled again. -/
theorem Host.Told.pass (told : s.Told config unmarshal events) {c : Nat} {caller : Caller}
    (quiet : entries [event] = []) (inv : s'.Inv config unmarshal)
    (callers : s'.callers = update s.callers c caller) (guests : s'.guests = s.guests)
    (entered : s'.entered = s.entered) (opened : s'.opened = s.opened)
    (pooled : ∀ g ∈ s'.pool, g ∈ s.pool ∨ (s.guests g).Ready config unmarshal)
    (own : caller.Told config unmarshal (asked events c) s.guests) :
    s'.Told config unmarshal (events ++ [event]) := by
  refine told.move (c := c) inv quiet entered ?_ ?_ ?_ ?_ ?_ ?_
  · intro g
    rw [guests]
    exact .refl _
  · intro c' other
    rw [callers, Function.update_of_ne other]
  · intro c' _ g _
    rw [guests]
  · rw [callers, guests, Function.update_self]
    exact own
  · rw [guests]
    exact pooled
  · rw [opened]
    exact .inl

theorem Host.Told.put (told : s.Told config unmarshal events) {c : Nat} {size : UInt32}
    (step : s.step config unmarshal (.put c size) = some s') :
    s'.Told config unmarshal (events ++ [.put c size]) := by
  have inv := inv_step told.inv step
  have mine := told.callers c
  simp only [Host.step] at step
  split at step
  · next g result at_ =>
    obtain rfl := Option.some.inj step
    have held : (s.callers c).holds = some g := by rw [at_]; rfl
    rw [at_] at mine
    obtain ⟨ready, fn, args, asks, served⟩ := mine
    unfold Host.put at inv ⊢
    split
    · next dead =>
      rw [if_pos dead] at inv
      exact told.pass rfl inv rfl rfl rfl rfl (fun g mem => .inl mem) ⟨fn, args, asks, served⟩
    · next alive =>
      rw [if_neg alive] at inv
      split
      · next large =>
        rw [if_pos large] at inv
        refine told.use held rfl inv (.close _) ⟨fn, args, asks, served.grows fun g' => ?_⟩
        by_cases changed : g' = g
        · subst changed
          simpa using Guest.Grows.close _
        · simpa [changed] using Guest.Grows.refl _
      · next small =>
        rw [if_neg small] at inv
        refine told.pass rfl inv rfl rfl rfl rfl ?_ ⟨fn, args, asks, served⟩
        intro g' mem
        obtain rfl | mem := List.mem_cons.mp mem
        · exact .inr ready
        · exact .inl mem
  · cases step

theorem Host.Told.get (told : s.Told config unmarshal events) {c : Nat} {taken : Option Nat}
    (step : s.step config unmarshal (.get c taken) = some s') :
    s'.Told config unmarshal (events ++ [.get c taken]) := by
  have inv := inv_step told.inv step
  have mine := told.callers c
  simp only [Host.step] at step
  split at step
  · next fn args g at_ =>
    rw [at_] at mine
    split at step
    · next mem =>
      obtain rfl := Option.some.inj step
      refine told.pass rfl inv rfl rfl rfl rfl ?_ ⟨mine, told.pooled g mem, by simp [Run.start]⟩
      exact fun g' mem' => .inl (List.mem_of_mem_erase mem')
    · cases step
  · next fn args at_ =>
    rw [at_] at mine
    obtain rfl := Option.some.inj step
    exact told.pass rfl inv rfl rfl rfl rfl (fun g mem => .inl mem) mine
  · cases step

theorem Host.Told.instantiate (told : s.Told config unmarshal events) {c : Nat}
    {failure : Option String} (step : s.step config unmarshal (.instantiate c failure) = some s') :
    s'.Told config unmarshal (events ++ [.instantiate c failure]) := by
  have inv := inv_step told.inv step
  have mine := told.callers c
  simp only [Host.step] at step
  split at step
  · next task err at_ =>
    rw [at_] at mine
    obtain rfl := Option.some.inj step
    refine told.pass rfl inv rfl rfl rfl rfl (fun g mem => .inl mem) ?_
    cases task with
    | newPool => trivial
    | call fn args => exact ⟨fn, args, mine, .unmade err⟩
  · next task at_ =>
    rw [at_] at mine
    obtain rfl := Option.some.inj step
    refine told.pass rfl inv rfl rfl rfl rfl (fun g mem => .inl mem) ⟨mine, ?_, by simp [Run.start]⟩
    rw [told.inv.unmade s.made (Nat.le_refl _)]
  · cases step

theorem Host.Told.enter (told : s.Told config unmarshal events) {fn : String} {args : List Value}
    (step : s.step config unmarshal (.enter fn args) = some s') :
    s'.Told config unmarshal (events ++ [.enter fn args]) := by
  have inv := inv_step told.inv step
  simp only [Host.step] at step
  split at step
  · next open_ =>
    obtain rfl := Option.some.inj step
    have asks : ∀ c < s.entered, asked (events ++ [.enter fn args]) c = asked events c := by
      intro c entered
      cases c with
      | zero => rfl
      | succ c =>
        rw [told.entered] at entered
        rw [asked, asked, entries_append, List.getElem?_append_left (by omega)]
    refine ⟨inv, told.pooled, fun c => ?_, fun _ => told.opened (.inl open_), ?_⟩
    · by_cases new : c = s.entered
      · subst new
        have own : asked (events ++ [.enter fn args]) s.entered = some (fn, args) := by
          rw [told.entered, asked, entries_append]
          simp [entries]
        simpa [Host.move, Caller.Told] using own
      · have old : (s.move s.entered (.getting fn args)).callers c = s.callers c := by
          simp [Host.move, new]
        dsimp only
        rw [old]
        by_cases known : c < s.entered
        · rw [asks c known]
          exact told.callers c
        · rw [told.inv.absent c (by omega)]
          trivial
    · rw [entries_append, List.length_append]
      exact congrArg (· + 1) told.entered
  · cases step

theorem Host.Told.collect (told : s.Told config unmarshal events) {g : Nat}
    (step : s.step config unmarshal (.collect g) = some s') :
    s'.Told config unmarshal (events ++ [.collect g]) := by
  have inv := inv_step told.inv step
  simp only [Host.step] at step
  split at step
  · obtain rfl := Option.some.inj step
    refine told.pass (c := 0) rfl inv (Function.update_eq_self 0 s.callers).symm rfl rfl rfl ?_
      (told.callers 0)
    exact fun g' mem => .inl (List.mem_of_mem_erase mem)
  · cases step

theorem Host.Told.finalize (told : s.Told config unmarshal events) {g : Nat}
    (step : s.step config unmarshal (.finalize g) = some s') :
    s'.Told config unmarshal (events ++ [.finalize g]) := by
  have inv := inv_step told.inv step
  simp only [Host.step] at step
  split at step
  · next guard =>
    obtain ⟨live, ⟨unpooled, unheld⟩, -⟩ := guard
    obtain rfl := Option.some.inj step
    have grows : ∀ g', (s.guests g').Grows config unmarshal
        ((s.change g (s.guests g).close).guests g') := by
      intro g'
      by_cases changed : g' = g
      · subst changed
        simpa [Host.change] using Guest.Grows.close _
      · simpa [Host.change, changed] using Guest.Grows.refl _
    have same : ∀ c' g', (s.callers c').holds = some g' →
        (s.change g (s.guests g).close).guests g' = s.guests g' := by
      intro c' g' held
      have entered : c' < s.entered := by
        by_contra absent
        rw [told.inv.absent c' (by omega)] at held
        cases held
      have other : g' ≠ g := by
        rintro rfl
        exact unheld c' entered held
      simp [Host.change, other]
    refine told.move (c := 0) inv rfl rfl grows (fun _ _ => rfl) (fun c' _ => same c') ?_
      (fun g mem => .inl mem) .inl
    exact (told.callers 0).grows grows (same 0)
  · cases step

theorem told_init : Host.init.Told config unmarshal [] where
  inv := inv_init
  pooled _ mem := nomatch mem
  callers c := by
    by_cases first : c = 0
    · subst first
      simp [Host.init, Caller.Told, Task.Asked, asked]
    · simp [Host.init, first, Caller.Told]
  opened := by simp [Host.init, entries]
  entered := rfl

theorem told_step (told : s.Told config unmarshal events)
    (step : s.step config unmarshal event = some s') :
    s'.Told config unmarshal (events ++ [event]) := by
  cases event with
  | enter fn args => exact told.enter step
  | get c taken => exact told.get step
  | instantiate c failure => exact told.instantiate step
  | reply c answers => exact told.reply step
  | finish c => exact told.finish step
  | put c size => exact told.put step
  | collect g => exact told.collect step
  | finalize g => exact told.finalize step

theorem told_run : ∀ {events : List Event} {s : Host},
    Host.init.run config unmarshal events = some s → s.Told config unmarshal events := by
  intro events
  induction events using List.reverseRecOn with
  | nil =>
    rintro s ⟨⟩
    exact told_init
  | append_singleton events event ih =>
    intro s' run
    rw [Host.run, List.foldlM_append] at run
    obtain ⟨s, before, last⟩ := Option.bind_eq_some_iff.mp run
    refine told_step (ih before) ?_
    simpa using last

end

end Go

end ReceiptVerifier
