import ReceiptVerifier.Openssl.Handed
import ReceiptVerifier.Verify.Chunks

/-!
# What a walk hands to its check

The traced walk is the walk (`value_tracedValue`). In every run, however it ends, what it hands over
are subslices of its input, one after another (`hands_tracedValue`); inside a constructed string it
hands over nothing, so the call made after the descent never covers one made during it.
-/

namespace ReceiptVerifier

namespace Openssl

open Ber (Header Tree eoc)
open Subslice (Of Ascend)

variable {g : Asn1GetObject} {w : Walker}

/-! ## One call -/

/-- The header of a universal value of a type whose primitive form is checked. -/
def isChecked (h : Header) : Bool :=
  h.cls == vAsn1Universal && checkedTags.contains h.tag

/-- The header of a universal constructed value that is neither a SEQUENCE nor a SET: a string, to
OpenSSL. -/
def isString (h : Header) : Bool :=
  h.constructed && (h.cls == vAsn1Universal && h.tag != vAsn1Sequence && h.tag != vAsn1Set)

namespace Walker

@[simp] theorem value_hand (check : Bytes → Bool) (s : Subslice UInt8) :
    (hand check s).value = check s.items := rfl

@[simp] theorem events_hand (check : Bytes → Bool) (s : Subslice UInt8) :
    (hand check s).events = [s] := rfl

@[simp] theorem value_handsPrimitive (h : Header) (string : Nat) (s : Subslice UInt8) :
    (w.handsPrimitive h string s).value = w.refusesPrimitive h string s.items := by
  unfold handsPrimitive refusesPrimitive
  cases w.primitive with
  | none => rfl
  | some check =>
    cases string == 0 && h.cls == vAsn1Universal && checkedTags.contains h.tag <;> simp

@[simp] theorem value_handsString (level : Nat) (s : Subslice UInt8) :
    (w.handsString level s).value = w.refusesString level s.items := by
  unfold handsString refusesString
  cases w.primitive with
  | none => rfl
  | some check => cases level == 1 <;> simp

theorem events_handsPrimitive (h : Header) (string : Nat) (s : Subslice UInt8) :
    (w.handsPrimitive h string s).events =
      if w.primitive.isSome && string == 0 && isChecked h then [s] else [] := by
  unfold handsPrimitive isChecked
  cases w.primitive with
  | none => rfl
  | some check =>
    rw [Option.isSome_some, Bool.true_and, ← Bool.and_assoc]
    cases string == 0 && h.cls == vAsn1Universal && checkedTags.contains h.tag <;> simp

theorem events_handsString (level : Nat) (s : Subslice UInt8) :
    (w.handsString level s).events = if w.primitive.isSome && level == 1 then [s] else [] := by
  unfold handsString
  cases w.primitive with
  | none => rfl
  | some check => cases level == 1 <;> simp

/-- Outside a string, a check is what makes a constructed value one. -/
theorem level_outside (checked : w.primitive.isSome = true) {h : Header}
    (constructed : h.constructed = true) {level : Nat} (leveled : w.level h 0 = some level) :
    level = if isString h then 1 else 0 := by
  rw [Walker.level, if_neg (Nat.lt_irrefl 0), checked, Bool.true_and] at leveled
  rw [isString, constructed, Bool.true_and]
  split at leveled
  · rename_i string
    rw [if_pos string]
    split at leveled
    · cases leveled
    · exact (Option.some.inj leveled).symm
  · rename_i container
    rw [if_neg container]
    exact (Option.some.inj leveled).symm

/-- Inside a string there is only a deeper level. -/
theorem level_deeper {h : Header} {string level : Nat} (leveled : w.level h string = some level)
    (inside : 0 < string) : 1 < level := by
  rw [Walker.level, if_pos inside] at leveled
  have := Option.some.inj leveled
  omega

end Walker

/-! ## The traced walk is the walk -/

theorem value_of_no_header {input : Bytes} (e : header g input = none) (n depth string : Nat) :
    w.value g (n + 1) input depth string = .error .malformed := by
  rw [Walker.value]
  split
  · rfl
  · rename_i headerSome
    cases headerSome.symm.trans e

theorem tracedValue_of_no_header {input : Bytes} (e : header g input = none)
    (n start depth string : Nat) :
    w.tracedValue g (n + 1) start input depth string = pure (.error .malformed) := by
  rw [Walker.tracedValue]
  split
  · rfl
  · rename_i headerSome
    cases headerSome.symm.trans e

/-- The values inside a constructed value, as the walk goes through them. -/
def Walker.inside (w : Walker) (g : Asn1GetObject) (n start : Nat) (h : Header) (input : Bytes)
    (depth level : Nat) : Handed (Except WalkError (Nat × Nat)) :=
  if h.indefinite then
    w.tracedUntilEoc g n (start + h.head) (input.drop h.head) depth level
  else
    w.tracedFilling g n (start + h.head) ((input.drop h.head).take h.content) depth level

/-- `tracedValue` once the header is read. -/
theorem tracedValue_of_header {input : Bytes} {h : Header} (e : header g input = some h)
    (n start depth string : Nat) :
    w.tracedValue g (n + 1) start input depth string =
      if w.refusesForm h then pure (.error .malformed)
      else if h.constructed = false then do
        let refused ← w.handsPrimitive h string ⟨start, input.take (definiteSize h)⟩
        if refused then pure (.error .malformed)
        else pure (.ok
          (⟨definiteSize h, Nat.le_add_right_of_le ((headerReader g).two_le_head e)⟩, n))
      else if depth ≥ w.maxDepth then pure (.error .tooDeep)
      else
        match w.level h string with
        | none => pure (.error .malformed)
        | some level =>
          w.inside g n start h input (depth + 1) level >>=
            w.closes start input ((headerReader g).two_le_head e) level := by
  rw [Walker.tracedValue]
  split
  · rename_i headerNone
    cases headerNone.symm.trans e
  · rename_i h' headerSome
    obtain rfl : h' = h := Option.some.inj (headerSome.symm.trans e)
    rfl

@[simp] theorem value_closes_ok {start head : Nat} {input : Bytes} {two : 2 ≤ head}
    {level walked left : Nat} :
    (w.closes start input two level (.ok (walked, left))).value =
      if w.refusesString level (input.take (head + walked)) then .error .malformed
      else .ok (⟨head + walked, Nat.le_add_right_of_le two⟩, left) := by
  rw [Walker.closes]
  cases refused : w.refusesString level (input.take (head + walked)) <;> simp [refused]

/-- What stops at an error adds nothing to it. -/
theorem bind_of_error {α β : Type} {first : Handed (Except WalkError α)} {err : WalkError}
    (next : Except WalkError α → Handed (Except WalkError β))
    (value : first.value = .error err) (stops : next (.error err) = pure (.error err)) :
    first >>= next = ⟨.error err, first.events⟩ := by
  change (⟨(next first.value).value, first.events ++ (next first.value).events⟩ :
    Handed (Except WalkError β)) = _
  rw [value, stops, Traced.value_pure, Traced.events_pure, List.append_nil]

theorem events_goesOn {next : Size → Nat → Handed (Except WalkError (Nat × Nat))} {size : Size}
    {left : Nat} {first : Handed (Except WalkError (Size × Nat))}
    (value : first.value = .ok (size, left)) :
    (first >>= Walker.goesOn next).events = first.events ++ (next size left).events := by
  rw [Traced.events_bind, value, Walker.goesOn, Traced.events_bind, Traced.events_pure,
    List.append_nil]

theorem events_closes {start head : Nat} {input : Bytes} {two : 2 ≤ head} {level walked left : Nat}
    {run : Handed (Except WalkError (Nat × Nat))} (value : run.value = .ok (walked, left)) :
    (run >>= w.closes start input two level).events = run.events ++
      if w.primitive.isSome && level == 1 then [⟨start, input.take (head + walked)⟩] else [] := by
  rw [Traced.events_bind, value, Walker.closes, Traced.events_bind_ite, Walker.events_handsString]

mutual

theorem value_tracedValue (nodes start : Nat) (input : Bytes) (depth string : Nat) :
    (w.tracedValue g nodes start input depth string).value =
      w.value g nodes input depth string := by
  cases nodes with
  | zero => rw [Walker.tracedValue, Walker.value]; rfl
  | succ n =>
    cases read : header g input with
    | none => rw [tracedValue_of_no_header read, value_of_no_header read]; rfl
    | some h =>
      have inside : ∀ level, (w.inside g n start h input (depth + 1) level).value =
          if h.indefinite then w.untilEoc g n (input.drop h.head) (depth + 1) level
          else w.filling g n ((input.drop h.head).take h.content) (depth + 1) level := by
        intro level
        unfold Walker.inside
        split
        · exact value_tracedUntilEoc n (start + h.head) (input.drop h.head) (depth + 1) level
        · exact value_tracedFilling n (start + h.head) ((input.drop h.head).take h.content)
            (depth + 1) level
      rw [tracedValue_of_header read, value_of_header read]
      by_cases form : w.refusesForm h = true
      · rw [if_pos form, if_pos form]; rfl
      · rw [if_neg form, if_neg form]
        by_cases primitive : h.constructed = false
        · rw [if_pos primitive, if_pos primitive]
          cases refused : w.refusesPrimitive h string (input.take (definiteSize h)) <;>
            simp [refused]
        · rw [if_neg primitive, if_neg primitive]
          by_cases deep : depth ≥ w.maxDepth
          · rw [if_pos deep, if_pos deep]; rfl
          · rw [if_neg deep, if_neg deep]
            cases w.level h string with
            | none => rfl
            | some level =>
              simp only [Traced.value_bind]
              rw [inside level]
              cases (if h.indefinite then w.untilEoc g n (input.drop h.head) (depth + 1) level
                else w.filling g n ((input.drop h.head).take h.content) (depth + 1) level) with
              | error err => rfl
              | ok answer => exact value_closes_ok
termination_by 2 * input.length
decreasing_by
  all_goals
    have two := (headerReader g).two_le_head read
    have fits := (headerReader g).fits read
    simp only [List.length_take, List.length_drop]
    omega

theorem value_tracedUntilEoc (nodes start : Nat) (rest : Bytes) (depth level : Nat) :
    (w.tracedUntilEoc g nodes start rest depth level).value =
      w.untilEoc g nodes rest depth level := by
  cases rest with
  | nil => rw [Walker.tracedUntilEoc, Walker.untilEoc.eq_def]; rfl
  | cons first rest =>
    rw [Walker.tracedUntilEoc, Walker.untilEoc]
    by_cases stop : eoc.isPrefixOf (first :: rest) = true
    · rw [if_pos stop, if_pos stop]; rfl
    · rw [if_neg stop, if_neg stop, Traced.value_bind,
        value_tracedValue nodes start (first :: rest) depth level]
      cases w.value g nodes (first :: rest) depth level with
      | error err => rfl
      | ok answer =>
        obtain ⟨size, left⟩ := answer
        rw [Walker.goesOn, Traced.value_bind,
          value_tracedUntilEoc left (start + size.1) ((first :: rest).drop size.1) depth level]
        dsimp only
        cases w.untilEoc g left ((first :: rest).drop size.1) depth level <;> rfl
termination_by 2 * rest.length + 1
decreasing_by
  · omega
  · have := size.2
    simp only [List.length_drop, List.length_cons]
    omega

theorem value_tracedFilling (nodes start : Nat) (rest : Bytes) (depth level : Nat) :
    (w.tracedFilling g nodes start rest depth level).value =
      w.filling g nodes rest depth level := by
  cases rest with
  | nil => rw [Walker.tracedFilling, Walker.filling.eq_def]; rfl
  | cons first rest =>
    rw [Walker.tracedFilling, Walker.filling]
    by_cases stop : (w.primitive.isSome && eoc.isPrefixOf (first :: rest)) = true
    · rw [if_pos stop, if_pos stop]; rfl
    · rw [if_neg stop, if_neg stop, Traced.value_bind,
        value_tracedValue nodes start (first :: rest) depth level]
      cases w.value g nodes (first :: rest) depth level with
      | error err => rfl
      | ok answer =>
        obtain ⟨size, left⟩ := answer
        rw [Walker.goesOn, Traced.value_bind,
          value_tracedFilling left (start + size.1) ((first :: rest).drop size.1) depth level]
        dsimp only
        cases w.filling g left ((first :: rest).drop size.1) depth level <;> rfl
termination_by 2 * rest.length + 1
decreasing_by
  · omega
  · have := size.2
    simp only [List.length_drop, List.length_cons]
    omega

end

theorem value_tracedWalkExact (input : Bytes) (budget : Budget) (headers : Headers)
    (primitive : Option (Bytes → Bool)) :
    (tracedWalkExact g input budget headers primitive).value =
      walkExact g input budget headers primitive := by
  unfold tracedWalkExact walkExact
  dsimp only
  rw [Traced.value_bind, value_tracedValue]
  cases Walker.value g ⟨budget.depth, headers, primitive⟩ budget.nodes input 0 0 <;> rfl

theorem events_tracedWalkExact (input : Bytes) (budget : Budget) (headers : Headers)
    (primitive : Option (Bytes → Bool)) :
    (tracedWalkExact g input budget headers primitive).events =
      (Walker.tracedValue g ⟨budget.depth, headers, primitive⟩ budget.nodes 0 input 0
        0).events := by
  unfold tracedWalkExact
  rw [Traced.events_bind]
  cases (Walker.tracedValue g ⟨budget.depth, headers, primitive⟩ budget.nodes 0 input 0 0).value <;>
    exact List.append_nil _

/-! ## One after another -/

/-- What a run over the `input` that starts at `start` hands over: subslices of it one after
another, up to where the run got to when it succeeds, and none inside a constructed string. -/
structure Hands (start : Nat) (input : Bytes) (level : Nat) {α : Type} (size : α → Nat)
    (run : Handed (Except WalkError α)) : Prop where
  of : ∀ whole, Of whole ⟨start, input⟩ → ∀ s ∈ run.events, Of whole s
  nonempty : ∀ s ∈ run.events, s.items ≠ []
  within : Ascend start (start + input.length) run.events
  walked : ∀ a, run.value = .ok a →
    size a ≤ input.length ∧ Ascend start (start + size a) run.events
  silent : 0 < level → run.events = []

namespace Hands

variable {start : Nat} {input : Bytes} {level : Nat} {α : Type} {size : α → Nat}
  {run : Handed (Except WalkError α)}

theorem of_silent (silent : run.events = [])
    (fits : ∀ a, run.value = .ok a → size a ≤ input.length) :
    Hands start input level size run where
  of := by simp [silent]
  nonempty := by simp [silent]
  within := by rw [silent]; exact Nat.le_add_right _ _
  walked a value := ⟨fits a value, by rw [silent]; exact Nat.le_add_right _ _⟩
  silent _ := silent

theorem of_error (err : WalkError) : Hands start input level size (pure (.error err)) :=
  of_silent rfl fun _ value => by cases value

/-- The one value a run hands over is the start of its input. -/
theorem of_one {n : Nat} (positive : 0 < n) (fits : n ≤ input.length)
    (one : run.events = [⟨start, input.take n⟩]) (outside : level = 0)
    (sized : ∀ a, run.value = .ok a → size a = n) : Hands start input level size run := by
  have length : (input.take n).length = n := by rw [List.length_take, Nat.min_eq_left fits]
  have ascends : Ascend start (start + n) run.events := by
    rw [one]
    exact Subslice.ascend_singleton.mpr ⟨Nat.le_refl _, by rw [Subslice.stop, length]⟩
  refine ⟨fun whole of => ?_, ?_, ascends.mono (Nat.le_refl _) (by omega), fun a value => ?_,
    fun inside => absurd inside (by omega)⟩
  · rw [one]
    exact List.forall_mem_singleton.mpr (of.initial (List.take_prefix n input))
  · rw [one]
    exact List.forall_mem_singleton.mpr (List.ne_nil_of_length_pos (by rwa [length]))
  · rw [sized a value]
    exact ⟨fits, ascends⟩

/-- One value, and the values after it. -/
theorem goesOn {first : Handed (Except WalkError (Size × Nat))}
    {next : Size → Nat → Handed (Except WalkError (Nat × Nat))}
    (own : Hands start input level (fun a => a.1.1) first)
    (later : ∀ size left, first.value = .ok (size, left) →
      Hands (start + size.1) (input.drop size.1) level Prod.fst (next size left)) :
    Hands start input level Prod.fst (first >>= Walker.goesOn next) := by
  cases value : first.value with
  | error err =>
    rw [bind_of_error (Walker.goesOn next) value rfl]
    exact ⟨own.of, own.nonempty, own.within, nofun, own.silent⟩
  | ok answer =>
    obtain ⟨size, left⟩ := answer
    obtain ⟨fits, ascends⟩ := own.walked _ value
    dsimp only at fits ascends
    have rest := later size left value
    have events := @events_goesOn next size left first value
    refine ⟨fun whole of => ?_, ?_, ?_, fun a walked => ?_, fun inside => ?_⟩
    · rw [events]
      exact List.forall_mem_append.mpr ⟨own.of whole of, rest.of whole (of.drop fits)⟩
    · rw [events]
      exact List.forall_mem_append.mpr ⟨own.nonempty, rest.nonempty⟩
    · rw [events]
      exact ascends.append (rest.within.mono (Nat.le_refl _) (by rw [List.length_drop]; omega))
    · rw [Traced.value_bind, value, Walker.goesOn, Traced.value_bind] at walked
      cases more : (next size left).value with
      | error err =>
        rw [more] at walked
        cases walked
      | ok answer =>
        rw [more] at walked
        cases walked
        obtain ⟨fits', ascends'⟩ := rest.walked _ more
        rw [List.length_drop] at fits'
        refine ⟨by dsimp only; omega, ?_⟩
        rw [events, ← Nat.add_assoc]
        exact ascends.append ascends'
    · rw [events, own.silent inside, rest.silent inside, List.append_nil]

/-- A constructed value: the values inside it, or the whole of it. -/
theorem closes {rest : Bytes} {head string : Nat} {run : Handed (Except WalkError (Nat × Nat))}
    (inside : Hands (start + head) rest level Prod.fst run) (two : 2 ≤ head)
    (fits : head ≤ input.length) (part : rest <+: input.drop head)
    (deeper : 0 < string → 1 < level) :
    Hands start input string (fun a => a.1.1) (run >>= w.closes start input two level) := by
  have length := part.length_le
  rw [List.length_drop] at length
  have of_inside : ∀ whole, Of whole ⟨start, input⟩ → ∀ s ∈ run.events, Of whole s :=
    fun whole of => inside.of whole ((of.drop fits).initial part)
  cases value : run.value with
  | error err =>
    rw [bind_of_error (w.closes start input two level) value rfl]
    exact ⟨of_inside, inside.nonempty, inside.within.mono (Nat.le_add_right _ _) (by omega), nofun,
      fun string => inside.silent (Nat.lt_trans Nat.zero_lt_one (deeper string))⟩
  | ok answer =>
    obtain ⟨walked, left⟩ := answer
    obtain ⟨fitsWalked, ascends⟩ := inside.walked _ value
    dsimp only at fitsWalked ascends
    have events := @events_closes w start head input two level walked left run value
    have sized : ∀ a, (run >>= w.closes start input two level).value = .ok a →
        a.1.1 = head + walked := by
      intro a answer
      rw [Traced.value_bind, value, value_closes_ok] at answer
      split at answer
      · cases answer
      · cases answer
        rfl
    by_cases outermost : (w.primitive.isSome && level == 1) = true
    · -- the outermost level of a string: nothing was handed over inside it
      have one : level = 1 := by
        rw [Bool.and_eq_true, beq_iff_eq] at outermost
        exact outermost.2
      rw [if_pos outermost, inside.silent (by omega), List.nil_append] at events
      exact .of_one (by omega) (by omega) events (by omega) sized
    · rw [if_neg outermost, List.append_nil] at events
      refine ⟨events ▸ of_inside, events ▸ inside.nonempty, ?_, fun a answer => ?_,
        fun string => ?_⟩
      · rw [events]
        exact inside.within.mono (Nat.le_add_right _ _) (by omega)
      · rw [sized a answer, events]
        exact ⟨by omega, ascends.mono (Nat.le_add_right _ _) (by omega)⟩
      · rw [events]
        exact inside.silent (Nat.lt_trans Nat.zero_lt_one (deeper string))

/-- A primitive value, and what the check is asked about it. -/
theorem primitive {h : Header} {string n : Nat} (two : 2 ≤ definiteSize h)
    (fits : definiteSize h ≤ input.length) :
    Hands start input string (fun a : Size × Nat => a.1.1) (do
      let refused ← w.handsPrimitive h string ⟨start, input.take (definiteSize h)⟩
      if refused then pure (.error .malformed)
      else pure (.ok (⟨definiteSize h, two⟩, n))) := by
  generalize answered : (do
    let refused ← w.handsPrimitive h string ⟨start, input.take (definiteSize h)⟩
    if refused then pure (.error .malformed)
    else pure (.ok (⟨definiteSize h, two⟩, n)) : Handed (Except WalkError (Size × Nat))) = run
  have events : run.events = if w.primitive.isSome && string == 0 && isChecked h then
      [⟨start, input.take (definiteSize h)⟩] else [] := by
    rw [← answered, Traced.events_bind_ite, Walker.events_handsPrimitive]
  have sized : ∀ a, run.value = .ok a → a.1.1 = definiteSize h := by
    rintro a value
    rw [← answered, Traced.value_bind] at value
    split at value
    · cases value
    · cases value
      rfl
  by_cases asked : (w.primitive.isSome && string == 0 && isChecked h) = true
  · rw [if_pos asked] at events
    rw [Bool.and_eq_true, Bool.and_eq_true, beq_iff_eq] at asked
    exact .of_one (by omega) fits events asked.1.2 sized
  · rw [if_neg asked] at events
    exact .of_silent events fun a value => by rw [sized a value]; exact fits

end Hands

mutual

theorem hands_tracedValue (nodes start : Nat) (input : Bytes) (depth string : Nat) :
    Hands start input string (fun a => a.1.1)
      (w.tracedValue g nodes start input depth string) := by
  cases nodes with
  | zero =>
    rw [Walker.tracedValue]
    exact .of_error _
  | succ n =>
    cases read : header g input with
    | none =>
      rw [tracedValue_of_no_header read]
      exact .of_error _
    | some h =>
      have two := (headerReader g).two_le_head read
      have fits : h.head + h.content ≤ input.length := (headerReader g).fits read
      rw [tracedValue_of_header read]
      by_cases form : w.refusesForm h = true
      · rw [if_pos form]
        exact .of_error _
      · rw [if_neg form]
        by_cases primitive : h.constructed = false
        · rw [if_pos primitive]
          exact .primitive (Nat.le_add_right_of_le two) fits
        · rw [if_neg primitive]
          by_cases deep : depth ≥ w.maxDepth
          · rw [if_pos deep]
            exact .of_error _
          · rw [if_neg deep]
            cases leveled : w.level h string with
            | none => exact .of_error _
            | some level =>
              dsimp only
              have deeper := Walker.level_deeper leveled
              by_cases indefinite : h.indefinite = true
              · rw [Walker.inside, if_pos indefinite]
                exact (hands_tracedUntilEoc n (start + h.head) (input.drop h.head) (depth + 1)
                  level).closes two (by omega) List.prefix_rfl deeper
              · rw [Walker.inside, if_neg indefinite]
                exact (hands_tracedFilling n (start + h.head) ((input.drop h.head).take h.content)
                  (depth + 1) level).closes two (by omega) (List.take_prefix _ _) deeper
termination_by 2 * input.length
decreasing_by
  all_goals
    simp only [List.length_take, List.length_drop]
    omega

theorem hands_tracedUntilEoc (nodes start : Nat) (rest : Bytes) (depth level : Nat) :
    Hands start rest level Prod.fst (w.tracedUntilEoc g nodes start rest depth level) := by
  cases rest with
  | nil =>
    rw [Walker.tracedUntilEoc]
    refine .of_silent rfl fun a value => ?_
    by_cases empty : nodes = 0 <;> simp [empty] at value
  | cons first rest =>
    rw [Walker.tracedUntilEoc]
    by_cases stop : eoc.isPrefixOf (first :: rest) = true
    · rw [if_pos stop]
      refine .of_silent rfl fun a value => ?_
      cases value
      exact (isPrefixOf_eoc_iff.mp stop).length_le
    · rw [if_neg stop]
      exact (hands_tracedValue nodes start (first :: rest) depth level).goesOn fun size left _ =>
        hands_tracedUntilEoc left (start + size.1) ((first :: rest).drop size.1) depth level
termination_by 2 * rest.length + 1
decreasing_by
  · omega
  · have := size.2
    simp only [List.length_drop, List.length_cons]
    omega

theorem hands_tracedFilling (nodes start : Nat) (rest : Bytes) (depth level : Nat) :
    Hands start rest level Prod.fst (w.tracedFilling g nodes start rest depth level) := by
  cases rest with
  | nil =>
    rw [Walker.tracedFilling]
    refine .of_silent rfl fun a value => ?_
    cases value
    exact Nat.le_refl _
  | cons first rest =>
    rw [Walker.tracedFilling]
    by_cases stop : (w.primitive.isSome && eoc.isPrefixOf (first :: rest)) = true
    · rw [if_pos stop]
      exact .of_error _
    · rw [if_neg stop]
      exact (hands_tracedValue nodes start (first :: rest) depth level).goesOn fun size left _ =>
        hands_tracedFilling left (start + size.1) ((first :: rest).drop size.1) depth level
termination_by 2 * rest.length + 1
decreasing_by
  · omega
  · have := size.2
    simp only [List.length_drop, List.length_cons]
    omega

end

end Openssl

end ReceiptVerifier
