import Mathlib.Data.List.Basic
import Mathlib.Tactic.Common

/-!
# First copies

A list of keyed entries read in one pass into a record: the first copy of a key is decoded into the
record, a later copy is kept raw, and so is a first copy that does not decode. Of a key that repeats
by design, every copy is decoded.

`Reader` is such a pass; `Reader.Fields` says what its record shows of each key. `run_raw` and
`run_field` then give the whole pass in closed form: what a key's copies leave raw and what they put
into the record, whatever the entries of the other keys are.
-/

namespace FirstCopy

variable {ε κ ν σ δ : Type} [DecidableEq κ]

/-- A pass over entries `ε` with keys `κ` into a record `σ`. -/
structure Reader (ε κ σ : Type) where
  key : ε → κ
  /-- Every copy of the key is decoded. -/
  repeats : κ → Bool
  /-- Decodes an entry into the record; `none` when it does not decode. -/
  assign : σ → ε → Option σ
  /-- Keeps an entry raw. -/
  keep : σ → ε → σ

namespace Reader

variable (r : Reader ε κ σ)

/-- The rest of the pass, once the keys in `seen` have had their first copy. -/
def runFrom : List ε → σ → List κ → σ
  | [], s, _ => s
  | e :: entries, s, seen =>
    if r.repeats (r.key e) = false ∧ r.key e ∈ seen then runFrom entries (r.keep s e) seen
    else
      runFrom entries ((r.assign s e).getD (r.keep s e))
        (if r.repeats (r.key e) then seen else r.key e :: seen)

def run (entries : List ε) (s : σ) : σ := r.runFrom entries s []

/-- What a record shows of each key, and how the pass changes it. -/
structure Fields (r : Reader ε κ σ) (ν δ : Type) where
  value : ε → ν
  raw : σ → κ → List ν
  field : σ → κ → List δ
  /-- What an entry puts into the record; `none` when it does not decode. -/
  decode : ε → Option (List δ)
  raw_keep : ∀ s e k, raw (r.keep s e) k = if k = r.key e then raw s k ++ [value e] else raw s k
  field_keep : ∀ s e k, field (r.keep s e) k = field s k
  assign_isSome : ∀ s e, (r.assign s e).isSome = (decode e).isSome
  raw_assign : ∀ s e s', r.assign s e = some s' → ∀ k, raw s' k = raw s k
  field_assign : ∀ s e s' l, r.assign s e = some s' → decode e = some l → ∀ k, field s' k =
    if k = r.key e then if r.repeats k then field s k ++ l else l else field s k

variable {r} (f : r.Fields ν δ)

namespace Fields

/-- The entries of one key, in order. -/
def copies (_ : r.Fields ν δ) (k : κ) (entries : List ε) : List ε :=
  entries.filter fun e => r.key e = k

def decodes (e : ε) : Bool := (f.decode e).isSome

/-- The copies that are decoded into the record. -/
def consumed (k : κ) (entries : List ε) : List ε :=
  if r.repeats k then (f.copies k entries).filter f.decodes
  else ((f.copies k entries).take 1).filter f.decodes

/-- The copies that are kept raw. -/
def left (k : κ) (entries : List ε) : List ε :=
  if r.repeats k then (f.copies k entries).filter fun e => !f.decodes e
  else ((f.copies k entries).take 1).filter (fun e => !f.decodes e) ++ (f.copies k entries).drop 1

theorem copies_cons (k : κ) (e : ε) (entries : List ε) :
    f.copies k (e :: entries) =
      if r.key e = k then e :: f.copies k entries else f.copies k entries := by
  simp [copies, List.filter_cons]

/-- One step of the raw lists. -/
theorem raw_step (s : σ) (e : ε) (k : κ) :
    f.raw ((r.assign s e).getD (r.keep s e)) k =
      if k = r.key e ∧ f.decodes e = false then f.raw s k ++ [f.value e] else f.raw s k := by
  have same := f.assign_isSome s e
  cases assigned : r.assign s e with
  | none =>
    rw [assigned, Option.isSome_none] at same
    simp [f.raw_keep, decodes, ← same]
  | some s' =>
    rw [assigned, Option.isSome_some] at same
    simp [f.raw_assign s e s' assigned, decodes, ← same]

/-- One step of the fields. -/
theorem field_step (s : σ) (e : ε) (k : κ) :
    f.field ((r.assign s e).getD (r.keep s e)) k =
      if k = r.key e ∧ f.decodes e = true then
        (if r.repeats k then f.field s k else []) ++ (f.decode e).getD []
      else f.field s k := by
  have same := f.assign_isSome s e
  cases assigned : r.assign s e with
  | none =>
    rw [assigned, Option.isSome_none] at same
    simp [f.field_keep, decodes, ← same]
  | some s' =>
    rw [assigned, Option.isSome_some] at same
    obtain ⟨l, decoded⟩ := Option.isSome_iff_exists.mp same.symm
    rw [Option.getD_some, f.field_assign s e s' l assigned decoded]
    by_cases own : k = r.key e <;> simp [own, decodes, decoded]
    split <;> rfl

/-- The raw lists of the rest of the pass. -/
theorem runFrom_raw (k : κ) : ∀ (entries : List ε) (s : σ) (seen : List κ),
    f.raw (r.runFrom entries s seen) k = f.raw s k ++ (if r.repeats k = false ∧ k ∈ seen then
      f.copies k entries else f.left k entries).map f.value := by
  intro entries
  induction entries with
  | nil =>
    intro s seen
    simp [runFrom, left, copies]
  | cons e entries ih =>
    intro s seen
    by_cases own : r.key e = k
    · subst own
      cases repeats : r.repeats (r.key e) with
      | true =>
        cases decoded : f.decodes e <;>
          simp [runFrom, repeats, ih, left, copies_cons, raw_step, decoded]
      | false =>
        by_cases later : r.key e ∈ seen
        · simp [runFrom, repeats, later, ih, copies_cons, f.raw_keep]
        · cases decoded : f.decodes e <;>
            simp [runFrom, repeats, later, ih, left, copies_cons, raw_step, decoded]
    · have other : ¬ k = r.key e := fun h => own h.symm
      by_cases first : r.repeats (r.key e) = false ∧ r.key e ∈ seen
      · simp [runFrom, first, ih, left, copies_cons, own, f.raw_keep, other]
      · cases repeats : r.repeats (r.key e) <;>
          simp_all [runFrom, left, copies_cons, raw_step]

/-- What copies put into the record, one after another. -/
def shown (entries : List ε) : List δ := entries.flatMap fun e => (f.decode e).getD []

/-- The fields of the rest of the pass. -/
theorem runFrom_field (k : κ) : ∀ (entries : List ε) (s : σ) (seen : List κ),
    f.field (r.runFrom entries s seen) k =
      if r.repeats k then f.field s k ++ f.shown (f.consumed k entries)
      else if k ∈ seen ∨ f.consumed k entries = [] then f.field s k
      else f.shown (f.consumed k entries) := by
  intro entries
  induction entries with
  | nil =>
    intro s seen
    simp [runFrom, consumed, copies, shown]
  | cons e entries ih =>
    intro s seen
    by_cases own : r.key e = k
    · subst own
      cases repeats : r.repeats (r.key e) with
      | true =>
        cases decoded : f.decodes e <;>
          simp [runFrom, repeats, ih, consumed, copies_cons, field_step, decoded, shown]
      | false =>
        by_cases later : r.key e ∈ seen
        · simp [runFrom, repeats, later, ih, f.field_keep]
        · cases decoded : f.decodes e <;>
            simp [runFrom, repeats, later, ih, consumed, copies_cons, field_step, decoded, shown]
    · have other : ¬ k = r.key e := fun h => own h.symm
      by_cases first : r.repeats (r.key e) = false ∧ r.key e ∈ seen
      · simp [runFrom, first, ih, consumed, copies_cons, own, f.field_keep]
      · cases repeats : r.repeats (r.key e) <;>
          simp_all [runFrom, consumed, copies_cons, field_step]

/-- **What a pass leaves raw**: for each key, its left copies in order. -/
theorem run_raw (entries : List ε) {s : σ} (empty : ∀ k, f.raw s k = []) (k : κ) :
    f.raw (r.run entries s) k = (f.left k entries).map f.value := by
  rw [run, runFrom_raw, empty, List.nil_append, if_neg (by simp)]

/-- **What a pass puts into the record**: for each key, what its consumed copies decode to. -/
theorem run_field (entries : List ε) {s : σ} (empty : ∀ k, f.field s k = []) (k : κ) :
    f.field (r.run entries s) k = f.shown (f.consumed k entries) := by
  rw [run, runFrom_field, empty, List.nil_append]
  split
  · rfl
  · split
    · rename_i none
      have none : f.consumed k entries = [] := by simpa using none
      rw [none, shown, List.flatMap_nil]
    · rfl

/-- **Only the order within a key matters**: entries whose copies of each key are the same, in the
same order, leave the same raw. -/
theorem run_raw_congr {entries entries' : List ε} {s : σ} (empty : ∀ k, f.raw s k = []) {k : κ}
    (same : f.copies k entries = f.copies k entries') :
    f.raw (r.run entries s) k = f.raw (r.run entries' s) k := by
  rw [f.run_raw entries empty, f.run_raw entries' empty, left, left, same]

section

variable (entries : List ε) {s : σ} (empty : ∀ k, f.field s k = []) {k : κ}
  (once : r.repeats k = false)

include empty once

/-- **First copies decide**: what the record shows of a key is what its first copy decodes to. -/
theorem run_field_once :
    f.field (r.run entries s) k = ((f.copies k entries).head?.bind f.decode).getD [] := by
  rw [f.run_field entries empty, consumed, once, if_neg Bool.false_ne_true]
  cases f.copies k entries with
  | nil => rfl
  | cons e rest => cases decoded : f.decode e <;> simp [decodes, decoded, shown]

/-- **Nothing is lost**: the copies of a key are its first one, when the record shows it or it
decodes to nothing, followed by those left raw. -/
theorem copies_eq :
    f.copies k entries = (if !(f.field (r.run entries s) k).isEmpty ||
        ((f.copies k entries).head?.bind f.decode).any List.isEmpty then
      (f.copies k entries).take 1 else []) ++ f.left k entries := by
  rw [f.run_field_once entries empty once, left, once, if_neg Bool.false_ne_true]
  cases f.copies k entries with
  | nil => simp
  | cons e rest =>
    cases decoded : f.decode e with
    | none => simp [decodes, decoded]
    | some l => cases l <;> simp [decodes, decoded]

end

end Fields

/-- Entries that are kept, decoded and keyed alike are read alike. -/
theorem run_forall₂ {alike : ε → ε → Prop} (key : ∀ e e', alike e e' → r.key e = r.key e')
    (assign : ∀ e e', alike e e' → ∀ s, r.assign s e = r.assign s e')
    (keep : ∀ e e', alike e e' → (∀ s, r.keep s e = r.keep s e') ∨
      (r.repeats (r.key e) = true ∧ ∀ s, (r.assign s e).isSome = true))
    {entries entries' : List ε} (all : List.Forall₂ alike entries entries') (s : σ) :
    r.run entries s = r.run entries' s := by
  have rest : ∀ (s : σ) (seen : List κ), r.runFrom entries s seen = r.runFrom entries' s seen := by
    induction all with
    | nil => exact fun _ _ => rfl
    | @cons e e' entries entries' own _ ih =>
      intro s seen
      have step : (r.assign s e).getD (r.keep s e) = (r.assign s e').getD (r.keep s e') := by
        rcases keep e e' own with kept | ⟨-, decoded⟩
        · rw [assign e e' own, kept]
        · obtain ⟨s', taken⟩ := Option.isSome_iff_exists.mp (decoded s)
          rw [← assign e e' own, taken]
          rfl
      rw [runFrom, runFrom, ← key e e' own]
      split
      next later =>
        rcases keep e e' own with kept | ⟨repeats, -⟩
        · rw [kept]
          exact ih _ _
        · exact absurd later.1 (by simp [repeats])
      · rw [step]
        exact ih _ _
  exact rest s []

/-- A property that every entry keeps, decoded or raw, holds after the pass. -/
theorem run_invariant {P : σ → Prop} (keep : ∀ s e, P s → P (r.keep s e))
    (assign : ∀ s e s', r.assign s e = some s' → P s → P s') (entries : List ε) {s : σ}
    (start : P s) : P (r.run entries s) := by
  have step : ∀ s e, P s → P ((r.assign s e).getD (r.keep s e)) := by
    intro s e h
    cases assigned : r.assign s e with
    | none => exact keep s e h
    | some s' => exact assign s e s' assigned h
  have rest : ∀ (entries : List ε) (s : σ) (seen : List κ), P s → P (r.runFrom entries s seen) := by
    intro entries
    induction entries with
    | nil => exact fun _ _ h => h
    | cons e entries ih =>
      intro s seen h
      rw [runFrom]
      split
      · exact ih _ _ (keep s e h)
      · exact ih _ _ (step s e h)
  exact rest entries s [] start

end Reader

end FirstCopy
