import Mathlib.Data.Multiset.Filter
import Mathlib.Data.Set.Insert
import Mathlib.Logic.Function.Basic
import Mathlib.Logic.Relation

/-!
# Leases

A pool lends each resource to one holder at a time and takes it back when what was done with it
leaves it fit. In every state the moves reach, a pooled resource is fit, is pooled once, and is held
by nobody; a held one is held by one holder only (`Lease.Sound`). A machine whose steps may be
refused lifts what one step keeps to a whole run (`rel_of_foldlM`).
-/

namespace Lease

/-- Resources in the pool and with their holders, and what was done with each. -/
structure Pool (Resource Holder Use : Type) where
  pooled : Multiset Resource
  holds : Holder → Option Resource
  made : Set Resource
  log : Resource → List Use

variable {Resource Holder Use : Type}

open Function (update)

/-- A resource is made for a holder, lent, used by its holder, given back if fit, dropped by its
holder, or lost from the pool. -/
inductive Move [DecidableEq Resource] [DecidableEq Holder] (Fit : List Use → Prop) :
    Pool Resource Holder Use → Pool Resource Holder Use → Prop
  | make {p h r} (fresh : r ∉ p.made) :
      Move Fit p { p with holds := update p.holds h (some r), made := insert r p.made }
  | take {p h r} (mem : r ∈ p.pooled) :
      Move Fit p
        { p with pooled := p.pooled.erase r, holds := update p.holds h (some r) }
  | use {p h r} (held : p.holds h = some r) (u : Use) :
      Move Fit p { p with log := update p.log r (p.log r ++ [u]) }
  | give {p h r} (held : p.holds h = some r) (fit : Fit (p.log r)) :
      Move Fit p { p with pooled := r ::ₘ p.pooled, holds := update p.holds h none }
  | drop {p h} : Move Fit p { p with holds := update p.holds h none }
  | lose {p r} : Move Fit p { p with pooled := p.pooled.erase r }

/-- No resource is in two places, and those in the pool are fit. -/
structure Sound (Fit : List Use → Prop) (p : Pool Resource Holder Use) : Prop where
  nodup : p.pooled.Nodup
  fit : ∀ r ∈ p.pooled, Fit (p.log r)
  apart : ∀ {h r}, p.holds h = some r → r ∉ p.pooled
  alone : ∀ {h h' r}, p.holds h = some r → p.holds h' = some r → h = h'
  pooled_made : ∀ r ∈ p.pooled, r ∈ p.made
  held_made : ∀ {h r}, p.holds h = some r → r ∈ p.made

variable {Fit : List Use → Prop} {p q : Pool Resource Holder Use}

theorem Sound.drop [DecidableEq Holder] (sound : Sound Fit p) (h : Holder) :
    Sound Fit { p with holds := update p.holds h none } := by
  have still : ∀ {h' r}, update p.holds h none h' = some r → p.holds h' = some r := by
    intro h' r held
    by_cases same : h' = h
    · simp [same] at held
    · simpa [same] using held
  exact { sound with
    apart := fun held => sound.apart (still held)
    alone := fun held held' => sound.alone (still held) (still held')
    held_made := fun held => sound.held_made (still held) }

theorem Sound.lose [DecidableEq Resource] (sound : Sound Fit p) (r : Resource) :
    Sound Fit { p with pooled := p.pooled.erase r } where
  nodup := sound.nodup.erase r
  fit r' mem := sound.fit r' (Multiset.mem_of_mem_erase mem)
  apart held mem := sound.apart held (Multiset.mem_of_mem_erase mem)
  alone := sound.alone
  pooled_made r' mem := sound.pooled_made r' (Multiset.mem_of_mem_erase mem)
  held_made := sound.held_made

/-- A holder may get a made resource that is neither pooled nor held. -/
theorem Sound.hold [DecidableEq Holder] (sound : Sound Fit p) {h : Holder} {r : Resource}
    (unpooled : r ∉ p.pooled) (unheld : ∀ h', p.holds h' ≠ some r) (made : r ∈ p.made) :
    Sound Fit { p with holds := update p.holds h (some r) } := by
  have now : ∀ {h' r'}, update p.holds h (some r) h' = some r' →
      (h' = h ∧ r' = r) ∨ p.holds h' = some r' := by
    intro h' r' held
    by_cases same : h' = h
    · exact .inl ⟨same, by simpa [same, eq_comm] using held⟩
    · exact .inr (by simpa [same] using held)
  refine { sound with apart := ?_, alone := ?_, held_made := ?_ }
  · intro h' r' held
    obtain ⟨-, rfl⟩ | held := now held
    · exact unpooled
    · exact sound.apart held
  · intro h₁ h₂ r' held₁ held₂
    obtain ⟨rfl, rfl⟩ | before₁ := now held₁
    · obtain ⟨rfl, -⟩ | before₂ := now held₂
      · rfl
      · exact absurd before₂ (unheld h₂)
    · obtain ⟨rfl, rfl⟩ | before₂ := now held₂
      · exact absurd before₁ (unheld h₁)
      · exact sound.alone before₁ before₂
  · intro h' r' held
    obtain ⟨-, rfl⟩ | held := now held
    · exact made
    · exact sound.held_made held

/-- Every move keeps each resource in one place and the pool fit. -/
theorem Move.sound [DecidableEq Resource] [DecidableEq Holder] (move : Move Fit p q)
    (sound : Sound Fit p) : Sound Fit q := by
  cases move with
  | @make h r fresh =>
    have made : Sound Fit { p with made := insert r p.made } :=
      { sound with
        pooled_made := fun r' mem => Set.mem_insert_of_mem r (sound.pooled_made r' mem)
        held_made := fun held => Set.mem_insert_of_mem r (sound.held_made held) }
    exact made.hold (fun mem => fresh (sound.pooled_made r mem))
      (fun h' held => fresh (sound.held_made held)) (Set.mem_insert r p.made)
  | @take h r mem =>
    exact (sound.lose r).hold sound.nodup.notMem_erase
      (fun h' held => sound.apart held mem) (sound.pooled_made r mem)
  | @use h r held u =>
    refine { sound with fit := fun r' mem => ?_ }
    have other : r' ≠ r := by
      rintro rfl
      exact sound.apart held mem
    simpa [other] using sound.fit r' mem
  | @give h r held fit =>
    have dropped := sound.drop h
    refine { dropped with nodup := ?_, fit := ?_, apart := ?_, pooled_made := ?_ }
    · exact Multiset.nodup_cons.mpr ⟨sound.apart held, sound.nodup⟩
    · intro r' mem
      obtain rfl | mem := Multiset.mem_cons.mp mem
      · exact fit
      · exact sound.fit r' mem
    · intro h' r' held' mem
      by_cases same : h' = h
      · simp [same] at held'
      · have before : p.holds h' = some r' := by simpa [same] using held'
        obtain rfl | mem := Multiset.mem_cons.mp mem
        · exact same (sound.alone before held)
        · exact sound.apart before mem
    · intro r' mem
      obtain rfl | mem := Multiset.mem_cons.mp mem
      · exact sound.held_made held
      · exact sound.pooled_made r' mem
  | @drop h => exact sound.drop h
  | @lose r => exact sound.lose r

/-- Nothing is pooled or held. -/
theorem sound_of_empty (pooled : p.pooled = 0) (holds : ∀ h, p.holds h = none) : Sound Fit p := by
  have unheld : ∀ {h r}, p.holds h ≠ some r := by
    intro h r held
    rw [holds] at held
    cases held
  exact {
    nodup := pooled ▸ Multiset.nodup_zero
    fit := by simp [pooled]
    apart := fun held => absurd held unheld
    alone := fun held => absurd held unheld
    pooled_made := by simp [pooled]
    held_made := fun held => absurd held unheld }

theorem sound_of_moves [DecidableEq Resource] [DecidableEq Holder]
    (moves : Relation.ReflTransGen (Move Fit) p q) (sound : Sound Fit p) : Sound Fit q := by
  induction moves with
  | refl => exact sound
  | tail _ move ih => exact move.sound ih

end Lease

/-- What each step of a run keeps to, the whole run keeps to. -/
theorem rel_of_foldlM {σ ε : Type} {step : σ → ε → Option σ} {R : σ → σ → Prop}
    (refl : ∀ s, R s s) (trans : ∀ {s t u}, R s t → R t u → R s u)
    (keeps : ∀ {s e t}, step s e = some t → R s t) {s t : σ} {events : List ε}
    (run : events.foldlM step s = some t) : R s t := by
  induction events generalizing s with
  | nil =>
    obtain rfl := Option.some.inj run
    exact refl s
  | cons e events ih =>
    obtain ⟨next, first, rest⟩ := Option.bind_eq_some_iff.mp run
    exact trans (keeps first) (ih rest)
