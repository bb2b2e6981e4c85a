import Mathlib.Data.List.Basic
import Mathlib.Tactic.Common

/-!
# Readers of a stream

A reader takes items off the front of a stream that may fail in between and that ends, and it
returns or throws; either way the position it reached is kept. `Exact r G` is what there is to know
about a reader that waits for the whole of what it reads: it returns `a` after exactly the items `p`
if and only if `G a p`, whatever follows them. Exact readers compose, and so do the languages they
read; `Turns` is the language of a loop. What an exact reader accepts is prefix-free, so nothing
read twice can be cut in two places.
-/

/-- A stream is the items that come, with the failures in between. -/
structure StreamReader (ε β α : Type) where
  read : List (Except ε β) → Except ε α × List (Except ε β)

namespace StreamReader

variable {ε β α γ σ : Type}

instance : Monad (StreamReader ε β) where
  pure a := ⟨fun s => (.ok a, s)⟩
  bind r f := ⟨fun s =>
    match r.read s with
    | (.ok a, rest) => (f a).read rest
    | (.error e, rest) => (.error e, rest)⟩

def throw (e : ε) : StreamReader ε β α := ⟨fun s => (.error e, s)⟩

/-- The next item, or a failure if there is none. -/
def next (eof : ε) : StreamReader ε β β := ⟨fun
  | [] => (.error eof, [])
  | .ok b :: s => (.ok b, s)
  | .error e :: s => (.error e, s)⟩

theorem read_pure (a : α) (s : List (Except ε β)) :
    (pure a : StreamReader ε β α).read s = (.ok a, s) :=
  rfl

theorem read_bind (r : StreamReader ε β α) (f : α → StreamReader ε β γ) (s : List (Except ε β)) :
    (r >>= f).read s = match r.read s with
      | (.ok a, rest) => (f a).read rest
      | (.error e, rest) => (.error e, rest) := rfl

theorem read_throw (e : ε) (s : List (Except ε β)) :
    (throw e : StreamReader ε β α).read s = (.error e, s) := rfl

theorem read_bind_ok {r : StreamReader ε β α} {a : α} {s rest : List (Except ε β)}
    (h : r.read s = (.ok a, rest)) (f : α → StreamReader ε β γ) :
    (r >>= f).read s = (f a).read rest := by
  rw [read_bind, h]

/-- A bind that returned is a reader that returned and another after it. -/
theorem bind_eq_ok {r : StreamReader ε β α} {f : α → StreamReader ε β γ}
    {s rest : List (Except ε β)} {c : γ}
    (h : (r >>= f).read s = (.ok c, rest)) :
    ∃ a mid, r.read s = (.ok a, mid) ∧ (f a).read mid = (.ok c, rest) := by
  rw [read_bind] at h
  rcases e : r.read s with ⟨a | a, mid⟩
  · rw [e] at h
    simp only [Prod.mk.injEq, reduceCtorEq, false_and] at h
  · rw [e] at h
    exact ⟨a, mid, rfl, h⟩

/-! ## The position only moves on -/

def Forward (r : StreamReader ε β α) : Prop := ∀ s, (r.read s).2 <:+ s

/-- A reader that never returns without taking an item. -/
def Shrinks (r : StreamReader ε β α) : Prop :=
  ∀ s a rest, r.read s = (.ok a, rest) → rest.length < s.length

theorem forward_pure (a : α) : Forward (pure a : StreamReader ε β α) := fun s => List.suffix_refl s

theorem forward_throw (e : ε) : Forward (throw e : StreamReader ε β α) :=
  fun s => List.suffix_refl s

theorem forward_next (eof : ε) : Forward (next eof : StreamReader ε β β) := by
  intro s
  match s with
  | [] => exact List.suffix_refl []
  | .ok b :: s => exact List.suffix_cons (.ok b) s
  | .error e :: s => exact List.suffix_cons (.error e) s

theorem Forward.bind {r : StreamReader ε β α} {f : α → StreamReader ε β γ} (hr : Forward r)
    (hf : ∀ a, Forward (f a)) : Forward (r >>= f) := by
  intro s
  have first := hr s
  rw [read_bind]
  rcases e : r.read s with ⟨a | a, mid⟩
  · rw [e] at first
    exact first
  · rw [e] at first
    exact (hf a mid).trans first

theorem Forward.ite {c : Prop} [Decidable c] {r r' : StreamReader ε β α} (h : Forward r)
    (h' : Forward r') : Forward (if c then r else r') := by
  split
  · exact h
  · exact h'

theorem shrinks_next (eof : ε) : Shrinks (next eof : StreamReader ε β β) := by
  intro s b rest h
  match s with
  | [] => simp only [next, Prod.mk.injEq, reduceCtorEq, false_and] at h
  | .ok b' :: s =>
    simp only [next, Prod.mk.injEq] at h
    rw [← h.2]
    exact Nat.lt_succ_self s.length
  | .error e :: s => simp only [next, Prod.mk.injEq, reduceCtorEq, false_and] at h

theorem Shrinks.bind {r : StreamReader ε β α} {f : α → StreamReader ε β γ} (hr : Shrinks r)
    (hf : ∀ a, Forward (f a)) : Shrinks (r >>= f) := by
  intro s c rest h
  obtain ⟨a, mid, first, second⟩ := bind_eq_ok h
  have after := (hf a mid).length_le
  rw [second] at after
  exact Nat.lt_of_le_of_lt after (hr s a mid first)

/-! ## Loops -/

/-- What a turn of a loop says: to go on, or the result. -/
inductive Turn (σ α : Type) where
  | again (state : σ)
  | done (result : α)

def readLoop (turn : σ → StreamReader ε β (Turn σ α)) (shrinks : ∀ a, Shrinks (turn a)) (a : σ)
    (s : List (Except ε β)) : Except ε α × List (Except ε β) :=
  match _ : (turn a).read s with
  | (.ok (.again a'), rest) => readLoop turn shrinks a' rest
  | (.ok (.done b), rest) => (.ok b, rest)
  | (.error f, rest) => (.error f, rest)
termination_by s.length
decreasing_by exact shrinks a s _ _ ‹_›

/-- `turn` again and again, until it says it is done. -/
def loop (turn : σ → StreamReader ε β (Turn σ α)) (shrinks : ∀ a, Shrinks (turn a)) (a : σ) :
    StreamReader ε β α := ⟨readLoop turn shrinks a⟩

section loop

variable {turn : σ → StreamReader ε β (Turn σ α)} {shrinks : ∀ a, Shrinks (turn a)}

theorem read_loop (a : σ) (s : List (Except ε β)) :
    (loop turn shrinks a).read s = match (turn a).read s with
      | (.ok (.again a'), rest) => (loop turn shrinks a').read rest
      | (.ok (.done b), rest) => (.ok b, rest)
      | (.error f, rest) => (.error f, rest) := by
  change readLoop turn shrinks a s = _
  rw [readLoop]
  split
  · rename_i e
    rw [e]
    rfl
  · rename_i e
    rw [e]
  · rename_i e
    rw [e]

theorem loop_again {a a' : σ} {s rest : List (Except ε β)}
    (h : (turn a).read s = (.ok (.again a'), rest)) :
    (loop turn shrinks a).read s = (loop turn shrinks a').read rest := by
  rw [read_loop, h]

theorem loop_done {a : σ} {b : α} {s rest : List (Except ε β)}
    (h : (turn a).read s = (.ok (.done b), rest)) :
    (loop turn shrinks a).read s = (.ok b, rest) := by
  rw [read_loop, h]

theorem loop_throw {a : σ} {f : ε} {s rest : List (Except ε β)}
    (h : (turn a).read s = (.error f, rest)) : (loop turn shrinks a).read s = (.error f, rest) := by
  rw [read_loop, h]

/-- A property of a loop at every stream, by induction on the stream its turns shorten. -/
theorem loop_induction (shrinks : ∀ a, Shrinks (turn a)) {P : σ → List (Except ε β) → Prop}
    (again : ∀ a s a' rest, (turn a).read s = (.ok (.again a'), rest) → P a' rest → P a s)
    (done : ∀ a s b rest, (turn a).read s = (.ok (.done b), rest) → P a s)
    (failed : ∀ a s f rest, (turn a).read s = (.error f, rest) → P a s)
    (a : σ) (s : List (Except ε β)) : P a s := by
  induction n : s.length using Nat.strongRecOn generalizing a s with
  | _ n ih =>
    rcases e : (turn a).read s with ⟨f | t, rest⟩
    · exact failed a s f rest e
    · cases t with
      | again a' =>
        have shorter := shrinks a s _ _ e
        exact again a s a' rest e (ih rest.length (n ▸ shorter) a' rest rfl)
      | done b => exact done a s b rest e

theorem forward_loop (h : ∀ a, Forward (turn a)) (a : σ) : Forward (loop turn shrinks a) := by
  intro s
  induction a, s using loop_induction shrinks with
  | again a s a' rest e ih =>
    have first := h a s
    rw [e] at first
    rw [loop_again e]
    exact ih.trans first
  | done a s b rest e =>
    have first := h a s
    rw [e] at first
    rw [loop_done e]
    exact first
  | failed a s f rest e =>
    have first := h a s
    rw [e] at first
    rw [loop_throw e]
    exact first

theorem shrinks_loop (h : ∀ a, Forward (turn a)) (a : σ) : Shrinks (loop turn shrinks a) := by
  intro s b rest e
  rcases e' : (turn a).read s with ⟨f | t, mid⟩
  · rw [loop_throw e'] at e
    simp only [Prod.mk.injEq, reduceCtorEq, false_and] at e
  · have first := shrinks a s _ _ e'
    cases t with
    | again a' =>
      rw [loop_again e'] at e
      have after : ((loop turn shrinks a').read mid).2.length ≤ mid.length :=
        (forward_loop h a' mid).length_le
      rw [e] at after
      exact Nat.lt_of_le_of_lt after first
    | done b' =>
      rw [loop_done e'] at e
      rw [← (Prod.mk.inj e).2]
      exact first

end loop

/-! ## The language of a reader -/

/-- `r` returns `a` after exactly the items `p` if and only if `G a p`. -/
structure Exact (r : StreamReader ε β α) (G : α → List β → Prop) : Prop where
  sound : ∀ {s a rest}, r.read s = (.ok a, rest) → ∃ p, s = p.map .ok ++ rest ∧ G a p
  complete : ∀ {a p}, G a p → ∀ rest, r.read (p.map .ok ++ rest) = (.ok a, rest)

theorem Exact.congr {r : StreamReader ε β α} {G G' : α → List β → Prop} (h : Exact r G)
    (iff : ∀ a p, G a p ↔ G' a p) : Exact r G' where
  sound e := by
    obtain ⟨p, split, g⟩ := h.sound e
    exact ⟨p, split, (iff _ p).1 g⟩
  complete g := h.complete ((iff _ _).2 g)

theorem exact_pure (a : α) :
    Exact (pure a : StreamReader ε β α) (fun b p => b = a ∧ p = []) where
  sound e := by
    rw [read_pure] at e
    obtain ⟨e₁, e₂⟩ := Prod.mk.inj e
    injection e₁ with e₁
    exact ⟨[], e₂, e₁.symm, rfl⟩
  complete g rest := by
    obtain ⟨rfl, rfl⟩ := g
    rfl

theorem exact_throw (e : ε) : Exact (throw e : StreamReader ε β α) (fun _ _ => False) where
  sound h := by
    rw [read_throw] at h
    cases (Prod.mk.inj h).1
  complete g := g.elim

theorem exact_next (eof : ε) : Exact (next eof : StreamReader ε β β) (fun b p => p = [b]) where
  sound {s b rest} e := by
    match s with
    | [] => simp only [next, Prod.mk.injEq, reduceCtorEq, false_and] at e
    | .ok b' :: s =>
      simp only [next, Prod.mk.injEq, Except.ok.injEq] at e
      obtain ⟨rfl, rfl⟩ := e
      exact ⟨[b'], rfl, rfl⟩
    | .error f :: s => simp only [next, Prod.mk.injEq, reduceCtorEq, false_and] at e
  complete g rest := by
    subst g
    rfl

theorem Exact.bind {r : StreamReader ε β α} {f : α → StreamReader ε β γ} {G : α → List β → Prop}
    {H : α → γ → List β → Prop} (hr : Exact r G) (hf : ∀ a, Exact (f a) (H a)) :
    Exact (r >>= f) (fun c p => ∃ a p₁ p₂, p = p₁ ++ p₂ ∧ G a p₁ ∧ H a c p₂) where
  sound {s c rest} e := by
    obtain ⟨a, mid, first, second⟩ := bind_eq_ok e
    obtain ⟨p₁, rfl, g⟩ := hr.sound first
    obtain ⟨p₂, rfl, h⟩ := (hf a).sound second
    exact ⟨p₁ ++ p₂, by rw [List.map_append, List.append_assoc], a, p₁, p₂, rfl, g, h⟩
  complete g rest := by
    obtain ⟨a, p₁, p₂, rfl, g, h⟩ := g
    rw [List.map_append, List.append_assoc, read_bind_ok (hr.complete g _)]
    exact (hf a).complete h rest

theorem Exact.ite {c : Prop} [Decidable c] {r r' : StreamReader ε β α} {G G' : α → List β → Prop}
    (h : Exact r G) (h' : Exact r' G') :
    Exact (if c then r else r') (fun a p => c ∧ G a p ∨ ¬ c ∧ G' a p) := by
  by_cases hc : c
  · rw [if_pos hc]
    refine h.congr fun a p => ⟨fun g => .inl ⟨hc, g⟩, ?_⟩
    rintro (⟨-, g⟩ | ⟨no, -⟩)
    · exact g
    · exact absurd hc no
  · rw [if_neg hc]
    refine h'.congr fun a p => ⟨fun g => .inr ⟨hc, g⟩, ?_⟩
    rintro (⟨yes, -⟩ | ⟨-, g⟩)
    · exact absurd yes hc
    · exact g

/-- A check before the rest of a reader only narrows its language. -/
theorem Exact.unless {c : Prop} [Decidable c] {e : ε} {r : StreamReader ε β α}
    {G : α → List β → Prop}
    (h : Exact r G) : Exact (if c then throw e else r) (fun a p => ¬ c ∧ G a p) :=
  ((exact_throw e).ite h).congr fun a p => by
    simp only [and_false, false_or]

/-- The runs of a loop: turns that say to go on, and one that is done. -/
inductive Turns (G : σ → Turn σ α → List β → Prop) : σ → α → List β → Prop
  | done {a : σ} {b : α} {p : List β} : G a (.done b) p → Turns G a b p
  | again {a a' : σ} {b : α} {p q : List β} :
    G a (.again a') p → Turns G a' b q → Turns G a b (p ++ q)

theorem exact_loop {turn : σ → StreamReader ε β (Turn σ α)} {shrinks : ∀ a, Shrinks (turn a)}
    {G : σ → Turn σ α → List β → Prop} (h : ∀ a, Exact (turn a) (G a)) (a : σ) :
    Exact (loop turn shrinks a) (Turns G a) where
  sound {s b rest} e := by
    induction a, s using loop_induction shrinks with
    | again a s a' mid e' ih =>
      rw [loop_again e'] at e
      obtain ⟨p, rfl, g⟩ := (h a).sound e'
      obtain ⟨q, rfl, runs⟩ := ih e
      exact ⟨p ++ q, by rw [List.map_append, List.append_assoc], .again g runs⟩
    | done a s b' mid e' =>
      rw [loop_done e'] at e
      obtain ⟨p, rfl, g⟩ := (h a).sound e'
      obtain ⟨e₁, rfl⟩ := Prod.mk.inj e
      injection e₁ with e₁
      exact ⟨p, rfl, .done (e₁ ▸ g)⟩
    | failed a s f mid e' =>
      rw [loop_throw e'] at e
      cases (Prod.mk.inj e).1
  complete runs rest := by
    induction runs with
    | done g => exact loop_done ((h _).complete g rest)
    | again g _ ih =>
      rw [List.map_append, List.append_assoc, loop_again ((h _).complete g _)]
      exact ih

/-! ## What follows from a language -/

variable {r : StreamReader ε β α} {G : α → List β → Prop}

/-- Two readings of one stream are one. -/
theorem Exact.unique (h : Exact r G) {a b : α} {p q : List β} {x y : List (Except ε β)} (hp : G a p)
    (hq : G b q) (same : p.map .ok ++ x = q.map .ok ++ y) : a = b ∧ p = q ∧ x = y := by
  have e := h.complete hp x
  rw [same, h.complete hq y] at e
  obtain ⟨e₁, rfl⟩ := Prod.mk.inj e
  injection e₁ with e₁
  have items := List.append_cancel_right same
  exact ⟨e₁.symm, List.map_injective_iff.2 (fun _ _ e => Except.ok.inj e) items, rfl⟩

/-- What does not begin with a word of the language is not returned from. -/
theorem Exact.throws (h : Exact r G) {s : List (Except ε β)}
    (none : ∀ a p rest, s = p.map .ok ++ rest → ¬ G a p) : ∃ e, (r.read s).1 = .error e := by
  rcases e : r.read s with ⟨f | a, rest⟩
  · exact ⟨f, rfl⟩
  · obtain ⟨p, split, g⟩ := h.sound e
    exact absurd g (none a p rest split)

/-- A stream that stops inside a word is not returned from. -/
theorem Exact.throws_inside (h : Exact r G) {a : α} {p q : List β} (word : G a (p ++ q))
    (inside : q ≠ []) {s : List (Except ε β)} (stops : ∀ b rest, s ≠ .ok b :: rest) :
    ∃ e, (r.read (p.map .ok ++ s)).1 = .error e := by
  refine h.throws fun b p' rest split g => inside ?_
  -- a word that ends before the stop is one that the longer word begins with
  have shorter : p' <+: p := by
    rcases List.append_eq_append_iff.1 split with ⟨t, front, back⟩ | ⟨t, front, -⟩
    · obtain ⟨p₁, p₂, rfl, e₁, e₂⟩ := List.map_eq_append_iff.1 front
      cases p₂ with
      | nil =>
        rw [List.append_nil]
        exact List.map_injective_iff.2 (fun _ _ e => Except.ok.inj e) e₁ ▸ List.prefix_refl p₁
      | cons b p₂ =>
        rw [← e₂] at back
        exact absurd back (stops b _)
    · obtain ⟨p₁, p₂, rfl, e₁, -⟩ := List.map_eq_append_iff.1 front
      rw [List.map_injective_iff.2 (fun _ _ e => Except.ok.inj e) e₁]
      exact List.prefix_append p' p₂
  obtain ⟨t, rfl⟩ := shorter
  have whole := (h.unique (x := (t ++ q).map .ok) (y := []) g word
    (by rw [← List.map_append, List.append_nil, List.append_assoc])).2.2
  exact (List.append_eq_nil_iff.1 (List.map_eq_nil_iff.1 whole)).2

end StreamReader
