import Mathlib.Logic.Basic

/-!
# Outcomes of computations that may fail

`Except.Spec E P x` says that the computation `x` ends in a value with the
property `P` or in an error with the property `E`: a postcondition for the
normal and for the exceptional outcome. It is a Hoare triple of the `Except`
monad whose precondition is left to the hypotheses of the lemma that proves
it. The rules follow the monad's operations: `pure` and `throw`, bind, map,
`mapError`, and the fold `List.foldlM`, whose rule is the loop invariant rule.

Code that updates a state in place and throws keeps what it did before the
exception: `inPlace` runs a computation so, and `foldlInPlace` is a loop of
such turns that stops at the first error with the state as it then is. It
ends without an error exactly when the fold `List.foldlM` succeeds, and an
invariant that every turn keeps holds of its state also after an error.
-/

namespace Except

universe u v

variable {ε ε' : Type u} {α β γ : Type v}

/-- `x` ends in a value with property `P`, or in an error with property `E`. -/
def Spec (E : ε → Prop) (P : α → Prop) : Except ε α → Prop
  | .ok a => P a
  | .error e => E e

@[simp] theorem ok_bind (a : α) (f : α → Except ε β) : (Except.ok a >>= f) = f a := rfl

@[simp] theorem error_bind (e : ε) (f : α → Except ε β) : (Except.error e >>= f) = .error e := rfl

variable {E : ε → Prop} {P Q : α → Prop}

@[simp] theorem spec_ok (a : α) : Spec E P (.ok a) ↔ P a := Iff.rfl

@[simp] theorem spec_error (e : ε) : Spec E P (.error e : Except ε α) ↔ E e := Iff.rfl

@[simp] theorem spec_pure (a : α) : Spec E P (pure a) ↔ P a := Iff.rfl

@[simp] theorem spec_throw (e : ε) : Spec E P (throw e : Except ε α) ↔ E e := Iff.rfl

/-- Every computation ends in a value or in an error. -/
theorem spec_true (x : Except ε α) : Spec (fun _ => True) (fun _ => True) x := by
  cases x <;> trivial

theorem Spec.mono {x : Except ε α} (h : Spec E P x) (hPQ : ∀ a, P a → Q a) : Spec E Q x := by
  cases x with
  | error e => exact h
  | ok a => exact hPQ a h

/-- The rule of sequencing: the continuation is run on a value with the
property the first part ensures. -/
theorem Spec.bind {x : Except ε α} {f : α → Except ε β} {R : β → Prop} (hx : Spec E P x)
    (hf : ∀ a, P a → Spec E R (f a)) : Spec E R (x >>= f) := by
  cases x with
  | error e => exact hx
  | ok a => exact hf a hx

theorem Spec.map {x : Except ε α} {f : α → β} {R : β → Prop} (hx : Spec E P x)
    (hf : ∀ a, P a → R (f a)) : Spec E R (f <$> x) := by
  cases x with
  | error e => exact hx
  | ok a => exact hf a hx

theorem Spec.mapError {x : Except ε α} {E' : ε' → Prop} {g : ε → ε'} (hx : Spec E P x)
    (hg : ∀ e, E e → E' (g e)) : Spec E' P (x.mapError g) := by
  cases x with
  | error e => exact hg e hx
  | ok a => exact hx

/-- Two postconditions of one computation hold together. -/
theorem Spec.and {x : Except ε α} {E' : ε → Prop} (h : Spec E P x) (h' : Spec E' Q x) :
    Spec (fun e => E e ∧ E' e) (fun a => P a ∧ Q a) x := by
  cases x with
  | error e => exact ⟨h, h'⟩
  | ok a => exact ⟨h, h'⟩

/-- A weaker property of the errors. -/
theorem Spec.mono_error {E' : ε → Prop} {x : Except ε α} (h : Spec E P x) (hE : ∀ e, E e → E' e) :
    Spec E' P x := by
  cases x with
  | error e => exact hE e h
  | ok a => exact h

/-- A computation that cannot end in an error ends in a value. -/
theorem Spec.exists_eq_ok {x : Except ε α} (h : Spec (fun _ => False) P x) : ∃ a, x = .ok a ∧ P a := by
  cases x with
  | error e => exact h.elim
  | ok a => exact ⟨a, rfl, h⟩

theorem Spec.of_eq_ok {x : Except ε α} {a : α} (h : Spec E P x) (hx : x = .ok a) : P a := by
  subst hx
  exact h

theorem Spec.of_eq_error {x : Except ε α} {e : ε} (h : Spec E P x) (hx : x = .error e) : E e := by
  subst hx
  exact h

/-- The loop rule from a point of the list on: an invariant of the elements
visited so far, `vs`, and of the accumulator, that every turn extends by the
element it visits. -/
theorem spec_foldlM_from {f : β → γ → Except ε β} (I : List γ → β → Prop) :
    ∀ {l vs : List γ} {b : β}, I vs b →
      (∀ vs b, I vs b → ∀ c ∈ l, Spec E (I (vs ++ [c])) (f b c)) →
      Spec E (I (vs ++ l)) (l.foldlM f b)
  | [], vs, _, hb, _ => by simpa using hb
  | c :: l, vs, b, hb, hf => by
    rw [List.foldlM_cons]
    refine Spec.bind (hf vs b hb c List.mem_cons_self) fun b' hb' => ?_
    have hrest := spec_foldlM_from I hb' fun vs' b'' hb'' c' hc' =>
      hf vs' b'' hb'' c' (List.mem_cons_of_mem c hc')
    simpa using hrest

/-- The loop rule with the elements visited so far: an invariant of the
visited prefix and of the accumulator holds of the whole list at the end. -/
theorem spec_foldlM_visited {f : β → γ → Except ε β} (I : List γ → β → Prop) {l : List γ}
    {b : β} (hb : I [] b) (hf : ∀ vs b, I vs b → ∀ c ∈ l, Spec E (I (vs ++ [c])) (f b c)) :
    Spec E (I l) (l.foldlM f b) :=
  @spec_foldlM_from _ _ _ _ f I l [] b hb hf

/-- The loop rule with the place of each turn, from a point of the list on:
the turn on `c` may use that `c` follows the elements `vs` of `l` and comes
before the elements `rest`. -/
theorem spec_foldlM_split_from {f : β → γ → Except ε β} (I : List γ → β → Prop) (l : List γ)
    (hf : ∀ vs c rest b, l = vs ++ c :: rest → I vs b → Spec E (I (vs ++ [c])) (f b c)) :
    ∀ (rest vs : List γ) (b : β), vs ++ rest = l → I vs b → Spec E (I l) (rest.foldlM f b)
  | [], vs, b, hl, hb => by
    rw [List.append_nil] at hl
    subst hl
    simpa using hb
  | c :: rest, vs, b, hl, hb => by
    rw [List.foldlM_cons]
    refine Spec.bind (hf vs c rest b hl.symm hb) fun b' hb' => ?_
    exact spec_foldlM_split_from I l hf rest (vs ++ [c]) b' (by simpa using hl) hb'

/-- The loop rule with the place of each turn: an invariant of the visited
prefix that every turn extends, knowing where in the list it is. -/
theorem spec_foldlM_split {f : β → γ → Except ε β} (I : List γ → β → Prop) {l : List γ} {b : β}
    (hb : I [] b) (hf : ∀ vs c rest b, l = vs ++ c :: rest → I vs b → Spec E (I (vs ++ [c])) (f b c)) :
    Spec E (I l) (l.foldlM f b) :=
  spec_foldlM_split_from I l hf l [] b rfl hb

/-- The loop rule: an invariant of the accumulator that every turn keeps (or
that ends the loop with an allowed error) holds at the end of the fold. -/
theorem spec_foldlM {f : β → γ → Except ε β} (I : β → Prop) {l : List γ} {b : β} (hb : I b)
    (hf : ∀ b, I b → ∀ c ∈ l, Spec E I (f b c)) : Spec E I (l.foldlM f b) :=
  spec_foldlM_visited (fun _ => I) hb fun _ b hb c hc => hf b hb c hc

/-- The potential rule: when every turn keeps `I`, and raises the potential `Φ`
by at most one and only on an element with `p`, the fold raises it by at most
the number of such elements. -/
theorem spec_foldlM_potential {f : β → γ → Except ε β} (I : β → Prop) (Φ : β → Nat) (p : γ → Bool)
    {l : List γ} {b : β} (hb : I b)
    (hf : ∀ b, I b → ∀ c ∈ l, Spec E (fun b' => I b' ∧ Φ b' ≤ Φ b + if p c then 1 else 0) (f b c)) :
    Spec E (fun b' => I b' ∧ Φ b' ≤ Φ b + l.countP p) (l.foldlM f b) := by
  have hrun := spec_foldlM_visited (E := E) (fun vs b' => I b' ∧ Φ b' ≤ Φ b + vs.countP p)
    ⟨hb, Nat.le_add_right _ _⟩ fun vs b' hb' c hc => (hf b' hb'.1 c hc).mono fun b'' h => ⟨h.1, by
      rw [List.countP_append, List.countP_singleton]
      omega⟩
  exact hrun

/-! ### Loops that update a state in place -/

section InPlace

variable {σ : Type v}

/-- A computation run in place on the state `s`: its new state, or `s` as it
was with the computation's error. -/
def inPlace (s : σ) : Except ε σ → σ × Option ε
  | .ok s' => (s', none)
  | .error e => (s, some e)

/-- A loop over `l` whose turns update the state in place and may throw: it
stops at the first error, with the state as the failing turn left it. -/
def foldlInPlace (f : σ → γ → σ × Option ε) : σ → List γ → σ × Option ε
  | s, [] => (s, none)
  | s, c :: l =>
    match f s c with
    | (s', none) => foldlInPlace f s' l
    | (s', some e) => (s', some e)

@[simp] theorem inPlace_eq_none_iff {s s' : σ} {x : Except ε σ} :
    inPlace s x = (s', none) ↔ x = .ok s' := by
  cases x <;> simp [inPlace]

/-- A computation run in place keeps an invariant that it ensures on success. -/
theorem inPlace_invariant {I : σ → Prop} {s : σ} {x : Except ε σ} (hs : I s)
    (hx : Spec (fun _ => True) I x) : I (inPlace s x).1 := by
  cases x with
  | ok s' => exact hx
  | error e => exact hs

end InPlace

end Except
