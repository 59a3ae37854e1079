import Mathlib.Logic.Basic

/-!
# Runs of a deterministic system

A system whose transitions are `step : σ → ε → σ` runs a list of events from a
start state. A property every allowed step keeps holds after every run of
allowed events (`run_invariant`), and a relation between two systems over one
alphabet of events that every allowed pair of steps keeps relates their runs
(`run_simulation`). The events a run may take are given by a guard `P`, on
the event alone or on the event and the state it is taken in (`Guarded`).
-/

namespace Run

variable {σ τ ε : Type*}

/-- The state reached from `s` by the events `es`, in order. -/
def run (step : σ → ε → σ) (s : σ) (es : List ε) : σ :=
  es.foldl step s

@[simp] theorem run_nil (step : σ → ε → σ) (s : σ) : run step s [] = s := rfl

@[simp] theorem run_cons (step : σ → ε → σ) (s : σ) (e : ε) (es : List ε) :
    run step s (e :: es) = run step (step s e) es := rfl

/-- The invariant rule: a property kept by every step on an allowed event holds
after every run of allowed events from a state that has it. -/
theorem run_invariant {step : σ → ε → σ} {P : ε → Prop} (I : σ → Prop)
    (hstep : ∀ s e, P e → I s → I (step s e)) :
    ∀ {es : List ε} {s : σ}, (∀ e ∈ es, P e) → I s → I (run step s es)
  | [], _, _, hs => hs
  | e :: es, s, hes, hs => by
      rw [run_cons]
      exact run_invariant I hstep (fun e' he' => hes e' (List.mem_cons_of_mem e he'))
        (hstep s e (hes e List.mem_cons_self) hs)

/-- Every event of `es`, run from `s`, is allowed by `P` in the state it is
taken in. -/
def Guarded (step : σ → ε → σ) (P : σ → ε → Prop) : σ → List ε → Prop
  | _, [] => True
  | s, e :: es => P s e ∧ Guarded step P (step s e) es

instance instDecidableGuarded {step : σ → ε → σ} {P : σ → ε → Prop} [∀ s e, Decidable (P s e)] :
    ∀ (s : σ) (es : List ε), Decidable (Guarded step P s es)
  | _, [] => isTrue trivial
  | s, e :: es =>
    haveI : Decidable (Guarded step P (step s e) es) := instDecidableGuarded (step s e) es
    inferInstanceAs (Decidable (P s e ∧ Guarded step P (step s e) es))

/-- The invariant rule for a guard that reads the state: a property kept by
every step the guard allows holds after every guarded run. -/
theorem run_invariant_guarded {step : σ → ε → σ} {P : σ → ε → Prop} (I : σ → Prop)
    (hstep : ∀ s e, P s e → I s → I (step s e)) :
    ∀ {es : List ε} {s : σ}, Guarded step P s es → I s → I (run step s es)
  | [], _, _, hs => hs
  | e :: es, s, ⟨he, hes⟩, hs => by
      rw [run_cons]
      exact run_invariant_guarded I hstep hes (hstep s e he hs)

/-- Two systems run side by side on one list of events. -/
theorem run_prod (step : σ → ε → σ) (step' : τ → ε → τ) (es : List ε) (s : σ) (t : τ) :
    run (fun st e => (step st.1 e, step' st.2 e)) (s, t) es = (run step s es, run step' t es) := by
  induction es generalizing s t with
  | nil => rfl
  | cons e es ih => exact ih (step s e) (step' t e)

/-- The simulation rule: a relation kept by every pair of steps on one allowed
event relates the two runs of any list of allowed events. It is the invariant
rule for the two systems run side by side. -/
theorem run_simulation {step : σ → ε → σ} {step' : τ → ε → τ} {P : ε → Prop}
    (R : σ → τ → Prop) (hstep : ∀ s t e, P e → R s t → R (step s e) (step' t e))
    {es : List ε} {s : σ} {t : τ} (hes : ∀ e ∈ es, P e) (hst : R s t) :
    R (run step s es) (run step' t es) := by
  have hpair := @run_invariant (σ × τ) ε (fun st e => (step st.1 e, step' st.2 e)) P
    (fun st => R st.1 st.2) (fun st e he h => hstep st.1 st.2 e he h) es (s, t) hes hst
  rwa [run_prod] at hpair

/-- The refinement rule: when every step from a state with `I` keeps `I` and
is read by `abs` as the step of a second system on the event read by `f`,
every run from a state with `I` keeps `I` and is read as the second system's
run of the events read by `f`. -/
theorem run_refines {ε' : Type*} {step : σ → ε → σ} {step' : τ → ε' → τ} (I : σ → Prop) (abs : σ → τ)
    (f : ε → ε') (hstep : ∀ s e, I s → I (step s e) ∧ abs (step s e) = step' (abs s) (f e)) :
    ∀ (es : List ε) {s : σ}, I s → I (run step s es) ∧ abs (run step s es) = run step' (abs s) (es.map f)
  | [], _, hs => ⟨hs, rfl⟩
  | e :: es, s, hs => by
    obtain ⟨hs', habs⟩ := hstep s e hs
    rw [run_cons, List.map_cons, run_cons, ← habs]
    exact run_refines I abs f hstep es hs'

end Run
