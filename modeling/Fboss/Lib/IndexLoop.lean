import Fboss.Lib.ExceptSpec
import Mathlib.Tactic.SplitIfs

/-!
# Loops over the indices of a vector

`while (i < n && cond(s)) { ...; i += step; }`, where each turn may fail and
moves the index on by a step it reads from the data. The loop is run with a
bound on its turns. A body that moves the index forward on every turn
(`Advances`) takes at most `n - i` turns, so `whileLt`, whose bound is one
more, never runs out and unfolds as the loop does (`whileLt_eq`), and it fails
only where its body does (`whileLt_spec`).
-/

namespace IndexLoop

section

variable {σ : Type*} (n : Nat) (cond : σ → Bool) (body : σ → Nat → Except String (σ × Nat))

/-- `while (i < n && cond(s)) { (s, i) = body(s, i); }`, for at most `fuel`
turns. -/
def loop : Nat → σ → Nat → Except String (σ × Nat)
  | 0, _, _ => .error "loop"
  | fuel + 1, s, i =>
    if i < n ∧ cond s = true then body s i >>= fun r => loop fuel r.1 r.2 else .ok (s, i)

/-- The loop with one turn more than there are indices left. -/
def whileLt (s : σ) (i : Nat) : Except String (σ × Nat) :=
  loop n cond body (n - i + 1) s i

/-- Every turn of the body moves the index forward. -/
def Advances : Prop :=
  ∀ s i r, body s i = .ok r → i < r.2

variable {n cond body}

/-- With more turns than indices left, the bound does not matter. -/
theorem loop_eq_of_lt (hb : Advances body) :
    ∀ (fuel fuel' : Nat) (s : σ) (i : Nat), n - i < fuel → n - i < fuel' →
      loop n cond body fuel s i = loop n cond body fuel' s i
  | 0, _, _, _, h, _ => absurd h (Nat.not_lt_zero _)
  | _ + 1, 0, _, _, _, h' => absurd h' (Nat.not_lt_zero _)
  | fuel + 1, fuel' + 1, s, i, h, h' => by
    simp only [loop]
    split_ifs with hc
    · cases hbody : body s i with
      | error e => rfl
      | ok r =>
        -- the turn moved the index on, so the rest of the loop has one turn less to take
        have hr := hb s i r hbody
        exact loop_eq_of_lt hb fuel fuel' r.1 r.2 (by omega) (by omega)
    · rfl

/-- The loop unfolds as a `while` loop. -/
theorem whileLt_eq (hb : Advances body) (s : σ) (i : Nat) :
    whileLt n cond body s i =
      if i < n ∧ cond s = true then body s i >>= fun r => whileLt n cond body r.1 r.2 else .ok (s, i) := by
  rw [whileLt, loop]
  split_ifs with hc
  · cases hbody : body s i with
    | error e => rfl
    | ok r =>
      have hr := hb s i r hbody
      exact loop_eq_of_lt hb _ _ r.1 r.2 (by omega) (by omega)
  · rfl

/-- The invariant rule with errors: when every turn moves the index on, the
loop never runs out of turns, so every error of the loop is one of its body. -/
theorem loop_spec (hb : Advances body) (E : String → Prop) (I : σ → Nat → Prop)
    (hbody : ∀ s i, I s i → i < n → cond s = true →
      Except.Spec E (fun r => I r.1 r.2) (body s i)) :
    ∀ (fuel : Nat) (s : σ) (i : Nat), n - i < fuel → I s i →
      Except.Spec E (fun r => I r.1 r.2) (loop n cond body fuel s i)
  | 0, _, _, h, _ => absurd h (Nat.not_lt_zero _)
  | fuel + 1, s, i, h, hs => by
    simp only [loop]
    split_ifs with hc
    · have hspec := hbody s i hs hc.1 hc.2
      cases hbody' : body s i with
      | error e =>
        rw [hbody'] at hspec
        exact hspec
      | ok r =>
        rw [hbody'] at hspec
        -- the turn moved the index on, so the rest of the loop has one turn less to take
        have hr := hb s i r hbody'
        exact loop_spec hb E I hbody fuel r.1 r.2 (by omega) hspec
    · exact hs

theorem whileLt_spec (hb : Advances body) (E : String → Prop) (I : σ → Nat → Prop)
    (hbody : ∀ s i, I s i → i < n → cond s = true →
      Except.Spec E (fun r => I r.1 r.2) (body s i))
    {s : σ} {i : Nat} (hs : I s i) :
    Except.Spec E (fun r => I r.1 r.2) (whileLt n cond body s i) :=
  loop_spec hb E I hbody _ s i (by omega) hs

end

end IndexLoop
