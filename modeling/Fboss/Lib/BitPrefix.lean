import Mathlib.Logic.Basic

/-!
# Prefixes of bit vectors

A vector `a : BitVec w` read from its most significant bit is a bit string of
length `w`, and its first `n` bits form a prefix. This file stores a prefix the
way routing tables do: as the vector with every later bit cleared
(`maskMsb a n`), together with its length. It proves the facts that a binary
prefix tree over such prefixes relies on: how clearing composes, when two
vectors agree on a prefix, when one prefix covers another, and the longest
common prefix of two vectors.

Everything is stated bit by bit through `BitVec.getMsbD`, so that a fact about
vectors reduces to a fact about the bits below a bound; nothing here depends
on how the vector is stored.
-/

namespace BitPrefix

variable {w : Nat}

/-- `a` with every bit from position `n` on, counted from the most significant
bit, cleared. -/
def maskMsb (a : BitVec w) (n : Nat) : BitVec w :=
  a &&& (BitVec.allOnes w <<< (w - n))

@[simp] theorem getMsbD_maskMsb (a : BitVec w) (n i : Nat) :
    (maskMsb a n).getMsbD i = (a.getMsbD i && decide (i < n)) := by
  rw [maskMsb, BitVec.getMsbD_and, BitVec.getMsbD_shiftLeft, BitVec.getMsbD_allOnes]
  by_cases hi : i < w
  · have hcut : decide (i + (w - n) < w) = decide (i < n) := decide_eq_decide.mpr (by omega)
    rw [hcut]
  · simp [BitVec.getMsbD_of_ge a i (by omega)]

/-- `a` and `b` have the same first `n` bits. -/
def Agree (a b : BitVec w) (n : Nat) : Prop :=
  ∀ i, i < n → a.getMsbD i = b.getMsbD i

instance (a b : BitVec w) (n : Nat) : Decidable (Agree a b n) :=
  inferInstanceAs (Decidable (∀ i, i < n → a.getMsbD i = b.getMsbD i))

theorem Agree.symm {a b : BitVec w} {n : Nat} (h : Agree a b n) : Agree b a n :=
  fun i hi => (h i hi).symm

theorem Agree.trans {a b c : BitVec w} {n : Nat} (hab : Agree a b n) (hbc : Agree b c n) :
    Agree a c n :=
  fun i hi => (hab i hi).trans (hbc i hi)

theorem Agree.mono {a b : BitVec w} {n m : Nat} (h : Agree a b n) (hmn : m ≤ n) :
    Agree a b m :=
  fun i hi => h i (by omega)

/-- Two vectors have the same first `n` bits exactly when clearing the rest
makes them equal. -/
theorem maskMsb_eq_maskMsb_iff {a b : BitVec w} {n : Nat} :
    maskMsb a n = maskMsb b n ↔ Agree a b n := by
  constructor
  · intro h i hi
    have hbit := congrArg (fun x => x.getMsbD i) h
    simpa [hi] using hbit
  · intro h
    apply BitVec.eq_of_getMsbD_eq
    intro i _
    by_cases hi : i < n
    · simp [hi, h i hi]
    · simp [hi]

theorem agree_maskMsb (a : BitVec w) (n : Nat) : Agree (maskMsb a n) a n := by
  intro i hi
  simp [hi]

@[simp] theorem maskMsb_maskMsb (a : BitVec w) (n m : Nat) :
    maskMsb (maskMsb a n) m = maskMsb a (min n m) := by
  apply BitVec.eq_of_getMsbD_eq
  intro i _
  simp only [getMsbD_maskMsb, Bool.and_assoc]
  congr 1
  simp only [Nat.lt_min, Bool.decide_and]

theorem maskMsb_idem (a : BitVec w) (n : Nat) : maskMsb (maskMsb a n) n = maskMsb a n := by
  simp

/-- Masking at a shorter length commutes with masking a vector that already
agrees with a masked one. -/
theorem maskMsb_eq_of_agree {a b : BitVec w} {n m : Nat} (h : Agree a b n) (hm : m ≤ n) :
    maskMsb a m = maskMsb b m :=
  maskMsb_eq_maskMsb_iff.mpr (h.mono hm)

/-! ### Covering prefixes -/

/-- The prefix of length `l` stored as `p` covers the prefix of length `m` stored as
`q`: it is no longer, and the first `l` bits of `q` are `p`. -/
def Covers (p : BitVec w) (l : Nat) (q : BitVec w) (m : Nat) : Prop :=
  l ≤ m ∧ maskMsb q l = p

instance (p : BitVec w) (l : Nat) (q : BitVec w) (m : Nat) : Decidable (Covers p l q m) :=
  inferInstanceAs (Decidable (l ≤ m ∧ maskMsb q l = p))

theorem covers_refl {p : BitVec w} {l : Nat} (hp : maskMsb p l = p) : Covers p l p l :=
  ⟨Nat.le_refl l, hp⟩

theorem Covers.trans {p q r : BitVec w} {l m n : Nat} (h₁ : Covers p l q m)
    (h₂ : Covers q m r n) : Covers p l r n := by
  refine ⟨Nat.le_trans h₁.1 h₂.1, ?_⟩
  rw [← h₁.2, ← h₂.2, maskMsb_maskMsb, Nat.min_eq_right h₁.1]

theorem Covers.agree {p q : BitVec w} {l m : Nat} (h : Covers p l q m) : Agree p q l := by
  rw [← h.2]
  exact agree_maskMsb q l

theorem Covers.maskMsb_eq {p q : BitVec w} {l m : Nat} (h : Covers p l q m) :
    maskMsb p l = p := by
  rw [← h.2, maskMsb_idem]

theorem Covers.eq_of_le {p q : BitVec w} {l m : Nat} (h : Covers p l q m) (hq : maskMsb q m = q)
    (hml : m ≤ l) : p = q ∧ l = m := by
  have hlm : l = m := Nat.le_antisymm h.1 hml
  subst hlm
  exact ⟨h.2.symm.trans hq, rfl⟩

/-- A prefix covers a query masked to `len` when it is no longer and the query
masked to its own length is it. -/
theorem covers_maskMsb_iff {p a : BitVec w} {l len : Nat} :
    Covers p l (maskMsb a len) len ↔ l ≤ len ∧ maskMsb a l = p := by
  unfold Covers
  constructor
  · rintro ⟨hl, hp⟩
    rw [maskMsb_maskMsb, Nat.min_eq_right hl] at hp
    exact ⟨hl, hp⟩
  · rintro ⟨hl, hp⟩
    rw [maskMsb_maskMsb, Nat.min_eq_right hl]
    exact ⟨hl, hp⟩

/-- A covered prefix agrees with the covering one on the covering length. -/
theorem Covers.getMsbD_eq {p q : BitVec w} {l m i : Nat} (h : Covers p l q m) (hi : i < l) :
    q.getMsbD i = p.getMsbD i :=
  (h.agree i hi).symm

/-! ### Branches below a prefix

A binary prefix tree sends a longer prefix to one of two branches below a
shorter one, by the first bit after the shorter one. -/

/-- The prefix `(q, m)` lies in the `dir` branch below `(p, l)`: it is strictly
longer, covered by `(p, l)`, and its bit `l` is `dir`. -/
def InBranch (p : BitVec w) (l : Nat) (dir : Bool) (q : BitVec w) (m : Nat) : Prop :=
  l < m ∧ maskMsb q l = p ∧ q.getMsbD l = dir

instance (p : BitVec w) (l : Nat) (dir : Bool) (q : BitVec w) (m : Nat) :
    Decidable (InBranch p l dir q m) :=
  inferInstanceAs (Decidable (l < m ∧ maskMsb q l = p ∧ q.getMsbD l = dir))

theorem InBranch.covers {p q : BitVec w} {l m : Nat} {dir : Bool} (h : InBranch p l dir q m) :
    Covers p l q m :=
  ⟨Nat.le_of_lt h.1, h.2.1⟩

/-- Whatever a prefix in a branch covers lies in the same branch. -/
theorem InBranch.trans_covers {p q r : BitVec w} {l m n : Nat} {dir : Bool}
    (h : InBranch p l dir q m) (hqr : Covers q m r n) : InBranch p l dir r n := by
  obtain ⟨hlm, hmask, hbit⟩ := h
  refine ⟨by have := hqr.1; omega, ?_, ?_⟩
  · rw [← hmask, ← hqr.2, maskMsb_maskMsb, Nat.min_eq_right (Nat.le_of_lt hlm)]
  · rw [hqr.getMsbD_eq hlm, hbit]

/-- Branches compose: a prefix in a branch of a prefix in the `dir` branch of
`(p, l)` is in that branch too. -/
theorem InBranch.trans {p q r : BitVec w} {l m n : Nat} {dir dir' : Bool}
    (h : InBranch p l dir q m) (h' : InBranch q m dir' r n) : InBranch p l dir r n :=
  h.trans_covers h'.covers

theorem InBranch.ne_of_ne {p q r : BitVec w} {l m n : Nat} {dir dir' : Bool}
    (h : InBranch p l dir q m) (h' : InBranch p l dir' r n) (hdir : dir ≠ dir') :
    (q, m) ≠ (r, n) := by
  intro heq
  cases heq
  exact hdir (h.2.2.symm.trans h'.2.2)

/-- A prefix that covers a prefix of a branch, and is longer than the branch
point, lies in that branch too. -/
theorem InBranch.of_covers {p q c : BitVec w} {l m n : Nat} {dir : Bool}
    (h : InBranch p l dir q m) (hc : Covers c n q m) (hlt : l < n) : InBranch p l dir c n := by
  obtain ⟨-, hmask, hbit⟩ := h
  refine ⟨hlt, ?_, ?_⟩
  · rw [← hc.2, maskMsb_maskMsb, Nat.min_eq_right (Nat.le_of_lt hlt), hmask]
  · rw [← hc.getMsbD_eq hlt, hbit]

/-- A prefix is not in a branch below itself. -/
theorem InBranch.ne_self {p q : BitVec w} {l m : Nat} {dir : Bool} (h : InBranch p l dir q m) :
    (q, m) ≠ (p, l) := by
  intro heq
  cases heq
  exact Nat.lt_irrefl _ h.1

/-- A covered prefix that is strictly longer lies in the branch given by its
next bit. -/
theorem Covers.inBranch {p q : BitVec w} {l m : Nat} (h : Covers p l q m) (hlt : l < m) :
    InBranch p l (q.getMsbD l) q m :=
  ⟨hlt, h.2, rfl⟩

/-! ### Longest common prefix -/

/-- The number of leading bits, among the first `n`, on which `a` and `b` agree. -/
def commonPrefixLength (a b : BitVec w) : Nat → Nat
  | 0 => 0
  | n + 1 =>
    if commonPrefixLength a b n = n ∧ a.getMsbD n = b.getMsbD n then n + 1
    else commonPrefixLength a b n

theorem commonPrefixLength_succ (a b : BitVec w) (n : Nat) :
    commonPrefixLength a b (n + 1) =
      if commonPrefixLength a b n = n ∧ a.getMsbD n = b.getMsbD n then n + 1
      else commonPrefixLength a b n := rfl

/-- The three facts that characterise the common prefix length: it is at most
the bound, the vectors agree up to it, and below the bound they differ right
after it. -/
theorem commonPrefixLength_spec (a b : BitVec w) (n : Nat) :
    commonPrefixLength a b n ≤ n ∧ Agree a b (commonPrefixLength a b n) ∧
      (commonPrefixLength a b n < n →
        a.getMsbD (commonPrefixLength a b n) ≠ b.getMsbD (commonPrefixLength a b n)) := by
  induction n with
  | zero =>
      exact ⟨Nat.le_refl 0, fun i hi => absurd hi (Nat.not_lt_zero i),
        fun h => absurd h (Nat.lt_irrefl 0)⟩
  | succ n ih =>
      obtain ⟨hle, hagree, hdiff⟩ := ih
      rw [commonPrefixLength_succ]
      split
      · next hstep =>
          obtain ⟨hk, hbit⟩ := hstep
          refine ⟨Nat.le_refl _, ?_, fun h => absurd h (Nat.lt_irrefl _)⟩
          intro i hi
          rcases Nat.lt_succ_iff_lt_or_eq.mp hi with hi | rfl
          · exact hagree i (by omega)
          · exact hbit
      · next hstep =>
          refine ⟨by omega, hagree, fun _ => ?_⟩
          rcases Nat.lt_or_eq_of_le hle with hlt | heq
          · exact hdiff hlt
          · intro hbit
            exact hstep ⟨heq, heq ▸ hbit⟩

theorem commonPrefixLength_le (a b : BitVec w) (n : Nat) : commonPrefixLength a b n ≤ n :=
  (commonPrefixLength_spec a b n).1

theorem agree_commonPrefixLength (a b : BitVec w) (n : Nat) :
    Agree a b (commonPrefixLength a b n) :=
  (commonPrefixLength_spec a b n).2.1

theorem getMsbD_ne_of_commonPrefixLength_lt {a b : BitVec w} {n : Nat}
    (h : commonPrefixLength a b n < n) :
    a.getMsbD (commonPrefixLength a b n) ≠ b.getMsbD (commonPrefixLength a b n) :=
  (commonPrefixLength_spec a b n).2.2 h

/-- Any agreement below the bound is no longer than the common prefix length. -/
theorem le_commonPrefixLength {a b : BitVec w} {n k : Nat} (hk : k ≤ n) (h : Agree a b k) :
    k ≤ commonPrefixLength a b n := by
  refine Nat.le_of_not_lt fun hlt => ?_
  have hlt' : commonPrefixLength a b n < n := by omega
  exact getMsbD_ne_of_commonPrefixLength_lt hlt' (h _ hlt)

/-! ### The longest common prefix of two prefixes -/

/-- The longest prefix covering both `(a, la)` and `(b, lb)`. -/
def commonPrefix (a : BitVec w) (la : Nat) (b : BitVec w) (lb : Nat) : BitVec w × Nat :=
  let n := commonPrefixLength a b (min la lb)
  (maskMsb a n, n)

theorem commonPrefix_covers_left (a : BitVec w) (la : Nat) (b : BitVec w) (lb : Nat) :
    Covers (commonPrefix a la b lb).1 (commonPrefix a la b lb).2 a la :=
  ⟨Nat.le_trans (commonPrefixLength_le a b _) (Nat.min_le_left la lb), rfl⟩

theorem commonPrefix_covers_right (a : BitVec w) (la : Nat) (b : BitVec w) (lb : Nat) :
    Covers (commonPrefix a la b lb).1 (commonPrefix a la b lb).2 b lb :=
  ⟨Nat.le_trans (commonPrefixLength_le a b _) (Nat.min_le_right la lb),
    maskMsb_eq_of_agree (agree_commonPrefixLength a b _).symm (Nat.le_refl _)⟩

/-- Every prefix covering both is no longer than the common prefix. -/
theorem le_commonPrefix {a b p : BitVec w} {la lb l : Nat} (ha : Covers p l a la)
    (hb : Covers p l b lb) : l ≤ (commonPrefix a la b lb).2 :=
  le_commonPrefixLength (Nat.le_min.mpr ⟨ha.1, hb.1⟩) (ha.agree.symm.trans hb.agree)

/-- Where the common prefix stops short of both, their next bits differ. -/
theorem getMsbD_ne_of_lt_commonPrefix {a b : BitVec w} {la lb : Nat}
    (ha : (commonPrefix a la b lb).2 < la) (hb : (commonPrefix a la b lb).2 < lb) :
    a.getMsbD (commonPrefix a la b lb).2 ≠ b.getMsbD (commonPrefix a la b lb).2 :=
  getMsbD_ne_of_commonPrefixLength_lt (Nat.lt_min.mpr ⟨ha, hb⟩)

/-- If the common prefix is the whole of `(b, lb)`, then `(b, lb)` covers `(a, la)`. -/
theorem covers_of_commonPrefix_eq_right {a b : BitVec w} {la lb : Nat}
    (h : commonPrefix a la b lb = (b, lb)) : Covers b lb a la := by
  have hcov := commonPrefix_covers_left a la b lb
  rw [h] at hcov
  exact hcov

/-- Where a prefix `(b, lb)` meets a prefix `(a, la)` that does not cover it:
either `(b, lb)` is their common prefix, strictly shorter, with `(a, la)` in one
of its branches; or the common prefix is strictly shorter than both, and the two
lie in its two different branches. -/
theorem commonPrefix_cases {a b : BitVec w} {la lb : Nat} (ha : maskMsb a la = a)
    (hb : maskMsb b lb = b) (hncov : ¬ Covers a la b lb) :
    (commonPrefix a la b lb = (b, lb) ∧ InBranch b lb (a.getMsbD lb) a la) ∨
      (commonPrefix a la b lb ≠ (b, lb) ∧
        InBranch (commonPrefix a la b lb).1 (commonPrefix a la b lb).2
          (a.getMsbD (commonPrefix a la b lb).2) a la ∧
        InBranch (commonPrefix a la b lb).1 (commonPrefix a la b lb).2
          (b.getMsbD (commonPrefix a la b lb).2) b lb ∧
        a.getMsbD (commonPrefix a la b lb).2 ≠ b.getMsbD (commonPrefix a la b lb).2) := by
  have hca := commonPrefix_covers_left a la b lb
  have hcb := commonPrefix_covers_right a la b lb
  by_cases heq : commonPrefix a la b lb = (b, lb)
  · -- `(b, lb)` covers `(a, la)`, strictly: equal prefixes would cover each other
    have hcov := covers_of_commonPrefix_eq_right heq
    refine Or.inl ⟨heq, hcov.inBranch (Nat.lt_of_le_of_ne hcov.1 fun hlen => hncov ?_)⟩
    obtain ⟨hba, -⟩ := hcov.eq_of_le ha (by omega)
    subst hba hlen
    exact covers_refl ha
  · have hltb : (commonPrefix a la b lb).2 < lb := by
      refine Nat.lt_of_le_of_ne hcb.1 fun hlen => heq (Prod.ext ?_ hlen)
      rw [← hcb.2, hlen, hb]
    have hlta : (commonPrefix a la b lb).2 < la := by
      refine Nat.lt_of_le_of_ne hca.1 fun hlen => hncov ?_
      -- the common prefix would be `(a, la)` itself, which covers `(b, lb)`
      have hfst : (commonPrefix a la b lb).1 = a := by rw [← hca.2, hlen, ha]
      have hcov := hcb
      rw [hfst, hlen] at hcov
      exact hcov
    exact Or.inr ⟨heq, hca.inBranch hlta, hcb.inBranch hltb, getMsbD_ne_of_lt_commonPrefix hlta hltb⟩

/-- Two prefixes in one branch have their common prefix in that branch. -/
theorem InBranch.inBranch_commonPrefix {p a b : BitVec w} {l la lb : Nat} {dir : Bool}
    (ha : InBranch p l dir a la) (hb : InBranch p l dir b lb) :
    InBranch p l dir (commonPrefix a la b lb).1 (commonPrefix a la b lb).2 := by
  -- both agree with `p` before bit `l` and with each other at it
  have hagree : Agree a b (l + 1) := by
    intro i hi
    rcases Nat.lt_succ_iff_lt_or_eq.mp hi with hi | rfl
    · rw [ha.covers.getMsbD_eq hi, hb.covers.getMsbD_eq hi]
    · rw [ha.2.2, hb.2.2]
  have hlen : l + 1 ≤ (commonPrefix a la b lb).2 :=
    le_commonPrefixLength (Nat.le_min.mpr ⟨ha.1, hb.1⟩) hagree
  exact ha.of_covers (commonPrefix_covers_left a la b lb) hlen

/-- Two prefixes in the two different branches below `(p, l)` have `(p, l)` as
their common prefix. -/
theorem InBranch.commonPrefix_eq_of_ne {p a b : BitVec w} {l la lb : Nat} {dir dir' : Bool}
    (ha : InBranch p l dir a la) (hb : InBranch p l dir' b lb) (hdir : dir ≠ dir') :
    commonPrefix a la b lb = (p, l) := by
  have hca := commonPrefix_covers_left a la b lb
  have hcb := commonPrefix_covers_right a la b lb
  have hle : l ≤ (commonPrefix a la b lb).2 := le_commonPrefix ha.covers hb.covers
  -- a longer common prefix would give both the same bit `l`
  have hge : (commonPrefix a la b lb).2 ≤ l := by
    refine Nat.le_of_not_lt fun hlt => hdir ?_
    rw [← ha.2.2, ← hb.2.2, hca.getMsbD_eq hlt, hcb.getMsbD_eq hlt]
  have hlen : (commonPrefix a la b lb).2 = l := Nat.le_antisymm hge hle
  refine Prod.ext ?_ hlen
  rw [← hca.2, hlen, ha.2.1]

end BitPrefix
