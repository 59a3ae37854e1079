import Mathlib.Order.Basic
import Mathlib.Data.List.Nodup

/-!
# Selecting in a list

A loop that walks a sequence and remembers the last element passing a test is the
fold `lastWhere p init l`. On a list whose elements strictly increase in some
weight, that element is the one of greatest weight among those passing the test
(`lastWhere_spec`); with the test that passes everything it is simply the last
element, the one of greatest weight overall.

An iterator over a sequence without repetitions moves from an element to the
first element after it that passes a test. `after x l` is the part of `l` after
`x`; stepping so from element to element lists the elements that pass the test
(`filter_after_of_find?`).

A test that passes less counts fewer elements, strictly fewer when it rejects
an element the other passes (`countP_lt_countP`).
-/

namespace ListSelect

variable {β γ : Type*}

/-- The last element of `l` passing `p`, or `init` if none does. -/
def lastWhere (p : β → Bool) (init : β) (l : List β) : β :=
  l.foldl (fun s c => if p c then c else s) init

@[simp] theorem lastWhere_nil (p : β → Bool) (init : β) : lastWhere p init [] = init := rfl

@[simp] theorem lastWhere_cons (p : β → Bool) (init a : β) (l : List β) :
    lastWhere p init (a :: l) = lastWhere p (if p a then a else init) l := rfl

/-- The scan returns the last element that passes, or `init`. -/
theorem lastWhere_eq_getLast?_filter (p : β → Bool) (init : β) (l : List β) :
    lastWhere p init l = ((l.filter p).getLast?).getD init := by
  induction l generalizing init with
  | nil => rfl
  | cons a l ih =>
      rw [lastWhere_cons, ih]
      cases ha : p a
      · simp [ha]
      · simp [ha, List.getLast?_cons]

/-- What the scan finds: nothing passes and it returns `init`, or it returns an
element that passes, of greatest weight among those that pass. -/
theorem lastWhere_spec [Preorder γ] (f : β → γ) (p : β → Bool) :
    ∀ (l : List β) (init : β), l.Pairwise (fun a b => f a < f b) →
      (lastWhere p init l = init ∧ ∀ c ∈ l, p c = false) ∨
        (lastWhere p init l ∈ l ∧ p (lastWhere p init l) = true ∧
          ∀ c ∈ l, p c = true → f c ≤ f (lastWhere p init l)) := by
  intro l
  induction l with
  | nil => simp
  | cons a l ih =>
      intro init hl
      rw [List.pairwise_cons] at hl
      rw [lastWhere_cons]
      rcases ih (if p a then a else init) hl.2 with ⟨hres, hnone⟩ | ⟨hmem, hp, hmax⟩
      · -- nothing in the tail passes: the head decides
        rw [hres]
        cases ha : p a
        · refine Or.inl ⟨by simp, fun c hc => ?_⟩
          rcases List.mem_cons.mp hc with rfl | hc
          · exact ha
          · exact hnone c hc
        · refine Or.inr ⟨by simp, by simp [ha], ?_⟩
          intro c hc hpc
          rcases List.mem_cons.mp hc with rfl | hc
          · simp
          · simp [hnone c hc] at hpc
      · -- the tail's choice outweighs the head
        refine Or.inr ⟨List.mem_cons_of_mem _ hmem, hp, ?_⟩
        intro c hc hpc
        rcases List.mem_cons.mp hc with rfl | hc
        · exact le_of_lt (hl.1 _ hmem)
        · exact hmax c hc hpc

/-! ### The part of a list after an element -/

section After

variable [DecidableEq β]

/-- The elements of `l` after the first occurrence of `x`; empty if there is none. -/
def after (x : β) (l : List β) : List β :=
  (l.dropWhile fun y => y ≠ x).tail

@[simp] theorem after_cons_self (x : β) (l : List β) : after x (x :: l) = l := by
  simp [after]

theorem after_cons_of_ne {x a : β} (h : a ≠ x) (l : List β) : after x (a :: l) = after x l := by
  simp [after, h]

theorem after_append_of_mem {x : β} {l₁ : List β} (h : x ∈ l₁) (l₂ : List β) :
    after x (l₁ ++ l₂) = after x l₁ ++ l₂ := by
  induction l₁ with
  | nil => simp at h
  | cons a l₁ ih =>
      by_cases ha : a = x
      · subst ha
        simp
      · rw [List.cons_append, after_cons_of_ne ha, after_cons_of_ne ha]
        exact ih (by simpa [Ne.symm ha] using h)

theorem after_append_of_not_mem {x : β} {l₁ : List β} (h : x ∉ l₁) (l₂ : List β) :
    after x (l₁ ++ l₂) = after x l₂ := by
  induction l₁ with
  | nil => rfl
  | cons a l₁ ih =>
      have ha : a ≠ x := fun hax => h (by simp [hax])
      rw [List.cons_append, after_cons_of_ne ha]
      exact ih (fun hx => h (List.mem_cons_of_mem a hx))

/-- In a list without repetitions, what follows an element is what follows its
only occurrence. -/
theorem after_eq_of_eq_append {y : β} {l pre post : List β} (hnd : l.Nodup)
    (h : l = pre ++ y :: post) : after y l = post := by
  subst h
  have hy : y ∉ pre := fun hy => (List.nodup_append.mp hnd).2.2 y hy y (by simp) rfl
  rw [after_append_of_not_mem hy, after_cons_self]

/-- What follows `x` is a suffix of the list. -/
theorem exists_eq_append_after {x : β} {l : List β} (h : x ∈ l) :
    ∃ pre, l = pre ++ x :: after x l := by
  induction l with
  | nil => simp at h
  | cons a l ih =>
      by_cases ha : a = x
      · subst ha
        exact ⟨[], by simp⟩
      · obtain ⟨pre, hpre⟩ := ih (by simpa [Ne.symm ha] using h)
        refine ⟨a :: pre, ?_⟩
        rw [after_cons_of_ne ha, List.cons_append, ← hpre]

/-- An element after `x` splits what follows `x` in two: what lies between,
and what follows it. -/
theorem exists_after_eq_of_mem_after {x y : β} {l : List β} (hnd : l.Nodup) (hx : x ∈ l)
    {mid rest : List β} (hsplit : after x l = mid ++ y :: rest) : after y l = rest := by
  obtain ⟨pre, hpre⟩ := exists_eq_append_after hx
  have hl : l = (pre ++ x :: mid) ++ y :: rest := by
    rw [hpre, hsplit]
    simp
  exact after_eq_of_eq_append hnd hl

/-- Less follows an element after `x` than follows `x`. -/
theorem length_after_lt {x y : β} {l : List β} (hnd : l.Nodup) (hx : x ∈ l)
    (hy : y ∈ after x l) : (after y l).length < (after x l).length := by
  obtain ⟨mid, rest, hsplit⟩ := List.append_of_mem hy
  rw [exists_after_eq_of_mem_after hnd hx hsplit, hsplit]
  simp only [List.length_append, List.length_cons]
  omega

/-- Stepping from `x` to the first element after it that passes `p`: the
elements after `x` that pass `p` are that element and those after it. -/
theorem filter_after_of_find? {p : β → Bool} {x y : β} {l : List β} (hnd : l.Nodup)
    (hx : x ∈ l) (hy : (after x l).find? p = some y) :
    (after x l).filter p = y :: (after y l).filter p := by
  obtain ⟨hpy, mid, rest, hsplit, hmid⟩ := List.find?_eq_some_iff_append.mp hy
  rw [exists_after_eq_of_mem_after hnd hx hsplit, hsplit, List.filter_append,
    List.filter_cons_of_pos hpy, List.filter_eq_nil_iff.mpr fun a ha => by simpa using hmid a ha,
    List.nil_append]

end After

/-- Counting under a test that passes less: strictly fewer when some element
of the list passes the old test and not the new one. -/
theorem countP_lt_countP {p q : β → Bool} {l : List β} (h : ∀ x ∈ l, p x = true → q x = true)
    {a : β} (ha : a ∈ l) (hqa : q a = true) (hpa : p a = false) : l.countP p < l.countP q := by
  induction l with
  | nil => exact absurd ha List.not_mem_nil
  | cons b l ih =>
    have hl : ∀ x ∈ l, p x = true → q x = true := fun x hx => h x (List.mem_cons_of_mem b hx)
    have hle : l.countP p ≤ l.countP q := List.countP_mono_left hl
    rw [List.countP_cons, List.countP_cons]
    rcases List.mem_cons.mp ha with rfl | ha
    · simp [hqa, hpa]
      omega
    · have hlt := ih hl ha
      by_cases hpb : p b = true
      · simp [hpb, h b List.mem_cons_self hpb]
        omega
      · rw [if_neg hpb]
        split <;> omega

theorem filter_eq_nil_of_find?_eq_none {p : β → Bool} {l : List β} (h : l.find? p = none) :
    l.filter p = [] :=
  List.filter_eq_nil_iff.mpr fun a ha => by simpa using List.find?_eq_none.mp h a ha

end ListSelect
