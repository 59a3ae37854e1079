import Fboss.State.DeltaFunctions

/-!
# The iterator of a `NodeMapDelta`

`NodeMapDelta::Iterator` (`NodeMapDelta-defs.h`) walks the old and the new node
map of a delta with one iterator on each, in key order. Its value is the pair of
nodes under the smaller of the two current keys, or under both when the keys
are equal. After each move, and when it is made, it skips past the places where
both iterators point to the same node object. A null old map is stood in for by
the new map with its iterator at the end, and a null new map likewise; the delta
of a map with itself is empty at once.

A node's key is read off the node (`getKey`). The nodes are compared as
pointers: `β` stands for the node pointers, and two equal values of it are one
node object. Each node is stored under its own key (`KeyedSorted`), so two
iterators pointing to one node are at one key.

The walk from `begin()` to `end()` yields the merge of the two lists of bindings
(`entriesFrom_skipUnchanged`), and that merge is `FlatMap.delta`
(`mergeEntries_eq_delta`): each key of either map whose node changed, once, in
increasing key order. The loops of `DeltaFunctions` run their callbacks on
these entries.
-/

namespace Fboss

variable {κ β σ : Type*} [LinearOrder κ]

/-! ### The merge of two lists of bindings -/

/-- The bindings of a map as its iterator visits them: by strictly increasing
key, each node under its own key. -/
def KeyedSorted (getKey : β → κ) (l : List (κ × β)) : Prop :=
  (l.map Prod.fst).Pairwise (· < ·) ∧ ∀ p ∈ l, getKey p.2 = p.1

theorem KeyedSorted.sublist {getKey : β → κ} {l l' : List (κ × β)} (hl : l'.Sublist l)
    (h : KeyedSorted getKey l) : KeyedSorted getKey l' :=
  ⟨h.1.sublist (hl.map _), fun p hp => h.2 p (hl.subset hp)⟩

theorem KeyedSorted.tail {getKey : β → κ} {p : κ × β} {l : List (κ × β)}
    (h : KeyedSorted getKey (p :: l)) : KeyedSorted getKey l :=
  h.sublist (List.sublist_cons_self p l)

theorem KeyedSorted.key_head {getKey : β → κ} {p : κ × β} {l : List (κ × β)}
    (h : KeyedSorted getKey (p :: l)) : getKey p.2 = p.1 :=
  h.2 p List.mem_cons_self

/-- A key up to the first key of a sorted list is not bound in its tail. -/
theorem lookupList_tail_eq_none {p : κ × β} {l : List (κ × β)}
    (h : ((p :: l).map Prod.fst).Pairwise (· < ·)) {k : κ} (hk : k ≤ p.1) :
    FlatMap.lookupList k l = none := by
  rw [List.map_cons, List.pairwise_cons] at h
  exact FlatMap.lookupList_eq_none fun hmem => absurd (h.1 k hmem) (not_lt.mpr hk)

/-- A key below the first key of a sorted list is not bound in it. -/
theorem lookupList_eq_none_of_lt_head {p : κ × β} {l : List (κ × β)}
    (h : ((p :: l).map Prod.fst).Pairwise (· < ·)) {k : κ} (hk : k < p.1) :
    FlatMap.lookupList k (p :: l) = none := by
  rw [FlatMap.lookupList_cons, if_neg (ne_of_lt hk), lookupList_tail_eq_none h (le_of_lt hk)]

/-- In a list sorted by key, a key is bound to the value it is listed with. -/
theorem lookupList_eq_some_iff {l : List (κ × β)} (h : (l.map Prod.fst).Pairwise (· < ·))
    (k : κ) (v : β) : FlatMap.lookupList k l = some v ↔ (k, v) ∈ l :=
  (FlatMap.mem_toList_iff ⟨l, h⟩ k v).symm

variable [DecidableEq β]

/-- The changes between two lists of bindings, merged in key order: each key of
one list only, and each key of both whose nodes differ. -/
def mergeEntries : List (κ × β) → List (κ × β) → List (κ × Option β × Option β)
  | [], ns => ns.map fun n => (n.1, none, some n.2)
  | o :: os, [] => (o.1, some o.2, none) :: mergeEntries os []
  | o :: os, n :: ns =>
    if o.1 < n.1 then (o.1, some o.2, none) :: mergeEntries os (n :: ns)
    else if n.1 < o.1 then (n.1, none, some n.2) :: mergeEntries (o :: os) ns
    else if o.2 = n.2 then mergeEntries os ns
    else (o.1, some o.2, some n.2) :: mergeEntries os ns
  termination_by os ns => os.length + ns.length

section Merge

/-- Every key of the merge is a key of one of the lists. -/
theorem key_mem_of_mem_mergeEntries :
    ∀ {os ns : List (κ × β)} {e}, e ∈ mergeEntries os ns →
      e.1 ∈ os.map Prod.fst ∨ e.1 ∈ ns.map Prod.fst := by
  intro os ns
  induction os, ns using mergeEntries.induct with
  | case1 ns =>
    intro e he
    rw [mergeEntries] at he
    obtain ⟨n, hn, rfl⟩ := List.mem_map.mp he
    exact Or.inr (List.mem_map_of_mem hn)
  | case2 o os ih =>
    intro e he
    rw [mergeEntries, List.mem_cons] at he
    rcases he with rfl | he
    · exact Or.inl List.mem_cons_self
    · exact (ih he).imp_left (List.mem_cons_of_mem _)
  | case3 o os n ns hlt ih =>
    intro e he
    rw [mergeEntries, if_pos hlt, List.mem_cons] at he
    rcases he with rfl | he
    · exact Or.inl List.mem_cons_self
    · exact (ih he).imp_left (List.mem_cons_of_mem _)
  | case4 o os n ns hlt hgt ih =>
    intro e he
    rw [mergeEntries, if_neg hlt, if_pos hgt, List.mem_cons] at he
    rcases he with rfl | he
    · exact Or.inr List.mem_cons_self
    · exact (ih he).imp_right (List.mem_cons_of_mem _)
  | case5 o os n ns hlt hgt heq ih =>
    intro e he
    rw [mergeEntries, if_neg hlt, if_neg hgt, if_pos heq] at he
    exact (ih he).imp (List.mem_cons_of_mem _) (List.mem_cons_of_mem _)
  | case6 o os n ns hlt hgt hne ih =>
    intro e he
    rw [mergeEntries, if_neg hlt, if_neg hgt, if_neg hne, List.mem_cons] at he
    rcases he with rfl | he
    · exact Or.inl List.mem_cons_self
    · exact (ih he).imp (List.mem_cons_of_mem _) (List.mem_cons_of_mem _)

/-- The keys of the merge strictly increase. -/
theorem mergeEntries_keys_sorted :
    ∀ {os ns : List (κ × β)}, (os.map Prod.fst).Pairwise (· < ·) →
      (ns.map Prod.fst).Pairwise (· < ·) → (mergeEntries os ns).Pairwise fun a b => a.1 < b.1 := by
  intro os ns
  induction os, ns using mergeEntries.induct with
  | case1 ns =>
    intro _ hns
    rw [mergeEntries]
    simpa [List.pairwise_map] using hns
  | case2 o os ih =>
    intro hos hns
    rw [List.map_cons, List.pairwise_cons] at hos
    rw [mergeEntries, List.pairwise_cons]
    refine ⟨fun e he => ?_, ih hos.2 hns⟩
    rcases key_mem_of_mem_mergeEntries he with h | h
    · exact hos.1 _ h
    · simp at h
  | case3 o os n ns hlt ih =>
    intro hos hns
    have hos' := hos
    rw [List.map_cons, List.pairwise_cons] at hos' hns
    rw [mergeEntries, if_pos hlt, List.pairwise_cons]
    refine ⟨fun e he => ?_, ih hos'.2 (by simpa using hns)⟩
    rcases key_mem_of_mem_mergeEntries he with h | h
    · exact hos'.1 _ h
    · -- a key of the new list is at least its first key, which is larger
      rw [List.map_cons, List.mem_cons] at h
      rcases h with h | h
      · rw [h]; exact hlt
      · exact hlt.trans (hns.1 _ h)
  | case4 o os n ns hlt hgt ih =>
    intro hos hns
    have hns' := hns
    rw [List.map_cons, List.pairwise_cons] at hos hns'
    rw [mergeEntries, if_neg hlt, if_pos hgt, List.pairwise_cons]
    refine ⟨fun e he => ?_, ih (by simpa using hos) hns'.2⟩
    rcases key_mem_of_mem_mergeEntries he with h | h
    · rw [List.map_cons, List.mem_cons] at h
      rcases h with h | h
      · rw [h]; exact hgt
      · exact hgt.trans (hos.1 _ h)
    · exact hns'.1 _ h
  | case5 o os n ns hlt hgt heq ih =>
    intro hos hns
    rw [List.map_cons, List.pairwise_cons] at hos hns
    rw [mergeEntries, if_neg hlt, if_neg hgt, if_pos heq]
    exact ih hos.2 hns.2
  | case6 o os n ns hlt hgt hne ih =>
    intro hos hns
    rw [List.map_cons, List.pairwise_cons] at hos hns
    have hon : o.1 = n.1 := le_antisymm (not_lt.mp hgt) (not_lt.mp hlt)
    rw [mergeEntries, if_neg hlt, if_neg hgt, if_neg hne, List.pairwise_cons]
    refine ⟨fun e he => ?_, ih hos.2 hns.2⟩
    rcases key_mem_of_mem_mergeEntries he with h | h
    · exact hos.1 _ h
    · rw [hon]; exact hns.1 _ h

/-- The merge holds an entry at a key exactly when the two lists bind it
differently, with the two bindings. -/
theorem mem_mergeEntries_iff :
    ∀ {os ns : List (κ × β)}, (os.map Prod.fst).Pairwise (· < ·) →
      (ns.map Prod.fst).Pairwise (· < ·) → ∀ k a b,
      (k, a, b) ∈ mergeEntries os ns ↔
        a = FlatMap.lookupList k os ∧ b = FlatMap.lookupList k ns ∧ a ≠ b := by
  intro os ns
  induction os, ns using mergeEntries.induct with
  | case1 ns =>
    intro _ hns k a b
    rw [mergeEntries, FlatMap.lookupList_nil]
    constructor
    · rintro hmem
      obtain ⟨n, hn, hkab⟩ := List.mem_map.mp hmem
      simp only [Prod.mk.injEq] at hkab
      obtain ⟨rfl, rfl, rfl⟩ := hkab
      exact ⟨rfl, ((lookupList_eq_some_iff hns _ _).mpr hn).symm, by simp⟩
    · rintro ⟨rfl, rfl, hne⟩
      cases hv : FlatMap.lookupList k ns with
      | none => simp [hv] at hne
      | some v => exact List.mem_map.mpr ⟨(k, v), (lookupList_eq_some_iff hns _ _).mp hv, rfl⟩
  | case2 o os ih =>
    intro hos hns k a b
    rw [mergeEntries, List.mem_cons, ih (hos.sublist (by simp)) hns, FlatMap.lookupList_cons_pair]
    by_cases hk : k = o.1
    · -- the key of the old head: bound in neither tail
      subst hk
      simp only [if_true, lookupList_tail_eq_none hos le_rfl, Prod.mk.injEq, FlatMap.lookupList_nil]
      constructor
      · rintro (⟨-, rfl, rfl⟩ | ⟨rfl, rfl, hne⟩)
        · simp
        · exact absurd rfl hne
      · rintro ⟨rfl, rfl, -⟩
        simp
    · simp [hk]
  | case3 o os n ns hlt ih =>
    intro hos hns k a b
    rw [mergeEntries, if_pos hlt, List.mem_cons, ih (hos.sublist (by simp)) hns,
      FlatMap.lookupList_cons_pair _ o os]
    by_cases hk : k = o.1
    · subst hk
      simp only [if_true, lookupList_tail_eq_none hos le_rfl, lookupList_eq_none_of_lt_head hns hlt,
        Prod.mk.injEq]
      constructor
      · rintro (⟨-, rfl, rfl⟩ | ⟨rfl, rfl, hne⟩)
        · simp
        · exact absurd rfl hne
      · rintro ⟨rfl, rfl, -⟩
        simp
    · simp [hk]
  | case4 o os n ns hlt hgt ih =>
    intro hos hns k a b
    rw [mergeEntries, if_neg hlt, if_pos hgt, List.mem_cons, ih hos (hns.sublist (by simp)),
      FlatMap.lookupList_cons_pair _ n ns]
    by_cases hk : k = n.1
    · subst hk
      simp only [if_true, lookupList_tail_eq_none hns le_rfl, lookupList_eq_none_of_lt_head hos hgt,
        Prod.mk.injEq]
      constructor
      · rintro (⟨-, rfl, rfl⟩ | ⟨rfl, rfl, hne⟩)
        · simp
        · exact absurd rfl hne
      · rintro ⟨rfl, rfl, -⟩
        simp
    · simp [hk]
  | case5 o os n ns hlt hgt heq ih =>
    intro hos hns k a b
    have hon : o.1 = n.1 := le_antisymm (not_lt.mp hgt) (not_lt.mp hlt)
    rw [mergeEntries, if_neg hlt, if_neg hgt, if_pos heq, ih (hos.sublist (by simp))
      (hns.sublist (by simp)), FlatMap.lookupList_cons_pair _ o os, FlatMap.lookupList_cons_pair _ n ns]
    by_cases hk : k = o.1
    · -- the same node on both sides: no entry, and none in the tails
      subst hk
      have h1 : FlatMap.lookupList o.1 os = none := lookupList_tail_eq_none hos le_rfl
      have h2 : FlatMap.lookupList o.1 ns = none := lookupList_tail_eq_none hns (le_of_eq hon)
      simp only [if_true, if_pos hon, h1, h2, heq]
      constructor <;> rintro ⟨rfl, rfl, hab⟩ <;> exact absurd rfl hab
    · simp [hk, ← hon]
  | case6 o os n ns hlt hgt hne ih =>
    intro hos hns k a b
    have hon : o.1 = n.1 := le_antisymm (not_lt.mp hgt) (not_lt.mp hlt)
    rw [mergeEntries, if_neg hlt, if_neg hgt, if_neg hne, List.mem_cons,
      ih (hos.sublist (by simp)) (hns.sublist (by simp)), FlatMap.lookupList_cons_pair _ o os,
      FlatMap.lookupList_cons_pair _ n ns]
    by_cases hk : k = o.1
    · subst hk
      have h1 : FlatMap.lookupList o.1 os = none := lookupList_tail_eq_none hos le_rfl
      have h2 : FlatMap.lookupList o.1 ns = none := lookupList_tail_eq_none hns (le_of_eq hon)
      simp only [if_true, if_pos hon, h1, h2, Prod.mk.injEq, true_and]
      constructor
      · rintro (⟨rfl, rfl⟩ | ⟨rfl, rfl, hab⟩)
        · exact ⟨rfl, rfl, by simpa using hne⟩
        · exact absurd rfl hab
      · rintro ⟨rfl, rfl, -⟩
        exact Or.inl ⟨rfl, rfl⟩
    · simp [hk, ← hon]

/-- The merge of the bindings of two maps is their delta. -/
theorem mergeEntries_eq_delta (m m' : FlatMap κ β) :
    mergeEntries m.toList m'.toList = FlatMap.delta m m' := by
  refine FlatMap.eq_of_mem_iff_of_keys_sorted (mergeEntries_keys_sorted m.sorted m'.sorted)
    (FlatMap.delta_keys_sorted m m') fun ⟨k, o, n⟩ => ?_
  rw [mem_mergeEntries_iff m.sorted m'.sorted, FlatMap.mem_delta_iff]
  exact Iff.rfl

end Merge

/-! ### The iterator -/

/-- `NodeMapDelta::Iterator`: the places of its two map iterators, each given
by the bindings from it to the end of its map. Two iterators over the same maps
are equal when both places are, as `operator==` compares them. -/
structure DeltaIterator (κ β : Type*) where
  oldIt : List (κ × β)
  newIt : List (κ × β)
  deriving DecidableEq

namespace DeltaIterator

/-- The loop `while (oldIt_ != end && newIt_ != end && *oldIt_ == *newIt_)` of
the constructor and of `advance()`: step both sides past the same node. -/
def skipUnchanged : List (κ × β) → List (κ × β) → DeltaIterator κ β
  | o :: os, n :: ns => if o.2 = n.2 then skipUnchanged os ns else ⟨o :: os, n :: ns⟩
  | os, ns => ⟨os, ns⟩

/-- `updateValue()`: the nodes under the smaller current key, or under both. -/
def value (getKey : β → κ) : DeltaIterator κ β → Option β × Option β
  | ⟨[], []⟩ => (none, none)
  | ⟨[], n :: _⟩ => (none, some n.2)
  | ⟨o :: _, []⟩ => (some o.2, none)
  | ⟨o :: _, n :: _⟩ =>
    if getKey o.2 < getKey n.2 then (some o.2, none)
    else if getKey n.2 < getKey o.2 then (none, some n.2)
    else (some o.2, some n.2)

/-- `advance()`. Once one side is at its end the other steps alone, with no
skip; at the end of both the `CHECK` fails. -/
def advance (getKey : β → κ) : DeltaIterator κ β → Option (DeltaIterator κ β)
  | ⟨[], []⟩ => none
  | ⟨[], _ :: ns⟩ => some ⟨[], ns⟩
  | ⟨_ :: os, []⟩ => some ⟨os, []⟩
  | ⟨o :: os, n :: ns⟩ =>
    if getKey o.2 < getKey n.2 then some (skipUnchanged os (n :: ns))
    else if getKey o.2 > getKey n.2 then some (skipUnchanged (o :: os) ns)
    else some (skipUnchanged os ns)

/-- The iterator is at a change: when both sides have a current node, the two
differ. -/
def AtChange : DeltaIterator κ β → Prop
  | ⟨o :: _, n :: _⟩ => o.2 ≠ n.2
  | _ => True

/-- The values from `it` up to `last`, as a range-for loop reads them, within
`fuel` steps. -/
def entriesFrom (getKey : β → κ) (last : DeltaIterator κ β) :
    Nat → DeltaIterator κ β → Option (List (Option β × Option β))
  | 0, _ => none
  | fuel + 1, it =>
    if it = last then some []
    else
      match advance getKey it with
      | none => none
      | some next => (entriesFrom getKey last fuel next).map (value getKey it :: ·)

omit [LinearOrder κ] in
theorem skipUnchanged_nil_left (ns : List (κ × β)) : skipUnchanged [] ns = ⟨[], ns⟩ := by
  cases ns <;> rfl

omit [LinearOrder κ] in
theorem skipUnchanged_nil_right (os : List (κ × β)) : skipUnchanged os [] = ⟨os, []⟩ := by
  cases os <;> rfl

omit [LinearOrder κ] in
/-- The skip only drops bindings from the front of each side. -/
theorem skipUnchanged_sublist (os ns : List (κ × β)) :
    (skipUnchanged os ns).oldIt.Sublist os ∧ (skipUnchanged os ns).newIt.Sublist ns := by
  induction os generalizing ns with
  | nil => simp [skipUnchanged_nil_left]
  | cons o os ih =>
    cases ns with
    | nil => simp [skipUnchanged_nil_right]
    | cons n ns =>
      rw [skipUnchanged]
      split_ifs
      · exact ⟨(ih ns).1.cons o, (ih ns).2.cons n⟩
      · simp

omit [LinearOrder κ] in
/-- The skip stops at a change. -/
theorem atChange_skipUnchanged (os ns : List (κ × β)) : AtChange (skipUnchanged os ns) := by
  induction os generalizing ns with
  | nil => rw [skipUnchanged_nil_left]; trivial
  | cons o os ih =>
    cases ns with
    | nil => rw [skipUnchanged_nil_right]; trivial
    | cons n ns =>
      rw [skipUnchanged]
      split_ifs with h
      · exact ih ns
      · exact h

section Walk

variable {getKey : β → κ}

/-- Two sides at the same node are at the same key, and the merge drops it. -/
theorem mergeEntries_cons_cons_of_node_eq {o n : κ × β} {os ns : List (κ × β)}
    (hos : KeyedSorted getKey (o :: os)) (hns : KeyedSorted getKey (n :: ns)) (h : o.2 = n.2) :
    mergeEntries (o :: os) (n :: ns) = mergeEntries os ns := by
  have hkey : o.1 = n.1 := by rw [← hos.key_head, ← hns.key_head, h]
  rw [mergeEntries, if_neg (by rw [hkey]; exact lt_irrefl _),
    if_neg (by rw [hkey]; exact lt_irrefl _), if_pos h]

/-- Skipping the unchanged nodes leaves the merge as it is. -/
theorem mergeEntries_skipUnchanged {os ns : List (κ × β)} (hos : KeyedSorted getKey os)
    (hns : KeyedSorted getKey ns) :
    mergeEntries (skipUnchanged os ns).oldIt (skipUnchanged os ns).newIt = mergeEntries os ns := by
  induction os generalizing ns with
  | nil => rw [skipUnchanged_nil_left]
  | cons o os ih =>
    cases ns with
    | nil => rw [skipUnchanged_nil_right]
    | cons n ns =>
      rw [skipUnchanged]
      split_ifs with h
      · rw [ih hos.tail hns.tail, mergeEntries_cons_cons_of_node_eq hos hns h]
      · rfl

theorem entriesFrom_succ_of_advance {last it next : DeltaIterator κ β} (fuel : Nat)
    (hne : it ≠ last) (hadv : advance getKey it = some next) :
    entriesFrom getKey last (fuel + 1) it =
      (entriesFrom getKey last fuel next).map (value getKey it :: ·) := by
  rw [entriesFrom, if_neg hne, hadv]

/-- From an iterator at a change, the walk to the end reads the merge of what
is left on the two sides. The induction is on the fuel: each step goes past at
least one binding, so the bindings left bound the steps. -/
theorem entriesFrom_of_atChange (fuel : Nat) : ∀ (os ns : List (κ × β)),
    KeyedSorted getKey os → KeyedSorted getKey ns → AtChange ⟨os, ns⟩ →
    os.length + ns.length < fuel →
    entriesFrom getKey ⟨[], []⟩ fuel ⟨os, ns⟩ = some ((mergeEntries os ns).map Prod.snd) := by
  induction fuel with
  | zero => intro os ns _ _ _ hlen; omega
  | succ fuel ih =>
    intro os ns hos hns hat hlen
    -- the step after a move: the skip lands at a change, on what is left
    have hskip : ∀ os' ns', KeyedSorted getKey os' → KeyedSorted getKey ns' →
        os'.length + ns'.length < fuel →
        entriesFrom getKey ⟨[], []⟩ fuel (skipUnchanged os' ns') =
          some ((mergeEntries os' ns').map Prod.snd) := by
      intro os' ns' hos' hns' hlen'
      obtain ⟨hsub, hsub'⟩ := skipUnchanged_sublist os' ns'
      rw [← mergeEntries_skipUnchanged hos' hns']
      exact ih _ _ (hos'.sublist hsub) (hns'.sublist hsub') (atChange_skipUnchanged os' ns')
        (by have := hsub.length_le; have := hsub'.length_le; omega)
    match os, ns, hat with
    | [], [], _ => rw [entriesFrom, if_pos rfl, mergeEntries, List.map_nil, List.map_nil]
    | [], n :: ns, _ =>
      rw [entriesFrom_succ_of_advance fuel (by simp) rfl, ← skipUnchanged_nil_left ns,
        hskip [] ns hos hns.tail (by simp at hlen ⊢; omega)]
      simp [mergeEntries, value]
    | o :: os, [], _ =>
      rw [entriesFrom_succ_of_advance fuel (by simp) rfl, ← skipUnchanged_nil_right os,
        hskip os [] hos.tail hns (by simp at hlen ⊢; omega), mergeEntries]
      simp [value]
    | o :: os, n :: ns, hne =>
      have ho := hos.key_head
      have hn := hns.key_head
      by_cases hlt : o.1 < n.1
      · rw [entriesFrom_succ_of_advance fuel (by simp)
          (show advance getKey ⟨o :: os, n :: ns⟩ = some (skipUnchanged os (n :: ns)) by
            simp [advance, ho, hn, hlt]),
          hskip os (n :: ns) hos.tail hns (by simp at hlen ⊢; omega), mergeEntries, if_pos hlt]
        simp [value, ho, hn, hlt]
      by_cases hgt : n.1 < o.1
      · rw [entriesFrom_succ_of_advance fuel (by simp)
          (show advance getKey ⟨o :: os, n :: ns⟩ = some (skipUnchanged (o :: os) ns) by
            simp [advance, ho, hn, hlt, hgt]),
          hskip (o :: os) ns hos hns.tail (by simp at hlen ⊢; omega), mergeEntries, if_neg hlt,
          if_pos hgt]
        simp [value, ho, hn, hgt, le_of_lt hgt]
      · -- the same key on both sides, with different nodes
        rw [entriesFrom_succ_of_advance fuel (by simp)
          (show advance getKey ⟨o :: os, n :: ns⟩ = some (skipUnchanged os ns) by
            simp [advance, ho, hn, hlt, hgt]),
          hskip os ns hos.tail hns.tail (by simp at hlen; omega), mergeEntries, if_neg hlt,
          if_neg hgt, if_neg hne]
        simp [value, ho, hn, hlt, hgt]

/-- The walk from a freshly built iterator: the constructor's skip, then the
steps to the end. -/
theorem entriesFrom_skipUnchanged {os ns : List (κ × β)} (hos : KeyedSorted getKey os)
    (hns : KeyedSorted getKey ns) {fuel : Nat} (hfuel : os.length + ns.length < fuel) :
    entriesFrom getKey ⟨[], []⟩ fuel (skipUnchanged os ns) =
      some ((mergeEntries os ns).map Prod.snd) := by
  obtain ⟨hsub, hsub'⟩ := skipUnchanged_sublist os ns
  rw [← mergeEntries_skipUnchanged hos hns]
  exact entriesFrom_of_atChange fuel _ _ (hos.sublist hsub) (hns.sublist hsub')
    (atChange_skipUnchanged os ns) (by have := hsub.length_le; have := hsub'.length_le; omega)

end Walk

end DeltaIterator

/-- A `NodeMapDelta` of two node maps, either of which may be null. -/
structure NodeMapDelta (κ β : Type*) [LinearOrder κ] where
  old : Option (FlatMap κ β)
  new : Option (FlatMap κ β)

namespace NodeMapDelta

open DeltaIterator

/-- `end()`. With both maps null it reads `new_->end()` through a null
pointer. -/
def endIt (d : NodeMapDelta κ β) : Option (DeltaIterator κ β) :=
  match d.old, d.new with
  | none, none => none
  | _, _ => some ⟨[], []⟩

/-- `begin()`. A null map is stood in for by the other map with its iterator at
the end. The maps are compared by value where the source compares pointers: two
distinct maps with the same nodes under the same keys yield no change either
way. -/
def begin (d : NodeMapDelta κ β) : Option (DeltaIterator κ β) :=
  if d.old = d.new then d.endIt
  else
    match d.old, d.new with
    | none, some m => some (skipUnchanged [] m.toList)
    | some m, none => some (skipUnchanged m.toList [])
    | some m, some m' => some (skipUnchanged m.toList m'.toList)
    | none, none => none

/-- The values a range-for loop over the delta reads, within `fuel` steps. -/
def entries (d : NodeMapDelta κ β) (getKey : β → κ) (fuel : Nat) :
    Option (List (Option β × Option β)) :=
  match d.begin, d.endIt with
  | some b, some e => entriesFrom getKey e fuel b
  | _, _ => none

/-- Each node of each map there is stored under its own key. -/
def Keyed (getKey : β → κ) (d : NodeMapDelta κ β) : Prop :=
  (∀ m ∈ d.old, ∀ p ∈ m.toList, getKey p.2 = p.1) ∧
    ∀ m ∈ d.new, ∀ p ∈ m.toList, getKey p.2 = p.1

instance (getKey : β → κ) (d : NodeMapDelta κ β) : Decidable (d.Keyed getKey) := by
  unfold Keyed
  infer_instance

section Walk

variable {d : NodeMapDelta κ β} {getKey : β → κ}

omit [DecidableEq β] in
theorem endIt_eq (hnull : d.old.isSome ∨ d.new.isSome) : d.endIt = some ⟨[], []⟩ := by
  rcases d with ⟨_ | m, _ | m'⟩ <;> simp_all [endIt]

/-- Of two different maps, a null one is walked as an empty one. -/
theorem begin_eq_of_ne (hne : d.old ≠ d.new) :
    d.begin = some (skipUnchanged (d.old.getD FlatMap.empty).toList
      (d.new.getD FlatMap.empty).toList) := by
  rcases d with ⟨_ | m, _ | m'⟩ <;> simp_all [begin, skipUnchanged_nil_left, FlatMap.empty]

omit [DecidableEq β] in
theorem keyedSorted_old (hkey : d.Keyed getKey) :
    KeyedSorted getKey (d.old.getD FlatMap.empty).toList := by
  refine ⟨(d.old.getD FlatMap.empty).sorted, fun p hp => ?_⟩
  cases hold : d.old with
  | none => simp [hold, FlatMap.empty] at hp
  | some m => exact hkey.1 m hold p (by simpa [hold] using hp)

omit [DecidableEq β] in
theorem keyedSorted_new (hkey : d.Keyed getKey) :
    KeyedSorted getKey (d.new.getD FlatMap.empty).toList := by
  refine ⟨(d.new.getD FlatMap.empty).sorted, fun p hp => ?_⟩
  cases hnew : d.new with
  | none => simp [hnew, FlatMap.empty] at hp
  | some m => exact hkey.2 m hnew p (by simpa [hnew] using hp)

/-- With enough fuel, the walk from `begin()` to `end()` reads the delta of the
two maps, a null one read as empty. -/
theorem entries_eq_delta (hkey : d.Keyed getKey) (hnull : d.old.isSome ∨ d.new.isSome)
    {fuel : Nat} (hfuel : (d.old.getD FlatMap.empty).size + (d.new.getD FlatMap.empty).size < fuel) :
    d.entries getKey fuel =
      some ((FlatMap.delta (d.old.getD FlatMap.empty) (d.new.getD FlatMap.empty)).map Prod.snd) := by
  by_cases hne : d.old = d.new
  · -- one map on both sides: `begin()` is `end()`
    obtain ⟨fuel, rfl⟩ : ∃ f, fuel = f + 1 := ⟨fuel - 1, by omega⟩
    rw [entries, begin, if_pos hne, endIt_eq hnull, hne, FlatMap.delta_self]
    simp [entriesFrom]
  · rw [entries, begin_eq_of_ne hne, endIt_eq hnull, ← mergeEntries_eq_delta]
    exact entriesFrom_skipUnchanged (keyedSorted_old hkey) (keyedSorted_new hkey) hfuel

end Walk

end NodeMapDelta

/-! ### The loops of `DeltaFunctions` -/

/-- What a callback tells the loop that calls it. -/
inductive LoopAction
  | BREAK
  | CONTINUE
  deriving DecidableEq, Repr

namespace DeltaFunctions

/-- The range-for loop of each function of `DeltaFunctions`: `select` gives the
callback an entry is passed to, if any, and the loop returns at the first
`BREAK`. -/
def forEachEntry {α : Type*} (select : α → Option (σ → σ × LoopAction)) :
    List α → σ → σ × LoopAction
  | [], s => (s, .CONTINUE)
  | e :: es, s =>
    match select e with
    | none => forEachEntry select es s
    | some fn =>
      match fn s with
      | (s', .BREAK) => (s', .BREAK)
      | (s', .CONTINUE) => forEachEntry select es s'

section Loop

variable {α : Type*} (select : α → Option (σ → σ × LoopAction))

/-- The loop runs the callbacks chosen for the entries, in order, and no other. -/
theorem forEachEntry_eq_filterMap (es : List α) (s : σ) :
    forEachEntry select es s = forEachEntry some (es.filterMap select) s := by
  induction es generalizing s with
  | nil => rfl
  | cons e es ih =>
    rw [forEachEntry, List.filterMap_cons]
    cases select e with
    | none => exact ih s
    | some fn =>
      rw [forEachEntry]
      dsimp only
      rcases fn s with ⟨s', _ | _⟩
      · rfl
      · exact ih s'

end Loop

end DeltaFunctions

namespace NodeMapDelta

open DeltaFunctions

/-- A loop of `DeltaFunctions` over the delta, within `fuel` steps of its
iterator. -/
def forEachSelected (d : NodeMapDelta κ β) (getKey : β → κ) (fuel : Nat)
    (select : Option β × Option β → Option (σ → σ × LoopAction)) (s : σ) :
    Option (σ × LoopAction) :=
  (d.entries getKey fuel).map fun es => forEachEntry select es s

/-- `forEachChanged(delta, changedFn, addedFn, removedFn)`: an entry with an
old node goes to `changedFn` or `removedFn` as it has a new one, any other to
`addedFn`. The nodes are passed as the entry holds them, a null one as
`none`. -/
def forEachChanged (d : NodeMapDelta κ β) (getKey : β → κ) (fuel : Nat)
    (changedFn : Option β → Option β → σ → σ × LoopAction)
    (addedFn removedFn : Option β → σ → σ × LoopAction) (s : σ) : Option (σ × LoopAction) :=
  d.forEachSelected getKey fuel (fun e =>
    if e.1.isSome then
      if e.2.isSome then some (changedFn e.1 e.2) else some (removedFn e.1)
    else some (addedFn e.2)) s

/-- `forEachChanged(delta, changedFn)`, the overload with one callback: the
entries with both nodes. -/
def forEachModified (d : NodeMapDelta κ β) (getKey : β → κ) (fuel : Nat)
    (changedFn : Option β → Option β → σ → σ × LoopAction) (s : σ) : Option (σ × LoopAction) :=
  d.forEachSelected getKey fuel
    (fun e => if e.1.isSome && e.2.isSome then some (changedFn e.1 e.2) else none) s

/-- `forEachAdded(delta, addedFn)`: the entries with no old node. -/
def forEachAdded (d : NodeMapDelta κ β) (getKey : β → κ) (fuel : Nat)
    (addedFn : Option β → σ → σ × LoopAction) (s : σ) : Option (σ × LoopAction) :=
  d.forEachSelected getKey fuel (fun e => if e.1.isNone then some (addedFn e.2) else none) s

/-- `forEachRemoved(delta, removedFn)`: the entries with no new node. -/
def forEachRemoved (d : NodeMapDelta κ β) (getKey : β → κ) (fuel : Nat)
    (removedFn : Option β → σ → σ × LoopAction) (s : σ) : Option (σ × LoopAction) :=
  d.forEachSelected getKey fuel (fun e => if e.2.isNone then some (removedFn e.1) else none) s

/-- `isEmpty(delta)`: every callback clears the flag and breaks. -/
def isEmpty (d : NodeMapDelta κ β) (getKey : β → κ) (fuel : Nat) : Option Bool :=
  (d.forEachChanged getKey fuel (fun _ _ _ => (false, .BREAK)) (fun _ _ => (false, .BREAK))
    (fun _ _ => (false, .BREAK)) true).map Prod.fst

section Loops

variable {d : NodeMapDelta κ β} {getKey : β → κ}

/-- Each loop over the delta runs its callbacks on the changes the delta
selects, in key order, up to the first `BREAK`. -/
theorem forEachSelected_eq (hkey : d.Keyed getKey) (hnull : d.old.isSome ∨ d.new.isSome)
    {fuel : Nat} (hfuel : (d.old.getD FlatMap.empty).size + (d.new.getD FlatMap.empty).size < fuel)
    (select : Option β × Option β → Option (σ → σ × LoopAction)) (s : σ) :
    d.forEachSelected getKey fuel select s =
      some (forEachEntry some
        (((FlatMap.delta (d.old.getD FlatMap.empty) (d.new.getD FlatMap.empty)).map
          Prod.snd).filterMap select) s) := by
  rw [forEachSelected, entries_eq_delta hkey hnull hfuel, Option.map_some,
    forEachEntry_eq_filterMap]

/-- `isEmpty` says whether the delta has no change. -/
theorem isEmpty_eq (hkey : d.Keyed getKey) (hnull : d.old.isSome ∨ d.new.isSome)
    {fuel : Nat} (hfuel : (d.old.getD FlatMap.empty).size + (d.new.getD FlatMap.empty).size < fuel) :
    d.isEmpty getKey fuel =
      some (FlatMap.delta (d.old.getD FlatMap.empty) (d.new.getD FlatMap.empty)).isEmpty := by
  rw [isEmpty, forEachChanged, forEachSelected_eq hkey hnull hfuel, Option.map_some]
  -- every entry goes to a callback, and the first one breaks
  cases FlatMap.delta (d.old.getD FlatMap.empty) (d.new.getD FlatMap.empty) with
  | nil => rfl
  | cons e L =>
    simp only [List.map_cons, List.filterMap_cons]
    split_ifs <;> rfl

/-- `isEmpty` holds exactly when the two maps bind every key alike. -/
theorem isEmpty_iff_find?_eq (hkey : d.Keyed getKey) (hnull : d.old.isSome ∨ d.new.isSome)
    {fuel : Nat} (hfuel : (d.old.getD FlatMap.empty).size + (d.new.getD FlatMap.empty).size < fuel) :
    d.isEmpty getKey fuel = some true ↔
      ∀ k, (d.old.getD FlatMap.empty).find? k = (d.new.getD FlatMap.empty).find? k := by
  rw [isEmpty_eq hkey hnull hfuel, Option.some_inj, List.isEmpty_iff, List.eq_nil_iff_forall_not_mem]
  constructor
  · intro h k
    by_contra hne
    exact h _ ((FlatMap.mem_delta_iff _ _ k _ _).mpr ⟨rfl, rfl, hne⟩)
  · rintro h ⟨k, o, n⟩ hmem
    obtain ⟨rfl, rfl, hne⟩ := (FlatMap.mem_delta_iff _ _ k o n).mp hmem
    exact hne (h k)

/-- The update of `walk_yields_changes_of_update`: it is not empty, and the
maps differ at key 1. -/
theorem isEmpty_iff_find?_eq_of_update :
    let d : NodeMapDelta ℕ (ℕ × ℕ) :=
      ⟨some ⟨[(1, (1, 0)), (2, (2, 0))], by decide⟩, some ⟨[(2, (2, 1)), (3, (3, 0))], by decide⟩⟩
    d.Keyed Prod.fst ∧ (d.old.isSome ∨ d.new.isSome) ∧
      (d.old.getD FlatMap.empty).size + (d.new.getD FlatMap.empty).size < 5 ∧
      (d.isEmpty Prod.fst 5 = some true ↔
        ∀ k, (d.old.getD FlatMap.empty).find? k = (d.new.getD FlatMap.empty).find? k) := by
  intro d
  have hkey : d.Keyed Prod.fst := by decide
  have hnull : d.old.isSome ∨ d.new.isSome := by simp [d]
  have hfuel : (d.old.getD FlatMap.empty).size + (d.new.getD FlatMap.empty).size < 5 := by decide
  exact ⟨hkey, hnull, hfuel, isEmpty_iff_find?_eq hkey hnull hfuel⟩

end Loops

/-- The walk of a `NodeMapDelta` ends, and yields the changes between the two
maps one by one: by strictly increasing key, for each key whose node differs,
the old and the new node, a missing one as `none`, and nothing else. The loops
of `DeltaFunctions` run their callbacks on these entries, in this order, up to
the first `BREAK`. -/
theorem walk_yields_changes (d : NodeMapDelta κ β) (getKey : β → κ) (hkey : d.Keyed getKey)
    (hnull : d.old.isSome ∨ d.new.isSome) :
    let old := d.old.getD FlatMap.empty
    let new := d.new.getD FlatMap.empty
    let L := FlatMap.delta old new
    ∀ fuel, old.size + new.size < fuel →
      d.entries getKey fuel = some (L.map Prod.snd) ∧
      L.Pairwise (fun a b => a.1 < b.1) ∧
      (∀ k o n, (k, o, n) ∈ L ↔ o = old.find? k ∧ n = new.find? k ∧ o ≠ n) ∧
      (∀ e ∈ L, ∀ x, e.2.1 = some x ∨ e.2.2 = some x → getKey x = e.1) ∧
      ∀ (changedFn : Option β → Option β → σ → σ × LoopAction)
        (addedFn removedFn : Option β → σ → σ × LoopAction) (s : σ),
        d.forEachChanged getKey fuel changedFn addedFn removedFn s =
          some (forEachEntry some ((L.map Prod.snd).filterMap fun e =>
            if e.1.isSome then
              if e.2.isSome then some (changedFn e.1 e.2) else some (removedFn e.1)
            else some (addedFn e.2)) s) ∧
        d.forEachAdded getKey fuel addedFn s =
          some (forEachEntry some ((L.map Prod.snd).filterMap fun e =>
            if e.1.isNone then some (addedFn e.2) else none) s) ∧
        d.forEachRemoved getKey fuel removedFn s =
          some (forEachEntry some ((L.map Prod.snd).filterMap fun e =>
            if e.2.isNone then some (removedFn e.1) else none) s) := by
  intro old new L fuel hfuel
  refine ⟨entries_eq_delta hkey hnull hfuel, FlatMap.delta_keys_sorted old new,
    FlatMap.mem_delta_iff old new, ?_, fun changedFn addedFn removedFn s =>
      ⟨forEachSelected_eq hkey hnull hfuel _ s, forEachSelected_eq hkey hnull hfuel _ s,
        forEachSelected_eq hkey hnull hfuel _ s⟩⟩
  -- a node of an entry is bound at its key, and each map stores a node under its key
  rintro ⟨k, o, n⟩ he x hx
  obtain ⟨rfl, rfl, -⟩ := (FlatMap.mem_delta_iff old new k o n).mp he
  rcases hx with hx | hx
  · exact (keyedSorted_old hkey).2 _ ((FlatMap.mem_toList_iff old k x).mpr hx)
  · exact (keyedSorted_new hkey).2 _ ((FlatMap.mem_toList_iff new k x).mpr hx)

/-- An update of the node at key 2, the removal of key 1 and the addition of
key 3, with nodes carrying their key and a version. -/
theorem walk_yields_changes_of_update :
    let d : NodeMapDelta ℕ (ℕ × ℕ) :=
      ⟨some ⟨[(1, (1, 0)), (2, (2, 0))], by decide⟩, some ⟨[(2, (2, 1)), (3, (3, 0))], by decide⟩⟩
    d.entries Prod.fst 5 = some [(some (1, 0), none), (some (2, 0), some (2, 1)), (none, some (3, 0))] := by
  intro d
  rw [(walk_yields_changes (σ := Unit) d Prod.fst (by decide) (by simp [d]) 5 (by decide)).1]
  decide

end NodeMapDelta

end Fboss
