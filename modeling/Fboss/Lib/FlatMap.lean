import Mathlib.Order.Basic
import Mathlib.Data.List.Nodup
import Fboss.Lib.PartialMap

/-!
# Sorted association lists

A map kept as a list of bindings sorted by strictly increasing key, the layout
of a `flat_map` over a sorted vector. A lookup, an insertion that keeps an
existing binding, an assignment to an existing binding and an erasure are the
operations; the sortedness of the keys is a field of the structure, so that
every map that can be built has each key once. Iterating over a map is
iterating over `toList`, in increasing key order.

Read as a partial function (`find?`), insertion and erasure are the partial-map
operations of `PartialMap` (`find?_insert`, `find?_erase`).
-/

/-- A map whose bindings are listed by strictly increasing key. -/
structure FlatMap (κ β : Type*) [LinearOrder κ] where
  toList : List (κ × β)
  sorted : (toList.map Prod.fst).Pairwise (· < ·)

namespace FlatMap

variable {κ β : Type*} [LinearOrder κ]

theorem ext_toList {m m' : FlatMap κ β} (h : m.toList = m'.toList) : m = m' := by
  cases m; cases m'; cases h; rfl

instance [DecidableEq β] : DecidableEq (FlatMap κ β) := fun m m' =>
  decidable_of_iff (m.toList = m'.toList) ⟨ext_toList, fun h => h ▸ rfl⟩

section Lists

/-- Insert a binding at its place in a sorted list, unless the key is bound. -/
def insertList (k : κ) (v : β) : List (κ × β) → List (κ × β)
  | [] => [(k, v)]
  | (k', v') :: l =>
    if k < k' then (k, v) :: (k', v') :: l
    else if k = k' then (k', v') :: l
    else (k', v') :: insertList k v l

theorem mem_keys_insertList (k : κ) (v : β) (l : List (κ × β)) (x : κ) :
    x ∈ (insertList k v l).map Prod.fst ↔ x = k ∨ x ∈ l.map Prod.fst := by
  induction l with
  | nil => simp [insertList]
  | cons p l ih =>
    obtain ⟨k', v'⟩ := p
    simp only [insertList]
    split_ifs with hlt heq
    · simp
    · subst heq; simp
    · simp only [List.map_cons, List.mem_cons, ih]
      tauto

theorem sorted_insertList (k : κ) (v : β) {l : List (κ × β)}
    (h : (l.map Prod.fst).Pairwise (· < ·)) : ((insertList k v l).map Prod.fst).Pairwise (· < ·) := by
  induction l with
  | nil => simp [insertList]
  | cons p l ih =>
    obtain ⟨k', v'⟩ := p
    obtain ⟨hk', hl⟩ := List.pairwise_cons.mp h
    simp only [insertList]
    split_ifs with hlt heq
    · refine List.pairwise_cons.mpr ⟨fun x hx => ?_, h⟩
      rcases List.mem_cons.mp hx with rfl | hx
      · exact hlt
      · exact hlt.trans (hk' x hx)
    · exact h
    -- the new key goes further right: it is above `k'`, as every key of `l` is
    · have hgt : k' < k := lt_of_le_of_ne (not_lt.mp hlt) (Ne.symm heq)
      refine List.pairwise_cons.mpr ⟨fun x hx => ?_, ih hl⟩
      rcases (mem_keys_insertList k v l x).mp hx with rfl | hx
      · exact hgt
      · exact hk' x hx

theorem length_insertList (k : κ) (v : β) {l : List (κ × β)} (h : k ∉ l.map Prod.fst) :
    (insertList k v l).length = l.length + 1 := by
  induction l with
  | nil => rfl
  | cons p l ih =>
    obtain ⟨k', v'⟩ := p
    simp only [List.map_cons, List.mem_cons, not_or] at h
    simp only [insertList]
    split_ifs with hlt heq
    · simp
    · exact absurd heq h.1
    · simp [ih h.2]

/-- The value bound to `x` in a list of bindings, the first one found. -/
def lookupList (x : κ) : List (κ × β) → Option β
  | [] => none
  | (k, v) :: l => if x = k then some v else lookupList x l

@[simp] theorem lookupList_nil (x : κ) : lookupList x ([] : List (κ × β)) = none := rfl

@[simp] theorem lookupList_cons (x k : κ) (v : β) (l : List (κ × β)) :
    lookupList x ((k, v) :: l) = if x = k then some v else lookupList x l := rfl

theorem lookupList_cons_pair (x : κ) (p : κ × β) (l : List (κ × β)) :
    lookupList x (p :: l) = if x = p.1 then some p.2 else lookupList x l := rfl

theorem lookupList_eq_none {x : κ} {l : List (κ × β)} (h : x ∉ l.map Prod.fst) :
    lookupList x l = none := by
  induction l with
  | nil => rfl
  | cons p l ih =>
    obtain ⟨k, v⟩ := p
    simp only [List.map_cons, List.mem_cons, not_or] at h
    simp [h.1, ih h.2]

theorem lookupList_insertList (k : κ) (v : β) {l : List (κ × β)}
    (hl : (l.map Prod.fst).Pairwise (· < ·)) (x : κ) :
    lookupList x (insertList k v l) =
      if x = k then (lookupList k l).or (some v) else lookupList x l := by
  induction l with
  | nil => by_cases hx : x = k <;> simp [insertList, hx]
  | cons p l ih =>
    obtain ⟨k', v'⟩ := p
    obtain ⟨hk', hl'⟩ := List.pairwise_cons.mp hl
    simp only [insertList]
    by_cases hlt : k < k'
    · by_cases hx : x = k
      -- `k` is below every key of the sorted list, so it is not bound there
      · subst hx
        have hnone : lookupList x l = none :=
          lookupList_eq_none fun hmem => lt_asymm hlt (hk' x hmem)
        simp [hlt, hlt.ne, hnone]
      · simp [hlt, hx]
    · by_cases heq : k = k'
      · subst heq; by_cases hx : x = k <;> simp [hx]
      · by_cases hx : x = k
        · subst hx; simp [hlt, heq, ih hl']
        · by_cases hx' : x = k'
          · subst hx'; simp [hlt, heq, hx]
          · simp [hlt, heq, hx, hx', ih hl']

end Lists

/-- The binding of `k`. -/
def find? (m : FlatMap κ β) (k : κ) : Option β :=
  lookupList k m.toList

/-- The number of bindings. -/
def size (m : FlatMap κ β) : Nat :=
  m.toList.length

/-- The map with no binding. -/
def empty : FlatMap κ β :=
  ⟨[], List.Pairwise.nil⟩

/-- Bind `k` to `v`, unless `k` is already bound. -/
def insert (m : FlatMap κ β) (k : κ) (v : β) : FlatMap κ β :=
  ⟨insertList k v m.toList, sorted_insertList k v m.sorted⟩

/-- Overwrite the value bound to `k`; a map without `k` is unchanged. -/
def assign (m : FlatMap κ β) (k : κ) (v : β) : FlatMap κ β :=
  ⟨m.toList.map fun p => if p.1 = k then (k, v) else p, by
    have hkeys : ((m.toList.map fun p => if p.1 = k then (k, v) else p).map Prod.fst) =
        m.toList.map Prod.fst := by
      simp only [List.map_map]
      congr 1
      funext p
      by_cases hp : p.1 = k <;> simp [hp]
    exact hkeys ▸ m.sorted⟩

/-- Drop the binding of `k`, if any. -/
def erase (m : FlatMap κ β) (k : κ) : FlatMap κ β :=
  ⟨m.toList.filter fun p => p.1 ≠ k, by
    have hsub : ((m.toList.filter fun p => p.1 ≠ k).map Prod.fst).Sublist (m.toList.map Prod.fst) :=
      (List.filter_sublist).map Prod.fst
    exact m.sorted.sublist hsub⟩

/-- `m[k] = v`: bind `k` to `v`, in place of any binding it had. -/
def set (m : FlatMap κ β) (k : κ) (v : β) : FlatMap κ β :=
  match m.find? k with
  | none => m.insert k v
  | some _ => m.assign k v

/-- The map with `f` applied to every value. -/
def mapValues {γ : Type*} (f : β → γ) (m : FlatMap κ β) : FlatMap κ γ :=
  ⟨m.toList.map fun p => (p.1, f p.2), by simpa [List.map_map, Function.comp_def] using m.sorted⟩

/-- The map built by inserting the bindings of a list in order. -/
def ofList (l : List (κ × β)) : FlatMap κ β :=
  l.foldl (fun m p => m.insert p.1 p.2) empty

theorem nodup_keys (m : FlatMap κ β) : (m.toList.map Prod.fst).Nodup :=
  m.sorted.imp ne_of_lt

@[simp] theorem find?_empty (k : κ) : (empty : FlatMap κ β).find? k = none := rfl

@[simp] theorem size_empty : (empty : FlatMap κ β).size = 0 := rfl

theorem mem_toList_iff (m : FlatMap κ β) (k : κ) (v : β) :
    (k, v) ∈ m.toList ↔ m.find? k = some v := by
  obtain ⟨l, hl⟩ := m
  simp only [find?]
  induction l with
  | nil => simp [lookupList]
  | cons p l ih =>
    obtain ⟨k', v'⟩ := p
    obtain ⟨hk', hl'⟩ := List.pairwise_cons.mp hl
    by_cases hk : k = k'
    · subst hk
      have hnot : (k, v) ∉ l := fun hmem =>
        lt_irrefl k (hk' k (List.mem_map_of_mem (f := Prod.fst) hmem))
      simp [lookupList, hnot, eq_comm]
    · simp [lookupList, hk, ih hl']

theorem find?_eq_none_iff (m : FlatMap κ β) (k : κ) :
    m.find? k = none ↔ k ∉ m.toList.map Prod.fst := by
  rw [Option.eq_none_iff_forall_ne_some]
  simp only [List.mem_map, Prod.exists, exists_and_right, exists_eq_right, not_exists]
  exact forall_congr' fun v => (not_congr (mem_toList_iff m k v)).symm

theorem find?_insert (m : FlatMap κ β) (k : κ) (v : β) (x : κ) :
    (m.insert k v).find? x = if x = k then (m.find? k).or (some v) else m.find? x :=
  lookupList_insertList k v m.sorted x

theorem size_insert_of_find?_eq_none {m : FlatMap κ β} {k : κ} (h : m.find? k = none) (v : β) :
    (m.insert k v).size = m.size + 1 :=
  length_insertList k v ((find?_eq_none_iff m k).mp h)

theorem find?_assign (m : FlatMap κ β) (k : κ) (v : β) (x : κ) :
    (m.assign k v).find? x = if x = k then (m.find? k).map fun _ => v else m.find? x := by
  obtain ⟨l, hl⟩ := m
  simp only [find?, assign]
  clear hl
  induction l with
  | nil => by_cases hx : x = k <;> simp [lookupList, hx]
  | cons p l ih =>
    obtain ⟨k', v'⟩ := p
    by_cases hk : k' = k
    · subst hk
      by_cases hx : x = k' <;> simp [lookupList, hx, ih]
    · by_cases hx : x = k
      · subst hx; simp [lookupList, hk, Ne.symm hk, ih]
      · by_cases hx' : x = k' <;> simp [lookupList, hk, hx, hx', ih]

theorem find?_erase (m : FlatMap κ β) (k x : κ) :
    (m.erase k).find? x = if x = k then none else m.find? x := by
  obtain ⟨l, hl⟩ := m
  simp only [find?, erase]
  clear hl
  induction l with
  | nil => simp
  | cons p l ih =>
    obtain ⟨k', v'⟩ := p
    rw [List.filter_cons]
    by_cases hk : k' = k
    · subst hk
      by_cases hx : x = k' <;> simpa [hx] using ih
    · by_cases hx : x = k'
      · subst hx; simp [hk]
      · simpa [hk, hx] using ih

theorem find?_set (m : FlatMap κ β) (k : κ) (v : β) (x : κ) :
    (m.set k v).find? x = if x = k then some v else m.find? x := by
  unfold set
  cases hk : m.find? k with
  | none => simp [find?_insert, hk]
  | some old => simp [find?_assign, hk]

theorem size_eq_zero_iff (m : FlatMap κ β) : m.size = 0 ↔ ∀ k, m.find? k = none := by
  constructor
  · intro h k
    have hnil : m.toList = [] := List.length_eq_zero_iff.mp h
    rw [find?, hnil, lookupList_nil]
  · intro h
    apply List.length_eq_zero_iff.mpr
    apply List.eq_nil_iff_forall_not_mem.mpr
    rintro ⟨k, v⟩ hmem
    have hsome := (mem_toList_iff m k v).mp hmem
    rw [h k] at hsome
    exact absurd hsome (by simp)

/-- A map of one binding binds only the key it is known to bind. -/
theorem eq_of_size_eq_one {m : FlatMap κ β} (h : m.size = 1) {k x : κ} {v w : β}
    (hk : m.find? k = some v) (hx : m.find? x = some w) : x = k := by
  obtain ⟨p, hp⟩ := List.length_eq_one_iff.mp h
  have hkm := (mem_toList_iff m k v).mpr hk
  have hxm := (mem_toList_iff m x w).mpr hx
  rw [hp, List.mem_singleton] at hkm hxm
  rw [← hkm] at hxm
  exact congrArg Prod.fst hxm

end FlatMap

/-- A set whose elements are listed in strictly increasing order, a
`flat_set`: a sorted map to `Unit`. -/
abbrev FlatSet (κ : Type*) [LinearOrder κ] := FlatMap κ Unit

namespace FlatSet

variable {κ : Type*} [LinearOrder κ]

/-- The empty set. -/
def empty : FlatSet κ :=
  FlatMap.empty

/-- The elements, in increasing order. -/
def elems (s : FlatSet κ) : List κ :=
  s.toList.map Prod.fst

/-- `emplace`: add an element, unless it is there. -/
def emplace (s : FlatSet κ) (x : κ) : FlatSet κ :=
  FlatMap.insert s x ()

/-- `erase`: drop an element, if it is there. -/
def erase (s : FlatSet κ) (x : κ) : FlatSet κ :=
  FlatMap.erase s x

/-- The set of the elements of a list, added in order. -/
def ofList (l : List κ) : FlatSet κ :=
  l.foldl emplace empty

theorem mem_elems_iff (s : FlatSet κ) (x : κ) : x ∈ s.elems ↔ s.find? x = some () := by
  simp only [elems, List.mem_map, Prod.exists, exists_and_right, exists_eq_right]
  exact ⟨fun ⟨u, hu⟩ => (FlatMap.mem_toList_iff s x u).mp hu,
    fun h => ⟨(), (FlatMap.mem_toList_iff s x ()).mpr h⟩⟩

theorem mem_emplace (s : FlatSet κ) (x y : κ) : y ∈ (s.emplace x).elems ↔ y = x ∨ y ∈ s.elems := by
  rw [mem_elems_iff, mem_elems_iff, emplace, FlatMap.find?_insert]
  by_cases hy : y = x
  · subst hy; cases s.find? y <;> simp
  · simp [hy]

@[simp] theorem elems_empty : (empty : FlatSet κ).elems = [] := rfl

/-- A set built by emplacing the images of a list holds what it held and
those images. -/
theorem mem_foldl_emplace {γ : Type*} (f : γ → κ) (l : List γ) (s : FlatSet κ) (x : κ) :
    x ∈ (l.foldl (fun s c => s.emplace (f c)) s).elems ↔ x ∈ s.elems ∨ ∃ c ∈ l, x = f c := by
  induction l generalizing s with
  | nil => simp
  | cons c l ih =>
    rw [List.foldl_cons, ih, mem_emplace]
    simp only [List.mem_cons, exists_eq_or_imp]
    tauto

theorem mem_ofList (l : List κ) (x : κ) : x ∈ (ofList l).elems ↔ x ∈ l := by
  simpa [ofList] using mem_foldl_emplace id l empty x

theorem nodup_elems (s : FlatSet κ) : s.elems.Nodup :=
  FlatMap.nodup_keys s

theorem mem_erase (s : FlatSet κ) (x y : κ) : y ∈ (s.erase x).elems ↔ y ≠ x ∧ y ∈ s.elems := by
  rw [mem_elems_iff, mem_elems_iff, erase, FlatMap.find?_erase]
  by_cases hy : y = x <;> simp [hy]

/-! The elements of a set are listed once each, so a set is known up to the
order of its list by its members (`List.perm_ext_iff_of_nodup`). -/

/-- Emplacing an element the set lacks adds it. -/
theorem perm_emplace {s : FlatSet κ} {x : κ} (hx : x ∉ s.elems) : (s.emplace x).elems.Perm (x :: s.elems) := by
  refine (List.perm_ext_iff_of_nodup (nodup_elems _) (List.nodup_cons.mpr ⟨hx, nodup_elems s⟩)).mpr fun y => ?_
  rw [mem_emplace, List.mem_cons]

/-- Emplacing an element the set holds changes nothing. -/
theorem perm_emplace_of_mem {s : FlatSet κ} {x : κ} (hx : x ∈ s.elems) : (s.emplace x).elems.Perm s.elems := by
  refine (List.perm_ext_iff_of_nodup (nodup_elems _) (nodup_elems s)).mpr fun y => ?_
  rw [mem_emplace]
  constructor
  · rintro (rfl | hy)
    · exact hx
    · exact hy
  · exact Or.inr

/-- A member is the erased set with it put back. -/
theorem perm_erase {s : FlatSet κ} {x : κ} (hx : x ∈ s.elems) : s.elems.Perm (x :: (s.erase x).elems) := by
  have hnot : x ∉ (s.erase x).elems := fun h => ((mem_erase s x x).mp h).1 rfl
  refine (List.perm_ext_iff_of_nodup (nodup_elems s) (List.nodup_cons.mpr ⟨hnot, nodup_elems _⟩)).mpr fun y => ?_
  rw [List.mem_cons, mem_erase]
  by_cases hy : y = x
  · subst hy
    simp [hx]
  · simp [hy]

end FlatSet

namespace FlatMap

variable {κ β : Type*} [LinearOrder κ]

/-- The keys of either map, in increasing order. -/
def unionKeys (m m' : FlatMap κ β) : FlatSet κ :=
  m'.toList.foldl (fun s p => s.emplace p.1) (FlatSet.ofList (m.toList.map Prod.fst))

/-- The changes from `m` to `m'`, in increasing key order: each key of either
map that the two bind differently, with its binding before and after. A key
bound to the same value in both is no change. -/
def delta [DecidableEq β] (m m' : FlatMap κ β) : List (κ × Option β × Option β) :=
  (unionKeys m m').elems.filterMap fun k =>
    if m.find? k = m'.find? k then none else some (k, m.find? k, m'.find? k)

end FlatMap

namespace FlatMap

variable {κ β : Type*} [LinearOrder κ]

/-- Two lists whose keys strictly increase and which have the same elements
are the same list. -/
theorem eq_of_mem_iff_of_keys_sorted {l l' : List (κ × β)}
    (h : l.Pairwise fun a b => a.1 < b.1) (h' : l'.Pairwise fun a b => a.1 < b.1)
    (hmem : ∀ p, p ∈ l ↔ p ∈ l') : l = l' := by
  have hnd : l.Nodup := h.imp fun hab => ne_of_apply_ne Prod.fst (ne_of_lt hab)
  have hnd' : l'.Nodup := h'.imp fun hab => ne_of_apply_ne Prod.fst (ne_of_lt hab)
  refine List.Perm.eq_of_pairwise (fun a b _ _ hab hba => absurd (hab.trans hba) (lt_irrefl _))
    h h' ((List.perm_ext_iff_of_nodup hnd hnd').mpr hmem)

/-- Two maps with the same bindings are equal. -/
theorem ext_find? {m m' : FlatMap κ β} (h : ∀ k, m.find? k = m'.find? k) : m = m' := by
  refine ext_toList (eq_of_mem_iff_of_keys_sorted (List.pairwise_map.mp m.sorted)
    (List.pairwise_map.mp m'.sorted) fun p => ?_)
  rw [← Prod.mk.eta (p := p), mem_toList_iff, mem_toList_iff, h]

theorem mem_unionKeys (m m' : FlatMap κ β) (k : κ) :
    k ∈ (unionKeys m m').elems ↔ (m.find? k).isSome ∨ (m'.find? k).isSome := by
  rw [unionKeys, FlatSet.mem_foldl_emplace, FlatSet.mem_ofList]
  simp only [List.mem_map, Option.isSome_iff_exists, ← mem_toList_iff]
  constructor
  · rintro (⟨p, hp, rfl⟩ | ⟨p, hp, rfl⟩)
    · exact Or.inl ⟨p.2, hp⟩
    · exact Or.inr ⟨p.2, hp⟩
  · rintro (⟨v, hv⟩ | ⟨v, hv⟩)
    · exact Or.inl ⟨(k, v), hv, rfl⟩
    · exact Or.inr ⟨(k, v), hv, rfl⟩

variable [DecidableEq β]

/-- The changes of a delta: the keys at which the two maps differ, with the
binding of each map there. -/
theorem mem_delta_iff (m m' : FlatMap κ β) (k : κ) (o n : Option β) :
    (k, o, n) ∈ delta m m' ↔ o = m.find? k ∧ n = m'.find? k ∧ o ≠ n := by
  simp only [delta, List.mem_filterMap]
  constructor
  · rintro ⟨k', -, hk'⟩
    split_ifs at hk' with hne
    cases hk'
    exact ⟨rfl, rfl, hne⟩
  · rintro ⟨rfl, rfl, hne⟩
    -- a key at which the maps differ is bound in one of them
    have hk : k ∈ (unionKeys m m').elems := by
      rw [mem_unionKeys]
      by_contra hnone
      simp only [not_or, Option.not_isSome_iff_eq_none] at hnone
      exact hne (hnone.1.trans hnone.2.symm)
    exact ⟨k, hk, by rw [if_neg hne]⟩

/-- A map has no change from itself. -/
theorem delta_self (m : FlatMap κ β) : delta m m = [] := by
  refine List.eq_nil_iff_forall_not_mem.mpr fun ⟨k, o, n⟩ h => ?_
  obtain ⟨rfl, rfl, hne⟩ := (mem_delta_iff m m k o n).mp h
  exact hne rfl

/-- The changes of a delta come by strictly increasing key. -/
theorem delta_keys_sorted (m m' : FlatMap κ β) :
    (delta m m').Pairwise fun a b => a.1 < b.1 := by
  -- the keys of the union are listed in increasing order, and each change is at its key
  refine List.Pairwise.filterMap _ ?_ (unionKeys m m').sorted
  intro a a' haa' b hb b' hb'
  split_ifs at hb hb'
  cases hb
  cases hb'
  exact haa'

end FlatMap

namespace FlatSet

variable {κ : Type*} [LinearOrder κ]

/-- A set is the set of its elements. -/
theorem ofList_elems (s : FlatSet κ) : ofList s.elems = s := by
  refine FlatMap.ext_find? fun x => ?_
  have hiff : x ∈ (ofList s.elems).elems ↔ x ∈ s.elems := mem_ofList s.elems x
  rw [mem_elems_iff, mem_elems_iff] at hiff
  cases h : FlatMap.find? s x with
  | none => exact Option.eq_none_iff_forall_ne_some.mpr fun u hu => by simp_all
  | some u => exact hiff.mpr (by rw [h])

end FlatSet
