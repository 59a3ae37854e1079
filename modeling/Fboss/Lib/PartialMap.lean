import Mathlib.Data.Set.Card
import Mathlib.Data.List.Nodup

/-!
# Finite partial maps

The abstract view of a container of bindings is a map `κ → Option β`.
Inserting keeps an existing binding (`insertIfAbsent`), erasing drops one, and
a list of pairs enumerates the map when it holds every binding exactly once.
The number of bindings of a map is then the length of any enumeration of it
(`Enumerates.ncard_support`).
-/

namespace PartialMap

variable {κ β : Type*}

/-- The map with no binding. -/
def empty : κ → Option β := fun _ => none

/-- The keys that are bound. -/
def support (m : κ → Option β) : Set κ :=
  {k | (m k).isSome}

section Update

variable [DecidableEq κ]

/-- Bind `k` to `v` unless `k` is already bound. -/
def insertIfAbsent (m : κ → Option β) (k : κ) (v : β) : κ → Option β :=
  if m k = none then Function.update m k (some v) else m

/-- Drop the binding of `k`, if any. -/
def erase (m : κ → Option β) (k : κ) : κ → Option β :=
  Function.update m k none

theorem insertIfAbsent_apply (m : κ → Option β) (k : κ) (v : β) (k' : κ) :
    insertIfAbsent m k v k' = if k' = k ∧ m k = none then some v else m k' := by
  unfold insertIfAbsent
  by_cases hk : k' = k
  · subst hk
    by_cases hm : m k' = none <;> simp [hm]
  · by_cases hm : m k = none <;> simp [hm, hk]

theorem erase_apply (m : κ → Option β) (k k' : κ) :
    erase m k k' = if k' = k then none else m k' := by
  unfold erase
  by_cases hk : k' = k
  · subst hk; simp
  · simp [hk]

end Update

/-- `l` lists every binding of `m`, each key once. -/
structure Enumerates (m : κ → Option β) (l : List (κ × β)) : Prop where
  nodup : (l.map Prod.fst).Nodup
  mem_iff : ∀ k x, (k, x) ∈ l ↔ m k = some x

theorem Enumerates.mem_support_iff {m : κ → Option β} {l : List (κ × β)} (h : Enumerates m l)
    (k : κ) : k ∈ support m ↔ k ∈ l.map Prod.fst := by
  simp only [support, Set.mem_ofPred_eq, Option.isSome_iff_exists, List.mem_map, Prod.exists,
    exists_and_right, exists_eq_right]
  exact exists_congr fun x => (h.mem_iff k x).symm

/-- The number of bindings is the length of an enumeration. -/
theorem Enumerates.ncard_support {m : κ → Option β} {l : List (κ × β)} (h : Enumerates m l) :
    (support m).ncard = l.length := by
  classical
  have hset : support m = ((l.map Prod.fst).toFinset : Set κ) := by
    ext k
    rw [h.mem_support_iff k, Finset.mem_coe, List.mem_toFinset]
  rw [hset, Set.ncard_coe_finset, List.toFinset_card_of_nodup h.nodup, List.length_map]

end PartialMap
