import Mathlib.Data.List.Nodup

/-!
# Association lists with distinct keys

A finite map can be listed as pairs with pairwise distinct keys. The length of
such a listing counts the bindings, so adding a binding for a fresh key adds
one, and removing the binding of a bound key takes one away, whatever order
the listings come in.
-/

namespace AssocList

variable {κ β : Type*}

/-- Listing the bindings plus one for a fresh key takes one more pair. -/
theorem length_of_mem_iff_or {l₁ l₂ : List (κ × β)} (h₁ : (l₁.map Prod.fst).Nodup)
    (h₂ : l₂.Nodup) {k : κ} {x : β} (hk : k ∉ l₁.map Prod.fst)
    (hmem : ∀ e, e ∈ l₂ ↔ e ∈ l₁ ∨ e = (k, x)) : l₂.length = l₁.length + 1 := by
  have hnd : ((k, x) :: l₁).Nodup :=
    List.Nodup.cons (fun hx => hk (List.mem_map_of_mem hx)) (List.Nodup.of_map Prod.fst h₁)
  have hperm : l₂.Perm ((k, x) :: l₁) := by
    refine (List.perm_ext_iff_of_nodup h₂ hnd).mpr fun e => ?_
    rw [hmem e, List.mem_cons, or_comm]
  simpa using hperm.length_eq

/-- Listing the bindings but those at a bound key takes one pair less. -/
theorem length_of_mem_iff_and {l₁ l₂ : List (κ × β)} (h₁ : (l₁.map Prod.fst).Nodup)
    (h₂ : l₂.Nodup) {k : κ} {x : β} (hkx : (k, x) ∈ l₁)
    (hmem : ∀ e, e ∈ l₂ ↔ e ∈ l₁ ∧ e.1 ≠ k) : l₁.length = l₂.length + 1 := by
  have hnd : ((k, x) :: l₂).Nodup := List.Nodup.cons (fun hx => ((hmem _).mp hx).2 rfl) h₂
  have hperm : l₁.Perm ((k, x) :: l₂) := by
    refine (List.perm_ext_iff_of_nodup (List.Nodup.of_map Prod.fst h₁) hnd).mpr fun e => ?_
    rw [List.mem_cons, hmem e]
    constructor
    · intro he
      by_cases hek : e.1 = k
      · -- a second binding at `k` would repeat the key
        left
        have hinj := List.inj_on_of_nodup_map h₁ he hkx hek
        exact hinj
      · exact Or.inr ⟨he, hek⟩
    · rintro (rfl | ⟨he, -⟩)
      · exact hkx
      · exact he
  simpa using hperm.length_eq

end AssocList
