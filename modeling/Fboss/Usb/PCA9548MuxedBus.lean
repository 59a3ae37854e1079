import Fboss.Lib.LayeredTree
import Fboss.Lib.ExceptSpec
import Fboss.Lib.Run

/-!
# The QSFP bus behind a tree of PCA9548 multiplexers

A `BaseWedgeI2CBus` reaches the transceiver of a port through multiplexers:
`selectQsfp(port)` connects the port, `unselectQsfp()` disconnects it, and
`selectedPort_` says which port is connected (`NO_PORT` for none). The calls
go to the `selectQsfpImpl` of the bus; `open()` forgets the selection and
sets the bus up with `initBus()`.

A `PCA9548` mux connects any of its 8 channels; `selected_` caches what its
last `commit` wrote to it. A `PCA9548MuxedBus` hangs its muxes in a tree
(`QsfpMux`): behind each channel of a mux hangs a layer of muxes, and each
port is wired to a channel of a mux (its leaf). The path of a port is the
chain of muxes and channels from a root down to its leaf (`calculatePath`).
Selecting a port unselects the part of the old path that differs from the new
one (`QsfpMux::clear`, `pca9548_helpers::clearLayer`) and selects the new part
(`pca9548_helpers::selectPath`).

The mux objects are the nodes of a `LayeredTree Nat`, named by their keys as
the code names them by their addresses in memory, and the `selected_` bytes
of all of them are one map from keys (`PCA9548.Selection`). The code reads
only `selected_` and changes the muxes only by `commit`, so it is written here
over any state of the muxes with those two (`PCA9548.Muxes`); what a commit's
write does to the devices is the module `PCA9548MuxedBusDevices`. A write never
fails. A port's path is found by the key of its leaf's mux, where the code
walks up the `parent()` pointers.

On a well-formed topology (distinct muxes, at most 8 layers a mux, leaves on
channels below 8, every leaf at one depth), after `open()` and any run of
calls, every mux of the tree has exactly the channel of the path of
`selectedPort_` in `selected_` if it is on that path, and nothing otherwise
(`inv_run_open`), whatever the writes do to the devices.
-/

open LayeredTree

namespace Fboss

/-! ### The base bus -/

namespace BaseWedgeI2CBus

/-- `NO_PORT`. -/
def NO_PORT : Nat := 0

/-- What a `BaseWedgeI2CBus` holds: the state `dev` of its subclass and
`selectedPort_`. -/
structure Bus (σ : Type) where
  dev : σ
  selectedPort : Nat

/-- The calls of a client of the bus. -/
inductive Call where
  | selectQsfp (port : Nat)
  | unselectQsfp
  deriving DecidableEq, Repr

section Calls

variable {σ : Type} (selectQsfpImpl : Bus σ → Nat → Except String (Bus σ))

/-- `selectQsfp(port)`. -/
def selectQsfp (b : Bus σ) (port : Nat) : Except String (Bus σ) :=
  if ¬port > 0 then throw "Check failed: port > 0"
  else if port ≠ b.selectedPort then selectQsfpImpl b port
  else pure b

/-- `unselectQsfp()`. -/
def unselectQsfp (b : Bus σ) : Except String (Bus σ) :=
  if b.selectedPort ≠ NO_PORT then selectQsfpImpl b NO_PORT
  else pure b

/-- One call. -/
def call (b : Bus σ) : Call → Except String (Bus σ)
  | .selectQsfp port => selectQsfp selectQsfpImpl b port
  | .unselectQsfp => unselectQsfp selectQsfpImpl b

/-- `open()` with the bus's `initBus()`: `selectedPort_` is `NO_PORT`. -/
def «open» (initBus : σ) : Bus σ :=
  ⟨initBus, NO_PORT⟩

/-- A run of calls; a call that fails leaves the bus as it was. -/
def run (b : Bus σ) (calls : List Call) : Bus σ :=
  Run.run (fun b c => (Except.inPlace b (call selectQsfpImpl b c)).1) b calls

/-- The rule of runs: an invariant that every call to `selectQsfpImpl` the
base bus makes keeps holds after every run. -/
theorem run_invariant (I : Bus σ → Prop)
    (himpl : ∀ b port, I b → port ≠ b.selectedPort →
      Except.Spec (fun _ => True) I (selectQsfpImpl b port))
    {b : Bus σ} (hb : I b) (calls : List Call) : I (run selectQsfpImpl b calls) := by
  refine Run.run_invariant (P := fun _ => True) I (fun b c _ hI => Except.inPlace_invariant hI ?_)
    (fun _ _ => trivial) hb
  cases c with
  | selectQsfp port =>
    rw [call, selectQsfp]
    by_cases h0 : ¬port > 0
    · rw [if_pos h0]
      exact trivial
    rw [if_neg h0]
    by_cases hne : port ≠ b.selectedPort
    · rw [if_pos hne]
      exact himpl b port hI hne
    · rw [if_neg hne]
      exact hI
  | unselectQsfp =>
    rw [call, unselectQsfp]
    by_cases hne : b.selectedPort ≠ NO_PORT
    · rw [if_pos hne]
      exact himpl b NO_PORT hI (Ne.symm hne)
    · rw [if_neg hne]
      exact hI

end Calls

end BaseWedgeI2CBus

/-! ### The mux -/

namespace PCA9548

/-- `PCA9548::WIDTH`. -/
def WIDTH : Nat := 8

/-- The `selected_` byte of every mux, by its key. -/
abbrev Selection := Nat → UInt8

/-- The byte of one channel, `static_cast<uint8_t>(1 << channel)`. -/
def channelBit (channel : Nat) : UInt8 :=
  UInt8.ofNat (1 <<< channel)

/-- The muxes of a bus in a state `σ`, as the code drives them: the `selected_`
byte of each mux by its key, and `commit(selector)` on one mux, which sets that
mux's `selected_`, whatever else it does to the state. -/
structure Muxes (σ : Type) where
  selected : σ → Selection
  commit : σ → Nat → UInt8 → σ
  selected_commit : ∀ s mux selector, selected (commit s mux selector) = Function.update (selected s) mux selector

section Commit

variable {σ : Type} (M : Muxes σ)

/-- `selectOne(channel)` on the mux `mux`. -/
def selectOne (s : σ) (mux : Nat) (channel : Nat) : σ :=
  M.commit s mux (channelBit channel)

/-- `unselectAll()` on the mux `mux`. -/
def unselectAll (s : σ) (mux : Nat) : σ :=
  M.commit s mux 0

@[simp] theorem selected_selectOne (s : σ) (mux channel : Nat) :
    M.selected (selectOne M s mux channel) = Function.update (M.selected s) mux (channelBit channel) :=
  M.selected_commit s mux _

@[simp] theorem selected_unselectAll (s : σ) (mux : Nat) :
    M.selected (unselectAll M s mux) = Function.update (M.selected s) mux 0 :=
  M.selected_commit s mux 0

end Commit

/-- `isSelected(channel)`, as a test. -/
def isSelected (selected : UInt8) (channel : Nat) : Bool :=
  selected &&& channelBit channel != 0

end PCA9548

open PCA9548 (Selection)

/-- A `QsfpMux`: a mux, named by a key, with its 8 layers of children. -/
abbrev QsfpMux := LayeredTree Nat

/-- A `Path`: the muxes and channels from a root down to a port. -/
abbrev Path := List (QsfpMux × Nat)

section Code

variable {σ : Type} (M : PCA9548.Muxes σ)

mutual
/-- `QsfpMux::clear(force)`: every channel the mux has selected (all of them
with `force`) that has muxes behind it is selected alone and its muxes are
cleared; then the mux is unselected. -/
def QsfpMux.clear (force : Bool) : QsfpMux → σ → σ
  | .node mux children, s =>
    let selected : UInt8 := if force then 0b11111111 else M.selected s mux
    if selected = 0 then s
    else PCA9548.unselectAll M (QsfpMux.clearChannels force mux selected 0 children s) mux

/-- The loop of `QsfpMux::clear` from `channel` on, with the bits of `selected`
still to look at. -/
def QsfpMux.clearChannels (force : Bool) (mux : Nat) (selected : UInt8) (channel : Nat) :
    List (List QsfpMux) → σ → σ
  | [], s => s
  | layer :: layers, s =>
    if selected = 0 then s
    else
      QsfpMux.clearChannels force mux (selected >>> 1) (channel + 1) layers
        (if selected % 2 = 1 ∧ 0 < layer.length then
          PCA9548Helpers.clearLayer force layer
            (if PCA9548.isSelected (M.selected s mux) channel then s else PCA9548.selectOne M s mux channel)
        else s)

/-- `pca9548_helpers::clearLayer(layer, force)`. -/
def PCA9548Helpers.clearLayer (force : Bool) : List QsfpMux → σ → σ
  | [], s => s
  | mux :: layer, s => PCA9548Helpers.clearLayer force layer (QsfpMux.clear force mux s)
end

/-- `pca9548_helpers::selectPath(begin, end)`. -/
def PCA9548Helpers.selectPath (s : σ) (path : Path) : σ :=
  path.foldl (fun s mc => PCA9548.selectOne M s mc.1.key mc.2) s

end Code

/-! ### Clearing -/

namespace PCA9548

/-- The selection after `unselectAll()` on each of the muxes `muxes`. -/
def unselectAllOf (s : Selection) (muxes : List Nat) : Selection :=
  fun x => if x ∈ muxes then 0 else s x

@[simp] theorem unselectAllOf_nil (s : Selection) : unselectAllOf s [] = s := by
  funext x
  simp [unselectAllOf]

theorem unselectAllOf_congr_apply {s s' : Selection} {x : Nat} (h : s x = s' x) (muxes : List Nat) :
    unselectAllOf s muxes x = unselectAllOf s' muxes x := by
  simp only [unselectAllOf, h]

theorem unselectAllOf_append (s : Selection) (A B : List Nat) :
    unselectAllOf s (A ++ B) = unselectAllOf (unselectAllOf s A) B := by
  funext x
  by_cases hA : x ∈ A <;> by_cases hB : x ∈ B <;> simp [unselectAllOf, hA, hB]

theorem update_unselectAllOf (s : Selection) (mux : Nat) (muxes : List Nat) :
    Function.update (unselectAllOf s muxes) mux 0 = unselectAllOf s (mux :: muxes) := by
  funext x
  by_cases hx : x = mux
  · simp [unselectAllOf, hx]
  · simp [unselectAllOf, hx]

theorem channelBit_ne_zero : ∀ c, c < WIDTH → channelBit c ≠ 0 := by
  decide

theorem isSelected_channelBit : ∀ c, c < WIDTH → isSelected (channelBit c) c = true := by
  decide

theorem channelBit_zero : channelBit 0 % 2 = 1 ∧ channelBit 0 >>> 1 = 0 := by
  decide

theorem channelBit_pos : ∀ c, c < WIDTH → 0 < c →
    channelBit c % 2 = 0 ∧ channelBit c >>> 1 = channelBit (c - 1) := by
  decide

/-- The bits `QsfpMux::clear(true)` has left to look at after `k` channels. -/
theorem allBits : ∀ k, k < WIDTH → UInt8.ofNat (255 >>> k) ≠ 0 ∧ UInt8.ofNat (255 >>> k) % 2 = 1 ∧
    UInt8.ofNat (255 >>> k) >>> 1 = UInt8.ofNat (255 >>> (k + 1)) := by
  decide

end PCA9548

namespace QsfpMux

open PCA9548 PCA9548Helpers

variable {σ : Type} (M : Muxes σ)

theorem clearChannels_nil (force : Bool) (mux : Nat) (selected : UInt8) (channel : Nat) (s : σ) :
    clearChannels M force mux selected channel [] s = s := by
  rw [clearChannels]

theorem clearChannels_zero (force : Bool) (mux : Nat) (channel : Nat) (layers : List (List QsfpMux))
    (s : σ) : clearChannels M force mux 0 channel layers s = s := by
  cases layers with
  | nil => exact clearChannels_nil ..
  | cons layer layers => rw [clearChannels, if_pos rfl]

/-- The loop of `QsfpMux::clear` on a mux with one channel `c` selected clears
the layer of that channel alone. -/
theorem clearChannels_channelBit (force : Bool) (mux : Nat) :
    ∀ (c channel : Nat) (layers : List (List QsfpMux)) (s : σ), c < WIDTH →
      clearChannels M force mux (channelBit c) channel layers s =
        if 0 < (layers.getD c []).length then
          clearLayer M force (layers.getD c [])
            (if isSelected (M.selected s mux) (channel + c) then s else selectOne M s mux (channel + c))
        else s
  | _, _, [], s, _ => by simp [clearChannels_nil]
  | 0, channel, layer :: layers, s, _ => by
    obtain ⟨hodd, hshift⟩ := channelBit_zero
    rw [clearChannels, if_neg (channelBit_ne_zero 0 (by decide)), hshift, clearChannels_zero]
    simp [hodd]
  | c + 1, channel, layer :: layers, s, hc => by
    obtain ⟨heven, hshift⟩ := channelBit_pos (c + 1) hc (Nat.succ_pos c)
    rw [clearChannels, if_neg (channelBit_ne_zero (c + 1) hc), hshift, Nat.add_sub_cancel,
      clearChannels_channelBit force mux c (channel + 1) layers _ (by omega)]
    simp [heven, Nat.add_right_comm channel 1 c, Nat.add_assoc]

/-- `QsfpMux::clear()` of a mux with nothing selected writes nothing. -/
theorem clear_of_zero {t : QsfpMux} {s : σ} (h : M.selected s t.key = 0) : clear M false t s = s := by
  obtain ⟨mux, children⟩ := t
  rw [clear]
  simp only [Bool.false_eq_true, if_false]
  rw [if_pos (show M.selected s mux = 0 from h)]

/-- `QsfpMux::clear()` of a mux with one channel selected clears the layer of
that channel and unselects the mux. -/
theorem clear_of_channelBit {t : QsfpMux} {s : σ} {c : Nat} (h : M.selected s t.key = channelBit c)
    (hc : c < WIDTH) : clear M false t s = unselectAll M (clearLayer M false (t.layers.getD c []) s) t.key := by
  obtain ⟨mux, children⟩ := t
  simp only [key_node] at h
  rw [clear]
  simp only [Bool.false_eq_true, if_false, layers_node, key_node]
  rw [if_neg (by rw [h]; exact channelBit_ne_zero c hc), h, clearChannels_channelBit M false mux c 0 children s hc,
    Nat.zero_add, h, if_pos (isSelected_channelBit c hc)]
  split_ifs with hpos
  · rfl
  · rw [List.eq_nil_of_length_eq_zero (Nat.eq_zero_of_not_pos hpos), clearLayer]

theorem clearLayer_of_zero :
    ∀ {layer : List QsfpMux} {s : σ}, (∀ u ∈ layer, M.selected s u.key = 0) → clearLayer M false layer s = s
  | [], _, _ => by rw [clearLayer]
  | u :: layer, s, h => by
    rw [clearLayer, clear_of_zero M (h u List.mem_cons_self)]
    exact clearLayer_of_zero fun v hv => h v (List.mem_cons_of_mem u hv)

/-- Clearing a layer in which only `u` has anything selected, before and after
`u`'s clear, is `u`'s clear. -/
theorem clearLayer_of_one {u : QsfpMux} {s : σ} (hu : M.selected (clear M false u s) u.key = 0) :
    ∀ {layer : List QsfpMux}, u ∈ layer →
      (∀ v ∈ layer, v ≠ u → M.selected s v.key = 0 ∧ M.selected (clear M false u s) v.key = 0) →
        clearLayer M false layer s = clear M false u s
  | v :: layer, hmem, hrest => by
    -- after `u`, every mux of the layer has nothing selected
    have hafter : ∀ w ∈ layer, M.selected (clear M false u s) w.key = 0 := by
      intro w hw
      by_cases hwu : w = u
      · rw [hwu]
        exact hu
      · exact (hrest w (List.mem_cons_of_mem v hw) hwu).2
    rw [clearLayer]
    by_cases hvu : v = u
    · rw [hvu, clearLayer_of_zero M hafter]
    · rw [clear_of_zero M (hrest v List.mem_cons_self hvu).1]
      exact clearLayer_of_one hu ((List.mem_cons.mp hmem).resolve_left (Ne.symm hvu))
        fun w hw => hrest w (List.mem_cons_of_mem v hw)

theorem mem_of_mem_getD {t : QsfpMux} {c : Nat} {u : QsfpMux} (hu : u ∈ t.layers.getD c []) :
    ∃ l, t.layers[c]? = some l ∧ u ∈ l := by
  rw [List.getD_eq_getElem?_getD] at hu
  cases hl : t.layers[c]? with
  | none => simp [hl] at hu
  | some l => exact ⟨l, rfl, by simpa [hl] using hu⟩

/-- `QsfpMux::clear(false)` on the root of a chain whose muxes have the chain's
channels selected, in a tree that has nothing else selected, unselects the
muxes of the chain and nothing else. -/
theorem clear_of_chain {t : QsfpMux} {P : Path} {s : σ} (hP : Chain t P) :
    t.keys.Nodup → (∀ q ∈ P, q.2 < WIDTH) → (∀ q ∈ P, M.selected s q.1.key = channelBit q.2) →
      (∀ x ∈ t.keys, x ∉ P.map (fun q => q.1.key) → M.selected s x = 0) →
      M.selected (clear M false t s) = unselectAllOf (M.selected s) (P.map fun q => q.1.key) := by
  induction hP with
  | last t c =>
    intro hnd hc hon hoff
    obtain ⟨mux, children⟩ := t
    have hc' : c < WIDTH := hc _ List.mem_cons_self
    have hsel : M.selected s mux = channelBit c := hon _ List.mem_cons_self
    -- the muxes behind channel `c` have nothing selected
    have hzero : ∀ u ∈ children.getD c [], M.selected s u.key = 0 := by
      intro u hu
      obtain ⟨l, hlc, hul⟩ := mem_of_mem_getD (t := .node mux children) hu
      have hl := List.mem_of_getElem? hlc
      obtain ⟨-, hmux⟩ := nodup_keys_of_mem_layer hnd hl hul
      refine hoff u.key (keys_subset_of_mem_layer hl hul u.key_mem_keys) ?_
      simp only [List.map_cons, List.map_nil, key_node, List.mem_singleton]
      exact fun h => hmux (h ▸ u.key_mem_keys)
    rw [clear_of_channelBit M hsel hc', layers_node, clearLayer_of_zero M hzero, key_node, selected_unselectAll]
    simpa using update_unselectAllOf (M.selected s) mux []
  | @step t u c l P hl hu hP ih =>
    intro hnd hc hon hoff
    have hlt : l ∈ t.layers := List.mem_of_getElem? hl
    obtain ⟨hu_nd, hmux⟩ := nodup_keys_of_mem_layer hnd hlt hu
    have hc' : c < WIDTH := hc _ List.mem_cons_self
    have hsel : M.selected s t.key = channelBit c := hon _ List.mem_cons_self
    obtain ⟨cu, P', rfl⟩ := hP.exists_eq_cons
    -- `u` clears the rest of the chain
    have hclear_u : M.selected (clear M false u s) =
        unselectAllOf (M.selected s) (((u, cu) :: P').map fun q => q.1.key) := by
      refine ih hu_nd (fun q hq => hc q (List.mem_cons_of_mem _ hq))
        (fun q hq => hon q (List.mem_cons_of_mem _ hq)) fun x hx hxP => hoff x ?_ ?_
      · exact keys_subset_of_mem_layer hlt hu hx
      · simp only [List.map_cons, List.mem_cons, not_or] at hxP ⊢
        exact ⟨fun h => hmux (h ▸ hx), hxP⟩
    -- the other muxes of the layer are off the chain
    have hrest : ∀ v ∈ l, v ≠ u → M.selected s v.key = 0 ∧ M.selected (clear M false u s) v.key = 0 := by
      intro v hv hvu
      have hoffv := Chain.key_not_mem_of_off (C := []) (Chain.step hl hu hP) hnd hl hv
        (by simpa using hvu)
      have h0 := hoff v.key (keys_subset_of_mem_layer hlt hv v.key_mem_keys) hoffv
      simp only [List.nil_append, List.map_cons, List.mem_cons, not_or] at hoffv
      refine ⟨h0, ?_⟩
      rw [hclear_u, unselectAllOf, if_neg (by simpa using hoffv.2), h0]
    have hlayer : clearLayer M false l s = clear M false u s :=
      clearLayer_of_one M (by rw [hclear_u]; simp [unselectAllOf]) hu hrest
    have hget : t.layers.getD c [] = l := by
      rw [List.getD_eq_getElem?_getD, hl, Option.getD_some]
    rw [clear_of_channelBit M hsel hc', hget, hlayer, selected_unselectAll, hclear_u, update_unselectAllOf]
    rfl

mutual
/-- `QsfpMux::clear(true)` unselects every mux of the tree, whatever was
selected, in a tree of at most 8 layers a mux. -/
theorem clear_force : ∀ (t : QsfpMux) (s : σ), t.Narrow WIDTH →
    M.selected (clear M true t s) = unselectAllOf (M.selected s) t.keys
  | .node mux children, s, hw => by
    have hlen : children.length ≤ WIDTH := hw _ (node mux children).mem_nodes_self
    have hchildren : ∀ n ∈ layersNodes children, n.layers.length ≤ WIDTH :=
      fun n hn => hw n (by simp [hn])
    rw [clear]
    simp only [if_true]
    rw [if_neg (by decide), show (255 : UInt8) = UInt8.ofNat (255 >>> 0) by decide, selected_unselectAll]
    funext x
    by_cases hx : x = mux
    · simp [unselectAllOf, hx, keys]
    · rw [Function.update_of_ne hx, clearChannels_force mux 0 children s (by omega) hchildren x hx]
      simp [unselectAllOf, keys, hx]

/-- The loop of `QsfpMux::clear(true)` from channel `k` on unselects every mux
behind the channels it looks at; only the mux itself is left to unselect. -/
theorem clearChannels_force (mux : Nat) : ∀ (k : Nat) (layers : List (List QsfpMux)) (s : σ),
    layers.length + k ≤ WIDTH → (∀ n ∈ layersNodes layers, n.layers.length ≤ WIDTH) →
      ∀ x ≠ mux, M.selected (clearChannels M true mux (UInt8.ofNat (255 >>> k)) k layers s) x =
        unselectAllOf (M.selected s) ((layersNodes layers).map key) x
  | _, [], s, _, _, x, _ => by simp [clearChannels_nil]
  | k, layer :: layers, s, hk, hw, x, hx => by
    obtain ⟨hne, hodd, hshift⟩ := allBits k (by simp at hk; omega)
    have hlayer : ∀ n ∈ layerNodes layer, n.layers.length ≤ WIDTH := fun n hn => hw n (by simp [hn])
    have hlayers : ∀ n ∈ layersNodes layers, n.layers.length ≤ WIDTH := fun n hn => hw n (by simp [hn])
    rw [clearChannels, if_neg hne, hshift,
      clearChannels_force mux (k + 1) layers _ (by simp at hk; omega) hlayers x hx]
    -- the state after this channel, away from the mux itself
    have hstep : M.selected (if UInt8.ofNat (255 >>> k) % 2 = 1 ∧ 0 < layer.length then
          clearLayer M true layer (if isSelected (M.selected s mux) k then s else selectOne M s mux k) else s) x =
        unselectAllOf (M.selected s) (layerKeys layer) x := by
      by_cases hpos : 0 < layer.length
      · have hsel : M.selected (if isSelected (M.selected s mux) k then s else selectOne M s mux k) x =
            M.selected s x := by
          split_ifs
          · rfl
          · rw [selected_selectOne, Function.update_of_ne hx]
        rw [if_pos ⟨hodd, hpos⟩, clearLayer_force layer _ hlayer]
        exact unselectAllOf_congr_apply hsel _
      · obtain rfl : layer = [] := List.eq_nil_of_length_eq_zero (by omega)
        simp [layerKeys]
    rw [layersNodes_cons, List.map_append, unselectAllOf_append]
    exact unselectAllOf_congr_apply hstep _

/-- `pca9548_helpers::clearLayer(layer, true)` unselects every mux of the layer's
trees. -/
theorem clearLayer_force : ∀ (layer : List QsfpMux) (s : σ),
    (∀ n ∈ layerNodes layer, n.layers.length ≤ WIDTH) →
      M.selected (clearLayer M true layer s) = unselectAllOf (M.selected s) (layerKeys layer)
  | [], s, _ => by simp [clearLayer]
  | u :: us, s, hw => by
    have hu : u.Narrow WIDTH := fun n hn => hw n (by simp [hn])
    rw [clearLayer, clearLayer_force us _ fun n hn => hw n (by simp [hn]), clear_force u s hu,
      layerKeys_cons, unselectAllOf_append]
end

end QsfpMux

/-! ### The bus -/

namespace PCA9548MuxedBus

open BaseWedgeI2CBus PCA9548 PCA9548Helpers

/-- The wiring of a bus: `roots_` from `createMuxes()`, the I2C address each
mux was created with, and `leaves_` from `wireUpPorts()`, each leaf the key of
a mux and a channel of it. -/
structure Topology where
  roots : List QsfpMux
  address : Nat → UInt8
  leaves : List (Nat × Nat)

/-- `calculatePath(port)`. -/
def calculatePath (topo : Topology) (port : Nat) : Except String Path :=
  if port = NO_PORT then pure []
  else
    match topo.leaves[port - 1]? with
    | none => throw "array::at"
    | some (mux, channel) =>
      match layerPathTo mux channel topo.roots with
      | some path => pure path
      | none => throw "null mux"

section Code

variable {σ : Type} (M : Muxes σ)

/-- `changePath(existingPath, newPath)`: past the muxes and channels the two
paths share, the old path is cleared from the first mux or channel that
differs, and the rest of the new path is selected. -/
def changePath (s : σ) : Path → Path → σ
  | current :: existingPath, desired :: newPath =>
    if current.1.key = desired.1.key ∧ current.2 = desired.2 then changePath s existingPath newPath
    else
      let s' :=
        if current.1.key ≠ desired.1.key then QsfpMux.clear M false current.1 s
        else clearLayer M false (current.1.layers.getD current.2 []) s
      selectPath M s' (desired :: newPath)
  | _, _ => s

@[simp] theorem changePath_nil_left (s : σ) (newPath : Path) : changePath M s [] newPath = s := by
  cases newPath <;> rfl

/-- `selectQsfpImpl(port)`. -/
def selectQsfpImpl (topo : Topology) (b : Bus σ) (port : Nat) : Except String (Bus σ) := do
  let newPath ← calculatePath topo port
  let existingPath ← calculatePath topo b.selectedPort
  match newPath, existingPath with
  | [], [] => pure b
  | [], current :: _ => pure ⟨QsfpMux.clear M false current.1 b.dev, port⟩
  | newPath, [] => pure ⟨selectPath M b.dev newPath, port⟩
  | newPath, existingPath => pure ⟨changePath M b.dev existingPath newPath, port⟩

/-- `initBus()`: `createMuxes()` gives the muxes of the tree in the state `s`,
and `ensureNothingSelected()` clears the roots with `force`. -/
def initBus (topo : Topology) (s : σ) : σ :=
  clearLayer M true topo.roots s

end Code

/-! ### What a path selects -/

/-- The keys of the muxes of a path. -/
def muxesOn (path : Path) : List Nat :=
  path.map fun mc => mc.1.key

/-- The muxes and channels of a path, by key. -/
def channelsOn (path : Path) : List (Nat × Nat) :=
  path.map fun mc => (mc.1.key, mc.2)

/-- What a path asks of each mux: the bit of its channel for a mux on the path,
nothing for any other. -/
def pathSelection : Path → Nat → UInt8
  | [], _ => 0
  | mc :: path, mux => if mc.1.key = mux then channelBit mc.2 else pathSelection path mux

@[simp] theorem muxesOn_nil : muxesOn [] = [] := rfl

@[simp] theorem muxesOn_cons (mc : QsfpMux × Nat) (path : Path) :
    muxesOn (mc :: path) = mc.1.key :: muxesOn path := rfl

@[simp] theorem muxesOn_append (A B : Path) : muxesOn (A ++ B) = muxesOn A ++ muxesOn B :=
  List.map_append

theorem pathSelection_of_not_mem {path : Path} {mux : Nat} (h : mux ∉ muxesOn path) :
    pathSelection path mux = 0 := by
  induction path with
  | nil => rfl
  | cons mc path ih =>
    simp only [muxesOn_cons, List.mem_cons, not_or] at h
    rw [pathSelection, if_neg (Ne.symm h.1), ih h.2]

theorem pathSelection_append_of_not_mem_left {A : Path} (B : Path) {mux : Nat} (h : mux ∉ muxesOn A) :
    pathSelection (A ++ B) mux = pathSelection B mux := by
  induction A with
  | nil => rfl
  | cons mc A ih =>
    simp only [muxesOn_cons, List.mem_cons, not_or] at h
    rw [List.cons_append, pathSelection, if_neg (Ne.symm h.1), ih h.2]

theorem pathSelection_append_of_not_mem_right (A : Path) {B : Path} {mux : Nat} (h : mux ∉ muxesOn B) :
    pathSelection (A ++ B) mux = pathSelection A mux := by
  induction A with
  | nil => exact pathSelection_of_not_mem h
  | cons mc A ih => rw [List.cons_append, pathSelection, pathSelection, ih]

theorem pathSelection_of_mem {path : Path} (hnd : (muxesOn path).Nodup) {mc : QsfpMux × Nat}
    (h : mc ∈ path) : pathSelection path mc.1.key = channelBit mc.2 := by
  induction path with
  | nil => cases h
  | cons mc' path ih =>
    rw [muxesOn_cons, List.nodup_cons] at hnd
    rw [pathSelection]
    rcases List.mem_cons.mp h with rfl | h
    · rw [if_pos rfl]
    · have hne : mc'.1.key ≠ mc.1.key := fun he => hnd.1 (he ▸ List.mem_map_of_mem h)
      rw [if_neg hne, ih hnd.2 h]

/-- Two paths through the same muxes and channels ask the same of every mux. -/
theorem pathSelection_congr : ∀ {A B : Path}, channelsOn A = channelsOn B → pathSelection A = pathSelection B
  | [], [], _ => rfl
  | mc :: A, mc' :: B, h => by
    simp only [channelsOn, List.map_cons, List.cons.injEq, Prod.mk.injEq] at h
    funext mux
    rw [pathSelection, pathSelection, h.1.1, h.1.2, pathSelection_congr h.2]

/-- Selecting one more mux at the end of a path. -/
theorem pathSelection_append_singleton {C : Path} {m : QsfpMux} (c : Nat) (h : m.key ∉ muxesOn C) :
    pathSelection (C ++ [(m, c)]) = Function.update (pathSelection C) m.key (channelBit c) := by
  funext x
  by_cases hx : x = m.key
  · subst hx
    rw [pathSelection_append_of_not_mem_left _ h, Function.update_self, pathSelection, if_pos rfl]
  · rw [Function.update_of_ne hx, pathSelection_append_of_not_mem_right C (by simpa using hx)]

/-- Unselecting the tail of a path of distinct muxes leaves what its head asks for. -/
theorem unselectAllOf_pathSelection_append {A B : Path} (hnd : (muxesOn (A ++ B)).Nodup) :
    unselectAllOf (pathSelection (A ++ B)) (muxesOn B) = pathSelection A := by
  rw [muxesOn_append, List.nodup_append] at hnd
  funext x
  rw [unselectAllOf]
  split_ifs with hx
  · exact (pathSelection_of_not_mem fun hxA => hnd.2.2 x hxA x hx rfl).symm
  · exact pathSelection_append_of_not_mem_right A hx

section Muxes

variable {σ : Type} (M : Muxes σ)

/-- `selectPath` along a path of distinct muxes selects what the path asks of
its muxes and leaves the others as they were. -/
theorem selectPath_apply {path : Path} (hnd : (muxesOn path).Nodup) (s : σ) (x : Nat) :
    M.selected (selectPath M s path) x = if x ∈ muxesOn path then pathSelection path x else M.selected s x := by
  induction path generalizing s with
  | nil => rfl
  | cons mc path ih =>
    rw [muxesOn_cons, List.nodup_cons] at hnd
    rw [selectPath, List.foldl_cons, ← selectPath, ih hnd.2, pathSelection]
    by_cases hx : x = mc.1.key
    · subst hx
      simp [hnd.1]
    · have hx' : mc.1.key ≠ x := Ne.symm hx
      simp [hx, hx']

end Muxes

/-! ### Paths of a well-formed bus -/

/-- The keys of all the muxes of the bus. -/
def Topology.muxes (topo : Topology) : List Nat :=
  layerKeys topo.roots

/-- A topology the code can select ports in: distinct muxes, at most `WIDTH`
layers a mux (`children_` is an array of `WIDTH` layers), leaves on channels
below `WIDTH`, and every leaf at one depth ("the tree is perfectly balanced"). -/
structure Topology.WellFormed (topo : Topology) : Prop where
  nodup : topo.muxes.Nodup
  narrow : ∀ r ∈ topo.roots, r.Narrow WIDTH
  leaf_lt : ∀ leaf ∈ topo.leaves, leaf.2 < WIDTH
  balanced : ∃ depth, ∀ leaf ∈ topo.leaves, ∀ path ∈ layerPathTo leaf.1 leaf.2 topo.roots,
    path.length = depth

/-- A path of the bus: a chain from one of its roots, on channels below `WIDTH`. -/
structure PathOf (topo : Topology) (path : Path) : Prop where
  root : ∃ r ∈ topo.roots, Chain r path
  channel_lt : ∀ mc ∈ path, mc.2 < WIDTH

/-- `calculatePath` gives the empty path for `NO_PORT` and otherwise the path
to the leaf of the port. -/
theorem calculatePath_ok {topo : Topology} {port : Nat} {path : Path}
    (h : calculatePath topo port = .ok path) :
    (port = NO_PORT ∧ path = []) ∨ ∃ leaf ∈ topo.leaves, layerPathTo leaf.1 leaf.2 topo.roots = some path := by
  unfold calculatePath at h
  split_ifs at h with hport
  · exact .inl ⟨hport, (Except.ok.inj h).symm⟩
  · right
    cases hleaf : topo.leaves[port - 1]? with
    | none => simp [hleaf] at h
    | some leaf =>
      obtain ⟨mux, channel⟩ := leaf
      simp only [hleaf] at h
      cases hp : layerPathTo mux channel topo.roots with
      | none => simp [hp] at h
      | some p =>
        simp only [hp] at h
        obtain rfl := (Except.ok.inj h)
        exact ⟨(mux, channel), List.mem_of_getElem? hleaf, hp⟩

theorem keys_subset_of_mem_roots {topo : Topology} {r : QsfpMux} (hr : r ∈ topo.roots) :
    r.keys.Sublist topo.muxes :=
  (nodes_sublist_layerNodes hr).map key

theorem PathOf.ne_nil {topo : Topology} {path : Path} (hP : PathOf topo path) : path ≠ [] := by
  obtain ⟨r, -, hr⟩ := hP.root
  obtain ⟨c, P, rfl⟩ := hr.exists_eq_cons
  exact List.cons_ne_nil _ _

/-- The muxes below any entry of a path are muxes of the bus. -/
theorem PathOf.keys_sublist {topo : Topology} {path : Path} (hP : PathOf topo path) {mc : QsfpMux × Nat}
    (hmc : mc ∈ path) : mc.1.keys.Sublist topo.muxes := by
  obtain ⟨r, hr, hchain⟩ := hP.root
  exact ((hchain.nodes_sublist mc hmc).map key).trans (keys_subset_of_mem_roots hr)

theorem PathOf.muxesOn_subset {topo : Topology} {path : Path} (hP : PathOf topo path) : muxesOn path ⊆ topo.muxes := by
  intro x hx
  obtain ⟨mc, hmc, rfl⟩ := List.mem_map.mp hx
  exact (hP.keys_sublist hmc).subset mc.1.key_mem_keys

section WellFormed

variable {topo : Topology} (hwf : topo.WellFormed)
include hwf

/-- A path that `calculatePath` gives is empty or a path of the bus. -/
theorem pathOf_calculatePath {port : Nat} {path : Path} (h : calculatePath topo port = .ok path) :
    path = [] ∨ PathOf topo path := by
  rcases calculatePath_ok h with ⟨-, rfl⟩ | ⟨leaf, hleaf, hp⟩
  · exact .inl rfl
  obtain ⟨r, hr, hchain, C, t, rfl, -⟩ := chain_of_layerPathTo topo.roots hp
  refine .inr ⟨⟨r, hr, hchain⟩, fun mc hmc => ?_⟩
  rcases List.mem_append.mp hmc with hmc | hmc
  · exact hchain.channel_lt_of_narrow (hwf.narrow r hr) mc hmc
  · obtain rfl := List.mem_singleton.mp hmc
    exact hwf.leaf_lt leaf hleaf

/-- Two non-empty paths that `calculatePath` gives are equally long. -/
theorem length_calculatePath {p q : Nat} {P Q : Path} (hP : calculatePath topo p = .ok P)
    (hQ : calculatePath topo q = .ok Q) (hP0 : P ≠ []) (hQ0 : Q ≠ []) : P.length = Q.length := by
  obtain ⟨depth, hdepth⟩ := hwf.balanced
  rcases calculatePath_ok hP with ⟨-, rfl⟩ | ⟨leaf, hleaf, hp⟩
  · exact absurd rfl hP0
  rcases calculatePath_ok hQ with ⟨-, rfl⟩ | ⟨leaf', hleaf', hq⟩
  · exact absurd rfl hQ0
  rw [hdepth leaf hleaf P hp, hdepth leaf' hleaf' Q hq]

theorem PathOf.nodup {path : Path} (hP : PathOf topo path) : (muxesOn path).Nodup := by
  obtain ⟨r, hr, hchain⟩ := hP.root
  exact hchain.nodup ((hwf.nodup).sublist (keys_subset_of_mem_roots hr))

variable {σ : Type} (M : Muxes σ)

/-- Clearing a mux of the path that the selection asks for unselects the path
from that mux on, and nothing else. -/
theorem clear_of_pathOf {C D : Path} {q : QsfpMux × Nat} (hP : PathOf topo (C ++ q :: D))
    {s : σ} (hs : ∀ x ∈ topo.muxes, M.selected s x = pathSelection (C ++ q :: D) x) :
    M.selected (QsfpMux.clear M false q.1 s) = unselectAllOf (M.selected s) (muxesOn (q :: D)) := by
  obtain ⟨r, hr, hchain⟩ := hP.root
  have hr_nd : r.keys.Nodup := (hwf.nodup).sublist (keys_subset_of_mem_roots hr)
  have hq_mem : q ∈ C ++ q :: D := by simp
  refine QsfpMux.clear_of_chain M hchain.drop ((hwf.nodup).sublist (hP.keys_sublist hq_mem))
    (fun mc hmc => hP.channel_lt mc (by simp [hmc])) (fun mc hmc => ?_) (fun x hx hxD => ?_)
  · have hmc' : mc ∈ C ++ q :: D := by simp [hmc]
    rw [hs _ (hP.muxesOn_subset (List.mem_map_of_mem hmc')), pathSelection_of_mem (hP.nodup hwf) hmc']
  · -- a mux below `q` off the path's tail is above it nowhere either
    have hxC : x ∉ muxesOn C := by
      intro hxC
      obtain ⟨p, hp, rfl⟩ := List.mem_map.mp hxC
      exact hchain.key_not_mem_of_prefix hr_nd p hp hx
    rw [hs x ((hP.keys_sublist hq_mem).subset hx)]
    exact pathSelection_of_not_mem (by simp [muxesOn] at hxC hxD ⊢; exact ⟨hxC, hxD⟩)

/-- After clearing a mux of the path, the selection is what the part of the
path above it asks for. -/
theorem selected_clear_of_pathOf {C D : Path} {q : QsfpMux × Nat} (hP : PathOf topo (C ++ q :: D))
    {s : σ} (hs : ∀ x ∈ topo.muxes, M.selected s x = pathSelection (C ++ q :: D) x) :
    ∀ x ∈ topo.muxes, M.selected (QsfpMux.clear M false q.1 s) x = pathSelection C x := by
  intro x hx
  rw [clear_of_pathOf hwf M hP hs, unselectAllOf_congr_apply (hs x hx), unselectAllOf_pathSelection_append (hP.nodup hwf)]

/-- A mux of the layer the path leaves `cur` by, off the path, has nothing
selected. -/
theorem selected_off_pathOf {C D : Path} {cur : QsfpMux × Nat} (hP : PathOf topo (C ++ cur :: D))
    {s : σ} (hs : ∀ x ∈ topo.muxes, M.selected s x = pathSelection (C ++ cur :: D) x)
    {l : List QsfpMux} {v : QsfpMux} (hl : cur.1.layers[cur.2]? = some l) (hv : v ∈ l)
    (hvD : ∀ d ∈ D.head?, v ≠ d.1) : M.selected s v.key = 0 := by
  obtain ⟨r, hr, hchain⟩ := hP.root
  have hr_nd : r.keys.Nodup := (hwf.nodup).sublist (keys_subset_of_mem_roots hr)
  obtain ⟨m, c⟩ := cur
  have hvP := hchain.key_not_mem_of_off hr_nd hl hv hvD
  have hvm : v.key ∈ topo.muxes :=
    (hP.keys_sublist (show (m, c) ∈ C ++ (m, c) :: D by simp)).subset
      (keys_subset_of_mem_layer (List.mem_of_getElem? hl) hv v.key_mem_keys)
  rw [hs _ hvm, pathSelection_of_not_mem hvP]

/-- Behind the channel of the last mux of a path nothing is selected, so
clearing that layer writes nothing. -/
theorem clearLayer_of_pathOf_nil {C : Path} {cur : QsfpMux × Nat} (hP : PathOf topo (C ++ [cur])) {s : σ}
    (hs : ∀ x ∈ topo.muxes, M.selected s x = pathSelection (C ++ [cur]) x) :
    clearLayer M false (cur.1.layers.getD cur.2 []) s = s :=
  QsfpMux.clearLayer_of_zero M fun v hv => by
    obtain ⟨l, hl, hvl⟩ := QsfpMux.mem_of_mem_getD hv
    exact selected_off_pathOf hwf M hP hs hl hvl (by simp)

/-- Behind a mux of a path that goes on, clearing the layer of its channel is
clearing the next mux of the path. -/
theorem clearLayer_of_pathOf_cons {C D : Path} {cur : QsfpMux × Nat} {u : QsfpMux} {cu : Nat}
    (hP : PathOf topo (C ++ cur :: (u, cu) :: D)) {s : σ}
    (hs : ∀ x ∈ topo.muxes, M.selected s x = pathSelection (C ++ cur :: (u, cu) :: D) x) :
    clearLayer M false (cur.1.layers.getD cur.2 []) s = QsfpMux.clear M false u s := by
  obtain ⟨r, hr, hchain⟩ := hP.root
  obtain ⟨c, l, u, hcur, hl, hu, hD⟩ := (hchain.drop (C := C)).tail (List.cons_ne_nil _ D)
  obtain ⟨cd, D', hdD⟩ := hD.exists_eq_cons
  obtain ⟨⟨rfl, -⟩, -⟩ := List.cons_eq_cons.mp hdD
  obtain rfl : c = cur.2 := (congrArg Prod.snd hcur).symm
  have hget : cur.1.layers.getD cur.2 [] = l := by
    rw [List.getD_eq_getElem?_getD, hl, Option.getD_some]
  have hP' : PathOf topo ((C ++ [cur]) ++ (u, cu) :: D) := by simpa using hP
  have hs' : ∀ x ∈ topo.muxes, M.selected s x = pathSelection ((C ++ [cur]) ++ (u, cu) :: D) x := by
    simpa using hs
  have hclear := clear_of_pathOf hwf M hP' hs'
  rw [hget]
  refine QsfpMux.clearLayer_of_one M (by rw [hclear]; simp [unselectAllOf]) hu fun v hv hvu => ?_
  -- the other muxes of the layer are off the path, before and after
  have h0 := selected_off_pathOf hwf M hP hs hl hv (by simpa using hvu)
  refine ⟨h0, ?_⟩
  obtain ⟨m, c⟩ := cur
  have hvP := hchain.key_not_mem_of_off ((hwf.nodup).sublist (keys_subset_of_mem_roots hr)) hl hv
    (by simpa using hvu)
  have hvZ : v.key ∉ muxesOn ((u, cu) :: D) := fun h => hvP (by
    rw [List.map_append, List.map_cons]
    exact List.mem_append_right _ (List.mem_cons_of_mem _ h))
  rw [hclear, unselectAllOf, if_neg hvZ, h0]

/-- Where two paths first differ, `changePath` clears the old path from there
on: from its mux, or from the mux below it when only the channel differs. What
it clears is on the old path, and what of the old path it leaves is the mux the
new path goes on through. -/
theorem changePath_clear {C D : Path} {cur : QsfpMux × Nat} (des : QsfpMux × Nat) (hP : PathOf topo (C ++ cur :: D))
    {s : σ} (hs : ∀ x ∈ topo.muxes, M.selected s x = pathSelection (C ++ cur :: D) x) :
    ∃ Z, M.selected (if cur.1.key ≠ des.1.key then QsfpMux.clear M false cur.1 s
        else clearLayer M false (cur.1.layers.getD cur.2 []) s) = unselectAllOf (M.selected s) Z ∧
      Z ⊆ muxesOn (cur :: D) ∧ ∀ x ∈ muxesOn (cur :: D), x ∉ Z → x = des.1.key := by
  by_cases hkey : cur.1.key ≠ des.1.key
  · -- another mux: clear it
    refine ⟨muxesOn (cur :: D), by rw [if_pos hkey, clear_of_pathOf hwf M hP hs], fun _ h => h,
      fun x hx hxZ => absurd hx hxZ⟩
  rw [if_neg hkey]
  cases D with
  | nil =>
    -- the leaf's mux: nothing behind its channel is selected
    refine ⟨[], by rw [clearLayer_of_pathOf_nil hwf M hP hs, unselectAllOf_nil], List.nil_subset _,
      fun x hx _ => ?_⟩
    simp only [muxesOn_cons, muxesOn_nil, List.mem_singleton] at hx
    exact hx.trans (not_not.mp hkey)
  | cons d D =>
    -- the mux below: its clear unselects the rest of the old path
    have hP' : PathOf topo ((C ++ [cur]) ++ d :: D) := by simpa using hP
    have hs' : ∀ x ∈ topo.muxes, M.selected s x = pathSelection ((C ++ [cur]) ++ d :: D) x := by
      simpa using hs
    refine ⟨muxesOn (d :: D), by rw [clearLayer_of_pathOf_cons hwf M hP hs, clear_of_pathOf hwf M hP' hs'],
      fun x hx => List.mem_cons_of_mem _ hx, fun x hx hxZ => ?_⟩
    rcases List.mem_cons.mp hx with rfl | hx
    · exact not_not.mp hkey
    · exact absurd hx hxZ

/-- After the clearing, `selectPath` of the rest of the new path gives what the
new path asks of every mux. -/
theorem changePath_select {C C' ex nw : Path} (hP : PathOf topo (C ++ ex)) (hP' : PathOf topo (C' ++ nw))
    (hC : channelsOn C = channelsOn C') {s : σ}
    (hs : ∀ x ∈ topo.muxes, M.selected s x = pathSelection (C ++ ex) x) {Z : List Nat} (hZ : Z ⊆ muxesOn ex)
    (hZ' : ∀ x ∈ muxesOn ex, x ∉ Z → x ∈ muxesOn nw) {s' : σ}
    (hs' : M.selected s' = unselectAllOf (M.selected s) Z) :
    ∀ x ∈ topo.muxes, M.selected (selectPath M s' nw) x = pathSelection (C' ++ nw) x := by
  have hnd := hP.nodup hwf
  have hnd' := hP'.nodup hwf
  rw [muxesOn_append, List.nodup_append] at hnd hnd'
  intro x hx
  rw [selectPath_apply M hnd'.2.1]
  by_cases hxnw : x ∈ muxesOn nw
  · rw [if_pos hxnw, pathSelection_append_of_not_mem_left nw fun hxC' => hnd'.2.2 x hxC' x hxnw rfl]
  rw [if_neg hxnw, pathSelection_append_of_not_mem_right C' hxnw, ← pathSelection_congr hC, hs',
    unselectAllOf]
  by_cases hxZ : x ∈ Z
  · -- cleared: `x` was on the old path's tail, so it is on the shared part of neither path
    rw [if_pos hxZ]
    exact (pathSelection_of_not_mem fun hxC => hnd.2.2 x hxC x (hZ hxZ) rfl).symm
  · have hxex : x ∉ muxesOn ex := fun h => hxnw (hZ' x h hxZ)
    rw [if_neg hxZ, hs x hx, pathSelection_append_of_not_mem_right C hxex]

/-- `changePath` from a selection that the old path asks for to one that the
new path asks for, along the suffixes of two paths of one length that share
their prefixes. -/
theorem changePath_of_pathOf {P P' : Path} (hP : PathOf topo P) (hP' : PathOf topo P') {s : σ}
    (hs : ∀ x ∈ topo.muxes, M.selected s x = pathSelection P x) :
    ∀ (ex nw C C' : Path), P = C ++ ex → P' = C' ++ nw → channelsOn C = channelsOn C' →
      ex.length = nw.length → ∀ x ∈ topo.muxes, M.selected (changePath M s ex nw) x = pathSelection P' x
  | [], nw, C, C', hPC, hPC', hC, hlen, x, hx => by
    obtain rfl : nw = [] := List.eq_nil_of_length_eq_zero hlen.symm
    rw [changePath_nil_left, hs x hx, hPC, hPC', List.append_nil, List.append_nil, pathSelection_congr hC]
  | cur :: ex, nw, C, C', hPC, hPC', hC, hlen, x, hx => by
    obtain ⟨des, nw, rfl⟩ := List.exists_cons_of_length_eq_add_one hlen.symm
    rw [changePath]
    by_cases hsame : cur.1.key = des.1.key ∧ cur.2 = des.2
    · -- the paths share this mux and channel
      rw [if_pos hsame]
      refine changePath_of_pathOf hP hP' hs ex nw (C ++ [cur]) (C' ++ [des]) (by simp [hPC])
        (by simp [hPC']) ?_ (by simpa using hlen) x hx
      unfold channelsOn at hC ⊢
      simp [hC, hsame.1, hsame.2]
    · subst hPC hPC'
      rw [if_neg hsame]
      obtain ⟨Z, hZeq, hZ, hZ'⟩ := changePath_clear hwf M des hP hs
      exact changePath_select hwf M hP hP' hC hs hZ
        (fun y hy hyZ => by rw [hZ' y hy hyZ]; exact List.mem_cons_self) hZeq x hx

/-! ### The invariant over runs -/

/-- The invariant of the bus: `selectedPort_` has a path, and every mux of the
bus has what that path asks of it in `selected_`. -/
def Inv (topo : Topology) (b : Bus σ) : Prop :=
  ∃ path, calculatePath topo b.selectedPort = .ok path ∧ ∀ x ∈ topo.muxes, M.selected b.dev x = pathSelection path x

/-- `open()` leaves nothing selected, on no port. -/
theorem inv_open (s : σ) : Inv M topo («open» (initBus M topo s)) := by
  refine ⟨[], rfl, fun x hx => ?_⟩
  have hw : ∀ n ∈ layerNodes topo.roots, n.layers.length ≤ WIDTH := by
    intro n hn
    obtain ⟨r, hr, hn⟩ := mem_layerNodes.mp hn
    exact hwf.narrow r hr n hn
  show M.selected (clearLayer M true topo.roots s) x = 0
  rw [QsfpMux.clearLayer_force M _ _ hw]
  simp [unselectAllOf, show x ∈ layerKeys topo.roots from hx]

/-- `selectQsfpImpl(port)` keeps the invariant, whether it fails or not. -/
theorem selectQsfpImpl_inv {b : Bus σ} (hb : Inv M topo b) (port : Nat) :
    Except.Spec (fun _ => True) (Inv M topo) (selectQsfpImpl M topo b port) := by
  obtain ⟨P, hP, hs⟩ := hb
  unfold selectQsfpImpl
  cases hnew : calculatePath topo port with
  | error e => exact trivial
  | ok P' =>
    rw [Except.ok_bind, hP, Except.ok_bind]
    rcases pathOf_calculatePath hwf hP with rfl | hPo <;>
      rcases pathOf_calculatePath hwf hnew with rfl | hPo'
    · -- no path to leave and none to take
      exact ⟨[], hP, hs⟩
    · -- nothing selected yet: select the new path
      obtain ⟨des, nw, rfl⟩ := List.exists_cons_of_ne_nil hPo'.ne_nil
      refine ⟨des :: nw, hnew, fun x hx => ?_⟩
      show M.selected (selectPath M b.dev (des :: nw)) x = _
      rw [selectPath_apply M (hPo'.nodup hwf)]
      split_ifs with hxP
      · rfl
      · rw [hs x hx, pathSelection_of_not_mem hxP]
        rfl
    · -- unselect: clear the old path from its root
      obtain ⟨cur, D, rfl⟩ := List.exists_cons_of_ne_nil hPo.ne_nil
      refine ⟨[], hnew, fun x hx => ?_⟩
      show M.selected (QsfpMux.clear M false cur.1 b.dev) x = 0
      rw [clear_of_pathOf hwf M (C := []) hPo hs, unselectAllOf]
      split_ifs with hxP
      · rfl
      · rw [hs x hx, pathSelection_of_not_mem hxP]
    · -- from one port to another
      obtain ⟨cur, D, rfl⟩ := List.exists_cons_of_ne_nil hPo.ne_nil
      obtain ⟨des, nw, rfl⟩ := List.exists_cons_of_ne_nil hPo'.ne_nil
      refine ⟨des :: nw, hnew, fun x hx => ?_⟩
      show M.selected (changePath M b.dev (cur :: D) (des :: nw)) x = _
      exact changePath_of_pathOf hwf M hPo hPo' hs _ _ [] [] rfl rfl rfl
        (length_calculatePath hwf hP hnew (List.cons_ne_nil _ _) (List.cons_ne_nil _ _)) x hx

/-- After `open()` and any run of calls, every mux of the bus has what the path
of `selectedPort_` asks of it in `selected_`. -/
theorem inv_run_open (s : σ) (calls : List Call) :
    Inv M topo (run (selectQsfpImpl M topo) («open» (initBus M topo s)) calls) :=
  run_invariant (selectQsfpImpl M topo) (Inv M topo) (fun _ port hb _ => selectQsfpImpl_inv hwf M hb port)
    (inv_open hwf M s) calls

/-- What the invariant says of the muxes: those on the path of `selectedPort_`
have its channel selected, and they are the only ones with anything selected. -/
theorem Inv.selected {b : Bus σ} (hb : Inv M topo b) :
    ∃ path, calculatePath topo b.selectedPort = .ok path ∧
      (∀ mc ∈ path, M.selected b.dev mc.1.key = channelBit mc.2) ∧
      ∀ x ∈ topo.muxes, M.selected b.dev x ≠ 0 ↔ x ∈ muxesOn path := by
  obtain ⟨path, hpath, hs⟩ := hb
  refine ⟨path, hpath, ?_⟩
  rcases pathOf_calculatePath hwf hpath with rfl | hP
  · exact ⟨fun _ h => absurd h List.not_mem_nil, fun x hx => by simp [hs x hx, pathSelection]⟩
  have hon : ∀ mc ∈ path, M.selected b.dev mc.1.key = channelBit mc.2 := fun mc hmc => by
    rw [hs _ (hP.muxesOn_subset (List.mem_map_of_mem hmc)), pathSelection_of_mem (hP.nodup hwf) hmc]
  refine ⟨hon, fun x hx => ⟨fun h => ?_, fun h => ?_⟩⟩
  · by_contra hxP
    exact h (by rw [hs x hx, pathSelection_of_not_mem hxP])
  · obtain ⟨mc, hmc, rfl⟩ := List.mem_map.mp h
    rw [hon mc hmc]
    exact channelBit_ne_zero mc.2 (hP.channel_lt mc hmc)

/-- `calculatePath` of a port wired to a mux of the bus gives a path of the bus. -/
theorem calculatePath_of_wired {port : Nat} (hport : 0 < port) {leaf : Nat × Nat}
    (hleaf : topo.leaves[port - 1]? = some leaf) (hmux : leaf.1 ∈ topo.muxes) :
    ∃ path, calculatePath topo port = .ok path ∧ PathOf topo path := by
  obtain ⟨path, hp⟩ := Option.isSome_iff_exists.mp (isSome_layerPathTo (c := leaf.2) topo.roots hmux)
  have hcalc : calculatePath topo port = .ok path := by
    obtain ⟨mux, channel⟩ := leaf
    unfold calculatePath
    rw [if_neg (show port ≠ NO_PORT by unfold NO_PORT; omega), hleaf]
    simp only at hp
    simp only [hp]
    rfl
  rcases pathOf_calculatePath hwf hcalc with rfl | hP
  · obtain ⟨r, -, hr, -⟩ := chain_of_layerPathTo topo.roots hp
    obtain ⟨c, P, he⟩ := hr.exists_eq_cons
    cases he
  · exact ⟨path, hcalc, hP⟩

/-- `selectQsfp(port)` of a port wired to a mux of the bus succeeds, and the bus
then has the port selected. -/
theorem selectQsfp_wired_port {b : Bus σ} (hb : Inv M topo b) {port : Nat} (hport : 0 < port)
    {leaf : Nat × Nat} (hleaf : topo.leaves[port - 1]? = some leaf) (hmux : leaf.1 ∈ topo.muxes) :
    ∃ b', selectQsfp (selectQsfpImpl M topo) b port = .ok b' ∧ b'.selectedPort = port ∧ Inv M topo b' := by
  unfold selectQsfp
  rw [if_neg (by omega)]
  by_cases hsame : port ≠ b.selectedPort
  swap
  · rw [if_neg hsame]
    exact ⟨b, rfl, (not_not.mp hsame).symm, hb⟩
  rw [if_pos hsame]
  obtain ⟨path, hnew, hP⟩ := calculatePath_of_wired hwf hport hleaf hmux
  obtain ⟨P, hold, hs⟩ := hb
  obtain ⟨des, nw, rfl⟩ := List.exists_cons_of_ne_nil hP.ne_nil
  -- the new path is not empty, so every branch of the match selects the port
  have himpl : ∃ dev, selectQsfpImpl M topo b port = .ok ⟨dev, port⟩ := by
    unfold selectQsfpImpl
    rw [hnew, Except.ok_bind, hold, Except.ok_bind]
    cases P with
    | nil => exact ⟨_, rfl⟩
    | cons cur D => exact ⟨_, rfl⟩
  obtain ⟨dev, himpl⟩ := himpl
  exact ⟨⟨dev, port⟩, himpl, rfl, (selectQsfpImpl_inv hwf M ⟨P, hold, hs⟩ port).of_eq_ok himpl⟩

/-- `unselectQsfp()` succeeds and leaves no mux of the bus with anything
selected. -/
theorem unselectQsfp_clears_every_mux {b : Bus σ} (hb : Inv M topo b) :
    ∃ b', unselectQsfp (selectQsfpImpl M topo) b = .ok b' ∧ b'.selectedPort = NO_PORT ∧
      ∀ x ∈ topo.muxes, M.selected b'.dev x = 0 := by
  have hclear : ∀ b', Inv M topo b' → b'.selectedPort = NO_PORT → ∀ x ∈ topo.muxes, M.selected b'.dev x = 0 := by
    intro b' hb' hport x hx
    obtain ⟨P, hP, hs⟩ := hb'
    rw [hport] at hP
    obtain rfl : P = [] := (Except.ok.inj hP).symm
    exact hs x hx
  unfold unselectQsfp
  by_cases hsel : b.selectedPort ≠ NO_PORT
  swap
  · rw [if_neg hsel]
    exact ⟨b, rfl, not_not.mp hsel, hclear b hb (not_not.mp hsel)⟩
  rw [if_pos hsel]
  obtain ⟨P, hold, hs⟩ := hb
  -- the old path is not empty, so `selectQsfpImpl(NO_PORT)` clears it from its root
  obtain ⟨cur, D, rfl⟩ : ∃ cur D, P = cur :: D := by
    rcases pathOf_calculatePath hwf hold with rfl | hP
    · rcases calculatePath_ok hold with ⟨h0, -⟩ | ⟨leaf, -, hp⟩
      · exact absurd h0 hsel
      · obtain ⟨r, -, hr, -⟩ := chain_of_layerPathTo topo.roots hp
        obtain ⟨c, P, he⟩ := hr.exists_eq_cons
        cases he
    · exact List.exists_cons_of_ne_nil hP.ne_nil
  have himpl : selectQsfpImpl M topo b NO_PORT = .ok ⟨QsfpMux.clear M false cur.1 b.dev, NO_PORT⟩ := by
    unfold selectQsfpImpl
    rw [show calculatePath topo NO_PORT = .ok [] from rfl, Except.ok_bind, hold, Except.ok_bind]
    rfl
  exact ⟨_, himpl, rfl,
    hclear _ ((selectQsfpImpl_inv hwf M ⟨_, hold, hs⟩ NO_PORT).of_eq_ok himpl) rfl⟩

end WellFormed

end PCA9548MuxedBus

end Fboss
