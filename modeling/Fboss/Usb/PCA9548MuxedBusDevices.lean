import Fboss.Usb.PCA9548MuxedBus

/-!
# What the writes of a muxed bus reach

`PCA9548::commit(selector)` sets `selected_` and writes the byte over the
CP2112 to the I2C address `address_ << 1`. The write reaches the roots of the
tree of muxes and, behind each mux it reaches, the muxes of every channel that
mux's control register connects (`Topology.reached`); each mux it reaches that
answers at the address takes the byte into its register (`Topology.writeByte`).
A `State` holds `selected_` and the register of every mux, both by key, and
`Topology.hardware` is `commit` on it, so the code of `PCA9548MuxedBus` runs
over it unchanged.

The registers hold anything when the bus is opened. Two muxes that a write can
reach at once must answer at different addresses (`Topology.Addressed`): the
roots, and the layer behind each mux of a chain from a root on its channel,
while that chain is selected. On a well-formed bus addressed so, the writes of
`ensureNothingSelected()` leave every register 0 (`synced_initBus`). While
`selected_` holds a chain from a root, a write of the code to a mux the chain
makes visible reaches that mux and no other (`registers_commit`); so every
call keeps every register at what `selected_` says, and the muxes a write
reaches are the roots and the layers behind the path of `selectedPort_`
(`devInv_run_open`, `DevInv.reached`).

`ensureNothingSelected()` is followed through the trees it clears: the muxes
not written since `open()` are the nodes of a list of `fresh` trees, whose
registers are unknown, and a write reaches a mux outside them only if the
code writes to that mux.
-/

open LayeredTree

namespace Fboss

namespace PCA9548MuxedBus

open BaseWedgeI2CBus PCA9548 PCA9548Helpers

/-! ### The devices -/

/-- The muxes of a bus as they are: the `selected_` byte the code keeps for
each mux and the control register of each device, both by key. -/
structure State where
  selected : Selection
  registers : Selection

/-- What `open()` starts from: `selected_` is 0 in every mux object, and the
registers hold whatever they hold. -/
def State.init (registers : Selection) : State :=
  ⟨fun _ => 0, registers⟩

/-- The muxes a write on the bus reaches: the roots, and behind each mux it
reaches, the muxes of every channel its register connects. -/
def Topology.reached (topo : Topology) (registers : Selection) : List QsfpMux :=
  reachLayer (fun mux channel => isSelected (registers mux) channel) topo.roots

/-- `dev_->writeByte(addr, value)`: every mux the write reaches that answers at
`addr` takes `value` into its register. -/
def Topology.writeByte (topo : Topology) (registers : Selection) (addr value : UInt8) : Selection :=
  fun x => if x ∈ ((topo.reached registers).filter fun n => topo.address n.key <<< 1 = addr).map key then value
    else registers x

/-- The muxes of the bus as `PCA9548::commit(selector)` drives them: the byte
goes to `address_ << 1`, and `selected_` is set. -/
def Topology.hardware (topo : Topology) : Muxes State where
  selected := State.selected
  commit st mux selector :=
    ⟨Function.update st.selected mux selector, topo.writeByte st.registers (topo.address mux <<< 1) selector⟩
  selected_commit _ _ _ := rfl

@[simp] theorem hardware_selected (topo : Topology) (st : State) : topo.hardware.selected st = st.selected :=
  rfl

/-- The muxes a write reaches while the chain `C` is selected and nothing else:
the roots, and the layer behind each mux of `C` on its channel. -/
def Topology.visible (topo : Topology) (C : Path) : List QsfpMux :=
  topo.roots ++ C.flatMap fun mc => mc.1.layers.getD mc.2 []

/-- No two muxes that a write can reach at once answer at one address: for
every chain from a root, the muxes visible while it is selected. -/
def Topology.Addressed (topo : Topology) : Prop :=
  ∀ C : Path, (C = [] ∨ ∃ r ∈ topo.roots, Chain r C) →
    ∀ u ∈ topo.visible C, ∀ v ∈ topo.visible C, topo.address u.key <<< 1 = topo.address v.key <<< 1 →
      u.key = v.key

theorem visible_subset_visible (topo : Topology) (C D : Path) : topo.visible C ⊆ topo.visible (C ++ D) := by
  intro u hu
  rcases List.mem_append.mp hu with hu | hu
  · exact List.mem_append_left _ hu
  · exact List.mem_append_right _ (by rw [List.flatMap_append]; exact List.mem_append_left _ hu)

/-- The muxes visible along a chain from a root are muxes of the bus. -/
theorem visible_subset {topo : Topology} {C : Path} (hC : C = [] ∨ ∃ r ∈ topo.roots, Chain r C) :
    ∀ u ∈ topo.visible C, u ∈ layerNodes topo.roots := by
  intro u hu
  rcases List.mem_append.mp hu with hu | hu
  · exact (nodes_sublist_layerNodes hu).subset u.mem_nodes_self
  obtain ⟨mc, hmc, hu⟩ := List.mem_flatMap.mp hu
  rcases hC with rfl | ⟨r, hr, hchain⟩
  · exact absurd hmc List.not_mem_nil
  obtain ⟨l, hl, hul⟩ := QsfpMux.mem_of_mem_getD hu
  have hmc_r : mc.1 ∈ r.nodes := (hchain.nodes_sublist mc hmc).subset mc.1.mem_nodes_self
  exact (nodes_sublist_layerNodes hr).subset (mem_nodes_of_mem_layer hmc_r (List.mem_of_getElem? hl) hul)

/-- A bus whose muxes all answer at different addresses is addressed. -/
theorem Topology.addressed_of_injective {topo : Topology}
    (h : ∀ x ∈ topo.muxes, ∀ y ∈ topo.muxes, topo.address x <<< 1 = topo.address y <<< 1 → x = y) :
    topo.Addressed := fun _ hC u hu v hv he =>
  h _ (List.mem_map_of_mem (visible_subset hC u hu)) _ (List.mem_map_of_mem (visible_subset hC v hv)) he

/-! ### Selected channels -/

theorem channelBit_of_le {c : Nat} (hc : WIDTH ≤ c) : channelBit c = 0 := by
  obtain ⟨k, rfl⟩ := Nat.exists_eq_add_of_le hc
  apply UInt8.toNat.inj
  simp [channelBit, WIDTH, Nat.shiftLeft_eq, Nat.pow_add]

theorem isSelected_zero (c : Nat) : isSelected 0 c = false := by
  simp [isSelected]

theorem isSelected_channelBit_of_lt : ∀ a, a < WIDTH → ∀ c, c < WIDTH →
    (isSelected (channelBit a) c = true ↔ c = a) := by
  decide

/-- The byte of one channel connects that channel alone. -/
theorem isSelected_channelBit_iff {a : Nat} (ha : a < WIDTH) (c : Nat) :
    isSelected (channelBit a) c = true ↔ c = a := by
  by_cases hc : c < WIDTH
  · exact isSelected_channelBit_of_lt a ha c hc
  · have h0 : isSelected (channelBit a) c = false := by
      simp [isSelected, channelBit_of_le (Nat.le_of_not_lt hc)]
    rw [h0]
    simp only [Bool.false_eq_true, false_iff]
    omega

/-- A channel that the selection of a path connects at a mux is the path's
channel at that mux. -/
theorem isSelected_pathSelection {C : Path} (hC : ∀ mc ∈ C, mc.2 < WIDTH) {x c : Nat}
    (h : isSelected (pathSelection C x) c = true) : ∃ mc ∈ C, mc.1.key = x ∧ mc.2 = c := by
  induction C with
  | nil => simp [pathSelection, isSelected_zero] at h
  | cons mc C ih =>
    rw [pathSelection] at h
    split_ifs at h with hx
    · exact ⟨mc, List.mem_cons_self, hx, ((isSelected_channelBit_iff (hC mc List.mem_cons_self) c).mp h).symm⟩
    · obtain ⟨mc', hmc', hk, hc⟩ := ih (fun q hq => hC q (List.mem_cons_of_mem _ hq)) h
      exact ⟨mc', List.mem_cons_of_mem _ hmc', hk, hc⟩

/-! ### Paths and what they make visible -/

theorem PathOf.left {topo : Topology} {C D : Path} (hP : PathOf topo (C ++ D)) (hC : C ≠ []) :
    PathOf topo C := by
  obtain ⟨r, hr, hchain⟩ := hP.root
  exact ⟨⟨r, hr, hchain.left_of_append hC⟩, fun mc hmc => hP.channel_lt mc (List.mem_append_left _ hmc)⟩

theorem PathOf.init {topo : Topology} {C D : Path} (hP : PathOf topo (C ++ D)) :
    C = [] ∨ PathOf topo C := by
  by_cases hC : C = []
  · exact .inl hC
  · exact .inr (hP.left hC)

theorem PathOf.set_last {topo : Topology} {C : Path} {m : QsfpMux} {c c' : Nat}
    (hP : PathOf topo (C ++ [(m, c)])) (hc' : c' < WIDTH) : PathOf topo (C ++ [(m, c')]) := by
  obtain ⟨r, hr, hchain⟩ := hP.root
  refine ⟨⟨r, hr, hchain.set_last⟩, fun mc hmc => ?_⟩
  rcases List.mem_append.mp hmc with hmc | hmc
  · exact hP.channel_lt mc (List.mem_append_left _ hmc)
  · rw [List.mem_singleton.mp hmc]
    exact hc'

/-- A path goes on into any mux of the layer its last mux is left by. -/
theorem PathOf.snoc {topo : Topology} {C : Path} {m u : QsfpMux} {c : Nat} {l : List QsfpMux}
    (hP : PathOf topo (C ++ [(m, c)])) (hl : m.layers[c]? = some l) (hu : u ∈ l) :
    PathOf topo ((C ++ [(m, c)]) ++ [(u, 0)]) := by
  obtain ⟨r, hr, hchain⟩ := hP.root
  refine ⟨⟨r, hr, by simpa using hchain.snoc hl hu⟩, fun mc hmc => ?_⟩
  rcases List.mem_append.mp hmc with hmc | hmc
  · exact hP.channel_lt mc hmc
  · rw [List.mem_singleton.mp hmc]
    show 0 < WIDTH
    decide

/-- The mux a path goes on to past `C` is visible along `C`. -/
theorem PathOf.mem_visible {topo : Topology} {C D : Path} {q : QsfpMux × Nat} (hP : PathOf topo (C ++ q :: D)) :
    q.1 ∈ topo.visible C := by
  obtain ⟨r, hr, hchain⟩ := hP.root
  by_cases hC : C = []
  · subst hC
    obtain ⟨c, P, he⟩ := hchain.exists_eq_cons
    obtain ⟨rfl, -⟩ := List.cons_eq_cons.mp he
    exact List.mem_append_left _ hr
  · exact List.mem_append_right _ (hchain.mem_layers_of_append hC)

section WellFormed

variable {topo : Topology} (hwf : topo.WellFormed)
include hwf

/-- In a well-formed bus a mux is named by its key. -/
theorem eq_of_key_eq {n n' : QsfpMux} (hn : n ∈ layerNodes topo.roots) (hn' : n' ∈ layerNodes topo.roots)
    (h : n.key = n'.key) : n = n' :=
  List.inj_on_of_nodup_map hwf.nodup hn hn' h

theorem PathOf.key_not_mem {C D : Path} {q : QsfpMux × Nat} (hP : PathOf topo (C ++ q :: D)) :
    q.1.key ∉ muxesOn C := by
  have hnd := hP.nodup hwf
  rw [muxesOn_append, List.nodup_append] at hnd
  exact fun h => hnd.2.2 _ h _ (List.mem_cons_self) rfl

/-! ### What `selected_` holds, and what the registers hold -/

/-- `selected_` holds the chain `C` from a root: the channel of `C` at each of
its muxes, and nothing at any other mux of the bus. -/
structure Selects (topo : Topology) (C : Path) (st : State) : Prop where
  path : C = [] ∨ PathOf topo C
  selected : ∀ x ∈ topo.muxes, st.selected x = pathSelection C x

/-- The registers agree with `selected_` but at the muxes of the trees `fresh`,
not written since `open()`: trees of the bus with no mux in common, none of
whose muxes is on the chain `C`. -/
structure Agrees (topo : Topology) (fresh : List QsfpMux) (C : Path) (st : State) : Prop where
  registers : ∀ x ∈ topo.muxes, (∀ u ∈ fresh, x ∉ u.keys) → st.registers x = st.selected x
  fresh_mem : ∀ u ∈ fresh, u ∈ layerNodes topo.roots
  nodup : (fresh.flatMap keys).Nodup
  off_chain : ∀ mc ∈ C, ∀ u ∈ fresh, mc.1.key ∉ u.keys

/-- Every register holds what `selected_` says. -/
def Synced (topo : Topology) (st : State) : Prop :=
  ∀ x ∈ topo.muxes, st.registers x = st.selected x

omit hwf in
theorem Agrees.synced {C : Path} {st : State} (hA : Agrees topo [] C st) : Synced topo st :=
  fun x hx => hA.registers x hx (by simp)

omit hwf in
theorem Synced.agrees {C : Path} {st : State} (h : Synced topo st) : Agrees topo [] C st :=
  ⟨fun x hx _ => h x hx, by simp, by simp, by simp⟩

omit hwf in
theorem Selects.chain {C : Path} {st : State} (hS : Selects topo C st) : C = [] ∨ ∃ r ∈ topo.roots, Chain r C :=
  hS.path.imp id PathOf.root

omit hwf in
theorem Selects.channel_lt {C : Path} {st : State} (hS : Selects topo C st) : ∀ mc ∈ C, mc.2 < WIDTH := by
  rcases hS.path with rfl | hP
  · exact fun _ h => absurd h List.not_mem_nil
  · exact hP.channel_lt

omit hwf in
theorem Selects.mem_layerNodes {C : Path} {st : State} (hS : Selects topo C st) :
    ∀ mc ∈ C, mc.1 ∈ layerNodes topo.roots := by
  intro mc hmc
  rcases hS.chain with rfl | ⟨r, hr, hchain⟩
  · exact absurd hmc List.not_mem_nil
  · exact (nodes_sublist_layerNodes hr).subset ((hchain.nodes_sublist mc hmc).subset mc.1.mem_nodes_self)

/-- A write of the code selects a channel at the mux a path goes on to past `C`;
away from that mux, `selected_` held `C`. -/
theorem selects_commit_channelBit {C : Path} {m : QsfpMux} {c : Nat} (hP : PathOf topo (C ++ [(m, c)]))
    {st : State} (hsel : ∀ x ∈ topo.muxes, x ≠ m.key → st.selected x = pathSelection C x) :
    Selects topo (C ++ [(m, c)]) (topo.hardware.commit st m.key (channelBit c)) := by
  refine ⟨.inr hP, fun x hx => ?_⟩
  show Function.update st.selected m.key (channelBit c) x = _
  rw [pathSelection_append_singleton c (hP.key_not_mem hwf (D := []))]
  by_cases hxm : x = m.key
  · rw [hxm, Function.update_self, Function.update_self]
  · rw [Function.update_of_ne hxm, Function.update_of_ne hxm, hsel x hx hxm]

omit hwf in
/-- A write of the code unselects a mux off the chain `C`; away from that mux,
`selected_` held `C`. -/
theorem selects_commit_zero {C : Path} (hC : C = [] ∨ PathOf topo C) {m : QsfpMux} (hm : m.key ∉ muxesOn C)
    {st : State} (hsel : ∀ x ∈ topo.muxes, x ≠ m.key → st.selected x = pathSelection C x) :
    Selects topo C (topo.hardware.commit st m.key 0) := by
  refine ⟨hC, fun x hx => ?_⟩
  show Function.update st.selected m.key 0 x = _
  by_cases hxm : x = m.key
  · rw [hxm, Function.update_self, pathSelection_of_not_mem hm]
  · rw [Function.update_of_ne hxm, hsel x hx hxm]

omit hwf in
theorem Selects.off_last {C : Path} {m : QsfpMux} {c : Nat} {st : State} (hS : Selects topo (C ++ [(m, c)]) st) :
    ∀ x ∈ topo.muxes, x ≠ m.key → st.selected x = pathSelection C x := by
  intro x hx hxm
  rw [hS.selected x hx, pathSelection_append_of_not_mem_right C (by simpa using hxm)]

/-- Unselecting the last mux of the chain `selected_` holds. -/
theorem Selects.unselect_last {C : Path} {m : QsfpMux} {c : Nat} {st : State}
    (hS : Selects topo (C ++ [(m, c)]) st) : Selects topo C (topo.hardware.commit st m.key 0) := by
  have hP : PathOf topo (C ++ [(m, c)]) := hS.path.resolve_left (by simp)
  exact selects_commit_zero hP.init (hP.key_not_mem hwf (D := [])) hS.off_last

/-! ### Where a write goes -/

/-- A write reaches only muxes of the fresh trees and muxes visible along the
chain `selected_` holds. -/
theorem reached_subset {fresh : List QsfpMux} {C : Path} {st : State} (hA : Agrees topo fresh C st)
    (hS : Selects topo C st) :
    ∀ n ∈ topo.reached st.registers, (∃ u ∈ fresh, n ∈ u.nodes) ∨ n ∈ topo.visible C := by
  intro n hn
  refine reachLayer_closed (S := fun n => (∃ u ∈ fresh, n ∈ u.nodes) ∨ n ∈ topo.visible C)
    (fun n c l v hn hc hl hv => ?_) topo.roots (fun r hr => .inr (List.mem_append_left _ hr)) n hn
  rcases hn with ⟨u, hu, hnu⟩ | hn
  · exact .inl ⟨u, hu, mem_nodes_of_mem_layer hnu (List.mem_of_getElem? hl) hv⟩
  have hnb := visible_subset hS.chain n hn
  by_cases hfr : ∃ u ∈ fresh, n.key ∈ u.keys
  · -- a mux of a fresh tree: the muxes below it are fresh too
    obtain ⟨u, hu, hk⟩ := hfr
    obtain ⟨n', hn', hk'⟩ := List.mem_map.mp hk
    have hn'b : n' ∈ layerNodes topo.roots :=
      (nodes_sublist_of_mem_layerNodes _ (hA.fresh_mem u hu)).subset hn'
    obtain rfl := eq_of_key_eq hwf hn'b hnb hk'
    exact .inl ⟨u, hu, mem_nodes_of_mem_layer hn' (List.mem_of_getElem? hl) hv⟩
  · -- any other mux: its register is its `selected_`, so it is on `C` with this channel
    simp only [not_exists, not_and] at hfr
    have hkey : n.key ∈ topo.muxes := List.mem_map_of_mem hnb
    rw [hA.registers n.key hkey hfr, hS.selected n.key hkey] at hc
    obtain ⟨mc, hmc, hk, rfl⟩ := isSelected_pathSelection hS.channel_lt hc
    obtain rfl := eq_of_key_eq hwf (hS.mem_layerNodes mc hmc) hnb hk
    refine .inr (List.mem_append_right _ (List.mem_flatMap.mpr ⟨mc, hmc, ?_⟩))
    rwa [List.getD_eq_getElem?_getD, hl, Option.getD_some]

/-- Every mux visible along the chain `selected_` holds is reached. -/
theorem visible_reached {fresh : List QsfpMux} {C : Path} {st : State} (hA : Agrees topo fresh C st)
    (hS : Selects topo C st) : ∀ n ∈ topo.visible C, n ∈ topo.reached st.registers := by
  intro n hn
  rcases List.mem_append.mp hn with hn | hn
  · exact mem_reachLayer_of_mem _ hn
  obtain ⟨mc, hmc, hnl⟩ := List.mem_flatMap.mp hn
  rcases hS.path with rfl | hP
  · exact absurd hmc List.not_mem_nil
  obtain ⟨r, hr, hchain⟩ := hP.root
  -- every mux of `C` has its channel connected
  have hopen : ∀ p ∈ C, isSelected (st.registers p.1.key) p.2 = true := by
    intro p hp
    have hkey : p.1.key ∈ topo.muxes := hP.muxesOn_subset (List.mem_map_of_mem hp)
    rw [hA.registers _ hkey (hA.off_chain p hp), hS.selected _ hkey, pathSelection_of_mem (hP.nodup hwf) hp]
    exact isSelected_channelBit p.2 (hP.channel_lt p hp)
  exact reach_subset_reachLayer _ hr (hchain.reach_of_through _ hopen mc hmc n hnl)

/-- A write of the code to a mux visible along the chain `selected_` holds
reaches that mux, and no other mux of the bus outside the fresh trees. -/
theorem registers_commit (hadr : topo.Addressed) {fresh : List QsfpMux} {C : Path} {st : State}
    (hA : Agrees topo fresh C st) (hS : Selects topo C st) {m : QsfpMux} (hm : m ∈ topo.visible C)
    (v : UInt8) {x : Nat} (hxf : x = m.key ∨ ∀ u ∈ fresh, x ∉ u.keys) :
    (topo.hardware.commit st m.key v).registers x = if x = m.key then v else st.registers x := by
  show topo.writeByte st.registers (topo.address m.key <<< 1) v x = _
  unfold Topology.writeByte
  by_cases hxm : x = m.key
  · subst hxm
    rw [if_pos rfl, if_pos (List.mem_map_of_mem (List.mem_filter.mpr ⟨visible_reached hwf hA hS m hm, by simp⟩))]
  · rw [if_neg hxm, if_neg]
    intro hmem
    obtain ⟨n, hn, rfl⟩ := List.mem_map.mp hmem
    obtain ⟨hnr, hna⟩ := List.mem_filter.mp hn
    rcases reached_subset hwf hA hS n hnr with ⟨u, hu, hnu⟩ | hnv
    · exact hxf.resolve_left hxm u hu (List.mem_map_of_mem hnu)
    · exact hxm (hadr C hS.chain n hnv m hm (of_decide_eq_true hna))

/-- A write of the code to a visible mux off the fresh trees keeps every
register in step, along `C` or along `C` and that mux. -/
theorem Agrees.commit (hadr : topo.Addressed) {fresh : List QsfpMux} {C C' : Path} {st : State}
    (hA : Agrees topo fresh C st) (hS : Selects topo C st) {m : QsfpMux} (hm : m ∈ topo.visible C)
    (hmf : ∀ u ∈ fresh, m.key ∉ u.keys) (v : UInt8) (hC' : ∀ mc ∈ C', mc ∈ C ∨ mc.1.key = m.key) :
    Agrees topo fresh C' (topo.hardware.commit st m.key v) where
  registers x hx hxf := by
    rw [registers_commit hwf hadr hA hS hm v (.inr hxf)]
    show _ = Function.update st.selected m.key v x
    by_cases hxm : x = m.key
    · rw [if_pos hxm, hxm, Function.update_self]
    · rw [if_neg hxm, Function.update_of_ne hxm, hA.registers x hx hxf]
  fresh_mem := hA.fresh_mem
  nodup := hA.nodup
  off_chain mc hmc u hu := by
    rcases hC' mc hmc with hmc | hk
    · exact hA.off_chain mc hmc u hu
    · rw [hk]
      exact hmf u hu

/-- With nothing fresh: a write of the code to a visible mux keeps every
register at what `selected_` says. -/
theorem Synced.commit (hadr : topo.Addressed) {C : Path} {st : State} (hsync : Synced topo st)
    (hS : Selects topo C st) {m : QsfpMux} (hm : m ∈ topo.visible C) (v : UInt8) :
    Synced topo (topo.hardware.commit st m.key v) :=
  have hA : Agrees topo [] C (topo.hardware.commit st m.key v) :=
    hsync.agrees.commit hwf hadr hS hm (by simp) v fun mc hmc => .inl hmc
  hA.synced

/-! ### The fresh trees -/

omit hwf in
/-- Taking a tree out of the fresh trees and putting the trees of its layers
in takes out its root's key alone. -/
theorem not_mem_keys_of_unfold {A B : List QsfpMux} {m : QsfpMux} {x : Nat} (hxm : x ≠ m.key)
    (hx : ∀ u ∈ A ++ m.layers.flatten ++ B, x ∉ u.keys) : ∀ u ∈ A ++ m :: B, x ∉ u.keys := by
  intro u hu hxu
  rcases List.mem_append.mp hu with hu | hu
  · exact hx u (by simp [hu]) hxu
  rcases List.mem_cons.mp hu with rfl | hu
  · rw [keys_eq, List.mem_cons, ← flatten_flatMap_keys] at hxu
    obtain ⟨v, hv, hxv⟩ := List.mem_flatMap.mp (hxu.resolve_left hxm)
    exact hx v (by simp [hv]) hxv
  · exact hx u (by simp [hu]) hxu

omit hwf in
theorem nodup_unfold {A B : List QsfpMux} {m : QsfpMux} (h : ((A ++ m :: B).flatMap keys).Nodup) :
    ((A ++ m.layers.flatten ++ B).flatMap keys).Nodup := by
  rw [List.flatMap_append, List.flatMap_cons, keys_eq] at h
  rw [List.flatMap_append, List.flatMap_append, flatten_flatMap_keys, List.append_assoc]
  exact List.Nodup.sublist ((List.sublist_cons_self _ _).append_left _) h

omit hwf in
/-- The root of a fresh tree is in no other fresh tree, nor below itself. -/
theorem key_not_mem_of_unfold {A B : List QsfpMux} {m : QsfpMux} (h : ((A ++ m :: B).flatMap keys).Nodup) :
    ∀ u ∈ A ++ m.layers.flatten ++ B, m.key ∉ u.keys := by
  rw [List.flatMap_append, List.flatMap_cons, List.nodup_append, List.nodup_append] at h
  obtain ⟨-, ⟨hm, -, hmB⟩, hA⟩ := h
  intro u hu hmu
  simp only [List.mem_append] at hu
  rcases hu with (hu | hu) | hu
  · exact hA m.key (List.mem_flatMap.mpr ⟨u, hu, hmu⟩) m.key (List.mem_append_left _ m.key_mem_keys) rfl
  · obtain ⟨l, hl, hul⟩ := List.mem_flatten.mp hu
    exact (nodup_keys_of_mem_layer hm hl hul).2 hmu
  · exact hmB m.key m.key_mem_keys m.key (List.mem_flatMap.mpr ⟨u, hu, hmu⟩) rfl

/-- A first write of the code to the root `m` of a fresh tree: the trees of its
layers stay fresh, and every other register stays in step. -/
theorem Agrees.commit_fresh (hadr : topo.Addressed) {A B : List QsfpMux} {m : QsfpMux} {C C' : Path}
    {st : State} (hA : Agrees topo (A ++ m :: B) C st) (hS : Selects topo C st) (hm : m ∈ topo.visible C)
    (v : UInt8) (hC' : ∀ mc ∈ C', mc ∈ C ∨ mc.1.key = m.key) :
    Agrees topo (A ++ m.layers.flatten ++ B) C' (topo.hardware.commit st m.key v) where
  registers x hx hxf := by
    show _ = Function.update st.selected m.key v x
    by_cases hxm : x = m.key
    · rw [registers_commit hwf hadr hA hS hm v (.inl hxm), if_pos hxm, hxm, Function.update_self]
    · have hxf' := not_mem_keys_of_unfold hxm hxf
      rw [registers_commit hwf hadr hA hS hm v (.inr hxf'), if_neg hxm, Function.update_of_ne hxm,
        hA.registers x hx hxf']
  fresh_mem u hu := by
    have hmb := hA.fresh_mem m (by simp)
    simp only [List.mem_append] at hu
    rcases hu with (hu | hu) | hu
    · exact hA.fresh_mem u (by simp [hu])
    · obtain ⟨l, hl, hul⟩ := List.mem_flatten.mp hu
      exact (nodes_sublist_of_mem_layerNodes _ hmb).subset (mem_nodes_of_mem_layer m.mem_nodes_self hl hul)
    · exact hA.fresh_mem u (by simp [hu])
  nodup := nodup_unfold hA.nodup
  off_chain mc hmc u hu := by
    rcases hC' mc hmc with hmc | hk
    · -- a mux of `C` is in no fresh tree, and the new fresh trees lie in `m`
      intro hmu
      simp only [List.mem_append] at hu
      rcases hu with (hu | hu) | hu
      · exact hA.off_chain mc hmc u (by simp [hu]) hmu
      · obtain ⟨l, hl, hul⟩ := List.mem_flatten.mp hu
        exact hA.off_chain mc hmc m (by simp) (keys_subset_of_mem_layer hl hul hmu)
      · exact hA.off_chain mc hmc u (by simp [hu]) hmu
    · rw [hk]
      exact key_not_mem_of_unfold hA.nodup u hu

/-! ### Each call keeps the registers in step -/

/-- `selectPath` of the rest of a path whose head `selected_` holds. -/
theorem synced_selectPath (hadr : topo.Addressed) :
    ∀ (N C : Path) {st : State}, PathOf topo (C ++ N) → Synced topo st → Selects topo C st →
      Synced topo (selectPath topo.hardware st N) ∧ Selects topo (C ++ N) (selectPath topo.hardware st N)
  | [], C, st, _, hsync, hS => by
    rw [List.append_nil]
    exact ⟨hsync, hS⟩
  | (m, c) :: N, C, st, hP, hsync, hS => by
    have hP' : PathOf topo ((C ++ [(m, c)]) ++ N) := by simpa using hP
    rw [selectPath, List.foldl_cons, ← selectPath]
    -- the write selects `c` at `m`, which the chain so far makes visible
    have h := synced_selectPath hadr N (C ++ [(m, c)]) hP' (hsync.commit hwf hadr hS hP.mem_visible _)
      (selects_commit_channelBit hwf (hP'.left (by simp)) fun x hx _ => hS.selected x hx)
    rw [List.append_assoc, List.singleton_append] at h
    exact h

/-- `QsfpMux::clear()` of a mux of the path `selected_` holds: the muxes below
it on the path are cleared first, then the mux itself. -/
theorem synced_clear_of_pathOf (hadr : topo.Addressed) :
    ∀ (D C : Path) (q : QsfpMux × Nat) {st : State}, Synced topo st → Selects topo (C ++ q :: D) st →
      Synced topo (QsfpMux.clear topo.hardware false q.1 st)
  | D, C, q, st, hsync, hS => by
    have hP : PathOf topo (C ++ q :: D) := hS.path.resolve_left (by simp)
    have hq : topo.hardware.selected st q.1.key = channelBit q.2 := by
      rw [hardware_selected, hS.selected _ (hP.muxesOn_subset (by simp)),
        pathSelection_of_mem (hP.nodup hwf) (by simp)]
    have hvis : q.1 ∈ topo.visible (C ++ [q]) := visible_subset_visible topo C _ hP.mem_visible
    rw [QsfpMux.clear_of_channelBit _ hq (hP.channel_lt q (by simp))]
    cases D with
    | nil =>
      -- the last mux of the path: nothing behind its channel is selected
      rw [clearLayer_of_pathOf_nil hwf _ hP hS.selected]
      exact hsync.commit hwf hadr hS hvis 0
    | cons d D =>
      -- the next mux of the path clears the rest of it first
      have hS' : Selects topo ((C ++ [q]) ++ d :: D) st := by simpa using hS
      have hP' : PathOf topo ((C ++ [q]) ++ d :: D) := by simpa using hP
      rw [clearLayer_of_pathOf_cons hwf _ hP hS.selected]
      have hS'' : Selects topo (C ++ [q]) (QsfpMux.clear topo.hardware false d.1 st) :=
        ⟨.inr (hP'.left (by simp)), selected_clear_of_pathOf hwf topo.hardware hP' hS'.selected⟩
      exact (synced_clear_of_pathOf hadr D (C ++ [q]) d hsync hS').commit hwf hadr hS'' hvis 0

/-- `changePath` from the path `selected_` holds to another path of the bus. -/
theorem synced_changePath (hadr : topo.Addressed) {P P' : Path} (hP : PathOf topo P) (hP' : PathOf topo P') :
    ∀ (ex nw C C' : Path) {st : State}, P = C ++ ex → P' = C' ++ nw → channelsOn C = channelsOn C' →
      ex.length = nw.length → Synced topo st → (∀ x ∈ topo.muxes, st.selected x = pathSelection P x) →
        Synced topo (changePath topo.hardware st ex nw)
  | [], nw, C, C', st, _, _, _, _, hsync, _ => by
    rw [changePath_nil_left]
    exact hsync
  | cur :: ex, nw, C, C', st, hPC, hPC', hC, hlen, hsync, hs => by
    obtain ⟨des, nw, rfl⟩ := List.exists_cons_of_length_eq_add_one hlen.symm
    rw [changePath]
    by_cases hsame : cur.1.key = des.1.key ∧ cur.2 = des.2
    · -- the paths share this mux and channel
      rw [if_pos hsame]
      refine synced_changePath hadr hP hP' ex nw (C ++ [cur]) (C' ++ [des]) (by simp [hPC]) (by simp [hPC'])
        ?_ (by simpa using hlen) hsync hs
      unfold channelsOn at hC ⊢
      simp [hC, hsame.1, hsame.2]
    subst hPC hPC'
    rw [if_neg hsame]
    have hPd : PathOf topo (C' ++ [des]) := (show PathOf topo ((C' ++ [des]) ++ nw) by simpa using hP').left (by simp)
    have hPd' : PathOf topo ((C' ++ [des]) ++ nw) := by simpa using hP'
    show Synced topo (selectPath topo.hardware (if cur.1.key ≠ des.1.key then _ else _) (des :: nw))
    by_cases hkey : cur.1.key ≠ des.1.key
    · -- another mux: the old path is cleared from `cur`, and the new one selected from `des`
      rw [if_pos hkey]
      have hS : Selects topo C' (QsfpMux.clear topo.hardware false cur.1 st) := by
        refine ⟨hP'.init, fun x hx => ?_⟩
        rw [← pathSelection_congr hC]
        exact selected_clear_of_pathOf hwf topo.hardware hP hs x hx
      exact (synced_selectPath hwf hadr (des :: nw) C' hP' (synced_clear_of_pathOf hwf hadr ex C cur hsync ⟨.inr hP, hs⟩) hS).1
    -- only the channel differs: what hangs behind the old channel is cleared
    rw [if_neg hkey]
    obtain ⟨st₁, hst₁, hsync₁, hs₁⟩ : ∃ st₁, clearLayer topo.hardware false (cur.1.layers.getD cur.2 []) st = st₁ ∧
        Synced topo st₁ ∧ ∀ x ∈ topo.muxes, st₁.selected x = pathSelection (C ++ [cur]) x := by
      cases ex with
      | nil => exact ⟨st, clearLayer_of_pathOf_nil hwf _ hP hs, hsync, hs⟩
      | cons d ex =>
        have hP2 : PathOf topo ((C ++ [cur]) ++ d :: ex) := by simpa using hP
        have hs2 : ∀ x ∈ topo.muxes, st.selected x = pathSelection ((C ++ [cur]) ++ d :: ex) x := by
          simpa using hs
        exact ⟨_, clearLayer_of_pathOf_cons hwf _ hP hs, synced_clear_of_pathOf hwf hadr ex (C ++ [cur]) d hsync
          ⟨.inr hP2, hs2⟩, selected_clear_of_pathOf hwf topo.hardware hP2 hs2⟩
    rw [hst₁, selectPath, List.foldl_cons, ← selectPath]
    -- then the mux switches to the new channel, and the rest of the new path is selected
    have hPc : PathOf topo (C' ++ [(des.1, cur.2)]) := hPd.set_last (hP.channel_lt cur (by simp))
    have hS₁ : Selects topo (C' ++ [(des.1, cur.2)]) st₁ := by
      refine ⟨.inr hPc, fun x hx => ?_⟩
      rw [hs₁ x hx]
      refine congrFun (pathSelection_congr ?_) x
      unfold channelsOn at hC ⊢
      simp [hC, not_not.mp hkey]
    have hsync₂ := hsync₁.commit hwf hadr hS₁ (visible_subset_visible topo C' _ hPd.mem_visible) (channelBit des.2)
    have hS₂ := selects_commit_channelBit hwf hPd hS₁.off_last
    exact (synced_selectPath hwf hadr nw (C' ++ [des]) hPd' hsync₂ hS₂).1

/-- `selectQsfpImpl(port)` keeps every register at what `selected_` says,
whether it fails or not. -/
theorem selectQsfpImpl_synced (hadr : topo.Addressed) {b : Bus State} (hb : Inv topo.hardware topo b)
    (hsync : Synced topo b.dev) (port : Nat) :
    Except.Spec (fun _ => True) (fun b' => Synced topo b'.dev) (selectQsfpImpl topo.hardware topo b port) := by
  obtain ⟨P, hP, hs⟩ := hb
  unfold selectQsfpImpl
  cases hnew : calculatePath topo port with
  | error e => exact trivial
  | ok P' =>
    rw [Except.ok_bind, hP, Except.ok_bind]
    rcases pathOf_calculatePath hwf hP with rfl | hPo <;>
      rcases pathOf_calculatePath hwf hnew with rfl | hPo'
    · exact hsync
    · -- nothing selected yet: select the new path
      obtain ⟨des, nw, rfl⟩ := List.exists_cons_of_ne_nil hPo'.ne_nil
      exact (synced_selectPath hwf hadr (des :: nw) [] (by simpa using hPo') hsync ⟨.inl rfl, hs⟩).1
    · -- unselect: clear the old path from its root
      obtain ⟨cur, D, rfl⟩ := List.exists_cons_of_ne_nil hPo.ne_nil
      exact synced_clear_of_pathOf hwf hadr D [] cur hsync ⟨.inr hPo, hs⟩
    · -- from one port to another
      obtain ⟨cur, D, rfl⟩ := List.exists_cons_of_ne_nil hPo.ne_nil
      obtain ⟨des, nw, rfl⟩ := List.exists_cons_of_ne_nil hPo'.ne_nil
      exact synced_changePath hwf hadr hPo hPo' _ _ [] [] rfl rfl rfl
        (length_calculatePath hwf hP hnew (List.cons_ne_nil _ _) (List.cons_ne_nil _ _)) hsync hs

/-! ### `ensureNothingSelected()` from any registers -/

omit hwf in
/-- A layer the loop of `QsfpMux::clear` comes to at channel `k` of `t`: `k` is
a channel of the mux, and the trees of the layer are narrow and hang on the
chain on to `(t, k)`. -/
theorem layer_of_drop {C : Path} {t : QsfpMux} (ht : t.Narrow WIDTH) (hP : PathOf topo (C ++ [(t, 0)]))
    {k : Nat} {layer : List QsfpMux} {layers : List (List QsfpMux)} (hk : t.layers.drop k = layer :: layers) :
    k < WIDTH ∧ (∀ u ∈ layer, u.Narrow WIDTH) ∧ ∀ u ∈ layer, PathOf topo ((C ++ [(t, k)]) ++ [(u, 0)]) := by
  have hl : t.layers[k]? = some layer := by
    rw [← Nat.add_zero k, ← List.getElem?_drop, hk]
    rfl
  obtain ⟨hlen, -⟩ := List.getElem?_eq_some_iff.mp hl
  have hlt : k < WIDTH := Nat.lt_of_lt_of_le hlen (ht t t.mem_nodes_self)
  refine ⟨hlt, fun u hu => ht.mono ?_, fun u hu => (hP.set_last hlt).snoc hl hu⟩
  exact (nodes_sublist_of_mem_layer (List.mem_of_getElem? hl) hu).trans t.layersNodes_sublist_nodes

omit hwf in
/-- Selecting another channel of `m` keeps the chain above it. -/
theorem mem_or_key_eq_of_mem {C C' : Path} (hC : C ⊆ C') {m : QsfpMux} {c : Nat} :
    ∀ mc ∈ C ++ [(m, c)], mc ∈ C' ∨ mc.1.key = m.key := by
  intro mc hmc
  rcases List.mem_append.mp hmc with hmc | hmc
  · exact .inl (hC hmc)
  · rw [List.mem_singleton.mp hmc]
    exact .inr rfl

omit hwf in
mutual
/-- `QsfpMux::clear(true)` of a fresh tree visible along the chain `selected_`
holds: the tree is no longer fresh, every register of it is back in step with
`selected_`, and the chain is still selected. -/
theorem agrees_clear_force (hwf : topo.WellFormed) (hadr : topo.Addressed) :
    ∀ (t : QsfpMux) {A B : List QsfpMux} {C : Path} {st : State}, t.Narrow WIDTH →
      PathOf topo (C ++ [(t, 0)]) → Agrees topo (A ++ t :: B) C st → Selects topo C st →
        Agrees topo (A ++ B) C (QsfpMux.clear topo.hardware true t st) ∧
          Selects topo C (QsfpMux.clear topo.hardware true t st)
  | .node mux children, A, B, C, st, ht, hP, hA, hS => by
    have hm : node mux children ∈ topo.visible C := hP.mem_visible
    rw [QsfpMux.clear]
    simp only [if_true]
    rw [if_neg (by decide), show (255 : UInt8) = UInt8.ofNat (255 >>> 0) by decide]
    have h := agrees_channels_force_fresh hwf hadr (node mux children) ht hP 0 children rfl rfl hA hS
    simp only [key_node, layers_node] at h
    rcases h with ⟨hnil, heq⟩ | ⟨c, hA', hS'⟩
    · -- no channel has a mux behind it: `unselectAll()` is the first write to the mux
      rw [heq]
      have hA' : Agrees topo (A ++ (node mux children).layers.flatten ++ B) C (topo.hardware.commit st mux 0) :=
        hA.commit_fresh hwf hadr hS hm 0 fun mc hmc => .inl hmc
      rw [layers_node, hnil, List.append_nil] at hA'
      exact ⟨hA', selects_commit_zero hP.init (hP.key_not_mem hwf (D := [])) fun x hx _ => hS.selected x hx⟩
    · -- `unselectAll()` after the last channel with a mux behind it
      have hmf : ∀ u ∈ A ++ B, mux ∉ u.keys :=
        hA'.off_chain (node mux children, c) (List.mem_append_right _ List.mem_cons_self)
      exact ⟨hA'.commit hwf hadr hS' (visible_subset_visible topo C _ hm) hmf 0
        fun mc hmc => .inl (List.mem_append_left _ hmc), hS'.unselect_last hwf⟩
termination_by structural t _ _ _ _ _ _ _ _ => t

/-- The loop of `QsfpMux::clear(true)` over a fresh mux `t`, from channel `k`
on, with no mux behind the channels before `k`: either no channel has a mux
behind it and nothing is written, or the mux ends with the last such channel
selected and every tree behind its channels cleared. -/
theorem agrees_channels_force_fresh (hwf : topo.WellFormed) (hadr : topo.Addressed) (t : QsfpMux) {A B : List QsfpMux} {C : Path}
    (ht : t.Narrow WIDTH) (hP : PathOf topo (C ++ [(t, 0)])) :
    ∀ (k : Nat) (layers : List (List QsfpMux)) {st : State}, t.layers.drop k = layers →
      t.layers.flatten = layers.flatten → Agrees topo (A ++ t :: B) C st → Selects topo C st →
        (t.layers.flatten = [] ∧
          QsfpMux.clearChannels topo.hardware true t.key (UInt8.ofNat (255 >>> k)) k layers st = st) ∨
        ∃ c, Agrees topo (A ++ B) (C ++ [(t, c)])
            (QsfpMux.clearChannels topo.hardware true t.key (UInt8.ofNat (255 >>> k)) k layers st) ∧
          Selects topo (C ++ [(t, c)]) (QsfpMux.clearChannels topo.hardware true t.key (UInt8.ofNat (255 >>> k)) k layers st)
  | _, [], st, _, hfl, _, _ => .inl ⟨hfl, QsfpMux.clearChannels_nil _ _ _ _ _ _⟩
  | k, layer :: layers, st, hk, hfl, hA, hS => by
    obtain ⟨hlt, hnarrow, hpaths⟩ := layer_of_drop ht hP hk
    have hk' : t.layers.drop (k + 1) = layers := by rw [← List.tail_drop, hk, List.tail_cons]
    obtain ⟨hne, hodd, hshift⟩ := allBits k hlt
    rw [QsfpMux.clearChannels, if_neg hne, hshift]
    by_cases hpos : 0 < layer.length
    swap
    · -- no mux behind this channel: nothing is written
      rw [if_neg fun h => hpos h.2]
      obtain rfl : layer = [] := List.eq_nil_of_length_eq_zero (by omega)
      exact agrees_channels_force_fresh hwf hadr t ht hP (k + 1) layers hk' (by simpa using hfl) hA hS
    -- the first channel with a mux behind it: `t` is unselected, so this is its first write
    rw [if_pos ⟨hodd, hpos⟩]
    have hsel : isSelected (st.selected t.key) k = false := by
      rw [hS.selected _ (hP.muxesOn_subset (by simp [muxesOn])),
        pathSelection_of_not_mem (hP.key_not_mem hwf (D := [])), isSelected_zero]
    rw [if_neg (by simp [hsel]), selectOne]
    have hA₁ : Agrees topo (A ++ t.layers.flatten ++ B) (C ++ [(t, k)])
        (topo.hardware.commit st t.key (channelBit k)) :=
      hA.commit_fresh hwf hadr hS hP.mem_visible _ (mem_or_key_eq_of_mem (List.Subset.refl C))
    have hS₁ := selects_commit_channelBit hwf (hP.set_last hlt) fun x hx _ => hS.selected x hx
    rw [hfl, List.flatten_cons, List.append_assoc, List.append_assoc, ← List.append_assoc A] at hA₁
    obtain ⟨hA₂, hS₂⟩ := agrees_clearLayer_force hwf hadr layer hnarrow hpaths hA₁ hS₁
    exact .inr (agrees_channels_force_written hwf hadr t ht hP (k + 1) layers hk' (Nat.lt_succ_self k)
      (by simpa using hA₂) hS₂)
termination_by structural _ layers _ _ _ _ _ => layers

/-- The loop of `QsfpMux::clear(true)` over a mux `t` that it has written, with
channel `c` below `k` selected: the mux ends with its last channel with a mux
behind it selected, and every tree behind its channels from `k` on cleared. -/
theorem agrees_channels_force_written (hwf : topo.WellFormed) (hadr : topo.Addressed) (t : QsfpMux) {A B : List QsfpMux} {C : Path}
    (ht : t.Narrow WIDTH) (hP : PathOf topo (C ++ [(t, 0)])) :
    ∀ (k : Nat) (layers : List (List QsfpMux)) {c : Nat} {st : State}, t.layers.drop k = layers → c < k →
      Agrees topo (A ++ layers.flatten ++ B) (C ++ [(t, c)]) st → Selects topo (C ++ [(t, c)]) st →
        ∃ c', Agrees topo (A ++ B) (C ++ [(t, c')])
            (QsfpMux.clearChannels topo.hardware true t.key (UInt8.ofNat (255 >>> k)) k layers st) ∧
          Selects topo (C ++ [(t, c')]) (QsfpMux.clearChannels topo.hardware true t.key (UInt8.ofNat (255 >>> k)) k layers st)
  | _, [], c, st, _, _, hA, hS => by
    rw [QsfpMux.clearChannels_nil]
    exact ⟨c, by simpa using hA, hS⟩
  | k, layer :: layers, c, st, hk, hck, hA, hS => by
    obtain ⟨hlt, hnarrow, hpaths⟩ := layer_of_drop ht hP hk
    have hk' : t.layers.drop (k + 1) = layers := by rw [← List.tail_drop, hk, List.tail_cons]
    obtain ⟨hne, hodd, hshift⟩ := allBits k hlt
    rw [QsfpMux.clearChannels, if_neg hne, hshift]
    by_cases hpos : 0 < layer.length
    swap
    · -- no mux behind this channel: nothing is written
      rw [if_neg fun h => hpos h.2]
      obtain rfl : layer = [] := List.eq_nil_of_length_eq_zero (by omega)
      exact agrees_channels_force_written hwf hadr t ht hP (k + 1) layers hk' (by omega) (by simpa using hA) hS
    rw [if_pos ⟨hodd, hpos⟩]
    -- `t` has channel `c` selected, not `k`: the code selects `k`
    have hPc : PathOf topo (C ++ [(t, c)]) := hS.path.resolve_left (by simp)
    have hc : c < WIDTH := hPc.channel_lt (t, c) (by simp)
    have hsel : isSelected (st.selected t.key) k = false := by
      rw [hS.selected _ (hPc.muxesOn_subset (by simp [muxesOn])),
        pathSelection_of_mem (hPc.nodup hwf) (List.mem_append_right _ List.mem_cons_self)]
      exact Bool.eq_false_iff.mpr fun h => absurd ((isSelected_channelBit_iff hc k).mp h) (by omega)
    rw [if_neg (by simp [hsel]), selectOne]
    have hmf : ∀ u ∈ A ++ (layer :: layers).flatten ++ B, t.key ∉ u.keys :=
      hA.off_chain (t, c) (List.mem_append_right _ List.mem_cons_self)
    have hA₁ : Agrees topo (A ++ (layer :: layers).flatten ++ B) (C ++ [(t, k)])
        (topo.hardware.commit st t.key (channelBit k)) :=
      hA.commit hwf hadr hS (visible_subset_visible topo C _ hP.mem_visible) hmf _
        (mem_or_key_eq_of_mem (List.subset_append_left C _))
    have hS₁ := selects_commit_channelBit hwf (hP.set_last hlt) hS.off_last
    rw [List.flatten_cons, List.append_assoc, List.append_assoc, ← List.append_assoc A] at hA₁
    obtain ⟨hA₂, hS₂⟩ := agrees_clearLayer_force hwf hadr layer hnarrow hpaths hA₁ hS₁
    exact agrees_channels_force_written hwf hadr t ht hP (k + 1) layers hk' (Nat.lt_succ_self k)
      (by simpa using hA₂) hS₂
termination_by structural _ layers _ _ _ _ _ _ => layers

/-- `pca9548_helpers::clearLayer(layer, true)` of fresh trees visible along the
chain `selected_` holds. -/
theorem agrees_clearLayer_force (hwf : topo.WellFormed) (hadr : topo.Addressed) :
    ∀ (l : List QsfpMux) {A B : List QsfpMux} {C : Path} {st : State}, (∀ u ∈ l, u.Narrow WIDTH) →
      (∀ u ∈ l, PathOf topo (C ++ [(u, 0)])) → Agrees topo (A ++ l ++ B) C st → Selects topo C st →
        Agrees topo (A ++ B) C (clearLayer topo.hardware true l st) ∧ Selects topo C (clearLayer topo.hardware true l st)
  | [], A, B, C, st, _, _, hA, hS => by
    rw [clearLayer]
    exact ⟨by simpa using hA, hS⟩
  | u :: l, A, B, C, st, hw, hP, hA, hS => by
    rw [clearLayer]
    have hA' : Agrees topo (A ++ u :: (l ++ B)) C st := by simpa using hA
    obtain ⟨hA₁, hS₁⟩ := agrees_clear_force hwf hadr u (hw u List.mem_cons_self) (hP u List.mem_cons_self) hA' hS
    exact agrees_clearLayer_force hwf hadr l (fun v hv => hw v (List.mem_cons_of_mem _ hv))
      (fun v hv => hP v (List.mem_cons_of_mem _ hv)) (by simpa using hA₁) hS₁
termination_by structural l _ _ _ _ _ _ _ _ => l
end

/-! ### Runs -/

/-- `ensureNothingSelected()` from any registers: every register ends at 0,
with `selected_`. -/
theorem synced_initBus (hadr : topo.Addressed) (registers : Selection) :
    Synced topo (initBus topo.hardware topo (State.init registers)) ∧
      Selects topo [] (initBus topo.hardware topo (State.init registers)) := by
  -- at first the trees of the roots are fresh, and `selected_` holds nothing
  have hA : Agrees topo ([] ++ topo.roots ++ []) [] (State.init registers) := by
    refine ⟨fun x hx hxf => ?_, fun u hu => ?_, ?_, fun _ h => absurd h List.not_mem_nil⟩
    · rw [Topology.muxes, layerKeys_eq_flatMap] at hx
      obtain ⟨u, hu, hxu⟩ := List.mem_flatMap.mp hx
      exact absurd hxu (hxf u (by simpa using hu))
    · exact (nodes_sublist_layerNodes (by simpa using hu)).subset u.mem_nodes_self
    · simpa [Topology.muxes, layerKeys_eq_flatMap] using hwf.nodup
  have hroots : ∀ r ∈ topo.roots, PathOf topo ([] ++ [(r, 0)]) := fun r hr =>
    ⟨⟨r, hr, .last r 0⟩, fun mc hmc => by
      rw [List.nil_append, List.mem_singleton] at hmc
      rw [hmc]
      show 0 < WIDTH
      decide⟩
  obtain ⟨hA', hS'⟩ := agrees_clearLayer_force hwf hadr topo.roots hwf.narrow hroots hA ⟨.inl rfl, fun _ _ => rfl⟩
  rw [List.append_nil] at hA'
  exact ⟨hA'.synced, hS'⟩

/-- The invariant of the bus on its devices: the invariant of `selected_`, and
every register holding what `selected_` says. -/
def DevInv (topo : Topology) (b : Bus State) : Prop :=
  Inv topo.hardware topo b ∧ Synced topo b.dev

/-- `open()` from any registers. -/
theorem devInv_open (hadr : topo.Addressed) (registers : Selection) :
    DevInv topo («open» (initBus topo.hardware topo (State.init registers))) :=
  ⟨inv_open hwf topo.hardware _, (synced_initBus hwf hadr registers).1⟩

/-- `selectQsfpImpl(port)` keeps the invariant on the devices, whether it fails
or not. -/
theorem selectQsfpImpl_devInv (hadr : topo.Addressed) {b : Bus State} (hb : DevInv topo b) (port : Nat) :
    Except.Spec (fun _ => True) (DevInv topo) (selectQsfpImpl topo.hardware topo b port) :=
  ((selectQsfpImpl_inv hwf topo.hardware hb.1 port).and
    (selectQsfpImpl_synced hwf hadr hb.1 hb.2 port)).mono_error fun _ _ => trivial

/-- After `open()` from any registers and any run of calls, every register of
the bus holds what `selected_` says, and `selected_` what the path of
`selectedPort_` asks. -/
theorem devInv_run_open (hadr : topo.Addressed) (registers : Selection) (calls : List Call) :
    DevInv topo (run (selectQsfpImpl topo.hardware topo) («open» (initBus topo.hardware topo (State.init registers)))
      calls) :=
  run_invariant (selectQsfpImpl topo.hardware topo) (DevInv topo)
    (fun _ port hb _ => selectQsfpImpl_devInv hwf hadr hb port) (devInv_open hwf hadr registers) calls

/-- Under the invariant a write reaches the roots and the layers behind the
path of `selectedPort_`, and no other mux. -/
theorem DevInv.reached {b : Bus State} (hb : DevInv topo b) {path : Path}
    (hpath : calculatePath topo b.selectedPort = .ok path) :
    ∀ n, n ∈ topo.reached b.dev.registers ↔ n ∈ topo.visible path := by
  obtain ⟨⟨P, hP, hs⟩, hsync⟩ := hb
  obtain rfl : P = path := Except.ok.inj (hP.symm.trans hpath)
  have hS : Selects topo P b.dev := ⟨pathOf_calculatePath hwf hP, hs⟩
  intro n
  constructor
  · intro hn
    rcases reached_subset hwf hsync.agrees hS n hn with ⟨u, hu, -⟩ | hv
    · exact absurd hu List.not_mem_nil
    · exact hv
  · exact visible_reached hwf hsync.agrees hS n

end WellFormed

end PCA9548MuxedBus

/-- A bus of two layers: a root mux with a mux behind its channels 0 and 2, and
two ports on each of them; the mux with key `k` answers at `0x70 + k`. -/
def twoLayerBus : PCA9548MuxedBus.Topology :=
  ⟨[.node 0 [[.node 1 []], [], [.node 2 []]]], fun k => 0x70 + UInt8.ofNat k, [(1, 0), (1, 3), (2, 1), (2, 7)]⟩

theorem twoLayerBus_wellFormed : twoLayerBus.WellFormed :=
  ⟨by decide, by decide, by decide, ⟨2, by decide⟩⟩

open BaseWedgeI2CBus PCA9548MuxedBus in
/-- Port 2 of the two-layer bus, on channel 3 of the mux behind channel 0 of the
root, selected after `open()`. -/
theorem selectQsfp_wired_port_after_open :
    twoLayerBus.WellFormed ∧
      Inv twoLayerBus.hardware twoLayerBus («open» (initBus twoLayerBus.hardware twoLayerBus (State.init fun _ => 0xff))) ∧
      0 < 2 ∧ twoLayerBus.leaves[2 - 1]? = some (1, 3) ∧ (1, 3).1 ∈ twoLayerBus.muxes ∧
      ∃ b', selectQsfp (selectQsfpImpl twoLayerBus.hardware twoLayerBus)
          («open» (initBus twoLayerBus.hardware twoLayerBus (State.init fun _ => 0xff))) 2 = .ok b' ∧
        b'.selectedPort = 2 ∧ Inv twoLayerBus.hardware twoLayerBus b' :=
  have hb := inv_open twoLayerBus_wellFormed twoLayerBus.hardware (State.init fun _ => 0xff)
  ⟨twoLayerBus_wellFormed, hb, by decide, rfl, by decide,
    selectQsfp_wired_port twoLayerBus_wellFormed twoLayerBus.hardware hb (by decide) rfl (by decide)⟩

open BaseWedgeI2CBus PCA9548MuxedBus in
/-- The two-layer bus with port 2 selected, then unselected. -/
theorem unselectQsfp_clears_every_mux_after_select :
    twoLayerBus.WellFormed ∧
      Inv twoLayerBus.hardware twoLayerBus (run (selectQsfpImpl twoLayerBus.hardware twoLayerBus)
        («open» (initBus twoLayerBus.hardware twoLayerBus (State.init fun _ => 0xff))) [.selectQsfp 2]) ∧
      ∃ b', unselectQsfp (selectQsfpImpl twoLayerBus.hardware twoLayerBus)
          (run (selectQsfpImpl twoLayerBus.hardware twoLayerBus)
            («open» (initBus twoLayerBus.hardware twoLayerBus (State.init fun _ => 0xff))) [.selectQsfp 2]) = .ok b' ∧
        b'.selectedPort = NO_PORT ∧ ∀ x ∈ twoLayerBus.muxes, twoLayerBus.hardware.selected b'.dev x = 0 :=
  have hb := inv_run_open twoLayerBus_wellFormed twoLayerBus.hardware (State.init fun _ => 0xff) [.selectQsfp 2]
  ⟨twoLayerBus_wellFormed, hb, unselectQsfp_clears_every_mux twoLayerBus_wellFormed twoLayerBus.hardware hb⟩

end Fboss
