import Fboss.Usb.PCA9548MuxedBusDevices

/-!
# The QSFP bus behind a bank of PCA9548 multiplexers

A `PCA9548MultiplexedBus` has its multiplexers at consecutive addresses, every
other byte from `multiplexerStartAddr_`, and ports 1 to 8 on the first, 9 to
16 on the second, and so on; `qsfpAddressMap_` gives the byte that selects each
of the 8 ports of a multiplexer. `initBus()` writes 0 to every multiplexer, and
`selectQsfpImpl(port)` writes 0 to the multiplexer of the old port when the
new one is on another, then the byte of the new port to its multiplexer.

The devices are the last byte written at each address (`Devices`), and a write
never fails. On a well-formed bank (no more ports than 8 a multiplexer, every
address of the bank a 7-bit address), after `open()` and any run of calls, the
multiplexer of `selectedPort_` has the port's byte and every other multiplexer
0 (`inv_run_open`).
-/

namespace Fboss

namespace PCA9548MultiplexedBus

open BaseWedgeI2CBus

/-- The arguments of the constructor. -/
structure Config where
  multiplexerStartAddr : UInt8
  numMultiplexers : UInt8
  numPorts : Nat
  qsfpAddressMap : Vector UInt8 8

/-- `multiplexerStartAddr_`: the start address shifted one to the left. -/
def Config.startAddr (cfg : Config) : UInt8 :=
  cfg.multiplexerStartAddr <<< 1

/-- The last byte written at each address of the bus. -/
abbrev Devices := UInt8 → UInt8

/-- `dev_->writeByte(address, value)`: the address is cut to a byte. -/
def writeByte (d : Devices) (address : Nat) (value : UInt8) : Devices :=
  Function.update d (UInt8.ofNat address) value

/-- The offset of the multiplexer of a port from `multiplexerStartAddr_`. -/
def offsetOf (port : Nat) : Nat :=
  ((port - 1) / 8) * 2

/-- The byte that selects a port on its multiplexer. -/
def bitOf (cfg : Config) (port : Nat) : UInt8 :=
  cfg.qsfpAddressMap.get ⟨(port - 1) % 8, Nat.mod_lt _ (by decide)⟩

/-- `initBus()`. -/
def initBus (cfg : Config) (d : Devices) : Devices :=
  (List.range cfg.numMultiplexers.toNat).foldl (fun d k => writeByte d (cfg.startAddr.toNat + k * 2) 0) d

/-- `selectQsfpImpl(port)`. -/
def selectQsfpImpl (cfg : Config) (b : Bus Devices) (port : Nat) : Except String (Bus Devices) :=
  if ¬port ≤ cfg.numPorts then throw "Check failed: port <= numPorts_"
  else if port = NO_PORT then
    pure ⟨writeByte b.dev (cfg.startAddr.toNat + offsetOf b.selectedPort) 0, port⟩
  else
    let offset := offsetOf port
    -- the multiplexer of the old port is cleared first, with `NO_PORT` kept in
    -- case the next write throws
    let b : Bus Devices :=
      if b.selectedPort ≠ NO_PORT ∧ offset ≠ offsetOf b.selectedPort then
        ⟨writeByte b.dev (cfg.startAddr.toNat + offsetOf b.selectedPort) 0, NO_PORT⟩
      else b
    pure ⟨writeByte b.dev (cfg.startAddr.toNat + offset) (bitOf cfg port), port⟩

/-! ### The invariant over runs -/

/-- The address of the `k`-th multiplexer. -/
def muxAddr (cfg : Config) (k : Nat) : UInt8 :=
  UInt8.ofNat (cfg.startAddr.toNat + k * 2)

/-- What the bank asks of its `k`-th multiplexer with `port` selected: the
port's byte on the port's multiplexer, 0 on the others. -/
def expected (cfg : Config) (port k : Nat) : UInt8 :=
  if port ≠ NO_PORT ∧ (port - 1) / 8 = k then bitOf cfg port else 0

/-- A bank the code can select ports in: every port on one of the
multiplexers, and every address of the bank a 7-bit address. -/
structure Config.WellFormed (cfg : Config) : Prop where
  numPorts_le : cfg.numPorts ≤ 8 * cfg.numMultiplexers.toNat
  addr_le : cfg.multiplexerStartAddr.toNat + cfg.numMultiplexers.toNat ≤ 128

/-- The invariant of the bank: `selectedPort_` is a port of it or `NO_PORT`,
and every multiplexer holds what the bank asks of it. -/
def Inv (cfg : Config) (b : Bus Devices) : Prop :=
  b.selectedPort ≤ cfg.numPorts ∧
    ∀ k < cfg.numMultiplexers.toNat, b.dev (muxAddr cfg k) = expected cfg b.selectedPort k

theorem writeByte_muxAddr (cfg : Config) (d : Devices) (k : Nat) (v : UInt8) :
    writeByte d (cfg.startAddr.toNat + k * 2) v = Function.update d (muxAddr cfg k) v :=
  rfl

theorem writeByte_offsetOf (cfg : Config) (d : Devices) (port : Nat) (v : UInt8) :
    writeByte d (cfg.startAddr.toNat + offsetOf port) v = Function.update d (muxAddr cfg ((port - 1) / 8)) v :=
  rfl

theorem offsetOf_eq_iff {p q : Nat} : offsetOf p = offsetOf q ↔ (p - 1) / 8 = (q - 1) / 8 := by
  unfold offsetOf
  omega

theorem expected_of_ne {cfg : Config} {port k : Nat} (h : (port - 1) / 8 ≠ k) : expected cfg port k = 0 := by
  simp [expected, h]

section WellFormed

variable {cfg : Config} (hwf : cfg.WellFormed)
include hwf

/-- The multiplexers of a well-formed bank are at distinct addresses. -/
theorem muxAddr_eq_iff {k m : Nat} (hk : k < cfg.numMultiplexers.toNat) (hm : m < cfg.numMultiplexers.toNat) :
    muxAddr cfg k = muxAddr cfg m ↔ k = m := by
  have ha := hwf.addr_le
  have hstart : cfg.startAddr.toNat = cfg.multiplexerStartAddr.toNat * 2 := by
    rw [Config.startAddr, UInt8.toNat_shiftLeft]
    simp only [UInt8.reduceToNat, Nat.reduceMod, Nat.shiftLeft_eq, Nat.pow_one, Nat.reducePow]
    omega
  constructor
  · intro h
    have h' := congrArg UInt8.toNat h
    simp only [muxAddr, UInt8.toNat_ofNat', hstart] at h'
    rw [Nat.mod_eq_of_lt (by omega), Nat.mod_eq_of_lt (by omega)] at h'
    omega
  · rintro rfl
    rfl

/-- The multiplexer of a port of the bank, or of `NO_PORT` in a bank with a
multiplexer, is one of the bank's. -/
theorem muxOf_lt {port k : Nat} (hp : port ≤ cfg.numPorts) (hk : k < cfg.numMultiplexers.toNat) :
    (port - 1) / 8 < cfg.numMultiplexers.toNat := by
  have := hwf.numPorts_le
  omega

end WellFormed

theorem initBus_apply (cfg : Config) (d : Devices) (a : UInt8) :
    initBus cfg d a = if a ∈ (List.range cfg.numMultiplexers.toNat).map (muxAddr cfg) then 0 else d a := by
  unfold initBus
  generalize List.range cfg.numMultiplexers.toNat = L
  induction L generalizing d with
  | nil => simp
  | cons k L ih =>
    rw [List.foldl_cons, ih, List.map_cons, writeByte_muxAddr]
    by_cases ha : a = muxAddr cfg k
    · simp [ha]
    · simp [ha]

/-- `open()` leaves every multiplexer of the bank at 0, on no port. -/
theorem inv_open (cfg : Config) (d : Devices) : Inv cfg («open» (initBus cfg d)) := by
  refine ⟨Nat.zero_le _, fun k hk => ?_⟩
  show initBus cfg d (muxAddr cfg k) = expected cfg NO_PORT k
  rw [initBus_apply, if_pos (List.mem_map_of_mem (List.mem_range.mpr hk))]
  simp [expected]

section WellFormed

variable {cfg : Config} (hwf : cfg.WellFormed)
include hwf

/-- `selectQsfpImpl(port)` keeps the invariant, whether it fails or not. -/
theorem selectQsfpImpl_inv {b : Bus Devices} (hb : Inv cfg b) (port : Nat) :
    Except.Spec (fun _ => True) (Inv cfg) (selectQsfpImpl cfg b port) := by
  obtain ⟨hsp, hdev⟩ := hb
  unfold selectQsfpImpl
  by_cases hle : port ≤ cfg.numPorts
  swap
  · rw [if_pos hle]
    trivial
  rw [if_neg (not_not.mpr hle)]
  by_cases h0 : port = NO_PORT
  · -- unselect: the multiplexer of the old port goes to 0
    rw [if_pos h0]
    refine ⟨hle, fun k hk => ?_⟩
    show writeByte b.dev (cfg.startAddr.toNat + offsetOf b.selectedPort) 0 (muxAddr cfg k) = expected cfg port k
    have hm := muxOf_lt hwf hsp hk
    rw [writeByte_offsetOf, show expected cfg port k = 0 by simp [expected, h0]]
    by_cases hkm : k = (b.selectedPort - 1) / 8
    · rw [hkm, Function.update_self]
    · rw [Function.update_of_ne (mt (muxAddr_eq_iff hwf hk hm).mp hkm), hdev k hk,
        expected_of_ne (Ne.symm hkm)]
  rw [if_neg h0]
  refine ⟨hle, fun k hk => ?_⟩
  dsimp only
  have hm := muxOf_lt hwf hsp hk
  have hm' := muxOf_lt hwf hle hk
  rw [writeByte_offsetOf]
  by_cases hkm' : k = (port - 1) / 8
  · -- the multiplexer of the new port has the port's byte
    rw [hkm', Function.update_self]
    simp [expected, h0]
  rw [Function.update_of_ne (mt (muxAddr_eq_iff hwf hk hm').mp hkm'), expected_of_ne (Ne.symm hkm')]
  -- every other multiplexer is at 0: the old port's was cleared or is the new one's
  by_cases hc : b.selectedPort ≠ NO_PORT ∧ offsetOf port ≠ offsetOf b.selectedPort
  · rw [if_pos hc, writeByte_offsetOf]
    dsimp only
    by_cases hkm : k = (b.selectedPort - 1) / 8
    · rw [hkm, Function.update_self]
    · rw [Function.update_of_ne (mt (muxAddr_eq_iff hwf hk hm).mp hkm), hdev k hk,
        expected_of_ne (Ne.symm hkm)]
  · rw [if_neg hc, hdev k hk]
    rw [not_and_or, not_not, not_not, offsetOf_eq_iff] at hc
    unfold expected
    split_ifs with he
    · omega
    · rfl

/-- After `open()` and any run of calls, the multiplexer of `selectedPort_` has
the port's byte and every other multiplexer of the bank 0. -/
theorem inv_run_open (d : Devices) (calls : List Call) :
    Inv cfg (run (selectQsfpImpl cfg) («open» (initBus cfg d)) calls) :=
  run_invariant (selectQsfpImpl cfg) (Inv cfg) (fun _ port hb _ => selectQsfpImpl_inv hwf hb port)
    (inv_open cfg d) calls

end WellFormed

end PCA9548MultiplexedBus

/-! ### Both buses -/

/-- On a well-formed tree of muxes and on a well-formed bank, after `open()` and
any run of `selectQsfp`/`unselectQsfp` calls: the muxes of the tree with
anything in `selected_` are those of the path of `selectedPort_`, each with its
path channel alone; if no two muxes a write can reach at once answer at one
address, then whatever the registers held before `open()`, every register holds
its `selected_`, and a write reaches the roots and the layers behind the path
alone; and the multiplexer of `selectedPort_` holds the port's byte while every
other multiplexer of the bank holds 0. -/
theorem pca9548_buses_select_only_selected_port (topo : PCA9548MuxedBus.Topology)
    (htopo : topo.WellFormed) (registers : PCA9548.Selection) (cfg : PCA9548MultiplexedBus.Config)
    (hcfg : cfg.WellFormed) (d : PCA9548MultiplexedBus.Devices) (calls calls' : List BaseWedgeI2CBus.Call) :
    (let b := BaseWedgeI2CBus.run (PCA9548MuxedBus.selectQsfpImpl topo.hardware topo)
        (BaseWedgeI2CBus.«open» (PCA9548MuxedBus.initBus topo.hardware topo (PCA9548MuxedBus.State.init registers)))
        calls
      ∃ path, PCA9548MuxedBus.calculatePath topo b.selectedPort = .ok path ∧
        (∀ mc ∈ path, b.dev.selected mc.1.key = PCA9548.channelBit mc.2) ∧
        (∀ x ∈ topo.muxes, b.dev.selected x ≠ 0 ↔ x ∈ PCA9548MuxedBus.muxesOn path) ∧
        (topo.Addressed → (∀ x ∈ topo.muxes, b.dev.registers x = b.dev.selected x) ∧
          ∀ n, n ∈ topo.reached b.dev.registers ↔ n ∈ topo.visible path)) ∧
    (let b := BaseWedgeI2CBus.run (PCA9548MultiplexedBus.selectQsfpImpl cfg)
        (BaseWedgeI2CBus.«open» (PCA9548MultiplexedBus.initBus cfg d)) calls'
      ∀ k < cfg.numMultiplexers.toNat, b.dev (PCA9548MultiplexedBus.muxAddr cfg k) =
        if b.selectedPort ≠ BaseWedgeI2CBus.NO_PORT ∧ (b.selectedPort - 1) / 8 = k then
          PCA9548MultiplexedBus.bitOf cfg b.selectedPort
        else 0) := by
  obtain ⟨path, hpath, hon, hsel⟩ :=
    (PCA9548MuxedBus.inv_run_open htopo topo.hardware (PCA9548MuxedBus.State.init registers) calls).selected htopo
      topo.hardware
  refine ⟨⟨path, hpath, hon, hsel, fun hadr => ?_⟩, (PCA9548MultiplexedBus.inv_run_open hcfg d calls').2⟩
  -- on an addressed bus the devices follow `selected_` from `open()` on
  have hdev := PCA9548MuxedBus.devInv_run_open htopo hadr registers calls
  exact ⟨hdev.2, hdev.reached htopo hpath⟩

/-- A bank of four multiplexers from address `0x70`, with 32 ports. -/
def fourMuxBank : PCA9548MultiplexedBus.Config :=
  ⟨0x70, 4, 32, ⟨#[0x01, 0x02, 0x04, 0x08, 0x10, 0x20, 0x40, 0x80], rfl⟩⟩

theorem pca9548_buses_select_only_selected_port_two_layers :
    twoLayerBus.WellFormed ∧ twoLayerBus.Addressed ∧ fourMuxBank.WellFormed ∧
    (let b := BaseWedgeI2CBus.run (PCA9548MuxedBus.selectQsfpImpl twoLayerBus.hardware twoLayerBus)
        (BaseWedgeI2CBus.«open»
          (PCA9548MuxedBus.initBus twoLayerBus.hardware twoLayerBus (PCA9548MuxedBus.State.init fun _ => 0xff)))
        [.selectQsfp 2, .selectQsfp 3, .unselectQsfp, .selectQsfp 4]
      ∃ path, PCA9548MuxedBus.calculatePath twoLayerBus b.selectedPort = .ok path ∧
        (∀ mc ∈ path, b.dev.selected mc.1.key = PCA9548.channelBit mc.2) ∧
        (∀ x ∈ twoLayerBus.muxes, b.dev.selected x ≠ 0 ↔ x ∈ PCA9548MuxedBus.muxesOn path) ∧
        (twoLayerBus.Addressed → (∀ x ∈ twoLayerBus.muxes, b.dev.registers x = b.dev.selected x) ∧
          ∀ n, n ∈ twoLayerBus.reached b.dev.registers ↔ n ∈ twoLayerBus.visible path)) ∧
    (let b := BaseWedgeI2CBus.run (PCA9548MultiplexedBus.selectQsfpImpl fourMuxBank)
        (BaseWedgeI2CBus.«open» (PCA9548MultiplexedBus.initBus fourMuxBank fun _ => 0xff))
        [.selectQsfp 9, .selectQsfp 12, .selectQsfp 30, .unselectQsfp]
      ∀ k < fourMuxBank.numMultiplexers.toNat, b.dev (PCA9548MultiplexedBus.muxAddr fourMuxBank k) =
        if b.selectedPort ≠ BaseWedgeI2CBus.NO_PORT ∧ (b.selectedPort - 1) / 8 = k then
          PCA9548MultiplexedBus.bitOf fourMuxBank b.selectedPort
        else 0) :=
  have hcfg : fourMuxBank.WellFormed := ⟨by decide, by decide⟩
  ⟨twoLayerBus_wellFormed, PCA9548MuxedBus.Topology.addressed_of_injective (by decide), hcfg,
    pca9548_buses_select_only_selected_port twoLayerBus twoLayerBus_wellFormed _ fourMuxBank hcfg _ _ _⟩

end Fboss
