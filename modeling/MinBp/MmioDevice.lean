import MinBp.Twins
import Mathlib.Data.Nat.ModEq

/-!
# The devices of `main`

`main` registers a CPUID leaf, a keyboard port, and three MMIO registers : a constant, an input
register that counts the writes to it, and a status register that shows the last value written and
the count. The last two share an `MmioDeviceState`, which belongs to `main` and not to the VM.

A machine with these callbacks is `Wired`. Of all that its handlers hand to the guest, only a read
of the status register depends on the devices, and only a write of the input register changes them.

`Drift` relates the devices of two machines, one of which started with devices that are left over
from an earlier run and one with fresh ones. `Drift.status_iff` says when their status registers
still agree on the bytes that a read asks for.
-/

open Bytes

namespace MinBp

/-! ## Registers and callbacks -/

/-- `k_mmio_base`. -/
def kMmioBase : UInt64 := 0x80000

/-- `k_reg_magic`. -/
def kRegMagic : UInt64 := kMmioBase + 0x00

/-- `k_reg_input`. -/
def kRegInput : UInt64 := kMmioBase + 0x08

/-- `k_reg_status`. -/
def kRegStatus : UInt64 := kMmioBase + 0x10

/-- `MmioDeviceState`. -/
structure MmioDeviceState where
  lastWriteValue : UInt64 := 0
  writeCount : UInt64 := 0
  deriving DecidableEq, Repr

namespace MmioDeviceState

/-- A write of the input register. -/
def input (value : UInt64) (dev : MmioDeviceState) : MmioDeviceState where
  lastWriteValue := value
  writeCount := dev.writeCount + 1

/-- A read of the status register. -/
def status (dev : MmioDeviceState) : UInt64 :=
  let count := (dev.writeCount &&& 0xFFFFFFFF) <<< 32
  let last := dev.lastWriteValue &&& 0xFFFFFFFF
  count ||| last

end MmioDeviceState

namespace Main

/-- `cpuid_handler`. The callback runs the host's CPUID too, and drops what it gets. -/
def cpuidHandler : CpuidHandler MmioDeviceState :=
  ({} : CpuidHandler MmioDeviceState).registerLeaf 0x01 fun _ _ dev =>
    let r : LeafResult := {}
    ({ r with ecx := r.ecx &&& ~~~((1 : UInt32) <<< 31) }, dev)

/-- `io_handler`, with a keyboard that always has the same key down. -/
def ioHandler : IoPortHandler MmioDeviceState :=
  ({} : IoPortHandler MmioDeviceState).registerInPort 0x60 fun _ dev => (0x1A, dev)

/-- `mmio_handler`. -/
def mmioHandler : MmioHandler MmioDeviceState :=
  (({} : MmioHandler MmioDeviceState).registerRead kRegMagic fun _ dev => (0x4D4D494F, dev))
    |>.registerWrite kRegInput (fun ctx dev => dev.input ctx.value)
    |>.registerRead kRegStatus (fun _ dev => (dev.status, dev))

/-- The machine that `main` runs. -/
def machine (vm : VirtualMachine) (h : 0 < vm.vcpus.length) : Machine MmioDeviceState where
  vm := vm
  vcpuIndex_lt := h
  cpuid := some cpuidHandler
  io := some ioHandler
  mmio := some mmioHandler
  dev := {}

/-- The callbacks of `main`. -/
def tables : Tables MmioDeviceState where
  leaf := some cpuidHandler.leafCallbacks
  inPort := some ioHandler.inCallbacks
  outPort := some ioHandler.outCallbacks
  read := some mmioHandler.readCallbacks
  write := some mmioHandler.writeCallbacks

/-- What a read of an MMIO register gives. -/
def readValue (addr : UInt64) (dev : MmioDeviceState) : UInt64 :=
  if addr = kRegMagic then 0x4D4D494F
  else if addr = kRegStatus then dev.status
  else 0xFFFFFFFFFFFFFFFF

theorem answer_eq {h : CpuidHandler MmioDeviceState}
    (ht : h.leafCallbacks = cpuidHandler.leafCallbacks) (host : HostCpuid) (leaf subleaf : UInt32)
    (dev : MmioDeviceState) :
    h.answer host leaf subleaf dev = (if leaf = 0x01 then {} else host leaf subleaf, dev) := by
  rw [CpuidHandler.answer, ht, cpuidHandler, CpuidHandler.registerLeaf]
  by_cases hleaf : leaf = 0x01
  · rw [hleaf, AList.lookup_insert]
    rfl
  · rw [AList.lookup_insert_ne hleaf, if_neg hleaf]
    rfl

theorem input_eq {h : IoPortHandler MmioDeviceState}
    (ht : h.inCallbacks = ioHandler.inCallbacks) (ctx : InContext) (dev : MmioDeviceState) :
    h.input ctx dev = (if ctx.port = 0x60 then 0x1A else 0xFFFFFFFF, dev) := by
  rw [IoPortHandler.input, ht, ioHandler, IoPortHandler.registerInPort]
  by_cases hport : ctx.port = 0x60
  · rw [hport, AList.lookup_insert]
    rfl
  · rw [AList.lookup_insert_ne hport, if_neg hport]
    rfl

theorem output_eq {h : IoPortHandler MmioDeviceState}
    (ht : h.outCallbacks = ioHandler.outCallbacks) (ctx : OutContext) (dev : MmioDeviceState) :
    h.output ctx dev = dev := by
  rw [IoPortHandler.output, ht]
  rfl

theorem read_eq {h : MmioHandler MmioDeviceState}
    (ht : h.readCallbacks = mmioHandler.readCallbacks) (ctx : ReadContext) (dev : MmioDeviceState) :
    h.read ctx dev = (readValue ctx.addr dev, dev) := by
  have hne : kRegMagic ≠ kRegStatus := by decide
  rw [MmioHandler.read, ht, mmioHandler, MmioHandler.registerRead, MmioHandler.registerWrite,
    MmioHandler.registerRead, readValue]
  by_cases hstatus : ctx.addr = kRegStatus
  · rw [hstatus, AList.lookup_insert, if_neg hne.symm, if_pos rfl]
  · rw [AList.lookup_insert_ne hstatus, if_neg hstatus]
    by_cases hmagic : ctx.addr = kRegMagic
    · rw [hmagic, AList.lookup_insert, if_pos rfl]
    · rw [AList.lookup_insert_ne hmagic, if_neg hmagic]
      rfl

theorem write_eq {h : MmioHandler MmioDeviceState}
    (ht : h.writeCallbacks = mmioHandler.writeCallbacks) (ctx : WriteContext)
    (dev : MmioDeviceState) :
    h.write ctx dev = if ctx.addr = kRegInput then dev.input ctx.value else dev := by
  rw [MmioHandler.write, ht, mmioHandler, MmioHandler.registerRead, MmioHandler.registerWrite,
    MmioHandler.registerRead]
  by_cases hinput : ctx.addr = kRegInput
  · rw [hinput, AList.lookup_insert, if_pos rfl]
  · rw [AList.lookup_insert_ne hinput, if_neg hinput]
    rfl

end Main

/-! ## Wired machines -/

namespace KvmMmio

/-- The handler accepts the access : its length, cut to eight bits, is one to eight. -/
def Accepted (mmio : KvmMmio) : Prop :=
  ¬(mmio.len.toUInt8 = 0 ∨ mmio.len.toUInt8 > 8)

/-- A read of the status register that is accepted. -/
def ReadsStatus (mmio : KvmMmio) : Prop :=
  mmio.physAddr = kRegStatus ∧ mmio.isWrite = 0 ∧ mmio.Accepted

/-- A write of the input register that is accepted. -/
def WritesInput (mmio : KvmMmio) : Prop :=
  mmio.physAddr = kRegInput ∧ mmio.isWrite ≠ 0 ∧ mmio.Accepted

instance (mmio : KvmMmio) : Decidable mmio.Accepted :=
  inferInstanceAs (Decidable (¬_))

instance (mmio : KvmMmio) : Decidable mmio.ReadsStatus :=
  inferInstanceAs (Decidable (_ ∧ _))

instance (mmio : KvmMmio) : Decidable mmio.WritesInput :=
  inferInstanceAs (Decidable (_ ∧ _))

end KvmMmio

namespace KvmExit

/-- The exit is an accepted read of the status register. -/
def ReadsStatus (x : KvmExit) : Prop :=
  x.reason = some .mmio ∧ x.run.mmio.ReadsStatus

/-- The exit is an accepted write of the input register. -/
def WritesInput (x : KvmExit) : Prop :=
  x.reason = some .mmio ∧ x.run.mmio.WritesInput

instance (x : KvmExit) : Decidable x.ReadsStatus :=
  inferInstanceAs (Decidable (_ ∧ _))

instance (x : KvmExit) : Decidable x.WritesInput :=
  inferInstanceAs (Decidable (_ ∧ _))

end KvmExit

namespace Machine

/-- The machine has the callbacks of `main`. -/
def Wired (m : Machine MmioDeviceState) : Prop :=
  m.tables = Main.tables

variable {m m' : Machine MmioDeviceState} {host : HostCpuid}

theorem wired_machine (vm : VirtualMachine) (h : 0 < vm.vcpus.length) :
    (Main.machine vm h).Wired :=
  rfl

theorem Wired.exists_io (h : m.Wired) : ∃ hd, m.io = some hd ∧
    hd.inCallbacks = Main.ioHandler.inCallbacks ∧
      hd.outCallbacks = Main.ioHandler.outCallbacks := by
  obtain ⟨hd, hio, hin⟩ := Option.map_eq_some_iff.1 (congrArg Tables.inPort h)
  obtain ⟨hd', hio', hout⟩ := Option.map_eq_some_iff.1 (congrArg Tables.outPort h)
  obtain rfl : hd = hd' := Option.some.inj (hio.symm.trans hio')
  exact ⟨hd, hio, hin, hout⟩

theorem Wired.exists_mmio (h : m.Wired) : ∃ hd, m.mmio = some hd ∧
    hd.readCallbacks = Main.mmioHandler.readCallbacks ∧
      hd.writeCallbacks = Main.mmioHandler.writeCallbacks := by
  obtain ⟨hd, hmmio, hread⟩ := Option.map_eq_some_iff.1 (congrArg Tables.read h)
  obtain ⟨hd', hmmio', hwrite⟩ := Option.map_eq_some_iff.1 (congrArg Tables.write h)
  obtain rfl : hd = hd' := Option.some.inj (hmmio.symm.trans hmmio')
  exact ⟨hd, hmmio, hread, hwrite⟩

theorem Wired.exists_cpuid (h : m.Wired) : ∃ hd, m.cpuid = some hd ∧
    hd.leafCallbacks = Main.cpuidHandler.leafCallbacks :=
  Option.map_eq_some_iff.1 (congrArg Tables.leaf h)

/-- What a read of an MMIO register hands to the guest. -/
theorem Wired.handed_mmio (h : m.Wired) :
    m.handed host .mmio =
      if m.vcpu.kvmRun.mmio.Accepted ∧ m.vcpu.kvmRun.mmio.isWrite = 0 then
        some (.bytes (encode m.vcpu.kvmRun.mmio.len.toUInt8.toNat
          (Main.readValue m.vcpu.kvmRun.mmio.physAddr m.dev).toNat))
      else none := by
  obtain ⟨hd, hmmio, hread, -⟩ := h.exists_mmio
  simp only [handed, hmmio, Option.map_some, Main.read_eq hread, MmioHandler.readContext,
    KvmMmio.Accepted, ← or_assoc]
  by_cases hsize : m.vcpu.kvmRun.mmio.len.toUInt8 = 0 ∨ m.vcpu.kvmRun.mmio.len.toUInt8 > 8 <;>
    by_cases hw : m.vcpu.kvmRun.mmio.isWrite = 0 <;> simp [hsize, hw]

/-- A read of the status register hands out its low bytes. -/
theorem Wired.handed_status (h : m.Wired) (hr : m.vcpu.kvmRun.mmio.ReadsStatus) :
    m.handed host .mmio =
      some (.bytes (encode m.vcpu.kvmRun.mmio.len.toUInt8.toNat m.dev.status.toNat)) := by
  obtain ⟨haddr, hw, hsize⟩ := hr
  rw [h.handed_mmio, if_pos ⟨hsize, hw⟩, haddr]
  rfl

/-- Wired machines at the same exit are handed the same, unless they read the status register and it
differs in the bytes asked for. -/
theorem Wired.handed_eq (h : m.Wired) (h' : m'.Wired) (hv : m.vcpu = m'.vcpu) (reason : ExitReason)
    (hr : reason = .mmio → m.vcpu.kvmRun.mmio.ReadsStatus →
      encode m.vcpu.kvmRun.mmio.len.toUInt8.toNat m.dev.status.toNat =
        encode m.vcpu.kvmRun.mmio.len.toUInt8.toNat m'.dev.status.toNat) :
    m.handed host reason = m'.handed host reason := by
  cases reason
  case io =>
    obtain ⟨hd, hio, hin, -⟩ := h.exists_io
    obtain ⟨hd', hio', hin', -⟩ := h'.exists_io
    simp only [handed, hio, hio', Option.map_some, Main.input_eq hin, Main.input_eq hin', hv]
  case mmio =>
    by_cases hs : m.vcpu.kvmRun.mmio.ReadsStatus
    · rw [h.handed_status hs, h'.handed_status (hv ▸ hs), hr rfl hs, hv]
    · rw [h.handed_mmio, h'.handed_mmio, ← hv]
      by_cases hread : m.vcpu.kvmRun.mmio.Accepted ∧ m.vcpu.kvmRun.mmio.isWrite = 0
      · have haddr : m.vcpu.kvmRun.mmio.physAddr ≠ kRegStatus :=
          fun haddr => hs ⟨haddr, hread.2, hread.1⟩
        simp only [Main.readValue, haddr, if_false]
      · rw [if_neg hread, if_neg hread]
  case unknown | internalError =>
    obtain ⟨hd, hcpuid, hleaf⟩ := h.exists_cpuid
    obtain ⟨hd', hcpuid', hleaf'⟩ := h'.exists_cpuid
    simp only [handed, hcpuid, hcpuid', Option.map_some, Main.answer_eq hleaf,
      Main.answer_eq hleaf', hv]
  all_goals rfl

theorem Wired.dev_serveIo (h : m.Wired) : m.serveIo.2.dev = m.dev := by
  obtain ⟨hd, hio, hin, hout⟩ := h.exists_io
  simp only [serveIo, hio, IoPortHandler.handle]
  split
  · exact Main.output_eq hout _ _
  · exact congrArg Prod.snd (Main.input_eq hin _ _)

theorem Wired.dev_serveCpuid (h : m.Wired) : (m.serveCpuid host).2.dev = m.dev := by
  obtain ⟨hd, hcpuid, hleaf⟩ := h.exists_cpuid
  simp only [serveCpuid, hcpuid, CpuidHandler.handle_eq, Main.answer_eq hleaf]
  split
  · rfl
  · split <;> rfl

theorem Wired.dev_serveMmio (h : m.Wired) :
    m.serveMmio.2.dev =
      if m.vcpu.kvmRun.mmio.WritesInput then m.dev.input m.vcpu.kvmRun.mmioValue else m.dev := by
  obtain ⟨hd, hmmio, hread, hwrite⟩ := h.exists_mmio
  simp only [serveMmio, hmmio, MmioHandler.handle, Main.read_eq hread, Main.write_eq hwrite,
    MmioHandler.writeContext, KvmMmio.WritesInput, KvmMmio.Accepted]
  split
  · simp [*]
  · split <;> simp [*]

/-- Only an accepted write of the input register changes the devices. -/
theorem Wired.dev_step (h : m.Wired) (x : KvmExit) :
    (m.step host x).2.1.dev =
      if x.WritesInput then m.dev.input x.run.mmioValue else m.dev := by
  have hw : (m.entered x).Wired := h
  have hrun : (m.entered x).vcpu.kvmRun = x.run := by simp
  unfold step
  split
  · simp [*, afterRun, KvmExit.WritesInput]
  · rename_i reason hreason
    have hdev : (m.entered x).dev = m.dev := rfl
    by_cases hmmio : reason = .mmio
    · subst hmmio
      have hserve : ((m.entered x).serve host .mmio).2.1 = (m.entered x).serveMmio.2 := by
        simp only [serve]
        split <;> rfl
      rw [hserve, hw.dev_serveMmio, hrun, hdev]
      simp [KvmExit.WritesInput, hreason]
    · rw [if_neg fun hx => hmmio (Option.some.inj (hreason.symm.trans hx.1))]
      cases reason
      case io =>
        simp only [serve]
        split <;> exact hw.dev_serveIo
      case unknown | internalError =>
        simp only [serve]
        split
        · split <;> exact hw.dev_serveCpuid
        · rfl
      case mmio => exact absurd rfl hmmio
      all_goals rfl

/-- After a read of the status register the guest is about to get its low bytes. -/
theorem Wired.completion_status (h : m.Wired) {x : KvmExit} (hx : x.ReadsStatus) :
    (m.step host x).2.1.guestState.completion =
      some (.mmio { x.run.mmio with
        data := store x.run.mmio.data 0
          (encode x.run.mmio.len.toUInt8.toNat m.dev.status.toNat) }) := by
  obtain ⟨hreason, hread⟩ := hx
  have hrun : (m.entered x).vcpu.kvmRun = x.run := by simp
  have hw : (m.entered x).Wired := h
  have hraw : ExitReason.ofRaw x.run.exitReason = .mmio := by
    unfold KvmExit.reason at hreason
    split at hreason
    · split at hreason <;> cases hreason
    · exact Option.some.inj hreason
  have hstep : (m.step host x).2.1 = (m.entered x).serveMmio.2 := by
    simp only [step, hreason, serve]
    split <;> rfl
  rw [guestState, hstep, vcpu_serveMmio host, hw.handed_status (hrun ▸ hread), hrun]
  simp only [KvmRun.completion, hraw]
  rfl

end Machine

/-! ## Leftover devices -/

/-- Words with the same low half agree on their low `size` bytes if their high halves agree on the
bytes that are left. -/
theorem mod_word_iff {a a' b size : ℕ} (hb : b < 2 ^ 32) :
    (a * 2 ^ 32 + b) % 256 ^ size = (a' * 2 ^ 32 + b) % 256 ^ size ↔
      a % 256 ^ (size - 4) = a' % 256 ^ (size - 4) := by
  rcases Nat.le_total size 4 with hsize | hsize
  · obtain ⟨q, hq⟩ : 256 ^ size ∣ 2 ^ 32 := Nat.pow_dvd_pow 256 hsize
    rw [hq, Nat.sub_eq_zero_of_le hsize, pow_zero, Nat.mod_one, Nat.mod_one]
    simp [Nat.mul_left_comm _ (256 ^ size)]
  · have hpow : 256 ^ size = 2 ^ 32 * 256 ^ (size - 4) := by
      rw [show (2 : ℕ) ^ 32 = 256 ^ 4 from rfl, ← pow_add, Nat.add_sub_cancel' hsize]
    have hmod : ∀ c, (c * 2 ^ 32 + b) % 256 ^ size = b + 2 ^ 32 * (c % 256 ^ (size - 4)) := by
      intro c
      have hlow : (c * 2 ^ 32 + b) % 2 ^ 32 = b := by omega
      have hhigh : (c * 2 ^ 32 + b) / 2 ^ 32 = c := by omega
      rw [hpow, Nat.mod_mul, hlow, hhigh]
    rw [hmod, hmod]
    omega

namespace MmioDeviceState

theorem toNat_status (dev : MmioDeviceState) :
    dev.status.toNat =
      dev.writeCount.toNat % 2 ^ 32 * 2 ^ 32 + dev.lastWriteValue.toNat % 2 ^ 32 := by
  have hmask : (0xFFFFFFFF : UInt64).toNat = 2 ^ 32 - 1 := rfl
  have hlast : dev.lastWriteValue.toNat % 2 ^ 32 < 2 ^ 32 := Nat.mod_lt _ (by decide)
  have hcount : (dev.writeCount.toNat % 2 ^ 32) <<< 32 < 2 ^ 64 := by
    rw [Nat.shiftLeft_eq]
    omega
  rw [status, UInt64.toNat_or, UInt64.toNat_shiftLeft, UInt64.toNat_and, UInt64.toNat_and, hmask,
    Nat.and_two_pow_sub_one_eq_mod, Nat.and_two_pow_sub_one_eq_mod,
    show (32 : UInt64).toNat % 64 = 32 from rfl, Nat.mod_eq_of_lt hcount,
    ← Nat.shiftLeft_add_eq_or_of_lt hlast, Nat.shiftLeft_eq]

/-- The devices `left` do not show in a status read of `size` bytes. If the input register has not
been written since (`written`), the bytes asked for are still zero. If it has, the last value is not
theirs any more, and the bytes of the count that are asked for have come round to zero. -/
def Hidden (left : MmioDeviceState) (written : Bool) (size : ℕ) : Prop :=
  if written then left.writeCount.toNat % 256 ^ (size - 4) = 0
  else left.status.toNat % 256 ^ size = 0

instance (left : MmioDeviceState) (written : Bool) (size : ℕ) :
    Decidable (left.Hidden written size) :=
  inferInstanceAs (Decidable (ite _ _ _))

/-- How devices that were `left` over compare with fresh ones after the same writes. -/
structure Drift (left : MmioDeviceState) (written : Bool) (dev fresh : MmioDeviceState) : Prop where
  writeCount : dev.writeCount = left.writeCount + fresh.writeCount
  lastWriteValue : written = true → dev.lastWriteValue = fresh.lastWriteValue
  unwritten : written = false → dev = left ∧ fresh = {}

variable {left dev fresh : MmioDeviceState} {written : Bool}

theorem Drift.start (left : MmioDeviceState) : Drift left false left {} where
  writeCount := by simp
  lastWriteValue h := by cases h
  unwritten _ := ⟨rfl, rfl⟩

theorem Drift.input (h : Drift left written dev fresh) (value : UInt64) :
    Drift left true (dev.input value) (fresh.input value) where
  writeCount := by
    rw [MmioDeviceState.input, MmioDeviceState.input, h.writeCount, UInt64.add_assoc]
  lastWriteValue _ := rfl
  unwritten h := by cases h

/-- A status read gives what fresh devices give if the leftover ones are hidden from it. -/
theorem Drift.status_iff (h : Drift left written dev fresh) {size : ℕ} (hsize : size ≤ 8) :
    encode size dev.status.toNat = encode size fresh.status.toNat ↔ left.Hidden written size := by
  rw [encode_eq_iff, Hidden]
  cases written with
  | false =>
    obtain ⟨rfl, rfl⟩ := h.unwritten rfl
    have hzero : ({} : MmioDeviceState).status.toNat = 0 := rfl
    rw [hzero, Nat.zero_mod, if_neg Bool.false_ne_true]
  | true =>
    have hle : size - 4 ≤ 4 := by omega
    have hdvd : 256 ^ (size - 4) ∣ 2 ^ 32 := Nat.pow_dvd_pow 256 hle
    have hdvd' : 256 ^ (size - 4) ∣ 2 ^ 64 := hdvd.trans (by decide)
    rw [toNat_status, toNat_status, h.lastWriteValue rfl, mod_word_iff (Nat.mod_lt _ (by decide)),
      Nat.mod_mod_of_dvd _ hdvd, Nat.mod_mod_of_dvd _ hdvd, h.writeCount, UInt64.toNat_add,
      Nat.mod_mod_of_dvd _ hdvd', if_pos rfl]
    refine ⟨fun heq => ?_, fun heq => ?_⟩
    · have hmod : left.writeCount.toNat + fresh.writeCount.toNat ≡
          0 + fresh.writeCount.toNat [MOD 256 ^ (size - 4)] := by
        rw [Nat.zero_add]
        exact heq
      have hzero := hmod.add_right_cancel' _
      rwa [Nat.ModEq, Nat.zero_mod] at hzero
    · rw [Nat.add_mod, heq, Nat.zero_add, Nat.mod_mod]

end MmioDeviceState

end MinBp
