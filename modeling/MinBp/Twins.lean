import MinBp.InstructionTrapper

/-!
# Machines side by side

Two machines are twins if they have the same vCPU, the same memory and the same callbacks
(`Twin`). Their devices and their counters may differ. The devices reach the guest only through
what the handlers hand to it, the bytes of a read or the registers of a CPUID (`handed`). So twins
that are handed the same serve an exit in the same way and stay twins (`Twin.serve`), and
callbacks that return what their context says, whatever the state of the devices, hand the same to
twins (`Twin.handed_of_pure`).
-/

open Bytes

namespace MinBp

variable {δ ω : Type}

/-! ## Callback tables and counters -/

/-- The callbacks of a machine, `none` for a handler that is missing. -/
structure Tables (δ : Type) where
  leaf : Option (CallbackTable UInt32 (UInt32 → UInt32 → δ → LeafResult × δ))
  inPort : Option (CallbackTable UInt16 (InContext → δ → UInt32 × δ))
  outPort : Option (CallbackTable UInt16 (OutContext → δ → δ))
  read : Option (CallbackTable UInt64 (ReadContext → δ → UInt64 × δ))
  write : Option (CallbackTable UInt64 (WriteContext → δ → δ))

/-- What callbacks return does not depend on the devices. -/
structure Tables.Pure (T : Tables δ) : Prop where
  leaf : ∀ table ∈ T.leaf, ∀ k, ∀ cb ∈ table.lookup k, ∀ l s dev dev',
    (cb l s dev).1 = (cb l s dev').1
  inPort : ∀ table ∈ T.inPort, ∀ k, ∀ cb ∈ table.lookup k, ∀ ctx dev dev',
    (cb ctx dev).1 = (cb ctx dev').1
  read : ∀ table ∈ T.read, ∀ k, ∀ cb ∈ table.lookup k, ∀ ctx dev dev',
    (cb ctx dev).1 = (cb ctx dev').1

theorem IoPortHandler.input_of_pure (h : IoPortHandler δ) {h' : IoPortHandler δ}
    (htable : h.inCallbacks = h'.inCallbacks)
    (hp : ∀ k, ∀ cb ∈ h.inCallbacks.lookup k, ∀ ctx dev dev', (cb ctx dev).1 = (cb ctx dev').1)
    (ctx : InContext) (dev dev' : δ) : (h.input ctx dev).1 = (h'.input ctx dev').1 := by
  rw [input, input, ← htable]
  rcases hcb : h.inCallbacks.lookup ctx.port with _ | cb
  · rfl
  · exact hp _ cb hcb ctx dev dev'

theorem MmioHandler.read_of_pure (h : MmioHandler δ) {h' : MmioHandler δ}
    (htable : h.readCallbacks = h'.readCallbacks)
    (hp : ∀ k, ∀ cb ∈ h.readCallbacks.lookup k, ∀ ctx dev dev', (cb ctx dev).1 = (cb ctx dev').1)
    (ctx : ReadContext) (dev dev' : δ) : (h.read ctx dev).1 = (h'.read ctx dev').1 := by
  rw [read, read, ← htable]
  rcases hcb : h.readCallbacks.lookup ctx.addr with _ | cb
  · rfl
  · exact hp _ cb hcb ctx dev dev'

theorem CpuidHandler.answer_of_pure (h : CpuidHandler δ) {h' : CpuidHandler δ}
    (htable : h.leafCallbacks = h'.leafCallbacks)
    (hp : ∀ k, ∀ cb ∈ h.leafCallbacks.lookup k, ∀ l s dev dev', (cb l s dev).1 = (cb l s dev').1)
    (host : HostCpuid) (leaf subleaf : UInt32) (dev dev' : δ) :
    (h.answer host leaf subleaf dev).1 = (h'.answer host leaf subleaf dev').1 := by
  rw [answer, answer, ← htable]
  rcases hcb : h.leafCallbacks.lookup leaf with _ | cb
  · rfl
  · exact hp _ cb hcb leaf subleaf dev dev'

/-- The counters of the run loop and its handlers. -/
inductive Counter where
  | exitCount | handledCount | inCount | outCount | readCount | writeCount
  deriving DecidableEq, Repr

/-- What a handler hands to the guest. -/
inductive Handed where
  | bytes (bs : List UInt8)
  | leaf (result : LeafResult)
  deriving DecidableEq

namespace Machine

/-- The callbacks of the machine's handlers. -/
def tables (m : Machine δ) : Tables δ where
  leaf := m.cpuid.map (·.leafCallbacks)
  inPort := m.io.map (·.inCallbacks)
  outPort := m.io.map (·.outCallbacks)
  read := m.mmio.map (·.readCallbacks)
  write := m.mmio.map (·.writeCallbacks)

/-- The value of a counter, zero for a handler that is missing. -/
def counter (m : Machine δ) : Counter → UInt64
  | .exitCount => m.exitCount
  | .handledCount => m.cpuid.elim 0 (·.handledCount)
  | .inCount => m.io.elim 0 (·.inCount)
  | .outCount => m.io.elim 0 (·.outCount)
  | .readCount => m.mmio.elim 0 (·.readCount)
  | .writeCount => m.mmio.elim 0 (·.writeCount)

/-- What the guest is handed when an exit is served, if anything. -/
def handed (host : HostCpuid) (reason : ExitReason) (m : Machine δ) : Option Handed :=
  let run := m.vcpu.kvmRun
  match reason with
  | .io =>
    if run.io.direction = KVM_EXIT_IO_OUT then none
    else m.io.map fun h =>
      .bytes (encode (min run.io.size.toNat 4)
        (h.input (IoPortHandler.inContext run) m.dev).1.toNat)
  | .mmio =>
    let size := run.mmio.len.toUInt8
    if size = 0 ∨ size > 8 ∨ run.mmio.isWrite ≠ 0 then none
    else m.mmio.map fun h =>
      .bytes (encode size.toNat (h.read (MmioHandler.readContext run) m.dev).1.toNat)
  | .unknown | .internalError =>
    m.cpuid.map fun h =>
      .leaf (h.answer host m.vcpu.regs.rax.toUInt32 m.vcpu.regs.rcx.toUInt32 m.dev).1
  | _ => none

/-- From `a` to `a'` and from `b` to `b'` every counter goes up by the same amount. -/
def SameGrowth (a a' b b' : Machine δ) : Prop :=
  ∀ c, ∃ k, a'.counter c = a.counter c + k ∧ b'.counter c = b.counter c + k

theorem SameGrowth.refl (a b : Machine δ) : SameGrowth a a b b :=
  fun _ => ⟨0, by simp, by simp⟩

theorem SameGrowth.trans {a a' a'' b b' b'' : Machine δ} (h : SameGrowth a a' b b')
    (h' : SameGrowth a' a'' b' b'') : SameGrowth a a'' b b'' := by
  intro c
  obtain ⟨k, ha, hb⟩ := h c
  obtain ⟨k', ha', hb'⟩ := h' c
  exact ⟨k + k', by rw [ha', ha, UInt64.add_assoc], by rw [hb', hb, UInt64.add_assoc]⟩

/-- Same vCPU, same memory, same callbacks. -/
structure Twin (m m' : Machine δ) : Prop where
  vcpu : m.vcpu = m'.vcpu
  memoryRegions : m.vm.memoryRegions = m'.vm.memoryRegions
  tables : m.tables = m'.tables

/-! ## What a handler does to vCPU, tables and counters -/

theorem tables_serveIo (m : Machine δ) : m.serveIo.2.tables = m.tables := by
  unfold serveIo
  split
  · rfl
  · rename_i h hio
    simp only [IoPortHandler.handle]
    split <;> simp [tables, setVCpu, hio]

theorem tables_serveMmio (m : Machine δ) : m.serveMmio.2.tables = m.tables := by
  unfold serveMmio
  split
  · rfl
  · rename_i h hmmio
    simp only [MmioHandler.handle]
    split
    · simp [tables, setVCpu, hmmio]
    · split <;> simp [tables, setVCpu, hmmio]

theorem tables_serveCpuid (host : HostCpuid) (m : Machine δ) :
    (m.serveCpuid host).2.tables = m.tables := by
  unfold serveCpuid
  split
  · rfl
  · rename_i h hcpuid
    simp [tables, setVCpu, hcpuid, CpuidHandler.leafCallbacks_handle]

/-- Callbacks stay registered. -/
theorem tables_step (host : HostCpuid) (x : KvmExit) (m : Machine δ) :
    (m.step host x).2.1.tables = m.tables := by
  unfold step
  split
  · rfl
  · exact serve_inv (P := fun n => n.tables = m.tables) (m := m.entered x) rfl
      (m.entered x).tables_serveIo (m.entered x).tables_serveMmio
      ((m.entered x).tables_serveCpuid host) _

/-- The vCPU after a port access depends on what was handed to it. -/
theorem vcpu_serveIo (host : HostCpuid) (m : Machine δ) :
    m.serveIo.2.vcpu =
      match m.handed host .io with
      | some (.bytes bs) =>
        { m.vcpu with
          kvmRun := { m.vcpu.kvmRun with
            page := store m.vcpu.kvmRun.page m.vcpu.kvmRun.io.dataOffset.toNat bs } }
      | _ => m.vcpu := by
  rcases hio : m.io with _ | h
  · by_cases hdir : m.vcpu.kvmRun.io.direction = KVM_EXIT_IO_OUT <;>
      simp [serveIo, handed, hio, hdir]
  · by_cases hdir : m.vcpu.kvmRun.io.direction = KVM_EXIT_IO_OUT
    · simp only [serveIo, handed, hio, IoPortHandler.handle, hdir, if_true]
      exact vcpu_setVCpu _ m
    · simp only [serveIo, handed, hio, IoPortHandler.handle, hdir, if_false, Option.map_some]
      exact vcpu_setVCpu _ m

theorem vcpu_serveMmio (host : HostCpuid) (m : Machine δ) :
    m.serveMmio.2.vcpu =
      match m.handed host .mmio with
      | some (.bytes bs) =>
        { m.vcpu with
          kvmRun := { m.vcpu.kvmRun with
            mmio := { m.vcpu.kvmRun.mmio with data := store m.vcpu.kvmRun.mmio.data 0 bs } } }
      | _ => m.vcpu := by
  rcases hmmio : m.mmio with _ | h
  · simp only [serveMmio, handed, hmmio, Option.map_none, ite_self]
  · by_cases hsize : m.vcpu.kvmRun.mmio.len.toUInt8 = 0 ∨ m.vcpu.kvmRun.mmio.len.toUInt8 > 8
    · simp only [serveMmio, handed, hmmio, MmioHandler.handle, ← or_assoc, hsize, true_or, if_true]
      exact vcpu_setVCpu _ m
    · by_cases hw : m.vcpu.kvmRun.mmio.isWrite = 0
      · simp only [serveMmio, handed, hmmio, MmioHandler.handle, ← or_assoc, hsize, false_or,
          if_false, if_neg (not_not.2 hw), Option.map_some]
        exact vcpu_setVCpu _ m
      · simp only [serveMmio, handed, hmmio, MmioHandler.handle, ← or_assoc, hsize, false_or,
          if_false, ne_eq, hw, not_false_eq_true, if_true]
        exact vcpu_setVCpu _ m

theorem vcpu_serveCpuid (host : HostCpuid) {reason : ExitReason}
    (hr : reason = .unknown ∨ reason = .internalError) (m : Machine δ) :
    (m.serveCpuid host).2.vcpu =
      match m.handed host reason with
      | some (.leaf result) =>
        if (m.vcpu.faults .cpuidHandler .getRegs).isSome then m.vcpu
        else if (m.vcpu.faults .cpuidHandler .setRegs).isSome then m.vcpu
        else { m.vcpu with regs := CpuidHandler.inject result m.vcpu.regs }
      | _ => m.vcpu := by
  rcases hcpuid : m.cpuid with _ | h
  · rcases hr with rfl | rfl <;> simp [serveCpuid, handed, hcpuid]
  · have hv : (m.serveCpuid host).2.vcpu = (h.handle host m.vcpu m.dev).2.2.1 := by
      simp only [serveCpuid, hcpuid]
      exact vcpu_setVCpu _ m
    rw [hv, CpuidHandler.handle_eq]
    rcases hr with rfl | rfl <;> simp only [handed, hcpuid, Option.map_some] <;>
      rcases m.vcpu.faults .cpuidHandler .getRegs with _ | e <;>
      rcases m.vcpu.faults .cpuidHandler .setRegs with _ | e' <;> simp

/-- How much a port access adds to a counter. -/
def ioGrowth (v : VCpu) (present : Bool) : Counter → UInt64
  | .inCount => if present ∧ v.kvmRun.io.direction ≠ KVM_EXIT_IO_OUT then 1 else 0
  | .outCount => if present ∧ v.kvmRun.io.direction = KVM_EXIT_IO_OUT then 1 else 0
  | _ => 0

/-- How much an MMIO access adds to a counter. -/
def mmioGrowth (v : VCpu) (present : Bool) : Counter → UInt64
  | .readCount => if present ∧ ¬(v.kvmRun.mmio.len.toUInt8 = 0 ∨ v.kvmRun.mmio.len.toUInt8 > 8) ∧
      v.kvmRun.mmio.isWrite = 0 then 1 else 0
  | .writeCount => if present ∧ ¬(v.kvmRun.mmio.len.toUInt8 = 0 ∨ v.kvmRun.mmio.len.toUInt8 > 8) ∧
      v.kvmRun.mmio.isWrite ≠ 0 then 1 else 0
  | _ => 0

/-- How much a CPUID adds to a counter. -/
def cpuidGrowth (v : VCpu) (present : Bool) : Counter → UInt64
  | .handledCount => if present ∧ v.faults .cpuidHandler .getRegs = none ∧
      v.faults .cpuidHandler .setRegs = none then 1 else 0
  | _ => 0

theorem counter_serveIo (m : Machine δ) (c : Counter) :
    m.serveIo.2.counter c = m.counter c + ioGrowth m.vcpu m.io.isSome c := by
  rcases hio : m.io with _ | h
  · cases c <;> simp [serveIo, hio, ioGrowth]
  · by_cases hdir : m.vcpu.kvmRun.io.direction = KVM_EXIT_IO_OUT <;> cases c <;>
      simp [serveIo, hio, ioGrowth, IoPortHandler.handle, hdir, counter, setVCpu]

theorem counter_serveMmio (m : Machine δ) (c : Counter) :
    m.serveMmio.2.counter c = m.counter c + mmioGrowth m.vcpu m.mmio.isSome c := by
  rcases hmmio : m.mmio with _ | h
  · cases c <;> simp [serveMmio, hmmio, mmioGrowth]
  · by_cases hsize : m.vcpu.kvmRun.mmio.len.toUInt8 = 0 ∨ m.vcpu.kvmRun.mmio.len.toUInt8 > 8 <;>
      by_cases hw : m.vcpu.kvmRun.mmio.isWrite = 0 <;> cases c <;>
      simp [serveMmio, hmmio, mmioGrowth, MmioHandler.handle, hsize, hw, counter, setVCpu]

theorem counter_serveCpuid (host : HostCpuid) (m : Machine δ) (c : Counter) :
    (m.serveCpuid host).2.counter c = m.counter c + cpuidGrowth m.vcpu m.cpuid.isSome c := by
  rcases hcpuid : m.cpuid with _ | h
  · cases c <;> simp [serveCpuid, hcpuid, cpuidGrowth]
  · rcases hg : m.vcpu.faults .cpuidHandler .getRegs with _ | e <;>
      rcases hs : m.vcpu.faults .cpuidHandler .setRegs with _ | e' <;> cases c <;>
      simp [serveCpuid, hcpuid, cpuidGrowth, CpuidHandler.handle_eq, hg, hs, counter, setVCpu]

/-! ## Twins -/

/-- Two ways of serving an exit : same result, twins again, and the counters go up alike. -/
structure SameServe (m m' : Machine δ) (a b : Bool × Machine δ) : Prop where
  ok : a.1 = b.1
  twin : Twin a.2 b.2
  growth : SameGrowth m a.2 m' b.2

variable {m m' : Machine δ} {host : HostCpuid}

theorem Twin.isSome_io (h : Twin m m') : m.io.isSome = m'.io.isSome := by
  have := congrArg (fun T => T.inPort.isSome) h.tables
  simpa [Machine.tables] using this

theorem Twin.isSome_mmio (h : Twin m m') : m.mmio.isSome = m'.mmio.isSome := by
  have := congrArg (fun T => T.read.isSome) h.tables
  simpa [Machine.tables] using this

theorem Twin.isSome_cpuid (h : Twin m m') : m.cpuid.isSome = m'.cpuid.isSome := by
  have := congrArg (fun T => T.leaf.isSome) h.tables
  simpa [Machine.tables] using this

theorem Twin.sameIo (h : Twin m m') (hh : m.handed host .io = m'.handed host .io) :
    SameServe m m' m.serveIo m'.serveIo where
  ok := by rw [serveIo_fst, serveIo_fst]
  twin :=
    ⟨by rw [vcpu_serveIo host, vcpu_serveIo host, hh, h.vcpu],
      by rw [memoryRegions_serveIo, memoryRegions_serveIo, h.memoryRegions],
      by rw [tables_serveIo, tables_serveIo, h.tables]⟩
  growth c := ⟨_, m.counter_serveIo c, by rw [counter_serveIo, ← h.vcpu, ← h.isSome_io]⟩

theorem Twin.sameMmio (h : Twin m m') (hh : m.handed host .mmio = m'.handed host .mmio) :
    SameServe m m' m.serveMmio m'.serveMmio where
  ok := by rw [serveMmio_fst, serveMmio_fst, h.vcpu, h.isSome_mmio]
  twin :=
    ⟨by rw [vcpu_serveMmio host, vcpu_serveMmio host, hh, h.vcpu],
      by rw [memoryRegions_serveMmio, memoryRegions_serveMmio, h.memoryRegions],
      by rw [tables_serveMmio, tables_serveMmio, h.tables]⟩
  growth c := ⟨_, m.counter_serveMmio c, by rw [counter_serveMmio, ← h.vcpu, ← h.isSome_mmio]⟩

theorem Twin.sameCpuid (h : Twin m m') {reason : ExitReason}
    (hr : reason = .unknown ∨ reason = .internalError)
    (hh : m.handed host reason = m'.handed host reason) :
    SameServe m m' (m.serveCpuid host) (m'.serveCpuid host) where
  ok := by rw [serveCpuid_fst_eq, serveCpuid_fst_eq, h.vcpu, h.isSome_cpuid]
  twin :=
    ⟨by rw [vcpu_serveCpuid host hr, vcpu_serveCpuid host hr, hh, h.vcpu],
      by rw [memoryRegions_serveCpuid, memoryRegions_serveCpuid, h.memoryRegions],
      by rw [tables_serveCpuid, tables_serveCpuid, h.tables]⟩
  growth c :=
    ⟨_, m.counter_serveCpuid host c, by rw [counter_serveCpuid, ← h.vcpu, ← h.isSome_cpuid]⟩

/-- Same result, same event, twins again, and the counters go up alike. -/
structure SameStep (m m' : Machine δ) (a b : RunResult × Machine δ × Option EventMaker) : Prop where
  result : a.1 = b.1
  event : a.2.2 = b.2.2
  twin : Twin a.2.1 b.2.1
  growth : SameGrowth m a.2.1 m' b.2.1

/-- Twins that are handed the same serve an exit in the same way. -/
theorem Twin.serve (h : Twin m m') {reason : ExitReason}
    (hh : m.handed host reason = m'.handed host reason) :
    SameStep m m' (m.serve host reason) (m'.serve host reason) := by
  cases reason
  case io =>
    have hs := h.sameIo hh
    simp only [Machine.serve, hs.ok]
    split <;> exact ⟨rfl, rfl, hs.twin, hs.growth⟩
  case mmio =>
    have hs := h.sameMmio hh
    simp only [Machine.serve, hs.ok]
    split <;> exact ⟨rfl, rfl, hs.twin, hs.growth⟩
  case unknown =>
    have hs := h.sameCpuid (.inl rfl) hh
    simp only [Machine.serve, hs.ok, h.vcpu]
    split
    · split <;> exact ⟨rfl, rfl, hs.twin, hs.growth⟩
    · exact ⟨rfl, rfl, h, .refl m m'⟩
  case internalError =>
    have hs := h.sameCpuid (.inr rfl) hh
    simp only [Machine.serve, hs.ok, h.vcpu]
    split
    · split <;> exact ⟨rfl, rfl, hs.twin, hs.growth⟩
    · exact ⟨rfl, rfl, h, .refl m m'⟩
  all_goals exact ⟨rfl, rfl, h, .refl m m'⟩

/-- What two machines have to share before a `KVM_RUN` : all that the guest can depend on, and the
callbacks. -/
structure Alike (m m' : Machine δ) : Prop where
  id : m.vcpu.id = m'.vcpu.id
  guestState : m.guestState = m'.guestState
  tables : m.tables = m'.tables

theorem Twin.alike (h : Twin m m') : Alike m m' where
  id := by rw [h.vcpu]
  guestState := by rw [guestState, guestState, h.vcpu, h.memoryRegions]
  tables := h.tables

theorem Alike.twin_afterRun (h : Alike m m') (x : KvmExit) :
    Twin (m.afterRun x) (m'.afterRun x) where
  vcpu := by rw [vcpu_afterRun, vcpu_afterRun, VCpu.run_snd, VCpu.run_snd, h.id]
  memoryRegions := by
    have hregions : m.vm.memoryRegions = m'.vm.memoryRegions :=
      congrArg GuestState.memoryRegions h.guestState
    simp only [afterRun, VirtualMachine.runVCpu, VirtualMachine.setRam, hregions]
  tables := h.tables

theorem Alike.twin_entered (h : Alike m m') (x : KvmExit) : Twin (m.entered x) (m'.entered x) :=
  ⟨(h.twin_afterRun x).vcpu, (h.twin_afterRun x).memoryRegions, (h.twin_afterRun x).tables⟩

theorem sameGrowth_entered (m m' : Machine δ) (x : KvmExit) :
    SameGrowth m (m.entered x) m' (m'.entered x) := by
  intro c
  cases c with
  | exitCount => exact ⟨1, rfl, rfl⟩
  | _ => exact ⟨0, (UInt64.add_zero _).symm, (UInt64.add_zero _).symm⟩

/-- Machines that are alike take the same step, if they are handed the same. -/
theorem Alike.step (h : Alike m m') {x : KvmExit}
    (hh : ∀ reason ∈ x.reason,
      (m.entered x).handed host reason = (m'.entered x).handed host reason) :
    SameStep m m' (m.step host x) (m'.step host x) := by
  unfold Machine.step
  rcases hr : x.reason with _ | reason
  · exact ⟨rfl, rfl, h.twin_afterRun x, .refl m m'⟩
  · have hs := (h.twin_entered x).serve (hh reason hr)
    exact ⟨hs.result, hs.event, hs.twin, (sameGrowth_entered m m' x).trans hs.growth⟩

/-- Pure callbacks hand the same to twins. -/
theorem Twin.handed_of_pure (h : Twin m m') (hp : m.tables.Pure) (reason : ExitReason) :
    m.handed host reason = m'.handed host reason := by
  have hin : m.io.map (·.inCallbacks) = m'.io.map (·.inCallbacks) :=
    congrArg Tables.inPort h.tables
  have hread : m.mmio.map (·.readCallbacks) = m'.mmio.map (·.readCallbacks) :=
    congrArg Tables.read h.tables
  have hleaf : m.cpuid.map (·.leafCallbacks) = m'.cpuid.map (·.leafCallbacks) :=
    congrArg Tables.leaf h.tables
  have hpin := hp.inPort
  have hpread := hp.read
  have hpleaf := hp.leaf
  simp only [Machine.tables] at hpin hpread hpleaf
  cases reason
  case io =>
    simp only [handed, h.vcpu]
    rcases hio : m.io with _ | hd <;> rcases hio' : m'.io with _ | hd' <;> simp [hio, hio'] at hin ⊢
    have hsame := hd.input_of_pure hin (hpin _ (by simp [hio]))
      (IoPortHandler.inContext m'.vcpu.kvmRun) m.dev m'.dev
    rw [hsame]
  case mmio =>
    simp only [handed, h.vcpu]
    rcases hmmio : m.mmio with _ | hd <;> rcases hmmio' : m'.mmio with _ | hd' <;>
      simp [hmmio, hmmio'] at hread ⊢
    have hsame := hd.read_of_pure hread (hpread _ (by simp [hmmio]))
      (MmioHandler.readContext m'.vcpu.kvmRun) m.dev m'.dev
    rw [hsame]
  case unknown | internalError =>
    simp only [handed, h.vcpu]
    rcases hcpuid : m.cpuid with _ | hd <;> rcases hcpuid' : m'.cpuid with _ | hd' <;>
      simp [hcpuid, hcpuid'] at hleaf ⊢
    exact hd.answer_of_pure hleaf (hpleaf _ (by simp [hcpuid])) host _ _ m.dev m'.dev
  all_goals rfl

/-! ## What a run keeps -/

/-- The machine `m` can be reached from `m₀` : same position and id of the vCPU, same callbacks, and
the memory regions have other bytes at most. -/
structure Follows (m₀ m : Machine δ) : Prop where
  index : m.vcpuIndex = m₀.vcpuIndex
  id : m.vcpu.id = m₀.vcpu.id
  regions : Keeps m₀.vm.memoryRegions m.vm.memoryRegions
  length : m.vm.memoryRegions.length = m₀.vm.memoryRegions.length
  tables : m.tables = m₀.tables

theorem Follows.refl (m : Machine δ) : Follows m m :=
  ⟨rfl, rfl, (Grown.refl m.vm).regions, rfl, rfl⟩

theorem Follows.trans {m₀ m m' : Machine δ} (h : Follows m₀ m) (h' : Follows m m') :
    Follows m₀ m' :=
  ⟨h'.index.trans h.index, h'.id.trans h.id, h.regions.trans h'.regions, h'.length.trans h.length,
    h'.tables.trans h.tables⟩

theorem index_step (host : HostCpuid) (x : KvmExit) (m : Machine δ) :
    (m.step host x).2.1.vcpuIndex = m.vcpuIndex := by
  unfold step
  split
  · rfl
  · refine serve_inv (P := fun n => n.vcpuIndex = m.vcpuIndex) (m := m.entered x) rfl ?_ ?_ ?_ _
    · unfold serveIo
      split <;> rfl
    · unfold serveMmio
      split <;> rfl
    · unfold serveCpuid
      split <;> rfl

theorem id_step (host : HostCpuid) (x : KvmExit) (m : Machine δ) :
    (m.step host x).2.1.vcpu.id = m.vcpu.id := by
  have hentered : (m.entered x).vcpu.id = m.vcpu.id := by rw [vcpu_entered, VCpu.run_snd]
  unfold step
  split
  · exact hentered
  · refine serve_inv (P := fun n => n.vcpu.id = m.vcpu.id) hentered ?_ ?_ ?_ _
    · rw [vcpu_serveIo host]
      split <;> exact hentered
    · rw [vcpu_serveMmio host]
      split <;> exact hentered
    · rw [vcpu_serveCpuid host (.inl rfl)]
      split
      · split
        · exact hentered
        · split <;> exact hentered
      · exact hentered

/-- A step leads on. -/
theorem Follows.step {m₀ : Machine δ} (h : Follows m₀ m) (host : HostCpuid) (x : KvmExit) :
    Follows m₀ (m.step host x).2.1 where
  index := (m.index_step host x).trans h.index
  id := (m.id_step host x).trans h.id
  regions := by
    rw [memoryRegions_step]
    exact h.regions.trans (grown_runVCpu m.vcpuIndex x m.vm).regions
  length := by
    rw [memoryRegions_step, ← h.length, VirtualMachine.setRam, List.length_mapIdx]
  tables := (m.tables_step host x).trans h.tables

end Machine

end MinBp
