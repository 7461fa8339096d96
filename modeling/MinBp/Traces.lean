import MinBp.Accesses
import MinBp.MainProgram

/-!
# The logs of `main`

Which events can `main` publish, and in which order? `Trace` answers without a machine. It reads
a log from the front, and an event may come next if the log so far explains it (`Explained`). A read
of the keyboard port gives the scancode, a read of the status register the number of writes to the
input register that the log shows and the last value written, in all iterations together. A CPUID
shows the host's answer, and nothing at all for leaf one. The third halt or shutdown is the last
event.

`eventAt` is the step between the two : the event of an exit, from the exit and the writes so far.
Every step of the run loop publishes it (`Wired.step_eventAt`), it is explained
(`explained_eventAt`), and every explained event is the one of some exit (`exists_eventAt`).
`main_traces_iff` lifts this to whole runs : behind the CPUID table the logs of `main` are the
traces, and those of the runs that return 0 are the traces with three stops.
-/

open Bytes

namespace MinBp

namespace Main

/-! ## Traces -/

/-- The value an event shows to be written to the input register. -/
def inputWritten (ev : HvEvent) : Option UInt64 :=
  match ev.payload with
  | .mmio e => if e.isWrite ∧ e.guestPhysAddr = kRegInput then some e.value else none
  | _ => none

/-- The values a log shows to be written to the input register. -/
def inputs (evs : List HvEvent) : List UInt64 :=
  evs.filterMap inputWritten

/-- The event ends an iteration. -/
def endsIteration (ev : HvEvent) : Bool :=
  ev.type == .guestHalt || ev.type == .guestShutdown

/-- The number of iterations that a log shows to have ended. -/
def endings (evs : List HvEvent) : ℕ :=
  evs.countP endsIteration

/-- What a port gives. -/
def portValue (port : UInt16) : ℕ :=
  if port = 0x60 then 0x1A else 2 ^ 32 - 1

/-- What an MMIO register gives after the writes `seen`. -/
def registerValue (seen : List UInt64) (addr : UInt64) : ℕ :=
  if addr = kRegMagic then 0x4D4D494F
  else if addr = kRegStatus then
    seen.length % 2 ^ 32 * 2 ^ 32 + (seen.getLast?.getD 0).toNat % 2 ^ 32
  else 2 ^ 64 - 1

/-- What a CPUID event shows of an answer. -/
def echo (r : LeafResult) : CpuidEvent where
  leaf := r.eax
  subleaf := r.ecx
  eax := r.eax
  ebx := r.ebx
  ecx := r.ecx
  edx := r.edx

/-- What a CPUID leaf gives. -/
def leafValue (host : HostCpuid) (leaf subleaf : UInt32) : LeafResult :=
  if leaf = 0x01 then {} else host leaf subleaf

/-- The events that `main` can publish after the writes `seen`. -/
inductive Explained (host : HostCpuid) (seen : List UInt64) : HvEvent → Prop
  | halt (rip : UInt64) : Explained host seen { type := .guestHalt, rip, payload := .monostate }
  | shutdown : Explained host seen { type := .guestShutdown }
  | input (port : UInt16) (size : UInt8) (rip : UInt64) :
    Explained host seen
      { type := .ioRead, rip
        payload := .io
          { port, size, value := UInt32.ofNat (portValue port % 256 ^ min size.toNat 4) } }
  | output (port : UInt16) (size : UInt8) (value : UInt32) (rip : UInt64)
      (h : value.toNat < 256 ^ min size.toNat 4) :
    Explained host seen
      { type := .ioWrite, rip, payload := .io { port, size, value, isWrite := true } }
  | read (addr : UInt64) (size : UInt8) (rip : UInt64) (hsize : ¬(size = 0 ∨ size > 8)) :
    Explained host seen
      { type := .memAccess, rip
        payload := .mmio
          { guestPhysAddr := addr, size
            value := UInt64.ofNat (registerValue seen addr % 256 ^ size.toNat) } }
  | write (addr : UInt64) (size : UInt8) (value : UInt64) (rip : UInt64)
      (hsize : ¬(size = 0 ∨ size > 8)) (h : value.toNat < 256 ^ size.toNat) :
    Explained host seen
      { type := .memAccess, rip
        payload := .mmio { guestPhysAddr := addr, size, value, isWrite := true } }
  | cpuid (leaf subleaf : UInt32) (rip : UInt64) :
    Explained host seen
      { type := .cpuidAccess, rip, payload := .cpuid (echo (leafValue host leaf subleaf)) }

/-- The logs in which every event is explained by those before it, and the third stop is the
last. -/
inductive Trace (host : HostCpuid) : List HvEvent → Prop
  | nil : Trace host []
  | snoc {evs : List HvEvent} {ev : HvEvent} (htrace : Trace host evs)
      (hends : endings evs < maxIterations) (h : Explained host (inputs evs) ev) :
    Trace host (evs ++ [ev])

/-- The events of the CPUID table. -/
def tableEvents (host : HostCpuid) : List HvEvent :=
  cpuidLeaves.map fun leaf => leafEvent host leaf {} 0

theorem inputs_append_toList (evs : List HvEvent) (o : Option HvEvent) :
    inputs (evs ++ o.toList) = inputs evs ++ (o.bind inputWritten).toList := by
  rw [inputs, List.filterMap_append, ← inputs]
  rcases o with _ | ev
  · rfl
  · cases h : inputWritten ev <;> simp [h]

theorem endings_append_toList (evs : List HvEvent) (o : Option HvEvent) :
    endings (evs ++ o.toList) = endings evs + if o.any endsIteration then 1 else 0 := by
  rw [endings, List.countP_append, endings]
  cases o <;> simp [List.countP_singleton]

/-! ## The devices by the log -/

/-- The devices after some writes to the input register. -/
def deviceAfter (seen : List UInt64) : MmioDeviceState where
  lastWriteValue := seen.getLast?.getD 0
  writeCount := UInt64.ofNat seen.length

theorem deviceAfter_append_singleton (seen : List UInt64) (value : UInt64) :
    deviceAfter (seen ++ [value]) = (deviceAfter seen).input value := by
  simp [deviceAfter, MmioDeviceState.input, UInt64.ofNat_add]

/-- What the log says about the registers is what the devices give. -/
theorem toNat_readValue (seen : List UInt64) (addr : UInt64) :
    (readValue addr (deviceAfter seen)).toNat = registerValue seen addr := by
  unfold readValue registerValue
  split_ifs
  · rfl
  · have hcount : (UInt64.ofNat seen.length).toNat % 2 ^ 32 = seen.length % 2 ^ 32 := by
      rw [UInt64.toNat_ofNat']
      exact Nat.mod_mod_of_dvd _ (by decide)
    rw [MmioDeviceState.toNat_status]
    simp only [deviceAfter, hcount]
  · rfl

/-! ## The event of an exit -/

/-- The instruction pointer in the event of an exit. -/
def exitRip (x : KvmExit) : UInt64 :=
  if x.faults .eventRip .getRegs = none then x.regs.rip else 0

/-- The event of an exit after the writes `seen`, if it has one. -/
def eventAt (host : HostCpuid) (seen : List UInt64) (x : KvmExit) : Option HvEvent :=
  match x.reason with
  | some .hlt => some { type := .guestHalt, rip := exitRip x, payload := .monostate }
  | some .shutdown => some { type := .guestShutdown }
  | some .io =>
    let port := x.run.io.port
    let size := x.run.io.size
    if x.run.io.direction = KVM_EXIT_IO_OUT then
      some
        { type := .ioWrite, rip := exitRip x
          payload := .io { port, size, value := x.run.ioValue, isWrite := true } }
    else
      some
        { type := .ioRead, rip := exitRip x
          payload := .io
            { port, size, value := UInt32.ofNat (portValue port % 256 ^ min size.toNat 4) } }
  | some .mmio =>
    let guestPhysAddr := x.run.mmio.physAddr
    let size := x.run.mmio.len.toUInt8
    if x.run.mmio.Accepted then
      if x.run.mmio.isWrite ≠ 0 then
        some
          { type := .memAccess, rip := exitRip x
            payload := .mmio { guestPhysAddr, size, value := x.run.mmioValue, isWrite := true } }
      else
        some
          { type := .memAccess, rip := exitRip x
            payload := .mmio
              { guestPhysAddr, size
                value := UInt64.ofNat (registerValue seen guestPhysAddr % 256 ^ size.toNat) } }
    else none
  | some .internalError =>
    if x.run.suberror = KVM_INTERNAL_ERROR_EMULATION ∧ ¬x.LeafFails then
      some
        { type := .cpuidAccess, rip := exitRip x
          payload := .cpuid
            (if x.faults .eventPayload .getRegs = none then
              echo (leafValue host x.regs.rax.toUInt32 x.regs.rcx.toUInt32)
            else {}) }
    else none
  | _ => none

theorem eventRip_eq {x : KvmExit} {v : VCpu} (hfaults : v.faults = x.faults)
    (hrip : v.regs.rip = x.regs.rip) : eventRip v = exitRip x := by
  unfold eventRip exitRip VCpu.getRegs
  rw [hfaults]
  rcases x.faults .eventRip .getRegs with _ | e
  · exact hrip
  · rfl

/-- The value that an `IN` leaves in the run page. -/
theorem ioValue_input (run : KvmRun) {result : ℕ} (h : result < 2 ^ 32) :
    KvmRun.ioValue
      { run with
        page := store run.page run.io.dataOffset.toNat
          (encode (min run.io.size.toNat 4) result) } =
      UInt32.ofNat (result % 256 ^ min run.io.size.toNat 4) := by
  rw [← UInt32.toNat_inj, ioValue_store,
    UInt32.toNat_ofNat_of_lt' ((Nat.mod_le _ _).trans_lt h)]

/-- The value that an MMIO read leaves in the run page. -/
theorem mmioValue_read (run : KvmRun) {result : ℕ} (h : result < 2 ^ 64)
    (hacc : run.mmio.Accepted) :
    KvmRun.mmioValue
      { run with
        mmio := { run.mmio with
          data := store run.mmio.data 0 (encode run.mmio.len.toUInt8.toNat result) } } =
      UInt64.ofNat (result % 256 ^ run.mmio.len.toUInt8.toNat) := by
  have hsize : run.mmio.len.toUInt8.toNat ≤ 8 :=
    UInt8.le_iff_toNat_le.1 ((Machine.served_iff _).2 hacc).2
  rw [← UInt64.toNat_inj, mmioValue_store _ _ hsize,
    UInt64.toNat_ofNat_of_lt' ((Nat.mod_le _ _).trans_lt h)]

end Main

namespace Machine

open Main

variable {m : Machine MmioDeviceState} {host : HostCpuid} {seen : List UInt64}

/-- What an `IN` hands to the guest. -/
theorem Wired.handed_io (h : m.Wired) :
    m.handed host .io =
      if m.vcpu.kvmRun.io.direction = KVM_EXIT_IO_OUT then none
      else some (.bytes (encode (min m.vcpu.kvmRun.io.size.toNat 4)
        (portValue m.vcpu.kvmRun.io.port))) := by
  obtain ⟨hd, hio, hin, -⟩ := h.exists_io
  have hport : (if m.vcpu.kvmRun.io.port = 0x60 then 0x1A else 0xFFFFFFFF : UInt32).toNat =
      portValue m.vcpu.kvmRun.io.port := by
    unfold portValue
    split_ifs <;> rfl
  rw [← hport]
  simp only [handed, hio, Option.map_some, input_eq hin]
  rfl

/-- What a CPUID hands to the guest. -/
theorem Wired.handed_cpuid (h : m.Wired) :
    m.handed host .internalError =
      some (.leaf (leafValue host m.vcpu.regs.rax.toUInt32 m.vcpu.regs.rcx.toUInt32)) := by
  obtain ⟨hd, hcpuid, hleaf⟩ := h.exists_cpuid
  simp only [handed, hcpuid, Option.map_some, answer_eq hleaf, leafValue]

/-- The event of a port access. -/
theorem Wired.io_eventAt (h : m.Wired) (hid : m.vcpu.id = 0) {x : KvmExit}
    (hx : x.reason = some .io) :
    some (ioEvent (m.entered x).serveIo.2.vcpu 0).untimed = eventAt host seen x := by
  have hw : (m.entered x).Wired := h
  have hport : portValue x.run.io.port < 2 ^ 32 := by
    unfold portValue
    split_ifs <;> decide
  rw [vcpu_serveIo host, hw.handed_io, vcpu_entered, VCpu.run_snd]
  by_cases hdir : x.run.io.direction = KVM_EXIT_IO_OUT
  · simp only [eventAt, hx, hdir, if_true, ioEvent, ioPayload, HvEvent.untimed, hid,
      beq_self_eq_true]
    rw [eventRip_eq (x := x) rfl rfl]
  · have hread : (x.run.io.direction == KVM_EXIT_IO_OUT) = false := beq_false_of_ne hdir
    simp only [eventAt, hx, hdir, if_false, ioEvent, ioPayload, HvEvent.untimed, hid, hread,
      ioValue_input x.run hport, Bool.false_eq_true]
    rw [eventRip_eq (x := x) rfl rfl]

/-- The event of an MMIO access. -/
theorem Wired.mmio_eventAt (h : m.Wired) (hid : m.vcpu.id = 0) (hdev : m.dev = deviceAfter seen)
    {x : KvmExit} (hx : x.reason = some .mmio) (hacc : x.run.mmio.Accepted) :
    some (mmioEvent (m.entered x).serveMmio.2.vcpu 0).untimed = eventAt host seen x := by
  have hw : (m.entered x).Wired := h
  have hdev' : (m.entered x).dev = deviceAfter seen := hdev
  have hvalue : registerValue seen x.run.mmio.physAddr < 2 ^ 64 := by
    rw [← toNat_readValue]
    exact UInt64.toNat_lt _
  rw [vcpu_serveMmio host, hw.handed_mmio, vcpu_entered, VCpu.run_snd, hdev', toNat_readValue]
  by_cases hwrite : x.run.mmio.isWrite = 0
  · have hbne : (x.run.mmio.isWrite != 0) = false := bne_eq_false_iff_eq.2 hwrite
    rw [if_pos ⟨hacc, hwrite⟩]
    simp only [eventAt, hx, if_pos hacc, if_neg (not_not.2 hwrite), mmioEvent, mmioPayload,
      HvEvent.untimed, hid, hbne, mmioValue_read x.run hvalue hacc]
    rw [eventRip_eq (x := x) rfl rfl]
  · have hbne : (x.run.mmio.isWrite != 0) = true := bne_iff_ne.2 hwrite
    simp only [eventAt, hx, hacc, hwrite, and_false, if_true, if_false, ne_eq, not_false_eq_true,
      mmioEvent, mmioPayload, HvEvent.untimed, hid, hbne]
    rw [eventRip_eq (x := x) rfl rfl]

/-- The event of a CPUID. -/
theorem Wired.cpuid_eventAt (h : m.Wired) (hid : m.vcpu.id = 0) {x : KvmExit}
    (hx : x.reason = some .internalError) (hsub : x.run.suberror = KVM_INTERNAL_ERROR_EMULATION)
    (hok : ¬x.LeafFails) :
    some (cpuidEvent ((m.entered x).serveCpuid host).2.vcpu 0).untimed =
      eventAt host seen x := by
  have hw : (m.entered x).Wired := h
  obtain ⟨hget, hset⟩ := not_or.1 hok
  rw [vcpu_serveCpuid host (.inr rfl), hw.handed_cpuid, vcpu_entered, VCpu.run_snd]
  simp only [eventAt, hx, hsub, hok, not_false_eq_true, and_self, if_true, hget, hset,
    cpuidEvent, HvEvent.untimed, hid]
  rw [eventRip_eq (x := x) rfl rfl, cpuidPayload, VCpu.getRegs]
  rcases hread : x.faults .eventPayload .getRegs with _ | e
  · simp [hread, echo, CpuidHandler.inject]
  · simp [hread]

/-- Every step publishes the event of its exit. -/
theorem Wired.step_eventAt (h : m.Wired) (hid : m.vcpu.id = 0) (hdev : m.dev = deviceAfter seen)
    (x : KvmExit) :
    ((m.step host x).2.2.map fun mk => (mk (m.step host x).2.1.vcpu 0).untimed) =
      eventAt host seen x := by
  have hrun : (m.entered x).vcpu.kvmRun = x.run := by simp
  unfold step
  rcases hx : x.reason with _ | reason
  · simp [eventAt, hx]
  · cases reason
    case hlt =>
      simp [serve, eventAt, hx, haltEvent, HvEvent.untimed, hid]
      exact eventRip_eq rfl rfl
    case shutdown => simp [serve, eventAt, hx, shutdownEvent, HvEvent.untimed, hid]
    case io =>
      simp only [serve, serveIo_fst, if_true, Option.map_some]
      exact h.io_eventAt hid hx
    case mmio =>
      have hfails := m.serveMmio_entered x
      by_cases hacc : x.run.mmio.Accepted
      · have hfst : (m.entered x).serveMmio.1 = true :=
          Bool.eq_true_of_not_eq_false fun hf => hacc (hfails.1 hf).2
        simp only [serve, hfst, if_true, Option.map_some]
        exact h.mmio_eventAt hid hdev hx hacc
      · have hfst := hfails.2 ⟨h.isSome_mmio, not_not.1 hacc⟩
        simp [serve, hfst, eventAt, hx, hacc]
    case internalError =>
      have hfails := m.serveCpuid_entered host x
      by_cases hsub : x.run.suberror = KVM_INTERNAL_ERROR_EMULATION
      · by_cases hleaf : x.LeafFails
        · have hfst := hfails.2 ⟨h.isSome_cpuid, hleaf⟩
          simp [serve, hsub, hfst, eventAt, hx, hleaf]
        · have hfst : ((m.entered x).serveCpuid host).1 = true :=
            Bool.eq_true_of_not_eq_false fun hf => hleaf (hfails.1 hf).2
          simp only [serve, hrun, hsub, hfst, if_true, Option.map_some]
          exact h.cpuid_eventAt hid hx hsub hleaf
      · simp [serve, hsub, eventAt, hx]
    case unknown =>
      simp only [serve, eventAt, hx]
      split_ifs <;> rfl
    all_goals simp [serve, eventAt, hx]

end Machine

namespace Main

variable {host : HostCpuid} {seen : List UInt64}

theorem ioValue_lt (run : KvmRun) : run.ioValue.toNat < 256 ^ min run.io.size.toNat 4 := by
  rw [KvmRun.ioValue, UInt32.toNat_ofNat']
  exact (Nat.mod_le _ _).trans_lt (value_load_lt _ _ le_rfl)

theorem mmioValue_lt (run : KvmRun) :
    run.mmioValue.toNat < 256 ^ run.mmio.len.toUInt8.toNat := by
  rw [KvmRun.mmioValue, UInt64.toNat_ofNat']
  exact (Nat.mod_le _ _).trans_lt (value_load_lt _ _ (min_le_left _ _))

/-- The event of an exit is explained. -/
theorem explained_eventAt {x : KvmExit} {ev : HvEvent} (h : eventAt host seen x = some ev) :
    Explained host seen ev := by
  unfold eventAt at h
  split at h
  · cases h
    exact .halt _
  · cases h
    exact .shutdown
  · dsimp only at h
    split_ifs at h <;> cases h
    · exact .output _ _ _ _ (ioValue_lt _)
    · exact .input _ _ _
  · dsimp only at h
    split_ifs at h with hacc <;> cases h
    · exact .write _ _ _ _ hacc (mmioValue_lt _)
    · exact .read _ _ _ hacc
  · split_ifs at h
    · cases h
      exact .cpuid _ _ _
    · cases h
      -- leaf one gives nothing either
      exact .cpuid 0x01 0 _
  · cases h

/-- Every explained event is the event of an exit. -/
theorem exists_eventAt {ev : HvEvent} (h : Explained host seen ev) :
    ∃ x, eventAt host seen x = some ev := by
  cases h with
  | halt rip => exact ⟨{ regs := { rip }, run := { exitReason := 5 } }, rfl⟩
  | shutdown => exact ⟨{ run := { exitReason := 8 } }, rfl⟩
  | input port size rip =>
    exact ⟨{ regs := { rip }, run := { exitReason := 2, io := { port, size } } }, rfl⟩
  | output port size value rip h =>
    let run : KvmRun :=
      { exitReason := 2
        io := { direction := KVM_EXIT_IO_OUT, port, size }
        page := store (fun _ => 0) 0 (encode (min size.toNat 4) value.toNat) }
    have hvalue : run.ioValue = value := by
      rw [← UInt32.toNat_inj]
      exact (ioValue_store { io := { port, size } } value.toNat).trans (Nat.mod_eq_of_lt h)
    refine ⟨{ regs := { rip }, run }, ?_⟩
    show some _ = _
    rw [hvalue]
    rfl
  | read addr size rip hsize =>
    let x : KvmExit :=
      { regs := { rip }
        run := { exitReason := 6, mmio := { physAddr := addr, len := size.toUInt32 } } }
    have hlen : x.run.mmio.len.toUInt8 = size := UInt8.toUInt8_toUInt32 size
    have hacc : x.run.mmio.Accepted := by rwa [KvmMmio.Accepted, hlen]
    have hx : x.reason = some .mmio := rfl
    refine ⟨x, ?_⟩
    simp only [eventAt, hx, if_pos hacc, hlen]
    rfl
  | write addr size value rip hsize h =>
    let run : KvmRun :=
      { exitReason := 6
        mmio :=
          { physAddr := addr, len := size.toUInt32, isWrite := 1
            data := store (fun _ => 0) 0 (encode size.toUInt32.toUInt8.toNat value.toNat) } }
    let x : KvmExit := { regs := { rip }, run }
    have hlen : x.run.mmio.len.toUInt8 = size := UInt8.toUInt8_toUInt32 size
    have hacc : x.run.mmio.Accepted := by rwa [KvmMmio.Accepted, hlen]
    have hx : x.reason = some .mmio := rfl
    have hvalue : x.run.mmioValue = value := by
      have hread := mmioValue_read
        { mmio := { physAddr := addr, len := size.toUInt32, isWrite := 1 } } value.toNat_lt hacc
      refine hread.trans ?_
      show UInt64.ofNat (value.toNat % 256 ^ x.run.mmio.len.toUInt8.toNat) = value
      rw [hlen, Nat.mod_eq_of_lt h, UInt64.ofNat_toNat]
    refine ⟨x, ?_⟩
    simp only [eventAt, hx, if_pos hacc, hlen, hvalue]
    rfl
  | cpuid leaf subleaf rip =>
    let x : KvmExit :=
      { regs := { rip, rax := leaf.toUInt64, rcx := subleaf.toUInt64 }
        run := { exitReason := 17, suberror := KVM_INTERNAL_ERROR_EMULATION } }
    have hx : x.reason = some .internalError := rfl
    have hok : x.run.suberror = KVM_INTERNAL_ERROR_EMULATION ∧ ¬x.LeafFails :=
      ⟨rfl, by rintro (h | h) <;> cases h⟩
    have hleaf : x.regs.rax.toUInt32 = leaf := UInt32.toUInt32_toUInt64 leaf
    have hsubleaf : x.regs.rcx.toUInt32 = subleaf := UInt32.toUInt32_toUInt64 subleaf
    refine ⟨x, ?_⟩
    simp only [eventAt, hx, if_pos hok, hleaf, hsubleaf]
    rfl

/-- The log shows exactly the writes that the input register has got. -/
theorem inputWritten_eventAt (x : KvmExit) :
    (eventAt host seen x).bind inputWritten =
      if x.WritesInput then some x.run.mmioValue else none := by
  rcases hx : x.reason with _ | reason
  · simp [eventAt, KvmExit.WritesInput, hx]
  · cases reason
    case mmio =>
      by_cases hacc : x.run.mmio.Accepted <;> by_cases hwrite : x.run.mmio.isWrite = 0 <;>
        simp [eventAt, KvmExit.WritesInput, KvmMmio.WritesInput, hx, hacc, hwrite, inputWritten]
    case io =>
      by_cases hdir : x.run.io.direction = KVM_EXIT_IO_OUT <;>
        simp [eventAt, KvmExit.WritesInput, hx, hdir, inputWritten]
    case internalError =>
      by_cases hok : x.run.suberror = KVM_INTERNAL_ERROR_EMULATION ∧ ¬x.LeafFails <;>
        simp [eventAt, KvmExit.WritesInput, hx, hok, inputWritten]
    all_goals simp [eventAt, KvmExit.WritesInput, hx, inputWritten]

/-- The log shows exactly the exits that end an iteration. -/
theorem endsIteration_eventAt (x : KvmExit) :
    (eventAt host seen x).any endsIteration ↔ x.verdict = .stops := by
  rw [x.stops_iff]
  rcases hx : x.reason with _ | reason
  · simp [eventAt, hx]
  · cases reason
    case io | mmio | internalError =>
      simp only [eventAt, hx]
      split_ifs <;> simp [endsIteration]
    all_goals simp [eventAt, hx, endsIteration]

/-! ## Whole runs -/

/-- The loop after the exits `ys`, with the log `rest` behind the table. -/
structure Follows (env : Environment) (s₀ : Hv) (ys : List KvmExit) (rest : List HvEvent)
    (p : Loop) : Prop where
  going : Going s₀ ys p
  events : p.hv.events = tableEvents env.host ++ rest
  trace : Trace env.host rest
  dev : p.hv.machine.dev = deviceAfter (inputs rest)
  ids : p.hv.machine.ids = [0]
  endings : endings rest = stops ys

/-- The start of an iteration leaves the log. -/
theorem enter_frame (p : Loop) (snap : VmSnapShot) (i : ℕ) :
    ∃ m, (p.enter snap i).hv = p.hv.setMachine m ∧ p.hv.machine.SameProgram m := by
  unfold Program.enter
  split
  · exact ⟨p.hv.machine, rfl, rfl, rfl, rfl, rfl⟩
  · rename_i hv hhv
    exact Hypervisor.startIteration_frame hhv

/-- From one `KVM_RUN` to the next there is one step, and perhaps the start of an iteration. -/
theorem afterKvmRun_frame (p : Loop) (host : HostCpuid) (snap : VmSnapShot) (x : KvmExit) :
    ∃ m, (p.afterKvmRun host snap x).hv = (p.hv.step host x).2.setMachine m ∧
      (p.hv.step host x).2.machine.SameProgram m := by
  have hself : ∀ hv : Hv, ∃ m, hv = hv.setMachine m ∧ hv.machine.SameProgram m := fun hv =>
    ⟨hv.machine, rfl, rfl, rfl, rfl, rfl⟩
  unfold Program.afterKvmRun
  rcases p.hv.step host x with ⟨result, hv⟩
  cases result
  case cont | error => exact hself hv
  case halt | shutdown =>
    dsimp only
    split_ifs
    · exact enter_frame _ _ _
    · exact hself hv

namespace Follows

variable {env : Environment} {snap : VmSnapShot} {s₀ : Hv} {ys : List KvmExit}
  {rest : List HvEvent} {p : Loop}

theorem id (h : Follows env s₀ ys rest p) : p.hv.machine.vcpu.id = 0 := by
  have hmem : p.hv.machine.vcpu.id ∈ p.hv.machine.ids :=
    List.mem_map_of_mem (List.get_mem _ _)
  rw [h.ids] at hmem
  exact List.mem_singleton.1 hmem

/-- One more exit, and its event. -/
theorem afterKvmRun (h₀ : Started env snap s₀) (h : Follows env s₀ ys rest p)
    (hrun : p.status = .running) (x : KvmExit) :
    Follows env s₀ (ys ++ [x]) (rest ++ (eventAt env.host (inputs rest) x).toList)
      (p.afterKvmRun env.host snap x) := by
  obtain ⟨m, hhv, hsame⟩ := afterKvmRun_frame p env.host snap x
  have hwired := h.going.carried.wired
  have hmachine := h.going.carried.reports.passive.machine_step env.host x
  have hdispatch : p.hv.dispatch.isSome := by
    rw [h.going.carried.reports.dispatch]
    rfl
  rw [hmachine] at hsame
  refine ⟨h.going.afterKvmRun h₀ hrun x, ?_, ?_, ?_, ?_, ?_⟩
  · have hevents := Hypervisor.events_step env.host x p.hv
    have hevent : ((p.hv.machine.step env.host x).2.2.map fun mk =>
        (mk (p.hv.machine.step env.host x).2.1.vcpu 0).untimed) =
          eventAt env.host (inputs rest) x := hwired.step_eventAt h.id h.dev x
    rw [if_pos hdispatch, h.events, ← Option.toList_map, hevent, List.append_assoc] at hevents
    rw [hhv]
    exact hevents
  · rcases hev : eventAt env.host (inputs rest) x with _ | ev
    · rw [Option.toList_none, List.append_nil]
      exact h.trace
    · refine h.trace.snoc ?_ (explained_eventAt hev)
      have htook := h.going.took
      rw [hrun] at htook
      exact h.endings.trans_lt htook.2
  · rw [hhv]
    refine hsame.dev.trans ?_
    rw [hwired.dev_step, h.dev, inputs_append_toList, inputWritten_eventAt]
    split_ifs
    · exact (deviceAfter_append_singleton _ _).symm
    · rw [Option.toList_none, List.append_nil]
  · rw [hhv]
    exact hsame.ids.trans ((Machine.ids_step _ _ _).trans h.ids)
  · rw [endings_append_toList, stops_append_singleton, h.endings]
    congr 1
    exact if_congr (endsIteration_eventAt x) rfl rfl

/-- Whatever happens, the log stays a trace. -/
theorem run (h₀ : Started env snap s₀) : ∀ (hs : List Happening) {ys : List KvmExit}
    {rest : List HvEvent} {p : Loop}, Follows env s₀ ys rest p →
    ∃ ys' rest', Follows env s₀ ys' rest' (p.run env.host snap hs)
  | [], ys, rest, _, h => ⟨ys, rest, h⟩
  | .sigint :: hs, _, _, _, h =>
    run h₀ hs ⟨h.going.sigintHandler, h.events, h.trace, h.dev, h.ids, h.endings⟩
  | .exit x :: hs, _, _, p, h => by
    by_cases hrun : p.status = .running
    · have hnext := run h₀ hs (h.afterKvmRun h₀ hrun x)
      rwa [← Program.exec_exit_of_running hrun] at hnext
    · have hsame := run h₀ hs h
      rwa [← Program.exec_exit_of_ended hrun (x := x)] at hsame

/-- A loop that has met no exit it cannot handle runs up to the third stop. -/
theorem status_eq (h : Follows env s₀ ys rest p) (hproceeds : Proceeds ys) :
    p.status = if Main.endings rest < maxIterations then .running else .returned 0 := by
  have htook := h.going.took
  rw [h.endings]
  rcases hstatus : p.status with _ | code | f
  · rw [hstatus] at htook
    rw [if_pos htook.2]
  · rw [hstatus] at htook
    rcases code with _ | _ | code
    · obtain ⟨zs, x, rfl, -, hthird, hx⟩ := htook
      rw [stops_append_singleton, if_pos hx, hthird, if_neg (Nat.lt_irrefl _)]
    · obtain ⟨zs, x, rfl, -, -, hx⟩ := htook
      exact absurd hx (hproceeds x (by simp))
    · exact htook.elim
  · rw [hstatus] at htook
    exact htook.elim

/-- An exit with an event can be handled. -/
theorem verdict_ne_fails (h : Follows env s₀ ys rest p) {x : KvmExit} {ev : HvEvent}
    (hev : eventAt env.host (inputs rest) x = some ev) : x.verdict ≠ .fails := by
  intro hfails
  have hwired := h.going.carried.wired
  have herror := hwired.step_fst env.host x
  rw [hfails] at herror
  rw [← hwired.step_eventAt h.id h.dev, Machine.step_event, if_pos herror] at hev
  cases hev

/-- Every trace is the log of some exits. -/
theorem exists_of_trace (h₀ : Started env snap s₀)
    (hstart : Follows env s₀ [] [] (Program.start snap s₀)) (htrace : Trace env.host rest) :
    ∃ hs ys, Follows env s₀ ys rest ((Program.start snap s₀).run env.host snap hs) ∧
      Proceeds ys := by
  induction htrace with
  | nil => exact ⟨[], [], hstart, fun y hy => absurd hy List.not_mem_nil⟩
  | @snoc rest ev htrace hends hev ih =>
    obtain ⟨hs, ys, h, hproceeds⟩ := ih
    obtain ⟨x, hx⟩ := exists_eventAt hev
    have hrun := h.status_eq hproceeds
    rw [if_pos hends] at hrun
    have hnext := h.afterKvmRun h₀ hrun x
    rw [hx, ← Program.exec_exit_of_running hrun] at hnext
    refine ⟨hs ++ [.exit x], ys ++ [x], ?_,
      proceeds_append_singleton hproceeds (h.verdict_ne_fails hx)⟩
    rw [Program.run, List.foldl_append]
    exact hnext

end Follows

/-- The loop over the CPUID leaves publishes the table. -/
theorem events_foldl_cpuidRound {δ ω : Type} (host : HostCpuid) (leaves : List UInt32)
    (es : List KvmCpuidEntry2) {s : Hypervisor δ ω} (hd : s.dispatch.isSome) :
    (leaves.foldl (cpuidRound host) (es, s)).2.events =
      s.events ++ leaves.map fun leaf => leafEvent host leaf {} 0 := by
  induction leaves generalizing es s with
  | nil => rw [List.map_nil, List.append_nil, List.foldl_nil]
  | cons leaf leaves ih =>
    obtain ⟨d, hd⟩ := Option.isSome_iff_exists.1 hd
    have hemit : s.emit (leafEvent host leaf) = _ := Hypervisor.emit_of_some hd
    have hevents : (s.emit (leafEvent host leaf)).events =
        s.events ++ [leafEvent host leaf {} 0] := by
      rw [hemit, Hypervisor.events, List.map_append]
      rfl
    have hround : cpuidRound host (es, s) leaf =
      (es ++ [hostEntry host leaf], s.emit (leafEvent host leaf)) := rfl
    rw [List.foldl_cons, hround, ih _ (by rw [hemit]; rfl), hevents, List.append_assoc]
    rfl

/-- In front of its loop `main` has published the table, and its devices are new. -/
theorem events_prepare {env : Environment} {snap : VmSnapShot} {s : Hv}
    (h : prepare env = .ok (some (snap, s))) :
    s.events = tableEvents env.host ∧ s.machine.dev = {} := by
  obtain ⟨vm, hpos, hloaded, rfl⟩ := exists_of_prepare h
  obtain ⟨-, hmachine⟩ := Reports.foldl_cpuidRound env.host cpuidLeaves []
    (reports_wire hloaded hpos) (hloaded.id (m := (wire env vm hpos).machine))
  exact ⟨events_foldl_cpuidRound env.host cpuidLeaves [] rfl, congrArg Machine.dev hmachine⟩

theorem follows_start {env : Environment} {snap : VmSnapShot} {s : Hv}
    (h : prepare env = .ok (some (snap, s))) (h₀ : Started env snap s) :
    Follows env s [] [] (Program.start snap s) := by
  obtain ⟨hevents, hdev⟩ := events_prepare h
  obtain ⟨m, hhv, hsame⟩ := enter_frame { hv := s } snap 0
  have hids : s.machine.ids = [0] := by
    obtain ⟨v, hvcpus, hid, -⟩ := h₀.loaded.vcpu
    rw [Machine.ids, hvcpus, List.map_singleton, hid]
  refine ⟨going_start h₀, ?_, .nil, ?_, ?_, rfl⟩ <;> rw [Program.start, hhv]
  · exact hevents.trans (List.append_nil _).symm
  · exact hsame.dev.trans hdev
  · exact hsame.ids.trans hids

/-- The logs of `main`. In an environment in which it gets to its loop, they are the CPUID table
followed by any trace. The logs with which it returns 0 are those with three stops. -/
theorem main_traces_iff (env : Environment) (evs : List HvEvent) :
    ((∃ hs p, run env hs = .ok (some p) ∧ p.hv.events = evs) ↔
      Boots env ∧ ∃ rest, evs = tableEvents env.host ++ rest ∧ Trace env.host rest) ∧
    ((∃ hs p, run env hs = .ok (some p) ∧ p.hv.events = evs ∧ p.status = .returned 0) ↔
      Boots env ∧ ∃ rest, evs = tableEvents env.host ++ rest ∧ Trace env.host rest ∧
        endings rest = maxIterations) := by
  rcases prepare_cases env with ⟨hboots, snap, s₀, hprepare, h₀⟩ | ⟨hboots, hprepare⟩
  swap
  · have hnone : ∀ hs, run env hs = .ok none := fun hs => by rw [run, hprepare]
    refine ⟨⟨?_, fun h => absurd h.1 hboots⟩, ⟨?_, fun h => absurd h.1 hboots⟩⟩ <;>
      rintro ⟨hs, p, hp, -⟩ <;> rw [hnone] at hp <;> cases hp
  have hstart := follows_start hprepare h₀
  have hrun : ∀ hs, run env hs = .ok (some ((Program.start snap s₀).run env.host snap hs)) :=
    fun hs => by rw [run, hprepare]
  refine ⟨⟨?_, ?_⟩, ?_, ?_⟩
  · rintro ⟨hs, p, hp, rfl⟩
    rw [hrun] at hp
    cases hp
    obtain ⟨ys, rest, h⟩ := hstart.run h₀ hs
    exact ⟨hboots, rest, h.events, h.trace⟩
  · rintro ⟨-, rest, rfl, htrace⟩
    obtain ⟨hs, ys, h, -⟩ := Follows.exists_of_trace h₀ hstart htrace
    exact ⟨hs, _, hrun hs, h.events⟩
  · rintro ⟨hs, p, hp, rfl, hstatus⟩
    rw [hrun] at hp
    cases hp
    obtain ⟨ys, rest, h⟩ := hstart.run h₀ hs
    refine ⟨hboots, rest, h.events, h.trace, ?_⟩
    have htook := h.going.took
    rw [hstatus] at htook
    obtain ⟨zs, x, rfl, -, hthird, hx⟩ := htook
    rw [h.endings, stops_append_singleton, if_pos hx, hthird]
  · rintro ⟨-, rest, rfl, htrace, hends⟩
    obtain ⟨hs, ys, h, hproceeds⟩ := Follows.exists_of_trace h₀ hstart htrace
    refine ⟨hs, _, hrun hs, h.events, ?_⟩
    rw [h.status_eq hproceeds, if_neg hends.not_lt]

end Main

end MinBp
