import MinBp.Events
import MinBp.Fuzz
import Mathlib.Data.List.TFAE

/-!
# The event stream determines the run

A deterministic guest runs on the registers and the memory that it has, and on what the handlers
hand to it. The event of an exit is made after the exit has been served, from the run page or from
the registers. So it shows what was handed to the guest, byte for byte (`serve_determined`), and two
runs of one guest that publish the same payloads go through the same guest states, however different
their handlers, their devices and the processors they run on are (`events_determine_run`). Only the
question whether there is a CPUID handler has to have one answer in both.

There are two exits that this does not hold for. A `CPUID` that comes back as an unknown exit is
served without an event, and a payload that cannot be read from the registers is zero. `Recorded`
excludes both.
-/

open Bytes

namespace MinBp

variable {δ δ' ω ω' : Type}

/-- The event of the exit shows all that is handed to the guest. -/
structure KvmExit.Recorded (x : KvmExit) : Prop where
  /-- No `CPUID` is served without an event. -/
  unknown : x.reason = some .unknown → x.run.hardwareExitReason ≠ 0
  /-- The payload can be read from the registers. -/
  payload : x.faults .eventPayload .getRegs = none

namespace Machine

variable {m : Machine δ} {m' : Machine δ'} {host host' : HostCpuid}

/-! ## One exit -/

/-- The payload that the switch of `dispatchExit` publishes for an exit, if any. -/
def shownPayload (host : HostCpuid) (reason : ExitReason) (m : Machine δ) : Option EventPayload :=
  (m.serve host reason).2.2.map fun mk => (mk (m.serve host reason).2.1.vcpu 0).payload

/-- A port access writes to the run page, and only the bytes that its event shows. -/
theorem exists_page_serveIo (m : Machine δ) :
    ∃ page, m.serveIo.2.vcpu =
        { m.vcpu with kvmRun := { m.vcpu.kvmRun with page } } ∧
      ∀ i, ¬(m.vcpu.kvmRun.io.dataOffset.toNat ≤ i ∧
          i < m.vcpu.kvmRun.io.dataOffset.toNat + min m.vcpu.kvmRun.io.size.toNat 4) →
        page i = m.vcpu.kvmRun.page i := by
  rw [vcpu_serveIo fun _ _ => {}]
  simp only [handed]
  split
  · rename_i bs hbs
    refine ⟨_, rfl, fun i hi => store_of_outside _ ?_⟩
    split_ifs at hbs
    obtain ⟨h, -, hbytes⟩ := Option.map_eq_some_iff.1 hbs
    rw [← Handed.bytes.inj hbytes, length_encode]
    exact hi
  · exact ⟨_, rfl, fun _ _ => rfl⟩

/-- An MMIO access of a length that is accepted writes to its data, and only the bytes that its
event shows. -/
theorem exists_data_serveMmio (m : Machine δ) :
    ∃ data, m.serveMmio.2.vcpu =
        { m.vcpu with
          kvmRun := { m.vcpu.kvmRun with mmio := { m.vcpu.kvmRun.mmio with data } } } ∧
      ∀ i, ¬(0 ≤ i ∧ i < 0 + min m.vcpu.kvmRun.mmio.len.toUInt8.toNat 8) →
        data i = m.vcpu.kvmRun.mmio.data i := by
  rw [vcpu_serveMmio fun _ _ => {}]
  simp only [handed]
  split
  · rename_i bs hbs
    refine ⟨_, rfl, fun i hi => store_of_outside _ ?_⟩
    split_ifs at hbs with hsize
    obtain ⟨h, -, hbytes⟩ := Option.map_eq_some_iff.1 hbs
    rw [← Handed.bytes.inj hbytes, length_encode]
    have hle : m.vcpu.kvmRun.mmio.len.toUInt8.toNat ≤ 8 := by
      by_contra hgt
      exact hsize (.inr (.inl (UInt8.lt_iff_toNat_lt.2 (by simpa using hgt))))
    rwa [min_eq_left hle] at hi
  · exact ⟨_, rfl, fun _ _ => rfl⟩

/-- The event of a port access determines what the guest gets. -/
theorem serveIo_determined (hv : m.vcpu = m'.vcpu)
    (h : (ioPayload m.serveIo.2.vcpu.kvmRun).value =
      (ioPayload m'.serveIo.2.vcpu.kvmRun).value) :
    m.serveIo.2.vcpu = m'.serveIo.2.vcpu := by
  obtain ⟨page, hpage, hout⟩ := exists_page_serveIo m
  obtain ⟨page', hpage', hout'⟩ := exists_page_serveIo m'
  rw [hpage, hpage', ← hv] at h ⊢
  rw [← hv] at hout'
  have hlt : ∀ buf : Buffer, value (load buf m.vcpu.kvmRun.io.dataOffset.toNat
      (min m.vcpu.kvmRun.io.size.toNat 4)) < 2 ^ 32 :=
    fun buf => value_load_lt buf _ (min_le_right _ 4)
  have hvalue := congrArg UInt32.toNat h
  simp only [ioPayload, KvmRun.ioValue, UInt32.toNat_ofNat', Nat.mod_eq_of_lt (hlt _)] at hvalue
  rw [eq_of_value_load (fun i hi => (hout i hi).trans (hout' i hi).symm) hvalue]

/-- The event of an MMIO access determines what the guest gets. -/
theorem serveMmio_determined (hv : m.vcpu = m'.vcpu)
    (h : (mmioPayload m.serveMmio.2.vcpu.kvmRun).value =
      (mmioPayload m'.serveMmio.2.vcpu.kvmRun).value) :
    m.serveMmio.2.vcpu = m'.serveMmio.2.vcpu := by
  obtain ⟨data, hdata, hout⟩ := exists_data_serveMmio m
  obtain ⟨data', hdata', hout'⟩ := exists_data_serveMmio m'
  rw [hdata, hdata', ← hv] at h ⊢
  rw [← hv] at hout'
  have hlt : ∀ buf : Buffer, value (load buf 0
      (min m.vcpu.kvmRun.mmio.len.toUInt8.toNat 8)) < 2 ^ 64 :=
    fun buf => value_load_lt buf _ (min_le_right _ 8)
  have hvalue := congrArg UInt64.toNat h
  simp only [mmioPayload, KvmRun.mmioValue, UInt64.toNat_ofNat', Nat.mod_eq_of_lt (hlt _)]
    at hvalue
  rw [eq_of_value_load (fun i hi => (hout i hi).trans (hout' i hi).symm) hvalue]

/-- A `CPUID` leaves an answer in the registers if there is a handler and its ioctls succeed, and
leaves them alone otherwise. -/
theorem vcpu_serveCpuid_cases (host : HostCpuid) (m : Machine δ) :
    (m.cpuid.isSome ∧ m.vcpu.RegsOk .cpuidHandler ∧ ∃ result,
      (m.serveCpuid host).2.vcpu =
        { m.vcpu with regs := CpuidHandler.inject result m.vcpu.regs }) ∨
    (¬(m.cpuid.isSome ∧ m.vcpu.RegsOk .cpuidHandler) ∧ (m.serveCpuid host).2.vcpu = m.vcpu) := by
  rw [vcpu_serveCpuid host (.inr rfl)]
  simp only [handed, VCpu.RegsOk]
  cases hh : m.cpuid with
  | none => exact .inr ⟨by simp, rfl⟩
  | some h =>
    simp only [Option.map_some]
    split_ifs with hget hset
    · exact .inr ⟨by simp [Option.ne_none_iff_isSome.2 hget], rfl⟩
    · exact .inr ⟨by simp [Option.ne_none_iff_isSome.2 hset], rfl⟩
    · rw [Option.not_isSome_iff_eq_none] at hget hset
      exact .inl ⟨rfl, ⟨hget, hset⟩, _, rfl⟩

/-- The event of a `CPUID` determines what the guest gets, if both machines have a handler or
neither has. -/
theorem serveCpuid_determined (hv : m.vcpu = m'.vcpu) (hc : m.cpuid.isSome = m'.cpuid.isSome)
    (hget : m.vcpu.faults .eventPayload .getRegs = none)
    (h : cpuidPayload (m.serveCpuid host).2.vcpu = cpuidPayload (m'.serveCpuid host').2.vcpu) :
    (m.serveCpuid host).2.vcpu = (m'.serveCpuid host').2.vcpu := by
  rcases vcpu_serveCpuid_cases host m with ⟨hs, hok, r, hr⟩ | ⟨hno, hr⟩ <;>
    rcases vcpu_serveCpuid_cases host' m' with ⟨hs', hok', r', hr'⟩ | ⟨hno', hr'⟩
  · rw [hr, hr', ← hv] at h ⊢
    simp only [cpuidPayload, VCpu.getRegs, hget, CpuidHandler.inject, UInt32.toUInt32_toUInt64,
      CpuidEvent.mk.injEq] at h
    obtain ⟨-, -, ha, hb, hc, hd⟩ := h
    simp only [CpuidHandler.inject, ha, hb, hc, hd]
  · exact absurd ⟨hc ▸ hs, hv ▸ hok⟩ hno'
  · exact absurd ⟨hc ▸ hs', hv ▸ hok'⟩ hno
  · rw [hr, hr', hv]

/-- An MMIO access that is refused leaves the vCPU alone. -/
theorem vcpu_serveMmio_of_refused (h : m.serveMmio.1 = false) : m.serveMmio.2.vcpu = m.vcpu := by
  rw [serveMmio_fst, Bool.not_eq_false', Bool.and_eq_true, decide_eq_true_eq] at h
  rw [vcpu_serveMmio fun _ _ => {}]
  simp only [handed]
  rw [if_pos (h.2.imp_right .inl)]

/-- A `CPUID` that fails leaves the vCPU alone. -/
theorem vcpu_serveCpuid_of_failed (h : (m.serveCpuid host).1 = false) :
    (m.serveCpuid host).2.vcpu = m.vcpu := by
  rcases vcpu_serveCpuid_cases host m with ⟨-, hok, -⟩ | ⟨-, hr⟩
  · rw [serveCpuid_fst_eq, hok.1, hok.2] at h
    simp at h
  · exact hr

/-- The payload of an exit determines its result and what the guest gets. -/
theorem serve_determined {reason : ExitReason} (hv : m.vcpu = m'.vcpu)
    (hc : m.cpuid.isSome = m'.cpuid.isSome)
    (hunknown : reason = .unknown → m.vcpu.kvmRun.hardwareExitReason ≠ 0)
    (hget : m.vcpu.faults .eventPayload .getRegs = none)
    (h : m.shownPayload host reason = m'.shownPayload host' reason) :
    (m.serve host reason).1 = (m'.serve host' reason).1 ∧
      (m.serve host reason).2.1.vcpu = (m'.serve host' reason).2.1.vcpu := by
  cases reason with
  | io =>
    simp only [shownPayload, serve, serveIo_fst, if_true, Option.map_some, Option.some.injEq] at h ⊢
    exact ⟨trivial, serveIo_determined hv (congrArg IoEvent.value (EventPayload.io.inj h))⟩
  | mmio =>
    -- an access is refused in both or in neither, since only one that is served has an event
    simp only [shownPayload, serve] at h ⊢
    cases hok : m.serveMmio.1 <;> cases hok' : m'.serveMmio.1 <;>
      simp only [hok, hok', if_true, Bool.false_eq_true, if_false, Option.map_some, Option.map_none,
        reduceCtorEq, Option.some.injEq] at h ⊢
    · exact ⟨trivial, by rw [vcpu_serveMmio_of_refused hok, vcpu_serveMmio_of_refused hok', hv]⟩
    · exact ⟨trivial, serveMmio_determined hv (congrArg MmioEvent.value (EventPayload.mmio.inj h))⟩
  | unknown =>
    have hhw := hunknown rfl
    rw [serve, if_neg hhw, serve, if_neg (hv ▸ hhw)]
    exact ⟨rfl, hv⟩
  | internalError =>
    simp only [shownPayload, serve, ← hv] at h ⊢
    split_ifs at h ⊢ with hsub hok hok' hok' <;>
      simp only [Option.map_some, Option.map_none, reduceCtorEq, Option.some.injEq] at h ⊢
    · exact ⟨trivial, serveCpuid_determined hv hc hget (EventPayload.cpuid.inj h)⟩
    · rw [Bool.not_eq_true] at hok hok'
      exact ⟨trivial, by rw [vcpu_serveCpuid_of_failed hok, vcpu_serveCpuid_of_failed hok', hv]⟩
    · exact ⟨trivial, hv⟩
  | _ => exact ⟨rfl, hv⟩

/-- A `CPUID` changes general registers at most. -/
theorem exists_regs_serve {reason : ExitReason} (hr : reason = .unknown ∨ reason = .internalError)
    (host : HostCpuid) (m : Machine δ) :
    ∃ regs, (m.serve host reason).2.1.vcpu = { m.vcpu with regs } := by
  have hcpuid : ∃ regs, (m.serveCpuid host).2.vcpu = { m.vcpu with regs } := by
    rcases vcpu_serveCpuid_cases host m with ⟨-, -, r, h⟩ | ⟨-, h⟩
    · exact ⟨_, h⟩
    · exact ⟨_, h⟩
  rcases hr with rfl | rfl
  · simp only [serve]
    split_ifs
    · exact hcpuid
    · exact hcpuid
    · exact ⟨_, rfl⟩
  · simp only [serve]
    split_ifs
    · exact hcpuid
    · exact hcpuid
    · exact ⟨_, rfl⟩

/-- What the guest gets determines the vCPU after an exit. -/
theorem vcpu_serve_of_guestState {reason : ExitReason} (hv : m.vcpu = m'.vcpu)
    (hraw : reason = .intr ∨ ExitReason.ofRaw m.vcpu.kvmRun.exitReason = reason)
    (h : (m.serve host reason).2.1.guestState = (m'.serve host' reason).2.1.guestState) :
    (m.serve host reason).2.1.vcpu = (m'.serve host' reason).2.1.vcpu := by
  have hcompletion := congrArg GuestState.completion h
  have hregs := congrArg GuestState.regs h
  have hcpuid : reason = .unknown ∨ reason = .internalError →
      (m.serve host reason).2.1.vcpu = (m'.serve host' reason).2.1.vcpu := by
    intro hr
    obtain ⟨regs, hm⟩ := exists_regs_serve hr host m
    obtain ⟨regs', hm'⟩ := exists_regs_serve hr host' m'
    simp only [guestState, hm, hm'] at hregs
    rw [hm, hm', hv, hregs]
  simp only [guestState] at hcompletion
  cases reason with
  | io =>
    have hraw := hraw.resolve_left (by decide)
    obtain ⟨page, hpage, -⟩ := exists_page_serveIo m
    obtain ⟨page', hpage', -⟩ := exists_page_serveIo m'
    simp only [serve, serveIo_fst, if_true, hpage, hpage', ← hv, KvmRun.completion, hraw,
      Option.some.injEq, Completion.io.injEq, true_and] at hcompletion ⊢
    rw [hcompletion]
  | mmio =>
    have hraw := hraw.resolve_left (by decide)
    obtain ⟨data, hdata, -⟩ := exists_data_serveMmio m
    obtain ⟨data', hdata', -⟩ := exists_data_serveMmio m'
    simp only [serve, apply_ite Prod.snd, apply_ite Prod.fst, ite_self, hdata, hdata', ← hv,
      KvmRun.completion, hraw, Option.some.injEq, Completion.mmio.injEq, KvmMmio.mk.injEq,
      true_and, and_true] at hcompletion ⊢
    rw [hcompletion]
  | unknown => exact hcpuid (.inl rfl)
  | internalError => exact hcpuid (.inr rfl)
  | _ => exact hv

/-! ## One step -/

/-- The guests of two machines are in the same state. Handlers and devices may differ, but both
machines or neither have a handler for CPUID. -/
structure SameGuest (m : Machine δ) (m' : Machine δ') : Prop where
  id : m.vcpu.id = m'.vcpu.id
  guestState : m.guestState = m'.guestState
  cpuid : m.cpuid.isSome = m'.cpuid.isSome

/-- The event that a step publishes, its time aside. -/
def stepEvent (host : HostCpuid) (x : KvmExit) (m : Machine δ) : Option HvEvent :=
  (m.step host x).2.2.map fun mk => (mk (m.step host x).2.1.vcpu 0).untimed

theorem SameGuest.vcpu_entered (h : SameGuest m m') (x : KvmExit) :
    (m.entered x).vcpu = (m'.entered x).vcpu := by
  rw [Machine.vcpu_entered, Machine.vcpu_entered, VCpu.run_snd, VCpu.run_snd, h.id]

/-- After a `KVM_RUN` the guests of two machines are in the same state again if their vCPUs are. -/
theorem SameGuest.step_of_vcpu (h : SameGuest m m') {x : KvmExit}
    (hv : (m.step host x).2.1.vcpu = (m'.step host' x).2.1.vcpu) :
    SameGuest (m.step host x).2.1 (m'.step host' x).2.1 where
  id := congrArg VCpu.id hv
  guestState := by
    have hregions : m.vm.memoryRegions = m'.vm.memoryRegions :=
      congrArg GuestState.memoryRegions h.guestState
    have hram : (m.step host x).2.1.vm.memoryRegions = (m'.step host' x).2.1.vm.memoryRegions := by
      rw [memoryRegions_step, memoryRegions_step]
      simp only [VirtualMachine.setRam, hregions]
    simp only [Machine.guestState, hv, hram]
  cpuid := by rw [isSome_cpuid_step, isSome_cpuid_step, h.cpuid]

/-- The payload that a step publishes determines its result and the state of the guest. -/
theorem SameGuest.step_determined (h : SameGuest m m') {x : KvmExit} (hx : x.Recorded)
    (he : (m.stepEvent host x).map (·.payload) = (m'.stepEvent host' x).map (·.payload)) :
    (m.step host x).1 = (m'.step host' x).1 ∧
      SameGuest (m.step host x).2.1 (m'.step host' x).2.1 := by
  have hboth : (m.step host x).1 = (m'.step host' x).1 ∧
      (m.step host x).2.1.vcpu = (m'.step host' x).2.1.vcpu := by
    have hv := h.vcpu_entered x
    cases hreason : x.reason with
    | none =>
      simp only [step, hreason, true_and]
      exact hv
    | some reason =>
      simp only [stepEvent, step, hreason, Option.map_map] at he ⊢
      refine serve_determined hv h.cpuid ?_ ?_ he
      · rintro rfl
        rw [Machine.vcpu_entered, VCpu.run_snd]
        exact hx.unknown hreason
      · rw [Machine.vcpu_entered, VCpu.run_snd]
        exact hx.payload
  exact ⟨hboth.1, h.step_of_vcpu hboth.2⟩

/-- After a step the state of the guest determines the vCPU. -/
theorem SameGuest.vcpu_step (h : SameGuest m m') {x : KvmExit}
    (hg : (m.step host x).2.1.guestState = (m'.step host' x).2.1.guestState) :
    (m.step host x).2.1.vcpu = (m'.step host' x).2.1.vcpu := by
  have hentered := h.vcpu_entered x
  cases hreason : x.reason with
  | none =>
    simp only [step, hreason]
    exact hentered
  | some reason =>
    simp only [step, hreason] at hg ⊢
    refine vcpu_serve_of_guestState hentered ?_ hg
    rw [Machine.vcpu_entered, VCpu.run_snd]
    unfold KvmExit.reason at hreason
    split at hreason
    · split_ifs at hreason
      exact .inl (Option.some.inj hreason).symm
    · exact .inr (Option.some.inj hreason)

/-- Steps with the same result that leave the same vCPU publish the same event. -/
theorem stepEvent_of_vcpu {x : KvmExit} (hres : (m.step host x).1 = (m'.step host' x).1)
    (hv : (m.step host x).2.1.vcpu = (m'.step host' x).2.1.vcpu) :
    m.stepEvent host x = m'.stepEvent host' x := by
  rw [stepEvent, stepEvent, step_event, step_event, hres, hv]

end Machine

/-! ## Runs -/

namespace Hypervisor

variable {guest : Guest} {host host' : HostCpuid} {a : Hypervisor δ ω} {b : Hypervisor δ' ω'}

/-- The events that the first `n` steps of an unbounded `runLoop` publish, times aside. -/
def newEvents (guest : Guest) (host : HostCpuid) (n : ℕ) (s : Hypervisor δ ω) : List HvEvent :=
  (s.runSteps guest host n).2.events.drop s.events.length

/-- The first `n` steps of two runs have the same results, and all along the guests see the same
registers, the same memory and the same answers. -/
structure SameRun (guest : Guest) (host host' : HostCpuid) (n : ℕ) (a : Hypervisor δ ω)
    (b : Hypervisor δ' ω') : Prop where
  result : ∀ k ≤ n, (a.runSteps guest host k).1 = (b.runSteps guest host' k).1
  guestState : ∀ k ≤ n, (a.runSteps guest host k).2.machine.guestState =
    (b.runSteps guest host' k).2.machine.guestState

theorem runSteps_succ (n : ℕ) (s : Hypervisor δ ω) :
    s.runSteps guest host (n + 1) =
      if (s.stepGuest guest host).1 = .cont then (s.stepGuest guest host).2.runSteps guest host n
      else s.stepGuest guest host := by
  rw [runSteps]
  rcases s.stepGuest guest host with ⟨_ | _ | _ | _, s'⟩ <;> rfl

theorem exits_succ (n : ℕ) (s : Hypervisor δ ω) :
    s.exits guest host (n + 1) = guest s.machine.guestState ::
      if (s.stepGuest guest host).1 = .cont then (s.stepGuest guest host).2.exits guest host n
      else [] := by
  rw [exits]
  rcases s.stepGuest guest host with ⟨_ | _ | _ | _, s'⟩ <;> rfl

/-- The exits of a run are exits of the guest. -/
theorem mem_exits : ∀ (n : ℕ) {s : Hypervisor δ ω} {x : KvmExit}, x ∈ s.exits guest host n →
    ∃ g, x = guest g
  | 0, _, _, h => absurd h List.not_mem_nil
  | n + 1, s, x, h => by
    rw [exits_succ] at h
    rcases List.mem_cons.1 h with rfl | h
    · exact ⟨_, rfl⟩
    · split_ifs at h
      · exact mem_exits n h
      · exact absurd h List.not_mem_nil

/-- Under a dispatcher the events of a step are the event of the machine's step, if it has one. -/
theorem events_stepGuest {s : Hypervisor δ ω} (hd : s.dispatch.isSome) :
    (s.stepGuest guest host).2.events =
      s.events ++ (s.machine.stepEvent host (guest s.machine.guestState)).toList := by
  rw [stepGuest, events_step, if_pos hd, Machine.stepEvent, Option.toList_map]

theorem isSome_dispatch_stepGuest (s : Hypervisor δ ω) :
    (s.stepGuest guest host).2.dispatch.isSome = s.dispatch.isSome := by
  rw [stepGuest, dispatch_step, Option.isSome_map]

theorem runSteps_one (s : Hypervisor δ ω) :
    s.runSteps guest host 1 = s.stepGuest guest host := by
  rw [runSteps_succ]
  split_ifs with hcont
  · exact Prod.ext hcont.symm rfl
  · rfl

/-- Two runs agree if and only if they agree at the start, after the first step, and from there on
unless that step ends them. -/
theorem sameRun_succ_iff {n : ℕ} : SameRun guest host host' (n + 1) a b ↔
    a.machine.guestState = b.machine.guestState ∧
      (a.stepGuest guest host).1 = (b.stepGuest guest host').1 ∧
      (a.stepGuest guest host).2.machine.guestState =
        (b.stepGuest guest host').2.machine.guestState ∧
      ((a.stepGuest guest host).1 = .cont →
        SameRun guest host host' n (a.stepGuest guest host).2 (b.stepGuest guest host').2) := by
  constructor
  · intro h
    have hresult := h.result 1 (by omega)
    have hnext := h.guestState 1 (by omega)
    rw [runSteps_one, runSteps_one] at hresult hnext
    refine ⟨h.guestState 0 (by omega), hresult, hnext,
      fun hcont => ⟨fun k hk => ?_, fun k hk => ?_⟩⟩
    · have hk' := h.result (k + 1) (by omega)
      rwa [runSteps_succ, runSteps_succ, if_pos hcont, if_pos (hresult ▸ hcont)] at hk'
    · have hk' := h.guestState (k + 1) (by omega)
      rwa [runSteps_succ, runSteps_succ, if_pos hcont, if_pos (hresult ▸ hcont)] at hk'
  · rintro ⟨hstart, hresult, hnext, hrest⟩
    refine ⟨fun k hk => ?_, fun k hk => ?_⟩
    · cases k with
      | zero => rfl
      | succ k =>
        rw [runSteps_succ, runSteps_succ, ← hresult]
        split_ifs with hcont
        · exact (hrest hcont).result k (by omega)
        · exact hresult
    · cases k with
      | zero => exact hstart
      | succ k =>
        rw [runSteps_succ, runSteps_succ, ← hresult]
        split_ifs with hcont
        · exact (hrest hcont).guestState k (by omega)
        · exact hnext

/-- A run only adds to the events. -/
theorem prefix_events_runSteps : ∀ (n : ℕ) {s : Hypervisor δ ω}, s.dispatch.isSome →
    s.events <+: (s.runSteps guest host n).2.events
  | 0, s, _ => List.prefix_refl _
  | n + 1, s, hd => by
    have hone : s.events <+: (s.stepGuest guest host).2.events := by
      rw [events_stepGuest hd]
      exact List.prefix_append _ _
    rw [runSteps_succ]
    split_ifs
    · exact hone.trans (prefix_events_runSteps n (by rwa [isSome_dispatch_stepGuest]))
    · exact hone

theorem events_runSteps (n : ℕ) {s : Hypervisor δ ω} (hd : s.dispatch.isSome) :
    (s.runSteps guest host n).2.events = s.events ++ s.newEvents guest host n :=
  List.prefix_iff_eq_append.1 (prefix_events_runSteps n hd) |>.symm

/-- The events of a run are the event of its first step and those of the steps after it. -/
theorem newEvents_succ (n : ℕ) {s : Hypervisor δ ω} (hd : s.dispatch.isSome) :
    s.newEvents guest host (n + 1) =
      (s.machine.stepEvent host (guest s.machine.guestState)).toList ++
        if (s.stepGuest guest host).1 = .cont then
          (s.stepGuest guest host).2.newEvents guest host n
        else [] := by
  have hd' : (s.stepGuest guest host).2.dispatch.isSome := by rwa [isSome_dispatch_stepGuest]
  have h : (s.runSteps guest host (n + 1)).2.events = _ := events_runSteps (n + 1) hd
  rw [runSteps_succ] at h
  split_ifs at h ⊢
  · rw [events_runSteps n hd', events_stepGuest hd, List.append_assoc] at h
    exact (List.append_cancel_left h).symm
  · rw [events_stepGuest hd] at h
    rw [List.append_nil]
    exact (List.append_cancel_left h).symm

/-- A step without an event, at an exit that has one elsewhere, is an error. -/
theorem step_error_of_stepEvent {x : KvmExit} (ha : a.machine.stepEvent host x = none)
    (hb : b.machine.stepEvent host' x ≠ none) : (a.step host x).1 = .error := by
  rw [Machine.stepEvent, Machine.step_event, Option.map_eq_none_iff] at ha
  rw [Machine.stepEvent, Machine.step_event, Ne, Option.map_eq_none_iff] at hb
  rw [step_eq]
  split_ifs at ha hb with hra hrb hrb
  · exact hra
  · exact hra
  · exact absurd rfl hb
  · exact absurd ha hb

/-- Two hypervisors under observers whose guests are in the same state. -/
structure Comparable (a : Hypervisor δ ω) (b : Hypervisor δ' ω') : Prop where
  passive : a.Passive ∧ b.Passive
  dispatch : a.dispatch.isSome ∧ b.dispatch.isSome
  machine : a.machine.SameGuest b.machine

namespace Comparable

theorem stepGuest_right (h : Comparable a b) :
    b.stepGuest guest host' = b.step host' (guest a.machine.guestState) := by
  rw [Hypervisor.stepGuest, h.machine.guestState]

/-- The results of a step are those of the machines' steps. -/
theorem result_iff (h : Comparable a b) :
    (a.stepGuest guest host).1 = (b.stepGuest guest host').1 ↔
      (a.machine.step host (guest a.machine.guestState)).1 =
        (b.machine.step host' (guest a.machine.guestState)).1 := by
  rw [h.stepGuest_right, Hypervisor.stepGuest, step_eq, step_eq]

/-- After a step the hypervisors are comparable again if the machines' guests are in the same
state. -/
theorem next (h : Comparable a b)
    (hm : (a.machine.step host (guest a.machine.guestState)).2.1.SameGuest
      (b.machine.step host' (guest a.machine.guestState)).2.1) :
    Comparable (a.stepGuest guest host).2 (b.stepGuest guest host').2 where
  passive := ⟨h.passive.1.step _ _, h.passive.2.step _ _⟩
  dispatch := by
    rw [isSome_dispatch_stepGuest, isSome_dispatch_stepGuest]
    exact h.dispatch
  machine := by
    rw [h.stepGuest_right, Hypervisor.stepGuest, h.passive.1.machine_step,
      h.passive.2.machine_step]
    exact hm

/-- Equal payloads of two runs start with equal payloads of their first steps. Where only one of the
two has an event, the other run ends in an error without one. -/
theorem payload_eq (h : Comparable a b) {n : ℕ}
    (he : (a.newEvents guest host (n + 1)).map (·.payload) =
      (b.newEvents guest host' (n + 1)).map (·.payload)) :
    (a.machine.stepEvent host (guest a.machine.guestState)).map (·.payload) =
      (b.machine.stepEvent host' (guest a.machine.guestState)).map (·.payload) := by
  rw [newEvents_succ n h.dispatch.1, newEvents_succ n h.dispatch.2, ← h.machine.guestState,
    h.stepGuest_right, Hypervisor.stepGuest] at he
  cases ha : a.machine.stepEvent host (guest a.machine.guestState) with
  | none =>
    cases hb : b.machine.stepEvent host' (guest a.machine.guestState) with
    | none => rfl
    | some ev =>
      have hend := step_error_of_stepEvent ha (hb ▸ Option.some_ne_none ev)
      simp [ha, hb, hend] at he
  | some ev =>
    cases hb : b.machine.stepEvent host' (guest a.machine.guestState) with
    | none =>
      have hend := step_error_of_stepEvent hb (ha ▸ Option.some_ne_none ev)
      simp [ha, hb, hend] at he
    | some ev' =>
      simp only [ha, hb, Option.toList_some, List.singleton_append, List.map_cons,
        List.cons.injEq] at he
      rw [Option.map_some, Option.map_some, he.1]

/-- Runs that publish the same payloads go through the same guest states. -/
theorem sameRun_of_payloads : ∀ (n : ℕ) {a : Hypervisor δ ω} {b : Hypervisor δ' ω'},
    Comparable a b → (∀ x ∈ a.exits guest host n, x.Recorded) →
    (a.newEvents guest host n).map (·.payload) = (b.newEvents guest host' n).map (·.payload) →
    SameRun guest host host' n a b
  | 0, a, b, h, _, _ => by
    refine ⟨fun k hk => ?_, fun k hk => ?_⟩
    · rw [Nat.le_zero.1 hk, runSteps, runSteps]
    · rw [Nat.le_zero.1 hk]
      exact h.machine.guestState
  | n + 1, a, b, h, hrec, he => by
    rw [exits_succ] at hrec
    obtain ⟨hres, hm⟩ := h.machine.step_determined (hrec _ List.mem_cons_self) (h.payload_eq he)
    have hresult : (a.stepGuest guest host).1 = (b.stepGuest guest host').1 :=
      h.result_iff.2 hres
    have hnext : Comparable (a.stepGuest guest host).2 (b.stepGuest guest host').2 := h.next hm
    have hrest : (a.stepGuest guest host).1 = .cont →
        SameRun guest host host' n (a.stepGuest guest host).2 (b.stepGuest guest host').2 := by
      intro hcont
      refine sameRun_of_payloads n hnext (fun x hx => hrec x ?_) ?_
      · rw [if_pos hcont]
        exact List.mem_cons_of_mem _ hx
      · have hfirst := h.payload_eq he
        rw [newEvents_succ n h.dispatch.1, newEvents_succ n h.dispatch.2, if_pos hcont,
          if_pos (hresult ▸ hcont), ← h.machine.guestState, List.map_append, List.map_append,
          ← Option.toList_map, ← Option.toList_map, hfirst] at he
        exact List.append_cancel_left he
    exact sameRun_succ_iff.2
      ⟨h.machine.guestState, hresult, hnext.machine.guestState, hrest⟩

/-- Runs that go through the same guest states publish the same events. -/
theorem newEvents_of_sameRun : ∀ (n : ℕ) {a : Hypervisor δ ω} {b : Hypervisor δ' ω'},
    Comparable a b → SameRun guest host host' n a b →
    a.newEvents guest host n = b.newEvents guest host' n
  | 0, a, b, _, _ => by
    rw [newEvents, newEvents, runSteps, runSteps, List.drop_length, List.drop_length]
  | n + 1, a, b, h, hrun => by
    obtain ⟨-, hresult, hnext, hrest⟩ := sameRun_succ_iff.1 hrun
    have hres := h.result_iff.1 hresult
    rw [h.stepGuest_right, Hypervisor.stepGuest, h.passive.1.machine_step,
      h.passive.2.machine_step] at hnext
    have hv := h.machine.vcpu_step hnext
    have hcomparable := h.next (h.machine.step_of_vcpu hv)
    rw [newEvents_succ n h.dispatch.1, newEvents_succ n h.dispatch.2, ← h.machine.guestState,
      Machine.stepEvent_of_vcpu hres hv, hresult]
    split_ifs with hcont
    · rw [newEvents_of_sameRun n hcomparable (hrest (hresult ▸ hcont))]
    · rfl

end Comparable

/-- Let one guest run from the same state under two hypervisors, whose subscribers only observe and
whose handlers, devices and processors may differ, but which both have a CPUID handler or both have
none. If the exits of the first run are recorded, then
over every number of steps the two publish the same payloads if and only if they publish the same
events, times aside, and if and only if their steps have the same results and their guests see the
same registers, the same memory and the same answers all along. -/
theorem events_determine_run (guest : Guest) (host host' : HostCpuid) (n : ℕ)
    (h : Comparable a b) (hrec : ∀ x ∈ a.exits guest host n, x.Recorded) :
    List.TFAE
      [(a.newEvents guest host n).map (·.payload) = (b.newEvents guest host' n).map (·.payload),
        SameRun guest host host' n a b,
        a.newEvents guest host n = b.newEvents guest host' n] := by
  tfae_have 1 → 2 := h.sameRun_of_payloads n hrec
  tfae_have 2 → 3 := h.newEvents_of_sameRun n
  tfae_have 3 → 1 := fun he => congrArg (List.map (·.payload)) he
  tfae_finish

/-- `keyboardHypervisor` with a keyboard that counts its keys, and a processor of its own. -/
def countingHypervisor : Hypervisor ℕ Unit where
  world :=
    { machine :=
        { vm := VirtualMachine.pageVm
          vcpuIndex_lt := VirtualMachine.length_vcpus_pageVm
          io := some (({} : IoPortHandler ℕ).registerInPort 0x60 fun _ n => (0x1A, n + 1))
          dev := 0 }
      obs := () }
  dispatch := some {}

theorem recorded_keyboardGuest (g : GuestState) : (keyboardGuest g).Recorded := by
  unfold keyboardGuest
  split <;> exact ⟨nofun, rfl⟩

/-- Two keyboards that give the same key cannot be told apart by the guest. -/
theorem events_determine_keyboard :
    SameRun keyboardGuest (fun _ _ => {}) (fun _ _ => { eax := 1 }) 2 keyboardHypervisor
      countingHypervisor := by
  have hcomparable : Comparable keyboardHypervisor countingHypervisor :=
    ⟨⟨by rintro d ⟨⟩; exact nofun, by rintro d ⟨⟩; exact nofun⟩, ⟨rfl, rfl⟩, rfl, rfl, rfl⟩
  have hrec : ∀ x ∈ keyboardHypervisor.exits keyboardGuest (fun _ _ => {}) 2, x.Recorded := by
    intro x hx
    obtain ⟨g, rfl⟩ := mem_exits 2 hx
    exact recorded_keyboardGuest g
  exact ((events_determine_run keyboardGuest (fun _ _ => {}) (fun _ _ => { eax := 1 }) 2
    hcomparable hrec).out 0 1).1 rfl

end Hypervisor

end MinBp
