import MinBp.Events
import Mathlib.Data.List.Forall2

/-!
# Port and MMIO accesses

The trapper decodes an access from the run page after the handler has served it, and publishes what
it decoded. This module compares the two views over whole runs, with callbacks registered at any
time.

`Devices` is the abstract side : a function from ports and addresses to the callback registered
last. `Devices.call` says which callback an exit calls, with which context, what it returns, and
what becomes of the devices. The handlers' tables refine it (`Devices.Of`). `Call.Matches` says
which event a call has to be published as, and `access_events_match` that the access events of a
run match its calls one to one, in order.

The counters of the handlers are `uint64_t`, so they agree with the numbers of events modulo
`2 ^ 64` (`Runs.Tracks`) and not beyond (`inCount_wraps`).
-/

open Bytes

namespace MinBp

variable {δ ω : Type}

/-! ## The abstract devices -/

/-- The callbacks behind ports and addresses. -/
structure Devices (δ : Type) where
  inPort : UInt16 → Option (InContext → δ → UInt32 × δ) := fun _ => none
  outPort : UInt16 → Option (OutContext → δ → δ) := fun _ => none
  read : UInt64 → Option (ReadContext → δ → UInt64 × δ) := fun _ => none
  write : UInt64 → Option (WriteContext → δ → δ) := fun _ => none

/-- An access that a handler has served : the context, and for a read what the callback returned,
`none` if there is no callback. -/
inductive Call where
  | input (ctx : InContext) (result : Option UInt32)
  | output (ctx : OutContext)
  | read (ctx : ReadContext) (result : Option UInt64)
  | write (ctx : WriteContext)

/-- The value of a read of `size` bytes : the low bits of the result, all ones without one. -/
def lowBits (size : UInt8) (result : Option ℕ) : ℕ :=
  match result with
  | some r => r % 2 ^ (8 * size.toNat)
  | none => 2 ^ (8 * size.toNat) - 1

/-- The event that a call is to be published as. -/
def Call.Matches (c : Call) (ev : HvEvent) : Prop :=
  match c with
  | .input ctx result =>
    ev.type = .ioRead ∧ ∃ e, ev.payload = .io e ∧ e.port = ctx.port ∧ e.size = ctx.size ∧
      e.isWrite = false ∧ e.value.toNat = lowBits ctx.size (result.map (·.toNat))
  | .output ctx =>
    ev.type = .ioWrite ∧ ∃ e, ev.payload = .io e ∧ e.port = ctx.port ∧ e.size = ctx.size ∧
      e.isWrite = true ∧ e.value = ctx.value
  | .read ctx result =>
    ev.type = .memAccess ∧ ∃ e, ev.payload = .mmio e ∧ e.guestPhysAddr = ctx.addr ∧
      e.size = ctx.size ∧ e.isWrite = false ∧
      e.value.toNat = lowBits ctx.size (result.map (·.toNat))
  | .write ctx =>
    ev.type = .memAccess ∧ ∃ e, ev.payload = .mmio e ∧ e.guestPhysAddr = ctx.addr ∧
      e.size = ctx.size ∧ e.isWrite = true ∧ e.value = ctx.value

namespace Devices

/-- The call of a port access, and the devices after it. -/
def ioCall (run : KvmRun) (dev : δ) (d : Devices δ) : Call × δ :=
  if run.io.direction = KVM_EXIT_IO_OUT then
    let ctx := IoPortHandler.outContext run
    (.output ctx, (d.outPort ctx.port).elim dev fun cb => cb ctx dev)
  else
    let ctx := IoPortHandler.inContext run
    (d.inPort ctx.port).elim (.input ctx none, dev) fun cb =>
      (.input ctx (some (cb ctx dev).1), (cb ctx dev).2)

/-- The call of an MMIO access, and the devices after it. Only lengths from one to eight are
served. -/
def mmioCall (run : KvmRun) (dev : δ) (d : Devices δ) : Option (Call × δ) :=
  if 1 ≤ run.mmio.len.toUInt8 ∧ run.mmio.len.toUInt8 ≤ 8 then
    if run.mmio.isWrite ≠ 0 then
      let ctx := MmioHandler.writeContext run
      some (.write ctx, (d.write ctx.addr).elim dev fun cb => cb ctx dev)
    else
      let ctx := MmioHandler.readContext run
      some ((d.read ctx.addr).elim (.read ctx none, dev) fun cb =>
        (.read ctx (some (cb ctx dev).1), (cb ctx dev).2))
  else none

/-- The call that an exit leads to, and the devices after it. -/
def call (x : KvmExit) (dev : δ) (d : Devices δ) : Option (Call × δ) :=
  match x.reason with
  | some .io => some (d.ioCall x.run dev)
  | some .mmio => d.mmioCall x.run dev
  | _ => none

/-- The handlers' tables hold these callbacks. -/
structure Of (d : Devices δ) (m : Machine δ) : Prop where
  io : ∃ h, m.io = some h ∧ (∀ port, h.inCallbacks.lookup port = d.inPort port) ∧
    ∀ port, h.outCallbacks.lookup port = d.outPort port
  mmio : ∃ h, m.mmio = some h ∧ (∀ addr, h.readCallbacks.lookup addr = d.read addr) ∧
    ∀ addr, h.writeCallbacks.lookup addr = d.write addr

end Devices

/-! ## Reading back -/

/-- What `ioValue` reads back after an `IN`. -/
theorem ioValue_store (run : KvmRun) (result : ℕ) :
    (KvmRun.ioValue
      { run with
        page := store run.page run.io.dataOffset.toNat
          (encode (min run.io.size.toNat 4) result) }).toNat =
      result % 256 ^ min run.io.size.toNat 4 := by
  rw [KvmRun.ioValue, UInt32.toNat_ofNat', value_load_store]
  have hle : 256 ^ min run.io.size.toNat 4 ≤ 256 ^ 4 :=
    Nat.pow_le_pow_right (by omega) (Nat.min_le_right _ _)
  have hlt : result % 256 ^ min run.io.size.toNat 4 < 256 ^ min run.io.size.toNat 4 :=
    Nat.mod_lt _ (Nat.pow_pos (by omega))
  exact Nat.mod_eq_of_lt (by omega)

/-- What `mmioValue` reads back after a read of at most eight bytes. -/
theorem mmioValue_store (run : KvmRun) (result : ℕ) (h : run.mmio.len.toUInt8.toNat ≤ 8) :
    (KvmRun.mmioValue
      { run with
        mmio := { run.mmio with
          data := store run.mmio.data 0 (encode run.mmio.len.toUInt8.toNat result) } }).toNat =
      result % 256 ^ run.mmio.len.toUInt8.toNat := by
  rw [KvmRun.mmioValue, UInt64.toNat_ofNat']
  simp only [Nat.min_eq_left h]
  rw [value_load_store]
  have hle : 256 ^ run.mmio.len.toUInt8.toNat ≤ 256 ^ 8 := Nat.pow_le_pow_right (by omega) h
  have hlt : result % 256 ^ run.mmio.len.toUInt8.toNat < 256 ^ run.mmio.len.toUInt8.toNat :=
    Nat.mod_lt _ (Nat.pow_pos (by omega))
  exact Nat.mod_eq_of_lt (by omega)

/-- All ones in `k` bytes. -/
theorem ones_mod {n k : ℕ} (h : k ≤ n) : (256 ^ n - 1) % 256 ^ k = 2 ^ (8 * k) - 1 := by
  obtain ⟨j, rfl⟩ := Nat.exists_eq_add_of_le h
  have hk : 0 < 256 ^ k := Nat.pow_pos (by omega)
  have hj : 0 < 256 ^ j := Nat.pow_pos (by omega)
  have hsplit : 256 ^ (k + j) - 1 = (256 ^ k - 1) + 256 ^ k * (256 ^ j - 1) := by
    rw [pow_add, Nat.mul_sub, Nat.mul_one]
    have : 256 ^ k ≤ 256 ^ k * 256 ^ j := Nat.le_mul_of_pos_right _ hj
    omega
  rw [hsplit, Nat.add_mul_mod_self_left, Nat.mod_eq_of_lt (by omega), pow_mul,
    show (2 : ℕ) ^ 8 = 256 from rfl]

theorem lowBits_eq (size : UInt8) (result : Option ℕ) {n : ℕ} (h : size.toNat ≤ n) :
    result.getD (256 ^ n - 1) % 256 ^ size.toNat = lowBits size result := by
  rcases result with _ | r
  · exact ones_mod h
  · simp [lowBits, pow_mul]

/-- The result of an `IN`, by the devices. -/
theorem IoPortHandler.toNat_input (h : IoPortHandler δ) {d : Devices δ}
    (hin : ∀ port, h.inCallbacks.lookup port = d.inPort port) (ctx : InContext) (dev : δ) :
    (h.input ctx dev).1.toNat =
      (((d.inPort ctx.port).map fun cb => (cb ctx dev).1).map (·.toNat)).getD (256 ^ 4 - 1) := by
  rw [input, hin]
  rcases d.inPort ctx.port with _ | cb <;> rfl

/-- The result of an MMIO read, by the devices. -/
theorem MmioHandler.toNat_read (h : MmioHandler δ) {d : Devices δ}
    (hread : ∀ addr, h.readCallbacks.lookup addr = d.read addr) (ctx : ReadContext) (dev : δ) :
    (h.read ctx dev).1.toNat =
      (((d.read ctx.addr).map fun cb => (cb ctx dev).1).map (·.toNat)).getD (256 ^ 8 - 1) := by
  rw [read, hread]
  rcases d.read ctx.addr with _ | cb <;> rfl

/-! ## One exit -/

/-- `IoRead`, `IoWrite` and `MemAccess`. -/
def HvEvent.isAccess (ev : HvEvent) : Bool :=
  ev.type == .ioRead || ev.type == .ioWrite || ev.type == .memAccess

namespace Machine

/-- The count of the `IN`s served. -/
def inCount (m : Machine δ) : UInt64 :=
  m.io.elim 0 (·.inCount)

/-- The count of the `OUT`s served. -/
def outCount (m : Machine δ) : UInt64 :=
  m.io.elim 0 (·.outCount)

/-- The count of the MMIO accesses served. -/
def mmioCount (m : Machine δ) : UInt64 :=
  m.mmio.elim 0 fun h => h.readCount + h.writeCount

/-- The event of a step, made at time `t`. -/
def stepEvents (host : HostCpuid) (x : KvmExit) (t : TimePoint) (m : Machine δ) : List HvEvent :=
  (m.step host x).2.2.toList.map fun mk => mk (m.step host x).2.1.vcpu t

/-- The step makes the call of the exit and publishes it, and counts what it publishes. -/
structure AccessStep (host : HostCpuid) (x : KvmExit) (t : TimePoint) (d : Devices δ)
    (m : Machine δ) : Prop where
  events : List.Forall₂ Call.Matches ((d.call x m.dev).toList.map Prod.fst)
    ((m.stepEvents host x t).filter (·.isAccess))
  success : x.reason = some .io ∨ x.reason = some .mmio →
    ((d.call x m.dev).isSome ↔ (m.step host x).1 ≠ .error)
  effect : ∀ c ∈ d.call x m.dev, (m.step host x).2.1.dev = c.2
  devices : d.Of (m.step host x).2.1
  inCount : (m.step host x).2.1.inCount =
    m.inCount + UInt64.ofNat ((m.stepEvents host x t).countP (·.type == .ioRead))
  outCount : (m.step host x).2.1.outCount =
    m.outCount + UInt64.ofNat ((m.stepEvents host x t).countP (·.type == .ioWrite))
  mmioCount : (m.step host x).2.1.mmioCount =
    m.mmioCount + UInt64.ofNat ((m.stepEvents host x t).countP (·.type == .memAccess))

variable {m : Machine δ} {d : Devices δ} {x : KvmExit}

/-- A port exit goes through the handler, which always succeeds. -/
theorem step_io {h : IoPortHandler δ} (hio : m.io = some h) (hr : x.reason = some .io)
    (host : HostCpuid) :
    ∃ m', m.step host x = (.cont, m', some ioEvent) ∧
      m'.vcpu.kvmRun = (h.handle x.run m.dev).2.2.1 ∧ m'.io = some (h.handle x.run m.dev).2.1 ∧
      m'.dev = (h.handle x.run m.dev).2.2.2 ∧ m'.mmio = m.mmio := by
  have hok : (h.handle x.run m.dev).1 = true := by
    unfold IoPortHandler.handle
    split <;> rfl
  have hio' : (m.entered x).io = some h := hio
  have hdev : (m.entered x).dev = m.dev := rfl
  have hserve : (m.entered x).serveIo.1 = true := by
    simp only [serveIo, hio', vcpu_entered, VCpu.run_snd, hdev]
    exact hok
  refine ⟨(m.entered x).serveIo.2, ?_, ?_⟩
  · simp only [step, hr, serve, hserve, if_true]
  · simp only [serveIo, hio', vcpu_entered, VCpu.run_snd, hdev]
    exact ⟨by simp [vcpu, setVCpu], trivial, trivial, rfl⟩

/-- An MMIO exit goes through the handler, which refuses some lengths. -/
theorem step_mmio {h : MmioHandler δ} (hmmio : m.mmio = some h) (hr : x.reason = some .mmio)
    (host : HostCpuid) :
    ∃ m', m.step host x =
        (if (h.handle x.run m.dev).1 then (.cont, m', some mmioEvent) else (.error, m', none)) ∧
      m'.vcpu.kvmRun = (h.handle x.run m.dev).2.2.1 ∧ m'.mmio = some (h.handle x.run m.dev).2.1 ∧
      m'.dev = (h.handle x.run m.dev).2.2.2 ∧ m'.io = m.io := by
  have hmmio' : (m.entered x).mmio = some h := hmmio
  have hdev : (m.entered x).dev = m.dev := rfl
  have hserve : (m.entered x).serveMmio.1 = (h.handle x.run m.dev).1 := by
    simp only [serveMmio, hmmio', vcpu_entered, VCpu.run_snd, hdev]
  refine ⟨(m.entered x).serveMmio.2, ?_, ?_⟩
  · simp only [step, hr, serve, hserve]
  · simp only [serveMmio, hmmio', vcpu_entered, VCpu.run_snd, hdev]
    exact ⟨by simp [vcpu, setVCpu], trivial, trivial, rfl⟩

/-- A step with a call publishes the event of the call. -/
theorem AccessStep.of_call {host : HostCpuid} {t : TimePoint} {m' : Machine δ} {mk : EventMaker}
    {c : Call} (hstep : m.step host x = (.cont, m', some mk))
    (hcall : d.call x m.dev = some (c, m'.dev)) (hmatch : c.Matches (mk m'.vcpu t))
    (hacc : (mk m'.vcpu t).isAccess) (hof : d.Of m')
    (hin : m'.inCount = m.inCount + if (mk m'.vcpu t).type == .ioRead then 1 else 0)
    (hout : m'.outCount = m.outCount + if (mk m'.vcpu t).type == .ioWrite then 1 else 0)
    (hmmio : m'.mmioCount = m.mmioCount + if (mk m'.vcpu t).type == .memAccess then 1 else 0) :
    m.AccessStep host x t d := by
  have hev : m.stepEvents host x t = [mk m'.vcpu t] := by simp [stepEvents, hstep]
  refine ⟨?_, ?_, ?_, ?_, ?_, ?_, ?_⟩
  · simpa [hev, hcall, hacc] using hmatch
  · simp [hcall, hstep]
  · simp [hcall, hstep]
  · simpa [hstep] using hof
  all_goals
    simp only [hstep, hev, List.countP_singleton]
    first | rw [hin] | rw [hout] | rw [hmmio]
    split <;> rfl

/-- An `OUT`. -/
theorem accessStep_out (hof : d.Of m) (hr : x.reason = some .io)
    (hdir : x.run.io.direction = KVM_EXIT_IO_OUT) (host : HostCpuid) (t : TimePoint) :
    m.AccessStep host x t d := by
  obtain ⟨h, hio, hin, hout⟩ := hof.io
  obtain ⟨m', hstep, hrun, hio', hdev, hmmio⟩ := step_io hio hr host
  simp only [IoPortHandler.handle, hdir, if_true] at hrun hio' hdev
  refine .of_call (c := .output (IoPortHandler.outContext x.run)) hstep ?_ ?_ ?_
    ⟨⟨_, hio', hin, hout⟩, by rw [hmmio]; exact hof.mmio⟩ ?_ ?_ ?_
  · have hlook := hout x.run.io.port
    rcases hcb : d.outPort x.run.io.port with _ | cb <;>
      simp_all [Devices.call, Devices.ioCall, IoPortHandler.output, IoPortHandler.outContext]
  · refine ⟨?_, ioPayload x.run, ?_⟩ <;>
      simp [ioEvent, hrun, ioPayload, hdir, IoPortHandler.outContext]
  · simp [HvEvent.isAccess, ioEvent, hrun, ioPayload, hdir]
  · simp [Machine.inCount, hio, hio', ioEvent, hrun, ioPayload, hdir]
  · simp [Machine.outCount, hio, hio', ioEvent, hrun, ioPayload, hdir]
  · simp [Machine.mmioCount, hmmio, ioEvent, hrun, ioPayload, hdir]

/-- An `IN` of at most four bytes. -/
theorem accessStep_in (hof : d.Of m) (hr : x.reason = some .io)
    (hdir : x.run.io.direction ≠ KVM_EXIT_IO_OUT) (hle : x.run.io.size.toNat ≤ 4)
    (host : HostCpuid) (t : TimePoint) : m.AccessStep host x t d := by
  obtain ⟨h, hio, hin, hout⟩ := hof.io
  obtain ⟨m', hstep, hrun, hio', hdev, hmmio⟩ := step_io hio hr host
  simp only [IoPortHandler.handle, hdir, if_false] at hrun hio' hdev
  have hval := ioValue_store x.run (h.input (IoPortHandler.inContext x.run) m.dev).1.toNat
  have hres := IoPortHandler.toNat_input h hin (IoPortHandler.inContext x.run) m.dev
  rw [Nat.min_eq_left hle] at hval hrun
  refine .of_call (c := .input (IoPortHandler.inContext x.run)
    ((d.inPort x.run.io.port).map fun cb => (cb (IoPortHandler.inContext x.run) m.dev).1))
    hstep ?_ ?_ ?_ ⟨⟨_, hio', hin, hout⟩, by rw [hmmio]; exact hof.mmio⟩ ?_ ?_ ?_
  · have hlook := hin x.run.io.port
    rcases hcb : d.inPort x.run.io.port with _ | cb <;>
      simp_all [Devices.call, Devices.ioCall, IoPortHandler.input, IoPortHandler.inContext]
  · refine ⟨?_, ioPayload m'.vcpu.kvmRun, rfl, ?_⟩
    · simp [ioEvent, hrun, ioPayload, hdir]
    · simp only [hrun, ioPayload]
      refine ⟨rfl, rfl, by simpa using hdir, hval.trans ?_⟩
      rw [hres]
      exact lowBits_eq _ _ hle
  · simp [HvEvent.isAccess, ioEvent, hrun, ioPayload, hdir]
  · simp [Machine.inCount, hio, hio', ioEvent, hrun, ioPayload, hdir]
  · simp [Machine.outCount, hio, hio', ioEvent, hrun, ioPayload, hdir]
  · simp [Machine.mmioCount, hmmio, ioEvent, hrun, ioPayload, hdir]

/-- A port access of one, two or four bytes. -/
theorem accessStep_io (hof : d.Of m) (hr : x.reason = some .io)
    (hsize : x.run.io.size = 1 ∨ x.run.io.size = 2 ∨ x.run.io.size = 4) (host : HostCpuid)
    (t : TimePoint) : m.AccessStep host x t d := by
  by_cases hdir : x.run.io.direction = KVM_EXIT_IO_OUT
  · exact accessStep_out hof hr hdir host t
  · refine accessStep_in hof hr hdir ?_ host t
    rcases hsize with hs | hs | hs <;> simp [hs]

/-- The lengths that the MMIO handler accepts. -/
theorem served_iff (n : UInt8) : 1 ≤ n ∧ n ≤ 8 ↔ ¬(n = 0 ∨ n > 8) := by
  rw [not_or, gt_iff_lt, UInt8.not_lt, ← UInt8.toNat_inj, UInt8.le_iff_toNat_le]
  refine and_congr_left fun _ => ?_
  simp only [UInt8.toNat_ofNat]
  omega

/-- An MMIO access of a length that the handler refuses : no call, no event. -/
theorem accessStep_refused (hof : d.Of m) (hr : x.reason = some .mmio)
    (hsize : x.run.mmio.len.toUInt8 = 0 ∨ x.run.mmio.len.toUInt8 > 8) (host : HostCpuid)
    (t : TimePoint) : m.AccessStep host x t d := by
  obtain ⟨h, hmmio, hread, hwrite⟩ := hof.mmio
  obtain ⟨m', hstep, hrun, hmmio', hdev, hio⟩ := step_mmio hmmio hr host
  simp only [MmioHandler.handle, hsize, if_true, Bool.false_eq_true, if_false] at hstep hmmio'
  have hno := mt (served_iff x.run.mmio.len.toUInt8).1 (not_not.2 hsize)
  have hcall : d.call x m.dev = none := by simp [Devices.call, hr, Devices.mmioCall, hno]
  have hev : m.stepEvents host x t = [] := by simp [stepEvents, hstep]
  refine ⟨?_, ?_, ?_, ?_, ?_, ?_, ?_⟩
  · simp [hcall, hev]
  · simp [hcall, hstep]
  · simp [hcall]
  · rw [hstep]
    exact ⟨by rw [hio]; exact hof.io, h, hmmio', hread, hwrite⟩
  · simp [hstep, hev, Machine.inCount, hio]
  · simp [hstep, hev, Machine.outCount, hio]
  · simp [hstep, hev, Machine.mmioCount, hmmio, hmmio']

/-- An MMIO read. -/
theorem accessStep_read (hof : d.Of m) (hr : x.reason = some .mmio)
    (hsize : ¬(x.run.mmio.len.toUInt8 = 0 ∨ x.run.mmio.len.toUInt8 > 8))
    (hw : x.run.mmio.isWrite = 0) (host : HostCpuid) (t : TimePoint) :
    m.AccessStep host x t d := by
  obtain ⟨h, hmmio, hread, hwrite⟩ := hof.mmio
  obtain ⟨m', hstep, hrun, hmmio', hdev, hio⟩ := step_mmio hmmio hr host
  have hyes := (served_iff x.run.mmio.len.toUInt8).2 hsize
  have hle : x.run.mmio.len.toUInt8.toNat ≤ 8 := UInt8.le_iff_toNat_le.1 hyes.2
  simp only [MmioHandler.handle, if_neg hsize, if_neg (not_not.2 hw), if_true]
    at hstep hrun hmmio' hdev
  have hval := mmioValue_store x.run (h.read (MmioHandler.readContext x.run) m.dev).1.toNat hle
  have hres := MmioHandler.toNat_read h hread (MmioHandler.readContext x.run) m.dev
  refine .of_call (c := .read (MmioHandler.readContext x.run)
    ((d.read x.run.mmio.physAddr).map fun cb => (cb (MmioHandler.readContext x.run) m.dev).1))
    hstep ?_ ?_ rfl ⟨by rw [hio]; exact hof.io, _, hmmio', hread, hwrite⟩ ?_ ?_ ?_
  · have hlook := hread x.run.mmio.physAddr
    rcases hcb : d.read x.run.mmio.physAddr with _ | cb <;>
      simp_all [Devices.call, Devices.mmioCall, MmioHandler.read, MmioHandler.readContext]
  · refine ⟨rfl, mmioPayload m'.vcpu.kvmRun, rfl, ?_⟩
    simp only [hrun, mmioPayload]
    refine ⟨rfl, rfl, by simp [hw], hval.trans ?_⟩
    rw [hres]
    exact lowBits_eq _ _ hle
  · simp [Machine.inCount, hio, mmioEvent]
  · simp [Machine.outCount, hio, mmioEvent]
  · simp only [Machine.mmioCount, hmmio, hmmio', Option.elim_some, mmioEvent, beq_self_eq_true,
      if_true]
    rw [UInt64.add_assoc, UInt64.add_comm 1, ← UInt64.add_assoc]

/-- An MMIO write. -/
theorem accessStep_write (hof : d.Of m) (hr : x.reason = some .mmio)
    (hsize : ¬(x.run.mmio.len.toUInt8 = 0 ∨ x.run.mmio.len.toUInt8 > 8))
    (hw : x.run.mmio.isWrite ≠ 0) (host : HostCpuid) (t : TimePoint) :
    m.AccessStep host x t d := by
  obtain ⟨h, hmmio, hread, hwrite⟩ := hof.mmio
  obtain ⟨m', hstep, hrun, hmmio', hdev, hio⟩ := step_mmio hmmio hr host
  have hyes := (served_iff x.run.mmio.len.toUInt8).2 hsize
  simp only [MmioHandler.handle, if_neg hsize, if_pos hw, if_true] at hstep hrun hmmio' hdev
  refine .of_call (c := .write (MmioHandler.writeContext x.run)) hstep ?_ ?_ rfl
    ⟨by rw [hio]; exact hof.io, _, hmmio', hread, hwrite⟩ ?_ ?_ ?_
  · have hlook := hwrite x.run.mmio.physAddr
    rcases hcb : d.write x.run.mmio.physAddr with _ | cb <;>
      simp_all [Devices.call, Devices.mmioCall, MmioHandler.write, MmioHandler.writeContext]
  · refine ⟨rfl, mmioPayload m'.vcpu.kvmRun, rfl, ?_⟩
    simp only [hrun, mmioPayload]
    exact ⟨rfl, rfl, by simp [hw], rfl⟩
  · simp [Machine.inCount, hio, mmioEvent]
  · simp [Machine.outCount, hio, mmioEvent]
  · simp only [Machine.mmioCount, hmmio, hmmio', Option.elim_some, mmioEvent, beq_self_eq_true,
      if_true]
    rw [UInt64.add_assoc]

/-- An MMIO access of any length. -/
theorem accessStep_mmio (hof : d.Of m) (hr : x.reason = some .mmio) (host : HostCpuid)
    (t : TimePoint) : m.AccessStep host x t d := by
  by_cases hsize : x.run.mmio.len.toUInt8 = 0 ∨ x.run.mmio.len.toUInt8 > 8
  · exact accessStep_refused hof hr hsize host t
  · by_cases hw : x.run.mmio.isWrite = 0
    · exact accessStep_read hof hr hsize hw host t
    · exact accessStep_write hof hr hsize hw host t

theorem serveCpuid_keeps (host : HostCpuid) (m : Machine δ) :
    (m.serveCpuid host).2.io = m.io ∧ (m.serveCpuid host).2.mmio = m.mmio := by
  unfold serveCpuid
  split <;> exact ⟨rfl, rfl⟩

/-- Exits of other kinds leave both handlers alone. -/
theorem step_keeps (hio : x.reason ≠ some .io) (hmmio : x.reason ≠ some .mmio)
    (host : HostCpuid) (m : Machine δ) :
    (m.step host x).2.1.io = m.io ∧ (m.step host x).2.1.mmio = m.mmio := by
  have hcpuid := serveCpuid_keeps host (m.entered x)
  unfold step
  rcases hr : x.reason with _ | reason
  · exact ⟨rfl, rfl⟩
  · cases reason
    case io => exact absurd hr hio
    case mmio => exact absurd hr hmmio
    case unknown | internalError =>
      simp only [serve]
      split
      · split <;> exact hcpuid
      · exact ⟨rfl, rfl⟩
    all_goals exact ⟨rfl, rfl⟩

/-- The events of other exits are not accesses. -/
theorem type_stepEvents (hio : x.reason ≠ some .io) (hmmio : x.reason ≠ some .mmio)
    (host : HostCpuid) (t : TimePoint) (m : Machine δ) :
    ∀ ev ∈ m.stepEvents host x t,
      ev.type ≠ .ioRead ∧ ev.type ≠ .ioWrite ∧ ev.type ≠ .memAccess := by
  intro ev hev
  obtain ⟨mk, hmk, rfl⟩ := List.mem_map.1 hev
  obtain ⟨reason, hreason, hevent⟩ := exists_eventOf (Option.mem_toList.1 hmk)
  rw [hreason] at hio hmmio
  cases reason <;> simp only [eventOf, Option.some.injEq, reduceCtorEq] at hevent <;> subst hevent
  case io => exact absurd rfl hio
  case mmio => exact absurd rfl hmmio
  all_goals simp [haltEvent, shutdownEvent, cpuidEvent]

/-- An exit of another kind. -/
theorem accessStep_other (hof : d.Of m) (hio : x.reason ≠ some .io)
    (hmmio : x.reason ≠ some .mmio) (host : HostCpuid) (t : TimePoint) :
    m.AccessStep host x t d := by
  obtain ⟨hkio, hkmmio⟩ := step_keeps hio hmmio host m
  have htype := type_stepEvents hio hmmio host t m
  have hcall : d.call x m.dev = none := by
    unfold Devices.call
    split
    · rename_i hr
      exact absurd hr hio
    · rename_i hr
      exact absurd hr hmmio
    · rfl
  have hzero : ∀ p : HvEvent → Bool, (∀ ev ∈ m.stepEvents host x t, ¬ p ev) →
      (m.stepEvents host x t).countP p = 0 := fun p hp => List.countP_eq_zero.2 hp
  refine ⟨?_, ?_, ?_, ?_, ?_, ?_, ?_⟩
  · have hnil : (m.stepEvents host x t).filter (·.isAccess) = [] :=
      List.filter_eq_nil_iff.2 fun ev hev => by simp [HvEvent.isAccess, htype ev hev]
    simp [hcall, hnil]
  · rintro (hr | hr)
    · exact absurd hr hio
    · exact absurd hr hmmio
  · simp [hcall]
  · exact ⟨by rw [hkio]; exact hof.io, by rw [hkmmio]; exact hof.mmio⟩
  · rw [hzero _ fun ev hev => by simp [htype ev hev]]
    simp [Machine.inCount, hkio]
  · rw [hzero _ fun ev hev => by simp [htype ev hev]]
    simp [Machine.outCount, hkio]
  · rw [hzero _ fun ev hev => by simp [htype ev hev]]
    simp [Machine.mmioCount, hkmmio]

/-- Every exit whose port access has a size the hardware has. -/
theorem accessStep (hof : d.Of m)
    (hsize : x.reason = some .io →
      x.run.io.size = 1 ∨ x.run.io.size = 2 ∨ x.run.io.size = 4)
    (host : HostCpuid) (t : TimePoint) : m.AccessStep host x t d := by
  by_cases hio : x.reason = some .io
  · exact accessStep_io hof hio (hsize hio) host t
  · by_cases hmmio : x.reason = some .mmio
    · exact accessStep_mmio hof hmmio host t
    · exact accessStep_other hof hio hmmio host t

end Machine

/-! ## Runs with registrations -/

/-- A registration of a callback. -/
inductive Registration (δ : Type) where
  | registerInPort (port : UInt16) (cb : InContext → δ → UInt32 × δ)
  | registerOutPort (port : UInt16) (cb : OutContext → δ → δ)
  | registerRead (addr : UInt64) (cb : ReadContext → δ → UInt64 × δ)
  | registerWrite (addr : UInt64) (cb : WriteContext → δ → δ)
  | registerLeaf (leaf : UInt32) (cb : UInt32 → UInt32 → δ → LeafResult × δ)

/-- What can happen to the run loop. -/
inductive TrapOp (δ : Type) where
  | exit (x : KvmExit)
  | register (r : Registration δ)

/-- The machine after a registration. -/
def Machine.register (m : Machine δ) : Registration δ → Machine δ
  | .registerInPort port cb => { m with io := m.io.map (·.registerInPort port cb) }
  | .registerOutPort port cb => { m with io := m.io.map (·.registerOutPort port cb) }
  | .registerRead addr cb => { m with mmio := m.mmio.map (·.registerRead addr cb) }
  | .registerWrite addr cb => { m with mmio := m.mmio.map (·.registerWrite addr cb) }
  | .registerLeaf leaf cb => { m with cpuid := m.cpuid.map (·.registerLeaf leaf cb) }

/-- The devices after a registration : the last one for a port or an address counts. -/
def Devices.register (d : Devices δ) : Registration δ → Devices δ
  | .registerLeaf _ _ => d
  | .registerInPort port cb => { d with inPort := Function.update d.inPort port (some cb) }
  | .registerOutPort port cb => { d with outPort := Function.update d.outPort port (some cb) }
  | .registerRead addr cb => { d with read := Function.update d.read addr (some cb) }
  | .registerWrite addr cb => { d with write := Function.update d.write addr (some cb) }

/-- A registration in a table is an update of the function it refines. -/
theorem lookup_insert_of {κ α : Type} [DecidableEq κ] {table : CallbackTable κ α}
    {f : κ → Option α} (h : ∀ k, table.lookup k = f k) (k : κ) (cb : α) (k' : κ) :
    (table.insert k cb).lookup k' = Function.update f k (some cb) k' := by
  rcases eq_or_ne k' k with rfl | hne
  · simp
  · rw [AList.lookup_insert_ne hne, Function.update_of_ne hne, h]

/-- The tables follow the devices. -/
theorem Devices.Of.register {d : Devices δ} {m : Machine δ} (hof : d.Of m)
    (r : Registration δ) : (d.register r).Of (m.register r) := by
  obtain ⟨⟨h, hio, hin, hout⟩, h', hmmio, hread, hwrite⟩ := hof
  cases r with
  | registerInPort port cb =>
    exact ⟨⟨h.registerInPort port cb, by simp [Machine.register, hio],
      lookup_insert_of hin port cb, hout⟩, h', hmmio, hread, hwrite⟩
  | registerOutPort port cb =>
    exact ⟨⟨h.registerOutPort port cb, by simp [Machine.register, hio], hin,
      lookup_insert_of hout port cb⟩, h', hmmio, hread, hwrite⟩
  | registerRead addr cb =>
    exact ⟨⟨h, hio, hin, hout⟩, h'.registerRead addr cb, by simp [Machine.register, hmmio],
      lookup_insert_of hread addr cb, hwrite⟩
  | registerWrite addr cb =>
    exact ⟨⟨h, hio, hin, hout⟩, h'.registerWrite addr cb, by simp [Machine.register, hmmio],
      hread, lookup_insert_of hwrite addr cb⟩
  | registerLeaf leaf cb => exact ⟨⟨h, hio, hin, hout⟩, h', hmmio, hread, hwrite⟩

/-- A registration counts nothing. -/
theorem Machine.counts_register (m : Machine δ) (r : Registration δ) :
    (m.register r).inCount = m.inCount ∧ (m.register r).outCount = m.outCount ∧
      (m.register r).mmioCount = m.mmioCount := by
  unfold Machine.inCount Machine.outCount Machine.mmioCount Machine.register
  rcases m.io with _ | _ <;> rcases m.mmio with _ | _ <;> cases r <;> exact ⟨rfl, rfl, rfl⟩

/-- The run loop next to the abstract devices. -/
structure Traced (δ ω : Type) where
  hv : Hypervisor δ ω
  devices : Devices δ

/-- The subscribers leave the two handlers alone. -/
def EventDispatcher.KeepsAccess (d : EventDispatcher (World δ ω)) : Prop :=
  ∀ s ∈ d.subscriptions, ∀ ev w,
    (s.handler ev w).machine.io = w.machine.io ∧ (s.handler ev w).machine.mmio = w.machine.mmio

namespace Traced

/-- One operation. -/
def exec (host : HostCpuid) (s : Traced δ ω) : TrapOp δ → Traced δ ω
  | .exit x => { s with hv := (s.hv.step host x).2 }
  | .register r =>
    { hv := s.hv.setMachine (s.hv.machine.register r), devices := s.devices.register r }

/-- The state after a run. -/
def run (host : HostCpuid) (ops : List (TrapOp δ)) (s : Traced δ ω) : Traced δ ω :=
  ops.foldl (exec host) s

/-- The operations of a run, each with the state it starts from. -/
def steps (host : HostCpuid) (ops : List (TrapOp δ)) (s : Traced δ ω) :
    List (Traced δ ω × TrapOp δ) :=
  Runs.along (exec host) s ops

/-- The calls of an operation. -/
def opCalls (s : Traced δ ω) : TrapOp δ → List Call
  | .exit x => (s.devices.call x s.hv.machine.dev).toList.map Prod.fst
  | .register _ => []

/-- The calls of a run. -/
def calls (host : HostCpuid) (ops : List (TrapOp δ)) (s : Traced δ ω) : List Call :=
  (s.steps host ops).flatMap fun p => p.1.opCalls p.2

/-- The access events published so far. -/
def accessEvents (s : Traced δ ω) : List HvEvent :=
  (s.hv.published.map (·.event)).filter (·.isAccess)

/-- The number of events of a type published so far. -/
def eventCount (type : EventType) (s : Traced δ ω) : ℕ :=
  (s.hv.published.map (·.event)).countP (·.type == type)

/-- What holds in every state of a run. -/
structure Ready (s : Traced δ ω) : Prop where
  bus : ∃ d, s.hv.dispatch = some d ∧ d.KeepsAccess
  devices : s.devices.Of s.hv.machine

/-- The events of an exit. -/
theorem events_exit {s : Traced δ ω} (h : s.hv.dispatch.isSome) (host : HostCpuid) (x : KvmExit) :
    (s.exec host (.exit x)).hv.published.map (·.event) =
      s.hv.published.map (·.event) ++ s.hv.machine.stepEvents host x s.hv.world.clock.now.1 := by
  obtain ⟨d, hd⟩ := Option.isSome_iff_exists.1 h
  simp only [exec, Hypervisor.published_step, List.map_append, Hypervisor.stepPublication,
    Hypervisor.publication, Hypervisor.dispatch_setMachine, hd, Machine.stepEvents]
  rcases (s.hv.machine.step host x).2.2 with _ | mk <;> rfl

/-- The publication of an exit leaves the handlers as the step made them. -/
theorem handlers_exit {s : Traced δ ω} (hs : s.Ready) (host : HostCpuid) (x : KvmExit) :
    (s.exec host (.exit x)).hv.machine.io = (s.hv.machine.step host x).2.1.io ∧
      (s.exec host (.exit x)).hv.machine.mmio = (s.hv.machine.step host x).2.1.mmio := by
  obtain ⟨d, hd, hk⟩ := hs.bus
  refine Hypervisor.step_inv
    (P := fun w => w.machine.io = (s.hv.machine.step host x).2.1.io ∧
      w.machine.mmio = (s.hv.machine.step host x).2.1.mmio)
    (fun _ => ⟨rfl, rfl⟩) fun d' hd' sub hsub ev w hw => ?_
  obtain rfl : d = d' := by simpa [hd] using hd'
  obtain ⟨hio, hmmio⟩ := hk sub hsub ev w
  exact ⟨hio.trans hw.1, hmmio.trans hw.2⟩

/-- Port accesses have a size the hardware has. -/
def SizedOp (op : TrapOp δ) : Prop :=
  ∀ x, op = .exit x → x.reason = some .io →
    x.run.io.size = 1 ∨ x.run.io.size = 2 ∨ x.run.io.size = 4

/-- The events of an operation. -/
def opEvents (host : HostCpuid) (s : Traced δ ω) : TrapOp δ → List HvEvent
  | .exit x => s.hv.machine.stepEvents host x s.hv.world.clock.now.1
  | .register _ => []

theorem Ready.events_exec {s : Traced δ ω} (hs : s.Ready) (host : HostCpuid) (op : TrapOp δ) :
    (s.exec host op).hv.published.map (·.event) =
      s.hv.published.map (·.event) ++ s.opEvents host op := by
  obtain ⟨d, hd, -⟩ := hs.bus
  cases op with
  | exit x => exact events_exit (by simp [hd]) host x
  | register r => simp [exec, opEvents]

theorem Ready.accessStep {s : Traced δ ω} (hs : s.Ready) {x : KvmExit}
    (hop : SizedOp (TrapOp.exit x : TrapOp δ)) (host : HostCpuid) :
    s.hv.machine.AccessStep host x s.hv.world.clock.now.1 s.devices :=
  Machine.accessStep hs.devices (hop x rfl) host _

theorem Ready.exec {s : Traced δ ω} (hs : s.Ready) {op : TrapOp δ} (hop : SizedOp op)
    (host : HostCpuid) : (s.exec host op).Ready := by
  obtain ⟨d, hd, hk⟩ := hs.bus
  cases op with
  | exit x =>
    obtain ⟨hio, hmmio⟩ := handlers_exit hs host x
    have hdev := (hs.accessStep hop host).devices
    obtain ⟨d', hd', hsub⟩ := Hypervisor.exists_dispatch_step hd host x
    refine ⟨⟨d', hd', fun sub hmem => hk sub (hsub ▸ hmem)⟩, ?_, ?_⟩
    · rw [hio]
      exact hdev.io
    · rw [hmmio]
      exact hdev.mmio
  | register r => exact ⟨⟨d, hd, hk⟩, hs.devices.register r⟩

/-- The calls of an operation match its access events. -/
theorem Ready.calls_match {s : Traced δ ω} (hs : s.Ready) {op : TrapOp δ} (hop : SizedOp op)
    (host : HostCpuid) :
    List.Forall₂ Call.Matches (s.opCalls op) ((s.opEvents host op).filter (·.isAccess)) := by
  cases op with
  | exit x => exact (hs.accessStep hop host).events
  | register r => exact .nil

theorem Ready.eventCount_exec {s : Traced δ ω} (hs : s.Ready) (host : HostCpuid) (op : TrapOp δ)
    (type : EventType) :
    (s.exec host op).eventCount type =
      s.eventCount type + (s.opEvents host op).countP (·.type == type) := by
  rw [eventCount, hs.events_exec, List.countP_append, eventCount]

/-- The handlers' counters. -/
structure CountersTrack (s s' : Traced δ ω) : Prop where
  inCount : Runs.Tracks (eventCount .ioRead) (·.hv.machine.inCount) s s'
  outCount : Runs.Tracks (eventCount .ioWrite) (·.hv.machine.outCount) s s'
  mmioCount : Runs.Tracks (eventCount .memAccess) (·.hv.machine.mmioCount) s s'

theorem Ready.countersTrack {s : Traced δ ω} (hs : s.Ready) {op : TrapOp δ} (hop : SizedOp op)
    (host : HostCpuid) : CountersTrack s (s.exec host op) := by
  cases op with
  | exit x =>
    obtain ⟨hio, hmmio⟩ := handlers_exit hs host x
    have hacc := hs.accessStep hop host
    have hin := hacc.inCount
    have hout := hacc.outCount
    have haccess := hacc.mmioCount
    simp only [Machine.inCount, Machine.outCount, Machine.mmioCount, ← hio, ← hmmio]
      at hin hout haccess
    exact ⟨⟨_, hs.eventCount_exec host _ _, hin⟩, ⟨_, hs.eventCount_exec host _ _, hout⟩,
      ⟨_, hs.eventCount_exec host _ _, haccess⟩⟩
  | register r =>
    obtain ⟨hin, hout, haccess⟩ := s.hv.machine.counts_register r
    exact ⟨⟨0, rfl, by simpa [Traced.exec] using hin⟩, ⟨0, rfl, by simpa [Traced.exec] using hout⟩,
      ⟨0, rfl, by simpa [Traced.exec] using haccess⟩⟩

theorem ready_of_mem_steps {s : Traced δ ω} (hs : s.Ready) {host : HostCpuid}
    {ops : List (TrapOp δ)} (hops : ∀ op ∈ ops, SizedOp op) {p : Traced δ ω × TrapOp δ}
    (hp : p ∈ s.steps host ops) : p.1.Ready :=
  Runs.along_inv ops (fun _ op hop ht => ht.exec (hops op hop) host) hs p hp

/-- The counters over a run. -/
theorem countersTrack_run {s : Traced δ ω} (hs : s.Ready) (host : HostCpuid)
    {ops : List (TrapOp δ)} (hops : ∀ op ∈ ops, SizedOp op) :
    CountersTrack s (s.run host ops) := by
  have hstep : ∀ p ∈ s.steps host ops, CountersTrack p.1 (p.1.exec host p.2) := fun p hp =>
    (ready_of_mem_steps hs hops hp).countersTrack (hops p.2 (Runs.snd_mem_of_mem_along hp)) host
  exact ⟨Runs.tracks_foldl ops fun p hp => (hstep p hp).inCount,
    Runs.tracks_foldl ops fun p hp => (hstep p hp).outCount,
    Runs.tracks_foldl ops fun p hp => (hstep p hp).mmioCount⟩

end Traced

/-- Over every run of exits and registrations, the access events match the handlers' calls one to
one and in order. The calls are those of the devices as registered so far : they succeed when the
step does, and they leave the devices as the step does. The handlers' counters go up by the numbers
of events, modulo `2 ^ 64`. -/
theorem access_events_match (host : HostCpuid) {s : Traced δ ω} (hs : s.Ready)
    {ops : List (TrapOp δ)} (hops : ∀ op ∈ ops, Traced.SizedOp op) :
    (∃ new, (s.run host ops).accessEvents = s.accessEvents ++ new ∧
      List.Forall₂ Call.Matches (s.calls host ops) new) ∧
    (∀ t x, (t, TrapOp.exit x) ∈ s.steps host ops →
      (x.reason = some .io ∨ x.reason = some .mmio →
        ((t.devices.call x t.hv.machine.dev).isSome ↔ (t.hv.step host x).1 ≠ .error)) ∧
      ∀ c ∈ t.devices.call x t.hv.machine.dev, (t.hv.machine.step host x).2.1.dev = c.2) ∧
    Traced.CountersTrack s (s.run host ops) := by
  have hready : ∀ p ∈ s.steps host ops, p.1.Ready ∧ Traced.SizedOp p.2 := fun p hp =>
    ⟨Traced.ready_of_mem_steps hs hops hp, hops p.2 (Runs.snd_mem_of_mem_along hp)⟩
  refine ⟨⟨_, Runs.log_foldl (l := Traced.accessEvents)
    (o := fun t op => (t.opEvents host op).filter (·.isAccess)) ops fun p hp => ?_, ?_⟩,
    fun t x hp => ?_, Traced.countersTrack_run hs host hops⟩
  · rw [Traced.accessEvents, (hready p hp).1.events_exec, List.filter_append, Traced.accessEvents]
  · refine List.rel_flatten ?_
    rw [List.forall₂_map_left_iff, List.forall₂_map_right_iff]
    exact List.forall₂_same.2 fun p hp => (hready p hp).1.calls_match (hready p hp).2 host
  · obtain ⟨ht, hop⟩ := hready _ hp
    have hacc := ht.accessStep hop host
    exact ⟨by rw [Hypervisor.step_eq]; exact hacc.success, hacc.effect⟩

/-- `bareHypervisor`, without callbacks. -/
def bareTraced : Traced Unit Unit where
  hv := bareHypervisor
  devices := {}

theorem ready_bareTraced : bareTraced.Ready where
  bus := ⟨{}, rfl, by simp [EventDispatcher.KeepsAccess]⟩
  devices := ⟨⟨{}, rfl, fun _ => rfl, fun _ => rfl⟩, ⟨{}, rfl, fun _ => rfl, fun _ => rfl⟩⟩

/-- An `IN` of one byte from port 0x60. -/
def inExit : KvmExit where
  run := { exitReason := 2, io := { size := 1, port := 0x60 } }

theorem sizedOp_inExit : Traced.SizedOp (.exit inExit : TrapOp Unit) := by
  intro x hx _
  cases hx
  exact .inl rfl

/-- A keyboard is plugged in between two `IN`s from its port. -/
def keyboardOps : List (TrapOp Unit) :=
  [.exit inExit, .register (.registerInPort 0x60 fun _ dev => (0x1A, dev)), .exit inExit]

/-- The first `IN` of `keyboardOps` reads all ones and the second one the scancode, and both are
published so. -/
theorem access_events_keyboard :
    (∃ new, (bareTraced.run (fun _ _ => {}) keyboardOps).accessEvents =
      bareTraced.accessEvents ++ new ∧
      List.Forall₂ Call.Matches
        [.input { port := 0x60, size := 1 } none, .input { port := 0x60, size := 1 } (some 0x1A)]
        new) ∧
    (bareTraced.run (fun _ _ => {}) keyboardOps).hv.machine.inCount = 2 := by
  have hops : ∀ op ∈ keyboardOps, Traced.SizedOp op := by
    intro op hop
    simp only [keyboardOps, List.mem_cons, List.not_mem_nil, or_false] at hop
    rcases hop with rfl | rfl | rfl
    · exact sizedOp_inExit
    · rintro x ⟨⟩
    · exact sizedOp_inExit
  exact ⟨(access_events_match (fun _ _ => {}) ready_bareTraced hops).1, rfl⟩

/-- Every `IN` is one event. -/
theorem eventCount_ins (n : ℕ) :
    (bareTraced.run (fun _ _ => {}) (List.replicate n (.exit inExit))).eventCount .ioRead =
      bareTraced.eventCount .ioRead + n := by
  have hops : ∀ op ∈ List.replicate n (TrapOp.exit inExit : TrapOp Unit), Traced.SizedOp op := by
    intro op hop
    rw [List.eq_of_mem_replicate hop]
    exact sizedOp_inExit
  have hcount := Runs.countP_foldl (c := Traced.eventCount .ioRead) (P := fun _ _ => true)
    (f := Traced.exec fun _ _ => {}) (List.replicate n (TrapOp.exit inExit : TrapOp Unit))
    (s := bareTraced) fun p hp => by
      have hready := Traced.ready_of_mem_steps ready_bareTraced hops hp
      rw [List.eq_of_mem_replicate (Runs.snd_mem_of_mem_along hp), hready.eventCount_exec]
      obtain ⟨h, hio, -, -⟩ := hready.devices.io
      obtain ⟨m', hstep, hrun, -⟩ := Machine.step_io (x := inExit) hio rfl (fun _ _ => {})
      have hdir : m'.vcpu.kvmRun.io.direction = 0 := by
        rw [hrun]
        rfl
      simp [Traced.opEvents, Machine.stepEvents, hstep, ioEvent, ioPayload, hdir, KVM_EXIT_IO_OUT]
  rw [Traced.run, hcount, List.countP_true, ← List.length_map (f := Prod.snd),
    Runs.map_snd_along, List.length_replicate]

/-- `2 ^ 64` `IN`s are more than `inCount` can count. -/
theorem inCount_wraps :
    (bareTraced.run (fun _ _ => {})
        (List.replicate (2 ^ 64) (.exit inExit))).hv.machine.inCount.toNat ≠
      bareTraced.hv.machine.inCount.toNat +
        ((bareTraced.run (fun _ _ => {}) (List.replicate (2 ^ 64) (.exit inExit))).eventCount
          .ioRead - bareTraced.eventCount .ioRead) := by
  rw [eventCount_ins, Nat.add_sub_cancel_left]
  have hlt := (bareTraced.run (fun _ _ => {})
    (List.replicate (2 ^ 64) (.exit inExit))).hv.machine.inCount.toNat_lt
  omega

end MinBp
