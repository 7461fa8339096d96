import MinBp.MmioDevice
import MinBp.Repeat

/-!
# The snapshot loop of `main`

`main` takes a snapshot and then runs the guest again and again, each time from the snapshot and
with another byte at guest address 0x2000 (`startIteration`, `fuzzLoop`). The devices behind the
MMIO registers are no part of the snapshot, so an iteration starts with what earlier ones left in
them.

`Indistinguishable` compares an iteration with the one that the same byte would give on the
machine of the snapshot : same result, same events, and the guest sees the same, step by step. The
two run in `Lockstep` as long as every read of the status register hides the leftover devices, and
the first read that does not tells them apart. `iteration_independent_iff` is the resulting
criterion.
-/

open Bytes

namespace MinBp

variable {δ ω : Type}

/-! ## The loop -/

/-- `fuzzInput`. -/
def fuzzInput : List UInt8 := [0x41, 0x42, 0x43]

/-- `fuzzInput[i % fuzzInput.size()]`. -/
def scancode (i : ℕ) : UInt8 :=
  fuzzInput.get ⟨i % fuzzInput.length, Nat.mod_lt i (by decide)⟩

/-- `host[off] = b` for the mapping of a region. -/
def MemoryRegion.poke (off : ℕ) (b : UInt8) (r : MemoryRegion) : Except Fault MemoryRegion :=
  match hr : r.host with
  | none => .error .nullPointer
  | some bs =>
    if off < bs.length then
      .ok (r.setHost (bs.set off b) (by simpa using r.host_length bs hr))
    else .error .outOfBounds

/-- The machine with other memory regions. -/
def Machine.setRegions (rs : List MemoryRegion) (m : Machine δ) : Machine δ :=
  { m with
    vm := { m.vm with memoryRegions := rs }
    vcpuIndex_lt := m.vcpuIndex_lt }

/-- The scancode of iteration `i`, stored in the first region. -/
def Machine.injectScancode (i : ℕ) (m : Machine δ) : Except Fault (Machine δ) :=
  match m.vm.memoryRegions with
  | [] => .error .outOfBounds
  | r :: rs =>
    match r.poke 0x2000 (scancode i) with
    | .error f => .error f
    | .ok r' => .ok (m.setRegions (r' :: rs))

namespace Hypervisor

/-- The scancode of iteration `i`, stored in guest memory. -/
def injectScancode (i : ℕ) (s : Hypervisor δ ω) : Except Fault (Hypervisor δ ω) :=
  (s.machine.injectScancode i).map fun m => s.setMachine m

/-- Iteration `i` up to its `runLoop` : the snapshot is restored, except the first time, and the
scancode is stored. -/
def startIteration (snap : VmSnapShot) (i : ℕ) (s : Hypervisor δ ω) :
    Except Fault (Hypervisor δ ω) :=
  if i > 0 then
    match s.machine.restoreSnapshot snap with
    | .error f => .error f
    | .ok m => (s.setMachine m).injectScancode i
  else s.injectScancode i

/-- The state in which iteration `i` starts. It is `none` if the program does not get there, because
an earlier iteration runs out of fuel or ends in an error. `main` stops after three iterations. -/
def fuzzLoop (guest : Guest) (host : HostCpuid) (fuel : ℕ) (snap : VmSnapShot) :
    ℕ → Hypervisor δ ω → Except Fault (Option (Hypervisor δ ω))
  | 0, s => .ok (some s)
  | i + 1, s =>
    match fuzzLoop guest host fuel snap i s with
    | .error f => .error f
    | .ok none => .ok none
    | .ok (some s') =>
      match s'.startIteration snap i with
      | .error f => .error f
      | .ok a =>
        match a.runLoop guest host 0 fuel with
        | none => .ok none
        | some (.error, _) => .ok none
        | some (_, s'') => .ok (some s'')

/-! ## Iterations side by side -/

/-- The first `n` steps of an unbounded `runLoop`, or fewer if it ends before. -/
def runSteps (guest : Guest) (host : HostCpuid) : ℕ → Hypervisor δ ω → RunResult × Hypervisor δ ω
  | 0, s => (.cont, s)
  | n + 1, s =>
    match s.stepGuest guest host with
    | (.cont, s') => runSteps guest host n s'
    | (result, s') => (result, s')

/-- The exits of these steps. -/
def exits (guest : Guest) (host : HostCpuid) : ℕ → Hypervisor δ ω → List KvmExit
  | 0, _ => []
  | n + 1, s =>
    guest s.machine.guestState ::
      match s.stepGuest guest host with
      | (.cont, s') => exits guest host n s'
      | _ => []

/-- Two iterations that neither the guest nor an observer can tell apart, ended or not : `runLoop`
gives the same result, the same events have been published after each step, times aside, and the
guest sees the same registers, the same memory and the same answer to its last access. -/
structure Indistinguishable (guest : Guest) (host : HostCpuid) (a b : Hypervisor δ ω) : Prop where
  result : ∀ fuel, (a.runLoop guest host 0 fuel).map Prod.fst =
    (b.runLoop guest host 0 fuel).map Prod.fst
  events : ∀ n, ∃ new, (a.runSteps guest host n).2.events = a.events ++ new ∧
    (b.runSteps guest host n).2.events = b.events ++ new
  guestState : ∀ n, (a.runSteps guest host n).2.machine.guestState =
    (b.runSteps guest host n).2.machine.guestState

variable {guest : Guest} {host : HostCpuid}

theorem Indistinguishable.symm {a b : Hypervisor δ ω} (h : Indistinguishable guest host a b) :
    Indistinguishable guest host b a where
  result fuel := (h.result fuel).symm
  events n := by
    obtain ⟨new, ha, hb⟩ := h.events n
    exact ⟨new, hb, ha⟩
  guestState n := (h.guestState n).symm

theorem Indistinguishable.trans {a b c : Hypervisor δ ω} (h : Indistinguishable guest host a b)
    (h' : Indistinguishable guest host b c) : Indistinguishable guest host a c where
  result fuel := (h.result fuel).trans (h'.result fuel)
  events n := by
    obtain ⟨new, ha, hb⟩ := h.events n
    obtain ⟨new', hb', hc⟩ := h'.events n
    rw [hb, List.append_cancel_left_eq] at hb'
    exact ⟨new, ha, hb' ▸ hc⟩
  guestState n := (h.guestState n).trans (h'.guestState n)

theorem runLoopFrom_eq (guest : Guest) (host : HostCpuid) :
    ∀ (fuel : ℕ) (iterations : UInt64) (s : Hypervisor δ ω),
      runLoopFrom guest host 0 fuel iterations s =
        if (s.runSteps guest host fuel).1 = .cont then none else some (s.runSteps guest host fuel)
  | 0, _, _ => rfl
  | fuel + 1, iterations, s => by
    rw [runLoopFrom, if_pos (.inl rfl), runSteps]
    rcases s.stepGuest guest host with ⟨_ | _ | _ | _, s'⟩
    · exact runLoopFrom_eq guest host fuel _ s'
    all_goals rfl

/-- The unbounded loop takes steps until one does not say `Continue`. -/
theorem runLoop_eq (fuel : ℕ) (s : Hypervisor δ ω) :
    s.runLoop guest host 0 fuel =
      if (s.runSteps guest host fuel).1 = .cont then none else some (s.runSteps guest host fuel) :=
  runLoopFrom_eq guest host fuel 0 s

/-- The last step of a run that has ended. -/
theorem exists_last {P : Hypervisor δ ω → Prop} (hP : ∀ s, P s → P (s.stepGuest guest host).2) :
    ∀ (n : ℕ) {s : Hypervisor δ ω}, P s → (s.runSteps guest host n).1 ≠ .cont →
      ∃ t, P t ∧ t.stepGuest guest host = s.runSteps guest host n
  | 0, _, _, h => absurd rfl h
  | n + 1, s, hs, h => by
    have hnext := hP s hs
    rw [runSteps] at h ⊢
    rcases hstep : s.stepGuest guest host with ⟨_ | _ | _ | _, s'⟩
    · simp only [hstep] at h hnext ⊢
      exact exists_last hP n hnext h
    all_goals exact ⟨s, hs, hstep⟩

end Hypervisor

/-! ## Lockstep -/

/-- The devices `left` are hidden from every status read among these exits. -/
def MmioDeviceState.HiddenFrom (left : MmioDeviceState) : Bool → List KvmExit → Prop
  | _, [] => True
  | written, x :: xs =>
    (x.ReadsStatus → left.Hidden written x.run.mmio.len.toUInt8.toNat) ∧
      left.HiddenFrom (written || x.WritesInput) xs

namespace Hypervisor

variable {guest : Guest} {host : HostCpuid} {left : MmioDeviceState} {written : Bool}
  {a s b t : Hypervisor MmioDeviceState ω}

/-- `s` and `t` are side by side, and the devices of `s` were `left` over where those of `t` were
fresh. -/
structure Lockstep (left : MmioDeviceState) (written : Bool)
    (a s b t : Hypervisor MmioDeviceState ω) : Prop where
  beside : Beside a s b t
  wired : s.machine.Wired
  drift : left.Drift written s.machine.dev t.machine.dev

theorem Lockstep.wired_right (h : Lockstep left written a s b t) : t.machine.Wired :=
  h.beside.alike.tables.symm.trans h.wired

theorem Lockstep.stepGuest_right (h : Lockstep left written a s b t) :
    t.stepGuest guest host = t.step host (guest s.machine.guestState) := by
  rw [Hypervisor.stepGuest, h.beside.alike.guestState]

theorem size_le_of_readsStatus {x : KvmExit} (h : x.ReadsStatus) :
    x.run.mmio.len.toUInt8.toNat ≤ 8 := by
  have hsize := h.2.2.2
  rw [KvmMmio.Accepted, not_or, gt_iff_lt, UInt8.lt_iff_toNat_lt] at hsize
  exact Nat.le_of_not_lt hsize.2

/-- A step that hides the leftover devices stays in lockstep. -/
theorem Lockstep.step (h : Lockstep left written a s b t) (host : HostCpuid)
    (hh : (guest s.machine.guestState).ReadsStatus →
      left.Hidden written (guest s.machine.guestState).run.mmio.len.toUInt8.toNat) :
    (s.stepGuest guest host).1 = (t.stepGuest guest host).1 ∧
      Lockstep left (written || (guest s.machine.guestState).WritesInput)
        a (s.stepGuest guest host).2 b (t.stepGuest guest host).2 := by
  rw [h.stepGuest_right, Hypervisor.stepGuest]
  set x := guest s.machine.guestState with hx
  have hrun : (s.machine.entered x).vcpu.kvmRun = x.run := by simp
  have hs : (s.machine.entered x).Wired := h.wired
  have ht : (t.machine.entered x).Wired := h.wired_right
  obtain ⟨hres, hbeside⟩ := h.beside.step host (x := x) fun reason hreason => by
    refine hs.handed_eq ht (h.beside.alike.twin_entered x).vcpu reason fun hmmio hread => ?_
    rw [hrun] at hread ⊢
    have hreads : x.ReadsStatus := ⟨hmmio ▸ hreason, hread⟩
    exact (h.drift.status_iff (size_le_of_readsStatus hreads)).2 (hh hreads)
  refine ⟨hres, hbeside, ?_, ?_⟩
  · rw [h.beside.passive.1.machine_step, Machine.Wired, Machine.tables_step]
    exact h.wired
  · rw [h.beside.passive.1.machine_step, h.beside.passive.2.machine_step, h.wired.dev_step,
      h.wired_right.dev_step]
    by_cases hw : x.WritesInput
    · simpa [hw] using h.drift.input x.run.mmioValue
    · simpa [hw] using h.drift

/-- A read of the status register after which the guest sees the same hides the leftover devices. -/
theorem Lockstep.hidden (h : Lockstep left written a s b t) (host : HostCpuid)
    (hread : (guest s.machine.guestState).ReadsStatus)
    (hguest : (s.stepGuest guest host).2.machine.guestState =
      (t.stepGuest guest host).2.machine.guestState) :
    left.Hidden written (guest s.machine.guestState).run.mmio.len.toUInt8.toNat := by
  rw [h.stepGuest_right, Hypervisor.stepGuest, h.beside.passive.1.machine_step,
    h.beside.passive.2.machine_step] at hguest
  set x := guest s.machine.guestState with hx
  have hdata := congrArg GuestState.completion hguest
  rw [h.wired.completion_status hread, h.wired_right.completion_status hread] at hdata
  simp only [Option.some.injEq, Completion.mmio.injEq, KvmMmio.mk.injEq, true_and,
    and_true] at hdata
  -- the bytes that were stored can be read back
  have hload := congrArg (fun buf => load buf 0 x.run.mmio.len.toUInt8.toNat) hdata
  have hback : ∀ dev : MmioDeviceState,
      load (store x.run.mmio.data 0 (encode x.run.mmio.len.toUInt8.toNat dev.status.toNat)) 0
        x.run.mmio.len.toUInt8.toNat = encode x.run.mmio.len.toUInt8.toNat dev.status.toNat := by
    intro dev
    simpa using load_store x.run.mmio.data 0
      (encode x.run.mmio.len.toUInt8.toNat dev.status.toNat)
  simp only [hback] at hload
  exact (h.drift.status_iff (size_le_of_readsStatus hread)).1 hload

/-- As long as the leftover devices are hidden, the runs stay side by side. -/
theorem Lockstep.runSteps : ∀ (n : ℕ) {written : Bool} {s t : Hypervisor MmioDeviceState ω},
    Lockstep left written a s b t → left.HiddenFrom written (s.exits guest host n) →
      (s.runSteps guest host n).1 = (t.runSteps guest host n).1 ∧
        Beside a (s.runSteps guest host n).2 b (t.runSteps guest host n).2
  | 0, _, _, _, h, _ => ⟨rfl, h.beside⟩
  | n + 1, written, s, t, h, hh => by
    rw [exits, MmioDeviceState.HiddenFrom] at hh
    obtain ⟨hres, hnext⟩ := h.step host hh.1
    rw [Hypervisor.runSteps, Hypervisor.runSteps]
    rcases hs : s.stepGuest guest host with ⟨r, s'⟩
    rcases ht : t.stepGuest guest host with ⟨r', t'⟩
    rw [hs, ht] at hres hnext
    obtain rfl : r = r' := hres
    cases r with
    | cont =>
      rw [hs] at hh
      exact Lockstep.runSteps n hnext hh.2
    | _ => exact ⟨rfl, hnext.beside⟩

/-- If the guest sees the same all along, the leftover devices are hidden. -/
theorem Lockstep.hiddenFrom : ∀ (n : ℕ) {written : Bool} {s t : Hypervisor MmioDeviceState ω},
    Lockstep left written a s b t →
      (∀ k, (s.runSteps guest host k).2.machine.guestState =
        (t.runSteps guest host k).2.machine.guestState) →
      left.HiddenFrom written (s.exits guest host n)
  | 0, _, _, _, _, _ => trivial
  | n + 1, written, s, t, h, hguest => by
    have hone : ∀ u : Hypervisor MmioDeviceState ω,
        (u.runSteps guest host 1).2 = (u.stepGuest guest host).2 := by
      intro u
      rw [Hypervisor.runSteps]
      rcases u.stepGuest guest host with ⟨_ | _ | _ | _, u'⟩ <;> rfl
    have hread : (guest s.machine.guestState).ReadsStatus →
        left.Hidden written (guest s.machine.guestState).run.mmio.len.toUInt8.toNat := by
      intro hread
      refine h.hidden host hread ?_
      rw [← hone, ← hone]
      exact hguest 1
    obtain ⟨hres, hnext⟩ := h.step host hread
    rw [exits]
    refine ⟨hread, ?_⟩
    rcases hs : s.stepGuest guest host with ⟨r, s'⟩
    rcases ht : t.stepGuest guest host with ⟨r', t'⟩
    rw [hs, ht] at hres hnext
    obtain rfl : r = r' := hres
    cases r with
    | cont =>
      refine Lockstep.hiddenFrom n hnext fun k => ?_
      have hk := hguest (k + 1)
      simpa only [Hypervisor.runSteps, hs, ht] using hk
    | _ => trivial

/-- Two runs that start in lockstep are indistinguishable if the leftover devices are hidden from
all their status reads, and only then. -/
theorem Lockstep.indistinguishable_iff (h : Lockstep left false a a b b) :
    Indistinguishable guest host a b ↔ ∀ n, left.HiddenFrom false (a.exits guest host n) := by
  refine ⟨fun hind n => h.hiddenFrom n hind.guestState,
    fun hh => ⟨fun fuel => ?_, fun n => ?_, fun n => ?_⟩⟩
  · rw [runLoop_eq, runLoop_eq, (h.runSteps fuel (hh fuel)).1]
    split
    · rfl
    · simp only [Option.map_some, (h.runSteps fuel (hh fuel)).1]
  · exact (h.runSteps n (hh n)).2.events
  · exact (h.runSteps n (hh n)).2.alike.guestState

end Hypervisor

/-! ## Where an iteration starts -/

theorem MemoryRegion.exists_poke {r : MemoryRegion} {off : ℕ} (hmapped : r.host.isSome)
    (hoff : off < r.size.toNat) (b : UInt8) : ∃ r', r.poke off b = .ok r' ∧ SameShape r r' := by
  unfold poke
  split
  · simp_all
  · rename_i bs hbs
    rw [← r.host_length bs hbs] at hoff
    rw [if_pos hoff]
    exact ⟨_, rfl, rfl, rfl, rfl, by simp [setHost, hbs]⟩

namespace Machine

/-- There is a first region, and it reaches to where scancodes are stored. -/
def HasScancode (m : Machine δ) : Prop :=
  ∃ r rs, m.vm.memoryRegions = r :: rs ∧ r.host.isSome ∧ 0x2000 < r.size.toNat

/-- Storing a scancode succeeds, and what it makes of the memory depends on nothing else. -/
theorem exists_injectScancode {m₀ : Machine δ} (h : m₀.HasScancode) (i : ℕ) :
    ∃ rs, Keeps m₀.vm.memoryRegions rs ∧ rs.length = m₀.vm.memoryRegions.length ∧
      ∀ m : Machine δ, m.vm.memoryRegions = m₀.vm.memoryRegions →
        m.injectScancode i = .ok (m.setRegions rs) := by
  obtain ⟨r, rs, hregions, hmapped, hsize⟩ := h
  obtain ⟨r', hpoke, hshape⟩ := MemoryRegion.exists_poke hmapped hsize (scancode i)
  refine ⟨r' :: rs, ?_, by rw [hregions]; rfl, fun m hm => ?_⟩
  · intro k q hq
    rw [hregions] at hq
    cases k with
    | zero =>
      obtain rfl : r = q := Option.some.inj hq
      exact ⟨r', rfl, hshape⟩
    | succ k => exact ⟨q, hq, .refl q⟩
  · simp only [injectScancode, hm, hregions, hpoke]

theorem exists_takeSnapShot (m : Machine δ) : ∃ snap, m.vm.takeSnapShot = .ok snap := by
  obtain ⟨v, vs, hv⟩ := m.exists_vcpus_eq_cons
  exact ⟨_, by rw [VirtualMachine.takeSnapShot, hv]; rfl⟩

/-- Only `HLT` and a shutdown end the loop without an error, and they leave the machine alone. -/
theorem serve_stopped {m : Machine δ} {host : HostCpuid} {reason : ExitReason}
    (hcont : (m.serve host reason).1 ≠ .cont) (herror : (m.serve host reason).1 ≠ .error) :
    (reason = .hlt ∨ reason = .shutdown) ∧ (m.serve host reason).2.1 = m := by
  cases reason
  case hlt => exact ⟨.inl rfl, rfl⟩
  case shutdown => exact ⟨.inr rfl, rfl⟩
  all_goals
    simp only [serve] at hcont herror
    repeat' split at hcont
    all_goals simp_all

/-- After such a step no access is pending. -/
theorem step_stopped {m : Machine δ} {host : HostCpuid} {x : KvmExit}
    (hcont : (m.step host x).1 ≠ .cont) (herror : (m.step host x).1 ≠ .error) :
    (m.step host x).2.1 = m.entered x ∧ x.run.completion = none := by
  rcases hreason : x.reason with _ | reason
  · simp [step, hreason] at herror
  · simp only [step, hreason] at hcont herror ⊢
    obtain ⟨hstop, hm⟩ := serve_stopped hcont herror
    refine ⟨hm, ?_⟩
    unfold KvmExit.reason at hreason
    split at hreason
    · split at hreason
      · obtain rfl := Option.some.inj hreason
        simp at hstop
      · cases hreason
    · rw [KvmRun.completion, Option.some.inj hreason]
      rcases hstop with rfl | rfl <;> rfl

end Machine

namespace Hypervisor

variable {guest : Guest} {host : HostCpuid} {s₀ s : Hypervisor MmioDeviceState ω}
  {snap : VmSnapShot}

theorem injectScancode_ok {s : Hypervisor δ ω} {i : ℕ} {m : Machine δ}
    (h : s.machine.injectScancode i = .ok m) : s.injectScancode i = .ok (s.setMachine m) := by
  rw [injectScancode, h]
  rfl

theorem vcpu_injectScancode {s s' : Hypervisor δ ω} {i : ℕ} (h : s.injectScancode i = .ok s') :
    s'.machine.vcpu = s.machine.vcpu := by
  rw [injectScancode, Machine.injectScancode] at h
  split at h
  · cases h
  · split at h
    · cases h
    · cases h
      rfl

/-- `main` as it takes its snapshot : callbacks registered, devices fresh, subscribers that only
observe, and no access pending. The registers can be read, and the first region is large enough. -/
structure Launched (s : Hypervisor MmioDeviceState ω) : Prop where
  passive : s.Passive
  wired : s.machine.Wired
  dev : s.machine.dev = {}
  index : s.machine.vcpuIndex = 0
  hasScancode : s.machine.HasScancode
  getRegs : s.machine.vcpu.faults .takeSnapShot .getRegs = none
  getSregs : s.machine.vcpu.faults .takeSnapShot .getSregs = none
  pending : s.machine.vcpu.kvmRun.completion = none

/-- An earlier iteration has ended in `s`, and the registers can be written back. -/
structure Resumable (s₀ s : Hypervisor MmioDeviceState ω) : Prop extends Continues s₀ s where
  setRegs : s.machine.vcpu.faults .restoreSnapshot .setRegs = none
  setSregs : s.machine.vcpu.faults .restoreSnapshot .setSregs = none
  pending : s.machine.vcpu.kvmRun.completion = none

/-- The states between iterations : the one of the snapshot before the first, then resumable
ones. -/
def Between (i : ℕ) (s₀ s : Hypervisor MmioDeviceState ω) : Prop :=
  i = 0 ∧ s = s₀ ∨ 0 < i ∧ Resumable s₀ s

/-- Iteration `i` starts next to the machine of the snapshot with the same scancode, with the
devices left over. -/
theorem exists_startIteration (h₀ : Launched s₀) (htake : s₀.machine.vm.takeSnapShot = .ok snap)
    {i : ℕ} (h : Between i s₀ s) :
    ∃ a b, s.startIteration snap i = .ok a ∧ s₀.injectScancode i = .ok b ∧
      Continues s₀ a ∧ Lockstep s.machine.dev false a a b b := by
  obtain ⟨rs, hkeeps, hlength, hinject⟩ := Machine.exists_injectScancode h₀.hasScancode i
  have hb := injectScancode_ok (hinject s₀.machine rfl)
  rcases h with ⟨rfl, rfl⟩ | ⟨hi, h⟩
  · refine ⟨_, _, hb, hb, ⟨h₀.passive, rfl, rfl, rfl, hkeeps, hlength, rfl⟩, ?_, h₀.wired, ?_⟩
    · exact ⟨⟨rfl, rfl, rfl⟩, ⟨h₀.passive, h₀.passive⟩, rfl, ⟨[], by simp, by simp⟩, .refl _ _⟩
    · have hdrift := MmioDeviceState.Drift.start s.machine.dev
      rw [← h₀.dev] at hdrift
      exact hdrift
  · obtain ⟨m, hm, hvcpu, hregions, htables, hindex, hdev, -⟩ := Machine.exists_restoreSnapshot
      h.follows h₀.index htake h₀.getRegs h₀.getSregs h.setRegs h.setSregs
    have ha : s.startIteration snap i = .ok (s.setMachine (m.setRegions rs)) := by
      rw [startIteration, if_pos hi, hm]
      exact injectScancode_ok (hinject m hregions)
    have hid : m.vcpu.id = s₀.machine.vcpu.id := by
      rw [hvcpu]
      exact h.follows.id
    have hall : m.tables = s₀.machine.tables := htables.trans h.follows.tables
    have hguest : (m.setRegions rs).guestState = (s₀.machine.setRegions rs).guestState := by
      have hv : (m.setRegions rs).vcpu = m.vcpu := rfl
      have hv₀ : (s₀.machine.setRegions rs).vcpu = s₀.machine.vcpu := rfl
      rw [Machine.guestState, Machine.guestState, hv, hv₀, hvcpu, h.pending, h₀.pending]
      rfl
    refine ⟨_, _, ha, hb, ⟨h.passive, h.dispatch, hindex.trans h.follows.index, hid, hkeeps,
      hlength, hall⟩, ?_, hall.trans h₀.wired, ?_⟩
    · exact ⟨⟨hid, hguest, hall⟩, ⟨h.passive, h₀.passive⟩, h.dispatch, ⟨[], by simp, by simp⟩,
        .refl _ _⟩
    · have hdrift := MmioDeviceState.Drift.start s.machine.dev
      rw [← h₀.dev] at hdrift
      exact hdev ▸ hdrift

/-- An iteration that has ended without an error can be followed by another. -/
theorem Continues.resumable {a : Hypervisor MmioDeviceState ω} (h : Continues s₀ a)
    (hset : ∀ g, (guest g).faults .restoreSnapshot .setRegs = none)
    (hsetS : ∀ g, (guest g).faults .restoreSnapshot .setSregs = none) {fuel : ℕ}
    {result : RunResult} (hrun : a.runLoop guest host 0 fuel = some (result, s))
    (hresult : result ≠ .error) : Resumable s₀ s := by
  rw [runLoop_eq] at hrun
  split at hrun
  · cases hrun
  · rename_i hcont
    obtain ⟨t, ht, hlast⟩ := exists_last (fun t (ht : Continues s₀ t) => ht.stepGuest guest host)
      fuel h hcont
    rw [Option.some.inj hrun] at hlast hcont
    have hs : s = (t.stepGuest guest host).2 := (congrArg Prod.snd hlast).symm
    have hfst : (t.machine.step host (guest t.machine.guestState)).1 = result := by
      have hstep := congrArg Prod.fst hlast
      rwa [Hypervisor.stepGuest, step_eq] at hstep
    obtain ⟨hm, hpending⟩ := Machine.step_stopped (by rwa [hfst]) (by rwa [hfst])
    have hvcpu : s.machine.vcpu = (t.machine.vcpu.run (guest t.machine.guestState)).2 := by
      rw [hs, Hypervisor.stepGuest, ht.passive.machine_step, hm, Machine.vcpu_entered]
    refine ⟨hs ▸ ht.stepGuest guest host, ?_, ?_, ?_⟩ <;> rw [hvcpu, VCpu.run_snd]
    · exact hset _
    · exact hsetS _
    · exact hpending

theorem between_fuzzLoop (h₀ : Launched s₀) (htake : s₀.machine.vm.takeSnapShot = .ok snap)
    (hset : ∀ g, (guest g).faults .restoreSnapshot .setRegs = none)
    (hsetS : ∀ g, (guest g).faults .restoreSnapshot .setSregs = none) {fuel : ℕ} :
    ∀ (i : ℕ) {s : Hypervisor MmioDeviceState ω},
      fuzzLoop guest host fuel snap i s₀ = .ok (some s) → Between i s₀ s
  | 0, s, h => .inl ⟨rfl, (Option.some.inj (Except.ok.inj h)).symm⟩
  | i + 1, s, h => by
    rw [fuzzLoop] at h
    rcases hi : fuzzLoop guest host fuel snap i s₀ with f | _ | s'
    · simp [hi] at h
    · simp [hi] at h
    · obtain ⟨a, b, ha, -, hcontinues, -⟩ := exists_startIteration h₀ htake
        (between_fuzzLoop h₀ htake hset hsetS i hi)
      simp only [hi, ha] at h
      refine .inr ⟨i.succ_pos, ?_⟩
      rcases hrun : a.runLoop guest host 0 fuel with _ | ⟨result, t⟩
      · simp [hrun] at h
      · rw [hrun] at h
        cases result with
        | error => simp at h
        | _ =>
          obtain rfl := Option.some.inj (Except.ok.inj h)
          exact hcontinues.resumable hset hsetS hrun (by decide)

/-- When the iterations of `main` are independent. Iteration `i` cannot be told from a run of the
same scancode on the machine of the snapshot if and only if the devices that earlier iterations
left over are hidden from all its status reads. Iterations with the same scancode for which this
holds cannot be told from each other. -/
theorem iteration_independent_iff (guest : Guest) (host : HostCpuid) (fuel : ℕ)
    {s₀ s : Hypervisor MmioDeviceState ω} {snap : VmSnapShot} {i : ℕ} (h₀ : Launched s₀)
    (htake : s₀.machine.vm.takeSnapShot = .ok snap)
    (hset : ∀ g, (guest g).faults .restoreSnapshot .setRegs = none)
    (hsetS : ∀ g, (guest g).faults .restoreSnapshot .setSregs = none)
    (hs : fuzzLoop guest host fuel snap i s₀ = .ok (some s)) :
    ∃ a b, s.startIteration snap i = .ok a ∧ s₀.injectScancode i = .ok b ∧
      (Indistinguishable guest host a b ↔
        ∀ n, s.machine.dev.HiddenFrom false (a.exits guest host n)) ∧
      ∀ j s' a', scancode j = scancode i → fuzzLoop guest host fuel snap j s₀ = .ok (some s') →
        s'.startIteration snap j = .ok a' →
        (∀ n, s.machine.dev.HiddenFrom false (a.exits guest host n)) →
        (∀ n, s'.machine.dev.HiddenFrom false (a'.exits guest host n)) →
        Indistinguishable guest host a a' := by
  obtain ⟨a, b, ha, hb, -, hlock⟩ := exists_startIteration h₀ htake
    (between_fuzzLoop h₀ htake hset hsetS i hs)
  refine ⟨a, b, ha, hb, hlock.indistinguishable_iff, fun j s' a' hij hs' ha' hh hh' => ?_⟩
  obtain ⟨c, b', hc, hb', -, hlock'⟩ := exists_startIteration h₀ htake
    (between_fuzzLoop h₀ htake hset hsetS j hs')
  obtain rfl : c = a' := Except.ok.inj (hc.symm.trans ha')
  obtain rfl : b' = b := by
    have hsame : s₀.injectScancode j = s₀.injectScancode i := by
      simp only [injectScancode, Machine.injectScancode, hij]
    exact Except.ok.inj ((hb'.symm.trans hsame).trans hb)
  exact (hlock.indistinguishable_iff.2 hh).trans (hlock'.indistinguishable_iff.2 hh').symm

/-! ## Two guests -/

/-- A VM with one vCPU and 512 KiB of memory. -/
def launchVm : VirtualMachine where
  memoryRegions :=
    [{ slot := 0, guestPhysAddr := 0, size := 0x80000
       host := some (List.replicate 0x80000 0)
       host_length := by
         rintro bs ⟨⟩
         exact List.length_replicate
       no_wrap := by decide }]
  vcpus := [{}]

/-- `main` on this VM. -/
def launch : Hypervisor MmioDeviceState Unit where
  world := { machine := Main.machine launchVm (by decide), obs := () }
  dispatch := some {}

theorem launched_launch : Launched launch where
  passive := by simp [Passive, EventDispatcher.Observing, launch]
  wired := Machine.wired_machine _ _
  dev := rfl
  index := rfl
  hasScancode := ⟨_, _, rfl, rfl, by decide⟩
  getRegs := rfl
  getSregs := rfl
  pending := rfl

/-- A read of the status register. -/
def statusRead : KvmExit where
  run := { exitReason := 6, mmio := { physAddr := kRegStatus, len := 8 } }
  regs := { rip := 1 }

/-- A write of 7 to the input register. -/
def inputWrite : KvmExit where
  run :=
    { exitReason := 6
      mmio :=
        { physAddr := kRegInput, data := fun i => if i = 0 then 7 else 0, len := 8, isWrite := 1 } }
  regs := { rip := 2 }

/-- A guest that writes the input register and halts. With `reads` it reads the status register
first. -/
def registerGuest (reads : Bool) : Guest := fun g =>
  if g.regs.rip = 0 ∧ reads = true then statusRead
  else if g.regs.rip < 2 then inputWrite
  else { run := { exitReason := 5 }, regs := { rip := 3 } }

theorem stepGuest_mmio (host : HostCpuid) {s : Hypervisor MmioDeviceState ω} {x : KvmExit}
    (hp : s.Passive)
    (hw : s.machine.Wired) (hx : guest s.machine.guestState = x) (hreason : x.reason = some .mmio)
    (hsize : x.run.mmio.Accepted) :
    ∃ s', s.stepGuest guest host = (.cont, s') ∧ s'.Passive ∧ s'.machine.Wired ∧
      s'.machine.vcpu.regs = x.regs ∧
      s'.machine.dev =
        if x.run.mmio.WritesInput then s.machine.dev.input x.run.mmioValue else s.machine.dev := by
  have hentered : (s.machine.entered x).Wired := hw
  have hok : (s.machine.entered x).serveMmio.1 = true := by
    rw [Machine.serveMmio_fst, Machine.vcpu_entered, VCpu.run_snd]
    have hsize' : ¬(x.run.mmio.len.toUInt8 = 0 ∨ x.run.mmio.len.toUInt8 > 8) := hsize
    simp [hsize']
  have hserve : s.machine.step host x =
      (.cont, (s.machine.entered x).serveMmio.2, some mmioEvent) := by
    simp only [Machine.step, hreason, Machine.serve, hok, if_true]
  refine ⟨(s.step host x).2, ?_, hp.step host x, ?_, ?_, ?_⟩
  · rw [Hypervisor.stepGuest, hx, step_eq, hserve]
  · rw [hp.machine_step, Machine.Wired, Machine.tables_step]
    exact hw
  · rw [hp.machine_step, hserve, Machine.vcpu_serveMmio host, Machine.vcpu_entered, VCpu.run_snd]
    split <;> rfl
  · rw [hp.machine_step, hw.dev_step]
    simp [KvmExit.WritesInput, hreason]

theorem stepGuest_hlt (host : HostCpuid) {s : Hypervisor MmioDeviceState ω} {x : KvmExit}
    (hp : s.Passive) (hx : guest s.machine.guestState = x) (hreason : x.reason = some .hlt) :
    ∃ s', s.stepGuest guest host = (.halt, s') ∧ s'.machine.dev = s.machine.dev := by
  have hserve : s.machine.step host x = (.halt, s.machine.entered x, some haltEvent) := by
    simp only [Machine.step, hreason, Machine.serve]
  refine ⟨(s.step host x).2, ?_, ?_⟩
  · rw [Hypervisor.stepGuest, hx, step_eq, hserve]
  · rw [hp.machine_step, hserve]
    rfl

theorem runSteps_inputWrite (host : HostCpuid) {reads : Bool} {s : Hypervisor MmioDeviceState ω}
    (hp : s.Passive) (hw : s.machine.Wired)
    (hx : registerGuest reads s.machine.guestState = inputWrite) (n : ℕ) :
    ∃ s', s.runSteps (registerGuest reads) host (n + 2) = (.halt, s') ∧
      s'.machine.dev = s.machine.dev.input 7 := by
  obtain ⟨s₁, hstep₁, hp₁, -, hregs₁, hdev₁⟩ := stepGuest_mmio host hp hw hx rfl (by decide)
  have hx₁ : registerGuest reads s₁.machine.guestState =
      { run := { exitReason := 5 }, regs := { rip := 3 } } := by
    simp [registerGuest, Machine.guestState, hregs₁, inputWrite]
  obtain ⟨s₂, hstep₂, hdev₂⟩ := stepGuest_hlt host hp₁ hx₁ rfl
  refine ⟨s₂, ?_, ?_⟩
  · simp only [runSteps, hstep₁, hstep₂]
  · have hvalue : inputWrite.run.mmioValue = 7 := by decide
    rw [hdev₂, hdev₁, if_pos (by decide), hvalue]

/-- Every iteration of `registerGuest` leaves one more write in the devices. -/
theorem runLoop_registerGuest (host : HostCpuid) (reads : Bool)
    {s : Hypervisor MmioDeviceState ω} (hp : s.Passive) (hw : s.machine.Wired)
    (hrip : s.machine.vcpu.regs.rip = 0) :
    ∃ s', s.runLoop (registerGuest reads) host 0 3 = some (.halt, s') ∧
      s'.machine.dev = s.machine.dev.input 7 := by
  have hrun : ∃ s', s.runSteps (registerGuest reads) host 3 = (.halt, s') ∧
      s'.machine.dev = s.machine.dev.input 7 := by
    cases reads with
    | false =>
      exact runSteps_inputWrite host hp hw (by simp [registerGuest, Machine.guestState, hrip]) 1
    | true =>
      have hx : registerGuest true s.machine.guestState = statusRead := by
        simp [registerGuest, Machine.guestState, hrip]
      obtain ⟨s₁, hstep₁, hp₁, hw₁, hregs₁, hdev₁⟩ :=
        stepGuest_mmio host hp hw hx rfl (by decide)
      have hx₁ : registerGuest true s₁.machine.guestState = inputWrite := by
        simp [registerGuest, Machine.guestState, hregs₁, statusRead]
      obtain ⟨s', hs', hdev'⟩ := runSteps_inputWrite host hp₁ hw₁ hx₁ 0
      rw [hdev₁, if_neg (by decide)] at hdev'
      refine ⟨s', ?_, hdev'⟩
      rw [runSteps, hstep₁]
      exact hs'
  obtain ⟨s', hs', hdev⟩ := hrun
  refine ⟨s', ?_, hdev⟩
  rw [runLoop_eq, hs']
  rfl

theorem faults_registerGuest (reads : Bool) (g : GuestState) (c : Caller) (r : RegIoctl) :
    (registerGuest reads g).faults c r = none := by
  unfold registerGuest
  split
  · rfl
  · split <;> rfl

/-- The second iteration of `registerGuest` starts with the write of the first in the devices. -/
theorem fuzzLoop_registerGuest (host : HostCpuid) (reads : Bool) (snap : VmSnapShot)
    (h₀ : Launched s₀) (hrip : s₀.machine.vcpu.regs.rip = 0) :
    ∃ s, fuzzLoop (registerGuest reads) host 3 snap 1 s₀ = .ok (some s) ∧
      s.machine.dev = { lastWriteValue := 7, writeCount := 1 } := by
  obtain ⟨rs, -, -, hinject⟩ := Machine.exists_injectScancode h₀.hasScancode 0
  have hstart : s₀.startIteration snap 0 = .ok (s₀.setMachine (s₀.machine.setRegions rs)) := by
    rw [startIteration, if_neg (Nat.lt_irrefl 0)]
    exact injectScancode_ok (hinject s₀.machine rfl)
  obtain ⟨s, hrun, hdev⟩ := runLoop_registerGuest host reads
    (s := s₀.setMachine (s₀.machine.setRegions rs)) h₀.passive h₀.wired hrip
  have hfresh : (s₀.setMachine (s₀.machine.setRegions rs)).machine.dev = {} := h₀.dev
  refine ⟨s, ?_, by rw [hdev, hfresh]; rfl⟩
  simp only [fuzzLoop, hstart, hrun]

/-- In the second iteration the guest reads 0x100000007 from the status register, where the same
scancode on the machine of the snapshot gives zero. -/
theorem iteration_sees_earlier_write :
    ∃ (snap : VmSnapShot) (s a b : Hypervisor MmioDeviceState Unit),
      Launched launch ∧ launch.machine.vm.takeSnapShot = .ok snap ∧
      fuzzLoop (registerGuest true) (fun _ _ => {}) 3 snap 1 launch = .ok (some s) ∧
      s.startIteration snap 1 = .ok a ∧ launch.injectScancode 1 = .ok b ∧
      a.machine.dev.status = 0x100000007 ∧ b.machine.dev.status = 0 ∧
      ¬Indistinguishable (registerGuest true) (fun _ _ => {}) a b := by
  obtain ⟨snap, htake⟩ := launch.machine.exists_takeSnapShot
  obtain ⟨s, hs, hdev⟩ := fuzzLoop_registerGuest (fun _ _ => {}) true snap launched_launch rfl
  obtain ⟨a, b, ha, hb, -, hlock⟩ := exists_startIteration launched_launch htake
    (between_fuzzLoop launched_launch htake (fun g => faults_registerGuest true g _ _)
      (fun g => faults_registerGuest true g _ _) 1 hs)
  obtain ⟨hadev, hbdev⟩ := hlock.drift.unwritten rfl
  refine ⟨snap, s, a, b, launched_launch, htake, hs, ha, hb, ?_, ?_, fun hind => ?_⟩
  · rw [hadev, hdev]
    decide
  · rw [hbdev]
    decide
  · have hrip : a.machine.guestState.regs.rip = 0 := by
      rw [hlock.beside.alike.guestState, Machine.guestState, vcpu_injectScancode hb]
      rfl
    have hx : registerGuest true a.machine.guestState = statusRead := by
      simp [registerGuest, hrip]
    have hhidden := (hlock.indistinguishable_iff.1 hind 1).1
    rw [hx, hdev] at hhidden
    exact absurd (hhidden (by decide)) (by decide)

theorem hiddenFrom_exits (hguest : ∀ g, ¬(guest g).ReadsStatus) (left : MmioDeviceState) :
    ∀ (n : ℕ) (written : Bool) (s : Hypervisor MmioDeviceState ω),
      left.HiddenFrom written (s.exits guest host n)
  | 0, _, _ => trivial
  | n + 1, written, s => by
    rw [exits]
    refine ⟨fun hread => absurd hread (hguest _), ?_⟩
    split
    · exact hiddenFrom_exits hguest left n _ _
    · trivial

/-- A guest that never reads the status register does not notice the write of the first
iteration. -/
theorem iteration_independent_registerGuest :
    ∃ (snap : VmSnapShot) (s a b : Hypervisor MmioDeviceState Unit),
      fuzzLoop (registerGuest false) (fun _ _ => {}) 3 snap 1 launch = .ok (some s) ∧
      s.machine.dev = { lastWriteValue := 7, writeCount := 1 } ∧
      s.startIteration snap 1 = .ok a ∧ launch.injectScancode 1 = .ok b ∧
      Indistinguishable (registerGuest false) (fun _ _ => {}) a b := by
  obtain ⟨snap, htake⟩ := launch.machine.exists_takeSnapShot
  obtain ⟨s, hs, hdev⟩ := fuzzLoop_registerGuest (fun _ _ => {}) false snap launched_launch rfl
  obtain ⟨a, b, ha, hb, hiff, -⟩ := iteration_independent_iff (registerGuest false)
    (fun _ _ => {}) 3 launched_launch htake (fun g => faults_registerGuest false g _ _)
    (fun g => faults_registerGuest false g _ _) hs
  have hguest : ∀ g, ¬(registerGuest false g).ReadsStatus := by
    intro g
    unfold registerGuest
    rw [if_neg (by simp)]
    split <;> decide
  exact ⟨snap, s, a, b, hs, hdev, ha, hb, hiff.2 fun n => hiddenFrom_exits hguest _ n _ _⟩

end Hypervisor

end MinBp
