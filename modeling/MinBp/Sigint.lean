import MinBp.Fuzz

/-!
# `SIGINT`

`main` installs a handler for `SIGINT` that clears the flag `g_running`. Here `main` is followed
`KVM_RUN` by `KVM_RUN` through its three iterations (`Program`). What happens to it is a list of
exits, any at all, and of signals. A signal that arrives during a `KVM_RUN` comes before its exit.

Nothing reads the flag. So a signal during a `KVM_RUN` ends the program exactly if that exit would
have ended it anyway (`sigint_stops_iff`) : the exit is `Fatal`, or the guest halts or shuts down in
the last iteration.
-/

namespace MinBp

variable {δ ω : Type}

/-! ## `main` from its first `KVM_RUN` on -/

/-- Whether `main` is still going. -/
inductive Status where
  /-- A `KVM_RUN` is in progress or comes next. -/
  | running
  /-- `main` has left its loops and returns this value. -/
  | returned (code : ℕ)
  | faulted (f : Fault)
  deriving DecidableEq, Repr

/-- The state of `main`. -/
structure Program (δ ω : Type) where
  hv : Hypervisor δ ω
  /-- The loop variable `i`. -/
  iteration : ℕ := 0
  gRunning : Bool := true
  status : Status := .running

/-- `max_iterations`. -/
def maxIterations : ℕ := 3

/-- What can happen to `main`. -/
inductive Happening where
  /-- `SIGINT` is delivered. -/
  | sigint
  /-- The `KVM_RUN` in progress ends in an exit. -/
  | exit (x : KvmExit)

namespace Program

/-- Iteration `i` up to its first `KVM_RUN`. -/
def enter (snap : VmSnapShot) (i : ℕ) (p : Program δ ω) : Program δ ω :=
  match p.hv.startIteration snap i with
  | .error f => { p with status := .faulted f }
  | .ok hv => { p with hv, iteration := i }

/-- From the end of a `KVM_RUN` to the next one, or to the end of `main`. -/
def afterKvmRun (host : HostCpuid) (snap : VmSnapShot) (x : KvmExit) (p : Program δ ω) :
    Program δ ω :=
  match p.hv.step host x with
  | (.cont, hv) => { p with hv }
  | (.error, hv) => { p with hv, status := .returned 1 }
  | (_, hv) =>
    if p.iteration + 1 < maxIterations then enter snap (p.iteration + 1) { p with hv }
    else { p with hv, status := .returned 0 }

/-- `sigint_handler`. -/
def sigintHandler (p : Program δ ω) : Program δ ω :=
  { p with gRunning := false }

/-- One happening. A program that has ended takes no exit. -/
def exec (host : HostCpuid) (snap : VmSnapShot) (p : Program δ ω) : Happening → Program δ ω
  | .sigint => p.sigintHandler
  | .exit x =>
    match p.status with
    | .running => p.afterKvmRun host snap x
    | _ => p

/-- A list of happenings. -/
def run (host : HostCpuid) (snap : VmSnapShot) (hs : List Happening) (p : Program δ ω) :
    Program δ ω :=
  hs.foldl (exec host snap) p

/-- The number of exits that `main` takes from a list of happenings. -/
def kvmRuns (host : HostCpuid) (snap : VmSnapShot) : List Happening → Program δ ω → ℕ
  | [], _ => 0
  | .sigint :: hs, p => kvmRuns host snap hs p.sigintHandler
  | .exit x :: hs, p =>
    (if p.status = .running then 1 else 0) + kvmRuns host snap hs (p.exec host snap (.exit x))

/-- `main` in front of its loop. -/
def start (snap : VmSnapShot) (s : Hypervisor δ ω) : Program δ ω :=
  enter snap 0 { hv := s }

end Program

/-! ## Exits that end the loop -/

/-- A CPUID cannot be served after the exit, because a register ioctl fails. -/
def KvmExit.CpuidFails (x : KvmExit) (m : Machine δ) : Prop :=
  m.cpuid.isSome ∧ ((x.faults .cpuidHandler .getRegs).isSome ∨
    (x.faults .cpuidHandler .setRegs).isSome)

/-- The exit is one on which `step` returns `Error` : a failing `KVM_RUN`, an MMIO access of a
length that is refused, an internal error that is no emulation failure, or a CPUID that cannot be
served. -/
def KvmExit.Fatal (x : KvmExit) (m : Machine δ) : Prop :=
  match x.reason with
  | none => True
  | some .mmio =>
    m.mmio.isSome ∧ (x.run.mmio.len.toUInt8 = 0 ∨ x.run.mmio.len.toUInt8 > 8)
  | some .unknown => x.run.hardwareExitReason = 0 ∧ x.CpuidFails m
  | some .internalError => x.run.suberror ≠ KVM_INTERNAL_ERROR_EMULATION ∨ x.CpuidFails m
  | some _ => False

namespace Machine

theorem serveMmio_entered (x : KvmExit) (m : Machine δ) : (m.entered x).serveMmio.1 = false ↔
    m.mmio.isSome ∧ (x.run.mmio.len.toUInt8 = 0 ∨ x.run.mmio.len.toUInt8 > 8) := by
  rw [serveMmio_fst, vcpu_entered, VCpu.run_snd]
  simp only [Bool.not_eq_false', Bool.and_eq_true, decide_eq_true_eq]
  rfl

theorem serveCpuid_entered (host : HostCpuid) (x : KvmExit) (m : Machine δ) :
    ((m.entered x).serveCpuid host).1 = false ↔ x.CpuidFails m := by
  rw [serveCpuid_fst_eq, vcpu_entered, VCpu.run_snd]
  simp only [Bool.not_eq_false', Bool.and_eq_true, Bool.or_eq_true]
  rfl

/-- `step` returns `Error` exactly on the fatal exits. -/
theorem step_error_iff (host : HostCpuid) (x : KvmExit) (m : Machine δ) :
    (m.step host x).1 = .error ↔ x.Fatal m := by
  unfold step KvmExit.Fatal
  rcases x.reason with _ | reason
  · simp
  · cases reason
    case io => simp [serve, serveIo_fst]
    case mmio =>
      rw [← serveMmio_entered]
      rcases h : (m.entered x).serveMmio.1 <;> simp [serve, h]
    case unknown =>
      rw [← serveCpuid_entered host]
      rcases h : ((m.entered x).serveCpuid host).1 <;>
        by_cases hw : x.run.hardwareExitReason = 0 <;> simp [serve, h, hw]
    case internalError =>
      rw [← serveCpuid_entered host]
      rcases h : ((m.entered x).serveCpuid host).1 <;>
        by_cases hw : x.run.suberror = KVM_INTERNAL_ERROR_EMULATION <;> simp [serve, h, hw]
    all_goals simp [serve]

/-- `step` returns `Halt` or `Shutdown` exactly on these two exits. -/
theorem step_stop_iff (host : HostCpuid) (x : KvmExit) (m : Machine δ) :
    ((m.step host x).1 = .halt ∨ (m.step host x).1 = .shutdown) ↔
      x.reason = some .hlt ∨ x.reason = some .shutdown := by
  unfold step
  rcases x.reason with _ | reason
  · simp
  · constructor
    · intro h
      have hcont : ((m.entered x).serve host reason).1 ≠ .cont := by
        rcases h with h | h <;> simp [h]
      have herror : ((m.entered x).serve host reason).1 ≠ .error := by
        rcases h with h | h <;> simp [h]
      simpa using (serve_stopped hcont herror).1
    · rintro (h | h) <;> obtain rfl := Option.some.inj h
      · exact .inl rfl
      · exact .inr rfl

/-! ## Restarting -/

/-- Restoring a snapshot of `m₀` never faults in a machine whose regions are those of `m₀` with
other bytes, whichever register ioctls fail. -/
theorem exists_restoreSnapshot_of_keeps {m₀ m : Machine δ} {snap : VmSnapShot}
    (hkeeps : Keeps m₀.vm.memoryRegions m.vm.memoryRegions)
    (hlength : m.vm.memoryRegions.length = m₀.vm.memoryRegions.length)
    (htake : m₀.vm.takeSnapShot = .ok snap) :
    ∃ m', m.restoreSnapshot snap = .ok m' ∧ m'.vm.memoryRegions = m₀.vm.memoryRegions := by
  obtain ⟨v, vs, hv⟩ := exists_vcpus_eq_cons m
  obtain ⟨v₀, vs₀, hv₀⟩ := exists_vcpus_eq_cons m₀
  have hsaved : snap.memoryRegions = m₀.vm.memoryRegions.map VirtualMachine.saveRegion := by
    simp only [VirtualMachine.takeSnapShot, hv₀, List.getElem?_cons_zero, Except.ok.injEq] at htake
    rw [← htake]
  have hcopy := VirtualMachine.restoreRegions_saveRegion _ _ hkeeps
  rw [← hlength, List.drop_length, List.append_nil] at hcopy
  unfold restoreSnapshot
  split
  · rename_i f hf
    simp [VirtualMachine.restoreSnapshot, hv, hsaved, hcopy] at hf
  · rename_i vm hvm
    simp only [VirtualMachine.restoreSnapshot, hv, hsaved, hcopy, Except.ok.injEq] at hvm
    exact ⟨_, rfl, (congrArg VirtualMachine.memoryRegions hvm).symm⟩

end Machine

namespace Program

/-- The state of `main` in front of its loop : subscribers only observe, and the first region is
large enough for the scancode. -/
structure Prepared (s : Hypervisor δ ω) : Prop where
  passive : s.Passive
  hasScancode : s.machine.HasScancode

/-- What holds of `main` in every state that comes out of `s₀`. -/
structure Sound (s₀ : Hypervisor δ ω) (p : Program δ ω) : Prop where
  passive : p.hv.Passive
  regions : Keeps s₀.machine.vm.memoryRegions p.hv.machine.vm.memoryRegions
  length : p.hv.machine.vm.memoryRegions.length = s₀.machine.vm.memoryRegions.length
  noFault : ∀ f, p.status ≠ .faulted f

variable {s₀ : Hypervisor δ ω} {snap : VmSnapShot} {host : HostCpuid}

theorem exec_exit_of_running {p : Program δ ω} (h : p.status = .running) (x : KvmExit) :
    p.exec host snap (.exit x) = p.afterKvmRun host snap x := by
  simp only [exec, h]

theorem exec_exit_of_ended {p : Program δ ω} (h : p.status ≠ .running) (x : KvmExit) :
    p.exec host snap (.exit x) = p := by
  rcases hs : p.status with _ | code | f
  · exact absurd hs h
  all_goals simp only [exec, hs]

/-- Every iteration gets as far as its first `KVM_RUN`. -/
theorem Sound.enter (h₀ : Prepared s₀) (htake : s₀.machine.vm.takeSnapShot = .ok snap)
    {p : Program δ ω} (h : Sound s₀ p) {i : ℕ} (hi : 0 < i ∨ p.hv = s₀) :
    Sound s₀ (p.enter snap i) ∧ (p.enter snap i).status = p.status := by
  obtain ⟨rs, hkeeps, hlength, hinject⟩ := Machine.exists_injectScancode h₀.hasScancode i
  have hstart : ∃ m : Machine δ,
      p.hv.startIteration snap i = .ok (p.hv.setMachine (m.setRegions rs)) := by
    unfold Hypervisor.startIteration
    split_ifs with hpos
    · obtain ⟨m, hm, hregions⟩ :=
        Machine.exists_restoreSnapshot_of_keeps h.regions h.length htake
      exact ⟨m, by
        rw [hm]
        exact Hypervisor.injectScancode_ok (hinject m hregions)⟩
    · obtain rfl := hi.resolve_left hpos
      exact ⟨_, Hypervisor.injectScancode_ok (hinject _ rfl)⟩
  obtain ⟨m, hm⟩ := hstart
  rw [Program.enter, hm]
  exact ⟨⟨h.passive, hkeeps, hlength, h.noFault⟩, rfl⟩

/-- A step of the run loop keeps the shape of memory and the subscribers. -/
theorem Sound.step {p : Program δ ω} (h : Sound s₀ p) (host : HostCpuid) (x : KvmExit) :
    Sound s₀ { p with hv := (p.hv.step host x).2 } where
  passive := h.passive.step host x
  regions := by
    rw [h.passive.machine_step, Machine.memoryRegions_step]
    exact h.regions.trans (grown_runVCpu p.hv.machine.vcpuIndex x p.hv.machine.vm).regions
  length := by
    rw [h.passive.machine_step, Machine.memoryRegions_step, ← h.length, VirtualMachine.setRam,
      List.length_mapIdx]
  noFault := h.noFault

/-- From one `KVM_RUN` to the next : nothing faults, and `main` goes on unless the exit is fatal or
stops the last iteration. -/
theorem Sound.afterKvmRun (h₀ : Prepared s₀) (htake : s₀.machine.vm.takeSnapShot = .ok snap)
    {p : Program δ ω} (h : Sound s₀ p) (hrun : p.status = .running) (host : HostCpuid)
    (x : KvmExit) : Sound s₀ (p.afterKvmRun host snap x) ∧
      ((p.afterKvmRun host snap x).status ≠ .running ↔
        x.Fatal p.hv.machine ∨
          (x.reason = some .hlt ∨ x.reason = some .shutdown) ∧
            maxIterations ≤ p.iteration + 1) := by
  have hstep := h.step host x
  have herror := p.hv.machine.step_error_iff host x
  have hstop := p.hv.machine.step_stop_iff host x
  have hfst : (p.hv.step host x).1 = (p.hv.machine.step host x).1 := by rw [Hypervisor.step_eq]
  rw [← hfst] at herror hstop
  rw [← herror, ← hstop]
  unfold Program.afterKvmRun
  rcases hres : p.hv.step host x with ⟨_ | _ | _ | _, hv⟩ <;>
    simp only [hres] at hstep
  case cont => exact ⟨hstep, by simp [hrun]⟩
  case error =>
    exact ⟨⟨hstep.passive, hstep.regions, hstep.length, by simp⟩, by simp⟩
  -- the two ways to end an iteration
  all_goals
    dsimp only
    split_ifs with hlast
    · obtain ⟨hs, hstatus⟩ := hstep.enter h₀ htake (i := p.iteration + 1) (.inl (by omega))
      refine ⟨hs, fun hne => absurd (hstatus.trans hrun) hne, ?_⟩
      rintro (h | ⟨-, h⟩)
      · cases h
      · omega
    · refine ⟨⟨hstep.passive, hstep.regions, hstep.length, by simp⟩, fun _ => .inr ⟨by simp, ?_⟩,
        by simp⟩
      omega

theorem Sound.sigintHandler {p : Program δ ω} (h : Sound s₀ p) : Sound s₀ p.sigintHandler :=
  ⟨h.passive, h.regions, h.length, h.noFault⟩

/-- Happenings keep `main` sound. -/
theorem Sound.exec (h₀ : Prepared s₀) (htake : s₀.machine.vm.takeSnapShot = .ok snap)
    {p : Program δ ω} (h : Sound s₀ p) (ev : Happening) : Sound s₀ (p.exec host snap ev) := by
  cases ev with
  | sigint => exact h.sigintHandler
  | exit x =>
    by_cases hrun : p.status = .running
    · rw [exec_exit_of_running hrun]
      exact (h.afterKvmRun h₀ htake hrun host x).1
    · rwa [exec_exit_of_ended hrun]

theorem sound_start (h₀ : Prepared s₀) (htake : s₀.machine.vm.takeSnapShot = .ok snap) :
    Sound s₀ (start snap s₀) := by
  have h : Sound s₀ { hv := s₀ } :=
    ⟨h₀.passive, (Grown.refl s₀.machine.vm).regions, rfl, by simp⟩
  exact (h.enter h₀ htake (i := 0) (.inr rfl)).1

theorem sound_run (h₀ : Prepared s₀) (htake : s₀.machine.vm.takeSnapShot = .ok snap)
    (host : HostCpuid) (hs : List Happening) : Sound s₀ ((start snap s₀).run host snap hs) := by
  have hinv : ∀ (hs : List Happening) (p : Program δ ω), Sound s₀ p →
      Sound s₀ (p.run host snap hs) := by
    intro hs
    induction hs with
    | nil => exact fun p hp => hp
    | cons ev hs ih => exact fun p hp => ih _ (hp.exec h₀ htake ev)
  exact hinv hs _ (sound_start h₀ htake)

/-! ## Signals -/

/-- A program that has ended issues no `KVM_RUN`. -/
theorem kvmRuns_of_ended {p : Program δ ω} (h : p.status ≠ .running) (hs : List Happening) :
    kvmRuns host snap hs p = 0 := by
  induction hs generalizing p with
  | nil => rfl
  | cons ev hs ih =>
    cases ev with
    | sigint => exact ih h
    | exit x =>
      rw [kvmRuns, if_neg h, exec_exit_of_ended h, ih h]

/-- No further `KVM_RUN`, whatever happens, means that the program has ended. -/
theorem kvmRuns_eq_zero_iff {p : Program δ ω} :
    (∀ hs, kvmRuns host snap hs p = 0) ↔ p.status ≠ .running := by
  refine ⟨fun h hrun => ?_, fun h hs => kvmRuns_of_ended h hs⟩
  have hone := h [.exit {}]
  rw [kvmRuns, if_pos hrun] at hone
  omega

/-- Let `main` be in any state that exits and signals can bring it to, with a `KVM_RUN` in progress.
If `SIGINT` is delivered and the `KVM_RUN` ends in the exit `x`, then `main` issues no further
`KVM_RUN` if and only if `x` is fatal, or the guest halts or shuts down in the last iteration. -/
theorem sigint_stops_iff (h₀ : Prepared s₀) (htake : s₀.machine.vm.takeSnapShot = .ok snap)
    (host : HostCpuid) (before : List Happening) (x : KvmExit)
    (hrun : ((start snap s₀).run host snap before).status = .running) :
    (∀ after, kvmRuns host snap after
        ((start snap s₀).run host snap (before ++ [.sigint, .exit x])) = 0) ↔
      x.Fatal ((start snap s₀).run host snap before).hv.machine ∨
        (x.reason = some .hlt ∨ x.reason = some .shutdown) ∧
          maxIterations ≤ ((start snap s₀).run host snap before).iteration + 1 := by
  have hsound := sound_run h₀ htake host before
  generalize hp : (start snap s₀).run host snap before = p at hrun hsound ⊢
  have hafter : (start snap s₀).run host snap (before ++ [.sigint, .exit x]) =
      p.sigintHandler.afterKvmRun host snap x := by
    rw [← hp, ← exec_exit_of_running (by rw [hp]; exact hrun)]
    simp only [run, List.foldl_append, List.foldl_cons, List.foldl_nil, exec]
  rw [kvmRuns_eq_zero_iff, hafter]
  exact (hsound.sigintHandler.afterKvmRun h₀ htake hrun host x).2

/-- `main` gets to its first `KVM_RUN`. -/
theorem status_start (h₀ : Prepared s₀) (htake : s₀.machine.vm.takeSnapShot = .ok snap) :
    (start snap s₀).status = .running := by
  have h : Sound s₀ { hv := s₀ } :=
    ⟨h₀.passive, (Grown.refl s₀.machine.vm).regions, rfl, by simp⟩
  exact (h.enter h₀ htake (i := 0) (.inr rfl)).2

theorem prepared_launch : Prepared Hypervisor.launch :=
  ⟨Hypervisor.launched_launch.passive, Hypervisor.launched_launch.hasScancode⟩

/-- A `KVM_RUN` that fails ends `main`. -/
theorem sigint_stops_iff_launch :
    ∃ snap, Hypervisor.launch.machine.vm.takeSnapShot = .ok snap ∧
      ∀ after, kvmRuns (fun _ _ => {}) snap after
        ((start snap Hypervisor.launch).run (fun _ _ => {}) snap
          [.sigint, .exit { errno := some EINVAL }]) = 0 := by
  obtain ⟨snap, htake⟩ := Hypervisor.launch.machine.exists_takeSnapShot
  have hstart := status_start prepared_launch htake
  have hfatal : ∀ m : Machine MmioDeviceState, KvmExit.Fatal { errno := some EINVAL } m :=
    fun _ => trivial
  have hstop := sigint_stops_iff prepared_launch htake (fun _ _ => {}) []
    { errno := some EINVAL } (by rwa [run, List.foldl_nil])
  rw [List.nil_append] at hstop
  exact ⟨snap, htake, hstop.2 (.inl (hfatal _))⟩

/-- After an interrupted `KVM_RUN` the loop goes on, whatever the flag says. -/
theorem run_sigint_intr (host : HostCpuid) (snap : VmSnapShot) {p : Program δ ω}
    (h : p.status = .running) :
    (p.run host snap [.sigint, .exit { errno := some EINTR }]).gRunning = false ∧
      (p.run host snap [.sigint, .exit { errno := some EINTR }]).status = .running := by
  have hexec : p.run host snap [.sigint, .exit { errno := some EINTR }] =
      p.sigintHandler.afterKvmRun host snap { errno := some EINTR } :=
    exec_exit_of_running (p := p.sigintHandler) h _
  rw [hexec]
  exact ⟨rfl, h⟩

/-- A `KVM_RUN` that the signal interrupts is followed by another one, with the flag cleared. -/
theorem sigint_ignored :
    ∃ snap, Hypervisor.launch.machine.vm.takeSnapShot = .ok snap ∧
      ((start snap Hypervisor.launch).run (fun _ _ => {}) snap
        [.sigint, .exit { errno := some EINTR }]).gRunning = false ∧
      kvmRuns (fun _ _ => {}) snap [.exit { errno := some EINTR }]
        ((start snap Hypervisor.launch).run (fun _ _ => {}) snap
          [.sigint, .exit { errno := some EINTR }]) = 1 := by
  obtain ⟨snap, htake⟩ := Hypervisor.launch.machine.exists_takeSnapShot
  have hstart := status_start prepared_launch htake
  obtain ⟨hflag, hstatus⟩ := run_sigint_intr (fun _ _ => {}) snap hstart
  exact ⟨snap, htake, hflag, by rw [kvmRuns, kvmRuns, if_pos hstatus]⟩

end Program

end MinBp
