import MinBp.InstructionTrapper
import MinBp.Loops

/-!
# The run loop under any KVM

`runLoop` for a KVM that may do anything at a `KVM_RUN` : a function of the machine and of a state
of KVM's own gives the exit (`Kvm`). A deterministic guest is one such KVM (`runLoop_ofGuest`), a
fixed sequence of exits another (`Kvm.ofExits`). `Running.runs` counts the `KVM_RUN`s, which the
code does not do.

The loop takes a 64-bit bound in which zero means none. `runLoop_of_ne_zero` and
`runLoop_zero_eq_some_iff` reduce it to `Loops.upTo` and `Loops.StopsAfter` once and for all. How
bounds add up, how many `KVM_RUN`s are issued and how `exitCount` follows them is then read off the
loop library (`runLoop_exact`).

The switch of `dispatchExit` says `Continue` where it has no case, so the loop does not end at an
exit that nothing handles (`stops_unhandled_iff`).
-/

open Loops

namespace MinBp

variable {κ δ ω : Type}

/-- What KVM does at a `KVM_RUN`, with a state `κ` of its own. -/
abbrev Kvm (κ δ : Type) := κ → Machine δ → KvmExit × κ

/-- A KVM that goes through a sequence of exits. -/
def Kvm.ofExits (xs : ℕ → KvmExit) : Kvm ℕ δ := fun k _ => (xs k, k + 1)

/-- The KVM of a deterministic guest. -/
def Kvm.ofGuest (guest : Guest) : Kvm Unit δ := fun _ m => (guest m.guestState, ())

/-- The run loop next to KVM. -/
structure Running (κ δ ω : Type) where
  hv : Hypervisor δ ω
  kvm : κ
  /-- The number of `KVM_RUN`s so far. -/
  runs : ℕ := 0

namespace Running

/-- The exit that the next `KVM_RUN` ends in. -/
def exit (K : Kvm κ δ) (s : Running κ δ ω) : KvmExit :=
  (K s.kvm s.hv.machine).1

/-- `InstructionTrapper::step`. -/
def step (K : Kvm κ δ) (host : HostCpuid) (s : Running κ δ ω) : RunResult × Running κ δ ω :=
  let (result, hv) := s.hv.step host (s.exit K)
  (result, { hv, kvm := (K s.kvm s.hv.machine).2, runs := s.runs + 1 })

/-- The loop of `runLoop`, `none` if the fuel runs out. -/
def runLoopFrom (K : Kvm κ δ) (host : HostCpuid) (maxIterations : UInt64) :
    ℕ → UInt64 → Running κ δ ω → Option (RunResult × Running κ δ ω)
  | 0, _, _ => none
  | fuel + 1, iterations, s =>
    if maxIterations = 0 ∨ iterations < maxIterations then
      match s.step K host with
      | (.cont, s') => runLoopFrom K host maxIterations fuel (iterations + 1) s'
      | (result, s') => some (result, s')
    else some (.cont, s)

/-- `InstructionTrapper::runLoop`. -/
def runLoop (K : Kvm κ δ) (host : HostCpuid) (maxIterations : UInt64) (fuel : ℕ)
    (s : Running κ δ ω) : Option (RunResult × Running κ δ ω) :=
  runLoopFrom K host maxIterations fuel 0 s

/-- Under a deterministic guest this is the run loop of the trapper. -/
theorem runLoopFrom_ofGuest (guest : Guest) (host : HostCpuid) (maxIterations : UInt64) :
    ∀ (fuel : ℕ) (iterations : UInt64) (s : Running Unit δ ω),
      (runLoopFrom (.ofGuest guest) host maxIterations fuel iterations s).map
          (fun p => (p.1, p.2.hv)) =
        Hypervisor.runLoopFrom guest host maxIterations fuel iterations s.hv
  | 0, _, _ => rfl
  | fuel + 1, iterations, s => by
    have hstep : s.step (.ofGuest guest) host =
        ((s.hv.stepGuest guest host).1,
          { hv := (s.hv.stepGuest guest host).2, kvm := (), runs := s.runs + 1 }) := rfl
    rw [runLoopFrom, Hypervisor.runLoopFrom, hstep]
    split_ifs
    · rcases s.hv.stepGuest guest host with ⟨_ | _ | _ | _, hv⟩
      · exact runLoopFrom_ofGuest guest host maxIterations fuel (iterations + 1) _
      all_goals rfl
    · rfl

theorem runLoop_ofGuest (guest : Guest) (host : HostCpuid) (maxIterations : UInt64) (fuel : ℕ)
    (hv : Hypervisor δ ω) :
    (runLoop (.ofGuest guest) host maxIterations fuel { hv, kvm := () }).map
        (fun p => (p.1, p.2.hv)) = hv.runLoop guest host maxIterations fuel :=
  runLoopFrom_ofGuest guest host maxIterations fuel 0 _

section Bounds

variable {K : Kvm κ δ} {host : HostCpuid} {s : Running κ δ ω} {n : UInt64} {fuel : ℕ}

/-! ## The loop as a loop of steps -/

/-- One turn of the loop. -/
theorem runLoopFrom_succ (iterations : UInt64) :
    runLoopFrom K host n (fuel + 1) iterations s =
      if n = 0 ∨ iterations < n then
        if (s.step K host).1 = .cont then
          runLoopFrom K host n fuel (iterations + 1) (s.step K host).2
        else some (s.step K host)
      else some (.cont, s) := by
  rw [runLoopFrom]
  rcases s.step K host with ⟨_ | _ | _ | _, s'⟩ <;> rfl

/-- With a bound, the loop is the bounded loop over the steps that are left. -/
theorem runLoopFrom_of_ne_zero (hn : n ≠ 0) {iterations : UInt64} {k : ℕ}
    (hk : iterations.toNat + k = n.toNat) (hf : k < fuel) :
    runLoopFrom K host n fuel iterations s = some (upTo (step K host) .cont k s) := by
  induction k generalizing fuel iterations s with
  | zero =>
    obtain ⟨fuel, rfl⟩ := Nat.exists_eq_succ_of_ne_zero (Nat.ne_of_gt hf)
    have hge : ¬(n = 0 ∨ iterations < n) := by
      rw [UInt64.lt_iff_toNat_lt]
      rintro (h | h)
      · exact hn h
      · omega
    rw [runLoopFrom_succ, if_neg hge, upTo]
  | succ k ih =>
    obtain ⟨fuel, rfl⟩ := Nat.exists_eq_succ_of_ne_zero (Nat.ne_of_gt (Nat.zero_lt_of_lt hf))
    have hlt : iterations < n := UInt64.lt_iff_toNat_lt.2 (by omega)
    have hsucc : (iterations + 1).toNat = iterations.toNat + 1 := by
      have hlt64 := n.toNat_lt
      rw [UInt64.toNat_add]
      exact Nat.mod_eq_of_lt (by rw [UInt64.toNat_one]; omega)
    rw [runLoopFrom_succ, if_pos (.inr hlt), upTo]
    split_ifs
    · exact ih (by omega) (Nat.lt_of_succ_lt_succ hf)
    · rfl

theorem runLoop_of_ne_zero (hn : n ≠ 0) (hf : n.toNat < fuel) :
    s.runLoop K host n fuel = some (upTo (step K host) .cont n.toNat s) :=
  runLoopFrom_of_ne_zero hn (Nat.zero_add _) hf

/-- Without a bound, the loop returns what the first step gives that does not say `Continue`. -/
theorem runLoopFrom_zero_eq_some_iff {iterations : UInt64} {p : RunResult × Running κ δ ω} :
    runLoopFrom K host 0 fuel iterations s = some p ↔
      ∃ k < fuel, StopsAfter (step K host) .cont k s ∧
        p = (after (step K host) k s).step K host := by
  induction fuel generalizing iterations s with
  | zero =>
    constructor
    · intro h
      cases h
    · rintro ⟨k, hk, -⟩
      exact absurd hk k.not_lt_zero
  | succ fuel ih =>
    rw [runLoopFrom_succ, if_pos (.inl rfl)]
    split_ifs with hgo
    · rw [ih]
      constructor
      · rintro ⟨k, hk, hstop, rfl⟩
        exact ⟨k + 1, Nat.succ_lt_succ hk, stopsAfter_succ_iff.2 ⟨hgo, hstop⟩, by rw [after_succ]⟩
      · rintro ⟨_ | k, hk, hstop, rfl⟩
        · exact absurd hgo hstop.stops
        · exact ⟨k, Nat.lt_of_succ_lt_succ hk, (stopsAfter_succ_iff.1 hstop).2, by rw [after_succ]⟩
    · constructor
      · rintro ⟨⟩
        exact ⟨0, fuel.succ_pos, ⟨fun i hi => absurd hi i.not_lt_zero, hgo⟩, rfl⟩
      · rintro ⟨_ | k, hk, hstop, rfl⟩
        · rfl
        · exact absurd (stopsAfter_succ_iff.1 hstop).1 hgo

theorem runLoop_zero_eq_some_iff {p : RunResult × Running κ δ ω} :
    s.runLoop K host 0 fuel = some p ↔ ∃ k < fuel, StopsAfter (step K host) .cont k s ∧
      p = (after (step K host) k s).step K host :=
  runLoopFrom_zero_eq_some_iff

/-- More fuel does not change what the loop returns. -/
theorem runLoopFrom_mono {iterations : UInt64} {p : RunResult × Running κ δ ω} {fuel' : ℕ}
    (h : runLoopFrom K host n fuel iterations s = some p) (hle : fuel ≤ fuel') :
    runLoopFrom K host n fuel' iterations s = some p := by
  induction fuel generalizing iterations s fuel' with
  | zero => cases h
  | succ fuel ih =>
    obtain ⟨fuel', rfl⟩ := Nat.exists_eq_succ_of_ne_zero (Nat.ne_of_gt (Nat.zero_lt_of_lt hle))
    rw [runLoopFrom_succ] at h ⊢
    split_ifs at h ⊢
    · exact ih h (Nat.le_of_succ_le_succ hle)
    · exact h
    · exact h

/-- A loop that returns has come to a step that does not say `Continue`, or to its bound. -/
theorem runLoop_cases {p : RunResult × Running κ δ ω} (h : s.runLoop K host n fuel = some p) :
    (∃ k, StopsAfter (step K host) .cont k s ∧ (n = 0 ∨ k < n.toNat) ∧
      p = (after (step K host) k s).step K host) ∨
    (n ≠ 0 ∧ (∀ i < n.toNat, ((after (step K host) i s).step K host).1 = .cont) ∧
      p = (.cont, after (step K host) n.toNat s)) := by
  by_cases hn : n = 0
  · subst hn
    obtain ⟨k, -, hstop, hp⟩ := runLoop_zero_eq_some_iff.1 h
    exact .inl ⟨k, hstop, .inl rfl, hp⟩
  · have hmore : s.runLoop K host n (max fuel (n.toNat + 1)) = some p :=
      runLoopFrom_mono h (Nat.le_max_left _ _)
    rw [runLoop_of_ne_zero hn (by omega), Option.some.injEq] at hmore
    rcases goes_or_stops (step K host) .cont n.toNat s with hgoes | ⟨k, hk, hstop⟩
    · exact .inr ⟨hn, hgoes, by rw [← hmore, upTo_of_goes hgoes]⟩
    · exact .inl ⟨k, hstop, .inr hk, by rw [← hmore, hstop.upTo_eq hk]⟩

theorem exists_runLoop_of_stops {k : ℕ} (hstop : StopsAfter (step K host) .cont k s)
    (hk : n = 0 ∨ k < n.toNat) :
    ∃ fuel, s.runLoop K host n fuel = some ((after (step K host) k s).step K host) := by
  by_cases hn : n = 0
  · subst hn
    exact ⟨k + 1, runLoop_zero_eq_some_iff.2 ⟨k, k.lt_succ_self, hstop, rfl⟩⟩
  · refine ⟨n.toNat + 1, ?_⟩
    rw [runLoop_of_ne_zero hn (Nat.lt_succ_self _), hstop.upTo_eq (hk.resolve_left hn)]

theorem exists_runLoop_of_goes (hn : n ≠ 0)
    (hgoes : ∀ i < n.toNat, ((after (step K host) i s).step K host).1 = .cont) :
    ∃ fuel, s.runLoop K host n fuel = some (.cont, after (step K host) n.toNat s) := by
  refine ⟨n.toNat + 1, ?_⟩
  rw [runLoop_of_ne_zero hn (Nat.lt_succ_self _), upTo_of_goes hgoes]

/-! ## Counts -/

@[simp] theorem runs_step (K : Kvm κ δ) (host : HostCpuid) (s : Running κ δ ω) :
    (s.step K host).2.runs = s.runs + 1 :=
  rfl

theorem runs_after (k : ℕ) : (after (step K host) k s).runs = s.runs + k := by
  induction k with
  | zero => rfl
  | succ k ih => rw [after_succ_eq, runs_step, ih, Nat.add_assoc]

/-- The number of `KVM_RUN`s among the first `n` that do not fail. -/
def okRuns (K : Kvm κ δ) (host : HostCpuid) (n : ℕ) (s : Running κ δ ω) : ℕ :=
  (List.range n).countP fun i => ((after (step K host) i s).exit K).reason.isSome

end Bounds

end Running

namespace Machine

theorem exitCount_serve (host : HostCpuid) (reason : ExitReason) (m : Machine δ) :
    (m.serve host reason).2.1.exitCount = m.exitCount := by
  refine serve_inv (P := fun m' => m'.exitCount = m.exitCount) rfl ?_ ?_ ?_ reason
  · unfold serveIo
    split <;> rfl
  · unfold serveMmio
    split <;> rfl
  · unfold serveCpuid
    split <;> rfl

theorem exitCount_step (host : HostCpuid) (x : KvmExit) (m : Machine δ) :
    (m.step host x).2.1.exitCount = m.exitCount + if x.reason.isSome then 1 else 0 := by
  unfold step
  split
  · rename_i hr
    rw [hr]
    exact (UInt64.add_zero _).symm
  · rename_i reason hr
    rw [hr, exitCount_serve]
    rfl

end Machine

namespace Running

section Bounds

variable {K : Kvm κ δ} {host : HostCpuid} {s : Running κ δ ω} {n : UInt64} {fuel : ℕ}

/-- `exitCount` follows the `KVM_RUN`s that do not fail. -/
theorem exitCount_after (h : s.hv.Leaves Machine.exitCount) (k : ℕ) :
    (after (step K host) k s).hv.Leaves Machine.exitCount ∧
      (after (step K host) k s).hv.machine.exitCount =
        s.hv.machine.exitCount + UInt64.ofNat (s.okRuns K host k) := by
  induction k with
  | zero => exact ⟨h, (UInt64.add_zero _).symm⟩
  | succ k ih =>
    obtain ⟨hleaves, hcount⟩ := ih
    rw [after_succ_eq]
    refine ⟨hleaves.step host _, ?_⟩
    have hok : s.okRuns K host (k + 1) = s.okRuns K host k +
        if ((after (step K host) k s).exit K).reason.isSome then 1 else 0 := by
      rw [okRuns, List.range_succ, List.countP_append, List.countP_singleton]
      rfl
    rw [hok, UInt64.ofNat_add, ← UInt64.add_assoc, ← hcount]
    refine (hleaves.read_step host _).trans ?_
    rw [Machine.exitCount_step]
    split_ifs <;> rfl

/-- How `runLoop` treats its bound. -/
structure LoopExact (K : Kvm κ δ) (host : HostCpuid) (s : Running κ δ ω) : Prop where
  /-- Bounds add up. -/
  composes : ∀ (n m : UInt64) (fuel : ℕ), n ≠ 0 → m ≠ 0 → n.toNat + m.toNat < 2 ^ 64 →
    n.toNat + m.toNat < fuel → ∃ result s₁, s.runLoop K host n fuel = some (result, s₁) ∧
      s.runLoop K host (n + m) fuel =
        if result = .cont then s₁.runLoop K host m fuel else some (result, s₁)
  /-- The loop takes the steps up to the first that does not say `Continue`, as far as the bound
  lets it. -/
  counts : ∀ (n : UInt64) (fuel : ℕ), n ≠ 0 → n.toNat < fuel →
    ∃ result s₁, s.runLoop K host n fuel = some (result, s₁) ∧
      (∀ k, StopsAfter (step K host) .cont k s →
        s₁.runs = s.runs + min n.toNat (k + 1) ∧
          result = if k + 1 ≤ n.toNat then ((after (step K host) k s).step K host).1 else .cont) ∧
      ((∀ k, ¬StopsAfter (step K host) .cont k s) →
        s₁.runs = s.runs + n.toNat ∧ result = .cont) ∧
      s₁.hv.machine.exitCount =
        s.hv.machine.exitCount + UInt64.ofNat (s.okRuns K host (s₁.runs - s.runs))
  /-- A loop without a bound that returns agrees with every bound that it stays within. -/
  agrees : ∀ (fuel : ℕ) (result : RunResult) (s₁ : Running κ δ ω),
    s.runLoop K host 0 fuel = some (result, s₁) →
    ∀ (n : UInt64) (fuel' : ℕ), s₁.runs ≤ s.runs + n.toNat → n.toNat < fuel' →
      s.runLoop K host n fuel' = some (result, s₁)

theorem runLoop_add {m : UInt64} (hn : n ≠ 0) (hm : m ≠ 0) (hlt : n.toNat + m.toNat < 2 ^ 64)
    (hf : n.toNat + m.toNat < fuel) :
    ∃ result s₁, s.runLoop K host n fuel = some (result, s₁) ∧
      s.runLoop K host (n + m) fuel =
        if result = .cont then s₁.runLoop K host m fuel else some (result, s₁) := by
  have hadd : (n + m).toNat = n.toNat + m.toNat := by
    rw [UInt64.toNat_add, Nat.mod_eq_of_lt hlt]
  have hpos : 0 < n.toNat := Nat.pos_of_ne_zero fun h0 => hn (UInt64.toNat_inj.1 h0)
  have hne : n + m ≠ 0 := by
    intro h0
    rw [h0, UInt64.toNat_zero] at hadd
    omega
  refine ⟨_, _, runLoop_of_ne_zero hn (by omega), ?_⟩
  rw [runLoop_of_ne_zero hne (by omega), hadd, upTo_add]
  split_ifs
  · rw [runLoop_of_ne_zero hm (by omega)]
  · rfl

/-- The state that a bounded loop ends in. -/
theorem snd_upTo (n : ℕ) :
    ∃ k, (upTo (step K host) .cont n s).2 = after (step K host) k s ∧
      (upTo (step K host) .cont n s).2.runs = s.runs + k := by
  rcases goes_or_stops (step K host) .cont n s with hgoes | ⟨k, hk, hstop⟩
  · exact ⟨n, by rw [upTo_of_goes hgoes], by rw [upTo_of_goes hgoes, runs_after]⟩
  · exact ⟨k + 1, by rw [hstop.upTo_eq hk, after_succ_eq],
      by rw [hstop.upTo_eq hk, ← after_succ_eq, runs_after]⟩

theorem runs_upTo_of_stops {k n : ℕ} (hstop : StopsAfter (step K host) .cont k s) :
    (upTo (step K host) .cont n s).2.runs = s.runs + min n (k + 1) ∧
      (upTo (step K host) .cont n s).1 =
        if k + 1 ≤ n then ((after (step K host) k s).step K host).1 else .cont := by
  by_cases hk : k + 1 ≤ n
  · rw [hstop.upTo_eq hk, runs_step, runs_after, if_pos hk, Nat.min_eq_right hk]
    exact ⟨rfl, rfl⟩
  · have hgoes : ∀ i < n, ((after (step K host) i s).step K host).1 = .cont :=
      fun i hi => hstop.goes i (by omega)
    rw [upTo_of_goes hgoes, runs_after, if_neg hk, Nat.min_eq_left (by omega)]
    exact ⟨rfl, rfl⟩

/-- `runLoop` composes and counts exactly, whatever KVM does. -/
theorem runLoop_exact (K : Kvm κ δ) (host : HostCpuid) (s : Running κ δ ω)
    (h : s.hv.Leaves Machine.exitCount) : LoopExact K host s where
  composes _ _ _ hn hm hlt hf := runLoop_add hn hm hlt hf
  counts n fuel hn hf := by
    refine ⟨_, _, runLoop_of_ne_zero hn hf, fun k hstop => runs_upTo_of_stops hstop,
      fun hnone => ?_, ?_⟩
    · rcases goes_or_stops (step K host) .cont n.toNat s with hgoes | ⟨k, -, hstop⟩
      · rw [upTo_of_goes hgoes, runs_after]
        exact ⟨rfl, rfl⟩
      · exact absurd hstop (hnone k)
    · obtain ⟨k, hafter, hruns⟩ := @snd_upTo κ δ ω K host s n.toNat
      rw [hruns, Nat.add_sub_cancel_left, hafter]
      exact (exitCount_after h k).2
  agrees fuel result s₁ hrun n fuel' hle hf := by
    obtain ⟨k, -, hstop, hp⟩ := runLoop_zero_eq_some_iff.1 hrun
    have hruns : s₁.runs = s.runs + k + 1 := by
      rw [← runs_after, ← runs_step, ← hp]
    have hk : k < n.toNat := by omega
    have hn : n ≠ 0 := by
      rintro rfl
      exact absurd hk k.not_lt_zero
    rw [runLoop_of_ne_zero hn hf, hstop.upTo_eq hk, ← hp]

end Bounds

/-- A run loop without handlers and without a bus. -/
def bareRunning : Running ℕ Unit Unit where
  hv :=
    { world :=
        { machine := { vm := { vcpus := [{}] }, vcpuIndex_lt := Nat.one_pos, dev := () }
          obs := () } }
  kvm := 0

/-- Two interrupted `KVM_RUN`s, then one that fails. -/
def interruptedExits : ℕ → KvmExit := fun k =>
  if k < 2 then { errno := some EINTR } else { errno := some EINVAL }

/-- The counts are exact for a KVM that is interrupted and then fails. -/
theorem runLoop_exact_interrupted :
    LoopExact (.ofExits interruptedExits) (fun _ _ => {}) bareRunning ∧
      (bareRunning.runLoop (.ofExits interruptedExits) (fun _ _ => {}) 0 5).map
        (fun p => (p.1, p.2.runs, p.2.hv.machine.exitCount)) = some (.error, 3, 2) := by
  refine ⟨runLoop_exact _ _ _ ?_, rfl⟩
  intro d hd
  cases hd

end Running

/-! ## Exits that nothing handles -/

/-- `dispatchExit` has a case for the exit. -/
def ExitReason.handled : ExitReason → Bool
  | .hlt | .shutdown | .io | .unknown | .intr | .mmio | .internalError => true
  | _ => false

namespace KvmExit

/-- The `KVM_RUN` ended in an exit that `dispatchExit` has no case for. -/
def Unhandled (x : KvmExit) : Prop :=
  ∃ reason ∈ x.reason, reason.handled = false

/-- The guest has halted or shut down, or nothing handles the exit. -/
def EndsGuest (x : KvmExit) : Prop :=
  x.reason = some .hlt ∨ x.reason = some .shutdown ∨ x.Unhandled

end KvmExit

namespace Hypervisor

/-- An exit that nothing handles says `Continue`. -/
theorem step_of_unhandled {x : KvmExit} (h : x.Unhandled) (host : HostCpuid)
    (s : Hypervisor δ ω) : (s.step host x).1 = .cont := by
  obtain ⟨reason, hr, hun⟩ := h
  rw [step_eq]
  unfold Machine.step
  rw [Option.mem_def.1 hr]
  cases reason <;> first | rfl | cases hun

theorem step_of_hlt {x : KvmExit} (h : x.reason = some .hlt) (host : HostCpuid)
    (s : Hypervisor δ ω) : (s.step host x).1 = .halt := by
  rw [step_eq]
  unfold Machine.step
  rw [h]
  rfl

theorem step_of_shutdown {x : KvmExit} (h : x.reason = some .shutdown) (host : HostCpuid)
    (s : Hypervisor δ ω) : (s.step host x).1 = .shutdown := by
  rw [step_eq]
  unfold Machine.step
  rw [h]
  rfl

/-- The run loop before the first exit of a sequence. -/
def start (s : Hypervisor δ ω) : Running ℕ δ ω where
  hv := s
  kvm := 0

/-- `runLoop` processes no exit beyond the first at which the guest has ended or that nothing
handles, and says so if nothing handles it. -/
structure StopsUnhandled (host : HostCpuid) (xs : ℕ → KvmExit) (maxIterations : UInt64)
    (s : Hypervisor δ ω) : Prop where
  bounded : ∀ k, (xs k).EndsGuest → ∃ fuel result t,
    s.start.runLoop (.ofExits xs) host maxIterations fuel = some (result, t) ∧ t.runs ≤ k + 1
  reported : ∀ k, (xs k).Unhandled → ∀ fuel result t,
    s.start.runLoop (.ofExits xs) host maxIterations fuel = some (result, t) →
      t.runs = k + 1 → result ≠ .cont

/-- Exit `k` of the sequence is among those that `runLoop` processes : it is within the bound, and
all exits before it say `Continue`. -/
def Reaches (host : HostCpuid) (xs : ℕ → KvmExit) (maxIterations : UInt64) (k : ℕ)
    (s : Hypervisor δ ω) : Prop :=
  (maxIterations = 0 ∨ k < maxIterations.toNat) ∧
    ∀ i < k, ((after (Running.step (.ofExits xs) host) i s.start).step (.ofExits xs) host).1 = .cont

section Sequences

variable {host : HostCpuid} {xs : ℕ → KvmExit} {n : UInt64} {s : Hypervisor δ ω}

theorem exit_after (k : ℕ) :
    (after (Running.step (.ofExits xs) host) k s.start).exit (.ofExits xs) = xs k := by
  have hkvm : (after (Running.step (.ofExits xs) host) k s.start).kvm = k := by
    induction k with
    | zero => rfl
    | succ k ih =>
      rw [after_succ_eq]
      exact congrArg (· + 1) ih
  rw [Running.exit, hkvm]
  rfl

/-- The result of the step that processes exit `k`. -/
theorem fst_step_after (k : ℕ) :
    ((after (Running.step (.ofExits xs) host) k s.start).step (.ofExits xs) host).1 =
      ((after (Running.step (.ofExits xs) host) k s.start).hv.step host (xs k)).1 := by
  rw [Running.step, exit_after]

theorem runs_start (k : ℕ) : (after (Running.step (.ofExits xs) host) k s.start).runs = k := by
  rw [Running.runs_after]
  exact Nat.zero_add k

theorem runs_step_start (k : ℕ) :
    ((after (Running.step (.ofExits xs) host) k s.start).step (.ofExits xs) host).2.runs =
      k + 1 := by
  rw [Running.runs_step, runs_start]

/-- A loop that stops properly does not come to an exit that nothing handles. -/
theorem StopsUnhandled.not_unhandled (h : s.StopsUnhandled host xs n) {k : ℕ}
    (hreach : s.Reaches host xs n k) : ¬(xs k).Unhandled := by
  obtain ⟨hin, hgoes⟩ := hreach
  intro hun
  have hcont : ((after (Running.step (.ofExits xs) host) k s.start).step (.ofExits xs) host).1 =
      .cont := by
    rw [fst_step_after]
    exact step_of_unhandled hun host _
  obtain ⟨fuel, result, t, hrun, hle⟩ := h.bounded k (.inr (.inr hun))
  rcases Running.runLoop_cases hrun with ⟨j, hstop, -, hp⟩ | ⟨hn, -, hp⟩
  · have hruns : t.runs = j + 1 := by rw [← runs_step_start j, ← hp]
    rcases Nat.lt_or_ge j k with hj | hj
    · exact hstop.stops (hgoes j hj)
    · obtain rfl : j = k := by omega
      exact hstop.stops hcont
  · -- the loop has run into its bound right after exit `k`, and says `Continue`
    obtain ⟨rfl, rfl⟩ := Prod.mk.inj hp
    have hlt : k < n.toNat := hin.resolve_left hn
    rw [runs_start] at hle
    exact h.reported k hun fuel _ _ hrun (by rw [runs_start]; omega) rfl

/-- A loop that does not come to an exit that nothing handles ends where the guest does. -/
theorem exists_runLoop_of_reaches (h : ∀ k, s.Reaches host xs n k → ¬(xs k).Unhandled) {k : ℕ}
    (hends : (xs k).EndsGuest) : ∃ fuel result t,
      s.start.runLoop (.ofExits xs) host n fuel = some (result, t) ∧ t.runs ≤ k + 1 := by
  rcases goes_or_stops (Running.step (.ofExits xs) host) .cont (k + 1) s.start with
    hgoes | ⟨j, hj, hstop⟩
  · -- the step at `k` says `Continue`, so nothing handles the exit and the bound comes first
    have hcont := hgoes k k.lt_succ_self
    rw [fst_step_after] at hcont
    rcases hends with hhlt | hshut | hun
    · simp [step_of_hlt hhlt] at hcont
    · simp [step_of_shutdown hshut] at hcont
    · have hout : ¬(n = 0 ∨ k < n.toNat) := fun hin =>
        h k ⟨hin, fun i hi => hgoes i (by omega)⟩ hun
      rw [not_or, Nat.not_lt] at hout
      obtain ⟨fuel, hrun⟩ := Running.exists_runLoop_of_goes hout.1 fun i hi => hgoes i (by omega)
      exact ⟨fuel, _, _, hrun, by rw [runs_start]; omega⟩
  · by_cases hin : n = 0 ∨ j < n.toNat
    · obtain ⟨fuel, hrun⟩ := Running.exists_runLoop_of_stops hstop hin
      exact ⟨fuel, _, _, hrun, (runs_step_start j).le.trans hj⟩
    · rw [not_or, Nat.not_lt] at hin
      obtain ⟨fuel, hrun⟩ := Running.exists_runLoop_of_goes hin.1
        fun i hi => hstop.goes i (by omega)
      exact ⟨fuel, _, _, hrun, by rw [runs_start]; omega⟩

/-- The last exit that a loop processes is one that it comes to. -/
theorem reaches_of_runLoop {fuel k : ℕ} {result : RunResult} {t : Running ℕ δ ω}
    (hrun : s.start.runLoop (.ofExits xs) host n fuel = some (result, t)) (hruns : t.runs = k + 1) :
    s.Reaches host xs n k := by
  rcases Running.runLoop_cases hrun with ⟨j, hstop, hin, hp⟩ | ⟨hn, hgoes, hp⟩
  · have hj : t.runs = j + 1 := by rw [← runs_step_start j, ← hp]
    obtain rfl : j = k := by omega
    exact ⟨hin, hstop.goes⟩
  · obtain ⟨rfl, rfl⟩ := Prod.mk.inj hp
    rw [runs_start] at hruns
    exact ⟨.inr (by omega), fun i hi => hgoes i (by omega)⟩

/-- `runLoop` stops properly at every exit that nothing handles if and only if it does not come to
one. -/
theorem stops_unhandled_iff (host : HostCpuid) (xs : ℕ → KvmExit) (n : UInt64)
    (s : Hypervisor δ ω) :
    s.StopsUnhandled host xs n ↔ ∀ k, s.Reaches host xs n k → ¬(xs k).Unhandled := by
  constructor
  · intro h k hreach
    exact h.not_unhandled hreach
  · intro h
    refine ⟨fun k hends => exists_runLoop_of_reaches h hends, ?_⟩
    intro k hun fuel result t hrun hruns
    exact absurd hun (h k (reaches_of_runLoop hrun hruns))

end Sequences

/-- A vCPU that cannot be entered. -/
def failingEntry : ℕ → KvmExit := fun _ => { run := { exitReason := 9 } }

/-- For a vCPU that exits with `FailEntry` at every `KVM_RUN`, an unbounded `runLoop` never returns,
and a bounded one says `Continue`. -/
theorem failEntry_never_returns :
    (∀ fuel, Running.bareRunning.hv.start.runLoop (.ofExits failingEntry) (fun _ _ => {}) 0 fuel =
      none) ∧
      (Running.bareRunning.hv.start.runLoop (.ofExits failingEntry) (fun _ _ => {}) 1 2).map
        Prod.fst = some .cont ∧
      ¬Running.bareRunning.hv.StopsUnhandled (fun _ _ => {}) failingEntry 0 := by
  have hun : ∀ k, (failingEntry k).Unhandled := fun _ => ⟨.failEntry, rfl, rfl⟩
  have hnone : ∀ fuel, Running.bareRunning.hv.start.runLoop (.ofExits failingEntry)
      (fun _ _ => {}) 0 fuel = none := by
    intro fuel
    by_contra hsome
    obtain ⟨p, hp⟩ := Option.ne_none_iff_exists'.1 hsome
    obtain ⟨k, -, hstop, -⟩ := Running.runLoop_zero_eq_some_iff.1 hp
    refine hstop.stops ?_
    rw [fst_step_after]
    exact step_of_unhandled (hun k) _ _
  refine ⟨hnone, rfl, fun h => ?_⟩
  obtain ⟨fuel, result, t, hrun, -⟩ := h.bounded 0 (.inr (.inr (hun 0)))
  rw [hnone] at hrun
  cases hrun

end Hypervisor

end MinBp
