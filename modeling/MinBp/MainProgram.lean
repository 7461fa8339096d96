import MinBp.EventDump
import MinBp.RunLoop
import MinBp.Startup

/-!
# The whole program

`main` from its first line to its last, for any environment, any exits and any signals (`run`). Up
to the loop it is `prepare`, in the loop a `Program`, and after the loop it writes the file.

Three things hold of every run. Nothing faults (`main_safe`), as long as KVM keeps `data_offset`
inside the run page. How far the program gets is decided by
the exits alone : it takes them up to the third halt or shutdown, or to the first that it cannot
handle (`main_takes`). And everything that is published is counted, printed and logged, beginning
with the CPUID table, and is in the file if there is one (`main_reports`).
-/

namespace MinBp

/-! ## Exits -/

/-- What an exit means to `main`. -/
inductive Verdict where
  /-- The loop goes on. -/
  | goesOn
  /-- The guest halts or shuts down. -/
  | stops
  /-- `step` returns `Error`. -/
  | fails
  deriving DecidableEq, Repr

namespace KvmExit

/-- A register ioctl of the CPUID handler fails after the exit. -/
def LeafFails (x : KvmExit) : Prop :=
  (x.faults .cpuidHandler .getRegs).isSome ∨ (x.faults .cpuidHandler .setRegs).isSome

instance (x : KvmExit) : Decidable x.LeafFails := by
  unfold LeafFails
  infer_instance

/-- What an exit means to `main`, which has all handlers. -/
def verdict (x : KvmExit) : Verdict :=
  match x.reason with
  | none => .fails
  | some .hlt => .stops
  | some .shutdown => .stops
  | some .mmio => if x.run.mmio.Accepted then .goesOn else .fails
  | some .unknown => if x.run.hardwareExitReason = 0 ∧ x.LeafFails then .fails else .goesOn
  | some .internalError =>
    if x.run.suberror ≠ KVM_INTERNAL_ERROR_EMULATION ∨ x.LeafFails then .fails else .goesOn
  | some _ => .goesOn

theorem fatal_iff {δ : Type} {m : Machine δ} (hcpuid : m.cpuid.isSome) (hmmio : m.mmio.isSome)
    (x : KvmExit) : x.Fatal m ↔ x.verdict = .fails := by
  have hleaf : x.CpuidFails m ↔ x.LeafFails := and_iff_right hcpuid
  unfold Fatal verdict
  rcases x.reason with _ | reason
  · exact iff_of_true trivial rfl
  cases reason
  case mmio =>
    dsimp only
    rw [and_iff_right hmmio]
    split_ifs with hacc
    · exact iff_of_false hacc nofun
    · exact iff_of_true (not_not.1 hacc) rfl
  case unknown =>
    dsimp only
    rw [hleaf]
    split_ifs with hfails
    · exact iff_of_true hfails rfl
    · exact iff_of_false hfails nofun
  case internalError =>
    dsimp only
    rw [hleaf]
    split_ifs with hfails
    · exact iff_of_true hfails rfl
    · exact iff_of_false hfails nofun
  all_goals exact iff_of_false id nofun

theorem stops_iff (x : KvmExit) :
    x.verdict = .stops ↔ x.reason = some .hlt ∨ x.reason = some .shutdown := by
  unfold verdict
  rcases x.reason with _ | reason
  · simp
  cases reason
  case mmio | unknown | internalError =>
    dsimp only
    split_ifs <;> simp
  all_goals simp

end KvmExit

namespace Machine

variable {m : Machine MmioDeviceState}

theorem Wired.isSome_cpuid (h : m.Wired) : m.cpuid.isSome := by
  obtain ⟨hd, hcpuid, -⟩ := h.exists_cpuid
  rw [hcpuid, Option.isSome_some]

theorem Wired.isSome_mmio (h : m.Wired) : m.mmio.isSome := by
  obtain ⟨hd, hmmio, -⟩ := h.exists_mmio
  rw [hmmio, Option.isSome_some]

/-- The result of a step of `main`'s machine. -/
theorem Wired.step_fst (h : m.Wired) (host : HostCpuid) (x : KvmExit) :
    match x.verdict with
    | .goesOn => (m.step host x).1 = .cont
    | .stops => (m.step host x).1 = .halt ∨ (m.step host x).1 = .shutdown
    | .fails => (m.step host x).1 = .error := by
  have herror := (m.step_error_iff host x).trans (x.fatal_iff h.isSome_cpuid h.isSome_mmio)
  have hstop := (m.step_stop_iff host x).trans x.stops_iff.symm
  rcases hv : x.verdict
  · rw [hv] at herror hstop
    rcases hres : (m.step host x).1 <;> simp_all
  · exact hstop.2 hv
  · exact herror.2 hv

/-- `m'` has the callbacks, the devices, the count of exits and the ids of `m`. -/
structure SameProgram {δ : Type} (m m' : Machine δ) : Prop where
  tables : m'.tables = m.tables
  dev : m'.dev = m.dev
  exitCount : m'.exitCount = m.exitCount
  ids : m'.ids = m.ids

theorem SameProgram.trans {δ : Type} {m m' m'' : Machine δ} (h : SameProgram m m')
    (h' : SameProgram m' m'') : SameProgram m m'' :=
  ⟨h'.tables.trans h.tables, h'.dev.trans h.dev, h'.exitCount.trans h.exitCount,
    h'.ids.trans h.ids⟩

/-- A snapshot has registers and memory only. -/
theorem sameProgram_restoreSnapshot {δ : Type} {m m' : Machine δ} {snap : VmSnapShot}
    (h : m.restoreSnapshot snap = .ok m') : SameProgram m m' := by
  unfold restoreSnapshot at h
  split at h
  · cases h
  · rename_i vm hvm
    cases h
    refine ⟨rfl, rfl, rfl, ?_⟩
    show vm.vcpus.map VCpu.id = m.vm.vcpus.map VCpu.id
    unfold VirtualMachine.restoreSnapshot at hvm
    split at hvm
    · cases hvm
    · rename_i v vs hv
      split at hvm
      · cases hvm
      · cases hvm
        rw [hv, List.map_cons, List.map_cons]
        congr 1
        unfold VCpu.setSregs VCpu.setRegs
        rcases v.faults .restoreSnapshot .setRegs with _ | _ <;>
          rcases v.faults .restoreSnapshot .setSregs with _ | _ <;> rfl

/-- Storing a scancode leaves everything but the memory. -/
theorem sameProgram_injectScancode {δ : Type} {m m' : Machine δ} {i : ℕ}
    (h : m.injectScancode i = .ok m') : SameProgram m m' := by
  unfold injectScancode at h
  split at h
  · cases h
  · split at h
    · cases h
    · cases h
      exact ⟨rfl, rfl, rfl, rfl⟩

end Machine

/-- The start of an iteration changes the machine only, and of it registers and memory. -/
theorem Hypervisor.startIteration_frame {δ ω : Type} {s s' : Hypervisor δ ω} {snap : VmSnapShot}
    {i : ℕ} (h : s.startIteration snap i = .ok s') :
    ∃ m, s' = s.setMachine m ∧ s.machine.SameProgram m := by
  have hinject : ∀ {t t' : Hypervisor δ ω}, t.injectScancode i = .ok t' →
      ∃ m, t' = t.setMachine m ∧ t.machine.SameProgram m := by
    intro t t' ht
    unfold Hypervisor.injectScancode at ht
    rcases hm : t.machine.injectScancode i with f | m
    · rw [hm] at ht
      cases ht
    · rw [hm] at ht
      cases ht
      exact ⟨m, rfl, Machine.sameProgram_injectScancode hm⟩
  unfold Hypervisor.startIteration at h
  split_ifs at h
  · rcases hm : s.machine.restoreSnapshot snap with f | m
    · rw [hm] at h
      cases h
    · rw [hm] at h
      obtain ⟨m', rfl, hsame⟩ := hinject h
      exact ⟨m', rfl, (Machine.sameProgram_restoreSnapshot hm).trans hsame⟩
  · exact hinject h

namespace Main

/-! ## `main` -/

/-- The loop of `main` with its subscribers. -/
abbrev Loop := Program MmioDeviceState (Observed Printed)

/-- `main` after a list of happenings. It is `none` if `main` has returned 1 before its loop. -/
def run (env : Environment) (hs : List Happening) : Except Fault (Option Loop) :=
  match prepare env with
  | .error f => .error f
  | .ok none => .ok none
  | .ok (some (snap, s)) => .ok (some ((Program.start snap s).run env.host snap hs))

/-- `vmi_events.json`, written after the loop. -/
def file (env : Environment) (p : Loop) : Option String :=
  if p.status = .returned 0 then p.hv.agent.dumpEventLog env.opens else none

/-- The exits among the happenings. -/
def exitsOf (hs : List Happening) : List KvmExit :=
  hs.filterMap fun
    | .exit x => some x
    | .sigint => none

/-- No exit is one that `main` cannot handle. -/
def Proceeds (ys : List KvmExit) : Prop :=
  ∀ y ∈ ys, y.verdict ≠ .fails

/-- The number of iterations that have ended. -/
def stops (ys : List KvmExit) : ℕ :=
  ys.countP (·.verdict = .stops)

/-- The exits that bring `main` to a status : fewer than three stops while it runs, the third stop
before it returns 0, and an exit that it cannot handle before it returns 1. -/
def Took (ys : List KvmExit) : Status → Prop
  | .running => Proceeds ys ∧ stops ys < maxIterations
  | .returned 0 => ∃ zs x, ys = zs ++ [x] ∧ Proceeds zs ∧ stops zs + 1 = maxIterations ∧
    x.verdict = .stops
  | .returned 1 => ∃ zs x, ys = zs ++ [x] ∧ Proceeds zs ∧ stops zs < maxIterations ∧
    x.verdict = .fails
  | _ => False

theorem proceeds_append_singleton {ys : List KvmExit} {x : KvmExit} (h : Proceeds ys)
    (hx : x.verdict ≠ .fails) : Proceeds (ys ++ [x]) := by
  intro y hy
  rcases List.mem_append.1 hy with hy | hy
  · exact h y hy
  · rwa [List.mem_singleton.1 hy]

theorem stops_append_singleton (ys : List KvmExit) (x : KvmExit) :
    stops (ys ++ [x]) = stops ys + if x.verdict = .stops then 1 else 0 := by
  unfold stops
  rw [List.countP_append, List.countP_singleton]
  simp

/-! ## One iteration to the next -/

/-- What every part of the loop carries along, `ys` being the exits so far. -/
structure Carried (s₀ : Hv) (ys : List KvmExit) (p : Loop) : Prop where
  sound : Program.Sound s₀ p
  reports : Reports p.hv
  wired : p.hv.machine.Wired
  published : s₀.published <+: p.hv.published
  exitCount : p.hv.machine.exitCount = UInt64.ofNat (ys.countP (·.reason.isSome))

theorem mapped_of_keeps {rs rs' : List MemoryRegion} (hkeeps : Keeps rs rs')
    (hlength : rs'.length = rs.length) (hmapped : ∀ r ∈ rs, r.host.isSome) :
    ∀ r ∈ rs', r.host.isSome := by
  intro r' hr'
  obtain ⟨i, hi⟩ := List.mem_iff_getElem?.1 hr'
  have hlt : i < rs.length := hlength ▸ (List.getElem?_eq_some_iff.1 hi).1
  obtain ⟨r'', hr'', hshape⟩ := hkeeps i _ (List.getElem?_eq_getElem hlt)
  obtain rfl : r'' = r' := Option.some.inj (hr''.symm.trans hi)
  rw [hshape.mapped]
  exact hmapped _ (List.getElem_mem hlt)

theorem Reports.passive {s : Hv} (h : Reports s) : s.Passive := by
  intro d hd sub hsub ev w
  rw [h.dispatch, Option.mem_some_iff] at hd
  subst hd
  rcases List.mem_cons.1 hsub with rfl | hsub
  · exact VmiAgent.machine_handler ev w
  · rw [List.mem_singleton.1 hsub]
    rfl

/-- A step of the run loop is reported. -/
theorem Reports.step {s : Hv} (h : Reports s) (host : HostCpuid) (x : KvmExit) :
    Reports (s.step host x).2 := by
  rw [Hypervisor.step_eq]
  have hserved : Reports (s.setMachine (s.machine.step host x).2.1) :=
    h.setMachine (h.regular.step host x)
  rcases hmk : (s.machine.step host x).2.2 with _ | mk
  · exact hserved
  · obtain ⟨reason, -, hreason⟩ := Machine.exists_eventOf hmk
    exact (hserved.emit fun t => vcpuId_eventOf hreason _ t).1

theorem Started.prepared {env : Environment} {snap : VmSnapShot} {s₀ : Hv}
    (h : Started env snap s₀) : Program.Prepared s₀ where
  passive := h.reports.passive
  hasScancode := by
    obtain ⟨r, hregions, hplaced⟩ := h.loaded.region
    refine ⟨r, [], hregions, by rw [hplaced.host]; rfl, ?_⟩
    rw [hplaced.size]
    decide

namespace Carried

variable {env : Environment} {snap : VmSnapShot} {s₀ : Hv} {ys : List KvmExit} {p : Loop}

/-- Every iteration gets as far as its first `KVM_RUN`. -/
theorem enter (h₀ : Started env snap s₀) (h : Carried s₀ ys p) {i : ℕ}
    (hi : 0 < i ∨ p.hv = s₀) : Carried s₀ ys (p.enter snap i) ∧
      (p.enter snap i).status = p.status ∧ (p.enter snap i).iteration = i := by
  obtain ⟨hsound, hstatus⟩ := h.sound.enter h₀.prepared h₀.takeSnapShot hi
  rcases hs : p.hv.startIteration snap i with f | hv
  · have hfault : (p.enter snap i).status = .faulted f := by rw [Program.enter, hs]
    exact absurd hfault (hsound.noFault f)
  have henter : p.enter snap i = { p with hv, iteration := i } := by rw [Program.enter, hs]
  rw [henter] at hsound hstatus ⊢
  obtain ⟨m, rfl, hsame⟩ := Hypervisor.startIteration_frame hs
  have hregular : m.Regular := h.reports.regular.of_ids hsame.ids
    (mapped_of_keeps hsound.regions hsound.length h₀.reports.regular.mapped)
  exact ⟨⟨hsound, h.reports.setMachine hregular, hsame.tables.trans h.wired, h.published,
    hsame.exitCount.trans h.exitCount⟩, hstatus, rfl⟩

/-- A step of the run loop takes one more exit. -/
theorem step (h : Carried s₀ ys p) (host : HostCpuid) (x : KvmExit) :
    Carried s₀ (ys ++ [x]) { p with hv := (p.hv.step host x).2 } where
  sound := h.sound.step host x
  reports := h.reports.step host x
  wired := by
    show (p.hv.step host x).2.machine.tables = Main.tables
    rw [h.reports.passive.machine_step, Machine.tables_step]
    exact h.wired
  published := by
    show s₀.published <+: (p.hv.step host x).2.published
    rw [Hypervisor.published_step]
    exact h.published.trans (List.prefix_append _ _)
  exitCount := by
    show (p.hv.step host x).2.machine.exitCount = _
    rw [h.reports.passive.machine_step, Machine.exitCount_step, h.exitCount, List.countP_append,
      List.countP_singleton, UInt64.ofNat_add]
    split_ifs <;> rfl

/-- The status is no part of what is carried along, as long as it is no fault. -/
theorem setStatus (h : Carried s₀ ys p) {status : Status} (hne : ∀ f, status ≠ .faulted f) :
    Carried s₀ ys { p with status } :=
  ⟨⟨h.sound.passive, h.sound.regions, h.sound.length, hne⟩, h.reports, h.wired, h.published,
    h.exitCount⟩

end Carried

/-- The loop after the exits `ys`. -/
structure Going (s₀ : Hv) (ys : List KvmExit) (p : Loop) : Prop where
  carried : Carried s₀ ys p
  took : Took ys p.status
  iteration : p.status = .running → p.iteration = stops ys

namespace Going

variable {env : Environment} {snap : VmSnapShot} {s₀ : Hv} {ys : List KvmExit} {p : Loop}
  {host : HostCpuid}

/-- From one `KVM_RUN` to the next, by what the exit means. -/
theorem afterKvmRun_eq (hw : p.hv.machine.Wired) (x : KvmExit) :
    p.afterKvmRun host snap x =
      match x.verdict with
      | .goesOn => { p with hv := (p.hv.step host x).2 }
      | .fails => { p with hv := (p.hv.step host x).2, status := .returned 1 }
      | .stops =>
        if p.iteration + 1 < maxIterations then
          Program.enter snap (p.iteration + 1) { p with hv := (p.hv.step host x).2 }
        else { p with hv := (p.hv.step host x).2, status := .returned 0 } := by
  have hfst : (p.hv.step host x).1 = (p.hv.machine.step host x).1 := by rw [Hypervisor.step_eq]
  have hverdict := hw.step_fst host x
  rw [← hfst] at hverdict
  unfold Program.afterKvmRun
  rcases hres : p.hv.step host x with ⟨result, hv⟩
  rw [hres] at hverdict
  rcases hv : x.verdict <;> rw [hv] at hverdict <;> dsimp only at hverdict ⊢
  · rw [hverdict]
  · rcases hverdict with rfl | rfl <;> rfl
  · rw [hverdict]

/-- One more exit. -/
theorem afterKvmRun (h₀ : Started env snap s₀) (h : Going s₀ ys p) (hrun : p.status = .running)
    (x : KvmExit) : Going s₀ (ys ++ [x]) (p.afterKvmRun host snap x) := by
  have hstep := h.carried.step host x
  have htook := h.took
  rw [hrun] at htook
  obtain ⟨hproceeds, hlt⟩ := htook
  have hiter := h.iteration hrun
  have hstops := stops_append_singleton ys x
  rw [afterKvmRun_eq h.carried.wired]
  rcases hv : x.verdict <;> dsimp only
  · rw [hv, if_neg nofun] at hstops
    refine ⟨hstep, ?_, fun _ => by rw [hstops]; exact hiter⟩
    show Took (ys ++ [x]) p.status
    rw [hrun]
    exact ⟨proceeds_append_singleton hproceeds (by rw [hv]; exact nofun), by rwa [hstops]⟩
  · rw [hv, if_pos rfl] at hstops
    split_ifs with hlast
    · obtain ⟨hcarried, hstatus, hnext⟩ := hstep.enter h₀ (i := p.iteration + 1) (.inl (by omega))
      refine ⟨hcarried, ?_, fun _ => by rw [hnext, hstops, hiter]⟩
      rw [hstatus]
      show Took (ys ++ [x]) p.status
      rw [hrun]
      exact ⟨proceeds_append_singleton hproceeds (by rw [hv]; exact nofun),
        by rw [hstops, ← hiter]; exact hlast⟩
    · refine ⟨hstep.setStatus nofun, ⟨ys, x, rfl, hproceeds, ?_, hv⟩, nofun⟩
      omega
  · exact ⟨hstep.setStatus nofun, ⟨ys, x, rfl, hproceeds, hlt, hv⟩, nofun⟩

theorem sigintHandler (h : Going s₀ ys p) : Going s₀ ys p.sigintHandler :=
  ⟨⟨h.carried.sound.sigintHandler, h.carried.reports, h.carried.wired, h.carried.published,
    h.carried.exitCount⟩, h.took, h.iteration⟩

/-- A program that has ended takes no exit. -/
theorem run_of_ended : ∀ (hs : List Happening) {p : Loop}, Going s₀ ys p → p.status ≠ .running →
    Going s₀ ys (p.run host snap hs) ∧ (p.run host snap hs).status ≠ .running
  | [], _, h, hend => ⟨h, hend⟩
  | .sigint :: hs, _, h, hend => run_of_ended hs h.sigintHandler hend
  | .exit x :: hs, p, h, hend => by
    have hexec : p.run host snap (.exit x :: hs) = p.run host snap hs := by
      show (p.exec host snap (.exit x)).run host snap hs = _
      rw [Program.exec_exit_of_ended hend]
    rw [hexec]
    exact run_of_ended hs h hend

/-- A list of happenings. The exits are taken in order, up to where the program ends. -/
theorem run (h₀ : Started env snap s₀) : ∀ (hs : List Happening) {ys : List KvmExit} {p : Loop},
    Going s₀ ys p → ∃ ys' zs, ys ++ exitsOf hs = ys' ++ zs ∧
      Going s₀ ys' (p.run host snap hs) ∧ ((p.run host snap hs).status = .running → zs = [])
  | [], ys, p, h => ⟨ys, [], rfl, h, fun _ => rfl⟩
  | .sigint :: hs, ys, p, h => run h₀ hs h.sigintHandler
  | .exit x :: hs, ys, p, h => by
    by_cases hrun : p.status = .running
    · have hexec : p.run host snap (.exit x :: hs) =
          (p.afterKvmRun host snap x).run host snap hs := by
        show (p.exec host snap (.exit x)).run host snap hs = _
        rw [Program.exec_exit_of_running hrun]
      have hnext : Going s₀ (ys ++ [x]) (p.afterKvmRun host snap x) := h.afterKvmRun h₀ hrun x
      obtain ⟨ys', zs, hsplit, hrest⟩ := run h₀ hs hnext
      rw [hexec]
      refine ⟨ys', zs, ?_, hrest⟩
      rw [← hsplit, List.append_assoc]
      rfl
    · have hended : Going s₀ ys (p.run host snap (.exit x :: hs)) ∧
          (p.run host snap (.exit x :: hs)).status ≠ .running := run_of_ended _ h hrun
      exact ⟨ys, _, rfl, hended.1, fun hr => absurd hr hended.2⟩

end Going

/-- `main` gets to the first `KVM_RUN` of its first iteration. -/
theorem going_start {env : Environment} {snap : VmSnapShot} {s₀ : Hv} (h₀ : Started env snap s₀) :
    Going s₀ [] (Program.start snap s₀) := by
  have h : Carried s₀ [] { hv := s₀ } :=
    ⟨⟨h₀.reports.passive, (Grown.refl s₀.machine.vm).regions, rfl, nofun⟩, h₀.reports, h₀.wired,
      List.prefix_refl _, h₀.exitCount⟩
  obtain ⟨hcarried, hstatus, hiter⟩ := h.enter h₀ (i := 0) (.inr rfl)
  refine ⟨hcarried, ?_, fun _ => hiter⟩
  show Took [] (Program.enter snap 0 { hv := s₀ }).status
  rw [hstatus]
  exact ⟨fun y hy => absurd hy List.not_mem_nil, by decide⟩

/-- Every run of `main` ends before the loop because a call fails, or is in the loop or behind it
with everything in order. -/
theorem run_cases (env : Environment) (hs : List Happening) :
    (Boots env ∧ ∃ snap s₀ ys zs p, Started env snap s₀ ∧ run env hs = .ok (some p) ∧
      exitsOf hs = ys ++ zs ∧ Going s₀ ys p ∧ (p.status = .running → zs = [])) ∨
    (¬Boots env ∧ run env hs = .ok none) := by
  unfold run
  rcases prepare_cases env with ⟨hboots, snap, s₀, hprepare, h₀⟩ | ⟨hboots, hprepare⟩
  · obtain ⟨ys, zs, hsplit, hgoing, hzs⟩ := (going_start h₀).run h₀ hs
    exact .inl ⟨hboots, snap, s₀, ys, zs, _, h₀, by rw [hprepare], hsplit, hgoing, hzs⟩
  · exact .inr ⟨hboots, by rw [hprepare]⟩

/-- Nothing that `main` does faults. Whatever the system calls return, whatever is in the image,
whatever KVM does at a `KVM_RUN`, whichever register ioctls fail and whenever `SIGINT` comes : no
vector is indexed and no mapping of guest memory accessed outside of its bounds, no null pointer is
followed and no assertion fails, in `main` or in a subscriber. The mapping of the run page has no
size in the model, so accesses at `data_offset` are not among those that could fault. -/
theorem main_safe (env : Environment) (hs : List Happening) :
    ∃ r, run env hs = .ok r ∧
      ∀ p ∈ r, (∀ f, p.status ≠ .faulted f) ∧ p.hv.world.fault = none := by
  rcases run_cases env hs with ⟨-, snap, s₀, ys, zs, p, -, hrun, -, hgoing, -⟩ | ⟨-, hrun⟩
  · refine ⟨some p, hrun, fun q hq => ?_⟩
    obtain rfl := Option.mem_some_iff.1 hq
    exact ⟨hgoing.carried.sound.noFault, hgoing.carried.reports.fault⟩
  · exact ⟨none, hrun, fun p hp => absurd hp (Option.not_mem_none p)⟩

/-- How far `main` gets. It returns 1 before its loop exactly if a call up to there fails or the
image does not fit. In the loop it takes the exits in order. While it runs it has taken all of them,
none that it cannot handle and fewer than three stops. It returns 0 at the third stop, and 1 at the
first exit that it cannot handle. Signals make no difference. `exitCount` is the number of
`KVM_RUN`s that have not failed, over all iterations. -/
theorem main_takes (env : Environment) (hs : List Happening) :
    (run env hs = .ok none ↔ ¬Boots env) ∧
    (Boots env → ∃ p ys zs, run env hs = .ok (some p) ∧ exitsOf hs = ys ++ zs ∧
      Took ys p.status ∧ (p.status = .running → zs = [] ∧ p.iteration = stops ys) ∧
      p.hv.machine.exitCount = UInt64.ofNat (ys.countP (·.reason.isSome))) := by
  rcases run_cases env hs with ⟨hboots, snap, s₀, ys, zs, p, -, hrun, hsplit, hgoing, hzs⟩ |
    ⟨hboots, hrun⟩
  · refine ⟨⟨fun h => ?_, fun h => absurd hboots h⟩, fun _ => ⟨p, ys, zs, hrun, hsplit, hgoing.took,
      fun hr => ⟨hzs hr, hgoing.iteration hr⟩, hgoing.carried.exitCount⟩⟩
    rw [hrun] at h
    cases h
  · exact ⟨⟨fun _ => hboots, fun _ => hrun⟩, fun h => absurd h hboots⟩

/-- What the loop leaves of its publications. -/
structure ReportsRun (env : Environment) (p : Loop) : Prop where
  /-- The first are the leaves of the CPUID table, as modified. -/
  table : (cpuidLeaves.map fun leaf => (leafEvent env.host leaf {} 0).payload) <+:
    p.hv.published.map (·.event.payload)
  /-- `publishedCount` counts them. -/
  counted : ∃ d, p.hv.dispatch = some d ∧
    d.publishedCount = UInt64.ofNat p.hv.published.length
  /-- Each has an entry in the log, in order. -/
  logged : List.Forall₂ Reported p.hv.published p.hv.agent.eventLog
  /-- Each has two lines on the console, in order. -/
  printed : p.hv.world.obs.sink = p.hv.agent.eventLog.flatMap lines
  /-- The file is written exactly if `main` returns 0 and it opens. -/
  written : (file env p).isSome ↔ p.status = .returned 0 ∧ env.opens
  /-- It is a JSON array with the entries of the log. -/
  json : ∀ text ∈ file env p, ∃ vs, Json.parse text = some (.arr vs) ∧
    List.Forall₂ Describes p.hv.agent.eventLog vs

theorem Reports.summarised {s : Hv} (h : Reports s) : s.agent.Summarised := by
  intro ie hie
  obtain ⟨i, hi, rfl⟩ := List.mem_iff_getElem.1 hie
  have hr := h.entries.get (by rw [h.entries.length_eq]; exact hi) hi
  have hbase := hr.base
  have hsummary := hr.summary
  rw [List.get_eq_getElem] at hbase hsummary
  rw [hsummary, hbase]

/-- Everything that is published in a run of `main` is counted, printed and logged, beginning with
the CPUID table. When `main` returns 0 it is in the file. -/
theorem main_reports (env : Environment) (hs : List Happening) {p : Loop}
    (hrun : run env hs = .ok (some p)) : ReportsRun env p := by
  rcases run_cases env hs with ⟨-, snap, s₀, ys, zs, q, h₀, hq, -, hgoing, -⟩ | ⟨-, hnone⟩
  swap
  · rw [hnone] at hrun
    cases hrun
  obtain rfl : q = p := Option.some.inj (Except.ok.inj (hq.symm.trans hrun))
  have hreports := hgoing.carried.reports
  refine ⟨?_, ⟨_, hreports.dispatch, rfl⟩, hreports.entries, hreports.printed, ?_, ?_⟩
  · rw [← h₀.payloads]
    exact hgoing.carried.published.map _
  · unfold file VmiAgent.dumpEventLog
    split_ifs with hstatus hopens <;> simp_all
  · intro text htext
    unfold file VmiAgent.dumpEventLog at htext
    split_ifs at htext
    · obtain rfl := Option.mem_some_iff.1 htext
      refine ⟨_, parse_logText hreports.summarised, ?_⟩
      rw [List.forall₂_map_right_iff]
      exact List.forall₂_same.2 fun ie _ => describes_memberValues ie
    all_goals exact absurd htext (Option.not_mem_none _)

/-- An environment in which every call succeeds, with a guest that is a `HLT`. -/
def hltEnvironment : Environment where
  openKvm := { fd := .ok 3, mmapSize := .ok 0x3000 }
  createVm := .ok 4
  image := [0xF4]
  image_length := by decide
  host := fun _ _ => {}

theorem boots_hltEnvironment : Boots hltEnvironment where
  newVm := rfl
  image := nofun
  loads :=
    { mappable := by decide
      fits := by decide
      createVcpu := rfl
      mmap := rfl
      getSregs := rfl
      setSregs := rfl
      setRegs := rfl }
  setCpuid2 := rfl

/-- A halt. -/
def hltExit : KvmExit where
  run := { exitReason := 5 }

/-- Three halts, and a signal. -/
def threeHalts : List Happening :=
  [.exit hltExit, .sigint, .exit hltExit, .exit hltExit]

/-- After three halts `main` has returned 0, and its reports are complete. -/
theorem main_reports_threeHalts :
    ∃ p, run hltEnvironment threeHalts = .ok (some p) ∧ p.status = .returned 0 ∧
      ReportsRun hltEnvironment p := by
  rcases run_cases hltEnvironment threeHalts with
    ⟨-, snap, s₀, ys, zs, p, -, hrun, hsplit, hgoing, hzs⟩ | ⟨hboots, -⟩
  swap
  · exact absurd boots_hltEnvironment hboots
  refine ⟨p, hrun, ?_, main_reports _ _ hrun⟩
  have hexits : ys ++ zs = [hltExit, hltExit, hltExit] := hsplit.symm
  have htook := hgoing.took
  rcases hstatus : p.status with _ | code | f <;> rw [hstatus] at htook
  · -- all three halts have been taken, but a running program has taken fewer
    rw [hzs hstatus, List.append_nil] at hexits
    rw [hexits] at htook
    exact absurd htook.2 (by decide)
  · rcases code with _ | _ | code
    · rfl
    · obtain ⟨ys', x, rfl, -, -, hfails⟩ := htook
      have hx : x ∈ [hltExit, hltExit, hltExit] := by
        rw [← hexits]
        simp
      simp only [List.mem_cons, List.not_mem_nil, or_false, or_self] at hx
      rw [hx] at hfails
      cases hfails
    · exact absurd htook id
  · exact absurd htook id

end Main

end MinBp
