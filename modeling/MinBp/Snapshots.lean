import MinBp.VirtualMachine

/-!
# Snapshots when ioctls fail

`takeSnapShot` and `restoreSnapshot` use four register ioctls. Neither reports a failure to its
caller : registers that cannot be read are saved as zero, and registers that cannot be written stay.
A `VmSnapShot` does not say which of its parts were read.

`restoreSnapshot_fresh` gives the VM that a restore right after the snapshot leaves, for every
pattern of failures. Memory always comes back. The registers do if and only if zeros that stand for
an unread register file are not written over it (`restore_fresh_iff`).
-/

namespace MinBp

namespace VirtualMachine

/-- A snapshot restored at once leaves the VM as it was. -/
def RestoresFresh (vm : VirtualMachine) : Prop :=
  ∃ snap, vm.takeSnapShot = .ok snap ∧ vm.restoreSnapshot snap = .ok vm

/-- A register file after a snapshot and a restore whose ioctls end in `get` and `set`. What could
not be read was saved as `zero`. -/
def roundTrip {α : Type} (get set : Option Errno) (zero file : α) : α :=
  if set = none ∧ get ≠ none then zero else file

theorem roundTrip_eq_iff {α : Type} {get set : Option Errno} {zero file : α} :
    roundTrip get set zero file = file ↔ get = none ∨ set ≠ none ∨ file = zero := by
  unfold roundTrip
  split_ifs with h
  · simp [h, eq_comm]
  · rw [not_and_or, not_not] at h
    simp only [true_iff]
    rcases h with hset | hget
    · exact .inr (.inl hset)
    · exact .inl hget

/-- The registers after a snapshot and a restore. -/
def freshRegs (v : VCpu) : KvmRegs :=
  roundTrip (v.faults .takeSnapShot .getRegs) (v.faults .restoreSnapshot .setRegs) {} v.regs

/-- The special registers after a snapshot and a restore. -/
def freshSregs (v : VCpu) : KvmSregs :=
  roundTrip (v.faults .takeSnapShot .getSregs) (v.faults .restoreSnapshot .setSregs) {} v.sregs

/-- A region's own bytes restore it, so the loop of `restoreSnapshot` keeps every region. -/
theorem restoreRegions_fresh (rs : List MemoryRegion) :
    restoreRegions rs (rs.map saveRegion) = .ok rs := by
  have hkeeps : Keeps rs rs := fun _ r hr => ⟨r, hr, .refl r⟩
  rw [restoreRegions_saveRegion rs rs hkeeps, List.drop_length, List.append_nil]

theorem setRegs_getRegs (v : VCpu) :
    (v.setRegs .restoreSnapshot ((v.getRegs .takeSnapShot).toOption.getD {})).2 =
      { v with regs := freshRegs v } := by
  unfold VCpu.setRegs VCpu.getRegs freshRegs roundTrip
  rcases v.faults .restoreSnapshot .setRegs with _ | e
  · rcases v.faults .takeSnapShot .getRegs with _ | e <;> rfl
  · rfl

theorem setSregs_getSregs (v : VCpu) (regs : KvmRegs) :
    ({ v with regs }.setSregs .restoreSnapshot
      ((v.getSregs .takeSnapShot).toOption.getD {})).2 =
        { v with regs, sregs := freshSregs v } := by
  unfold VCpu.setSregs VCpu.getSregs freshSregs roundTrip
  rcases v.faults .restoreSnapshot .setSregs with _ | e
  · rcases v.faults .takeSnapShot .getSregs with _ | e <;> rfl
  · rfl

/-- A restore right after the snapshot keeps memory, and the registers as far as the ioctls let
it. -/
theorem restoreSnapshot_fresh {vm : VirtualMachine} {v : VCpu} (hv : vm.vcpus = [v]) :
    ∃ snap, vm.takeSnapShot = .ok snap ∧ vm.restoreSnapshot snap =
      .ok { vm with vcpus := [{ v with regs := freshRegs v, sregs := freshSregs v }] } := by
  refine ⟨_, by rw [takeSnapShot, hv]; rfl, ?_⟩
  simp only [restoreSnapshot, hv, restoreRegions_fresh, setRegs_getRegs, setSregs_getSregs]

/-- A snapshot restored at once leaves the VM as it was if and only if each register file could be
read, or could not be written, or was zero. -/
theorem restore_fresh_iff {vm : VirtualMachine} {v : VCpu} (hv : vm.vcpus = [v]) :
    vm.RestoresFresh ↔
      (v.faults .takeSnapShot .getRegs = none ∨ v.faults .restoreSnapshot .setRegs ≠ none ∨
        v.regs = {}) ∧
      (v.faults .takeSnapShot .getSregs = none ∨ v.faults .restoreSnapshot .setSregs ≠ none ∨
        v.sregs = {}) := by
  obtain ⟨snap, hsnap, hrestore⟩ := restoreSnapshot_fresh hv
  rw [← roundTrip_eq_iff, ← roundTrip_eq_iff]
  change _ ↔ freshRegs v = v.regs ∧ freshSregs v = v.sregs
  constructor
  · rintro ⟨snap', hsnap', hrestore'⟩
    obtain rfl : snap = snap' := by simpa [hsnap] using hsnap'
    rw [hrestore, Except.ok.injEq] at hrestore'
    have hvcpus := congrArg VirtualMachine.vcpus hrestore'
    rw [hv, List.singleton_inj] at hvcpus
    exact ⟨congrArg VCpu.regs hvcpus, congrArg VCpu.sregs hvcpus⟩
  · rintro ⟨hregs, hsregs⟩
    refine ⟨snap, hsnap, ?_⟩
    rw [hrestore, hregs, hsregs, ← hv]

/-- `pageVm` with an ioctl of the snapshot that fails. -/
def unreadVm : VirtualMachine :=
  { pageVm with
    vcpus := [{ regs := { rip := 0x1000 }
                faults := fun c i =>
                  if c = .takeSnapShot ∧ i = .getRegs then some EINTR else none }] }

/-- Where all ioctls succeed, the VM comes back. -/
theorem restore_fresh_pageVm : pageVm.RestoresFresh :=
  (restore_fresh_iff rfl).2 ⟨.inl rfl, .inl rfl⟩

/-- Registers that could not be read come back as zero. -/
theorem restore_fresh_zeroes :
    (∃ snap vm', unreadVm.takeSnapShot = .ok snap ∧ unreadVm.restoreSnapshot snap = .ok vm' ∧
      unreadVm.vcpus.map (·.regs.rip) = [0x1000] ∧ vm'.vcpus.map (·.regs.rip) = [0]) ∧
      ¬unreadVm.RestoresFresh := by
  obtain ⟨snap, hsnap, hrestore⟩ := @restoreSnapshot_fresh unreadVm _ rfl
  refine ⟨⟨snap, _, hsnap, hrestore, rfl, rfl⟩, ?_⟩
  rintro ⟨snap', hsnap', hrestore'⟩
  obtain rfl : snap = snap' := by simpa [hsnap] using hsnap'
  rw [hrestore, Except.ok.injEq] at hrestore'
  have hrip := congrArg (fun vm : VirtualMachine => vm.vcpus.map (·.regs.rip)) hrestore'
  exact absurd hrip (by decide)

end VirtualMachine

end MinBp
