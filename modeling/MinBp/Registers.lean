import MinBp.Handlers

/-!
# Device registers

A device keeps a register behind an address or a port if the write callback stores the value of its
context and the read callback returns the stored value (`RegisterAt`). The bytes of a write pass
through a word of the host before they come back with a read, which may have another length. So the
guest reads the bytes it wrote, cut or filled up with zeros (`IsRegister.roundTrips`), whatever it
does at other addresses in between.

`MmioHandler::handle` refuses a length of zero or above eight, but it looks at the low byte of the
length only (`register_laws_iff`).
-/

open Bytes

namespace MinBp

variable {δ : Type}

/-! ## Registers in callback tables -/

/-- The tables hold a register behind `key` : its callbacks store and return a value that no other
callback writes. -/
structure RegisterAt {κ γ γ' α : Type} [DecidableEq κ] (writes : CallbackTable κ (γ → δ → δ))
    (reads : CallbackTable κ (γ' → δ → α × δ)) (value : γ → α) (key : κ) (stored : δ → α) :
    Prop where
  write : ∃ cb ∈ writes.lookup key, ∀ ctx dev, stored (cb ctx dev) = value ctx
  read : ∃ cb ∈ reads.lookup key, ∀ ctx dev, (cb ctx dev).1 = stored dev
  otherWrite : ∀ k ≠ key, ∀ cb ∈ writes.lookup k, ∀ ctx dev, stored (cb ctx dev) = stored dev
  otherRead : ∀ k ≠ key, ∀ cb ∈ reads.lookup k, ∀ ctx dev, stored (cb ctx dev).2 = stored dev

namespace RegisterAt

variable {κ γ γ' α : Type} [DecidableEq κ] {writes : CallbackTable κ (γ → δ → δ)}
  {reads : CallbackTable κ (γ' → δ → α × δ)} {value : γ → α} {key k : κ} {stored : δ → α}

theorem stored_write (h : RegisterAt writes reads value key stored) (ctx : γ) (dev : δ) :
    stored ((writes.lookup key).elim dev fun cb => cb ctx dev) = value ctx := by
  obtain ⟨cb, hcb, hstore⟩ := h.write
  rw [Option.mem_def.1 hcb]
  exact hstore ctx dev

theorem fst_read (h : RegisterAt writes reads value key stored) (ctx : γ') (dev : δ) (missing : α) :
    ((reads.lookup key).elim (missing, dev) fun cb => cb ctx dev).1 = stored dev := by
  obtain ⟨cb, hcb, hread⟩ := h.read
  rw [Option.mem_def.1 hcb]
  exact hread ctx dev

theorem stored_otherWrite (h : RegisterAt writes reads value key stored) (hne : k ≠ key) (ctx : γ)
    (dev : δ) : stored ((writes.lookup k).elim dev fun cb => cb ctx dev) = stored dev := by
  rcases hcb : writes.lookup k with _ | cb
  · rfl
  · exact h.otherWrite k hne cb hcb ctx dev

theorem stored_otherRead (h : RegisterAt writes reads value key stored) (hne : k ≠ key) (ctx : γ')
    (dev : δ) (missing : α) :
    stored ((reads.lookup k).elim (missing, dev) fun cb => cb ctx dev).2 = stored dev := by
  rcases hcb : reads.lookup k with _ | cb
  · rfl
  · exact h.otherRead k hne cb hcb ctx dev

end RegisterAt

/-! ## MMIO -/

/-- A write of one to eight bytes to the address. -/
structure KvmMmio.WritesAt (addr : UInt64) (a : KvmMmio) : Prop where
  physAddr : a.physAddr = addr
  isWrite : a.isWrite ≠ 0
  len_pos : 0 < a.len
  len_le : a.len ≤ 8

/-- A read of one to eight bytes from the address. -/
structure KvmMmio.ReadsAt (addr : UInt64) (a : KvmMmio) : Prop where
  physAddr : a.physAddr = addr
  isWrite : a.isWrite = 0
  len_pos : 0 < a.len
  len_le : a.len ≤ 8

/-- A length of at most eight is not cut. -/
theorem KvmMmio.toNat_len {a : KvmMmio} (h : a.len ≤ 8) : a.len.toUInt8.toNat = a.len.toNat := by
  have hle : a.len.toNat ≤ 8 := h
  rw [UInt32.toNat_toUInt8]
  omega

theorem KvmMmio.size_ok {a : KvmMmio} (hpos : 0 < a.len) (hle : a.len ≤ 8) :
    ¬(a.len.toUInt8 = 0 ∨ a.len.toUInt8 > 8) := by
  have hsize := KvmMmio.toNat_len hle
  have hpos' : 0 < a.len.toNat := hpos
  have hle' : a.len.toNat ≤ 8 := hle
  rw [not_or, ← UInt8.toNat_inj, gt_iff_lt, UInt8.lt_iff_toNat_lt, hsize]
  exact ⟨Nat.ne_of_gt hpos', Nat.not_lt.2 hle'⟩

namespace MmioHandler

/-- The address holds a register, which only its own callbacks write. -/
def IsRegister (addr : UInt64) (stored : δ → UInt64) (h : MmioHandler δ) : Prop :=
  RegisterAt h.writeCallbacks h.readCallbacks WriteContext.value addr stored

theorem write_eq (ctx : WriteContext) (h : MmioHandler δ) (dev : δ) :
    h.write ctx dev = (h.writeCallbacks.lookup ctx.addr).elim dev fun cb => cb ctx dev := by
  unfold write
  split <;> simp_all

theorem read_eq (ctx : ReadContext) (h : MmioHandler δ) (dev : δ) :
    h.read ctx dev = (h.readCallbacks.lookup ctx.addr).elim (0xFFFFFFFFFFFFFFFF, dev)
      fun cb => cb ctx dev := by
  unfold read
  split <;> simp_all

/-- The handler and the devices after an access. -/
def access (p : MmioHandler δ × δ) (run : KvmRun) : MmioHandler δ × δ :=
  ((p.1.handle run p.2).2.1, (p.1.handle run p.2).2.2.2)

/-- What is written at the address is read back there, cut or filled up with zeros, after any
accesses elsewhere. -/
def RoundTrips (addr : UInt64) (h : MmioHandler δ) (dev : δ) : Prop :=
  ∀ (w r : KvmRun) (between : List KvmRun), w.mmio.WritesAt addr → r.mmio.ReadsAt addr →
    (∀ run ∈ between, run.mmio.physAddr ≠ addr) →
    let p := between.foldl access (access (h, dev) w)
    (p.1.handle r p.2).1 = true ∧
      (p.1.handle r p.2).2.2.1 =
        { r with mmio := { r.mmio with
          data := copied w.mmio.data 0 w.mmio.len.toNat r.mmio.data 0 r.mmio.len.toNat } }

/-- An access of this length is refused with nothing changed, if it is zero or above eight. -/
def RefusesLength (len : UInt32) (h : MmioHandler δ) (dev : δ) : Prop :=
  (len = 0 ∨ 8 < len) → ∀ run : KvmRun, run.mmio.len = len → h.handle run dev = (false, h, run, dev)

theorem readCallbacks_access (p : MmioHandler δ × δ) (run : KvmRun) :
    (access p run).1.readCallbacks = p.1.readCallbacks := by
  simp only [access, handle]
  split
  · rfl
  · split <;> rfl

theorem writeCallbacks_access (p : MmioHandler δ × δ) (run : KvmRun) :
    (access p run).1.writeCallbacks = p.1.writeCallbacks := by
  simp only [access, handle]
  split
  · rfl
  · split <;> rfl

section Registers

variable {addr : UInt64} {stored : δ → UInt64} {p : MmioHandler δ × δ} {run : KvmRun}

theorem IsRegister.access (h : p.1.IsRegister addr stored) (run : KvmRun) :
    (access p run).1.IsRegister addr stored := by
  rw [IsRegister, writeCallbacks_access, readCallbacks_access]
  exact h

/-- An access elsewhere leaves the register alone. -/
theorem IsRegister.stored_other (h : p.1.IsRegister addr stored) (hne : run.mmio.physAddr ≠ addr) :
    stored (MmioHandler.access p run).2 = stored p.2 := by
  simp only [MmioHandler.access, handle]
  split
  · rfl
  · split
    · rw [write_eq]
      exact RegisterAt.stored_otherWrite h hne _ _
    · rw [read_eq]
      exact RegisterAt.stored_otherRead h hne _ _ _

/-- A write stores the bytes as a word. -/
theorem IsRegister.stored_write (h : p.1.IsRegister addr stored) (hw : run.mmio.WritesAt addr) :
    (stored (MmioHandler.access p run).2).toNat =
      value (load run.mmio.data 0 run.mmio.len.toNat) := by
  have hval : stored (MmioHandler.access p run).2 = run.mmioValue := by
    simp only [MmioHandler.access, handle, if_neg (KvmMmio.size_ok hw.len_pos hw.len_le),
      if_pos hw.isWrite, write_eq, writeContext, hw.physAddr]
    exact RegisterAt.stored_write h _ _
  have hle : run.mmio.len.toNat ≤ 8 := hw.len_le
  have hlt := value_load_lt run.mmio.data 0 hle
  rw [hval, KvmRun.mmioValue, KvmMmio.toNat_len hw.len_le, Nat.min_eq_left hle,
    UInt64.toNat_ofNat', Nat.mod_eq_of_lt (by omega)]

/-- A read delivers the bytes of the stored word. -/
theorem IsRegister.handle_read (h : p.1.IsRegister addr stored) (hr : run.mmio.ReadsAt addr) :
    (p.1.handle run p.2).1 = true ∧
      (p.1.handle run p.2).2.2.1 =
        { run with mmio := { run.mmio with
          data := store run.mmio.data 0 (encode run.mmio.len.toNat (stored p.2).toNat) } } := by
  have hread : (p.1.read (readContext run) p.2).1 = stored p.2 := by
    rw [read_eq, readContext, hr.physAddr]
    exact RegisterAt.fst_read h _ _ _
  simp only [handle, if_neg (KvmMmio.size_ok hr.len_pos hr.len_le), if_neg (not_not.2 hr.isWrite),
    hread, KvmMmio.toNat_len hr.len_le, and_self]

theorem IsRegister.roundTrips {h : MmioHandler δ} (hreg : h.IsRegister addr stored) (dev : δ) :
    h.RoundTrips addr dev := by
  intro w r between hw hr hother p
  have hinv : p.1.IsRegister addr stored ∧
      stored p.2 = stored (MmioHandler.access (h, dev) w).2 := by
    refine List.foldlRecOn between MmioHandler.access
      (motive := fun q => q.1.IsRegister addr stored ∧ stored q.2 = _)
      ⟨IsRegister.access (p := (h, dev)) hreg w, rfl⟩ fun q hq run hrun => ?_
    exact ⟨hq.1.access run, (hq.1.stored_other (hother run hrun)).trans hq.2⟩
  obtain ⟨hok, hdata⟩ := hinv.1.handle_read hr
  refine ⟨hok, ?_⟩
  rw [hdata, hinv.2, hreg.stored_write (p := (h, dev)) hw, store_encode_value_load]

end Registers

end MmioHandler

/-! ## Port I/O -/

/-- A single access of one, two or four bytes at the port, not repeated. -/
structure KvmIo.SingleAt (port : UInt16) (a : KvmIo) : Prop where
  port : a.port = port
  size : a.size = 1 ∨ a.size = 2 ∨ a.size = 4
  count : a.count = 1

theorem KvmIo.SingleAt.size_le {port : UInt16} {a : KvmIo} (h : a.SingleAt port) :
    a.size.toNat ≤ 4 := by
  rcases h.size with hs | hs | hs <;> rw [hs] <;> decide

namespace IoPortHandler

/-- The port holds a register, which only its own callbacks write. -/
def IsRegister (port : UInt16) (stored : δ → UInt32) (h : IoPortHandler δ) : Prop :=
  RegisterAt h.outCallbacks h.inCallbacks OutContext.value port stored

theorem output_eq (ctx : OutContext) (h : IoPortHandler δ) (dev : δ) :
    h.output ctx dev = (h.outCallbacks.lookup ctx.port).elim dev fun cb => cb ctx dev := by
  unfold output
  split <;> simp_all

theorem input_eq (ctx : InContext) (h : IoPortHandler δ) (dev : δ) :
    h.input ctx dev = (h.inCallbacks.lookup ctx.port).elim (0xFFFFFFFF, dev)
      fun cb => cb ctx dev := by
  unfold input
  split <;> simp_all

/-- The handler and the devices after an access. -/
def access (p : IoPortHandler δ × δ) (run : KvmRun) : IoPortHandler δ × δ :=
  ((p.1.handle run p.2).2.1, (p.1.handle run p.2).2.2.2)

/-- What an `OUT` writes to the port an `IN` reads back, cut or filled up with zeros, after any
accesses to other ports. -/
def RoundTrips (port : UInt16) (h : IoPortHandler δ) (dev : δ) : Prop :=
  ∀ (w r : KvmRun) (between : List KvmRun),
    w.io.SingleAt port → w.io.direction = KVM_EXIT_IO_OUT →
    r.io.SingleAt port → r.io.direction ≠ KVM_EXIT_IO_OUT →
    (∀ run ∈ between, run.io.port ≠ port) →
    let p := between.foldl access (access (h, dev) w)
    (p.1.handle r p.2).1 = true ∧
      (p.1.handle r p.2).2.2.1 =
        { r with
          page := copied w.page w.io.dataOffset.toNat w.io.size.toNat r.page
            r.io.dataOffset.toNat r.io.size.toNat }

theorem inCallbacks_access (p : IoPortHandler δ × δ) (run : KvmRun) :
    (access p run).1.inCallbacks = p.1.inCallbacks := by
  simp only [access, handle]
  split <;> rfl

theorem outCallbacks_access (p : IoPortHandler δ × δ) (run : KvmRun) :
    (access p run).1.outCallbacks = p.1.outCallbacks := by
  simp only [access, handle]
  split <;> rfl

section Registers

variable {port : UInt16} {stored : δ → UInt32} {p : IoPortHandler δ × δ} {run : KvmRun}

theorem IsRegister.access (h : p.1.IsRegister port stored) (run : KvmRun) :
    (access p run).1.IsRegister port stored := by
  rw [IsRegister, outCallbacks_access, inCallbacks_access]
  exact h

/-- An access to another port leaves the register alone. -/
theorem IsRegister.stored_other (h : p.1.IsRegister port stored) (hne : run.io.port ≠ port) :
    stored (IoPortHandler.access p run).2 = stored p.2 := by
  simp only [IoPortHandler.access, handle]
  split
  · rw [output_eq]
    exact RegisterAt.stored_otherWrite h hne _ _
  · rw [input_eq]
    exact RegisterAt.stored_otherRead h hne _ _ _

/-- An `OUT` stores the bytes as a word. -/
theorem IsRegister.stored_output (h : p.1.IsRegister port stored) (hw : run.io.SingleAt port)
    (hdir : run.io.direction = KVM_EXIT_IO_OUT) :
    (stored (IoPortHandler.access p run).2).toNat =
      value (load run.page run.io.dataOffset.toNat run.io.size.toNat) := by
  have hval : stored (IoPortHandler.access p run).2 = run.ioValue := by
    simp only [IoPortHandler.access, handle, if_pos hdir, output_eq, outContext, hw.port]
    exact RegisterAt.stored_write h _ _
  have hlt := value_load_lt run.page run.io.dataOffset.toNat hw.size_le
  rw [hval, KvmRun.ioValue, Nat.min_eq_left hw.size_le, UInt32.toNat_ofNat',
    Nat.mod_eq_of_lt (by omega)]

/-- An `IN` delivers the bytes of the stored word. -/
theorem IsRegister.handle_input (h : p.1.IsRegister port stored) (hr : run.io.SingleAt port)
    (hdir : run.io.direction ≠ KVM_EXIT_IO_OUT) :
    (p.1.handle run p.2).1 = true ∧
      (p.1.handle run p.2).2.2.1 =
        { run with
          page := store run.page run.io.dataOffset.toNat
            (encode run.io.size.toNat (stored p.2).toNat) } := by
  have hread : (p.1.input (inContext run) p.2).1 = stored p.2 := by
    rw [input_eq, inContext, hr.port]
    exact RegisterAt.fst_read h _ _ _
  simp only [handle, if_neg hdir, hread, Nat.min_eq_left hr.size_le, and_self]

theorem IsRegister.roundTrips {h : IoPortHandler δ} (hreg : h.IsRegister port stored) (dev : δ) :
    h.RoundTrips port dev := by
  intro w r between hw hwdir hr hrdir hother p
  have hinv : p.1.IsRegister port stored ∧
      stored p.2 = stored (IoPortHandler.access (h, dev) w).2 := by
    refine List.foldlRecOn between IoPortHandler.access
      (motive := fun q => q.1.IsRegister port stored ∧ stored q.2 = _)
      ⟨IsRegister.access (p := (h, dev)) hreg w, rfl⟩ fun q hq run hrun => ?_
    exact ⟨hq.1.access run, (hq.1.stored_other (hother run hrun)).trans hq.2⟩
  obtain ⟨hok, hdata⟩ := hinv.1.handle_input hr hrdir
  refine ⟨hok, ?_⟩
  rw [hdata, hinv.2, hreg.stored_output (p := (h, dev)) hw hwdir, store_encode_value_load]

end Registers

end IoPortHandler

/-! ## Both handlers -/

/-- Of the lengths that should be refused, those whose low byte is zero or above eight are. -/
theorem MmioHandler.refusesLength_iff (h : MmioHandler δ) (dev : δ) (len : UInt32) :
    h.RefusesLength len dev ↔
      len.toNat ≤ 8 ∨ len.toNat % 256 = 0 ∨ 8 < len.toNat % 256 := by
  have hsize : len.toUInt8.toNat = len.toNat % 256 := UInt32.toNat_toUInt8 len
  have hbad : (len.toUInt8 = 0 ∨ len.toUInt8 > 8) ↔
      len.toNat % 256 = 0 ∨ 8 < len.toNat % 256 := by
    rw [← UInt8.toNat_inj, gt_iff_lt, UInt8.lt_iff_toNat_lt, hsize]
    rfl
  constructor
  · intro href
    by_contra hno
    rw [not_or, not_or] at hno
    have hok : ¬(len.toUInt8 = 0 ∨ len.toUInt8 > 8) := by
      rw [hbad, not_or]
      exact hno.2
    -- a write suffices to see that the length is let through
    have hfalse := congrArg Prod.fst
      (href (.inr (Nat.lt_of_not_le hno.1)) { mmio := { len, isWrite := 1 } } rfl)
    simp [handle, hok] at hfalse
  · rintro hlen hwrong run rfl
    have hrange : run.mmio.len.toUInt8 = 0 ∨ run.mmio.len.toUInt8 > 8 := by
      rcases hlen with hle | hlen
      · rcases hwrong with hzero | hgt
        · exact .inl (by rw [hzero]; rfl)
        · exact absurd hle (Nat.not_le.2 hgt)
      · exact hbad.2 hlen
    simp [handle, hrange]

/-- Registers behind an address and behind a port give back what was written to them. The lengths
above eight are refused if and only if their low byte is. -/
theorem register_laws_iff {mmio : MmioHandler δ} {addr : UInt64} {stored : δ → UInt64}
    (hmmio : mmio.IsRegister addr stored) {io : IoPortHandler δ} {port : UInt16}
    {stored' : δ → UInt32} (hio : io.IsRegister port stored') (dev : δ) (len : UInt32) :
    (mmio.RoundTrips addr dev ∧ io.RoundTrips port dev ∧ mmio.RefusesLength len dev) ↔
      len.toNat ≤ 8 ∨ len.toNat % 256 = 0 ∨ 8 < len.toNat % 256 := by
  rw [← mmio.refusesLength_iff dev len]
  exact ⟨fun h => h.2.2, fun h => ⟨hmmio.roundTrips dev, hio.roundTrips dev, h⟩⟩

/-- Two words. -/
structure TwoWords where
  high : UInt64 := 0
  low : UInt32 := 0

/-- A register behind address `0xFEE00040`. -/
def wideRegister : MmioHandler TwoWords :=
  (({} : MmioHandler TwoWords).registerWrite 0xFEE00040 fun ctx dev =>
      { dev with high := ctx.value }).registerRead 0xFEE00040 fun _ dev => (dev.high, dev)

/-- A register behind port `0x70`. -/
def portRegister : IoPortHandler TwoWords :=
  (({} : IoPortHandler TwoWords).registerOutPort 0x70 fun ctx dev =>
      { dev with low := ctx.value }).registerInPort 0x70 fun _ dev => (dev.low, dev)

theorem isRegister_wideRegister : wideRegister.IsRegister 0xFEE00040 TwoWords.high where
  write := ⟨_, rfl, fun _ _ => rfl⟩
  read := ⟨_, rfl, fun _ _ => rfl⟩
  otherWrite a ha cb hcb := by
    cases (AList.lookup_insert_ne ha).symm.trans hcb
  otherRead a ha cb hcb := by
    cases (AList.lookup_insert_ne ha).symm.trans hcb

theorem isRegister_portRegister : portRegister.IsRegister 0x70 TwoWords.low where
  write := ⟨_, rfl, fun _ _ => rfl⟩
  read := ⟨_, rfl, fun _ _ => rfl⟩
  otherWrite a ha cb hcb := by
    cases (AList.lookup_insert_ne ha).symm.trans hcb
  otherRead a ha cb hcb := by
    cases (AList.lookup_insert_ne ha).symm.trans hcb

/-- The laws at length nine. -/
theorem register_laws_nine :
    wideRegister.RoundTrips 0xFEE00040 {} ∧ portRegister.RoundTrips 0x70 {} ∧
      wideRegister.RefusesLength 9 {} :=
  (register_laws_iff isRegister_wideRegister isRegister_portRegister {} 9).2 (by decide)

/-- A write of length 257 is taken for one of a single byte : it is accepted and counted, and the
register changes. -/
theorem length_257_accepted :
    ¬wideRegister.RefusesLength 257 {} ∧
      let run : KvmRun := { mmio := { physAddr := 0xFEE00040, data := fun _ => 7, len := 257,
                                      isWrite := 1 } }
      (wideRegister.handle run {}).1 = true ∧ (wideRegister.handle run {}).2.1.writeCount = 1 ∧
        (wideRegister.handle run {}).2.2.2.high = 7 := by
  refine ⟨fun h => ?_, rfl, rfl, rfl⟩
  have hlen := (wideRegister.refusesLength_iff {} 257).1 h
  revert hlen
  decide

end MinBp
