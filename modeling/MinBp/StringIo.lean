import MinBp.Handlers

/-!
# String port I/O

A `REP INS` or `REP OUTS` exits with `count` elements of `size` bytes each, one after the other in
the data area of the run page. `Served` says what serving all of them means : the callback of an
`OUT` port receives every value in order, and an `IN` sets every byte of the data area, to values
that the callback supplies, or to ones where the port has none.

Which callbacks are called is seen in a trace. `traced` is the same handler with callbacks that also
write down their calls, and it does what the handler does (`handle_traced`). A byte is set if it
does not matter what it was before (`Sets`).

`IoPortHandler.handle` makes one call and moves one element. So it serves an exit if and only if
this has a single element, or is an `OUT` to a port without a callback, where nobody waits for the
others (`served_iff_count_or_unregistered`).
-/

open Bytes

namespace MinBp

variable {δ : Type}

/-- Element `j` of the data area. -/
def KvmRun.element (run : KvmRun) (j : ℕ) : List UInt8 :=
  load run.page (run.io.dataOffset.toNat + run.io.size.toNat * j) run.io.size.toNat

/-- The values of the elements. -/
def KvmRun.values (run : KvmRun) : List UInt32 :=
  (List.range run.io.count.toNat).map fun j => UInt32.ofNat (value (run.element j))

/-- The run page with another byte at an offset. -/
def KvmRun.setByte (run : KvmRun) (i : ℕ) (b : UInt8) : KvmRun :=
  { run with page := Function.update run.page i b }

/-- The table with other callbacks for the same keys. -/
def CallbackTable.map {κ α β : Type} (f : κ → α → β) (table : CallbackTable κ α) :
    CallbackTable κ β where
  entries := table.entries.map (Sigma.map id f)
  nodupKeys := by
    rw [List.NodupKeys, List.keys, List.map_map]
    exact table.nodupKeys

theorem CallbackTable.lookup_map {κ α β : Type} [DecidableEq κ] (f : κ → α → β)
    (table : CallbackTable κ α) (k : κ) : (table.map f).lookup k = (table.lookup k).map (f k) :=
  List.dlookup_map₂ k

/-- A call of the callback for a port : what it received and, for an `IN`, what it supplied. -/
inductive PortCall where
  | output (port : UInt16) (ctx : OutContext)
  | input (port : UInt16) (ctx : InContext) (result : UInt32)
  deriving DecidableEq, Repr

/-- The values that the callback for `port` received. -/
def PortCall.received (port : UInt16) (calls : List PortCall) : List UInt32 :=
  calls.filterMap fun
    | .output p ctx => if p = port then some ctx.value else none
    | .input .. => none

/-- The values that the callback for `port` supplied. -/
def PortCall.supplied (port : UInt16) (calls : List PortCall) : List UInt32 :=
  calls.filterMap fun
    | .output .. => none
    | .input p _ result => if p = port then some result else none

namespace IoPortHandler

/-- The handler with callbacks that write down their calls. -/
def traced (h : IoPortHandler δ) : IoPortHandler (δ × List PortCall) where
  inCallbacks := h.inCallbacks.map fun port cb ctx s =>
    let (result, dev) := cb ctx s.1
    (result, dev, s.2 ++ [.input port ctx result])
  outCallbacks := h.outCallbacks.map fun port cb ctx s =>
    (cb ctx s.1, s.2 ++ [.output port ctx])
  inCount := h.inCount
  outCount := h.outCount

/-- The calls that `handle` makes. -/
def calls (h : IoPortHandler δ) (run : KvmRun) (dev : δ) : List PortCall :=
  (h.traced.handle run (dev, [])).2.2.2.2

/-- The run page that `handle` leaves. -/
def runAfter (h : IoPortHandler δ) (run : KvmRun) (dev : δ) : KvmRun :=
  (h.handle run dev).2.2.1

/-- `handle` sets the byte at offset `i` of the run page : what it was before does not matter. -/
def Sets (h : IoPortHandler δ) (run : KvmRun) (dev : δ) (i : ℕ) : Prop :=
  ∀ b, (h.runAfter (run.setByte i b) dev).page i = (h.runAfter run dev).page i

/-- The callback for the port, if there is one, received all values in order. -/
def OutServed (h : IoPortHandler δ) (run : KvmRun) (dev : δ) : Prop :=
  run.io.port ∈ h.outCallbacks →
    PortCall.received run.io.port (h.calls run dev) = run.values

/-- All bytes of the data area are set, and every element is a value that the callback for the port
supplied, or ones where there is none. -/
structure InServed (h : IoPortHandler δ) (run : KvmRun) (dev : δ) : Prop where
  sets : ∀ i < run.io.size.toNat * run.io.count.toNat, h.Sets run dev (run.io.dataOffset.toNat + i)
  supplied : run.io.port ∈ h.inCallbacks → ∀ j < run.io.count.toNat,
    ∃ v ∈ PortCall.supplied run.io.port (h.calls run dev),
      (h.runAfter run dev).element j = encode run.io.size.toNat v.toNat
  ones : run.io.port ∉ h.inCallbacks → ∀ j < run.io.count.toNat,
    (h.runAfter run dev).element j = List.replicate run.io.size.toNat 0xFF

/-- `handle` serves every element of an exit. -/
def Served (h : IoPortHandler δ) (run : KvmRun) (dev : δ) : Prop :=
  if run.io.direction = KVM_EXIT_IO_OUT then h.OutServed run dev else h.InServed run dev

/-! ## The trace -/

/-- Writing the calls down changes nothing else. -/
theorem handle_traced (h : IoPortHandler δ) (run : KvmRun) (dev : δ) (log : List PortCall) :
    h.traced.handle run (dev, log) =
      ((h.handle run dev).1, (h.handle run dev).2.1.traced, h.runAfter run dev,
        (h.handle run dev).2.2.2, log ++ h.calls run dev) := by
  unfold calls runAfter
  by_cases hd : run.io.direction = KVM_EXIT_IO_OUT
  · simp only [handle, hd, if_true, output, traced, CallbackTable.lookup_map]
    rcases h.outCallbacks.lookup (outContext run).port with _ | cb <;> simp
  · simp only [handle, hd, if_false, input, traced, CallbackTable.lookup_map]
    rcases h.inCallbacks.lookup (inContext run).port with _ | cb <;> simp

/-- An `OUT` makes one call, with the first element. -/
theorem calls_out {h : IoPortHandler δ} {run : KvmRun}
    (hd : run.io.direction = KVM_EXIT_IO_OUT) (hport : run.io.port ∈ h.outCallbacks) (dev : δ) :
    h.calls run dev = [.output run.io.port (outContext run)] := by
  obtain ⟨cb, hcb⟩ := Option.isSome_iff_exists.1 (AList.lookup_isSome.2 hport)
  have hl : h.outCallbacks.lookup (outContext run).port = some cb := hcb
  simp only [calls, handle, hd, if_true, output, traced, CallbackTable.lookup_map, hl]
  rfl

/-- What an `IN` supplies for the port. -/
theorem supplied_calls {h : IoPortHandler δ} {run : KvmRun}
    (hd : run.io.direction ≠ KVM_EXIT_IO_OUT) (hport : run.io.port ∈ h.inCallbacks) (dev : δ) :
    PortCall.supplied run.io.port (h.calls run dev) = [(h.input (inContext run) dev).1] := by
  obtain ⟨cb, hcb⟩ := Option.isSome_iff_exists.1 (AList.lookup_isSome.2 hport)
  have hl : h.inCallbacks.lookup (inContext run).port = some cb := hcb
  simp only [calls, handle, hd, if_false, input, traced, CallbackTable.lookup_map, hl]
  simp [PortCall.supplied, inContext]

/-! ## The data area -/

/-- An `IN` stores one element. -/
theorem page_runAfter {h : IoPortHandler δ} {run : KvmRun}
    (hd : run.io.direction ≠ KVM_EXIT_IO_OUT) (dev : δ) :
    (h.runAfter run dev).page = store run.page run.io.dataOffset.toNat
      (encode (min run.io.size.toNat 4) (h.input (inContext run) dev).1.toNat) := by
  simp only [runAfter, handle, hd, if_false]

theorem io_runAfter (h : IoPortHandler δ) (run : KvmRun) (dev : δ) :
    (h.runAfter run dev).io = run.io := by
  unfold runAfter handle
  split <;> rfl

/-- An `IN` sets the bytes of the first element and no others. -/
theorem sets_iff {h : IoPortHandler δ} {run : KvmRun} (hd : run.io.direction ≠ KVM_EXIT_IO_OUT)
    (hs : run.io.size.toNat ≤ 4) (dev : δ) (i : ℕ) :
    h.Sets run dev (run.io.dataOffset.toNat + i) ↔ i < run.io.size.toNat := by
  have hafter : ∀ b, (h.runAfter (run.setByte (run.io.dataOffset.toNat + i) b) dev).page =
      store (Function.update run.page (run.io.dataOffset.toNat + i) b) run.io.dataOffset.toNat
        (encode run.io.size.toNat (h.input (inContext run) dev).1.toNat) := by
    intro b
    rw [page_runAfter (by exact hd)]
    simp only [KvmRun.setByte, inContext, Nat.min_eq_left hs]
  rw [Sets, page_runAfter hd, Nat.min_eq_left hs]
  constructor
  · intro hsets
    by_contra hi
    have hout : ¬(run.io.dataOffset.toNat ≤ run.io.dataOffset.toNat + i ∧
        run.io.dataOffset.toNat + i < run.io.dataOffset.toNat +
          (encode run.io.size.toNat (h.input (inContext run) dev).1.toNat).length) := by
      rw [length_encode]
      omega
    -- the byte is what it was before, whatever that is
    have hother := hsets (run.page (run.io.dataOffset.toNat + i) + 1)
    rw [hafter, store_of_outside _ hout, store_of_outside _ hout, Function.update_self] at hother
    exact absurd hother (by simp)
  · intro hi b
    have hlt : i < (encode run.io.size.toNat (h.input (inContext run) dev).1.toNat).length := by
      rwa [length_encode]
    rw [hafter]
    simp [store, List.getElem?_eq_getElem hlt]

/-- The first element after an `IN`. -/
theorem element_zero {h : IoPortHandler δ} {run : KvmRun}
    (hd : run.io.direction ≠ KVM_EXIT_IO_OUT) (hs : run.io.size.toNat ≤ 4) (dev : δ) :
    (h.runAfter run dev).element 0 =
      encode run.io.size.toNat (h.input (inContext run) dev).1.toNat := by
  have hload := load_store run.page run.io.dataOffset.toNat
    (encode run.io.size.toNat (h.input (inContext run) dev).1.toNat)
  rw [length_encode] at hload
  rw [KvmRun.element, io_runAfter, page_runAfter hd, Nat.min_eq_left hs, Nat.mul_zero,
    Nat.add_zero, hload]

/-- All ones at the three widths. -/
theorem encode_ones {s : UInt8} (hs : s = 1 ∨ s = 2 ∨ s = 4) :
    encode s.toNat (0xFFFFFFFF : UInt32).toNat = List.replicate s.toNat 0xFF := by
  rcases hs with rfl | rfl | rfl <;> rfl

/-! ## Which exits are served -/

theorem size_le {s : UInt8} (hs : s = 1 ∨ s = 2 ∨ s = 4) : 0 < s.toNat ∧ s.toNat ≤ 4 := by
  rcases hs with rfl | rfl | rfl <;> decide

/-- An `OUT` to a port with a callback is served if and only if it has a single element. -/
theorem outServed_iff {h : IoPortHandler δ} {run : KvmRun}
    (hd : run.io.direction = KVM_EXIT_IO_OUT) (hs : run.io.size.toNat ≤ 4)
    (hport : run.io.port ∈ h.outCallbacks) (dev : δ) :
    h.OutServed run dev ↔ run.io.count.toNat = 1 := by
  have hreceived : PortCall.received run.io.port (h.calls run dev) = [run.ioValue] := by
    rw [calls_out hd hport]
    simp [PortCall.received, outContext]
  unfold OutServed
  rw [hreceived]
  constructor
  · intro hserved
    have hlength := congrArg List.length (hserved hport)
    simpa [KvmRun.values] using hlength.symm
  · intro hone _
    simp [KvmRun.values, hone, KvmRun.element, KvmRun.ioValue, Nat.min_eq_left hs]

/-- An `IN` is served if and only if it has at most a single element. -/
theorem inServed_iff {h : IoPortHandler δ} {run : KvmRun}
    (hd : run.io.direction ≠ KVM_EXIT_IO_OUT)
    (hs : run.io.size = 1 ∨ run.io.size = 2 ∨ run.io.size = 4) (dev : δ) :
    h.InServed run dev ↔ run.io.count.toNat ≤ 1 := by
  obtain ⟨hpos, hle⟩ := size_le hs
  constructor
  · intro hserved
    by_contra hn
    -- the first byte of the second element
    have hlt : run.io.size.toNat < run.io.size.toNat * run.io.count.toNat :=
      lt_mul_of_one_lt_right hpos (by omega)
    exact absurd ((sets_iff hd hle dev _).1 (hserved.sets _ hlt)) (lt_irrefl _)
  · intro hone
    refine ⟨fun i hi => (sets_iff hd hle dev i).2 ?_, fun hport j hj => ?_, fun hport j hj => ?_⟩
    · exact hi.trans_le ((Nat.mul_le_mul_left _ hone).trans_eq (Nat.mul_one _))
    · obtain rfl : j = 0 := by omega
      rw [supplied_calls hd hport]
      exact ⟨_, List.mem_singleton_self _, element_zero hd hle dev⟩
    · obtain rfl : j = 0 := by omega
      have hnone : h.inCallbacks.lookup (inContext run).port = none := AList.lookup_eq_none.2 hport
      rw [element_zero hd hle, input, hnone, encode_ones hs]

/-- For every handler, device state and exit, with any data area, `handle` serves all elements if
and only if there is a single one, or the exit is an `OUT` to a port without a callback. -/
theorem served_iff_count_or_unregistered {run : KvmRun}
    (hs : run.io.size = 1 ∨ run.io.size = 2 ∨ run.io.size = 4) (hn : 1 ≤ run.io.count.toNat)
    (h : IoPortHandler δ) (dev : δ) :
    h.Served run dev ↔ run.io.count.toNat = 1 ∨
      (run.io.direction = KVM_EXIT_IO_OUT ∧ run.io.port ∉ h.outCallbacks) := by
  unfold Served
  split_ifs with hd
  · by_cases hport : run.io.port ∈ h.outCallbacks
    · simp [outServed_iff hd (size_le hs).2 hport dev, hport]
    · simp [OutServed, hport, hd]
  · rw [inServed_iff hd hs]
    simp only [hd, false_and, or_false]
    omega

/-- A handler that records the values written to a port. -/
def recorder (port : UInt16) : IoPortHandler (List UInt32) :=
  ({} : IoPortHandler (List UInt32)).registerOutPort port fun ctx log => log ++ [ctx.value]

/-- A single byte `A` written to port `0xE9`. -/
def oneByteOut : KvmRun where
  io := { direction := KVM_EXIT_IO_OUT, size := 1, port := 0xE9, count := 1 }
  page := fun _ => 0x41

/-- A `REP OUTSB` of the bytes `A` and `B` to port `0xE9`. -/
def twoByteOut : KvmRun where
  io := { direction := KVM_EXIT_IO_OUT, size := 1, port := 0xE9, count := 2 }
  page := fun i => if i = 0 then 0x41 else 0x42

/-- The recorder gets the single byte, and without it the two bytes are nobody's. -/
theorem served_iff_oneByteOut :
    (recorder 0xE9).Served oneByteOut [] ∧ (recorder 0xE8).Served twoByteOut [] :=
  ⟨(served_iff_count_or_unregistered (.inl rfl) (by decide) _ _).2 (.inl rfl),
    (served_iff_count_or_unregistered (.inl rfl) (by decide) _ _).2 (.inr ⟨rfl, by decide⟩)⟩

/-- The callback is called once, with the first of the two bytes. -/
theorem twoByteOut_lost :
    twoByteOut.values = [0x41, 0x42] ∧
      ((recorder 0xE9).handle twoByteOut []).2.2.2 = [0x41] ∧
      ¬(recorder 0xE9).Served twoByteOut [] := by
  refine ⟨by decide, by decide, fun hserved => ?_⟩
  exact absurd ((outServed_iff rfl (by decide) (by decide) _).1 hserved) (by decide)

end IoPortHandler

end MinBp
