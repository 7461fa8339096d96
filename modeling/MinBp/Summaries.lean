import MinBp.Fields
import MinBp.VmiAgent

/-!
# Summaries are unambiguous

The summary of an event is one line of text : the vCPU, the instruction pointer, a word for what
happened (`Verb`) and its operands. Numbers are not padded, and the stream changes between
hexadecimal and decimal in the middle of a line.

The words are prefix-free, and each number ends before a letter that is not a digit of its base. So
two lines are equal only if they tell the same (`buildSummary_eq_iff`).
-/

open Fields

namespace MinBp

/-! ## Numbers in a line -/

/-- The digits under `std::hex` and `std::uppercase`. -/
def hexDigits : List Char :=
  (List.range 16).map fun d => (Nat.digitChar d).toUpper

/-- The digits under `std::dec`. -/
def decDigits : List Char :=
  (List.range 10).map fun d => Nat.digitChar d

theorem field_hex : Field (· ∈ hexDigits) hex := by
  refine field_digits (by norm_num) fun d hd d' hd' h => ?_
  have hinj : ∀ d d' : Fin 16, (Nat.digitChar d.val).toUpper = (Nat.digitChar d'.val).toUpper →
      d = d' := by decide
  exact congrArg Fin.val (hinj ⟨d, hd⟩ ⟨d', hd'⟩ h)

theorem field_dec : Field (· ∈ decDigits) dec := by
  have hdec : dec = fun n => (Nat.toDigits 10 n).map id := funext fun n => (List.map_id _).symm
  rw [hdec]
  refine field_digits (f := id) (by norm_num) fun d hd d' hd' h => ?_
  have hinj : ∀ d d' : Fin 10, Nat.digitChar d.val = Nat.digitChar d'.val → d = d' := by decide
  exact congrArg Fin.val (hinj ⟨d, hd⟩ ⟨d', hd'⟩ h)

/-! ## Words -/

/-- The words for what happened. -/
inductive Verb where
  | cpuid | out | inp | wrmsr | rdmsr | mmioWr | mmioRd | hlt | shutdown | event
  deriving DecidableEq

/-- The text of a word. -/
def Verb.text : Verb → List Char
  | cpuid => "CPUID".toList
  | out => "OUT".toList
  | inp => "IN".toList
  | wrmsr => "WRMSR".toList
  | rdmsr => "RDMSR".toList
  | mmioWr => "MMIO-WR".toList
  | mmioRd => "MMIO-RD".toList
  | hlt => "HLT".toList
  | shutdown => "SHUTDOWN".toList
  | event => "EVENT".toList

theorem prefixFree_text : PrefixFree Verb.text := by
  intro k k' h
  revert h
  cases k <;> cases k' <;> decide

/-- The word for an event. -/
def verb (type : EventType) : EventPayload → Verb
  | .cpuid _ => .cpuid
  | .io e => if e.isWrite then .out else .inp
  | .msr e => if e.isWrite then .wrmsr else .rdmsr
  | .mmio e => if e.isWrite then .mmioWr else .mmioRd
  | .monostate =>
    match type with
    | .guestHalt => .hlt
    | .guestShutdown => .shutdown
    | _ => .event

/-- What follows the word. -/
def operands : EventPayload → List Char
  | .cpuid e =>
    " leaf=0x".toList ++ (hex e.leaf.toNat ++ (" sub=0x".toList ++ (hex e.subleaf.toNat ++
      (" => EAX=0x".toList ++ (hex e.eax.toNat ++ (" EBX=0x".toList ++ (hex e.ebx.toNat ++
      (" ECX=0x".toList ++ (hex e.ecx.toNat ++ (" EDX=0x".toList ++ hex e.edx.toNat))))))))))
  | .io e =>
    " port=0x".toList ++ (hex e.port.toNat ++ (" size=".toList ++ (dec e.size.toNat ++
      ("B value=0x".toList ++ hex e.value.toNat))))
  | .msr e =>
    " index=0x".toList ++ (hex e.index.toNat ++ (" value=0x".toList ++ hex e.value.toNat))
  | .mmio e =>
    " gpa=0x".toList ++ (hex e.guestPhysAddr.toNat ++ (" size=".toList ++ (dec e.size.toNat ++
      ("B value=0x".toList ++ hex e.value.toNat))))
  | .monostate => []

theorem payloadText_eq (type : EventType) (payload : EventPayload) :
    payloadText type payload = (verb type payload).text ++ operands payload := by
  delta payloadText operands
  rcases payload with e | ⟨port, size, value, isWrite⟩ | ⟨index, value, isWrite⟩ |
    ⟨addr, size, value, isWrite⟩ | _
  · simp only [List.append_assoc]
    rfl
  · cases isWrite <;> simp only [List.append_assoc] <;> rfl
  · cases isWrite <;> simp only [List.append_assoc] <;> rfl
  · cases isWrite <;> simp only [List.append_assoc] <;> rfl
  · cases type <;> rfl

/-! ## What a line tells -/

/-- The alternative that the variant holds. -/
def EventPayload.index : EventPayload → ℕ
  | .cpuid _ => 0
  | .io _ => 1
  | .msr _ => 2
  | .mmio _ => 3
  | .monostate => 4

/-- The direction of an access, `false` for a payload without one. -/
def EventPayload.isWrite : EventPayload → Bool
  | .io e => e.isWrite
  | .msr e => e.isWrite
  | .mmio e => e.isWrite
  | _ => false

/-- The alternative a word belongs to. -/
def Verb.index : Verb → ℕ
  | cpuid => 0
  | out | inp => 1
  | wrmsr | rdmsr => 2
  | mmioWr | mmioRd => 3
  | hlt | shutdown | event => 4

/-- The direction a word stands for. -/
def Verb.isWrite : Verb → Bool
  | out | wrmsr | mmioWr => true
  | _ => false

theorem index_verb (type : EventType) (payload : EventPayload) :
    (verb type payload).index = payload.index := by
  rcases payload with e | ⟨_, _, _, _ | _⟩ | ⟨_, _, _ | _⟩ | ⟨_, _, _, _ | _⟩ | _
  all_goals first | rfl | (cases type <;> rfl)

theorem isWrite_verb (type : EventType) (payload : EventPayload) :
    (verb type payload).isWrite = payload.isWrite := by
  rcases payload with e | ⟨_, _, _, _ | _⟩ | ⟨_, _, _ | _⟩ | ⟨_, _, _, _ | _⟩ | _
  all_goals first | rfl | (cases type <;> rfl)

theorem cpuid_of_operands {e e' : CpuidEvent} (h : operands (.cpuid e) = operands (.cpuid e')) :
    e = e' := by
  delta operands at h
  obtain ⟨hleaf, h⟩ := (field_hex.append_inj (by decide)).1 (List.append_cancel_left h)
  obtain ⟨hsub, h⟩ := (field_hex.append_inj (by decide)).1 h
  obtain ⟨heax, h⟩ := (field_hex.append_inj (by decide)).1 h
  obtain ⟨hebx, h⟩ := (field_hex.append_inj (by decide)).1 h
  obtain ⟨hecx, h⟩ := (field_hex.append_inj (by decide)).1 h
  have hedx := field_hex.injective h
  rw [UInt32.toNat_inj] at hleaf hsub heax hebx hecx hedx
  rcases e with ⟨leaf, subleaf, eax, ebx, ecx, edx⟩
  subst hleaf hsub heax hebx hecx hedx
  rfl

theorem io_of_operands {e e' : IoEvent} (hwrite : e.isWrite = e'.isWrite)
    (h : operands (.io e) = operands (.io e')) : e = e' := by
  delta operands at h
  obtain ⟨hport, h⟩ := (field_hex.append_inj (by decide)).1 (List.append_cancel_left h)
  obtain ⟨hsize, h⟩ := (field_dec.append_inj (by decide)).1 h
  have hvalue := field_hex.injective h
  rw [UInt16.toNat_inj] at hport
  rw [UInt8.toNat_inj] at hsize
  rw [UInt32.toNat_inj] at hvalue
  rcases e with ⟨port, size, value, isWrite⟩
  subst hport hsize hvalue hwrite
  rfl

theorem msr_of_operands {e e' : MsrEvent} (hwrite : e.isWrite = e'.isWrite)
    (h : operands (.msr e) = operands (.msr e')) : e = e' := by
  delta operands at h
  obtain ⟨hindex, h⟩ := (field_hex.append_inj (by decide)).1 (List.append_cancel_left h)
  have hvalue := field_hex.injective h
  rw [UInt32.toNat_inj] at hindex
  rw [UInt64.toNat_inj] at hvalue
  rcases e with ⟨index, value, isWrite⟩
  subst hindex hvalue hwrite
  rfl

theorem mmio_of_operands {e e' : MmioEvent} (hwrite : e.isWrite = e'.isWrite)
    (h : operands (.mmio e) = operands (.mmio e')) : e = e' := by
  delta operands at h
  obtain ⟨haddr, h⟩ := (field_hex.append_inj (by decide)).1 (List.append_cancel_left h)
  obtain ⟨hsize, h⟩ := (field_dec.append_inj (by decide)).1 h
  have hvalue := field_hex.injective h
  rw [UInt64.toNat_inj] at haddr hvalue
  rw [UInt8.toNat_inj] at hsize
  rcases e with ⟨addr, size, value, isWrite⟩
  subst haddr hsize hvalue hwrite
  rfl

/-- The operands of two payloads with the same word are equal only if the payloads are. -/
theorem eq_of_operands {type type' : EventType} {payload payload' : EventPayload}
    (hverb : verb type payload = verb type' payload')
    (h : operands payload = operands payload') : payload = payload' := by
  have hindex : payload.index = payload'.index := by
    rw [← index_verb type, ← index_verb type', hverb]
  have hwrite : payload.isWrite = payload'.isWrite := by
    rw [← isWrite_verb type, ← isWrite_verb type', hverb]
  cases payload with
  | cpuid e =>
    cases payload' with
    | cpuid e' => rw [cpuid_of_operands h]
    | _ => cases hindex
  | io e =>
    cases payload' with
    | io e' => rw [io_of_operands hwrite h]
    | _ => cases hindex
  | msr e =>
    cases payload' with
    | msr e' => rw [msr_of_operands hwrite h]
    | _ => cases hindex
  | mmio e =>
    cases payload' with
    | mmio e' => rw [mmio_of_operands hwrite h]
    | _ => cases hindex
  | monostate =>
    cases payload' with
    | monostate => rfl
    | _ => cases hindex

/-- Both events are halts, or both are shutdowns, or neither is one of these. -/
def EventType.SameEnd (type type' : EventType) : Prop :=
  (type = .guestHalt ∧ type' = .guestHalt) ∨ (type = .guestShutdown ∧ type' = .guestShutdown) ∨
    (type ≠ .guestHalt ∧ type ≠ .guestShutdown ∧ type' ≠ .guestHalt ∧ type' ≠ .guestShutdown)

instance (type type' : EventType) : Decidable (type.SameEnd type') :=
  inferInstanceAs (Decidable (_ ∨ _ ∨ _))

/-- Without a payload the word tells halts and shutdowns from the rest. -/
theorem verb_monostate_eq_iff (type type' : EventType) :
    verb type .monostate = verb type' .monostate ↔ type.SameEnd type' := by
  cases type <;> cases type' <;> decide

/-- The word depends on the type of an event only if there is no payload. -/
theorem verb_eq_iff (type type' : EventType) (payload : EventPayload) :
    verb type payload = verb type' payload ↔ (payload = .monostate → type.SameEnd type') := by
  cases payload with
  | monostate =>
    rw [verb_monostate_eq_iff]
    exact ⟨fun h _ => h, fun h => h rfl⟩
  | _ => simp [verb]

/-- Two payloads have the same text if and only if they are equal, and without a payload the types
tell the same. -/
theorem payloadText_eq_iff (type type' : EventType) (payload payload' : EventPayload) :
    payloadText type payload = payloadText type' payload' ↔
      payload = payload' ∧ (payload = .monostate → type.SameEnd type') := by
  rw [payloadText_eq, payloadText_eq, prefixFree_text.append_inj]
  constructor
  · rintro ⟨hverb, h⟩
    obtain rfl := eq_of_operands hverb h
    exact ⟨rfl, (verb_eq_iff type type' payload).1 hverb⟩
  · rintro ⟨rfl, htype⟩
    exact ⟨(verb_eq_iff type type' payload).2 htype, rfl⟩

/-- Two summaries are equal if and only if the events name the same vCPU, the snapshots have the
same instruction pointer, the payloads are equal in all fields, and without a payload both events
are halts, or shutdowns, or neither. -/
theorem buildSummary_eq_iff (event event' : HvEvent) (snap snap' : GuestSnapshot) :
    buildSummary event snap = buildSummary event' snap' ↔
      event.vcpuId = event'.vcpuId ∧ snap.rip = snap'.rip ∧ event.payload = event'.payload ∧
        (event.payload = .monostate → event.type.SameEnd event'.type) := by
  delta buildSummary
  rw [String.ofList_inj, ← payloadText_eq_iff, ← UInt32.toNat_inj, ← UInt64.toNat_inj]
  simp only [List.append_assoc]
  rw [List.append_right_inj, field_hex.append_inj (by decide), field_hex.append_inj (by decide)]

end MinBp
