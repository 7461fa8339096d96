import MinBp.Fields
import MinBp.Json
import MinBp.VmiAgent

/-!
# The event log as JSON

`VmiAgent::dumpEventLog` writes the log piece by piece to an output stream. The base of numbers and
the fill character of a stream stay as they were set, from one number to the next and from one entry
to the next. The width holds for one piece. Nothing is escaped.

`dumpEventLog_json` states that the text is a JSON array with one object for each entry, in order,
for every log that `handleHvEvent` can produce. The objects hold what the entries do (`Describes`) :
the summaries need no escapes, as no part of them is a quote, a backslash or a control character
(`plain_buildSummary`).
-/

open Json

namespace MinBp

variable {κ : Type}

/-! ## Output streams -/

/-- `std::dec` and `std::hex`. -/
inductive Base where
  | dec
  | hex
  deriving DecidableEq, Repr

/-- What was written to a stream, and how it formats what comes next. -/
structure OStream where
  text : List Char := []
  base : Base := .dec
  fill : Char := ' '
  width : ℕ := 0
  deriving Repr

namespace OStream

/-- A piece of text, filled up to the width on the left. -/
def put (cs : List Char) (out : OStream) : OStream :=
  { out with
    text := out.text ++ (List.replicate (out.width - cs.length) out.fill ++ cs)
    width := 0 }

def puts (s : String) : OStream → OStream :=
  put s.toList

/-- An unsigned number. -/
def putNat (n : ℕ) (out : OStream) : OStream :=
  out.put (match out.base with
    | .dec => Nat.toDigits 10 n
    | .hex => Nat.toDigits 16 n)

def dec (out : OStream) : OStream :=
  { out with base := .dec }

def hex (out : OStream) : OStream :=
  { out with base := .hex }

/-- `std::setw`. -/
def setw (n : ℕ) (out : OStream) : OStream :=
  { out with width := n }

/-- `std::setfill`. -/
def setfill (c : Char) (out : OStream) : OStream :=
  { out with fill := c }

end OStream

/-! ## `dumpEventLog` -/

/-- The timestamp of a snapshot in milliseconds. -/
def GuestSnapshot.milliseconds (s : GuestSnapshot) : ℕ :=
  s.timestamp / 1000000

/-- The loop over the bytes of a dump. -/
def dumpBytes (bytes : List UInt8) (out : OStream) : OStream :=
  bytes.foldl (fun out byte => (((out.hex).setw 2).setfill '0').putNat byte.toNat) out

/-- The part of an entry that depends on the dump. -/
def dumpMemory (memDump : Option (List UInt8)) (out : OStream) : OStream :=
  match memDump with
  | none => out
  | some bytes => (dumpBytes bytes (out.puts ",\n    \"mem_dump\": \"")).puts "\""

/-- One round of the loop over the log. -/
def dumpEntry (ie : IntrospectionEvent) (more : Bool) (out : OStream) : OStream :=
  let out := out.puts "  \x7b\n"
  let out := ((out.puts "    \"timestamp\": ").dec.putNat ie.snapshot.milliseconds).puts ",\n"
  let out := ((out.puts "    \"vcpu_id\": ").dec.putNat ie.base.vcpuId.toNat).puts ",\n"
  let out := ((out.puts "    \"rip\": \"0x").hex.putNat ie.snapshot.rip.toNat).puts "\",\n"
  let out := ((out.puts "    \"summary\": \"").puts ie.summary).puts "\""
  let out := dumpMemory ie.memDump out
  ((out.puts "\n  \x7d").puts (if more then "," else "")).puts "\n"

/-- What is written to a new stream. -/
def VmiAgent.logText (a : VmiAgent κ) : String :=
  let out := a.eventLog.zipIdx.foldl
    (fun out (ie, i) => dumpEntry ie (i + 1 < a.eventLog.length) out)
    (OStream.puts "[\n" {})
  String.ofList (out.puts "]\n").text

/-- `VmiAgent::dumpEventLog` : the text of the file, if it opens. -/
def VmiAgent.dumpEventLog (opens : Bool) (a : VmiAgent κ) : Option String :=
  if ¬opens then none else some a.logText

/-! ## The text of a dump -/

/-- A member of an entry's object. -/
def memberText (name : String) (text : List Char) : List Char :=
  "\n    ".toList ++ '"' :: (name.toList ++ '"' :: ':' :: ' ' :: text)

/-- A string. -/
def quoted (text : List Char) : List Char :=
  '"' :: text ++ ['"']

/-- The members of an entry's object. -/
def memberTexts (ie : IntrospectionEvent) : List (List Char) :=
  [memberText "timestamp" (Nat.toDigits 10 ie.snapshot.milliseconds),
    memberText "vcpu_id" (Nat.toDigits 10 ie.base.vcpuId.toNat),
    memberText "rip" (quoted ('0' :: 'x' :: Nat.toDigits 16 ie.snapshot.rip.toNat)),
    memberText "summary" (quoted ie.summary.toList)] ++
    (ie.memDump.map fun bytes =>
      memberText "mem_dump" (quoted (bytes.flatMap byteDigits))).toList

/-- An entry's object. -/
def entryText (ie : IntrospectionEvent) : List Char :=
  "  ".toList ++ ('\x7b' :: commas (memberTexts ie) ++ ("\n  ".toList ++ ['\x7d']))

/-- From `out` to `out'` the text `t` was written, and no width is left over. -/
structure Wrote (out out' : OStream) (t : List Char) : Prop where
  text : out'.text = out.text ++ t
  width : out'.width = 0

namespace Wrote

variable {out out' out'' : OStream} {t t' : List Char}

theorem refl (h : out.width = 0) : Wrote out out [] :=
  ⟨(List.append_nil _).symm, h⟩

theorem trans (h : Wrote out out' t) (h' : Wrote out' out'' t') : Wrote out out'' (t ++ t') :=
  ⟨by rw [h'.text, h.text, List.append_assoc], h'.width⟩

/-- Without a width, a piece is written as it is. -/
theorem put (h : Wrote out out' t) (cs : List Char) : Wrote out (out'.put cs) (t ++ cs) := by
  refine ⟨?_, rfl⟩
  rw [OStream.put, h.width, Nat.zero_sub, List.replicate_zero, List.nil_append, h.text,
    List.append_assoc]

theorem puts (h : Wrote out out' t) (s : String) : Wrote out (out'.puts s) (t ++ s.toList) :=
  h.put s.toList

/-- A number is written in the base that was set just before. -/
theorem dec (h : Wrote out out' t) (n : ℕ) :
    Wrote out (out'.dec.putNat n) (t ++ Nat.toDigits 10 n) := by
  have hbase : Wrote out out'.dec t := ⟨h.text, h.width⟩
  exact hbase.put (Nat.toDigits 10 n)

theorem hex (h : Wrote out out' t) (n : ℕ) :
    Wrote out (out'.hex.putNat n) (t ++ Nat.toDigits 16 n) := by
  have hbase : Wrote out out'.hex t := ⟨h.text, h.width⟩
  exact hbase.put (Nat.toDigits 16 n)

/-- A byte takes two digits. -/
theorem byte (h : Wrote out out' t) (b : UInt8) :
    Wrote out (((out'.hex).setw 2).setfill '0' |>.putNat b.toNat) (t ++ byteDigits b) := by
  have hdigits : List.replicate (2 - (Nat.toDigits 16 b.toNat).length) '0' ++
      Nat.toDigits 16 b.toNat = byteDigits b := by
    have hb := b.toNat_lt
    rw [Nat.toDigits_eq_if (by norm_num), byteDigits]
    split
    · rename_i hlt
      rw [Nat.div_eq_of_lt hlt, Nat.mod_eq_of_lt hlt]
      rfl
    · rw [Nat.toDigits_of_lt_base (by omega)]
      rfl
  refine ⟨?_, rfl⟩
  rw [← hdigits, ← List.append_assoc, ← h.text]
  rfl

theorem dumpBytes (h : Wrote out out' t) (bytes : List UInt8) :
    Wrote out (dumpBytes bytes out') (t ++ bytes.flatMap byteDigits) := by
  induction bytes generalizing out' t with
  | nil =>
    rw [List.flatMap_nil, List.append_nil]
    exact h
  | cons b bytes ih =>
    rw [List.flatMap_cons, ← List.append_assoc]
    exact ih (h.byte b)

/-- The text of a dump member, with the comma before it. -/
theorem dumpMemory (h : Wrote out out' t) (memDump : Option (List UInt8)) :
    Wrote out (dumpMemory memDump out') (t ++ (memDump.map fun bytes =>
      ',' :: memberText "mem_dump" (quoted (bytes.flatMap byteDigits))).getD []) := by
  rcases memDump with _ | bytes
  · rw [Option.map_none, Option.getD_none, List.append_nil]
    exact h
  · have hw := ((h.puts ",\n    \"mem_dump\": \"").dumpBytes bytes).puts "\""
    rw [List.append_assoc, List.append_assoc] at hw
    exact hw

end Wrote

/-- The members of an entry, with commas between them. -/
theorem commas_memberTexts (ie : IntrospectionEvent) : commas (memberTexts ie) =
    memberText "timestamp" (Nat.toDigits 10 ie.snapshot.milliseconds) ++
      (',' :: memberText "vcpu_id" (Nat.toDigits 10 ie.base.vcpuId.toNat) ++
      (',' :: memberText "rip" (quoted ('0' :: 'x' :: Nat.toDigits 16 ie.snapshot.rip.toNat)) ++
      (',' :: memberText "summary" (quoted ie.summary.toList) ++
      (ie.memDump.map fun bytes =>
        ',' :: memberText "mem_dump" (quoted (bytes.flatMap byteDigits))).getD []))) := by
  rcases hd : ie.memDump with _ | bytes
  · simp [memberTexts, hd, commas, List.intercalate]
  · simp [memberTexts, hd, commas, List.intercalate]

/-- One round of the loop writes the object of the entry, and a comma unless it is the last. -/
theorem wrote_dumpEntry (ie : IntrospectionEvent) (more : Bool) {out : OStream}
    (h : out.width = 0) :
    Wrote out (dumpEntry ie more out)
      (entryText ie ++ (if more then "," else "").toList ++ "\n".toList) := by
  have hw := Wrote.puts (.refl h) "  \x7b\n"
  have hw := ((hw.puts "    \"timestamp\": ").dec ie.snapshot.milliseconds).puts ",\n"
  have hw := ((hw.puts "    \"vcpu_id\": ").dec ie.base.vcpuId.toNat).puts ",\n"
  have hw := ((hw.puts "    \"rip\": \"0x").hex ie.snapshot.rip.toNat).puts "\",\n"
  have hw := ((hw.puts "    \"summary\": \"").puts ie.summary).puts "\""
  have hw := hw.dumpMemory ie.memDump
  have hw := ((hw.puts "\n  \x7d").puts (if more then "," else "")).puts "\n"
  refine ⟨hw.text.trans ?_, hw.width⟩
  -- the equation lemmas of these would evaluate their literals
  delta entryText
  rw [commas_memberTexts]
  delta memberText quoted
  simp only [List.append_assoc, List.nil_append, List.cons_append]
  rfl

/-- The text of the loop. The first line break of an entry is written by the round before it. -/
def entriesText : List IntrospectionEvent → List Char
  | [] => []
  | [ie] => entryText ie ++ ['\n']
  | ie :: ie' :: log => entryText ie ++ ',' :: '\n' :: entriesText (ie' :: log)

/-- The rounds from index `k` on. -/
theorem wrote_entries (log : List IntrospectionEvent) {k n : ℕ} (hn : n = k + log.length)
    {out : OStream} (h : out.width = 0) :
    Wrote out ((log.zipIdx k).foldl (fun out (ie, i) => dumpEntry ie (i + 1 < n) out) out)
      (entriesText log) := by
  induction log generalizing k out with
  | nil => exact .refl h
  | cons ie log ih =>
    rw [List.zipIdx_cons, List.foldl_cons]
    have hround := wrote_dumpEntry ie (decide (k + 1 < n)) h
    have hrest := ih (k := k + 1) (by rw [hn, List.length_cons]; omega) hround.width
    dsimp only
    rcases log with _ | ⟨ie', log⟩
    · -- the last round writes no comma
      have hlast : decide (k + 1 < n) = false := by simp [hn]
      rw [hlast] at hround ⊢
      rw [List.append_assoc] at hround
      exact hround
    · have hmore : decide (k + 1 < n) = true := by
        rw [hn, decide_eq_true_eq, List.length_cons, List.length_cons]
        omega
      rw [hmore] at hround hrest ⊢
      have hw := hround.trans hrest
      rw [List.append_assoc, List.append_assoc] at hw
      exact hw

theorem entriesText_eq : ∀ {log : List IntrospectionEvent}, log ≠ [] →
    '\n' :: entriesText log = commas (log.map fun ie => '\n' :: entryText ie) ++ ['\n']
  | [], h => absurd rfl h
  | [ie], _ => by rw [entriesText, List.map_singleton, commas_singleton, List.cons_append]
  | ie :: ie' :: log, _ => by
    have hrest := entriesText_eq (List.cons_ne_nil ie' log)
    have hne : (ie' :: log).map (fun ie => '\n' :: entryText ie) ≠ [] := List.cons_ne_nil _ _
    have hmap : (ie :: ie' :: log).map (fun ie => '\n' :: entryText ie) =
        ('\n' :: entryText ie) :: (ie' :: log).map fun ie => '\n' :: entryText ie := rfl
    rw [entriesText, hrest, hmap, commas_cons hne, List.append_assoc, List.cons_append,
      List.cons_append]

theorem logText_eq (a : VmiAgent κ) :
    a.logText = String.ofList ("[\n".toList ++ entriesText a.eventLog ++ "]\n".toList) := by
  have hopen : Wrote {} (OStream.puts "[\n" {}) _ := Wrote.puts (.refl rfl) "[\n"
  have hw := (hopen.trans (wrote_entries a.eventLog (Nat.zero_add _).symm hopen.width)).puts "]\n"
  exact congrArg String.ofList hw.text

/-! ## Summaries need no escapes -/

/-- A hexadecimal digit stands for itself, in both cases. -/
theorem plain_digitChar {k : ℕ} (hk : k < 16) :
    Plain [Nat.digitChar k, (Nat.digitChar k).toUpper] := by
  have : ∀ k : Fin 16, Plain [Nat.digitChar k.val, (Nat.digitChar k.val).toUpper] := by decide
  exact this ⟨k, hk⟩

theorem plain_hex (n : ℕ) : Plain (hex n) := by
  intro c hc
  obtain ⟨d, hd, rfl⟩ := List.mem_map.1 hc
  obtain ⟨k, hk, rfl⟩ := Fields.mem_toDigits (by norm_num) hd
  exact plain_digitChar hk _ (List.mem_cons_of_mem _ List.mem_cons_self)

theorem plain_toDigits (n : ℕ) : Plain (Nat.toDigits 16 n) := by
  intro c hc
  obtain ⟨k, hk, rfl⟩ := Fields.mem_toDigits (by norm_num) hc
  exact plain_digitChar hk _ List.mem_cons_self

theorem plain_dec (n : ℕ) : Plain (dec n) := by
  intro c hc
  have hdigit := Json.isDigit_of_mem_toDigits hc
  have hbounds : '0'.toNat ≤ c.toNat := by
    rw [Char.isDigit, Bool.and_eq_true, decide_eq_true_eq] at hdigit
    exact UInt32.le_iff_toNat_le.1 hdigit.1
  refine ⟨?_, ?_, ?_⟩
  · rintro rfl
    exact absurd hdigit (by decide)
  · rintro rfl
    exact absurd hdigit (by decide)
  · exact le_trans (by decide) hbounds

theorem plain_payloadText (type : EventType) (payload : EventPayload) :
    Plain (payloadText type payload) := by
  have hpick {b : Bool} {s t : String} (hs : Plain s.toList) (ht : Plain t.toList) :
      Plain (if b then s else t).toList := by
    split
    · exact hs
    · exact ht
  delta payloadText
  cases payload with
  | cpuid e =>
    simp only [plain_append_iff, plain_hex, and_true]
    decide
  | io e =>
    simp only [plain_append_iff, plain_hex, plain_dec, and_true]
    exact ⟨⟨⟨⟨hpick (by decide) (by decide), by decide⟩, by decide⟩, by decide⟩, by decide⟩
  | msr e =>
    simp only [plain_append_iff, plain_hex, and_true]
    exact ⟨⟨hpick (by decide) (by decide), by decide⟩, by decide⟩
  | mmio e =>
    simp only [plain_append_iff, plain_hex, plain_dec, and_true]
    exact ⟨⟨⟨⟨hpick (by decide) (by decide), by decide⟩, by decide⟩, by decide⟩, by decide⟩
  | monostate =>
    dsimp only
    split
    · decide
    · decide
    · decide

theorem plain_buildSummary (event : HvEvent) (snap : GuestSnapshot) :
    Plain (buildSummary event snap).toList := by
  delta buildSummary
  rw [String.toList_ofList]
  simp only [plain_append_iff, plain_hex, plain_payloadText, and_true]
  decide

/-! ## The dump as a JSON text -/

/-- What the object of an entry has to hold. -/
structure Describes (ie : IntrospectionEvent) (v : Value) : Prop where
  exists_members : ∃ (rip : List Char) (memDump : Option (List Char)),
    v = .obj ([("timestamp", .num ie.snapshot.milliseconds 0),
        ("vcpu_id", .num ie.base.vcpuId.toNat 0), ("rip", .str (String.ofList ('0' :: 'x' :: rip))),
        ("summary", .str ie.summary)] ++
        (memDump.map fun text => ("mem_dump", Value.str (String.ofList text))).toList) ∧
      hexNumber rip = some ie.snapshot.rip.toNat ∧
      memDump.map hexBytes = ie.memDump.map some

theorem readsMember_text {name : String} (hname : Plain name.toList) {text : List Char} {v : Value}
    (h : Reads 1 text v) : ReadsMember 1 (memberText name text) (name, v) := by
  have hspace : Reads 1 ([' '] ++ text) v := h.ws (by decide)
  have hm := readsMember (by decide : Ws "\n    ".toList) hname hspace
  rwa [String.ofList_toList] at hm

theorem plain_byteDigits (bytes : List UInt8) : Plain (bytes.flatMap byteDigits) := by
  intro c hc
  obtain ⟨b, -, hb⟩ := List.mem_flatMap.1 hc
  have hlt := b.toNat_lt
  rcases List.mem_cons.1 hb with rfl | hb
  · exact plain_digitChar (by omega) _ List.mem_cons_self
  · rw [List.mem_singleton.1 hb]
    exact plain_digitChar (by omega) _ List.mem_cons_self

/-- The members that are read back from an entry's object. -/
def memberValues (ie : IntrospectionEvent) : List (String × Value) :=
  [("timestamp", .num ie.snapshot.milliseconds 0), ("vcpu_id", .num ie.base.vcpuId.toNat 0),
    ("rip", .str (String.ofList ('0' :: 'x' :: Nat.toDigits 16 ie.snapshot.rip.toNat))),
    ("summary", .str ie.summary)] ++
    (ie.memDump.map fun bytes =>
      ("mem_dump", Value.str (String.ofList (bytes.flatMap byteDigits)))).toList

theorem describes_memberValues (ie : IntrospectionEvent) :
    Describes ie (.obj (memberValues ie)) := by
  refine ⟨_, ie.memDump.map (·.flatMap byteDigits), ?_, hexNumber_toDigits _, ?_⟩
  · rw [memberValues, Option.map_map]
    rfl
  · rw [Option.map_map]
    exact congrArg (fun f => ie.memDump.map f) (funext hexBytes_flatMap)

theorem reads_members {ie : IntrospectionEvent}
    (h : ie.summary = buildSummary ie.base ie.snapshot) :
    List.Forall₂ (ReadsMember 1) (memberTexts ie) (memberValues ie) := by
  have hplain : Plain ie.summary.toList := h ▸ plain_buildSummary _ _
  have hsummary : Reads 1 (quoted ie.summary.toList) (.str ie.summary) := by
    have := reads_str hplain
    rwa [String.ofList_toList] at this
  have hrip := reads_str (s := '0' :: 'x' :: Nat.toDigits 16 ie.snapshot.rip.toNat)
    ((plain_append_iff (s := ['0', 'x'])).2 ⟨by decide, plain_toDigits _⟩)
  refine List.rel_append (.cons (readsMember_text (by decide) (reads_nat _))
    (.cons (readsMember_text (by decide) (reads_nat _))
    (.cons (readsMember_text (by decide) hrip)
    (.cons (readsMember_text (by decide) hsummary) .nil)))) ?_
  rcases ie.memDump with _ | bytes
  · exact .nil
  · exact .cons (readsMember_text (by decide) (reads_str (plain_byteDigits bytes))) .nil

/-- The object of an entry is read as what the entry holds. -/
theorem reads_entryText {ie : IntrospectionEvent}
    (h : ie.summary = buildSummary ie.base ie.snapshot) :
    Reads 7 ('\n' :: entryText ie) (.obj (memberValues ie)) := by
  have hobj := reads_obj (reads_members h) (List.cons_ne_nil _ _) (by decide : Ws "\n  ".toList)
  have hlen : (memberTexts ie).length ≤ 5 := by
    rw [memberTexts, List.length_append]
    rcases ie.memDump with _ | bytes
    · exact Nat.le_succ 4
    · exact le_rfl
  exact (hobj.ws (by decide : Ws "\n  ".toList)).mono (by omega)

/-- The text of a log whose summaries are those of its entries. -/
theorem parse_logText {a : VmiAgent κ}
    (h : ∀ ie ∈ a.eventLog, ie.summary = buildSummary ie.base ie.snapshot) :
    Json.parse a.logText = some (.arr (a.eventLog.map fun ie => .obj (memberValues ie))) := by
  rw [logText_eq]
  have hbreak : Ws ['\n'] := by decide
  by_cases hnil : a.eventLog = []
  · rw [hnil]
    exact parse_eq_some (reads_arr_nil hbreak) hbreak (by decide)
  · have hreads : List.Forall₂ (Reads 7) (a.eventLog.map fun ie => '\n' :: entryText ie)
        (a.eventLog.map fun ie => .obj (memberValues ie)) := by
      rw [List.forall₂_map_left_iff, List.forall₂_map_right_iff]
      exact List.forall₂_same.2 fun ie hie => reads_entryText (h ie hie)
    have harr := reads_arr hreads (by simpa using hnil) hbreak
    have htext : "[\n".toList ++ entriesText a.eventLog ++ "]\n".toList =
        '[' :: commas (a.eventLog.map fun ie => '\n' :: entryText ie) ++ (['\n'] ++ [']']) ++
          ['\n'] := by
      have hentries := congrArg (fun t => '[' :: t ++ "]\n".toList) (entriesText_eq hnil)
      simpa using hentries
    rw [htext]
    refine parse_eq_some harr hbreak ?_
    have hroom : ∀ t ∈ a.eventLog.map fun ie => '\n' :: entryText ie, 7 ≤ t.length := by
      intro t ht
      obtain ⟨ie, -, rfl⟩ := List.mem_map.1 ht
      simp [entryText]
    have hlen := length_commas hroom
    have hpos := List.length_pos_of_ne_nil hnil
    rw [List.length_map] at hlen ⊢
    simp only [List.length_append, List.length_cons]
    omega

/-! ## Logs that an agent produces -/

/-- What is called on an agent. -/
inductive AgentCall (κ : Type) where
  | handleHvEvent (event : HvEvent) (vm : VirtualMachine) (clock : Clock) (sink : κ)
  | onEvent (cb : IntrospectionEvent → κ → κ)
  | enableMemoryDump (addr size : UInt64)
  | disableMemoryDump

namespace VmiAgent

/-- The agent after a call. A call that faults logs nothing. -/
def call (a : VmiAgent κ) : AgentCall κ → VmiAgent κ
  | .handleHvEvent event vm clock sink =>
    match a.handleHvEvent event vm clock sink with
    | .error _ => a
    | .ok (a, _, _) => a
  | .onEvent cb => a.onEvent cb
  | .enableMemoryDump addr size => a.enableMemoryDump addr size
  | .disableMemoryDump => a.disableMemoryDump

/-- The summaries are those of the entries. -/
def Summarised (a : VmiAgent κ) : Prop :=
  ∀ ie ∈ a.eventLog, ie.summary = buildSummary ie.base ie.snapshot

theorem Summarised.call {a : VmiAgent κ} (h : a.Summarised) (c : AgentCall κ) :
    (a.call c).Summarised := by
  cases c with
  | handleHvEvent event vm clock sink =>
    rw [VmiAgent.call]
    split
    · exact h
    · rename_i heq
      rw [VmiAgent.handleHvEvent] at heq
      dsimp only at heq
      split at heq
      · exact absurd heq (by simp)
      · rw [Except.ok.injEq, Prod.mk.injEq] at heq
        intro ie hie
        rw [← heq.1] at hie
        rcases List.mem_append.1 hie with hie | hie
        · exact h ie hie
        · rw [List.mem_singleton.1 hie]
  | onEvent cb => exact h
  | enableMemoryDump addr size => exact h
  | disableMemoryDump => exact h

theorem Summarised.calls {a : VmiAgent κ} (h : a.Summarised) (cs : List (AgentCall κ)) :
    (cs.foldl VmiAgent.call a).Summarised := by
  induction cs generalizing a with
  | nil => exact h
  | cons c cs ih => exact ih (h.call c)

end VmiAgent

/-- Whatever is called on a new agent, its log is dumped as a JSON array with one object for each
entry, in order, and each object holds what its entry does. -/
theorem dumpEventLog_json (hasVm : Bool) (subId : UInt32) (cs : List (AgentCall κ)) :
    ∃ text vs, (cs.foldl VmiAgent.call { hasVm, subId }).dumpEventLog true = some text ∧
      Json.parse text = some (.arr vs) ∧
      List.Forall₂ Describes (cs.foldl VmiAgent.call { hasVm, subId }).eventLog vs := by
  have hempty : VmiAgent.Summarised ({ hasVm, subId } : VmiAgent κ) :=
    fun _ hie => absurd hie List.not_mem_nil
  refine ⟨_, _, rfl, parse_logText (hempty.calls cs), ?_⟩
  rw [List.forall₂_map_right_iff]
  exact List.forall₂_same.2 fun ie _ => describes_memberValues ie

end MinBp
