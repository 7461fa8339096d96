import MinBp.EventDump
import MinBp.Recording
import MinBp.RunLog
import MinBp.Summaries

/-!
# What the log file determines

`dumpEventLog` writes a log as a JSON text. The text can be parsed, and each object of the array
gives back the members of its entry, so two logs have the same text exactly if their entries show
the same (`SamePrinted`, `dumpEventLog_eq_iff`). Of an event this is the vCPU and the whole payload.

Payloads are what determines a run. So of two runs of one deterministic guest from the same state,
each under an agent of its own, the files alone tell whether the guests have seen the same
(`file_determines_run`).
-/

open Json Fields

namespace MinBp

variable {δ δ' κ κ' : Type}

/-! ## The text of a log -/

/-- The file shows the same of two entries. -/
structure SamePrinted (ie ie' : IntrospectionEvent) : Prop where
  milliseconds : ie.snapshot.milliseconds = ie'.snapshot.milliseconds
  vcpuId : ie.base.vcpuId = ie'.base.vcpuId
  rip : ie.snapshot.rip = ie'.snapshot.rip
  payload : ie.base.payload = ie'.base.payload
  /-- Without a payload the summary tells halts and shutdowns from other events. -/
  ends : ie.base.payload = .monostate → ie.base.type.SameEnd ie'.base.type
  memDump : ie.memDump = ie'.memDump

theorem toDigits_inj {m n : ℕ} : Nat.toDigits 16 m = Nat.toDigits 16 n ↔ m = n := by
  refine ⟨fun h => ?_, congrArg _⟩
  rw [← Option.some_inj, ← hexNumber_toDigits, h, hexNumber_toDigits]

theorem flatMap_byteDigits_inj {bs bs' : List UInt8} :
    bs.flatMap byteDigits = bs'.flatMap byteDigits ↔ bs = bs' := by
  refine ⟨fun h => ?_, congrArg _⟩
  rw [← Option.some_inj, ← hexBytes_flatMap, h, hexBytes_flatMap]

/-- Two summaries of the same vCPU at the same place differ in their payloads only. -/
theorem summary_eq_iff {ev ev' : HvEvent} {snap snap' : GuestSnapshot}
    (hid : ev.vcpuId = ev'.vcpuId) (hrip : snap.rip = snap'.rip) :
    buildSummary ev snap = buildSummary ev' snap' ↔
      ev.payload = ev'.payload ∧ (ev.payload = .monostate → ev.type.SameEnd ev'.type) := by
  delta buildSummary
  rw [hid, hrip, String.ofList_inj, List.append_right_inj, payloadText_eq_iff]

/-- The dump member of an entry determines the dump. -/
theorem dumpMember_inj {d d' : Option (List UInt8)} :
    (d.map fun bytes =>
        ("mem_dump", Value.str (String.ofList (bytes.flatMap byteDigits)))).toList =
      (d'.map fun bytes =>
        ("mem_dump", Value.str (String.ofList (bytes.flatMap byteDigits)))).toList ↔ d = d' := by
  cases d <;> cases d' <;>
    simp [String.ofList_inj, flatMap_byteDigits_inj]

/-- The members of an entry's object determine what the file shows of it. -/
theorem memberValues_eq_iff {ie ie' : IntrospectionEvent}
    (h : ie.summary = buildSummary ie.base ie.snapshot)
    (h' : ie'.summary = buildSummary ie'.base ie'.snapshot) :
    memberValues ie = memberValues ie' ↔ SamePrinted ie ie' := by
  simp only [memberValues, List.cons_append, List.nil_append, List.cons.injEq, Prod.mk.injEq,
    Value.num.injEq, Value.str.injEq, String.ofList_inj, dumpMember_inj, toDigits_inj,
    Nat.cast_inj, UInt32.toNat_inj, UInt64.toNat_inj, true_and, and_true]
  constructor
  · rintro ⟨hms, hid, hrip, hsummary, hdump⟩
    rw [h, h', summary_eq_iff hid hrip] at hsummary
    exact ⟨hms, hid, hrip, hsummary.1, hsummary.2, hdump⟩
  · rintro ⟨hms, hid, hrip, hpayload, hends, hdump⟩
    refine ⟨hms, hid, hrip, ?_, hdump⟩
    rw [h, h', summary_eq_iff hid hrip]
    exact ⟨hpayload, hends⟩

/-- Entries of which the file shows the same have the same text. -/
theorem entryText_eq {ie ie' : IntrospectionEvent}
    (h : ie.summary = buildSummary ie.base ie.snapshot)
    (h' : ie'.summary = buildSummary ie'.base ie'.snapshot) (hp : SamePrinted ie ie') :
    entryText ie = entryText ie' := by
  have hsummary : ie.summary = ie'.summary := by
    rw [h, h', summary_eq_iff hp.vcpuId hp.rip]
    exact ⟨hp.payload, hp.ends⟩
  rw [entryText, entryText, memberTexts, memberTexts, hp.milliseconds, hp.vcpuId, hp.rip, hsummary,
    hp.memDump]

/-- The text of the loop depends on the texts of the entries only. -/
theorem entriesText_congr {log log' : List IntrospectionEvent}
    (h : log.map entryText = log'.map entryText) : entriesText log = entriesText log' := by
  rcases eq_or_ne log [] with rfl | hne
  · rw [List.map_nil, eq_comm, List.map_eq_nil_iff] at h
    rw [h]
  · have hne' : log' ≠ [] := fun hnil => hne (by simpa [hnil] using h)
    have hlines : ∀ l : List IntrospectionEvent,
        (l.map fun ie => '\n' :: entryText ie) = (l.map entryText).map ('\n' :: ·) := by
      intro l
      rw [List.map_map]
      rfl
    refine List.cons_injective (a := '\n') ?_
    rw [entriesText_eq hne, entriesText_eq hne', hlines, hlines, h]

/-- An implication between the members of two lists carries over to the lists. -/
theorem forall₂_imp_of_mem {α β : Type} {R S : α → β → Prop} {l : List α} {l' : List β}
    (himp : ∀ a ∈ l, ∀ b ∈ l', R a b → S a b) (h : List.Forall₂ R l l') : List.Forall₂ S l l' := by
  rw [List.forall₂_iff_get] at h ⊢
  exact ⟨h.1, fun i hi hi' => himp _ (List.get_mem _ _) _ (List.get_mem _ _) (h.2 i hi hi')⟩

theorem map_eq_map_iff_forall₂ {α β γ : Type} {f : α → γ} {g : β → γ} {l : List α} {l' : List β} :
    l.map f = l'.map g ↔ List.Forall₂ (fun a b => f a = g b) l l' := by
  rw [← List.forall₂_eq_eq_eq, List.forall₂_map_left_iff, List.forall₂_map_right_iff]

namespace VmiAgent

/-- Two logs with summaries of their own entries have the same text if and only if their entries
show the same. -/
theorem logText_eq_iff {a : VmiAgent κ} {a' : VmiAgent κ'} (h : a.Summarised)
    (h' : a'.Summarised) :
    a.logText = a'.logText ↔ List.Forall₂ SamePrinted a.eventLog a'.eventLog := by
  constructor
  · intro htext
    have hparse := parse_logText h
    rw [htext, parse_logText h', Option.some_inj, Value.arr.injEq, eq_comm,
      map_eq_map_iff_forall₂] at hparse
    refine forall₂_imp_of_mem (fun ie hie ie' hie' heq => ?_) hparse
    exact (memberValues_eq_iff (h ie hie) (h' ie' hie')).1 (Value.obj.inj heq)
  · intro hp
    rw [logText_eq, logText_eq]
    rw [entriesText_congr (map_eq_map_iff_forall₂.2 (forall₂_imp_of_mem
      (fun ie hie ie' hie' => entryText_eq (h ie hie) (h' ie' hie')) hp))]

end VmiAgent

/-- The file determines what it shows. Whatever is called on two new agents, their files are equal
if and only if their logs are equally long and show the same, entry by entry : the milliseconds, the
vCPU, the instruction pointer, the payload in all its fields, whether it is a halt or a shutdown
that has none, and the dump. -/
theorem dumpEventLog_eq_iff (hasVm hasVm' : Bool) (subId subId' : UInt32)
    (cs : List (AgentCall κ)) (cs' : List (AgentCall κ')) :
    (cs.foldl VmiAgent.call { hasVm, subId }).dumpEventLog true =
        (cs'.foldl VmiAgent.call { hasVm := hasVm', subId := subId' }).dumpEventLog true ↔
      List.Forall₂ SamePrinted (cs.foldl VmiAgent.call { hasVm, subId }).eventLog
        (cs'.foldl VmiAgent.call { hasVm := hasVm', subId := subId' }).eventLog := by
  have hs : (cs.foldl VmiAgent.call { hasVm, subId }).Summarised :=
    .calls (fun _ hie => absurd hie List.not_mem_nil) cs
  have hs' : (cs'.foldl VmiAgent.call { hasVm := hasVm', subId := subId' }).Summarised :=
    .calls (fun _ hie => absurd hie List.not_mem_nil) cs'
  rw [← VmiAgent.logText_eq_iff hs hs']
  exact Option.some_inj

/-! ## Files of runs -/

namespace Hypervisor

variable {guest : Guest} {host host' : HostCpuid}

/-- The first steps of a loop are the run of their exits. -/
theorem runSteps_eq_run {ω : Type} : ∀ (n : ℕ) (s : Hypervisor δ ω),
    (s.runSteps guest host n).2 = s.run host (s.exits guest host n)
  | 0, _ => rfl
  | n + 1, s => by
    rw [runSteps_succ, exits_succ]
    split_ifs
    · exact runSteps_eq_run n _
    · rfl

/-- The events of a loop's first steps are those that it publishes. -/
theorem newEvents_eq {ω : Type} (n : ℕ) (s : Hypervisor δ ω) :
    s.newEvents guest host n =
      (s.newlyPublished host (s.exits guest host n)).map (·.event.untimed) := by
  rw [newEvents, newlyPublished, runSteps_eq_run, events, events, List.map_drop, List.length_map]

/-- An agent among harmless subscribers only observes. -/
theorem Attended.passive {s : Hypervisor δ (Observed κ)} (h : s.Attended) : s.Passive := by
  obtain ⟨d, hd, hready⟩ := h
  obtain ⟨id, before, after, hsubs, hbefore, hafter⟩ := hready.bus
  intro d' hd' sub hsub ev w
  rw [hd, Option.mem_some_iff] at hd'
  subst hd'
  dsimp only at hsubs
  rw [hsubs, List.mem_append, List.mem_cons] at hsub
  rcases hsub with hsub | rfl | hsub
  · exact (hbefore sub hsub ev w).1
  · exact VmiAgent.machine_handler ev w
  · exact (hafter sub hsub ev w).1

theorem Attended.isSome_dispatch {s : Hypervisor δ (Observed κ)} (h : s.Attended) :
    s.dispatch.isSome := by
  obtain ⟨d, hd, -⟩ := h
  rw [hd, Option.isSome_some]

/-- Logging keeps the summaries those of the entries. -/
theorem Logs.summarised {s s' : Hypervisor δ (Observed κ)} {ps : List (Publication δ)}
    (h : Logs s s' ps) (hs : s.agent.Summarised) : s'.agent.Summarised := by
  obtain ⟨new, hnew, hlogged⟩ := h.entries
  intro ie hie
  rw [hnew, List.mem_append] at hie
  rcases hie with hie | hie
  · exact hs ie hie
  · obtain ⟨i, hi, rfl⟩ := List.mem_iff_getElem.1 hie
    have hl := hlogged.get (by rw [hlogged.length_eq]; exact hi) hi
    have hbase := hl.base
    have hsummary := hl.summary
    rw [List.get_eq_getElem] at hbase hsummary
    rw [hsummary, ← hbase]

/-- The payloads of the entries that a run logs are those of its events. -/
theorem Logs.payloads {s s' : Hypervisor δ (Observed κ)} {ps : List (Publication δ)}
    (h : Logs s s' ps) : (s'.agent.eventLog.drop s.agent.eventLog.length).map (·.base.payload) =
      ps.map (·.event.payload) := by
  obtain ⟨new, hnew, hlogged⟩ := h.entries
  rw [hnew, List.drop_left, eq_comm, map_eq_map_iff_forall₂]
  exact hlogged.imp fun p ie hl => by rw [hl.base]

/-- The payloads that a loop publishes can be read off the log. -/
theorem Attended.payloads {s : Hypervisor δ (Observed κ)} (h : s.Attended) (n : ℕ) :
    (s.newEvents guest host n).map (·.payload) =
      ((s.runSteps guest host n).2.agent.eventLog.drop s.agent.eventLog.length).map
        (·.base.payload) := by
  rw [newEvents_eq, runSteps_eq_run, (h.run host _).payloads, List.map_map]
  rfl

end Hypervisor

/-- The files tell runs apart. Let one guest run from the same state under two hypervisors with an
agent each, whose handlers, devices and processors may differ, but which both have a CPUID handler
or both have none, and let the exits of the first run be recorded. If the logs were equally long and
after some number of steps the agents would write the same file, then so far the steps have had the
same results, and the guests have seen the same registers, the same memory and the same answers all
along. -/
theorem file_determines_run (guest : Guest) (host host' : HostCpuid) (n : ℕ)
    {a : Hypervisor δ (Observed κ)} {b : Hypervisor δ' (Observed κ')}
    (ha : a.Attended) (hb : b.Attended) (hm : a.machine.SameGuest b.machine)
    (hsa : a.agent.Summarised) (hsb : b.agent.Summarised)
    (hlen : a.agent.eventLog.length = b.agent.eventLog.length)
    (hrec : ∀ x ∈ a.exits guest host n, x.Recorded)
    (hfile : (a.runSteps guest host n).2.agent.dumpEventLog true =
      (b.runSteps guest host' n).2.agent.dumpEventLog true) :
    Hypervisor.SameRun guest host host' n a b := by
  have hcomparable : Hypervisor.Comparable a b :=
    ⟨⟨ha.passive, hb.passive⟩, ⟨ha.isSome_dispatch, hb.isSome_dispatch⟩, hm⟩
  refine hcomparable.sameRun_of_payloads n hrec ?_
  rw [ha.payloads, hb.payloads, ← hlen]
  have hsa' : (a.runSteps guest host n).2.agent.Summarised := by
    rw [Hypervisor.runSteps_eq_run]
    exact (ha.run host _).summarised hsa
  have hsb' : (b.runSteps guest host' n).2.agent.Summarised := by
    rw [Hypervisor.runSteps_eq_run]
    exact (hb.run host' _).summarised hsb
  have hprinted := (VmiAgent.logText_eq_iff hsa' hsb').1 (Option.some_inj.1 hfile)
  rw [map_eq_map_iff_forall₂]
  exact List.forall₂_drop _ (hprinted.imp fun _ _ hp => hp.payload)

/-- A machine under a fresh agent. -/
def Machine.watched (machine : Machine δ) : Hypervisor δ (Observed Unit) where
  world := { machine, obs := ⟨(VmiAgent.construct (δ := δ) true {}).1, ()⟩ }
  dispatch := some (VmiAgent.construct true {}).2

theorem Machine.Regular.attended {machine : Machine δ} (h : machine.Regular) :
    machine.watched.Attended :=
  ⟨_, rfl, ⟨1, [], [], rfl, nofun, nofun⟩, rfl, h, rfl, by
    show (0 : UInt64).toNat + (0 : UInt64).toNat < 2 ^ 64
    decide⟩

/-- `pageMachine` with a device on port 0 that counts the writes. -/
def countingMachine : Machine ℕ where
  vm := VirtualMachine.pageVm
  vcpuIndex_lt := VirtualMachine.length_vcpus_pageVm
  io := some (({} : IoPortHandler ℕ).registerOutPort 0 fun _ n => n + 1)
  dev := 0

/-- By the file, a guest that only writes cannot tell whether its writes are counted. The processors
differ as well. -/
theorem file_determines_outGuest :
    Hypervisor.SameRun outGuest (fun _ _ => {}) (fun _ _ => { eax := 1 }) 2 pageMachine.watched
      countingMachine.watched := by
  have hrec : ∀ x ∈ pageMachine.watched.exits outGuest (fun _ _ => {}) 2, x.Recorded := by
    intro x hx
    obtain ⟨g, rfl⟩ := Hypervisor.mem_exits 2 hx
    exact ⟨nofun, rfl⟩
  have hcounting : countingMachine.Regular :=
    ⟨regular_pageMachine.ids, regular_pageMachine.mapped⟩
  exact file_determines_run _ _ _ 2 regular_pageMachine.attended hcounting.attended ⟨rfl, rfl, rfl⟩
    (fun _ hie => absurd hie List.not_mem_nil) (fun _ hie => absurd hie List.not_mem_nil) rfl hrec
    rfl

end MinBp
