import MinBp.Recording
import MinBp.Sigint

/-!
# The nested loops of `main`

`main` can be read in two ways. The source is a loop over iterations, each of which restores the
snapshot and calls `runLoop`, itself a loop (`fuzzLoop`). Followed `KVM_RUN` by `KVM_RUN` it is a
state machine that signals can interrupt anywhere (`Program`).

`ends_tfae` says that for a deterministic guest the two agree. The program ends in some state
exactly if the loops do, and then it does so whatever signals arrive, once it has been given enough
exits of the guest.
-/

namespace MinBp

variable {δ ω : Type}

namespace Hypervisor

variable {guest : Guest} {host : HostCpuid} {snap : VmSnapShot}

/-! ## More fuel -/

/-- Steps that have come to an end stay there. -/
theorem runSteps_of_le {n m : ℕ} {s : Hypervisor δ ω} (h : (s.runSteps guest host n).1 ≠ .cont)
    (hle : n ≤ m) : s.runSteps guest host m = s.runSteps guest host n := by
  induction n generalizing s m with
  | zero => exact absurd rfl h
  | succ n ih =>
    obtain ⟨m, rfl⟩ : ∃ k, m = k + 1 := ⟨m - 1, by omega⟩
    rw [runSteps_succ] at h ⊢
    rw [runSteps_succ]
    split_ifs at h ⊢ with hcont
    · exact ih h (by omega)
    · rfl

/-- One more step. -/
theorem runSteps_concat {n : ℕ} {s : Hypervisor δ ω} (h : (s.runSteps guest host n).1 = .cont) :
    s.runSteps guest host (n + 1) = (s.runSteps guest host n).2.stepGuest guest host := by
  induction n generalizing s with
  | zero => exact runSteps_one s
  | succ n ih =>
    rw [runSteps_succ] at h
    rw [runSteps_succ (n + 1) s, runSteps_succ n s]
    split_ifs at h ⊢ with hcont
    · exact ih h
    · exact absurd h hcont

theorem runLoop_eq_some_iff {fuel : ℕ} {s : Hypervisor δ ω} {p : RunResult × Hypervisor δ ω} :
    s.runLoop guest host 0 fuel = some p ↔ s.runSteps guest host fuel = p ∧ p.1 ≠ .cont := by
  rw [runLoop_eq]
  constructor
  · intro h
    split at h
    · cases h
    · rename_i hne
      obtain rfl := Option.some.inj h
      exact ⟨rfl, hne⟩
  · rintro ⟨rfl, hne⟩
    exact if_neg hne

theorem runLoop_of_le {fuel fuel' : ℕ} {s : Hypervisor δ ω} {p : RunResult × Hypervisor δ ω}
    (h : s.runLoop guest host 0 fuel = some p) (hle : fuel ≤ fuel') :
    s.runLoop guest host 0 fuel' = some p := by
  obtain ⟨rfl, hne⟩ := runLoop_eq_some_iff.1 h
  exact runLoop_eq_some_iff.2 ⟨runSteps_of_le hne hle, hne⟩

theorem fuzzLoop_of_le {fuel fuel' : ℕ} (hle : fuel ≤ fuel') :
    ∀ {i : ℕ} {s s' : Hypervisor δ ω}, fuzzLoop guest host fuel snap i s = .ok (some s') →
      fuzzLoop guest host fuel' snap i s = .ok (some s')
  | 0, _, _, h => h
  | i + 1, s, s', h => by
    rw [fuzzLoop] at h ⊢
    rcases hi : fuzzLoop guest host fuel snap i s with f | _ | t
    · simp [hi] at h
    · simp [hi] at h
    · rw [fuzzLoop_of_le hle hi]
      simp only [hi] at h ⊢
      rcases ha : t.startIteration snap i with f | a
      · simp [ha] at h
      · simp only [ha] at h ⊢
        rcases hrun : a.runLoop guest host 0 fuel with _ | ⟨r, b⟩
        · simp [hrun] at h
        · rw [runLoop_of_le hrun hle]
          rw [hrun] at h
          exact h

end Hypervisor

namespace Program

/-! ## A program that a guest drives -/

/-- The next exit of the guest. -/
def advance (guest : Guest) (host : HostCpuid) (snap : VmSnapShot) (p : Program δ ω) :
    Program δ ω :=
  p.exec host snap (.exit (guest p.hv.machine.guestState))

/-- The exits that the program takes are those of the guest. Signals come as they like. -/
def Follows (guest : Guest) (host : HostCpuid) (snap : VmSnapShot) :
    List Happening → Program δ ω → Prop
  | [], _ => True
  | .sigint :: hs, p => Follows guest host snap hs p.sigintHandler
  | .exit x :: hs, p => (p.status = .running → x = guest p.hv.machine.guestState) ∧
    Follows guest host snap hs (p.exec host snap (.exit x))

/-- The number of exits in a list of happenings. -/
def exits (hs : List Happening) : ℕ :=
  hs.countP fun
    | .exit _ => true
    | .sigint => false

/-- Where `main` goes after a step of the run loop. -/
def settle (snap : VmSnapShot) (r : RunResult × Hypervisor δ ω) (p : Program δ ω) : Program δ ω :=
  match r with
  | (.cont, hv) => { p with hv }
  | (.error, hv) => { p with hv, status := .returned 1 }
  | (_, hv) =>
    if p.iteration + 1 < maxIterations then enter snap (p.iteration + 1) { p with hv }
    else { p with hv, status := .returned 0 }

section Advance

variable {guest : Guest} {host : HostCpuid} {snap : VmSnapShot} {p : Program δ ω}

theorem advance_of_running (h : p.status = .running) :
    advance guest host snap p = settle snap (p.hv.stepGuest guest host) p :=
  exec_exit_of_running h _

theorem advance_of_ended (h : p.status ≠ .running) : advance guest host snap p = p :=
  exec_exit_of_ended h _

theorem iterate_advance_of_ended (h : p.status ≠ .running) (n : ℕ) :
    (advance guest host snap)^[n] p = p :=
  Function.iterate_fixed (advance_of_ended h) n

/-- Nothing reads the flag. -/
theorem advance_setFlag (g : Bool) :
    advance guest host snap { p with gRunning := g } =
      { advance guest host snap p with gRunning := g } := by
  by_cases h : p.status = .running
  · rw [advance_of_running h, advance_of_running (p := { p with gRunning := g }) h]
    rcases p.hv.stepGuest guest host with ⟨_ | _ | _ | _, hv⟩
    · rfl
    · simp only [settle, enter]
      split
      · split <;> rfl
      · rfl
    · simp only [settle, enter]
      split
      · split <;> rfl
      · rfl
    · rfl
  · rw [advance_of_ended h, advance_of_ended (p := { p with gRunning := g }) h]

theorem iterate_advance_setFlag (g : Bool) (n : ℕ) :
    (advance guest host snap)^[n] { p with gRunning := g } =
      { (advance guest host snap)^[n] p with gRunning := g } := by
  induction n generalizing p with
  | zero => rfl
  | succ n ih => rw [Function.iterate_succ_apply, advance_setFlag, ih, Function.iterate_succ_apply]

/-- Under a guest, a list of happenings is as many exits of the guest, up to the flag. -/
theorem run_of_follows : ∀ (hs : List Happening) {p : Program δ ω}, Follows guest host snap hs p →
    ∃ g, p.run host snap hs = { (advance guest host snap)^[exits hs] p with gRunning := g }
  | [], p, _ => ⟨p.gRunning, rfl⟩
  | .sigint :: hs, p, h => by
    obtain ⟨g, hg⟩ := run_of_follows hs h
    refine ⟨g, ?_⟩
    show p.sigintHandler.run host snap hs = _
    rw [hg, sigintHandler, iterate_advance_setFlag]
    rfl
  | .exit x :: hs, p, h => by
    have hx : p.exec host snap (.exit x) = advance guest host snap p := by
      by_cases hrun : p.status = .running
      · rw [h.1 hrun, advance]
      · rw [exec_exit_of_ended hrun, advance_of_ended hrun]
    obtain ⟨g, hg⟩ := run_of_follows hs h.2
    refine ⟨g, ?_⟩
    show (p.exec host snap (.exit x)).run host snap hs = _
    rw [hg, hx, ← Function.iterate_succ_apply]
    simp [exits]

/-- There are lists of any length that follow a guest. -/
theorem exists_follows (n : ℕ) (p : Program δ ω) :
    ∃ hs, Follows guest host snap hs p ∧ exits hs = n := by
  induction n generalizing p with
  | zero => exact ⟨[], trivial, rfl⟩
  | succ n ih =>
    obtain ⟨hs, hfollows, hn⟩ := ih (advance guest host snap p)
    refine ⟨.exit (guest p.hv.machine.guestState) :: hs, ⟨fun _ => rfl, hfollows⟩, ?_⟩
    rw [← hn]
    exact List.countP_cons_of_pos rfl

/-! ## One iteration -/

theorem settle_setHv (r : RunResult × Hypervisor δ ω) (hv : Hypervisor δ ω) :
    settle snap r { p with hv } = settle snap r p := by
  rcases r with ⟨_ | _ | _ | _, s⟩ <;> rfl

/-- A run loop that ends is followed up to the end of the iteration. -/
theorem exists_iterate_settle {n : ℕ} (hrun : p.status = .running)
    (h : (p.hv.runSteps guest host n).1 ≠ .cont) :
    ∃ k, (advance guest host snap)^[k] p = settle snap (p.hv.runSteps guest host n) p := by
  induction n generalizing p with
  | zero => exact absurd rfl h
  | succ n ih =>
    have hadvance : advance guest host snap p = settle snap (p.hv.stepGuest guest host) p :=
      advance_of_running hrun
    rw [Hypervisor.runSteps_succ] at h ⊢
    split_ifs at h ⊢ with hcont
    · obtain ⟨k, hk⟩ := ih (p := { p with hv := (p.hv.stepGuest guest host).2 }) hrun h
      have hnext : advance guest host snap p = { p with hv := (p.hv.stepGuest guest host).2 } := by
        rw [hadvance, ← Prod.mk.eta (p := p.hv.stepGuest guest host), hcont, settle]
      refine ⟨k + 1, ?_⟩
      rw [Function.iterate_succ_apply, hnext]
      exact hk.trans (settle_setHv _ _)
    · exact ⟨1, hadvance⟩

end Advance

/-! ## All iterations -/

variable (guest : Guest) (host : HostCpuid) (snap : VmSnapShot) (s₀ : Hypervisor δ ω)

/-- How the nested loops end, and in which state. -/
inductive Ends : Status → Hypervisor δ ω → Prop
  /-- All iterations end with a halt or a shutdown. -/
  | zero {fuel : ℕ} {s : Hypervisor δ ω}
      (h : Hypervisor.fuzzLoop guest host fuel snap maxIterations s₀ = .ok (some s)) :
      Ends (.returned 0) s
  /-- The run loop of an iteration returns `Error`. -/
  | one {fuel i : ℕ} {s a b : Hypervisor δ ω} (hi : i < maxIterations)
      (h : Hypervisor.fuzzLoop guest host fuel snap i s₀ = .ok (some s))
      (ha : s.startIteration snap i = .ok a) (hb : a.runLoop guest host 0 fuel = some (.error, b)) :
      Ends (.returned 1) b
  /-- An iteration cannot be started. -/
  | fault {fuel i : ℕ} {s : Hypervisor δ ω} {f : Fault} (hi : i < maxIterations)
      (h : Hypervisor.fuzzLoop guest host fuel snap i s₀ = .ok (some s))
      (hf : s.startIteration snap i = .error f) : Ends (.faulted f) s

variable {guest host snap s₀}

/-- The program gets to the start of every iteration that the loops get to, and returns 0 if they
get through the last. -/
theorem exists_iterate_of_fuzzLoop {fuel : ℕ} :
    ∀ {i : ℕ} {s : Hypervisor δ ω}, i ≤ maxIterations →
      Hypervisor.fuzzLoop guest host fuel snap i s₀ = .ok (some s) →
      ∃ k, (i < maxIterations → (advance guest host snap)^[k] (start snap s₀) =
          enter snap i { hv := s, iteration := i - 1 }) ∧
        (i = maxIterations → ((advance guest host snap)^[k] (start snap s₀)).status = .returned 0 ∧
          ((advance guest host snap)^[k] (start snap s₀)).hv = s)
  | 0, s, _, h => by
    obtain rfl : s₀ = s := Option.some.inj (Except.ok.inj h)
    exact ⟨0, fun _ => rfl, fun h => absurd h (by decide)⟩
  | i + 1, s, hi, h => by
    rw [Hypervisor.fuzzLoop] at h
    rcases hprev : Hypervisor.fuzzLoop guest host fuel snap i s₀ with f | _ | t
    · simp [hprev] at h
    · simp [hprev] at h
    obtain ⟨k, hk, -⟩ := exists_iterate_of_fuzzLoop (by omega) hprev
    rcases ha : t.startIteration snap i with f | a
    · simp [hprev, ha] at h
    have henter : enter snap i { hv := t, iteration := i - 1 } =
        ({ hv := a, iteration := i } : Program δ ω) := by
      rw [enter, ha]
    rcases hrun : a.runLoop guest host 0 fuel with _ | ⟨r, b⟩
    · simp [hprev, ha, hrun] at h
    obtain ⟨hsteps, hne⟩ := Hypervisor.runLoop_eq_some_iff.1 hrun
    obtain ⟨k', hk'⟩ : ∃ k', (advance guest host snap)^[k'] { hv := a, iteration := i } =
        settle snap (a.runSteps guest host fuel) { hv := a, iteration := i } :=
      exists_iterate_settle rfl (by rw [hsteps]; exact hne)
    have hend : (advance guest host snap)^[k' + k] (start snap s₀) =
        settle snap (r, b) { hv := a, iteration := i } := by
      rw [Function.iterate_add_apply, hk (by omega), henter, hk', hsteps]
    have hstop : settle snap (r, b) ({ hv := a, iteration := i } : Program δ ω) =
        if i + 1 < maxIterations then enter snap (i + 1) { hv := s, iteration := i }
        else { hv := s, iteration := i, status := .returned 0 } := by
      cases r with
      | cont => exact absurd rfl hne
      | error => simp [hprev, ha, hrun] at h
      | halt =>
        obtain rfl : b = s := by simpa [hprev, ha, hrun] using h
        rfl
      | shutdown =>
        obtain rfl : b = s := by simpa [hprev, ha, hrun] using h
        rfl
    refine ⟨k' + k, fun hlt => ?_, fun heq => ?_⟩
    · rw [hend, hstop, if_pos hlt]
      rfl
    · rw [hend, hstop, if_neg (by omega)]
      exact ⟨rfl, rfl⟩

/-- Where the program is after some exits of the guest, by the nested loops. -/
def Within (guest : Guest) (host : HostCpuid) (snap : VmSnapShot) (s₀ : Hypervisor δ ω)
    (p : Program δ ω) : Prop :=
  if p.status = .running then
    p.iteration < maxIterations ∧ ∃ fuel s a n,
      Hypervisor.fuzzLoop guest host fuel snap p.iteration s₀ = .ok (some s) ∧
        s.startIteration snap p.iteration = .ok a ∧ a.runSteps guest host n = (.cont, p.hv)
  else Ends guest host snap s₀ p.status p.hv

/-- The start of an iteration that the loops get to. -/
theorem within_enter {fuel i : ℕ} {s : Hypervisor δ ω} {p : Program δ ω}
    (hrun : p.status = .running) (hi : i < maxIterations)
    (h : Hypervisor.fuzzLoop guest host fuel snap i s₀ = .ok (some s)) (hp : p.hv = s) :
    Within guest host snap s₀ (p.enter snap i) := by
  subst hp
  rcases ha : p.hv.startIteration snap i with f | a
  · have henter : p.enter snap i = { p with status := .faulted f } := by rw [enter, ha]
    rw [henter]
    exact .fault hi h ha
  · have henter : p.enter snap i = { p with hv := a, iteration := i } := by rw [enter, ha]
    rw [henter, Within, if_pos hrun]
    exact ⟨hi, fuel, p.hv, a, 0, h, ha, rfl⟩

/-- One exit of the guest. -/
theorem Within.advance {p : Program δ ω} (h : Within guest host snap s₀ p) :
    Within guest host snap s₀ (advance guest host snap p) := by
  by_cases hrun : p.status = .running
  swap
  · rwa [advance_of_ended hrun]
  rw [Within, if_pos hrun] at h
  obtain ⟨hi, fuel, s, a, n, hloop, ha, hsteps⟩ := h
  have hnext : a.runSteps guest host (n + 1) = p.hv.stepGuest guest host := by
    rw [Hypervisor.runSteps_concat (by rw [hsteps]), hsteps]
  -- enough fuel for the iterations so far and for this one
  have hloop' : Hypervisor.fuzzLoop guest host (max fuel (n + 1)) snap p.iteration s₀ =
      .ok (some s) :=
    Hypervisor.fuzzLoop_of_le (le_max_left _ _) hloop
  rw [advance_of_running hrun]
  rcases hstep : p.hv.stepGuest guest host with ⟨r, hv⟩
  have hstopped : r ≠ .cont →
      a.runLoop guest host 0 (max fuel (n + 1)) = some (r, hv) := fun hne =>
    Hypervisor.runLoop_of_le
      (Hypervisor.runLoop_eq_some_iff.2 ⟨hnext.trans hstep, hne⟩) (le_max_right _ _)
  have hstops : r = .halt ∨ r = .shutdown →
      Within guest host snap s₀ (if p.iteration + 1 < maxIterations
        then enter snap (p.iteration + 1) { p with hv }
        else { p with hv, status := .returned 0 }) := by
    intro hr
    have hdone : Hypervisor.fuzzLoop guest host (max fuel (n + 1)) snap (p.iteration + 1) s₀ =
        .ok (some hv) := by
      rw [Hypervisor.fuzzLoop, hloop']
      simp only [ha]
      rcases hr with rfl | rfl <;> rw [hstopped (by decide)]
    split_ifs with hlt
    · exact within_enter hrun hlt hdone rfl
    · have heq : p.iteration + 1 = maxIterations := by omega
      exact .zero (heq ▸ hdone)
  cases r with
  | cont =>
    rw [settle, Within, if_pos hrun]
    exact ⟨hi, fuel, s, a, n + 1, hloop, ha, hnext.trans hstep⟩
  | error => exact .one hi hloop' ha (hstopped (by decide))
  | halt => exact hstops (.inl rfl)
  | shutdown => exact hstops (.inr rfl)

theorem within_iterate (n : ℕ) :
    Within guest host snap s₀ ((Program.advance guest host snap)^[n] (start snap s₀)) := by
  induction n with
  | zero =>
    have hloop : Hypervisor.fuzzLoop guest host 0 snap 0 s₀ = .ok (some s₀) := rfl
    exact within_enter rfl (by decide) hloop rfl
  | succ n ih =>
    rw [Function.iterate_succ_apply']
    exact ih.advance

/-- The program has ended with this status in this state. -/
def EndedIn (st : Status) (s : Hypervisor δ ω) (p : Program δ ω) : Prop :=
  p.status = st ∧ st ≠ .running ∧ p.hv = s

theorem Ends.ne_running {st : Status} {s : Hypervisor δ ω} (h : Ends guest host snap s₀ st s) :
    st ≠ .running := by
  cases h <;> exact Status.noConfusion

/-- If the loops end, so does the program. -/
theorem Ends.exists_iterate {st : Status} {s : Hypervisor δ ω}
    (h : Ends guest host snap s₀ st s) :
    ∃ k, EndedIn st s ((Program.advance guest host snap)^[k] (start snap s₀)) := by
  have hne := h.ne_running
  cases h with
  | zero h =>
    obtain ⟨k, -, hk⟩ := exists_iterate_of_fuzzLoop le_rfl h
    exact ⟨k, (hk rfl).1, hne, (hk rfl).2⟩
  | @one fuel i t a _ hi h ha hb =>
    obtain ⟨k, hk, -⟩ := exists_iterate_of_fuzzLoop hi.le h
    obtain ⟨hsteps, hcont⟩ := Hypervisor.runLoop_eq_some_iff.1 hb
    obtain ⟨k', hk'⟩ : ∃ k', (Program.advance guest host snap)^[k'] { hv := a, iteration := i } =
        settle snap (a.runSteps guest host fuel) { hv := a, iteration := i } :=
      exists_iterate_settle rfl (by rw [hsteps]; exact hcont)
    refine ⟨k' + k, ?_⟩
    rw [Function.iterate_add_apply, hk hi, enter, ha, hk', hsteps]
    exact ⟨rfl, hne, rfl⟩
  | @fault fuel i _ f hi h hf =>
    obtain ⟨k, hk, -⟩ := exists_iterate_of_fuzzLoop hi.le h
    refine ⟨k, ?_⟩
    rw [hk hi, enter, hf]
    exact ⟨rfl, hne, rfl⟩

/-- An ended program stays as it is. -/
theorem EndedIn.iterate {st : Status} {s : Hypervisor δ ω} {p : Program δ ω} {k n : ℕ}
    (h : EndedIn st s ((Program.advance guest host snap)^[k] p)) (hle : k ≤ n) :
    EndedIn st s ((Program.advance guest host snap)^[n] p) := by
  obtain ⟨m, rfl⟩ := Nat.exists_eq_add_of_le hle
  rwa [Nat.add_comm, Function.iterate_add_apply,
    iterate_advance_of_ended (by rw [h.1]; exact h.2.1)]

/-- The two readings of `main` agree, for every deterministic guest. The nested loops end with a
status in a state if and only if some exits of the guest and some signals bring the program there,
and if and only if all exits of the guest do, given enough of them, whatever signals arrive in
between. -/
theorem ends_tfae (guest : Guest) (host : HostCpuid) (snap : VmSnapShot) (s₀ s : Hypervisor δ ω)
    (st : Status) :
    List.TFAE
      [Ends guest host snap s₀ st s,
        ∃ hs, Follows guest host snap hs (start snap s₀) ∧
          EndedIn st s ((start snap s₀).run host snap hs),
        ∃ n, ∀ hs, Follows guest host snap hs (start snap s₀) → n ≤ exits hs →
          EndedIn st s ((start snap s₀).run host snap hs)] := by
  tfae_have 1 → 3 := by
    intro h
    obtain ⟨k, hk⟩ := h.exists_iterate
    refine ⟨k, fun hs hfollows hle => ?_⟩
    obtain ⟨g, hg⟩ := run_of_follows hs hfollows
    rw [hg]
    exact hk.iterate hle
  tfae_have 3 → 2 := by
    rintro ⟨n, h⟩
    obtain ⟨hs, hfollows, hn⟩ := exists_follows n (start snap s₀)
    exact ⟨hs, hfollows, h hs hfollows hn.ge⟩
  tfae_have 2 → 1 := by
    rintro ⟨hs, hfollows, hstatus, hne, hhv⟩
    obtain ⟨g, hg⟩ := run_of_follows hs hfollows
    have hwithin : Within guest host snap s₀ _ := within_iterate (exits hs)
    rw [hg] at hstatus hhv
    dsimp only at hstatus hhv
    rwa [Within, hstatus, hhv, if_neg hne] at hwithin
  tfae_finish

end Program

end MinBp
