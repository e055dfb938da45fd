import FfbInterceptor.Server.Lifecycle

/-! What the pipe server guarantees over any interleaving of its callers and workers: the invariant,
what each step keeps of it, the runs in which it holds throughout, and one run in which it is lost. -/
namespace FfbInterceptor.Server.Lifecycle
open FfbInterceptor.Library

namespace State

/-- The accept worker has been started and has not ended. -/
def Alive (s : State) (start : Nat) : Prop :=
  ∃ place, s.acceptors[start]? = some place ∧ place ≠ .finished

/-- The client worker has not deregistered; only then it calls back. -/
def Active (s : State) (number start : Nat) : Prop :=
  ∃ place, s.workers[number]? = some ⟨start, place⟩ ∧ place ≠ .deregistered ∧ place ≠ .finished

/-- Nothing is left of the first starts: no accept worker, and no client worker that may call back. -/
structure Over (s : State) (since : Nat) : Prop where
  started : since ≤ s.acceptors.length
  acceptors : ∀ start < since, ¬s.Alive start
  workers : ∀ number, ∀ start < since, ¬s.Active number start

structure Down (s : State) : Prop where
  running : s.running = false
  acceptors : ∀ start, ¬s.Alive start

end State

/-- What a call that has returned normally has ended. -/
def Call.ended (call : Call) : Option Nat :=
  match call.progress with
  | .signalling since => some since
  | .returned since => since
  | _ => none

/-- What the life of the server is to guarantee. -/
structure Safe (s : State) : Prop where
  freed_once : s.freed.Nodup
  freed_late : ∀ start ∈ s.freed, ¬s.Alive start
  pipes : ∀ pipe ∈ s.pipes, pipe.descriptor = some pipe.start ∧ pipe.freed = false
  clients : s.clients.length ≤ maximumClients
  stopped : ∀ call ∈ s.calls, ∀ since, call.ended = some since → s.Over since
  disposed : ∀ call ∈ s.calls, call.disposing = true → ∀ since, call.progress = .returned since → s.Down

structure Core (s : State) : Prop where
  acceptor : ∀ start, s.Alive start → s.acceptThread = some start ∧ s.securityDescriptor = some start
  descriptor : ∀ start, s.securityDescriptor = some start → start ∉ s.freed ∧ start < s.acceptors.length
  freed : ∀ start ∈ s.freed, start < s.acceptors.length
  freed_once : s.freed.Nodup
  pipes : ∀ pipe ∈ s.pipes, pipe.descriptor = some pipe.start ∧ pipe.freed = false
  registered : ∀ number start, s.Active number start → number ∈ s.clientThreads
  clients : s.clients = s.clientThreads
  bound : s.clients.length ≤ maximumClients

def CallSound (s : State) (call : Call) : Prop :=
  match call.progress with
  | .exchanged | .thrown => True
  | .checked => call.disposing = false
  | .stopping joins stopped since => stopped = true → s.running = false ∧
      since ≤ s.acceptors.length ∧ ∀ worker ∈ s.owned, worker ∈ joins ∨ s.dead worker = true
  | .signalling since => s.Over since ∧ s.Down
  | .returned since =>
      (∀ n, since = some n → s.Over n) ∧ (call.disposing = true → s.Down)

structure Sound (s : State) : Prop where
  core : Core s
  calls : ∀ call ∈ s.calls, CallSound s call

/-- A change without a start: workers only go on or end, and none of a stopped server is added. -/
structure Calms (s s' : State) : Prop where
  running : s.running = false → s'.running = false
  started : s.acceptors.length ≤ s'.acceptors.length
  alive : ∀ start, s'.Alive start → s.Alive start
  owned : s.running = false → ∀ worker ∈ s'.owned, worker ∈ s.owned
  dead : ∀ worker, s.dead worker = true → s'.dead worker = true
  active : ∀ number start, s'.Active number start → s.Active number start ∨ s.Alive start

variable {s s' s'' : State} {call : Call}

theorem Calms.refl (s : State) : Calms s s :=
  ⟨id, Nat.le_refl _, fun _ => id, fun _ _ => id, fun _ => id, fun _ _ => Or.inl⟩

theorem Calms.trans (h : Calms s s') (h' : Calms s' s'') : Calms s s'' where
  running hrun := h'.running (h.running hrun)
  started := Nat.le_trans h.started h'.started
  alive start halive := h.alive start (h'.alive start halive)
  owned hrun worker hmem := h.owned hrun worker (h'.owned (h.running hrun) worker hmem)
  dead worker hdead := h'.dead worker (h.dead worker hdead)
  active number start hactive := by
    cases h'.active number start hactive with
    | inl hbefore => exact h.active number start hbefore
    | inr halive => exact Or.inr (h.alive start halive)

theorem State.Over.mono {since : Nat} (h : s.Over since) (hcalms : Calms s s') : s'.Over since where
  started := Nat.le_trans h.started hcalms.started
  acceptors start hstart halive := h.acceptors start hstart (hcalms.alive start halive)
  workers number start hstart hactive := by
    cases hcalms.active number start hactive with
    | inl hbefore => exact h.workers number start hstart hbefore
    | inr halive => exact h.acceptors start hstart halive

theorem State.Down.mono (h : s.Down) (hcalms : Calms s s') : s'.Down :=
  ⟨hcalms.running h.running, fun start halive => h.acceptors start (hcalms.alive start halive)⟩

theorem CallSound.mono (h : CallSound s call) (hcalms : Calms s s') : CallSound s' call := by
  obtain ⟨thread, disposing, progress⟩ := call
  cases progress with
  | checked => exact h
  | thrown => trivial
  | exchanged => trivial
  | stopping joins stopped since =>
    intro hstopped
    obtain ⟨hrunning, hsince, hjoins⟩ := h hstopped
    refine ⟨hcalms.running hrunning, Nat.le_trans hsince hcalms.started, fun worker hmem => ?_⟩
    exact (hjoins worker (hcalms.owned hrunning worker hmem)).imp id (hcalms.dead worker)
  | signalling since => exact ⟨h.1.mono hcalms, h.2.mono hcalms⟩
  | returned since =>
    exact ⟨fun n hn => (h.1 n hn).mono hcalms, fun hdisposing => (h.2 hdisposing).mono hcalms⟩

theorem Sound.safe (h : Sound s) : Safe s where
  freed_once := h.core.freed_once
  freed_late start hmem halive :=
    (h.core.descriptor start (h.core.acceptor start halive).2).1 hmem
  pipes := h.core.pipes
  clients := h.core.bound
  stopped call hmem since hended := by
    have hcall := h.calls call hmem
    obtain ⟨thread, disposing, progress⟩ := call
    cases progress with
    | signalling n => exact Option.some.inj hended ▸ hcall.1
    | returned n => exact hcall.1 since hended
    | checked => cases hended
    | exchanged => cases hended
    | stopping joins stopped n => cases hended
    | thrown => cases hended
  disposed call hmem hdisposing since hreturned := by
    have hcall := h.calls call hmem
    rw [CallSound, hreturned] at hcall
    exact hcall.2 hdisposing

section Calls

theorem Core.calls (h : Core s) (calls : List Call) : Core { s with calls := calls } :=
  ⟨h.acceptor, h.descriptor, h.freed, h.freed_once, h.pipes, h.registered, h.clients, h.bound⟩

theorem calms_calls (s : State) (calls : List Call) : Calms s { s with calls := calls } :=
  ⟨id, Nat.le_refl _, fun _ => id, fun _ _ => id, fun _ => id, fun _ _ => Or.inl⟩

theorem Sound.next (h : Sound s) (hcore : Core s') (hcalms : Calms s s') {calls : List Call}
    (hcalls : ∀ call ∈ calls, call ∈ s.calls ∨ CallSound s' call) :
    Sound { s' with calls := calls } := by
  refine ⟨hcore.calls calls, fun call hmem => ?_⟩
  cases hcalls call hmem with
  | inl hold => exact ((h.calls call hold).mono hcalms).mono (calms_calls s' calls)
  | inr hnew => exact hnew.mono (calms_calls s' calls)

theorem Sound.enter (h : Sound s) {thread : Option Worker} {disposing : Bool}
    {first : Call → State × Progress}
    (hfirst : ∀ call, call.thread = thread → call.disposing = disposing → call.progress = .checked →
      Core (first call).1 ∧ Calms s (first call).1 ∧ (first call).1.calls = s.calls ∧
        CallSound (first call).1 { call with progress := (first call).2 }) :
    Sound (enter s thread disposing first) := by
  rw [Lifecycle.enter]
  split
  · obtain ⟨hcore, hcalms, hcalls, hnew⟩ := hfirst ⟨thread, disposing, .checked⟩ rfl rfl rfl
    apply h.next hcore hcalms
    intro call hmem
    rw [hcalls] at hmem
    cases List.mem_append.mp hmem with
    | inl hold => exact Or.inl hold
    | inr hlast =>
      rw [List.mem_singleton.mp hlast]
      exact Or.inr hnew
  · exact h

theorem Sound.proceed (h : Sound s) {i : Nat} {next : Call → Option (State × Progress)}
    (hnext : ∀ call ∈ s.calls, ∀ s' progress, next call = some (s', progress) → CallSound s call →
      Core s' ∧ Calms s s' ∧ s'.calls = s.calls ∧ CallSound s' { call with progress := progress }) :
    Sound (proceed s i next) := by
  rw [Lifecycle.proceed]
  split
  · exact h
  · next call hcall =>
    have hmem := List.mem_of_getElem? hcall
    split
    · exact h
    · next s' progress hsome =>
      obtain ⟨hcore, hcalms, hcalls, hnew⟩ := hnext call hmem s' progress hsome (h.calls call hmem)
      apply h.next hcore hcalms
      intro call' hmem'
      rw [hcalls] at hmem'
      cases List.mem_or_eq_of_mem_set hmem' with
      | inl hold => exact Or.inl hold
      | inr heq => exact Or.inr (heq ▸ hnew)

end Calls

section Sections

theorem freeSecurityDescriptor_cases (s : State) :
    s.securityDescriptor = none ∧ s.freeSecurityDescriptor = s ∨
      ∃ descriptor, s.securityDescriptor = some descriptor ∧ s.freeSecurityDescriptor =
        { s with freed := s.freed ++ [descriptor], securityDescriptor := none } := by
  unfold State.freeSecurityDescriptor
  split
  · next hnone => exact Or.inl ⟨hnone, rfl⟩
  · next descriptor hsome => exact Or.inr ⟨descriptor, hsome, rfl⟩

theorem calms_free (s : State) : Calms s s.freeSecurityDescriptor := by
  obtain ⟨-, hsame⟩ | ⟨descriptor, -, hfree⟩ := freeSecurityDescriptor_cases s
  · rw [hsame]
    exact Calms.refl s
  · rw [hfree]
    exact ⟨id, Nat.le_refl _, fun _ => id, fun _ _ => id, fun _ => id, fun _ _ => Or.inl⟩

theorem Core.free (h : Core s) (hnone : ∀ start, ¬s.Alive start) : Core s.freeSecurityDescriptor := by
  obtain ⟨-, hsame⟩ | ⟨descriptor, hsome, hfree⟩ := freeSecurityDescriptor_cases s
  · rw [hsame]
    exact h
  · obtain ⟨hfresh, hlt⟩ := h.descriptor descriptor hsome
    rw [hfree]
    exact {
      acceptor := fun start halive => (hnone start halive).elim
      descriptor := fun start hsome' => by cases hsome'
      freed := by
        intro start hmem
        cases List.mem_append.mp hmem with
        | inl hold => exact h.freed start hold
        | inr hlast => exact List.mem_singleton.mp hlast ▸ hlt
      freed_once := by
        apply List.nodup_append.mpr
        refine ⟨h.freed_once, List.nodup_singleton _, fun start hmem other hother heq => ?_⟩
        rw [List.mem_singleton.mp hother] at heq
        exact hfresh (heq ▸ hmem)
      pipes := h.pipes
      registered := h.registered
      clients := h.clients
      bound := h.bound }

theorem calls_free (s : State) : s.freeSecurityDescriptor.calls = s.calls := by
  obtain ⟨-, hsame⟩ | ⟨descriptor, -, hfree⟩ := freeSecurityDescriptor_cases s
  · rw [hsame]
  · rw [hfree]

theorem idle_iff (s : State) :
    s.idle = true ↔ s.running = false ∧ s.acceptThread = none ∧ s.clientThreads = [] := by
  simp [State.idle, and_assoc]

theorem Core.none_alive (h : Core s) (hthread : s.acceptThread = none) (start : Nat) :
    ¬s.Alive start := by
  intro halive
  have hsome := (h.acceptor start halive).1
  rw [hthread] at hsome
  cases hsome

theorem Core.over (h : Core s) (hdead : ∀ worker ∈ s.owned, s.dead worker = true) {since : Nat}
    (hsince : since ≤ s.acceptors.length) : s.Over since ∧ ∀ start, ¬s.Alive start := by
  have hnone : ∀ start, ¬s.Alive start := by
    intro start halive
    have hthread := (h.acceptor start halive).1
    have hends := hdead (.acceptor start) (by simp [State.owned, hthread])
    obtain ⟨place, hplace, hne⟩ := halive
    simp only [State.dead, decide_eq_true_eq, hplace] at hends
    exact hne (Option.some.inj hends)
  refine ⟨⟨hsince, fun start _ => hnone start, fun number start _ hactive => ?_⟩, hnone⟩
  have hmem := h.registered number start hactive
  have hends := hdead (.client number) (by simp [State.owned, hmem])
  obtain ⟨place, hplace, -, hne⟩ := hactive
  simp only [State.dead, decide_eq_true_eq, hplace] at hends
  exact hne (Option.some.inj hends)

theorem Core.idle (h : Core s) (hidle : s.idle = true) :
    s.Over s.acceptors.length ∧ s.Down := by
  obtain ⟨hrunning, hthread, hclients⟩ := (idle_iff s).mp hidle
  have hdead : ∀ worker ∈ s.owned, s.dead worker = true := by
    intro worker hmem
    rw [State.owned, hthread, hclients] at hmem
    cases hmem
  obtain ⟨hover, hnone⟩ := h.over hdead (Nat.le_refl _)
  exact ⟨hover, hrunning, hnone⟩

theorem callSound_stopped {since : Nat} (hover : s.Over since) (hdown : s.Down) :
    CallSound s { call with progress := call.stopped since } := by
  unfold Call.stopped
  split
  · exact ⟨hover, hdown⟩
  · exact ⟨fun n hn => Option.some.inj hn ▸ hover, fun _ => hdown⟩

theorem stopLocked_sound (h : Core s) :
    Core (stopLocked s call).1 ∧ Calms s (stopLocked s call).1 ∧
      (stopLocked s call).1.calls = s.calls ∧
      CallSound (stopLocked s call).1 { call with progress := (stopLocked s call).2 } := by
  unfold stopLocked
  split
  · next hidle =>
    obtain ⟨hover, hdown⟩ := h.idle hidle
    have hcalms := calms_free s
    refine ⟨h.free hdown.acceptors, hcalms, calls_free s, ?_⟩
    exact callSound_stopped (hover.mono hcalms) (hdown.mono hcalms)
  · have hcore : Core { s with running := false } :=
      ⟨h.acceptor, h.descriptor, h.freed, h.freed_once, h.pipes, h.registered, h.clients, h.bound⟩
    have hcalms : Calms s { s with running := false } :=
      ⟨fun _ => rfl, Nat.le_refl _, fun _ => id, fun _ _ => id, fun _ => id, fun _ _ => Or.inl⟩
    split
    · exact ⟨hcore, hcalms, rfl, trivial⟩
    · exact ⟨hcore, hcalms, rfl, fun _ => ⟨rfl, Nat.le_refl _, fun worker hmem => Or.inl hmem⟩⟩

/-- A join that returns true has seen the end of the worker. -/
theorem join_sound {worker : Worker} {joins : List Worker} {stopped : Bool} {since : Nat}
    (hprogress : call.progress = .stopping (worker :: joins) stopped since) (hcall : CallSound s call) :
    CallSound s { call with
      progress := .stopping joins (joinBeforeDeadline s call worker && stopped) since } := by
  rw [CallSound, hprogress] at hcall
  intro hboth
  obtain ⟨hjoin, hstopped⟩ := Bool.and_eq_true_iff.mp hboth
  obtain ⟨hrunning, hsince, hjoins⟩ := hcall hstopped
  refine ⟨hrunning, hsince, fun other hmem => ?_⟩
  cases hjoins other hmem with
  | inr hdead => exact Or.inr hdead
  | inl hlisted =>
    cases List.mem_cons.mp hlisted with
    | inr hrest => exact Or.inl hrest
    | inl heq =>
      subst heq
      unfold joinBeforeDeadline at hjoin
      split at hjoin
      · cases hjoin
      · exact Or.inr hjoin

theorem stopEnds_sound {stopped : Bool} {since : Nat} (h : Core s)
    (hprogress : call.progress = .stopping [] stopped since) (hcall : CallSound s call) :
    Core (stopEnds s call stopped since).1 ∧ Calms s (stopEnds s call stopped since).1 ∧
      (stopEnds s call stopped since).1.calls = s.calls ∧
      CallSound (stopEnds s call stopped since).1
        { call with progress := (stopEnds s call stopped since).2 } := by
  rw [CallSound, hprogress] at hcall
  unfold stopEnds
  split
  · next hstopped =>
    obtain ⟨hrunning, hsince, hjoins⟩ := hcall hstopped
    have hdead : ∀ worker ∈ s.owned, s.dead worker = true := fun worker hmem =>
      (hjoins worker hmem).resolve_left List.not_mem_nil
    obtain ⟨hover, hnone⟩ := h.over hdead hsince
    have hcore : Core { s with acceptThread := none, clients := [], clientThreads := [] } := by
      exact {
        acceptor := fun start halive => (hnone start halive).elim
        descriptor := h.descriptor
        freed := h.freed
        freed_once := h.freed_once
        pipes := h.pipes
        registered := by
          intro number start hactive
          have hmem := h.registered number start hactive
          have hends := hdead (.client number) (by simp [State.owned, hmem])
          obtain ⟨place, hplace, -, hne⟩ := hactive
          have hplace' : s.workers[number]? = some ⟨start, place⟩ := hplace
          simp only [State.dead, decide_eq_true_eq, hplace'] at hends
          exact (hne (Option.some.inj hends)).elim
        clients := rfl
        bound := Nat.zero_le _ }
    have hcalms : Calms s { s with acceptThread := none, clients := [], clientThreads := [] } :=
      ⟨id, Nat.le_refl _, fun _ => id, fun _ worker hmem => by simp [State.owned] at hmem,
        fun _ => id, fun _ _ => Or.inl⟩
    have hall := hcalms.trans (calms_free _)
    refine ⟨hcore.free hnone, hall, calls_free _, ?_⟩
    exact callSound_stopped (hover.mono hall) (State.Down.mono ⟨hrunning, hnone⟩ hall)
  · exact ⟨h, Calms.refl s, rfl, trivial⟩

/-- A number that a start leaves unused: its accept worker counts as ended. -/
theorem calms_unused (s : State) (descriptor : Option Nat) :
    Calms s { s with securityDescriptor := descriptor, acceptors := s.acceptors ++ [.finished] } where
  running := id
  started := by simp
  alive start halive := by
    obtain ⟨place, hplace, hne⟩ := halive
    have hplace' : (s.acceptors ++ [Accepting.finished])[start]? = some place := hplace
    rw [List.getElem?_append] at hplace'
    split at hplace'
    · exact ⟨place, hplace', hne⟩
    · exact (hne (List.mem_singleton.mp (List.mem_of_getElem? hplace'))).elim
  owned _ _ := id
  dead worker hdead := by
    cases worker with
    | client number => exact hdead
    | acceptor start =>
      simp only [State.dead, decide_eq_true_eq] at hdead ⊢
      rw [List.getElem?_append_left (List.getElem?_eq_some_iff.mp hdead).1]
      exact hdead
  active _ _ := Or.inl

theorem Core.unused (h : Core s) (hnone : ∀ start, ¬s.Alive start) :
    Core { s with
      securityDescriptor := some s.acceptors.length, acceptors := s.acceptors ++ [.finished] } where
  acceptor start halive := (hnone start ((calms_unused s _).alive start halive)).elim
  descriptor start hsome := by
    obtain rfl := Option.some.inj hsome
    refine ⟨fun hmem => Nat.lt_irrefl _ (h.freed _ hmem), ?_⟩
    simp
  freed start hmem := by
    have hlt := h.freed start hmem
    simp only [List.length_append, List.length_singleton]
    omega
  freed_once := h.freed_once
  pipes := h.pipes
  registered := h.registered
  clients := h.clients
  bound := h.bound

theorem startLocked_calm {outcome : StartOutcome} (h : Core s)
    (hfails : ¬(s.idle = true ∧ s.signalDisposed = false ∧ outcome = .succeeds)) :
    Core (startLocked s outcome).1 ∧ Calms s (startLocked s outcome).1 ∧
      (startLocked s outcome).1.calls = s.calls ∧
      ((startLocked s outcome).2 = .returned none ∨ (startLocked s outcome).2 = .thrown) := by
  unfold startLocked
  split
  · exact ⟨h, Calms.refl s, rfl, Or.inl rfl⟩
  · split
    · exact ⟨h, Calms.refl s, rfl, Or.inr rfl⟩
    · next hbusy =>
      have hidle : s.idle = true := by simpa using hbusy
      have hdown := (h.idle hidle).2
      have hunused := h.unused hdown.acceptors
      have hcalms := calms_unused s (some s.acceptors.length)
      split
      · exact ⟨h, Calms.refl s, rfl, Or.inr rfl⟩
      · next hdescriptor =>
        dsimp only
        split
        · exact ⟨hunused, hcalms, rfl, Or.inr rfl⟩
        · next hsignal =>
          split
          · refine ⟨hunused.free ?_, hcalms.trans (calms_free _), calls_free _, Or.inr rfl⟩
            exact fun start halive => hdown.acceptors start (hcalms.alive start halive)
          · next hthread =>
            refine (hfails ⟨hidle, Bool.eq_false_iff.mpr hsignal, ?_⟩).elim
            cases outcome with
            | succeeds => rfl
            | noDescriptor => exact (hdescriptor rfl).elim
            | noThread => exact (hthread rfl).elim

def started (s : State) : State :=
  { s with
    securityDescriptor := some s.acceptors.length
    running := true
    acceptThread := some s.acceptors.length
    acceptors := s.acceptors ++ [.checking] }

theorem startLocked_succeeds (hidle : s.idle = true) (hsignal : s.signalDisposed = false) :
    startLocked s .succeeds = (started s, .returned none) := by
  have hrunning := ((idle_iff s).mp hidle).1
  simp [startLocked, hidle, hsignal, hrunning, started]

theorem alive_started {start : Nat} (h : (started s).Alive start) :
    s.Alive start ∨ start = s.acceptors.length := by
  obtain ⟨place, hplace, hne⟩ := h
  have hplace' : (s.acceptors ++ [Accepting.checking])[start]? = some place := hplace
  rw [List.getElem?_append] at hplace'
  split at hplace'
  · exact Or.inl ⟨place, hplace', hne⟩
  · have hlt := (List.getElem?_eq_some_iff.mp hplace').1
    rw [List.length_singleton] at hlt
    exact Or.inr (by omega)

/-- The one worker after a start is the new accept worker. -/
theorem Core.started (h : Core s) (hidle : s.idle = true) : Core (started s) where
  acceptor start halive := by
    cases alive_started halive with
    | inl hold => exact ((h.idle hidle).2.acceptors start hold).elim
    | inr heq => exact heq ▸ ⟨rfl, rfl⟩
  descriptor start hsome := by
    obtain rfl := Option.some.inj hsome
    refine ⟨fun hmem => Nat.lt_irrefl _ (h.freed _ hmem), ?_⟩
    simp [Lifecycle.started]
  freed start hmem := by
    have hlt := h.freed start hmem
    simp only [Lifecycle.started, List.length_append, List.length_singleton]
    omega
  freed_once := h.freed_once
  pipes := h.pipes
  registered := h.registered
  clients := h.clients
  bound := h.bound

theorem State.Over.after_start {since : Nat} (h : s.Over since) :
    (Lifecycle.started s).Over since where
  started := by
    have hle := h.started
    simp only [Lifecycle.started, List.length_append, List.length_singleton]
    omega
  acceptors start hstart halive := by
    have hle := h.started
    cases alive_started halive with
    | inl hold => exact h.acceptors start hstart hold
    | inr heq => omega
  workers := h.workers

/-- A start would disturb the call: a `Stop` between its locked sections, or a `Dispose` at its end. -/
def Call.exposed (call : Call) : Bool :=
  match call.progress with
  | .stopping _ stopped _ => stopped
  | .signalling _ => true
  | .returned _ => call.disposing
  | _ => false

theorem CallSound.started (h : CallSound s call) (hexposed : call.exposed = false) :
    CallSound (started s) call := by
  obtain ⟨thread, disposing, progress⟩ := call
  cases progress with
  | checked => exact h
  | thrown => trivial
  | exchanged => trivial
  | stopping joins stopped since =>
    intro hstopped
    exact (Bool.eq_false_iff.mp hexposed hstopped).elim
  | signalling since => cases hexposed
  | returned since =>
    exact ⟨fun n hn => (h.1 n hn).after_start,
      fun hdisposing => (Bool.eq_false_iff.mp hexposed hdisposing).elim⟩

end Sections

section Workers

theorem calms_setAcceptor {start : Nat} (halive : s.Alive start) (place : Accepting) :
    Calms s (s.setAcceptor start place) where
  running := id
  started := by simp [State.setAcceptor]
  alive other hother := by
    by_cases heq : start = other
    · exact heq ▸ halive
    · obtain ⟨place', hplace, hne⟩ := hother
      exact ⟨place', by rwa [State.setAcceptor, List.getElem?_set_ne heq] at hplace, hne⟩
  owned _ _ := id
  dead worker hdead := by
    cases worker with
    | client number => exact hdead
    | acceptor other =>
      simp only [State.dead, decide_eq_true_eq] at hdead ⊢
      have hne : start ≠ other := by
        rintro rfl
        obtain ⟨place', hplace, hne⟩ := halive
        exact hne (Option.some.inj (hplace.symm.trans hdead))
      rw [State.setAcceptor, List.getElem?_set_ne hne]
      exact hdead
  active _ _ := Or.inl

theorem Core.setAcceptor (h : Core s) {start : Nat} (halive : s.Alive start) (place : Accepting) :
    Core (s.setAcceptor start place) where
  acceptor other hother := h.acceptor other ((calms_setAcceptor halive place).alive other hother)
  descriptor other hsome := by
    simpa [State.setAcceptor] using h.descriptor other hsome
  freed other hmem := by
    simpa [State.setAcceptor] using h.freed other hmem
  freed_once := h.freed_once
  pipes := h.pipes
  registered := h.registered
  clients := h.clients
  bound := h.bound

def Keeps (s s' : State) : Prop := Core s' ∧ Calms s s' ∧ s'.calls = s.calls

theorem Core.keeps (h : Core s) : Keeps s s := ⟨h, Calms.refl s, rfl⟩

theorem Core.keeps_setAcceptor (h : Core s) {start : Nat} (halive : s.Alive start)
    (place : Accepting) : Keeps s (s.setAcceptor start place) :=
  ⟨h.setAcceptor halive place, calms_setAcceptor halive place, rfl⟩

theorem Core.createPipeInstance (h : Core s) {start : Nat} (halive : s.Alive start) :
    Core (createPipeInstance s start) := by
  have hdescriptor := (h.acceptor start halive).2
  have hfresh := (h.descriptor start hdescriptor).1
  exact { h with
    pipes := by
      intro pipe hmem
      cases List.mem_append.mp hmem with
      | inl hold => exact h.pipes pipe hold
      | inr hlast =>
        rw [List.mem_singleton.mp hlast]
        exact ⟨hdescriptor, by simp [hdescriptor, hfresh]⟩ }

theorem calms_createPipeInstance (s : State) (start : Nat) : Calms s (createPipeInstance s start) :=
  ⟨id, Nat.le_refl _, fun _ => id, fun _ _ => id, fun _ => id, fun _ _ => Or.inl⟩

def registered (s : State) (start : Nat) : State :=
  { s with
    clients := s.clients ++ [s.workers.length]
    clientThreads := s.clientThreads ++ [s.workers.length]
    workers := s.workers ++ [⟨start, .serving⟩] }

theorem active_registered {start number start' : Nat} (h : (registered s start).Active number start') :
    s.Active number start' ∨ number = s.workers.length ∧ start' = start := by
  obtain ⟨place, hplace, hactive⟩ := h
  have hplace' : (s.workers ++ [(⟨start, .serving⟩ : Client)])[number]? = some ⟨start', place⟩ := hplace
  rw [List.getElem?_append] at hplace'
  split at hplace'
  · exact Or.inl ⟨place, hplace', hactive⟩
  · have hlt := (List.getElem?_eq_some_iff.mp hplace').1
    have hsame := List.mem_singleton.mp (List.mem_of_getElem? hplace')
    rw [List.length_singleton] at hlt
    exact Or.inr ⟨by omega, congrArg Client.start hsame⟩

theorem Core.register (h : Core s) (start : Nat) (hbound : s.clients.length < maximumClients) :
    Core (Lifecycle.registered s start) where
  acceptor := h.acceptor
  descriptor := h.descriptor
  freed := h.freed
  freed_once := h.freed_once
  pipes := h.pipes
  registered number start' hactive := by
    cases active_registered hactive with
    | inl hold => exact List.mem_append_left _ (h.registered number start' hold)
    | inr hnew => exact List.mem_append_right _ (List.mem_singleton.mpr hnew.1)
  clients := congrArg (· ++ [s.workers.length]) h.clients
  bound := by
    simp only [Lifecycle.registered, List.length_append, List.length_singleton]
    omega

theorem calms_registered {start : Nat} (halive : s.Alive start) (hrunning : s.running = true) :
    Calms s (registered s start) where
  running := id
  started := Nat.le_refl _
  alive _ := id
  owned hstopped := by
    rw [hrunning] at hstopped
    cases hstopped
  dead worker hdead := by
    cases worker with
    | acceptor other => exact hdead
    | client number =>
      simp only [State.dead, decide_eq_true_eq] at hdead ⊢
      obtain ⟨client, hclient, hplace⟩ := Option.map_eq_some_iff.mp hdead
      rw [registered, List.getElem?_append_left (List.getElem?_eq_some_iff.mp hclient).1]
      exact hdead
  active number start' hactive := by
    cases active_registered hactive with
    | inl hold => exact Or.inl hold
    | inr hnew => exact Or.inr (hnew.2 ▸ halive)

theorem keeps_register (h : Core s) {start : Nat} (halive : s.Alive start) (outcome : Outcome) :
    Keeps s (register s start outcome) := by
  unfold register
  split
  · exact h.keeps_setAcceptor halive _
  · next hopen =>
    simp only [Bool.or_eq_true, Bool.not_eq_true', decide_eq_true_eq, not_or, Bool.not_eq_false,
      Nat.not_le] at hopen
    split
    · have hcore := h.register start hopen.2
      have hcalms := calms_registered halive hopen.1
      have hlive : (registered s start).Alive start := halive
      exact ⟨hcore.setAcceptor hlive .passing, hcalms.trans (calms_setAcceptor hlive .passing), rfl⟩
    · exact h.keeps_setAcceptor halive _

theorem keeps_acceptStep (h : Core s) (start : Nat) (outcome : Outcome) :
    Keeps s (acceptStep s start outcome) := by
  unfold acceptStep
  cases hplace : s.acceptors[start]? with
  | none => exact h.keeps
  | some place =>
    have halive : place ≠ .finished → s.Alive start := fun hne => ⟨place, hplace, hne⟩
    cases place with
    | finished => exact h.keeps
    | creating =>
      have hlive := halive nofun
      dsimp only
      split
      · have hcreated : (createPipeInstance s start).Alive start := hlive
        have hcalms := calms_createPipeInstance s start
        exact ⟨(h.createPipeInstance hlive).setAcceptor hcreated .created,
          hcalms.trans (calms_setAcceptor hcreated .created), rfl⟩
      · exact h.keeps_setAcceptor hlive _
    | connected => exact keeps_register h (halive nofun) outcome
    | reporting =>
      dsimp only
      split
      · exact h.keeps
      · exact h.keeps_setAcceptor (halive nofun) _
    | checking => exact h.keeps_setAcceptor (halive nofun) _
    | created => exact h.keeps_setAcceptor (halive nofun) _
    | waiting => exact h.keeps_setAcceptor (halive nofun) _
    | failed => exact h.keeps_setAcceptor (halive nofun) _
    | passing => exact h.keeps_setAcceptor (halive nofun) _
    | leaving => exact h.keeps_setAcceptor (halive nofun) _

section Clients

variable {number start : Nat} {place place' : Serving} {clients threads : List Nat}

def served (s : State) (number : Nat) (client : Client) (clients threads : List Nat) : State :=
  { s with clients := clients, clientThreads := threads, workers := s.workers.set number client }

theorem active_served {other start' : Nat} (hclient : s.workers[number]? = some ⟨start, place⟩)
    (hactive : place' ≠ .deregistered → place' ≠ .finished → place ≠ .deregistered ∧ place ≠ .finished)
    (h : (served s number ⟨start, place'⟩ clients threads).Active other start') :
    s.Active other start' ∧
      (other = number → place' ≠ .deregistered ∧ place' ≠ .finished) := by
  obtain ⟨place'', hplace, hderegistered, hfinished⟩ := h
  by_cases heq : number = other
  · subst heq
    have hlt := (List.getElem?_eq_some_iff.mp hclient).1
    rw [served, List.getElem?_set_self hlt] at hplace
    obtain ⟨rfl, rfl⟩ := Client.mk.inj (Option.some.inj hplace)
    exact ⟨⟨place, hclient, hactive hderegistered hfinished⟩, fun _ => ⟨hderegistered, hfinished⟩⟩
  · rw [served, List.getElem?_set_ne heq] at hplace
    exact ⟨⟨place'', hplace, hderegistered, hfinished⟩, fun hsame => (heq hsame.symm).elim⟩

theorem keeps_served (h : Core s) (hclient : s.workers[number]? = some ⟨start, place⟩)
    (hplace : place ≠ .finished)
    (hactive : place' ≠ .deregistered → place' ≠ .finished → place ≠ .deregistered ∧ place ≠ .finished)
    (hsame : clients = threads) (hsub : threads.Sublist s.clientThreads)
    (hstays : ∀ other ∈ s.clientThreads,
      (other = number → place' ≠ .deregistered ∧ place' ≠ .finished) → other ∈ threads) :
    Keeps s (served s number ⟨start, place'⟩ clients threads) := by
  have hcore : Core (served s number ⟨start, place'⟩ clients threads) := by
    exact {
      acceptor := h.acceptor
      descriptor := h.descriptor
      freed := h.freed
      freed_once := h.freed_once
      pipes := h.pipes
      registered := by
        intro other start' hother
        obtain ⟨hbefore, hkept⟩ := active_served hclient hactive hother
        exact hstays other (h.registered other start' hbefore) hkept
      clients := hsame
      bound := by
        have hle := hsub.length_le
        have hbound := h.bound
        rw [h.clients] at hbound
        rw [served, hsame]
        exact Nat.le_trans hle hbound }
  refine ⟨hcore, ?_, rfl⟩
  exact {
    running := id
    started := Nat.le_refl _
    alive := fun _ => id
    owned := by
      intro _ worker hmem
      simp only [State.owned, served, List.mem_append, List.mem_map] at hmem ⊢
      exact hmem.imp id fun ⟨other, hother, heq⟩ => ⟨other, hsub.mem hother, heq⟩
    dead := by
      intro worker hdead
      cases worker with
      | acceptor other => exact hdead
      | client other =>
        simp only [State.dead, decide_eq_true_eq] at hdead ⊢
        by_cases heq : number = other
        · subst heq
          rw [hclient] at hdead
          exact (hplace (Option.some.inj hdead)).elim
        · rw [served, List.getElem?_set_ne heq]
          exact hdead
    active := fun other start' hother => Or.inl (active_served hclient hactive hother).1 }

theorem keeps_clientStep (h : Core s) (number : Nat) (callsBack : Bool) :
    Keeps s (clientStep s number callsBack) := by
  -- outside its deregistration a client worker leaves the registers as they are
  have hgoes : ∀ {start place} (place' : Serving), s.workers[number]? = some ⟨start, place⟩ →
      place ≠ .finished →
      (place' ≠ .deregistered → place' ≠ .finished → place ≠ .deregistered ∧ place ≠ .finished) →
      Keeps s (s.setWorker number ⟨start, place'⟩) := by
    intro start place place' hclient hplace hactive
    exact keeps_served h hclient hplace hactive h.clients (List.Sublist.refl _)
      fun other hmem _ => hmem
  unfold clientStep
  cases hclient : s.workers[number]? with
  | none => exact h.keeps
  | some client =>
    obtain ⟨start, place⟩ := client
    cases place with
    | serving => exact hgoes _ hclient nofun fun _ _ => ⟨nofun, nofun⟩
    | callingBack =>
      dsimp only
      split
      · exact h.keeps
      · exact hgoes _ hclient nofun fun _ _ => ⟨nofun, nofun⟩
    | deregistering =>
      refine keeps_served h hclient nofun (fun _ _ => ⟨nofun, nofun⟩)
        (congrArg (List.filter _) h.clients) List.filter_sublist ?_
      intro other hmem hkept
      refine List.mem_filter.mpr ⟨hmem, ?_⟩
      simp only [ne_eq, decide_not, Bool.not_eq_true', decide_eq_false_iff_not]
      exact fun heq => (hkept heq).1 rfl
    | deregistered => exact hgoes _ hclient nofun fun _ hfinished => (hfinished rfl).elim
    | finished => exact h.keeps

end Clients

theorem Sound.worker (h : Sound s) (hkeeps : Keeps s s') : Sound s' := by
  obtain ⟨hcore, hcalms, hcalls⟩ := hkeeps
  refine ⟨hcore, fun call hmem => ?_⟩
  rw [hcalls] at hmem
  exact (h.calls call hmem).mono hcalms

end Workers

section Runs

/-- A start that takes place disturbs no call. -/
def StartsOrderly (s : State) : Prop :=
  s.idle = true → s.signalDisposed = false → ∀ call ∈ s.calls, call.exposed = false

/-- A `Dispose` that finds the flag set finds the server stopped. -/
def DisposesOrderly (s : State) : Prop :=
  s.disposed = true → s.running = false ∧ s.acceptThread = none

/-- The order of calls that the code relies on without ensuring it. -/
def Orderly (s : State) : Action → Prop
  | .startLocked _ .succeeds => StartsOrderly s
  | .dispose _ => DisposesOrderly s
  | _ => True

instance (s : State) : Decidable (StartsOrderly s) :=
  inferInstanceAs (Decidable (s.idle = true → s.signalDisposed = false → _))

instance (s : State) : Decidable (DisposesOrderly s) :=
  inferInstanceAs (Decidable (s.disposed = true → _))

instance (s : State) (action : Action) : Decidable (Orderly s action) :=
  match action with
  | .startLocked _ .succeeds => inferInstanceAs (Decidable (StartsOrderly s))
  | .startLocked _ .noDescriptor | .startLocked _ .noThread => isTrue trivial
  | .dispose _ => inferInstanceAs (Decidable (DisposesOrderly s))
  | .start _ | .stop _ | .disposeStop _ | .join _ | .stopEnds _ | .disposeSignal _ => isTrue trivial
  | .accept _ _ | .client _ _ => isTrue trivial

theorem Sound.start (h : Sound s) (thread : Option Worker) : Sound (step s (.start thread)) := by
  rw [step]
  apply h.enter
  intro call _ hdisposing _
  refine ⟨h.core, Calms.refl s, rfl, ?_⟩
  dsimp only
  split
  · trivial
  · exact hdisposing

/-- The return of a `Start` promises nothing of a `Dispose`. -/
theorem callSound_start (h : CallSound s call) (hchecked : call.progress = .checked)
    {progress : Progress} (hprogress : progress = .returned none ∨ progress = .thrown) :
    CallSound s' { call with progress := progress } := by
  rw [CallSound, hchecked] at h
  cases hprogress with
  | inl hreturned =>
    subst hreturned
    refine ⟨nofun, fun hdisposing => ?_⟩
    have hyes : call.disposing = true := hdisposing
    rw [h] at hyes
    cases hyes
  | inr hthrown =>
    subst hthrown
    trivial

theorem Sound.startLocked (h : Sound s) (i : Nat) (outcome : StartOutcome)
    (horderly : Orderly s (.startLocked i outcome)) : Sound (step s (.startLocked i outcome)) := by
  by_cases hsucceeds : s.idle = true ∧ s.signalDisposed = false ∧ outcome = .succeeds
  · obtain ⟨hidle, hsignal, rfl⟩ := hsucceeds
    rw [step, Lifecycle.proceed]
    split
    · exact h
    · next call hcall =>
      split
      · exact h
      · next s' progress hsome =>
        split at hsome
        · next hchecked =>
          rw [startLocked_succeeds hidle hsignal] at hsome
          obtain ⟨rfl, rfl⟩ := Prod.mk.inj (Option.some.inj hsome)
          have hcore := h.core.started hidle
          refine ⟨hcore.calls _, fun call' hmem => ?_⟩
          refine CallSound.mono ?_ (calms_calls (started s) _)
          cases List.mem_or_eq_of_mem_set hmem with
          | inl hold => exact (h.calls call' hold).started (horderly hidle hsignal call' hold)
          | inr heq =>
            have hbefore := h.calls call (List.mem_of_getElem? hcall)
            exact heq ▸ callSound_start hbefore hchecked (Or.inl rfl)
        · cases hsome
  · rw [step]
    apply h.proceed
    intro call _ s' progress hsome hcall
    split at hsome
    · next hchecked =>
      obtain ⟨hcore, hcalms, hcalls, hprogress⟩ := startLocked_calm h.core hsucceeds
      obtain heq := Option.some.inj hsome
      rw [heq] at hcore hcalms hcalls hprogress
      exact ⟨hcore, hcalms, hcalls, callSound_start hcall hchecked hprogress⟩
    · cases hsome

theorem Sound.stop (h : Sound s) (thread : Option Worker) : Sound (step s (.stop thread)) := by
  rw [step]
  apply h.enter
  intro call _ _ _
  exact stopLocked_sound h.core

theorem Sound.dispose (h : Sound s) (thread : Option Worker) (horderly : DisposesOrderly s) :
    Sound (step s (.dispose thread)) := by
  rw [step]
  apply h.enter
  intro call _ _ _
  have hcore : Core { s with disposed := true } := { h.core with }
  have hcalms : Calms s { s with disposed := true } :=
    ⟨id, Nat.le_refl _, fun _ => id, fun _ _ => id, fun _ => id, fun _ _ => Or.inl⟩
  refine ⟨hcore, hcalms, rfl, ?_⟩
  dsimp only
  split
  · next hset =>
    obtain ⟨hrunning, hthread⟩ := horderly hset
    exact ⟨nofun, fun _ => ⟨hrunning, h.core.none_alive hthread⟩⟩
  · trivial

theorem Sound.disposeStop (h : Sound s) (i : Nat) : Sound (step s (.disposeStop i)) := by
  rw [step]
  apply h.proceed
  intro call _ s' progress hsome _
  split at hsome
  · have hstop : _ ∧ _ ∧ _ ∧ CallSound _ { call with progress := _ } := stopLocked_sound h.core
    rwa [Option.some.inj hsome] at hstop
  · cases hsome

theorem Sound.join (h : Sound s) (i : Nat) : Sound (step s (.join i)) := by
  rw [step]
  apply h.proceed
  intro call _ s' progress hsome hcall
  split at hsome
  · next worker joins stopped since hprogress =>
    obtain ⟨rfl, rfl⟩ := Prod.mk.inj (Option.some.inj hsome)
    exact ⟨h.core, Calms.refl s, rfl, join_sound hprogress hcall⟩
  · cases hsome

theorem Sound.stopEnds (h : Sound s) (i : Nat) : Sound (step s (.stopEnds i)) := by
  rw [step]
  apply h.proceed
  intro call _ s' progress hsome hcall
  split at hsome
  · next stopped since hprogress =>
    have hends := stopEnds_sound h.core hprogress hcall
    rwa [Option.some.inj hsome] at hends
  · cases hsome

theorem Sound.disposeSignal (h : Sound s) (i : Nat) : Sound (step s (.disposeSignal i)) := by
  rw [step]
  apply h.proceed
  intro call _ s' progress hsome hcall
  split at hsome
  · next since hprogress =>
    obtain ⟨rfl, rfl⟩ := Prod.mk.inj (Option.some.inj hsome)
    rw [CallSound, hprogress] at hcall
    obtain ⟨hover, hdown⟩ := hcall
    have hcore : Core { s with signalDisposed := true } := { h.core with }
    have hcalms : Calms s { s with signalDisposed := true } :=
      ⟨id, Nat.le_refl _, fun _ => id, fun _ _ => id, fun _ => id, fun _ _ => Or.inl⟩
    refine ⟨hcore, hcalms, rfl, fun n hn => ?_, fun _ => hdown.mono hcalms⟩
    exact Option.some.inj hn ▸ hover.mono hcalms
  · cases hsome

theorem Sound.after (h : Sound s) (action : Action) (horderly : Orderly s action) :
    Sound (step s action) := by
  cases action with
  | start thread => exact h.start thread
  | startLocked i outcome => exact h.startLocked i outcome horderly
  | stop thread => exact h.stop thread
  | dispose thread => exact h.dispose thread horderly
  | disposeStop i => exact h.disposeStop i
  | join i => exact h.join i
  | stopEnds i => exact h.stopEnds i
  | disposeSignal i => exact h.disposeSignal i
  | accept start outcome => exact h.worker (keeps_acceptStep h.core start outcome)
  | client number callsBack => exact h.worker (keeps_clientStep h.core number callsBack)

theorem sound_initial : Sound initial where
  core := {
    acceptor := fun _ ⟨_, hplace, _⟩ => by cases hplace
    descriptor := fun _ hsome => by cases hsome
    freed := fun _ hmem => by cases hmem
    freed_once := List.nodup_nil
    pipes := fun _ hmem => by cases hmem
    registered := fun _ _ ⟨_, hplace, _⟩ => by cases hplace
    clients := rfl
    bound := Nat.zero_le _ }
  calls _ hmem := by cases hmem

/-- In an orderly run the server is safe from its first state to its last. -/
theorem orderly_runs_safe {actions : List Action}
    (h : Runs.Throughout step Orderly initial actions) :
    ∀ before, before <+: actions → Safe (Runs.run step initial before) := by
  intro before hinitial
  have hsound := (h.initial hinitial).invariant (P := Sound)
    (fun s action horderly hs => hs.after action horderly) sound_initial
  exact hsound.safe

/-- A client calls `Stop` from its callback, which joins it in vain; then a `Stop` and a `Dispose`. -/
def served_run : List Action :=
  [.start none, .startLocked 0 .succeeds, .accept 0 .succeeds, .accept 0 .succeeds,
    .accept 0 .succeeds, .accept 0 .succeeds, .accept 0 .succeeds, .client 0 true,
    .stop (some (.client 0)), .accept 0 .succeeds, .accept 0 .succeeds, .join 1, .join 1, .stopEnds 1,
    .client 0 false, .client 0 false, .client 0 false, .client 0 false, .stop none, .join 2, .stopEnds 2,
    .dispose none, .disposeStop 3, .disposeSignal 3]

theorem served_run_safe : Safe (Runs.run step initial served_run) := by
  have horderly : Runs.Throughout step Orderly initial served_run := by decide +kernel
  exact orderly_runs_safe horderly served_run (List.prefix_refl _)

/-- Two `Stop`s of the first start, and a second start between their ends: the later end frees the
descriptor of the second start, whose accept worker then creates its pipe. -/
def overtakenStop : List Action :=
  [.start none, .startLocked 0 .succeeds, .stop none, .accept 0 .succeeds, .join 1, .stop none,
    .join 2, .stopEnds 2, .start none, .startLocked 3 .succeeds, .stopEnds 1,
    .accept 1 .succeeds, .accept 1 .succeeds]

theorem overtakenStop_unsafe : ¬Safe (Runs.run step initial overtakenStop) := by
  intro h
  have hpipe : ⟨1, none, false⟩ ∈ (Runs.run step initial overtakenStop).pipes := by decide
  cases (h.pipes _ hpipe).1

end Runs

end FfbInterceptor.Server.Lifecycle
