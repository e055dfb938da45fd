import FfbInterceptor.Telemetry.Sink

/-! What one sink owns and owes: its nodes among three owners, its events among four fates,
and the numbers it has put on its pipes. Each way the queue and its worker touch the sink
keeps this ledger; the worker's program is not looked at here. -/
namespace FfbInterceptor.Telemetry
variable {ε : Type}

def Node.sequence (n : Node ε) : Nat := n.event.sequence

def Frame.number? : Frame ε → Option Nat
  | .hello => none
  | .event e => some e.sequence
  | .dropNotice q _ => some q

def Sink.numbers (s : Sink ε) : List Nat := s.attempts.filterMap fun a => a.1.number?

/-- How many events numbered below `q` were emitted to the sink and not confirmed sent. -/
def Sink.unconfirmedBelow (s : Sink ε) (q : Nat) : Nat :=
  s.emitted.countP fun e =>
    e.sequence < q && !(s.confirmed.map Sequenced.sequence).contains e.sequence

@[simp] theorem attempts_write (s : Sink ε) (f : Frame ε) (r : IoResult) :
    (s.write f r).attempts = s.attempts ++ [(f, r)] := by
  simp [Sink.attempts, Sink.connections, Sink.write, PipeEntry.attempt?]

@[simp] theorem attempts_close (s : Sink ε) : s.close.attempts = s.attempts := by
  simp [Sink.attempts, Sink.connections, Sink.close]

theorem attempts_check (s : Sink ε) (d : Nat) :
    ({ s with pipe := s.pipe ++ [.check d] } : Sink ε).attempts = s.attempts := by
  simp [Sink.attempts, Sink.connections, PipeEntry.attempt?]

/-- The books of a sink whose worker holds `held`: every node has one place, every event one fate. -/
structure Books (held : List (Node ε)) (s : Sink ε) : Prop where
  nodes : ((s.free ++ s.pending ++ held).map Node.index).Perm (List.finRange kQueueCapacity)
  events : s.emitted.Perm (s.confirmed ++ s.lost ++ (s.pending ++ held).map Node.event)

/-- With its numbers, when `m_sequence` is `n` and has not wrapped. -/
structure Ledger (n : Nat) (held : List (Node ε)) (s : Sink ε) : Prop extends Books held s where
  counter : s.dropped = s.lost.length
  emitted_order : (s.emitted.map Sequenced.sequence).Pairwise (· < ·)
  emitted_range : ∀ e ∈ s.emitted, 0 < e.sequence ∧ e.sequence ≤ n
  pending_order : (s.pending.map Node.sequence).Pairwise (· > ·)
  held_before : ∀ h ∈ held, ∀ p ∈ s.pending, h.sequence < p.sequence
  numbers_order : s.numbers.Pairwise (· < ·)
  numbers_range : ∀ q ∈ s.numbers, 0 < q ∧ q ≤ n ∧ ∀ x ∈ s.pending ++ held, q < x.sequence
  notices_exact : ∀ m ∈ s.notices, m.2 = min (s.unconfirmedBelow m.1) UINT32_MAX
  notices_range : ∀ m ∈ s.notices, m.1 ≤ n ∧ ∀ x ∈ s.pending ++ held, m.1 < x.sequence
  notices_sent : ∀ q d r, (.dropNotice q d, r) ∈ s.attempts → (q, d) ∈ s.notices

section Frame
variable {n m : Nat} {held held' : List (Node ε)} {s s' : Sink ε}

theorem Books.congr (h : Books held s) (hf : s'.free = s.free) (hp : s'.pending = s.pending)
    (he : s'.emitted = s.emitted) (hl : s'.lost = s.lost) (ha : s'.attempts = s.attempts) :
    Books held s' := by
  have hc : s'.confirmed = s.confirmed := by simp only [Sink.confirmed, ha]
  constructor <;> simp only [hf, hp, he, hl, hc]
  · exact h.nodes
  · exact h.events

theorem Ledger.congr (h : Ledger n held s) (hf : s'.free = s.free) (hp : s'.pending = s.pending)
    (hd : s'.dropped = s.dropped) (he : s'.emitted = s.emitted) (hl : s'.lost = s.lost)
    (hn : s'.notices = s.notices) (ha : s'.attempts = s.attempts) : Ledger n held s' := by
  have hc : s'.confirmed = s.confirmed := by simp only [Sink.confirmed, ha]
  have hq : s'.numbers = s.numbers := by simp only [Sink.numbers, ha]
  have hu : s'.unconfirmedBelow = s.unconfirmedBelow := by
    funext q
    simp only [Sink.unconfirmedBelow, he, hc]
  obtain ⟨hbooks, h3, h4, h5, h6, h7, h8, h9, h10, h11, h12⟩ := h
  refine ⟨hbooks.congr hf hp he hl ha, ?_, ?_, ?_, ?_, ?_, ?_, ?_, ?_, ?_, ?_⟩ <;>
    simp only [hp, hd, he, hl, hn, ha, hq, hu] <;> assumption

theorem Ledger.mono (h : Ledger n held s) (hnm : n ≤ m) : Ledger m held s where
  __ := h
  emitted_range e he := ⟨(h.emitted_range e he).1, (h.emitted_range e he).2.trans hnm⟩
  numbers_range q hq :=
    let ⟨h0, hn, hx⟩ := h.numbers_range q hq
    ⟨h0, hn.trans hnm, hx⟩
  notices_range q hq := ⟨(h.notices_range q hq).1.trans hnm, (h.notices_range q hq).2⟩

theorem Books.reorder (h : Books held s) (hp : held.Perm held') : Books held' s where
  nodes := (((hp.append_left _).map _).symm).trans h.nodes
  events := h.events.trans (((hp.append_left _).map _).append_left _)

theorem Ledger.reorder (h : Ledger n held s) (hp : held.Perm held') : Ledger n held' s where
  __ := h.toBooks.reorder hp
  __ := h
  held_before x hx := h.held_before x (hp.mem_iff.mpr hx)
  numbers_range q hq :=
    let ⟨h0, hn, hx⟩ := h.numbers_range q hq
    ⟨h0, hn, fun x hm => hx x ((hp.append_left _).mem_iff.mpr hm)⟩
  notices_range q hq :=
    ⟨(h.notices_range q hq).1, fun x hm =>
      (h.notices_range q hq).2 x ((hp.append_left _).mem_iff.mpr hm)⟩

end Frame

section Counting
variable {n : Nat} {held : List (Node ε)} {s : Sink ε}

theorem unconfirmedBelow_enqueued {t : Sink ε} {e : Sequenced ε}
    (he : t.emitted = s.emitted ++ [e]) (hc : t.confirmed = s.confirmed) {q : Nat}
    (hq : q ≤ e.sequence) : t.unconfirmedBelow q = s.unconfirmedBelow q := by
  have hlt : ¬ e.sequence < q := by omega
  simp [Sink.unconfirmedBelow, he, hc, List.countP_append, hlt]

theorem unconfirmedBelow_confirmed {t : Sink ε} {e : Sequenced ε}
    (he : t.emitted = s.emitted) (hc : t.confirmed = s.confirmed ++ [e]) {q : Nat}
    (hq : q < e.sequence) : t.unconfirmedBelow q = s.unconfirmedBelow q := by
  simp only [Sink.unconfirmedBelow, he, hc]
  apply List.countP_congr
  intro x _
  by_cases hx : x.sequence < q
  · have hne : x.sequence ≠ e.sequence := by omega
    simp [hx, hne]
  · simp [hx]

theorem Ledger.fates_nodup (h : Ledger n held s) :
    ((s.confirmed ++ s.lost ++ (s.pending ++ held).map Node.event).map
      Sequenced.sequence).Nodup := by
  have hn : (s.emitted.map Sequenced.sequence).Nodup := h.emitted_order.imp fun hab => hab.ne
  exact (h.events.map _).nodup_iff.mp hn

theorem Ledger.unconfirmed_eq (h : Ledger n [] s) (hp : s.pending = []) {q : Nat} (hq : n < q) :
    s.unconfirmedBelow q = s.dropped := by
  have hev := h.events
  have hnd := h.fates_nodup
  simp only [hp, List.append_nil, List.map_nil] at hev hnd
  rw [List.map_append, List.nodup_append] at hnd
  have hbelow : ∀ e ∈ s.confirmed ++ s.lost, e.sequence < q := fun e he =>
    lt_of_le_of_lt (h.emitted_range e (hev.mem_iff.mpr he)).2 hq
  rw [Sink.unconfirmedBelow, hev.countP_eq, List.countP_append]
  have hconf : s.confirmed.countP (fun e => decide (e.sequence < q) &&
      !(s.confirmed.map Sequenced.sequence).contains e.sequence) = 0 := by
    rw [List.countP_eq_zero]
    intro e he
    have hm : e.sequence ∈ s.confirmed.map Sequenced.sequence := List.mem_map_of_mem he
    simp [hm]
  have hlost : s.lost.countP (fun e => decide (e.sequence < q) &&
      !(s.confirmed.map Sequenced.sequence).contains e.sequence) = s.lost.length := by
    rw [List.countP_eq_length]
    intro e he
    have hm : e.sequence ∉ s.confirmed.map Sequenced.sequence := fun hc =>
      hnd.2.2 _ hc _ (List.mem_map_of_mem he) rfl
    have hlt := hbelow e (List.mem_append_right _ he)
    simp only [hlt, decide_true, Bool.true_and, Bool.not_eq_true', Bool.eq_false_iff, ne_eq,
      List.contains_iff_mem]
    exact hm
  rw [hconf, hlost, h.counter, Nat.zero_add]

theorem Ledger.emitted_length (h : Ledger n held s) : s.emitted.length ≤ n := by
  have hnodup : (s.emitted.map Sequenced.sequence).Nodup :=
    h.emitted_order.imp fun hab => hab.ne
  have hsub : s.emitted.map Sequenced.sequence ⊆ List.range' 1 n := by
    intro q hq
    obtain ⟨e, he, rfl⟩ := List.mem_map.mp hq
    have hrange := h.emitted_range e he
    simp only [List.mem_range'_1]
    omega
  have hle := (List.subperm_of_subset hnodup hsub).length_le
  simpa only [List.length_map, List.length_range'] using hle

theorem Ledger.lost_length (h : Ledger n held s) : s.lost.length + held.length ≤ n := by
  have hl := h.events.length_eq
  have hle := h.emitted_length
  simp only [List.length_append, List.length_map] at hl
  omega

theorem Books.node_count (h : Books held s) :
    s.free.length + s.pending.length + held.length = kQueueCapacity := by
  have hl := h.nodes.length_eq
  simpa only [List.length_map, List.length_append, List.length_finRange] using hl

end Counting

section Moves
variable {n : Nat} {held : List (Node ε)} {x : Node ε} {s : Sink ε}

theorem Books.flush (h : Books [] s) : Books s.pending { s with pending := [] } where
  nodes := by simpa using h.nodes
  events := by
    have hev := h.events
    simp only [List.append_nil] at hev
    exact hev

theorem Ledger.flush (h : Ledger n [] s) : Ledger n s.pending { s with pending := [] } where
  __ := h.toBooks.flush
  counter := h.counter
  emitted_order := h.emitted_order
  emitted_range := h.emitted_range
  pending_order := List.Pairwise.nil
  held_before := by simp
  numbers_order := h.numbers_order
  numbers_range := by
    have hr := h.numbers_range
    simp only [List.append_nil] at hr
    exact hr
  notices_exact := h.notices_exact
  notices_range := by simpa using h.notices_range
  notices_sent := h.notices_sent

theorem Books.drop (h : Books (x :: held) s) : Books held (s.drop x) where
  nodes := by
    refine List.Perm.trans (List.Perm.map _ ?_) h.nodes
    have hmid : (s.free ++ s.pending ++ x :: held).Perm (x :: (s.free ++ s.pending ++ held)) :=
      List.perm_middle
    simpa [Sink.drop, Sink.push] using hmid.symm
  events := by
    refine h.events.trans ?_
    simp only [Sink.drop, Sink.push, List.append_assoc, List.map_append, List.map_cons]
    refine List.Perm.append_left _ (List.Perm.append_left _ ?_)
    simp

theorem Ledger.drop (h : Ledger n (x :: held) s) (hn : n < 2 ^ 64) : Ledger n held (s.drop x) where
  __ := h.toBooks.drop
  counter := by
    have hlost := h.lost_length
    rw [List.length_cons] at hlost
    simp only [Sink.drop, h.counter, List.length_append, List.length_singleton]
    exact increment64_of_lt (by omega)
  emitted_order := h.emitted_order
  emitted_range := h.emitted_range
  pending_order := h.pending_order
  held_before y hy := h.held_before y (List.mem_cons_of_mem x hy)
  numbers_order := h.numbers_order
  numbers_range q hq :=
    let ⟨h0, hn, hx⟩ := h.numbers_range q hq
    ⟨h0, hn, fun y hy => hx y (by simp only [List.mem_append, List.mem_cons] at hy ⊢; tauto)⟩
  notices_exact := h.notices_exact
  notices_range q hq :=
    ⟨(h.notices_range q hq).1, fun y hy => (h.notices_range q hq).2 y
      (by simp only [List.mem_append, List.mem_cons] at hy ⊢; tauto)⟩
  notices_sent := h.notices_sent

/-- A send settles the node at the front of a sorted batch; its number is the largest yet. -/
theorem Ledger.numbers_send (h : Ledger n (x :: held) s)
    (hx : ∀ y ∈ held, x.sequence < y.sequence) :
    (s.numbers ++ [x.sequence]).Pairwise (· < ·) ∧
    ∀ q ∈ s.numbers ++ [x.sequence],
      0 < q ∧ q ≤ n ∧ ∀ y ∈ s.pending ++ held, q < y.sequence := by
  have hmem : x.event ∈ s.emitted := by
    refine h.events.mem_iff.mpr ?_
    simp
  have hall : ∀ y ∈ s.pending ++ held, x.sequence < y.sequence := by
    intro y hy
    rcases List.mem_append.mp hy with hp | hh
    · exact h.held_before x (by simp) y hp
    · exact hx y hh
  refine ⟨List.pairwise_append.mpr ⟨h.numbers_order, List.pairwise_singleton _ _, ?_⟩, ?_⟩
  · intro q hq r hr
    rw [List.mem_singleton.mp hr]
    exact (h.numbers_range q hq).2.2 x (by simp)
  · intro q hq
    rcases List.mem_append.mp hq with hq | hq
    · obtain ⟨h0, hn, hb⟩ := h.numbers_range q hq
      exact ⟨h0, hn, fun y hy => hb y (by simp only [List.mem_append, List.mem_cons] at hy ⊢; tauto)⟩
    · rw [List.mem_singleton.mp hq]
      exact ⟨(h.emitted_range _ hmem).1, (h.emitted_range _ hmem).2, hall⟩

theorem numbers_write_event (s : Sink ε) (e : Sequenced ε) (r : IoResult) :
    (s.write (.event e) r).numbers = s.numbers ++ [e.sequence] := by
  simp [Sink.numbers, Frame.number?]

theorem confirmed_send_ok (s : Sink ε) (x : Node ε) :
    ((s.write (.event x.event) .ok).push x).confirmed = s.confirmed ++ [x.event] := by
  change ((s.write (.event x.event) .ok).attempts).filterMap confirmedEvent = _
  simp [Sink.confirmed, confirmedEvent]

theorem Books.send_ok (h : Books (x :: held) s) :
    Books held ((s.write (.event x.event) .ok).push x) where
  nodes := by
    refine List.Perm.trans (List.Perm.map _ ?_) h.nodes
    have hmid : (s.free ++ s.pending ++ x :: held).Perm (x :: (s.free ++ s.pending ++ held)) :=
      List.perm_middle
    simpa [Sink.write, Sink.push] using hmid.symm
  events := by
    rw [confirmed_send_ok]
    refine h.events.trans ?_
    simp only [Sink.write, Sink.push, List.append_assoc, List.map_append, List.map_cons]
    refine List.Perm.append_left _ ?_
    have hmid : (s.lost ++ s.pending.map Node.event ++ x.event :: held.map Node.event).Perm
        (x.event :: (s.lost ++ s.pending.map Node.event ++ held.map Node.event)) :=
      List.perm_middle
    simpa [List.append_assoc] using hmid

theorem Ledger.send_ok (h : Ledger n (x :: held) s) (hx : ∀ y ∈ held, x.sequence < y.sequence) :
    Ledger n held ((s.write (.event x.event) .ok).push x) := by
  have hc := confirmed_send_ok s x
  have hq : ((s.write (.event x.event) .ok).push x).numbers =
      s.numbers ++ [x.sequence] := numbers_write_event s x.event .ok
  obtain ⟨ho, hr⟩ := h.numbers_send hx
  exact {
    __ := h.toBooks.send_ok
    counter := h.counter
    emitted_order := h.emitted_order
    emitted_range := h.emitted_range
    pending_order := h.pending_order
    held_before := fun y hy => h.held_before y (List.mem_cons_of_mem x hy)
    numbers_order := by rw [hq]; exact ho
    numbers_range := by rw [hq]; exact hr
    notices_exact := fun m hm => by
      have hu := unconfirmedBelow_confirmed (s := s) (t := (s.write (.event x.event) .ok).push x)
        rfl hc ((h.notices_range m hm).2 x (by simp))
      rw [hu]
      exact h.notices_exact m hm
    notices_range := fun m hm => ⟨(h.notices_range m hm).1, fun y hy =>
      (h.notices_range m hm).2 y 
      (by simp only [Sink.write, Sink.push, List.mem_append, List.mem_cons] at hy ⊢; tauto)⟩
    notices_sent := fun q d r hm => h.notices_sent q d r (by
      change _ ∈ (s.write (.event x.event) .ok).attempts at hm
      simpa using hm) }

theorem confirmed_send_failed (s : Sink ε) (x : Node ε) (b : Nat) :
    ((s.write (.event x.event) (.failed b)).drop x).confirmed = (s.drop x).confirmed := by
  change ((s.write (.event x.event) (.failed b)).attempts).filterMap confirmedEvent = _
  rw [attempts_write, List.filterMap_append]
  simp only [List.filterMap_cons, confirmedEvent, List.filterMap_nil, List.append_nil]
  rfl

theorem Books.send_failed (h : Books (x :: held) s) (b : Nat) :
    Books held ((s.write (.event x.event) (.failed b)).drop x) where
  nodes := h.drop.nodes
  events := by
    rw [confirmed_send_failed]
    exact h.drop.events

theorem Ledger.send_failed (h : Ledger n (x :: held) s)
    (hx : ∀ y ∈ held, x.sequence < y.sequence) (hn : n < 2 ^ 64) (b : Nat) :
    Ledger n held ((s.write (.event x.event) (.failed b)).drop x) := by
  obtain ⟨ho, hr⟩ := h.numbers_send hx
  have hc := confirmed_send_failed s x b
  have hq : ((s.write (.event x.event) (.failed b)).drop x).numbers = s.numbers ++ [x.sequence] :=
    numbers_write_event s x.event (.failed b)
  have hd := h.drop hn
  exact {
    __ := h.toBooks.send_failed b
    counter := hd.counter
    emitted_order := hd.emitted_order
    emitted_range := hd.emitted_range
    pending_order := hd.pending_order
    held_before := hd.held_before
    numbers_order := by rw [hq]; exact ho
    numbers_range := by rw [hq]; exact hr
    notices_exact := fun m hm => by
      rw [hd.notices_exact m hm]
      simp only [Sink.unconfirmedBelow, hc]
      rfl
    notices_range := hd.notices_range
    notices_sent := fun q d r hm => h.notices_sent q d r (by
      change _ ∈ (s.write (.event x.event) (.failed b)).attempts at hm
      simpa using hm) }

theorem Books.write (h : Books held s) {f : Frame ε} (r : IoResult)
    (hf : confirmedEvent (f, r) = none) : Books held (s.write f r) where
  nodes := h.nodes
  events := by
    have hc : (s.write f r).confirmed = s.confirmed := by simp [Sink.confirmed, hf]
    rw [hc]
    exact h.events

theorem Ledger.write_hello (h : Ledger n held s) (r : IoResult) :
    Ledger n held (s.write .hello r) := by
  have hc : (s.write .hello r).confirmed = s.confirmed := by
    simp [Sink.confirmed, confirmedEvent]
  have hq : (s.write .hello r).numbers = s.numbers := by simp [Sink.numbers, Frame.number?]
  exact {
    __ := h.toBooks.write r rfl
    counter := h.counter
    emitted_order := h.emitted_order
    emitted_range := h.emitted_range
    pending_order := h.pending_order
    held_before := h.held_before
    numbers_order := by rw [hq]; exact h.numbers_order
    numbers_range := by rw [hq]; exact h.numbers_range
    notices_exact := fun m hm => by
      rw [h.notices_exact m hm]
      simp only [Sink.unconfirmedBelow, hc]
      rfl
    notices_range := h.notices_range
    notices_sent := fun q d r' hm => h.notices_sent q d r' (by simpa using hm) }

/-- A notice goes out with a number above all earlier ones and below all queued ones. -/
theorem Ledger.write_notice (h : Ledger n held s) {q : Nat} (hq0 : 0 < q) (hqn : q ≤ n)
    (hold : ∀ p ∈ s.numbers, p < q) (hnew : ∀ y ∈ s.pending ++ held, q < y.sequence)
    {d : Nat} (hd : (q, d) ∈ s.notices) (r : IoResult) : Ledger n held (s.write (.dropNotice q d) r) := by
  have hc : (s.write (.dropNotice q d) r).confirmed = s.confirmed := by
    simp [Sink.confirmed, confirmedEvent]
  have hq : (s.write (.dropNotice q d) r).numbers = s.numbers ++ [q] := by
    simp [Sink.numbers, Frame.number?]
  exact {
    __ := h.toBooks.write r rfl
    counter := h.counter
    emitted_order := h.emitted_order
    emitted_range := h.emitted_range
    pending_order := h.pending_order
    held_before := h.held_before
    numbers_order := by
      rw [hq]
      refine List.pairwise_append.mpr ⟨h.numbers_order, List.pairwise_singleton _ _, ?_⟩
      intro p hp p' hp'
      rw [List.mem_singleton.mp hp']
      exact hold p hp
    numbers_range := by
      rw [hq]
      intro p hp
      rcases List.mem_append.mp hp with hp | hp
      · exact h.numbers_range p hp
      · rw [List.mem_singleton.mp hp]
        exact ⟨hq0, hqn, hnew⟩
    notices_exact := fun m hm => by
      rw [h.notices_exact m hm]
      simp only [Sink.unconfirmedBelow, hc]
      rfl
    notices_range := h.notices_range
    notices_sent := fun q' d' r' hm => by
      rw [attempts_write] at hm
      rcases List.mem_append.mp hm with hm | hm
      · exact h.notices_sent q' d' r' hm
      · obtain ⟨⟨rfl, rfl⟩, -⟩ : (q' = q ∧ d' = d) ∧ r' = r := by simpa using hm
        exact hd }

/-- The notice gets its number while nothing is queued or held: it counts every loss so far. -/
theorem Ledger.issue (h : Ledger n [] s) (hp : s.pending = []) :
    Ledger (n+1) [] { s with notices := s.notices ++ [(n+1, min s.dropped UINT32_MAX)] } where
  __ := h.toBooks.congr rfl rfl rfl rfl rfl
  counter := h.counter
  emitted_order := h.emitted_order
  emitted_range := (h.mono (Nat.le_succ n)).emitted_range
  pending_order := h.pending_order
  held_before := h.held_before
  numbers_order := h.numbers_order
  numbers_range := (h.mono (Nat.le_succ n)).numbers_range
  notices_exact m hm := by
    rcases List.mem_append.mp hm with hm | hm
    · exact h.notices_exact m hm
    · rw [List.mem_singleton.mp hm]
      change min s.dropped UINT32_MAX = min (s.unconfirmedBelow (n+1)) UINT32_MAX
      rw [h.unconfirmed_eq hp (Nat.lt_succ_self n)]
  notices_range m hm := by
    rcases List.mem_append.mp hm with hm | hm
    · exact ⟨(h.notices_range m hm).1.trans (Nat.le_succ n), (h.notices_range m hm).2⟩
    · rw [List.mem_singleton.mp hm]
      exact ⟨le_rfl, by simp [hp]⟩
  notices_sent q d r hm := List.mem_append_left _ (h.notices_sent q d r hm)

theorem history_enqueue (s : Sink ε) (e : Sequenced ε) :
    (s.enqueue e).attempts = s.attempts ∧ (s.enqueue e).emitted = s.emitted ++ [e] ∧
    (s.enqueue e).notices = s.notices := by
  unfold Sink.enqueue
  split <;> exact ⟨rfl, rfl, rfl⟩

theorem pending_enqueue (s : Sink ε) (e : Sequenced ε) :
    ∀ y ∈ (s.enqueue e).pending, y ∈ s.pending ∨ y.sequence = e.sequence := by
  intro y hy
  unfold Sink.enqueue at hy
  split at hy
  · exact Or.inl hy
  · rcases List.mem_cons.mp hy with rfl | hy
    · exact Or.inr rfl
    · exact Or.inl hy

theorem Books.enqueue (h : Books held s) (e : Sequenced ε) : Books held (s.enqueue e) := by
  obtain ⟨ha, he, -⟩ := history_enqueue s e
  have hc : (s.enqueue e).confirmed = s.confirmed := by simp only [Sink.confirmed, ha]
  constructor
  · unfold Sink.enqueue
    split
    · exact h.nodes
    · next x free hf =>
      have hnodes := h.nodes
      rw [hf] at hnodes
      refine List.Perm.trans ?_ hnodes
      simp
  · rw [hc, he]
    unfold Sink.enqueue
    split
    · refine (h.events.append_right [_]).trans ?_
      simp only [List.append_assoc]
      refine List.Perm.append_left _ (List.Perm.append_left _ ?_)
      exact List.perm_append_comm
    · refine (h.events.append_right [_]).trans ?_
      simp only [List.append_assoc, List.cons_append, List.map_cons]
      refine List.Perm.append_left _ (List.Perm.append_left _ ?_)
      exact List.perm_append_comm

theorem Ledger.enqueue (h : Ledger n held s) (hn : n + 1 < 2 ^ 64) (e : ε) :
    Ledger (n+1) held (s.enqueue ⟨n+1, e⟩) := by
  obtain ⟨ha, he, hno⟩ := history_enqueue s ⟨n+1, e⟩
  have hc : (s.enqueue ⟨n+1, e⟩).confirmed = s.confirmed := by simp only [Sink.confirmed, ha]
  have hq : (s.enqueue ⟨n+1, e⟩).numbers = s.numbers := by simp only [Sink.numbers, ha]
  have hmem : ∀ y ∈ s.pending ++ held, y.sequence ≤ n := fun y hy =>
    (h.emitted_range y.event (h.events.mem_iff.mpr
      (List.mem_append_right _ (List.mem_map_of_mem hy)))).2
  have hpend : ∀ y ∈ (s.enqueue ⟨n+1, e⟩).pending ++ held,
      y ∈ s.pending ++ held ∨ y.sequence = n+1 := by
    intro y hy
    rcases List.mem_append.mp hy with hy | hy
    · exact (pending_enqueue s _ y hy).imp_left (List.mem_append_left held)
    · exact Or.inl (List.mem_append_right _ hy)
  refine {
    __ := h.toBooks.enqueue _
    counter := ?_
    emitted_order := ?_
    emitted_range := ?_
    pending_order := ?_
    held_before := ?_
    numbers_order := by rw [hq]; exact h.numbers_order
    numbers_range := ?_
    notices_exact := ?_
    notices_range := ?_
    notices_sent := by rw [ha, hno]; exact h.notices_sent }
  · have hlost := h.lost_length
    unfold Sink.enqueue
    split
    · simp only [h.counter, List.length_append, List.length_singleton]
      exact increment64_of_lt (by omega)
    · exact h.counter
  · rw [he, List.map_append]
    refine List.pairwise_append.mpr ⟨h.emitted_order, List.pairwise_singleton _ _, ?_⟩
    intro a ha' b hb
    obtain ⟨x, hx, rfl⟩ := List.mem_map.mp ha'
    rw [List.mem_singleton.mp hb]
    exact Nat.lt_succ_of_le (h.emitted_range x hx).2
  · rw [he]
    intro x hx
    rcases List.mem_append.mp hx with hx | hx
    · exact ⟨(h.emitted_range x hx).1, (h.emitted_range x hx).2.trans (Nat.le_succ n)⟩
    · rw [List.mem_singleton.mp hx]
      exact ⟨Nat.succ_pos n, le_rfl⟩
  · unfold Sink.enqueue
    split
    · exact h.pending_order
    · refine List.Pairwise.cons ?_ h.pending_order
      intro p hp
      obtain ⟨y, hy, rfl⟩ := List.mem_map.mp hp
      exact Nat.lt_succ_of_le (hmem y (List.mem_append_left _ hy))
  · intro x hx p hp
    rcases pending_enqueue s _ p hp with hp' | hp'
    · exact h.held_before x hx p hp'
    · rw [hp']
      exact Nat.lt_succ_of_le (hmem x (List.mem_append_right _ hx))
  · rw [hq]
    intro q hqm
    obtain ⟨h0, hn, hb⟩ := h.numbers_range q hqm
    refine ⟨h0, hn.trans (Nat.le_succ n), fun y hy => ?_⟩
    rcases hpend y hy with hy' | hy'
    · exact hb y hy'
    · omega
  · intro m hm
    rw [hno] at hm
    rw [h.notices_exact m hm,
      unconfirmedBelow_enqueued he hc (Nat.le_succ_of_le (h.notices_range m hm).1)]
  · intro m hm
    rw [hno] at hm
    obtain ⟨hn, hb⟩ := h.notices_range m hm
    refine ⟨hn.trans (Nat.le_succ n), fun y hy => ?_⟩
    rcases hpend y hy with hy' | hy'
    · exact hb y hy'
    · omega

end Moves

end FfbInterceptor.Telemetry
