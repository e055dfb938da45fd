import FfbInterceptor.Protocol.Accumulator
import FfbInterceptor.Telemetry.Delivery
import FfbInterceptor.Telemetry.Texts

/-! The bytes a sink's worker leaves on a connection, read by the accumulator's rules. -/
namespace FfbInterceptor.Telemetry
open Library Protocol Library.Runs

section Emitted

variable {ε : Type}

theorem emits_step {P : ε → Prop} {t : State ε} (h : ∀ e ∈ t.emits, P e.event) {action : Action ε}
    (haction : ∀ event, action = .emit event → P event) :
    ∀ e ∈ (t.step action).emits, P e.event := by
  cases action with
  | createThread k => exact h
  | setRunning k => exact h
  | run k r => exact h
  | emit event =>
    simp only [State.step, State.emit]
    split
    · intro e he
      rw [List.mem_append, List.mem_singleton] at he
      cases he with
      | inl he => exact h e he
      | inr he =>
        rw [he]
        exact haction event rfl
    · exact h

theorem emits_run {P : ε → Prop} {t : State ε} (h : ∀ e ∈ t.emits, P e.event)
    {actions : List (Action ε)} (hactions : ∀ event, .emit event ∈ actions → P event) :
    ∀ e ∈ (run State.step t actions).emits, P e.event := by
  induction actions generalizing t with
  | nil => exact h
  | cons action actions ih =>
    apply ih
    · apply emits_step h
      intro event heq
      exact hactions event (heq ▸ List.mem_cons_self ..)
    · intro event hmem
      exact hactions event (List.mem_cons_of_mem action hmem)

theorem mem_emits_of_written {t : State ε} (h : t.Formed) {k : Fin kSinkCount}
    {c : List (PipeEntry ε)} (hc : c ∈ (t.sinks k).connections) {e : Sequenced ε}
    (he : .event e ∈ written c) : e ∈ t.emits := by
  obtain ⟨entry, hentry, hframe⟩ := List.mem_filterMap.mp he
  have hsent : entry = .frame (.event e) .ok := by
    cases entry with
    | check d => cases hframe
    | frame f r =>
      cases r with
      | failed n => cases hframe
      | ok =>
        cases hframe
        rfl
  have hattempt : (Frame.event e, IoResult.ok) ∈ (t.sinks k).attempts :=
    List.mem_filterMap.mpr ⟨entry, List.mem_flatten.mpr ⟨c, hc, hentry⟩, by rw [hsent]; rfl⟩
  have hconfirmed : e ∈ (t.sinks k).confirmed := List.mem_filterMap.mpr ⟨_, hattempt, rfl⟩
  apply (h.emitted k).subset
  rw [(h.sink k).books.events.mem_iff]
  exact List.mem_append_left _ (List.mem_append_left _ hconfirmed)

end Emitted

section Bytes

variable {p : Producer}

def Producer.Runs (p : Producer) (actions : List (Action Event)) : Prop :=
  ∀ event, .emit event ∈ actions → p.Wrapped event

theorem sentEvent_sequence (p : Producer) (f : Frame Event) :
    (p.sentEvent f).sequence = f.sequence.toUInt64 := by
  cases f with
  | hello => rfl
  | event e => rfl
  | dropNotice q d => rfl

theorem sendable_written {actions : List (Action Event)} (h : p.Runs actions) {k : Fin kSinkCount}
    {c : List (PipeEntry Event)} (hc : c ∈ ((State.after actions).sinks k).connections) :
    ∀ f ∈ written c, Sendable p (p.sentEvent f) ∧ (f ≠ .hello → (p.sentEvent f).type ≠ .hello) := by
  intro f hf
  cases f with
  | hello => exact ⟨sendable_helloEvent, fun hne => absurd rfl hne⟩
  | dropNotice q d => exact ⟨sendable_dropNotice q d, fun _ => nofun⟩
  | event e =>
    have hemits : ∀ e ∈ (State.after actions).emits, p.Wrapped e.event :=
      emits_run (by simp [State.initial]) h
    have hwrapped := hemits e (mem_emits_of_written (State.after_formed actions) hc hf)
    obtain ⟨hsendable, htype⟩ := sendable_wrapped hwrapped
    exact ⟨sendable_stamped hsendable, fun _ => htype⟩

theorem bytes_of_sent (p : Producer) {c : List (PipeEntry Event)} (h : ∀ f r, .frame f r ∈ c → r = .ok) :
    p.bytes c = (written c).flatMap fun f => serializeEvent (p.sentEvent f) := by
  induction c with
  | nil => rfl
  | cons entry c ih =>
    have hrest := ih fun f r hm => h f r (List.mem_cons_of_mem entry hm)
    rw [Producer.bytes, List.flatMap_cons]
    cases entry with
    | check d => exact hrest
    | frame f r =>
      obtain rfl := h f r (List.mem_cons_self ..)
      exact congrArg (serializeEvent (p.sentEvent f) ++ ·) hrest

theorem Greeted.sent_ok {c : List (PipeEntry Event)} (h : Greeted c) :
    ∀ f r, .frame f r ∈ c → r = .ok := by
  obtain ⟨rest, rfl, hrest⟩ := h
  intro f r hm
  cases hm with
  | head => rfl
  | tail _ hm => exact (hrest f r hm).2

theorem bytes_of_failed (p : Producer) {opened : List (PipeEntry Event)}
    (h : ∀ f r, .frame f r ∈ opened → r = .ok) (f : Frame Event) (n : Nat) :
    ∃ m < (serializeEvent (p.sentEvent f)).length, m ≤ n ∧
      p.bytes (opened ++ [.frame f (.failed n)]) =
        ((written (opened ++ [.frame f (.failed n)])).flatMap fun f => serializeEvent (p.sentEvent f)) ++
          (serializeEvent (p.sentEvent f)).take m := by
  have hlength := length_serializeEvent (p.sentEvent f)
  refine ⟨min n ((serializeEvent (p.sentEvent f)).length - 1), by omega, by omega, ?_⟩
  have hopened := bytes_of_sent p h
  simp only [Producer.bytes] at hopened
  simp only [Producer.bytes, List.flatMap_append, hopened, List.flatMap_singleton, Producer.sentBytes,
    written, List.filterMap_append, List.filterMap_cons, writtenFrame, List.filterMap_nil,
    List.append_nil]

/-- The bytes of a connection: its written frames, then at most a piece of one that failed. -/
theorem Sink.Formed.bytes (p : Producer) {s : Sink Event} (h : s.Formed)
    {c : List (PipeEntry Event)} (hc : c ∈ s.connections) :
    ∃ tail, p.bytes c =
        ((written c).flatMap fun f => serializeEvent (p.sentEvent f)) ++ tail ∧
      framing.front tail = .more ∧
      (tail ≠ [] → ∃ opened f b, 0 < b ∧ c = opened ++ [.frame f (.failed b)]) := by
  have hfailed : ∀ opened f b, (∀ g r, .frame g r ∈ opened → r = .ok) →
      c = opened ++ [.frame f (.failed b)] → ∃ tail, p.bytes c =
        ((written c).flatMap fun f => serializeEvent (p.sentEvent f)) ++ tail ∧
      framing.front tail = .more ∧
      (tail ≠ [] → ∃ opened f b, 0 < b ∧ c = opened ++ [.frame f (.failed b)]) := by
    intro opened f b hopened heq
    obtain ⟨m, hm, hle, hbytes⟩ := bytes_of_failed p hopened f b
    refine ⟨_, heq ▸ hbytes, front_of_unfinished _ hm, ?_⟩
    intro htail
    refine ⟨opened, f, b, ?_, heq⟩
    cases m with
    | zero => exact absurd List.take_zero htail
    | succ m => omega
  rcases h.shape c hc with rfl | hgreeted | ⟨b, hbroken⟩ | ⟨opened, f, b, hgreeted, -, hbroken⟩
  · exact ⟨[], rfl, rfl, fun h => absurd rfl h⟩
  · refine ⟨[], ?_, rfl, fun h => absurd rfl h⟩
    rw [List.append_nil]
    exact bytes_of_sent p hgreeted.sent_ok
  · exact hfailed [] .hello b (by simp) hbroken
  · exact hfailed opened f b hgreeted.sent_ok hbroken

theorem Sendable.front {event : Event} (h : Sendable p event) (more : List UInt8) :
    framing.front (serializeEvent event ++ more) =
      .frame event.delivered (serializeEvent event).length := by
  obtain ⟨build, hbuild⟩ := h.buildVersion
  obtain ⟨session, hsession⟩ := h.sessionId
  obtain ⟨text, htext⟩ := h.text
  rw [Event.delivered, hbuild.textOf_eq, hsession.textOf_eq, htext.textOf_eq]
  exact front_serializeEvent more h.axisCount h.conditionCount hbuild hsession htext

theorem Sendable.decode {event : Event} (h : Sendable p event) :
    decode (serializeEvent event) = .ok event.delivered := by
  obtain ⟨build, hbuild⟩ := h.buildVersion
  obtain ⟨session, hsession⟩ := h.sessionId
  obtain ⟨text, htext⟩ := h.text
  rw [Event.delivered, hbuild.textOf_eq, hsession.textOf_eq, htext.textOf_eq]
  exact decode_serializeEvent h.axisCount h.conditionCount hbuild hsession htext

/-- The accumulator finds exactly the written frames. -/
theorem parse_bytes {actions : List (Action Event)} (h : p.Runs actions) {k : Fin kSinkCount}
    {c : List (PipeEntry Event)} (hc : c ∈ ((State.after actions).sinks k).connections) :
    ∃ tail, framing.parse (p.bytes c) =
        ((written c).map fun f => (p.sentEvent f).delivered, .ok tail) ∧
      (tail ≠ [] → ∃ opened f b, 0 < b ∧ c = opened ++ [.frame f (.failed b)]) := by
  obtain ⟨tail, hbytes, hmore, htail⟩ := ((State.after_formed actions).sink k).bytes p hc
  refine ⟨tail, ?_, htail⟩
  have hfront : ∀ f ∈ written c, ∀ more, framing.front (serializeEvent (p.sentEvent f) ++ more) =
      .frame (p.sentEvent f).delivered (serializeEvent (p.sentEvent f)).length :=
    fun f hf more => (sendable_written h hc f hf).1.front more
  rw [hbytes, Framing.parse_flatMap hfront, Framing.parse_more hmore, List.append_nil]

theorem sequence_le_of_written {n : Nat} {s : Sink Event} (h : s.Valid n) {c : List (PipeEntry Event)}
    (hc : c ∈ s.connections) : ∀ f ∈ written c, f.sequence ≤ n := by
  intro f hf
  cases hnumber : f.number? with
  | none =>
    cases f with
    | hello => exact Nat.zero_le n
    | event e => cases hnumber
    | dropNotice q d => cases hnumber
  | some q =>
    have hsequence : f.sequence = q := by
      cases f with
      | hello => cases hnumber
      | event e => exact Option.some.inj hnumber
      | dropNotice q d => exact Option.some.inj hnumber
    have hmem : q ∈ s.numbers :=
      (written_numbers s hc).subset (List.mem_filterMap.mpr ⟨f, hf, hnumber⟩)
    rw [hsequence]
    exact (h.ledger.numbers_range q hmem).2.1

/-- While `m_sequence` has not wrapped, the numbers on the wire increase. -/
theorem delivered_increasing (p : Producer) {n : Nat} (hn : n < 2 ^ 64) {s : Sink Event} (h : s.Valid n)
    (hformed : s.Formed) {c : List (PipeEntry Event)} (hc : c ∈ s.connections) :
    (((written c).map fun f => (p.sentEvent f).delivered).map ProtocolFrame.sequence).Pairwise
      (· < ·) := by
  have hle := sequence_le_of_written h hc
  have hincreasing := List.pairwise_map.mp (h.increasing hformed c hc)
  rw [List.map_map, List.pairwise_map]
  refine List.Pairwise.imp_of_mem ?_ hincreasing
  intro f g hf hg hlt
  have hwire : ∀ f, (p.sentEvent f).delivered.sequence = f.sequence.toUInt64 := sentEvent_sequence p
  simp only [Function.comp_apply, hwire, UInt64.lt_iff_toNat_lt, Nat.toUInt64]
  rw [UInt64.toNat_ofNat_of_lt' (lt_of_le_of_lt (hle f hf) hn),
    UInt64.toNat_ofNat_of_lt' (lt_of_le_of_lt (hle g hg) hn)]
  exact hlt

end Bytes

end FfbInterceptor.Telemetry
