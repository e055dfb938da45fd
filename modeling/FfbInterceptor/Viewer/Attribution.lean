import FfbInterceptor.Viewer.Watching

/-! Which names an exported trace gives its processes (`trace.py`, `main.py`). -/
namespace FfbInterceptor.Viewer

section Received

/-- The frames of one connection: a Hello without a time, then events of its process in the order of
their times. -/
def FromProducer : List Frame → Prop
  | [] => True
  | hello :: events =>
    (hello.messageType = helloType ∧ hello.qpcTicks = 0 ∧ hello.deviceId = 0 ∧ hello.effectId = 0) ∧
      (∀ event ∈ events, event.messageType ≠ helloType ∧ event.processId = hello.processId) ∧
      events.Pairwise fun a b => a.qpcTicks < b.qpcTicks

/-- Frames of several connections as they come in, up to some moment. -/
inductive Interleaves : List (List Frame) → List Frame → Prop where
  | stop (connections : List (List Frame)) : Interleaves connections []
  | next {before after : List (List Frame)} {frame : Frame} {rest received : List Frame} :
      Interleaves (before ++ rest :: after) received →
      Interleaves (before ++ (frame :: rest) :: after) (frame :: received)

variable {connections : List (List Frame)} {received : List Frame}

theorem Interleaves.mem (h : Interleaves connections received) :
    ∀ frame ∈ received, ∃ connection ∈ connections, frame ∈ connection := by
  induction h with
  | stop connections => exact nofun
  | @next before after first rest received _ ih =>
    intro frame hframe
    cases hframe with
    | head =>
      exact ⟨first :: rest, List.mem_append_right _ List.mem_cons_self, List.mem_cons_self⟩
    | tail _ hframe =>
      obtain ⟨connection, hconnection, hmem⟩ := ih frame hframe
      cases List.mem_append.mp hconnection with
      | inl hbefore => exact ⟨connection, List.mem_append_left _ hbefore, hmem⟩
      | inr hbehind =>
        cases hbehind with
        | head =>
          exact ⟨first :: rest, List.mem_append_right _ List.mem_cons_self,
            List.mem_cons_of_mem _ hmem⟩
        | tail _ hafter =>
          exact ⟨connection, List.mem_append_right _ (List.mem_cons_of_mem _ hafter), hmem⟩

/-- What holds of every Hello of a producer. -/
structure Frame.PlainHello (frame : Frame) : Prop where
  qpcTicks : frame.qpcTicks = 0
  deviceId : frame.deviceId = 0
  effectId : frame.effectId = 0

theorem FromProducer.plainHello {connection : List Frame} (h : FromProducer connection) {frame : Frame}
    (hframe : frame ∈ connection) (htype : frame.messageType = helloType) : frame.PlainHello := by
  cases connection with
  | nil => cases hframe
  | cons hello events =>
    obtain ⟨hhello, hevents, -⟩ := h
    cases hframe with
    | head => exact ⟨hhello.2.1, hhello.2.2.1, hhello.2.2.2⟩
    | tail _ hframe => exact absurd htype (hevents frame hframe).1

def storeAfter (received : List Frame) : EventStore := received.foldl EventStore.add {}

theorem mem_events_add {store : EventStore} {frame event : Frame}
    (h : event ∈ (store.add frame).events) :
    event ∈ store.events ∨ event = frame := by
  rw [EventStore.add] at h
  split at h
  · exact Or.inl h
  · have hmem := List.mem_of_mem_drop h
    rwa [List.mem_append, List.mem_singleton] at hmem

theorem mem_storeAfter {event : Frame} (h : event ∈ (storeAfter received).events) :
    event ∈ received := by
  induction received using List.reverseRecOn with
  | nil => exact h
  | append_singleton received frame ih =>
    rw [storeAfter, List.foldl_append] at h
    cases mem_events_add h with
    | inl hold => exact List.mem_append_left _ (ih hold)
    | inr hnew => exact List.mem_append_right _ (hnew ▸ List.mem_singleton_self _)

end Received

section Producers

variable {events : List Frame} {processId : UInt32} {name : String}

def firstNamed (events : List Frame) (processId : UInt32) : Option Frame :=
  events.find? fun event => event.isNamedHello && event.processId = processId

theorem mem_setDefault {producers : List (UInt32 × String)} {other : UInt32} {otherName : String} :
    (processId, name) ∈ setDefault producers other otherName ↔
      (processId, name) ∈ producers ∨
        ((∀ known, (other, known) ∉ producers) ∧ processId = other ∧ name = otherName) := by
  rw [setDefault]
  split
  · rename_i hknown
    obtain ⟨entry, hentry, hsame⟩ := List.any_eq_true.mp hknown
    have hmem : (other, entry.2) ∈ producers := of_decide_eq_true hsame ▸ hentry
    exact ⟨Or.inl, fun h => h.elim id fun hnew => absurd hmem (hnew.1 entry.2)⟩
  · rename_i hnew
    rw [List.mem_append, List.mem_singleton, Prod.mk.injEq]
    have hfree : ∀ known, (other, known) ∉ producers := by
      intro known hknown
      exact hnew (List.any_eq_true.mpr ⟨_, hknown, decide_eq_true rfl⟩)
    exact or_congr_right (and_iff_right hfree).symm

theorem firstNamed_append (events : List Frame) (event : Frame) (processId : UInt32) :
    firstNamed (events ++ [event]) processId =
      (firstNamed events processId).or
        (if event.isNamedHello = true ∧ event.processId = processId then some event else none) := by
  rw [firstNamed, List.find?_append, ← firstNamed]
  congr 1
  by_cases hevent : event.isNamedHello = true ∧ event.processId = processId
  · rw [if_pos hevent]
    simp [hevent.1, hevent.2]
  · rw [if_neg hevent]
    simpa using hevent

theorem mem_producers : (processId, name) ∈ events.foldl addProducer [] ↔
    ∃ hello, firstNamed events processId = some hello ∧ producerBasename hello.text = name := by
  induction events using List.reverseRecOn generalizing processId name with
  | nil => simp [firstNamed]
  | append_singleton events event ih =>
    have hunknown : (∀ known, (event.processId, known) ∉ events.foldl addProducer []) ↔
        firstNamed events event.processId = none := by
      simp only [ih, not_exists, not_and]
      constructor
      · intro h
        by_contra hsome
        obtain ⟨hello, hhello⟩ := Option.ne_none_iff_exists'.mp hsome
        exact h _ hello hhello rfl
      · intro hnone known hello hhello
        rw [hnone] at hhello
        cases hhello
    rw [List.foldl_append, List.foldl_cons, List.foldl_nil, addProducer, firstNamed_append]
    cases hnamed : event.isNamedHello with
    | false => simpa using ih
    | true =>
      rw [if_pos rfl, mem_setDefault, hunknown, ih]
      simp only [true_and]
      cases hfirst : firstNamed events processId with
      | some hello =>
        have hother : ¬ (firstNamed events event.processId = none ∧ processId = event.processId ∧
            name = producerBasename event.text) := by
          intro h
          rw [← h.2.1, hfirst] at h
          cases h.1
        rw [or_iff_left hother]
        rfl
      | none =>
        by_cases hsame : event.processId = processId
        · subst hsame
          simp [hfirst, eq_comm]
        · simp [hsame, Ne.symm hsame]

end Producers

section Attribution

variable {store : EventStore} {seconds : ℚ} {filters : Filters} {event hello : Frame}

/-- Every exported process that the store can name has its name in the trace. -/
def Attributed (store : EventStore) (payload : TracePayload) : Prop :=
  ∀ exported ∈ payload.events, ∀ hello ∈ store.events, hello.isNamedHello = true →
    hello.processId = exported.event.processId →
    (hello.processId, producerBasename hello.text) ∈ payload.producers

def EventStore.ReachesZero (store : EventStore) (seconds : ℚ) : Prop :=
  ∀ newest ∈ store.events.getLast?, store.cutoff seconds newest ≤ 0

/-- A filter for a device or an effect that lets the Hello of a process through. -/
def Filters.PassHello (filters : Filters) (processId : UInt32) : Prop :=
  (∀ device ∈ filters.device, device = scopedId processId 0) ∧
    ∀ effect ∈ filters.effect, effect = scopedId processId 0

/-- Each held Hello of a process that is to be exported lies in the window, passes the filters, and
gives the name that all held Hellos of the process give. -/
def Attributable (store : EventStore) (seconds : ℚ) (filters : Filters) : Prop :=
  ∀ event ∈ store.visibleEvents seconds filters, ∀ hello ∈ store.events, hello.isNamedHello = true →
    hello.processId = event.processId →
    store.ReachesZero seconds ∧ filters.PassHello hello.processId ∧
      ∀ other ∈ store.events, other.isNamedHello = true → other.processId = hello.processId →
        producerBasename other.text = producerBasename hello.text

theorem mem_visibleEvents : event ∈ store.visibleEvents seconds filters ↔
    event ∈ store.events ∧ filters.passes event = true ∧
      ∀ newest ∈ store.events.getLast?, store.cutoff seconds newest ≤ event.qpcTicks.toNat := by
  rw [EventStore.visibleEvents, List.mem_filter, EventStore.window]
  cases hlast : store.events.getLast? with
  | none =>
    rw [List.getLast?_eq_none_iff] at hlast
    simp [hlast]
  | some newest =>
    simp only [List.mem_filter, decide_eq_true_eq, Option.mem_def, Option.some.injEq, forall_eq']
    rw [and_right_comm, and_assoc]

theorem passes_iff : filters.passes event = true ↔
    (∀ producer ∈ filters.producer, event.processId = producer) ∧
      (∀ device ∈ filters.device, scopedId event.processId event.deviceId = device) ∧
      ∀ effect ∈ filters.effect, scopedId event.processId event.effectId = effect := by
  simp only [Filters.passes, Bool.and_eq_true, Option.all_eq_true, decide_eq_true_eq, and_assoc,
    Option.mem_def]

theorem hello_visible_iff (hplain : hello.PlainHello) (hhello : hello ∈ store.events)
    (hevent : event ∈ store.visibleEvents seconds filters)
    (hsame : hello.processId = event.processId) :
    hello ∈ store.visibleEvents seconds filters ↔
      store.ReachesZero seconds ∧ filters.PassHello hello.processId := by
  have hproducer : ∀ producer ∈ filters.producer, hello.processId = producer := by
    intro producer hmem
    rw [hsame]
    exact (passes_iff.mp (mem_visibleEvents.mp hevent).2.1).1 producer hmem
  rw [mem_visibleEvents, passes_iff, and_iff_right hhello, and_iff_right hproducer, hplain.qpcTicks,
    hplain.deviceId, hplain.effectId, and_comm]
  simp only [EventStore.ReachesZero, Filters.PassHello, UInt64.toNat_zero, Nat.cast_zero, eq_comm]

theorem isNamedHello_iff :
    hello.isNamedHello = true ↔ hello.messageType = helloType ∧ hello.text ≠ "" := by
  simp only [Frame.isNamedHello, Bool.and_eq_true, decide_eq_true_eq]

theorem exported_events (store : EventStore) (seconds : ℚ) (filters : Filters) :
    (store.saveTrace seconds filters).events.map TraceEvent.event =
      store.visibleEvents seconds filters := by
  simp only [EventStore.saveTrace, tracePayload, List.map_map]
  exact List.map_id' _

theorem firstNamed_spec {events : List Frame} {processId : UInt32}
    (h : firstNamed events processId = some hello) :
    hello ∈ events ∧ hello.isNamedHello = true ∧ hello.processId = processId := by
  have hfound := List.find?_some h
  rw [Bool.and_eq_true, decide_eq_true_eq] at hfound
  exact ⟨List.mem_of_find?_eq_some h, hfound.1, hfound.2⟩

theorem attributed_iff (hplain : ∀ hello ∈ store.events, hello.isNamedHello = true → hello.PlainHello) :
    Attributed store (store.saveTrace seconds filters) ↔ Attributable store seconds filters := by
  have hexported : ∀ event, event ∈ store.visibleEvents seconds filters ↔
      ∃ exported ∈ (store.saveTrace seconds filters).events, exported.event = event := by
    intro event
    rw [← exported_events, List.mem_map]
  constructor
  · intro h event hevent hello hhello hnamed hsame
    obtain ⟨exported, hmem, rfl⟩ := (hexported event).mp hevent
    obtain ⟨first, hfirst, hname⟩ := mem_producers.mp (h exported hmem hello hhello hnamed hsame)
    obtain ⟨hvisible, hfirstNamed, hpid⟩ := firstNamed_spec hfirst
    have hheld := (mem_visibleEvents.mp hvisible).1
    have hplaces := (hello_visible_iff (hplain first hheld hfirstNamed) hheld hevent
      (hpid.trans hsame)).mp hvisible
    refine ⟨hplaces.1, hpid ▸ hplaces.2, ?_⟩
    intro other hother hotherNamed hotherSame
    obtain ⟨first', hfirst', hname'⟩ :=
      mem_producers.mp (h exported hmem other hother hotherNamed (hotherSame.trans hsame))
    rw [hotherSame, hfirst] at hfirst'
    obtain rfl := Option.some.inj hfirst'
    exact hname'.symm.trans hname
  · intro h exported hmem hello hhello hnamed hsame
    have hevent := (hexported exported.event).mpr ⟨exported, hmem, rfl⟩
    obtain ⟨hreaches, hpass, hone⟩ := h exported.event hevent hello hhello hnamed hsame
    have hvisible := (hello_visible_iff (hplain hello hhello hnamed) hhello hevent hsame).mpr
      ⟨hreaches, hpass⟩
    apply mem_producers.mpr
    cases hfirst : firstNamed (store.visibleEvents seconds filters) hello.processId with
    | none =>
      have hno := List.find?_eq_none.mp hfirst hello hvisible
      simp [hnamed] at hno
    | some first =>
      obtain ⟨hfirstVisible, hfirstNamed, hpid⟩ := firstNamed_spec hfirst
      refine ⟨first, rfl, ?_⟩
      exact hone first (mem_visibleEvents.mp hfirstVisible).1 hfirstNamed hpid

end Attribution

/-- Traces of what producers send stay attributable exactly where the window and the filters still
show the Hellos: the names come from the exported events, not from the store. -/
theorem trace_attributed_iff (connections : List (List Frame)) (received : List Frame)
    (hproducers : ∀ connection ∈ connections, FromProducer connection)
    (hreceived : Interleaves connections received) (seconds : ℚ) (filters : Filters) :
    Attributed (storeAfter received) ((storeAfter received).saveTrace seconds filters) ↔
      Attributable (storeAfter received) seconds filters := by
  apply attributed_iff
  intro hello hhello hnamed
  obtain ⟨connection, hconnection, hmem⟩ := hreceived.mem hello (mem_storeAfter hhello)
  exact (hproducers connection hconnection).plainHello hmem (isNamedHello_iff.mp hnamed).1

def namedHello : Frame := { sampleFrame 1 10000000 0 helloType with text := "game.exe" }

/-- An event a thousand seconds after the start of the clock. -/
def laterEvent : Frame := { sampleFrame 1 0 0 7 with qpcTicks := 10000000000 }

theorem laterEvent_attributed_iff :
    Attributed (storeAfter [namedHello, laterEvent])
        ((storeAfter [namedHello, laterEvent]).saveTrace 1 {}) ↔
      Attributable (storeAfter [namedHello, laterEvent]) 1 {} := by
  have hconnection : FromProducer [namedHello, laterEvent] := by
    refine ⟨by decide, ?_, List.pairwise_singleton _ _⟩
    intro event hevent
    rw [List.mem_singleton.mp hevent]
    decide
  have hreceived : Interleaves [[namedHello, laterEvent]] [namedHello, laterEvent] :=
    @Interleaves.next [] [] namedHello [laterEvent] [laterEvent]
      (@Interleaves.next [] [] laterEvent [] [] (.stop _))
  exact trace_attributed_iff [[namedHello, laterEvent]] [namedHello, laterEvent]
    (fun connection hmem => List.mem_singleton.mp hmem ▸ hconnection) hreceived 1 {}

/-- In a window of a second the Hello is gone, and with it the name. -/
theorem laterEvent_not_attributed :
    ¬ Attributed (storeAfter [namedHello, laterEvent])
      ((storeAfter [namedHello, laterEvent]).saveTrace 1 {}) := by
  intro h
  have hvisible : laterEvent ∈ (storeAfter [namedHello, laterEvent]).visibleEvents 1 {} := by
    decide +kernel
  rw [← exported_events] at hvisible
  obtain ⟨exported, hexported, hevent⟩ := List.mem_map.mp hvisible
  have hheld : namedHello ∈ (storeAfter [namedHello, laterEvent]).events := by decide +kernel
  have hnamed := h exported hexported namedHello hheld (by decide) (hevent ▸ rfl)
  have hnone : ((storeAfter [namedHello, laterEvent]).saveTrace 1 {}).producers = [] := by
    decide +kernel
  rw [hnone] at hnamed
  cases hnamed

end FfbInterceptor.Viewer
