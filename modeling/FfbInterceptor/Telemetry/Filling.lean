import FfbInterceptor.Engine.Parameters
import FfbInterceptor.Protocol.RoundTrip
import FfbInterceptor.Telemetry.Capture

/-! What capturing puts into an event when the game's structure can be read: the selected
parameters, merged into what the event held. -/
namespace FfbInterceptor.Telemetry
open Library Library.Faulting Protocol Engine

def eventParameters (kind : EffectKind) (event : Event) : Parameters where
  duration := event.duration
  startDelay := event.startDelay
  gain := normalizeUnsigned event.gain
  triggerButton := event.triggerButton
  triggerRepeat := event.triggerRepeat
  envelope := ⟨event.envelopeAttackLevel, event.envelopeAttackTime, event.envelopeFadeLevel,
    event.envelopeFadeTime⟩
  force := forceOf kind event.magnitude event.rampStart event.rampEnd event.periodicMagnitude
    event.periodicOffset event.periodicPhase event.periodicPeriod.toUInt32

section Structure

def word (field : Option UInt32) : UInt32 := field.getD 0

def DIEFFECT.typeSpecificWord (effect : DIEFFECT) (i : Nat) : UInt32 :=
  match effect.lpvTypeSpecificParams with
  | some (some words) => word (words i)
  | _ => 0

def DIENVELOPE.envelope (envelope : DIENVELOPE) : Envelope where
  attackLevel := word envelope.dwAttackLevel
  attackTime := word envelope.dwAttackTime
  fadeLevel := word envelope.dwFadeLevel
  fadeTime := word envelope.dwFadeTime

/-- A null envelope means all zero, and so does one too small to hold its levels. -/
def DIEFFECT.envelope (effect : DIEFFECT) : Envelope :=
  match effect.lpEnvelope with
  | some (some envelope) =>
    if sizeofDIENVELOPE ≤ (word envelope.dwSize).toNat then envelope.envelope else {}
  | _ => {}

def DIEFFECT.force (kind : EffectKind) (effect : DIEFFECT) : Force :=
  match kind with
  | .constant => .constant (effect.typeSpecificWord 0).toInt32
  | .ramp => .ramp (effect.typeSpecificWord 0).toInt32 (effect.typeSpecificWord 1).toInt32
  | .square | .sine | .triangle | .sawtoothUp | .sawtoothDown =>
    .periodic (effect.typeSpecificWord 0).toInt32 (effect.typeSpecificWord 1).toInt32
      (effect.typeSpecificWord 2).toInt32 (effect.typeSpecificWord 3)
  | .unknown | .spring | .damper | .inertia | .friction | .custom => .unread

def DIEFFECT.parameters (kind : EffectKind) (effect : DIEFFECT) : Parameters where
  duration := word effect.dwDuration
  startDelay := word effect.dwStartDelay
  gain := min 1 ((word effect.dwGain).toNat / 10000)
  triggerButton := word effect.dwTriggerButton
  triggerRepeat := word effect.dwTriggerRepeatInterval
  envelope := effect.envelope
  force := effect.force kind

def typeSpecificSize : EffectKind → Nat
  | .constant => sizeofDICONSTANTFORCE
  | .ramp => sizeofDIRAMPFORCE
  | .square | .sine | .triangle | .sawtoothUp | .sawtoothDown => sizeofDIPERIODIC
  | .spring | .damper | .inertia | .friction => sizeofDICONDITION
  | .unknown | .custom => 0

def Readable (count : Nat) (words : Words) : Prop := ∀ i < count, (words i).isSome

/-- A pointer that can be read and is null or points to something readable. -/
def ValidPointer {α : Type} (readable : α → Prop) (pointer : Option (Option α)) : Prop :=
  ∃ target, pointer = some target ∧ ∀ a, target = some a → readable a

def DIENVELOPE.Readable (envelope : DIENVELOPE) : Prop :=
  ∀ field ∈ [envelope.dwSize, envelope.dwAttackLevel, envelope.dwAttackTime, envelope.dwFadeLevel,
    envelope.dwFadeTime], field.isSome

/-- A full-size structure: its own fields can be read, and behind every pointer that is selected
there is what its count says, of the type-specific block at least as much as the kind needs. -/
structure DIEFFECT.Valid (win64 : Bool) (selected : UInt32 → Bool) (kind : EffectKind)
    (effect : DIEFFECT) : Prop where
  full : ∃ size, effect.dwSize = some size ∧ sizeofDIEFFECT win64 ≤ size.toNat
  fields : ∀ field ∈ [effect.dwFlags, effect.dwDuration, effect.dwSamplePeriod, effect.dwGain,
    effect.dwTriggerButton, effect.dwTriggerRepeatInterval, effect.cAxes,
    effect.cbTypeSpecificParams, effect.dwStartDelay], field.isSome
  axes : selected DIEP_AXES → ValidPointer (Readable (word effect.cAxes).toNat) effect.rgdwAxes
  directions : selected DIEP_DIRECTION →
    ValidPointer (Readable (word effect.cAxes).toNat) effect.rglDirection
  envelope : selected DIEP_ENVELOPE → ValidPointer DIENVELOPE.Readable effect.lpEnvelope
  typeSpecific : selected DIEP_TYPESPECIFICPARAMS →
    typeSpecificSize kind ≤ (word effect.cbTypeSpecificParams).toNat ∧
      (0 < typeSpecificSize kind → effect.lpvTypeSpecificParams ≠ some none) ∧
      ValidPointer (Readable ((word effect.cbTypeSpecificParams).toNat / 4))
        effect.lpvTypeSpecificParams

end Structure

/-- `m` does not fault from `P`, leads to `Q` and changes the parameters by `change`. -/
def Fills (kind : EffectKind) (P Q : Event → Prop) (m : Faulting Event PUnit)
    (change : Parameters → Parameters) : Prop :=
  ∀ event, P event → ∃ event', Yields m event ⟨⟩ event' ∧ Q event' ∧
    eventParameters kind event' = change (eventParameters kind event)

section Rules
variable {kind : EffectKind} {P Q R : Event → Prop} {m m' : Faulting Event PUnit}
  {change change' : Parameters → Parameters}

theorem Fills.pure : Fills kind P P (pure ⟨⟩) id :=
  fun event h => ⟨event, Yields.pure _ _, h, rfl⟩

theorem Fills.bind (hm : Fills kind P Q m change) (hm' : Fills kind Q R m' change') :
    Fills kind P R (m >>= fun _ => m') (change' ∘ change) := by
  intro event h
  obtain ⟨between, hfirst, hQ, hbetween⟩ := hm event h
  obtain ⟨after, hsecond, hR, hafter⟩ := hm' between hQ
  exact ⟨after, hfirst.bind hsecond, hR, by rw [hafter, hbetween, Function.comp_apply]⟩

theorem Fills.store {f : Event → Event} (hf : ∀ event, P event → Q (f event))
    (hchange : ∀ event, eventParameters kind (f event) = change (eventParameters kind event)) :
    Fills kind P Q (store f) change :=
  fun event h => ⟨f event, Yields.store _ _, hf event h, hchange event⟩

theorem Fills.read {α : Type} {field : Option α} {v : α} {next : α → Faulting Event PUnit}
    (hfield : field = some v) (hnext : Fills kind P Q (next v) change) :
    Fills kind P Q (Faulting.read field >>= next) change := by
  intro event h
  obtain ⟨after, hyields, hafter⟩ := hnext event h
  subst hfield
  exact ⟨after, (Yields.read v event).bind hyields, hafter⟩

theorem Fills.get {next : Event → Faulting Event PUnit}
    (hnext : ∀ event, P event → Fills kind (· = event) Q (next event) change) :
    Fills kind P Q (get >>= next) change := by
  intro event h
  obtain ⟨after, hyields, hafter⟩ := hnext event h event rfl
  exact ⟨after, (Yields.get event).bind hyields, hafter⟩

theorem Fills.forM {f : Nat → Faulting Event PUnit} (indices : List Nat)
    (hf : ∀ i ∈ indices, Fills kind P P (f i) id) : Fills kind P P (indices.forM f) id := by
  intro event h
  have hloop := Yields.forM (P := fun event' => P event' ∧
      eventParameters kind event' = eventParameters kind event) indices (f := f) ?_ ⟨h, rfl⟩
  · exact hloop
  · rintro i hi event' ⟨hP, hsame⟩
    obtain ⟨after, hyields, hP', hafter⟩ := hf i hi event' hP
    exact ⟨after, hyields, hP', hafter.trans hsame⟩

theorem eq_some_word {field : Option UInt32} (h : field.isSome) : field = some (word field) := by
  cases field with
  | none => cases h
  | some v => rfl

theorem fills_captureField (captured : Bool) (change : Bool → Parameters → Parameters)
    {field : Option UInt32} {put : UInt32 → Event → Event} (hfield : field.isSome)
    (hput : ∀ v event, P event → P (put v event)) (hkept : ∀ p, change false p = p)
    (hchange : ∀ event, eventParameters kind (put (word field) event) =
      change true (eventParameters kind event)) :
    Fills kind P P (captureField captured field put) (change captured) := by
  cases captured with
  | false => exact fun event h => ⟨event, Yields.pure _ _, h, (hkept _).symm⟩
  | true => exact Fills.read (eq_some_word hfield) (Fills.store (hput _) hchange)

theorem fills_captureArray (captured : Bool) {pointer : Option (Option Words)} {count : Nat}
    {put : Nat → UInt32 → Event → Event}
    (hpointer : captured = true → ValidPointer (Readable count) pointer)
    (hcount : captured = true → ∀ event, P event → event.axisCount.toNat ≤ count)
    (hput : ∀ i v event, P event → P (put i v event))
    (hsame : ∀ i v event, eventParameters kind (put i v event) = eventParameters kind event) :
    Fills kind P P (captureArray captured pointer put) id := by
  cases captured with
  | false => exact Fills.pure
  | true =>
    obtain ⟨target, htarget, hreadable⟩ := hpointer rfl
    apply Fills.read htarget
    cases target with
    | none => exact Fills.pure
    | some words =>
      intro event h
      have hloop : Fills kind P P ((List.range event.axisCount.toNat).forM fun i => do
          let value ← read (words i)
          store (put i value)) id := by
        apply Fills.forM
        intro i hi
        have hbound := hcount rfl event h
        rw [List.mem_range] at hi
        have hword := hreadable words rfl i (by omega)
        exact Fills.read (eq_some_word hword) (Fills.store (hput i _) (hsame i _))
      obtain ⟨after, hyields, hafter⟩ := hloop event h
      exact ⟨after, (Yields.get event).bind hyields, hafter⟩

end Rules

section Forces
variable {kind : EffectKind}

def OfKind (kind : EffectKind) (event : Event) : Prop := EffectKind.ofValue event.effectKind = kind

def Fresh (kind : EffectKind) (event : Event) : Prop :=
  OfKind kind event ∧ (eventParameters kind event).envelope = {}

theorem fills_word {P Q : Event → Prop} (change : Parameters → Parameters)
    {change' : Parameters → Parameters}
    {put : UInt32 → Event → Event} {rest : Faulting Event PUnit} {field : Option UInt32}
    (hfield : field.isSome) (hput : ∀ v event, P event → P (put v event))
    (hchange : ∀ event, eventParameters kind (put (word field) event) =
      change (eventParameters kind event))
    (hrest : Fills kind P Q rest change') :
    Fills kind P Q (do
      let v ← read field
      store (put v)
      rest) (change' ∘ change) :=
  Fills.read (eq_some_word hfield) ((Fills.store (hput _) hchange).bind hrest)

theorem fills_lastWord {P : Event → Prop} (change : Parameters → Parameters)
    {put : UInt32 → Event → Event} {field : Option UInt32} (hfield : field.isSome)
    (hput : ∀ v event, P event → P (put v event))
    (hchange : ∀ event, eventParameters kind (put (word field) event) =
      change (eventParameters kind event)) :
    Fills kind P P (do
      let v ← read field
      store (put v)) change :=
  Fills.read (eq_some_word hfield) (Fills.store (hput _) hchange)

theorem Fills.weaken {P P' Q Q' : Event → Prop} {m : Faulting Event PUnit}
    {change change' : Parameters → Parameters} (h : Fills kind P Q m change)
    (hP : ∀ event, P' event → P event) (hQ : ∀ event, Q event → Q' event)
    (hchange : ∀ event, P' event →
      change (eventParameters kind event) = change' (eventParameters kind event)) :
    Fills kind P' Q' m change' := by
  intro event hP'
  obtain ⟨after, hyields, hafter, hsame⟩ := h event (hP event hP')
  exact ⟨after, hyields, hQ after hafter, hsame.trans (hchange event hP')⟩

theorem Fills.of_imp {P P' Q : Event → Prop} {m : Faulting Event PUnit}
    {change : Parameters → Parameters} (h : Fills kind P Q m change)
    (hP : ∀ event, P' event → P event) : Fills kind P' Q m change :=
  fun event hP' => h event (hP event hP')

theorem fills_captureEnvelope (captured : Bool) {effect : DIEFFECT}
    (hpointer : captured = true → ValidPointer DIENVELOPE.Readable effect.lpEnvelope) :
    Fills kind (Fresh kind) (OfKind kind) (captureEnvelope captured effect.lpEnvelope)
      fun p => { p with envelope := if captured then effect.envelope else p.envelope } := by
  cases captured with
  | false => exact Fills.pure.weaken (fun _ h => h) (fun _ h => h.1) fun _ _ => rfl
  | true =>
    obtain ⟨target, htarget, hreadable⟩ := hpointer rfl
    apply Fills.read htarget
    have hcleared : ∀ event, Fresh kind event → effect.envelope = {} →
        eventParameters kind event =
          { eventParameters kind event with envelope := effect.envelope } := by
      intro event h hzero
      rw [hzero, ← h.2]
    cases target with
    | none =>
      apply Fills.pure.weaken (fun _ h => h) (fun _ h => h.1)
      intro event h
      exact hcleared event h (by rw [DIEFFECT.envelope, htarget])
    | some envelope =>
      have hfields := hreadable envelope rfl
      simp only [DIENVELOPE.Readable, List.forall_mem_cons, List.not_mem_nil, false_implies,
        implies_true, and_true] at hfields
      obtain ⟨hsize, hattackLevel, hattackTime, hfadeLevel, hfadeTime⟩ := hfields
      apply Fills.read (eq_some_word hsize)
      have henvelope : effect.envelope =
          if sizeofDIENVELOPE ≤ (word envelope.dwSize).toNat then envelope.envelope else {} := by
        rw [DIEFFECT.envelope, htarget]
      by_cases hlarge : sizeofDIENVELOPE ≤ (word envelope.dwSize).toNat
      · rw [if_pos hlarge] at henvelope
        rw [if_pos hlarge, henvelope]
        apply Fills.weaken (P := OfKind kind) (Q := OfKind kind)
        · exact fills_word (fun p => { p with envelope.attackLevel := word envelope.dwAttackLevel })
            hattackLevel (fun _ _ h => h) (fun _ => rfl) <|
            fills_word (fun p => { p with envelope.attackTime := word envelope.dwAttackTime })
              hattackTime (fun _ _ h => h) (fun _ => rfl) <|
            fills_word (fun p => { p with envelope.fadeLevel := word envelope.dwFadeLevel })
              hfadeLevel (fun _ _ h => h) (fun _ => rfl) <|
            fills_lastWord (fun p => { p with envelope.fadeTime := word envelope.dwFadeTime })
              hfadeTime (fun _ _ h => h) fun _ => rfl
        · exact fun _ h => h.1
        · exact fun _ h => h
        · exact fun _ _ => rfl
      · rw [if_neg hlarge] at henvelope ⊢
        apply Fills.pure.weaken (fun _ h => h) (fun _ h => h.1)
        intro event h
        exact hcleared event h henvelope

theorem yields_captureConstant {words : Words} (h : Readable 1 words) (event : Event) :
    Yields (captureConstant words) event ⟨⟩
      { event with magnitude := (word (words 0)).toInt32 } := by
  rw [captureConstant, eq_some_word (h 0 (by omega))]
  rfl

theorem yields_captureRamp {words : Words} (h : Readable 2 words) (event : Event) :
    Yields (captureRamp words) event ⟨⟩
      { event with
        rampStart := (word (words 0)).toInt32
        rampEnd := (word (words 1)).toInt32 } := by
  rw [captureRamp, eq_some_word (h 0 (by omega)), eq_some_word (h 1 (by omega))]
  rfl

theorem yields_capturePeriodic {words : Words} (h : Readable 4 words) (event : Event) :
    Yields (capturePeriodic words) event ⟨⟩
      { event with
        periodicMagnitude := (word (words 0)).toInt32
        periodicOffset := (word (words 1)).toInt32
        periodicPhase := (word (words 2)).toInt32
        periodicPeriod := (word (words 3)).toInt32
        magnitude := (word (words 0)).toInt32 } := by
  rw [capturePeriodic, eq_some_word (h 0 (by omega)), eq_some_word (h 1 (by omega)),
    eq_some_word (h 2 (by omega)), eq_some_word (h 3 (by omega))]
  rfl

/-- Conditions are no parameters of the effect. -/
theorem eventParameters_storeCondition (i : Nat) (f : ConditionSample → ConditionSample)
    (event : Event) : eventParameters kind (storeCondition i f event) = eventParameters kind event :=
  rfl

theorem fills_captureCondition {words : Words} {i : Nat} (h : Readable (6 * i + 6) words) :
    Fills kind (fun _ => True) (fun _ => True) (captureCondition words i) id := by
  have hstore : ∀ f event, eventParameters kind (storeCondition i f event) =
      id (eventParameters kind event) := fun f event => eventParameters_storeCondition i f event
  apply Fills.weaken (P := fun _ => True) (Q := fun _ => True)
  · exact fills_word id (h (6 * i) (by omega)) (fun _ _ h => h) (fun _ => hstore _ _) <|
      fills_word id (h (6 * i + 1) (by omega)) (fun _ _ h => h) (fun _ => hstore _ _) <|
      fills_word id (h (6 * i + 2) (by omega)) (fun _ _ h => h) (fun _ => hstore _ _) <|
      fills_word id (h (6 * i + 3) (by omega)) (fun _ _ h => h) (fun _ => hstore _ _) <|
      fills_word id (h (6 * i + 4) (by omega)) (fun _ _ h => h) (fun _ => hstore _ _) <|
      fills_lastWord id (h (6 * i + 5) (by omega)) (fun _ _ h => h) fun _ => hstore _ _
  · exact fun _ h => h
  · exact fun _ h => h
  · exact fun _ _ => rfl

theorem yields_captureConditions {words : Words} (event : Event)
    (h : Readable (event.typeSpecificSize.toNat / 4) words) :
    ∃ event', Yields (captureConditions words) event ⟨⟩ event' ∧
      eventParameters kind event' = eventParameters kind event := by
  have hloop : Fills kind (fun _ => True) (fun _ => True) ((List.range (conditionCount
      event.axisCount.toNat event.typeSpecificSize.toNat)).forM (captureCondition words)) id := by
    apply Fills.forM
    intro i hi
    have hcount : conditionCount event.axisCount.toNat event.typeSpecificSize.toNat ≤
        event.typeSpecificSize.toNat / 24 := Nat.min_le_right _ _
    rw [List.mem_range] at hi
    apply fills_captureCondition
    intro j hj
    exact h j (by omega)
  obtain ⟨after, hyields, -, hafter⟩ := hloop { event with conditionCount :=
    (conditionCount event.axisCount.toNat event.typeSpecificSize.toNat).toUInt32 } trivial
  exact ⟨after, (Yields.get event).bind ((Yields.store _ event).bind hyields), hafter⟩

/-- The branch of the switch that a kind with a large enough block takes. -/
def captureForce (kind : EffectKind) (words : Words) : Faulting Event PUnit :=
  match kind with
  | .constant => captureConstant words
  | .ramp => captureRamp words
  | .square | .sine | .triangle | .sawtoothUp | .sawtoothDown => capturePeriodic words
  | .spring | .damper | .inertia | .friction => captureConditions words
  | .unknown | .custom => store fun event => { event with customRedacted := true }

theorem outcome_captureTypeSpecific {words : Words} {event : Event} (hkind : OfKind kind event)
    (hsize : typeSpecificSize kind ≤ event.typeSpecificSize.toNat) :
    (captureTypeSpecific words).outcome event = (captureForce kind words).outcome event := by
  have hget : (get : Faulting Event Event).outcome event = (.ok event, event) := rfl
  rw [OfKind] at hkind
  rw [captureTypeSpecific, outcome_bind, hget]
  simp only [hkind]
  cases kind with
  | unknown | custom => rfl
  | _ => exact congrArg (fun m : Faulting Event PUnit => m.outcome event) (if_pos hsize)

theorem yields_captureTypeSpecific {effect : DIEFFECT} {words : Words} {event : Event}
    (hpointer : effect.lpvTypeSpecificParams = some (some words))
    (hsize : typeSpecificSize kind ≤ event.typeSpecificSize.toNat)
    (hreadable : Readable (event.typeSpecificSize.toNat / 4) words) (hkind : OfKind kind event) :
    ∃ event', Yields (captureTypeSpecific words) event ⟨⟩ event' ∧
      eventParameters kind event' =
        { eventParameters kind event with force := effect.force kind } := by
  have hword : ∀ i, effect.typeSpecificWord i = word (words i) := by
    intro i
    rw [DIEFFECT.typeSpecificWord, hpointer]
  have hstart : ∀ n, 4 * n ≤ event.typeSpecificSize.toNat → Readable n words := by
    intro n hn i hi
    exact hreadable i (by omega)
  simp only [Yields, outcome_captureTypeSpecific hkind hsize]
  cases kind with
  | constant =>
    refine ⟨_, yields_captureConstant (hstart 1 hsize) event, ?_⟩
    simp only [DIEFFECT.force, hword]
    rfl
  | ramp =>
    refine ⟨_, yields_captureRamp (hstart 2 hsize) event, ?_⟩
    simp only [DIEFFECT.force, hword]
    rfl
  | square | sine | triangle | sawtoothUp | sawtoothDown =>
    refine ⟨_, yields_capturePeriodic (hstart 4 hsize) event, ?_⟩
    simp only [DIEFFECT.force, hword]
    rfl
  | spring | damper | inertia | friction => exact yields_captureConditions event hreadable
  | unknown | custom => exact ⟨_, Yields.store _ _, rfl⟩

theorem force_unread (hsize : typeSpecificSize kind = 0) (effect : DIEFFECT) (event : Event) :
    { eventParameters kind event with force := effect.force kind } = eventParameters kind event := by
  cases kind with
  | unknown | custom => rfl
  | _ => exact absurd hsize (by decide)

theorem eventParameters_redactOpaque (event : Event) :
    eventParameters kind (redactOpaque event) = eventParameters kind event := by
  rw [redactOpaque]
  split <;> rfl

theorem fills_redactOpaque :
    Fills kind (OfKind kind) (OfKind kind) (store redactOpaque) id := by
  refine Fills.store (fun event h => ?_) eventParameters_redactOpaque
  rw [OfKind, redactOpaque]
  split <;> exact h

def captureBlock (captured : Bool) (effect : DIEFFECT) : Faulting Event PUnit :=
  if captured then do
    let cbTypeSpecificParams ← read effect.cbTypeSpecificParams
    store fun event => { event with typeSpecificSize := cbTypeSpecificParams }
    match ← read effect.lpvTypeSpecificParams with
    | none => store redactOpaque
    | some words =>
      if cbTypeSpecificParams = 0 then store redactOpaque
      else captureTypeSpecific words
  else pure ()

theorem fills_captureBlock (captured : Bool) {effect : DIEFFECT}
    (hsize : effect.cbTypeSpecificParams.isSome)
    (hblock : captured = true →
      typeSpecificSize kind ≤ (word effect.cbTypeSpecificParams).toNat ∧
        (0 < typeSpecificSize kind → effect.lpvTypeSpecificParams ≠ some none) ∧
        ValidPointer (Readable ((word effect.cbTypeSpecificParams).toNat / 4))
          effect.lpvTypeSpecificParams) :
    Fills kind (OfKind kind) (fun _ => True) (captureBlock captured effect)
      fun p => { p with force := if captured then effect.force kind else p.force } := by
  cases captured with
  | false => exact fun event _ => ⟨event, Yields.pure _ _, trivial, rfl⟩
  | true =>
    obtain ⟨hlarge, hnull, target, htarget, hreadable⟩ := hblock rfl
    apply Fills.read (eq_some_word hsize)
    intro event hkind
    have hredacted : typeSpecificSize kind = 0 → ∃ event',
        Yields (store redactOpaque) { event with typeSpecificSize := word effect.cbTypeSpecificParams }
          ⟨⟩ event' ∧ True ∧ eventParameters kind event' =
            { eventParameters kind event with force := effect.force kind } := by
      intro hzero
      refine ⟨_, Yields.store _ _, trivial, ?_⟩
      rw [eventParameters_redactOpaque, force_unread hzero]
      rfl
    cases target with
    | none =>
      have hzero : typeSpecificSize kind = 0 := by
        by_contra hne
        exact hnull (by omega) htarget
      obtain ⟨event', hyields, hafter⟩ := hredacted hzero
      exact ⟨event', (Yields.store _ event).bind (htarget ▸ (Yields.read none _).bind hyields), hafter⟩
    | some words =>
      have hpassed : ∀ {event'}, Yields (if word effect.cbTypeSpecificParams = 0 then
            store redactOpaque else captureTypeSpecific words)
          { event with typeSpecificSize := word effect.cbTypeSpecificParams } ⟨⟩ event' →
          Yields (do
            store fun event => { event with typeSpecificSize := word effect.cbTypeSpecificParams }
            match ← read effect.lpvTypeSpecificParams with
            | none => store redactOpaque
            | some words =>
              if word effect.cbTypeSpecificParams = 0 then store redactOpaque
              else captureTypeSpecific words) event ⟨⟩ event' := by
        intro event' hyields
        rw [htarget]
        exact (Yields.store _ event).bind ((Yields.read (some words) _).bind hyields)
      by_cases hempty : word effect.cbTypeSpecificParams = 0
      · rw [if_pos hempty] at hpassed
        rw [hempty] at hlarge
        obtain ⟨event', hyields, hafter⟩ := hredacted (Nat.le_zero.mp hlarge)
        exact ⟨event', hpassed hyields, hafter⟩
      · rw [if_neg hempty] at hpassed
        have hsized : OfKind kind
          { event with typeSpecificSize := word effect.cbTypeSpecificParams } := hkind
        obtain ⟨event', hyields, hafter⟩ :=
          yields_captureTypeSpecific htarget hlarge (hreadable words rfl) hsized
        exact ⟨event', hpassed hyields, trivial, hafter⟩

end Forces

section Structures
variable {kind : EffectKind} {win64 : Bool} {selected : UInt32 → Bool} {effect : DIEFFECT}

theorem normalizeUnsigned_eq (value : UInt32) :
    normalizeUnsigned value = min 1 ((value.toNat : ℚ) / 10000) := by
  rw [normalizeUnsigned, clamp01, max_eq_right]
  positivity

/-- A fresh event whose axes are no more than the structure's, where they are captured. -/
def Counted (kind : EffectKind) (captured : Bool) (effect : DIEFFECT) (event : Event) : Prop :=
  Fresh kind event ∧ (captured = true → event.axisCount.toNat ≤ (word effect.cAxes).toNat)

theorem fills_axisCount (captured : Bool) (hcount : effect.cAxes.isSome) :
    Fills kind (Fresh kind) (Counted kind captured effect)
      (captureField captured effect.cAxes fun v event =>
        { event with axisCount := (min v.toNat kMaxAxes).toUInt32 }) id := by
  intro event h
  cases captured with
  | false => exact ⟨event, Yields.pure _ _, ⟨h, nofun⟩, rfl⟩
  | true =>
    rw [captureField, if_pos rfl, eq_some_word hcount]
    refine ⟨_, (Yields.read _ event).bind (Yields.store _ event), ⟨h, fun _ => ?_⟩, rfl⟩
    have hsmall : min (word effect.cAxes).toNat kMaxAxes ≤ 8 := Nat.min_le_right _ _
    have hle : min (word effect.cAxes).toNat kMaxAxes ≤ (word effect.cAxes).toNat :=
      Nat.min_le_left _ _
    simp only [Nat.toUInt32, UInt32.toNat_ofNat']
    omega

/-- Capturing a valid structure merges its selected parameters into the event. -/
theorem fills_captureFields (h : effect.Valid win64 selected kind) {size : Nat}
    (hsize : sizeofDIEFFECT win64 ≤ size) :
    Fills kind (Fresh kind) (fun _ => True) (captureFields win64 effect size selected)
      fun p => p.merge selected (effect.parameters kind) := by
  have hfields := h.fields
  simp only [List.forall_mem_cons, List.not_mem_nil, false_implies, implies_true,
    and_true] at hfields
  obtain ⟨hflags, hduration, hperiod, hgain, hbutton, hrepeat, hcount, hblock, hdelay⟩ := hfields
  have hfull : (selected DIEP_STARTDELAY && decide (sizeofDIEFFECT win64 ≤ size)) =
      selected DIEP_STARTDELAY := by simp only [hsize, decide_true, Bool.and_true]
  rw [captureFields, hfull]
  have haxes : ∀ flag, (flag = DIEP_AXES ∨ flag = DIEP_DIRECTION) → selected flag = true →
      ∀ event, Counted kind (selected DIEP_AXES || selected DIEP_DIRECTION) effect event →
        event.axisCount.toNat ≤ (word effect.cAxes).toNat := by
    rintro flag (rfl | rfl) hselected event hcounted
    · exact hcounted.2 (by rw [hselected, Bool.true_or])
    · exact hcounted.2 (by rw [hselected, Bool.or_true])
  apply Fills.weaken (P := Fresh kind) (Q := fun _ => True)
  · exact
      Fills.bind (fills_captureField true (fun _ p => p) hflags (fun _ _ h => h) (fun _ => rfl)
        fun _ => rfl) <|
      Fills.bind (fills_captureField (selected DIEP_DURATION) (fun c p =>
        { p with duration := if c then word effect.dwDuration else p.duration }) hduration
        (fun _ _ h => h) (fun _ => rfl) fun _ => rfl) <|
      Fills.bind (fills_captureField (selected DIEP_SAMPLEPERIOD) (fun _ p => p) hperiod
        (fun _ _ h => h) (fun _ => rfl) fun _ => rfl) <|
      Fills.bind (fills_captureField (selected DIEP_GAIN) (fun c p =>
        { p with gain := if c then normalizeUnsigned (word effect.dwGain) else p.gain }) hgain
        (fun _ _ h => h) (fun _ => rfl) fun _ => rfl) <|
      Fills.bind (fills_captureField (selected DIEP_STARTDELAY) (fun c p =>
        { p with startDelay := if c then word effect.dwStartDelay else p.startDelay }) hdelay
        (fun _ _ h => h) (fun _ => rfl) fun _ => rfl) <|
      Fills.bind (fills_captureField (selected DIEP_TRIGGERBUTTON) (fun c p =>
        { p with triggerButton := if c then word effect.dwTriggerButton else p.triggerButton })
        hbutton (fun _ _ h => h) (fun _ => rfl) fun _ => rfl) <|
      Fills.bind (fills_captureField (selected DIEP_TRIGGERREPEATINTERVAL) (fun c p =>
        { p with triggerRepeat :=
          if c then word effect.dwTriggerRepeatInterval else p.triggerRepeat })
        hrepeat (fun _ _ h => h) (fun _ => rfl) fun _ => rfl) <|
      Fills.bind (fills_axisCount _ hcount) <|
      Fills.bind (fills_captureArray _ h.axes (haxes _ (.inl rfl)) (fun _ _ _ h => h)
        fun _ _ _ => rfl) <|
      Fills.bind (fills_captureArray _ h.directions (haxes _ (.inr rfl)) (fun _ _ _ h => h)
        fun _ _ _ => rfl) <|
      Fills.bind ((fills_captureEnvelope _ h.envelope).of_imp fun _ h => h.1) <|
      Fills.bind fills_redactOpaque <|
      fills_captureBlock _ hblock h.typeSpecific
  · exact fun _ h => h
  · exact fun _ h => h
  · intro event _
    simp only [normalizeUnsigned_eq]
    rfl

/-- Which parameters a call selects: a creation all of them, an update those of its flags. -/
def captures (event : Event) (flag : UInt32) : Bool :=
  event.type = .effectCreated || event.flags &&& flag != 0

theorem captures_update (event : Event) (h : event.type ≠ .effectCreated) :
    captures event = hasFlags event.flags := by
  funext flag
  simp only [captures, h, decide_false, Bool.false_or, hasFlags]
  by_cases hflag : event.flags &&& flag = 0 <;> simp [hflag]

theorem captures_creation (event : Event) (h : event.type = .effectCreated) :
    captures event = fun _ => true := by
  funext flag
  simp only [captures, h, decide_true, Bool.true_or]

theorem parameters_fillEffectParameters (event : Event)
    (h : effect.Valid win64 (captures event) kind) (hfresh : Fresh kind event) :
    eventParameters kind (fillEffectParameters win64 (some effect) event) =
      (eventParameters kind event).merge (captures event) (effect.parameters kind) := by
  obtain ⟨size, hsize, hfull⟩ := h.full
  have hlarge : ¬ size.toNat < sizeofDIEFFECT_DX5 win64 := by
    have hlayouts : sizeofDIEFFECT_DX5 win64 ≤ sizeofDIEFFECT win64 := by cases win64 <;> decide
    omega
  obtain ⟨after, hyields, -, hafter⟩ := fills_captureFields h hfull event hfresh
  have hwhole : Yields (captureEffect win64 effect) event ⟨⟩ after := by
    rw [captureEffect, hsize]
    refine (Yields.read size event).bind ?_
    rw [if_neg hlarge]
    exact (Yields.get event).bind hyields
  rw [Yields] at hwhole
  simp only [fillEffectParameters, hwhole]
  exact hafter

end Structures

end FfbInterceptor.Telemetry
