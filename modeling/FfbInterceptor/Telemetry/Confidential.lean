import FfbInterceptor.Telemetry.Capture

/-! What capturing lets through of the game's structure: two structures that agree where the flags
select make the same event, and of an opaque block not even the bytes matter. -/
namespace FfbInterceptor.Telemetry
open Library Library.Faulting Protocol

def selects (event : Event) (flag : UInt32) : Bool :=
  event.type = .effectCreated || event.flags &&& flag != 0

/-- Two structures that agree on their sizes, their flags and what is selected. -/
structure Alike (win64 : Bool) (event : Event) (effect effect' : DIEFFECT) : Prop where
  dwSize : effect'.dwSize = effect.dwSize
  dwFlags : effect'.dwFlags = effect.dwFlags
  dwDuration : selects event DIEP_DURATION → effect'.dwDuration = effect.dwDuration
  dwSamplePeriod : selects event DIEP_SAMPLEPERIOD → effect'.dwSamplePeriod = effect.dwSamplePeriod
  dwGain : selects event DIEP_GAIN → effect'.dwGain = effect.dwGain
  /-- The short structure has no start delay. -/
  dwStartDelay : selects event DIEP_STARTDELAY →
    (∀ size, effect.dwSize = some size → sizeofDIEFFECT win64 ≤ size.toNat) →
      effect'.dwStartDelay = effect.dwStartDelay
  dwTriggerButton : selects event DIEP_TRIGGERBUTTON → effect'.dwTriggerButton = effect.dwTriggerButton
  dwTriggerRepeatInterval : selects event DIEP_TRIGGERREPEATINTERVAL →
    effect'.dwTriggerRepeatInterval = effect.dwTriggerRepeatInterval
  cAxes : selects event DIEP_AXES ∨ selects event DIEP_DIRECTION → effect'.cAxes = effect.cAxes
  rgdwAxes : selects event DIEP_AXES → effect'.rgdwAxes = effect.rgdwAxes
  rglDirection : selects event DIEP_DIRECTION → effect'.rglDirection = effect.rglDirection
  lpEnvelope : selects event DIEP_ENVELOPE → effect'.lpEnvelope = effect.lpEnvelope
  cbTypeSpecificParams : selects event DIEP_TYPESPECIFICPARAMS →
    effect'.cbTypeSpecificParams = effect.cbTypeSpecificParams
  /-- Of an opaque block it only matters that the pointer to it can be read. -/
  lpvTypeSpecificParams : selects event DIEP_TYPESPECIFICPARAMS →
    if isOpaque event then
      effect'.lpvTypeSpecificParams.isSome = effect.lpvTypeSpecificParams.isSome
    else effect'.lpvTypeSpecificParams = effect.lpvTypeSpecificParams

section TwoRuns
variable {win64 : Bool} {event : Event} {effect effect' : DIEFFECT}

theorem captureField_congr {captured : Bool} {field field' : Option UInt32}
    (h : captured = true → field' = field) (put : UInt32 → Event → Event) :
    captureField captured field' put = captureField captured field put := by
  cases captured with
  | true => rw [h rfl]
  | false => rfl

theorem captureArray_congr {captured : Bool} {pointer pointer' : Option (Option Words)}
    (h : captured = true → pointer' = pointer) (put : Nat → UInt32 → Event → Event) :
    captureArray captured pointer' put = captureArray captured pointer put := by
  cases captured with
  | true => rw [h rfl]
  | false => rfl

theorem captureEnvelope_congr {captured : Bool} {pointer pointer' : Option (Option DIENVELOPE)}
    (h : captured = true → pointer' = pointer) :
    captureEnvelope captured pointer' = captureEnvelope captured pointer := by
  cases captured with
  | true => rw [h rfl]
  | false => rfl

def SameKind (event event' : Event) : Prop := event'.effectKind = event.effectKind

def Marked (event event' : Event) : Prop :=
  SameKind event event' ∧ (isOpaque event = true → event'.customRedacted = true)

theorem SameKind.touches {event' event'' : Event} (htouches : Touches event' event'')
    (h : SameKind event event') : SameKind event event'' := htouches.effectKind.trans h

theorem Marked.touches {event' event'' : Event} (htouches : Touches event' event'')
    (h : Marked event event') : Marked event event'' :=
  ⟨h.1.touches htouches, fun hopaque => htouches.customRedacted (h.2 hopaque)⟩

theorem isOpaque_of_kind {event' : Event} (h : SameKind event event') : isOpaque event' = isOpaque event := by
  rw [isOpaque, isOpaque, h]

theorem marked_redactOpaque {event' : Event} (h : SameKind event event') :
    Marked event (redactOpaque event') := by
  refine ⟨h.touches (touches_redactOpaque event'), fun hopaque => ?_⟩
  rw [redactOpaque, isOpaque_of_kind h, if_pos hopaque]

theorem ofValue_of_isOpaque {event' : Event} (h : isOpaque event' = true) :
    EffectKind.ofValue event'.effectKind = .custom ∨ EffectKind.ofValue event'.effectKind = .unknown := by
  simp only [isOpaque, Bool.or_eq_true, beq_iff_eq] at h
  cases h with
  | inl hcustom =>
    rw [hcustom]
    exact .inl rfl
  | inr hunknown =>
    rw [hunknown]
    exact .inr rfl

/-- Whatever an opaque block holds, it is only marked. -/
theorem yields_of_opaque {event' : Event} (h : isOpaque event' = true) (size : UInt32)
    (block : Option Words) :
    Yields (do
      match ← read (some block) with
      | none => store redactOpaque
      | some words =>
        if size = 0 then store redactOpaque
        else captureTypeSpecific words) event' ⟨⟩ { event' with customRedacted := true } := by
  have hredact : redactOpaque event' = { event' with customRedacted := true } := if_pos h
  have hstore : Yields (store redactOpaque) event' ⟨⟩ { event' with customRedacted := true } := by
    rw [← hredact]
    exact Yields.store redactOpaque event'
  refine (Yields.read block event').bind ?_
  cases block with
  | none => exact hstore
  | some words =>
    simp only
    split
    · exact hstore
    · refine (Yields.get event').bind ?_
      cases ofValue_of_isOpaque h with
      | inl hcustom =>
        rw [hcustom]
        exact Yields.store _ event'
      | inr hunknown =>
        rw [hunknown]
        exact Yields.store _ event'

theorem couples_block (h : Alike win64 event effect effect')
    (hselected : selects event DIEP_TYPESPECIFICPARAMS = true) :
    Couples (Marked event) (Marked event)
      (do
        let cbTypeSpecificParams ← read effect.cbTypeSpecificParams
        store fun event => { event with typeSpecificSize := cbTypeSpecificParams }
        match ← read effect.lpvTypeSpecificParams with
        | none => store redactOpaque
        | some words =>
          if cbTypeSpecificParams = 0 then store redactOpaque
          else captureTypeSpecific words)
      (do
        let cbTypeSpecificParams ← read effect'.cbTypeSpecificParams
        store fun event => { event with typeSpecificSize := cbTypeSpecificParams }
        match ← read effect'.lpvTypeSpecificParams with
        | none => store redactOpaque
        | some words =>
          if cbTypeSpecificParams = 0 then store redactOpaque
          else captureTypeSpecific words) := by
  have hpointer := h.lpvTypeSpecificParams hselected
  rw [h.cbTypeSpecificParams hselected]
  by_cases hopaque : isOpaque event = true
  · rw [if_pos hopaque] at hpointer
    refine Couples.bind (Couples.of_eq rfl (Keeps.read _)) fun size => ?_
    refine Couples.bind (Couples.store fun event' hmarked =>
      hmarked.touches { Touches.refl event' with }) fun _ => ?_
    cases hread : effect.lpvTypeSpecificParams with
    | none =>
      rw [hread, Option.isSome_none, Option.isSome_eq_false_iff, Option.isNone_iff_eq_none] at hpointer
      rw [hpointer]
      exact Couples.fault
    | some block =>
      rw [hread, Option.isSome_some, Option.isSome_iff_exists] at hpointer
      obtain ⟨block', hread'⟩ := hpointer
      intro event' hmarked
      have hstill : isOpaque event' = true := (isOpaque_of_kind hmarked.1).trans hopaque
      have hkept : Marked event { event' with customRedacted := true } :=
        hmarked.touches { Touches.refl event' with customRedacted := fun _ => rfl }
      have hfirst := yields_of_opaque hstill size block
      have hsecond := yields_of_opaque hstill size block'
      rw [hread']
      refine ⟨hsecond.trans hfirst.symm, fun _ after hyields => ?_⟩
      rw [Yields, hfirst] at hyields
      obtain ⟨-, rfl⟩ := Prod.mk.inj hyields
      exact hkept
  · rw [if_neg hopaque] at hpointer
    rw [hpointer]
    exact Couples.of_eq rfl (keeps_captureBlock (fun htouches hmarked => hmarked.touches htouches) _ _)

theorem couples_captureFields (h : Alike win64 event effect effect') {dwSize : UInt32}
    (hsize : effect.dwSize = some dwSize) :
    Couples (SameKind event) (Marked event)
      (captureFields win64 effect dwSize.toNat (selects event))
      (captureFields win64 effect' dwSize.toNat (selects event)) := by
  have hkind : ∀ {event' event'' : Event}, Touches event' event'' → SameKind event event' →
      SameKind event event'' := fun htouches hkind => hkind.touches htouches
  have hdelay : (selects event DIEP_STARTDELAY && decide (sizeofDIEFFECT win64 ≤ dwSize.toNat)) = true →
      effect'.dwStartDelay = effect.dwStartDelay := by
    intro hboth
    obtain ⟨hselected, hlarge⟩ := Bool.and_eq_true_iff.mp hboth
    refine h.dwStartDelay hselected fun size hread => ?_
    obtain rfl := Option.some.inj (hread.symm.trans hsize)
    exact of_decide_eq_true hlarge
  refine Couples.bind (Couples.of_eq (captureField_congr (fun _ => h.dwFlags) _)
    (keeps_captureField hkind _ _ fun _ event => { Touches.refl event with })) fun _ => ?_
  refine Couples.bind (Couples.of_eq (captureField_congr h.dwDuration _)
    (keeps_captureField hkind _ _ fun _ event => { Touches.refl event with })) fun _ => ?_
  refine Couples.bind (Couples.of_eq (captureField_congr h.dwSamplePeriod _)
    (keeps_captureField hkind _ _ fun _ event => { Touches.refl event with })) fun _ => ?_
  refine Couples.bind (Couples.of_eq (captureField_congr h.dwGain _)
    (keeps_captureField hkind _ _ fun _ event => { Touches.refl event with })) fun _ => ?_
  refine Couples.bind (Couples.of_eq (captureField_congr hdelay _)
    (keeps_captureField hkind _ _ fun _ event => { Touches.refl event with })) fun _ => ?_
  refine Couples.bind (Couples.of_eq (captureField_congr h.dwTriggerButton _)
    (keeps_captureField hkind _ _ fun _ event => { Touches.refl event with })) fun _ => ?_
  refine Couples.bind (Couples.of_eq (captureField_congr h.dwTriggerRepeatInterval _)
    (keeps_captureField hkind _ _ fun _ event => { Touches.refl event with })) fun _ => ?_
  refine Couples.bind (Couples.of_eq
    (captureField_congr (fun heither => h.cAxes (Bool.or_eq_true_iff.mp heither)) _)
    (keeps_captureField hkind _ _ fun v event => { Touches.refl event with
      axisCount := .inr (toNat_toUInt32_le (Nat.min_le_right v.toNat kMaxAxes)) })) fun _ => ?_
  refine Couples.bind (Couples.of_eq (captureArray_congr h.rgdwAxes _)
    (keeps_captureArray hkind _ _ fun _ _ event => { Touches.refl event with })) fun _ => ?_
  refine Couples.bind (Couples.of_eq (captureArray_congr h.rglDirection _)
    (keeps_captureArray hkind _ _ fun _ _ event => { Touches.refl event with })) fun _ => ?_
  refine Couples.bind (Couples.of_eq (captureEnvelope_congr h.lpEnvelope)
    (keeps_captureEnvelope hkind _ _)) fun _ => ?_
  refine Couples.bind (Couples.store fun _ => marked_redactOpaque) fun _ => ?_
  exact Couples.ite (couples_block h) (Couples.of_eq rfl (Keeps.pure _))

theorem outcome_captureEffect {dwSize : UInt32} (hsize : effect.dwSize = some dwSize) :
    (captureEffect win64 effect).outcome event =
      if dwSize.toNat < sizeofDIEFFECT_DX5 win64 then
        (.ok ⟨⟩, { event with customRedacted := isOpaque event })
      else (captureFields win64 effect dwSize.toNat (selects event)).outcome event := by
  rw [captureEffect, hsize, outcome_read_bind]
  split
  · rw [outcome_store]
  · rw [outcome_get_bind]
    rfl

/-- Both structures lead to the same outcome; without a fault an opaque event is marked. -/
theorem captureEffect_alike (h : Alike win64 event effect effect') :
    (captureEffect win64 effect').outcome event = (captureEffect win64 effect).outcome event ∧
      ∀ after, Yields (captureEffect win64 effect) event ⟨⟩ after →
        isOpaque event = true → after.customRedacted = true := by
  cases hsize : effect.dwSize with
  | none =>
    simp only [Yields, captureEffect, h.dwSize, hsize, outcome_fault_bind]
    refine ⟨trivial, fun after hyields => ?_⟩
    cases (Prod.mk.inj hyields).1
  | some dwSize =>
    have hsize' : effect'.dwSize = some dwSize := h.dwSize.trans hsize
    simp only [Yields, outcome_captureEffect hsize, outcome_captureEffect hsize']
    split
    · refine ⟨rfl, fun after hyields hopaque => ?_⟩
      obtain ⟨-, rfl⟩ := Prod.mk.inj hyields
      exact hopaque
    · obtain ⟨hsame, hends⟩ := couples_captureFields h hsize event rfl
      refine ⟨hsame, fun after hyields hopaque => ?_⟩
      exact (hends ⟨⟩ after hyields).2 hopaque

end TwoRuns

section Confidentiality

theorem Alike.refl (win64 : Bool) (event : Event) (effect : DIEFFECT) : Alike win64 event effect effect := by
  refine ⟨rfl, rfl, fun _ => rfl, fun _ => rfl, fun _ => rfl, fun _ _ => rfl, fun _ => rfl, fun _ => rfl,
    fun _ => rfl, fun _ => rfl, fun _ => rfl, fun _ => rfl, fun _ => rfl, fun _ => ?_⟩
  split <;> rfl

/-- An event says nothing of what the flags do not select, nothing of an opaque block but that there
may be one, and nothing of a start delay the structure has no room for; its counts stay within the
arrays, also where reading the structure faults. -/
theorem capture_confidential (win64 : Bool) (event : Event) :
    (∀ effect effect', Alike win64 event effect effect' →
      fillEffectParameters win64 (some effect') event = fillEffectParameters win64 (some effect) event) ∧
    (∀ effect, isOpaque event = true →
      (fillEffectParameters win64 (some effect) event).customRedacted = true) ∧
    (∀ effect size, effect.dwSize = some size → size.toNat < sizeofDIEFFECT win64 → ∀ dwStartDelay,
      fillEffectParameters win64 (some { effect with dwStartDelay := dwStartDelay }) event =
        fillEffectParameters win64 (some effect) event) ∧
    (event.axisCount.toNat ≤ kMaxAxes → event.conditionCount.toNat ≤ kMaxAxes → ∀ effect,
      (fillEffectParameters win64 effect event).axisCount.toNat ≤ kMaxAxes ∧
        (fillEffectParameters win64 effect event).conditionCount.toNat ≤ kMaxAxes) := by
  have halike : ∀ effect effect', Alike win64 event effect effect' →
      fillEffectParameters win64 (some effect') event =
        fillEffectParameters win64 (some effect) event := by
    intro effect effect' h
    simp only [fillEffectParameters, (captureEffect_alike h).1]
  refine ⟨halike, ?_, ?_, ?_⟩
  · intro effect hopaque
    obtain ⟨-, hmarked⟩ := captureEffect_alike (Alike.refl win64 event effect)
    simp only [fillEffectParameters]
    cases hresult : (captureEffect win64 effect).outcome event with
    | mk result after =>
      cases result with
      | ok _ => exact hmarked after hresult hopaque
      | error _ => rfl
  · intro effect size hsize hsmall dwStartDelay
    apply halike
    refine { Alike.refl win64 event effect with dwStartDelay := fun _ hlarge => ?_ }
    exact absurd (hlarge size hsize) (Nat.not_le.mpr hsmall)
  · intro haxes hconditions effect
    have hcaptured := captured_fillEffectParameters win64 effect haxes hconditions
    exact ⟨hcaptured.axisCount, hcaptured.conditionCount⟩

end Confidentiality

end FfbInterceptor.Telemetry
