import FfbInterceptor.Protocol.Grammar

/-! The positions of a frame the decoder ignores: all others can be told from the decoded frame. -/
namespace FfbInterceptor.Protocol
open FfbInterceptor.Library

/-- The frame's kind and command: an undefined code or an absent tail stands for zero. -/
def kindAt (b : List UInt8) : EffectKind :=
  if b.length = tailAt b + 4 then EffectKind.ofValue (word16At b (tailAt b)) else .unknown

def commandAt (b : List UInt8) : Option EffectCommand :=
  if b.length = tailAt b + 4 then EffectCommand.ofValue? (word16At b (tailAt b + 2)) else none

/-- The positions of a frame that the format ignores. -/
inductive Ignored (b : List UInt8) : Nat → Prop where
  | size {i : Nat} : 8 ≤ i → i < 12 → kindAt b = .unknown → commandAt b = none → Ignored b i
  | axis {i : Nat} : 156 + (word32At b 152).toNat * 4 ≤ i → i < 188 → Ignored b i
  | direction {i : Nat} : 188 + (word32At b 152).toNat * 4 ≤ i → i < 220 → Ignored b i
  | condition {i : Nat} : 224 + (word32At b 220).toNat * 24 ≤ i → i < 416 → Ignored b i
  | buildVersion {i : Nat} : 424 ≤ i → i < 456 → 0 ∈ sliceAt b 424 (i - 424) → Ignored b i
  | sessionId {i : Nat} : 456 ≤ i → i < 488 → 0 ∈ sliceAt b 456 (i - 456) → Ignored b i
  | kind {i : Nat} : tailAt b ≤ i → i < tailAt b + 2 → kindAt b = .unknown → Ignored b i
  | command {i : Nat} : tailAt b + 2 ≤ i → i < tailAt b + 4 → commandAt b = none → Ignored b i

section Texts

theorem cString_agree {xs ys : List UInt8} (hlength : xs.length = ys.length)
    (h : cString xs = cString ys) {i : Nat} (hi : xs[i]? ≠ ys[i]?) :
    0 ∈ xs.take i ∧ 0 ∈ ys.take i := by
  induction xs generalizing ys i with
  | nil =>
    cases ys with
    | nil => exact absurd rfl hi
    | cons y ys => cases hlength
  | cons x xs ih =>
    cases ys with
    | nil => cases hlength
    | cons y ys =>
      by_cases hx : x = 0
      · have hy : y = 0 := by
          by_contra hne
          simp [cString, hx, hne] at h
        cases i with
        | zero => simp [hx, hy] at hi
        | succ i => simp [hx, hy]
      · have hy : y ≠ 0 := by
          intro hzero
          simp [cString, hx, hzero] at h
        simp only [cString, ne_eq, hx, hy, not_false_eq_true, decide_true, List.takeWhile_cons_of_pos,
          List.cons.injEq] at h
        cases i with
        | zero => simp [h.1] at hi
        | succ i =>
          obtain ⟨hxs, hys⟩ := ih (by simpa using hlength) h.2 (by simpa using hi)
          exact ⟨List.mem_cons_of_mem x hxs, List.mem_cons_of_mem y hys⟩

theorem utf8Text_inj {xs ys : List UInt8} (hx : StrictUtf8 xs) (hy : StrictUtf8 ys)
    (h : utf8Text xs = utf8Text ys) : xs = ys := by
  obtain ⟨text, htext⟩ := Option.isSome_iff_exists.mp ((strictUtf8_iff xs).mp hx)
  obtain ⟨text', htext'⟩ := Option.isSome_iff_exists.mp ((strictUtf8_iff ys).mp hy)
  rw [utf8Text, utf8Text, htext, htext', Option.getD_some, Option.getD_some] at h
  rw [fromUTF8?_eq_some_iff.mp htext, fromUTF8?_eq_some_iff.mp htext', h]

end Texts

section Same

variable {b d : List UInt8}

theorem Grammar.length_ge (h : Grammar b) : 490 + textLengthAt b ≤ b.length := by
  have htail := h.tail
  simp only [tailAt] at htail
  omega

theorem typeOf_inj {v w : UInt16} (hv : 1 ≤ v ∧ v ≤ 8) (hw : 1 ≤ w ∧ w ≤ 8) (h : typeOf v = typeOf w) :
    v = w := by
  rw [← value_typeOf hv, ← value_typeOf hw, h]

theorem agree_of_conditionAt {k : Nat} (hb : k + 24 ≤ b.length) (hc : k + 24 ≤ d.length)
    (h : conditionAt b k = conditionAt d k) : Agree b d k 24 := by
  simp only [conditionAt, ConditionSample.mk.injEq] at h
  obtain ⟨h0, h1, h2, h3, h4, h5⟩ := h
  exact (agree_of_int32At (by omega) (by omega) h0).append
    ((agree_of_int32At (by omega) (by omega) h1).append
      ((agree_of_int32At (by omega) (by omega) h2).append
        ((agree_of_word32At (by omega) (by omega) h3).append
          ((agree_of_word32At (by omega) (by omega) h4).append
            (agree_of_int32At (by omega) (by omega) h5)))))

theorem axes_agree {k : Nat} (hb : Grammar b) (hc : Grammar d) (hk : k + 32 ≤ 490)
    (h : (int32sAt b k 8).take (word32At b 152).toNat = (int32sAt d k 8).take (word32At d 152).toNat) :
    word32At b 152 = word32At d 152 ∧ Agree b d k ((word32At b 152).toNat * 4) := by
  have hlb := hb.length_ge
  have hlc := hc.length_ge
  have hcount := toNat_le_eight hb.axisCount
  obtain ⟨hsame, hitems⟩ := take_map_range_eq hcount (toNat_le_eight hc.axisCount) h
  refine ⟨UInt32.toNat_inj.mp hsame, ?_⟩
  intro i hi hlt
  have hitem := hitems ((i - k) / 4) (by omega)
  exact agree_of_int32At (by omega) (by omega) hitem i (by omega) (by omega)

theorem conditions_agree (hb : Grammar b) (hc : Grammar d)
    (h : (conditionsAt b 224 8).take (word32At b 220).toNat =
      (conditionsAt d 224 8).take (word32At d 220).toNat) :
    word32At b 220 = word32At d 220 ∧ Agree b d 224 ((word32At b 220).toNat * 24) := by
  have hlb := hb.length_ge
  have hlc := hc.length_ge
  have hcount := toNat_le_eight hb.conditionCount
  obtain ⟨hsame, hitems⟩ := take_map_range_eq hcount (toNat_le_eight hc.conditionCount) h
  refine ⟨UInt32.toNat_inj.mp hsame, ?_⟩
  intro i hi hlt
  have hitem := hitems ((i - 224) / 24) (by omega)
  exact agree_of_conditionAt (by omega) (by omega) hitem i (by omega) (by omega)

theorem redaction_agree (hb : Grammar b) (hc : Grammar d)
    (h : (word32At b 420 == 1) = (word32At d 420 == 1)) : word32At b 420 = word32At d 420 := by
  rw [Bool.eq_iff_iff, beq_iff_eq, beq_iff_eq] at h
  cases hb.redaction with
  | inl hzero =>
    cases hc.redaction with
    | inl hzero' => rw [hzero, hzero']
    | inr hone =>
      rw [hzero, hone] at h
      exact absurd h (by decide)
  | inr hone => rw [hone, h.mp hone]

theorem agree_of_frameAt (hb : Grammar b) (hc : Grammar d) (h : frameAt b = frameAt d) :
    Agree b d 0 8 ∧ Agree b d 12 144 ∧ Agree b d 220 4 ∧ Agree b d 416 8 := by
  have hlb := hb.length_ge
  have hlc := hc.length_ge
  simp only [frameAt, ProtocolFrame.mk.injEq] at h
  obtain ⟨htype, hflags, -, hsequence, hticks, h32, h36, h40, h44, hguid, h64, h68, h72, h76, h80, h84,
    h88, h92, h96, h100, h104, h108, h112, h116, h120, h124, h128, h132, h136, h140, h144, h148, haxes,
    -, hconditions, h416, hredacted, -⟩ := h
  have word : ∀ {k}, k + 4 ≤ 490 → word32At b k = word32At d k → Agree b d k 4 :=
    fun _ => agree_of_word32At (by omega) (by omega)
  have int : ∀ {k}, k + 4 ≤ 490 → int32At b k = int32At d k → Agree b d k 4 :=
    fun _ => agree_of_int32At (by omega) (by omega)
  have hmagic : Agree b d 0 4 := agree_of_sliceAt (hb.magic.trans hc.magic.symm)
  have hversion : Agree b d 4 2 :=
    agree_of_word16At (by omega) (by omega) (hb.version.trans hc.version.symm)
  have hmessage : Agree b d 6 2 :=
    agree_of_word16At (by omega) (by omega) (typeOf_inj hb.messageType hc.messageType htype)
  have hstamp := (agree_of_word64At (by omega) (by omega) hsequence).append
    (agree_of_word64At (k := 24) (by omega) (by omega) hticks)
  have hidentity := (word (by omega) h32).append ((word (k := 36) (by omega) h36).append
    ((word (k := 40) (by omega) h40).append ((word (k := 44) (by omega) h44).append
      ((agree_of_sliceAt (k := 48) hguid).append ((int (k := 64) (by omega) h64).append
        (word (k := 68) (by omega) h68))))))
  have htiming := (word (by omega) h72).append ((word (k := 76) (by omega) h76).append
    ((word (k := 80) (by omega) h80).append ((word (k := 84) (by omega) h84).append
      ((word (k := 88) (by omega) h88).append ((word (k := 92) (by omega) h92).append
        (word (k := 96) (by omega) h96))))))
  have henvelope := (word (by omega) h100).append ((word (k := 104) (by omega) h104).append
    ((word (k := 108) (by omega) h108).append ((word (k := 112) (by omega) h112).append
      ((word (k := 116) (by omega) h116).append (word (k := 120) (by omega) h120)))))
  have hforces := (int (by omega) h124).append ((int (k := 128) (by omega) h128).append
    ((int (k := 132) (by omega) h132).append ((int (k := 136) (by omega) h136).append
      ((int (k := 140) (by omega) h140).append ((int (k := 144) (by omega) h144).append
        (int (k := 148) (by omega) h148))))))
  have hcount := word (k := 152) (by omega) (axes_agree hb hc (by omega) haxes).1
  refine ⟨hmagic.append (hversion.append hmessage), ?_,
    word (by omega) (conditions_agree hb hc hconditions).1,
    (word (by omega) h416).append (word (by omega) (redaction_agree hb hc hredacted))⟩
  have hwords := (word (by omega) hflags).append (hstamp.append (hidentity.append (htiming.append
    (henvelope.append (hforces.append hcount)))))
  exact hwords

theorem kind_value {value : UInt16} (h : EffectKind.ofValue value ≠ .unknown) :
    value = (EffectKind.ofValue value).value := by
  unfold EffectKind.ofValue at h ⊢
  split at h <;> first | rfl | exact absurd rfl h

theorem command_value {value : UInt16} {command : EffectCommand}
    (h : EffectCommand.ofValue? value = some command) : value = command.value := by
  unfold EffectCommand.ofValue? at h
  split at h <;> cases h <;> rfl

theorem tail_agree (htail : tailAt b = tailAt d)
    (hkind : kindAt b = kindAt d) (hcommand : commandAt b = commandAt d) :
    (kindAt b ≠ .unknown → Agree b d (tailAt b) 2) ∧
    (commandAt b ≠ none → Agree b d (tailAt b + 2) 2) := by
  constructor
  · intro hknown
    have hknown' := hknown
    rw [hkind] at hknown'
    have hpresent : b.length = tailAt b + 4 := by
      by_contra habsent
      exact hknown (if_neg habsent)
    have hpresent' : d.length = tailAt d + 4 := by
      by_contra habsent
      exact hknown' (if_neg habsent)
    simp only [kindAt, if_pos hpresent, if_pos hpresent'] at hkind hknown hknown'
    apply agree_of_word16At (by omega) (by omega)
    rw [htail] at hkind hknown ⊢
    rw [kind_value hknown, kind_value hknown', hkind]
  · intro hknown
    obtain ⟨command, hsome⟩ := Option.ne_none_iff_exists'.mp hknown
    have hpresent : b.length = tailAt b + 4 := by
      by_contra habsent
      exact hknown (if_neg habsent)
    have hpresent' : d.length = tailAt d + 4 := by
      by_contra habsent
      rw [hcommand] at hknown
      exact hknown (if_neg habsent)
    rw [hsome] at hcommand
    simp only [commandAt, if_pos hpresent, if_pos hpresent'] at hsome hcommand
    apply agree_of_word16At (by omega) (by omega)
    rw [command_value hsome, htail, command_value hcommand.symm]

/-- Frames of different sizes that decode alike differ in a tail that stands for zero. -/
theorem tail_zero (hb : Grammar b) (htail : tailAt b = tailAt d)
    (hkind : kindAt b = kindAt d) (hcommand : commandAt b = commandAt d)
    (hlength : b.length ≠ d.length) : kindAt b = .unknown ∧ commandAt b = none := by
  cases hb.tail with
  | inl habsent =>
    have hne : ¬ b.length = tailAt b + 4 := by omega
    exact ⟨if_neg hne, if_neg hne⟩
  | inr hpresent =>
    have hne : ¬ d.length = tailAt d + 4 := by omega
    rw [hkind, hcommand]
    exact ⟨if_neg hne, if_neg hne⟩

theorem fixedString_agree {k i : Nat} (hb : k + 32 ≤ b.length) (hc : k + 32 ≤ d.length)
    (h : fixedStringAt b k = fixedStringAt d k) (hk : k ≤ i) (hlt : i < k + 32) (hi : b[i]? ≠ d[i]?) :
    0 ∈ sliceAt b k (i - k) ∧ 0 ∈ sliceAt d k (i - k) := by
  have hitem : ∀ xs : List UInt8, (sliceAt xs k 32)[i - k]? = xs[i]? := by
    intro xs
    simp only [sliceAt, List.getElem?_take, show i - k < 32 by omega, ↓reduceIte, List.getElem?_drop,
      show k + (i - k) = i by omega]
  have hfront : ∀ xs : List UInt8, (sliceAt xs k 32).take (i - k) = sliceAt xs k (i - k) := by
    intro xs
    rw [sliceAt, List.take_take, Nat.min_eq_left (by omega), sliceAt]
  have hlength : (sliceAt b k 32).length = (sliceAt d k 32).length := by
    simp only [sliceAt, List.length_take, List.length_drop]
    omega
  rw [← hitem b, ← hitem d] at hi
  have hzero := cString_agree hlength h hi
  rwa [hfront, hfront] at hzero

theorem textLength_agree (hb : Grammar b) (hc : Grammar d)
    (h : sliceAt b 490 (textLengthAt b) = sliceAt d 490 (textLengthAt d)) :
    textLengthAt b = textLengthAt d := by
  have hlb := hb.length_ge
  have hlc := hc.length_ge
  have hlength := congrArg List.length h
  simp only [sliceAt, List.length_take, List.length_drop] at hlength
  omega

/-- Two frames that decode alike differ at ignored positions only. -/
theorem ignored_of_frameAt {i : Nat} (hb : Grammar b) (hc : Grammar d) (h : frameAt b = frameAt d)
    (hi : b[i]? ≠ d[i]?) : Ignored b i ∧ (8 ≤ i → i < 12 → b.length ≠ d.length) := by
  have hlb := hb.length_ge
  have hlc := hc.length_ge
  obtain ⟨hhead, hwords, hcount, hflags⟩ := agree_of_frameAt hb hc h
  have haxes := (axes_agree hb hc (by omega) (congrArg ProtocolFrame.axes h)).2
  have hdirections := (axes_agree hb hc (by omega) (congrArg ProtocolFrame.directions h)).2
  have hconditions := (conditions_agree hb hc (congrArg ProtocolFrame.conditions h)).2
  have hbuild := utf8Text_inj hb.buildVersion hc.buildVersion (congrArg ProtocolFrame.buildVersion h)
  have hsession := utf8Text_inj hb.sessionId hc.sessionId (congrArg ProtocolFrame.sessionId h)
  have htext := utf8Text_inj hb.text hc.text (congrArg ProtocolFrame.text h)
  have hlength := textLength_agree hb hc htext
  have htail : tailAt b = tailAt d := by rw [tailAt, tailAt, hlength]
  have hkind : kindAt b = kindAt d := congrArg ProtocolFrame.effectKind h
  have hcommand : commandAt b = commandAt d := congrArg ProtocolFrame.effectCommand h
  obtain ⟨hkindWord, hcommandWord⟩ := tail_agree htail hkind hcommand
  have htextLength : Agree b d 488 2 :=
    agree_of_word16At (by omega) (by omega) (UInt16.toNat_inj.mp hlength)
  rw [← hlength] at htext
  have htextBytes := agree_of_sliceAt htext
  have differs : ∀ {k n}, Agree b d k n → ¬ (k ≤ i ∧ i < k + n) :=
    fun hagree hwithin => hi (hagree i hwithin.1 hwithin.2)
  have hhead := differs hhead
  have hwords := differs hwords
  have hcount := differs hcount
  have hflags := differs hflags
  have htextLength := differs htextLength
  have htextBytes := differs htextBytes
  have hend : i < tailAt b + 4 := by
    by_contra hbeyond
    have hmost := hb.tail
    have hmost' := hc.tail
    rw [List.getElem?_eq_none (by omega), List.getElem?_eq_none (by omega)] at hi
    exact hi rfl
  have htailAt : tailAt b = 490 + textLengthAt b := rfl
  by_cases hsize : 8 ≤ i ∧ i < 12
  · have hlengths : b.length ≠ d.length := by
      intro hsame
      have hword : word32At b 8 = word32At d 8 := by
        apply UInt32.toNat_inj.mp
        rw [hb.size.1, hc.size.1, hsame]
      exact differs (agree_of_word32At (by omega) (by omega) hword) hsize
    obtain ⟨hzero, hzero'⟩ := tail_zero hb htail hkind hcommand hlengths
    exact ⟨.size hsize.1 hsize.2 hzero hzero', fun _ _ => hlengths⟩
  · refine ⟨?_, fun hfrom hto => absurd ⟨hfrom, hto⟩ hsize⟩
    by_cases h188 : i < 188
    · have hbeyond := differs haxes
      exact .axis (by omega) h188
    · by_cases h220 : i < 220
      · have hbeyond := differs hdirections
        exact .direction (by omega) h220
      · by_cases h416 : i < 416
        · have hbeyond := differs hconditions
          exact .condition (by omega) h416
        · by_cases h456 : i < 456
          · exact .buildVersion (by omega) h456
              (fixedString_agree (by omega) (by omega) hbuild (by omega) h456 hi).1
          · by_cases h488 : i < 488
            · exact .sessionId (by omega) h488
                (fixedString_agree (by omega) (by omega) hsession (by omega) h488 hi).1
            · by_cases hkindAt : i < tailAt b + 2
              · refine .kind (by omega) hkindAt ?_
                by_contra hknown
                exact differs (hkindWord hknown) ⟨by omega, hkindAt⟩
              · refine .command (by omega) hend ?_
                by_contra hknown
                exact differs (hcommandWord hknown) ⟨by omega, by omega⟩

end Same

/-- The decoder accepts exactly the format and fails with its own exceptions on everything else. Two
accepted strings of one frame differ in ignored positions only; their size fields differ only with
their lengths. -/
theorem decode_exact :
    (∀ b, (∃ frame, decode b = .ok frame) ↔ Grammar b) ∧
    (∀ b, ¬ Grammar b → ∃ e ∈ decodeErrors, decode b = .error e) ∧
    ∀ b d frame, decode b = .ok frame → decode d = .ok frame → ∀ i, b[i]? ≠ d[i]? →
      Ignored b i ∧ Ignored d i ∧ (8 ≤ i → i < 12 → b.length ≠ d.length) := by
  refine ⟨?_, fun b => decode_of_not_grammar, ?_⟩
  · intro b
    constructor
    · rintro ⟨frame, h⟩
      exact (grammar_of_decode h).1
    · intro h
      exact ⟨_, decode_of_grammar h⟩
  · intro b d frame hdecode hdecode' i hi
    obtain ⟨hb, rfl⟩ := grammar_of_decode hdecode
    obtain ⟨hc, h⟩ := grammar_of_decode hdecode'
    obtain ⟨hignored, hsize⟩ := ignored_of_frameAt hb hc h hi
    exact ⟨hignored, (ignored_of_frameAt hc hb h.symm hi.symm).1, hsize⟩

end FfbInterceptor.Protocol
