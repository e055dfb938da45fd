import FfbInterceptor.Proxy.DeviceRegistry
import FfbInterceptor.Proxy.EffectSafety

/-! What every interleaving keeps of the device registry: the counting and the accounts, one
registered control block for each identity, and what a call returns. -/
namespace FfbInterceptor.Proxy
open Library Library.Lifetimes Library.Registry

/-- What a call knows of its candidate, which nobody else changes, and what is over when it
returns. -/
def DeviceCall.Shape (s : DeviceRegistry) : DeviceCall → Prop
  | allocated u real c => (s.object c).body.real u = some real ∧ (s.object c).body.real (!u) = none
  | aliased u real c | identified u real c _ | constructed u real c =>
    (s.object c).body.real u = some real
  | deleting e (.reused _ c _) | deleting e (.discarded _ c) => c = e
  | returning (.reused _ c _) | returning (.discarded _ c) => .deleted c ∈ s.history
  | _ => True

/-- A call that made a candidate has either published it, and says so, or seen it deleted. -/
def Happening.Settled (history : List (Happening Pointer)) : Happening Pointer → Prop
  | .returned t _ candidate result created =>
    (created = true → result = candidate ∧ ∃ b, candidate = some b ∧ .inserted t b ∈ history) ∧
      ∀ b, candidate = some b → result = some b ∨ .deleted b ∈ history
  | _ => True

namespace DeviceRegistry
open World DeviceCall

structure Inv (s : DeviceRegistry) : Prop where
  sound : s.Sound
  shaped : ∀ (t : Nat) (call : DeviceCall), s.calls[t]? = some call → call.Shape s
  distinct : ∀ b ∈ s.registry, ∀ c ∈ s.registry, ∀ i,
    (s.object b).body.identity = some i → (s.object c).body.identity = some i → b = c
  settled : ∀ x ∈ s.history, Happening.Settled s.history x

variable {s s' : DeviceRegistry} {t e : Nat}

theorem shape_mono {call : DeviceCall} (h : call.Shape s)
    (hbody : ∀ c, 0 < builds c call → (s'.object c).body = (s.object c).body)
    (hhistory : ∀ x ∈ s.history, x ∈ s'.history) : call.Shape s' := by
  cases call with
  | allocated u real c | aliased u real c | identified u real c i | constructed u real c =>
    simp only [Shape, hbody c (by simp [builds])]
    exact h
  | deleting e after => cases after <;> exact h
  | returning after =>
    cases after with
    | released => trivial
    | reused | discarded => exact hhistory _ h
  | _ => trivial

theorem settled_mono {history more : List (Happening Pointer)} {x : Happening Pointer}
    (h : Happening.Settled history x) : Happening.Settled (history ++ more) x := by
  cases x with
  | returned t passed candidate result created =>
    refine ⟨fun hcreated => ?_, fun b hb => ?_⟩
    · obtain ⟨hresult, b, hb, hinserted⟩ := h.1 hcreated
      exact ⟨hresult, b, hb, List.mem_append_left _ hinserted⟩
    · cases h.2 b hb with
      | inl hresult => exact .inl hresult
      | inr hdeleted => exact .inr (List.mem_append_left _ hdeleted)
  | _ => trivial

/-- A step that changes no candidate of another call and adds to the history only what is
settled. -/
theorem Inv.take (h : s.Inv) (hsound : s'.Sound) {n : Option DeviceCall}
    (hcalls : s'.calls = n.elim s.calls (s.calls.set t))
    (hdistinct : ∀ b ∈ s'.registry, ∀ c ∈ s'.registry, ∀ i,
      (s'.object b).body.identity = some i → (s'.object c).body.identity = some i → b = c)
    (hothers : ∀ k call c, s.calls[k]? = some call → (n.isSome → k ≠ t) → 0 < builds c call →
      (s'.object c).body = (s.object c).body)
    (hnew : ∀ call ∈ n, call.Shape s') {l : List (Happening Pointer)}
    (hhistory : s'.history = s.history ++ l) (hnews : ∀ x ∈ l, Happening.Settled s'.history x) :
    s'.Inv := by
  have hkept : ∀ x ∈ s.history, x ∈ s'.history := fun x hx => by
    rw [hhistory]
    exact List.mem_append_left _ hx
  refine ⟨hsound, fun k call hcall => ?_, hdistinct, fun x hx => ?_⟩
  · cases n with
    | none =>
      rw [hcalls] at hcall
      exact shape_mono (h.shaped k call hcall) (fun c hc => hothers k call c hcall nofun hc) hkept
    | some fresh =>
      rw [hcalls] at hcall
      by_cases hk : k = t
      · subst hk
        have hfresh : call = fresh := by
          simp only [Option.elim_some, List.getElem?_set_self'] at hcall
          cases hold : s.calls[k]? with
          | none => simp [hold] at hcall
          | some _ => simpa [hold, eq_comm] using hcall
        exact hfresh ▸ hnew fresh rfl
      · rw [Option.elim_some, List.getElem?_set_ne (Ne.symm hk)] at hcall
        exact shape_mono (h.shaped k call hcall) (fun c hc => hothers k call c hcall (fun _ => hk) hc) hkept
  · rw [hhistory] at hx ⊢
    cases List.mem_append.mp hx with
    | inl hold => exact settled_mono (h.settled x hold)
    | inr hmem => exact hhistory ▸ hnews x hmem

theorem Inv.next (h : s.Inv) (hsound : s'.Sound) {n : Option DeviceCall}
    (hcalls : s'.calls = n.elim s.calls (s.calls.set t)) (hregistry : ∀ b ∈ s'.registry, b ∈ s.registry)
    (hbody : ∀ c ∈ s.registry, (s'.object c).body = (s.object c).body)
    (hothers : ∀ k call c, s.calls[k]? = some call → (n.isSome → k ≠ t) → 0 < builds c call →
      (s'.object c).body = (s.object c).body)
    (hnew : ∀ call ∈ n, call.Shape s') {l : List (Happening Pointer)}
    (hhistory : s'.history = s.history ++ l) (hnews : ∀ x ∈ l, Happening.Settled s'.history x) :
    s'.Inv := by
  refine h.take hsound hcalls (fun b hb c hc i hbi hci => ?_) hothers hnew hhistory hnews
  have hbold := hregistry b hb
  have hcold := hregistry c hc
  rw [hbody b hbold] at hbi
  rw [hbody c hcold] at hci
  exact h.distinct b hbold c hcold i hbi hci

theorem apart (h : s.Sound) {call : DeviceCall} {c : Nat} (hcall : s.calls[t]? = some call)
    (hbuilds : 0 < builds c call) : c ∉ s.registry ∧ ∀ k other d, s.calls[k]? = some other → k ≠ t →
      0 < builds d other → d ≠ c := by
  have hbuilt := h.built hcall hbuilds
  refine ⟨h.lives.not_listed hbuilt.1, fun k other d hother hne hd heq => ?_⟩
  subst heq
  have hboth : builds d call + builds d other ≤ s.building d :=
    add_le_total (builds d) hcall hother (Ne.symm hne)
  have honce : s.building d + s.registry.count d ≤ 1 := h.lives.once d
  omega

theorem publish_of_ne {t : Nat} (h : s.calls[t]? ≠ some .idle) (u : Bool) (real : Option Pointer) :
    s.publish t u real = s := by
  unfold publish
  cases hcall : s.calls[t]? with
  | none => rfl
  | some call =>
    rw [hcall] at h
    cases call with
    | idle => exact absurd rfl h
    | _ => rfl

theorem publish_of_none {t : Nat} (h : s.calls[t]? = some .idle) (u : Bool) :
    s.publish t u none = s.log (.returned t none none none false) := by
  unfold publish
  rw [h]

theorem publish_of_some {t : Nat} (h : s.calls[t]? = some .idle) (u : Bool) (p : Pointer) :
    s.publish t u (some p) =
      if 0 < s.callers p then (s.consume p).go t (.constructing u p) else s := by
  unfold publish
  rw [h]

theorem inv_publish (h : s.Inv) (t : Nat) (u : Bool) (real : Option Pointer) : (s.publish t u real).Inv := by
  by_cases hcall : s.calls[t]? = some .idle
  · cases real with
    | none =>
      rw [publish_of_none hcall]
      refine h.next (t := t) (n := none) ?_ rfl (fun _ hb => hb) (fun _ _ => rfl)
          (fun _ _ _ _ _ _ => rfl) nofun rfl ?_
      · exact h.sound.pass (fun _ => ⟨rfl, rfl⟩) rfl rfl (fun _ => rfl) (fun _ => rfl) (fun _ => rfl)
          h.sound.balance (.single rfl trivial)
      · simp [Happening.Settled]
    | some p =>
      rw [publish_of_some hcall]
      split
      · next howner =>
        refine h.next (n := some (.constructing u p)) ?_ rfl (fun _ hb => hb) (fun _ _ => rfl)
          (fun _ _ _ _ _ _ => rfl) ?_ (List.append_nil _).symm nofun
        · refine h.sound.go hcall rfl rfl rfl (fun x => ?_) (fun x => ?_) (fun x => ?_) (fun q => ?_)
            (.refl rfl)
          · simp [holds, builds]
          · simp [builds]
          · simp [deletes]
          · have hle := one_le howner q
            simp [lends]
            omega
        · simp [Shape]
      · exact h
  · rw [publish_of_ne hcall]
    exact h

theorem inv_allocateCandidate (h : s.Inv) (t : Nat) (candidate state : Bool) :
    (s.allocateCandidate t candidate state).Inv := by
  unfold allocateCandidate
  split
  · next u real hcall =>
    split
    · refine h.next (n := some (.allocated u real s.objects.length)) ?_ rfl (fun _ hb => hb) ?_ ?_ ?_
        (List.append_nil _).symm nofun
      · refine h.sound.allocate rfl rfl (fun x => ?_) (fun x => ?_) (fun x => ?_) (fun p => ?_) (.refl rfl)
        · refine held_of hcall rfl ?_
          simp [holds, builds]
          omega
        · refine building_of hcall rfl ?_
          simp [builds]
        · refine deleting_of hcall rfl ?_
          simp [deletes]
        · refine balance_of hcall rfl (h.sound.balance p) (owned_allocate (w := s) _ p) ?_
          rw [WrapperDevice8State.owns_eq _ u]
          simp [lends]
          omega
      · intro c hc
        have hlt := h.sound.lt_of_held (h.sound.lives.listed_held c hc)
        refine congrArg Counted.body ((object_allocate (w := s) _ c).trans (if_neg ?_))
        omega
      · intro k call c hk _ hc
        have hlt := h.sound.lt_of_held (e := c) (by have := h.sound.built hk hc; omega)
        refine congrArg Counted.body ((object_allocate (w := s) _ c).trans (if_neg ?_))
        omega
      · have hobject := congrArg Counted.body ((object_allocate (w := s)
          ((WrapperDevice8State.setReal {} u (some real)).setWrapper u true) _).trans (if_pos rfl))
        intro call hnew
        obtain rfl := Option.some.inj hnew
        refine ⟨(congrArg (WrapperDevice8State.real · u) hobject).trans ?_,
          (congrArg (WrapperDevice8State.real · (!u)) hobject).trans ?_⟩ <;> simp
    · refine h.next (n := some .idle) ?_ rfl (fun _ hb => hb) (fun _ _ => rfl)
        (fun _ _ _ _ _ _ => rfl) ?_ rfl ?_
      · refine h.sound.go hcall rfl rfl rfl (fun x => ?_) (fun x => ?_) (fun x => ?_) (fun q => ?_)
          (.single rfl trivial)
        · simp [holds, builds]
        · simp [builds]
        · simp [deletes]
        · simp [lends]
      · simp [Shape]
      · simp [Happening.Settled]
  · exact h

theorem inv_amend (h : s.Inv) {old new : DeviceCall} {c : Nat} (hcall : s.calls[t]? = some old)
    (hold : 0 < builds c old) {f : WrapperDevice8State → WrapperDevice8State}
    (hcalls : s'.calls = s.calls.set t new) (hobjects : s'.objects = (s.amend c f).objects)
    (hregistry : s'.registry = s.registry) (hclients : s'.clients = s.clients)
    (hholds : ∀ x, holds x new = holds x old) (hbuilds : ∀ x, builds x new = builds x old)
    (hdeletes : ∀ x, deletes x new = deletes x old)
    (hlends : ∀ p, s'.real p + (s.callers p + Owner.owns p (s.object c).body + lends p old) =
      s.real p + (s'.callers p + Owner.owns p (f (s.object c).body) + lends p new))
    (hnew : (s'.object c).body = f (s.object c).body → new.Shape s')
    (hhistory : s'.history = s.history) : s'.Inv := by
  have hbuilt := h.sound.built hcall hold
  have hlt := h.sound.lt_of_held (e := c) (by omega)
  have hapart := apart h.sound hcall hold
  have hbody {x : Nat} (hx : x ≠ c) : (s'.object x).body = (s.object x).body := by
    rw [object_congr hobjects, object_amend hlt, if_neg hx]
  refine h.next (t := t) (n := some new) ?_ hcalls (fun b hb => hregistry ▸ hb) (fun x hx => hbody ?_)
    (fun k call x hk hne hx => hbody (hapart.2 k call x hk (hne rfl) hx)) ?_
    (hhistory.trans (List.append_nil _).symm) nofun
  · refine h.sound.pass (fun x => ?_) ?_ hregistry (fun x => ?_) (fun x => ?_) (fun x => ?_) (fun p => ?_)
      (.refl hhistory)
    · rw [object_congr hobjects]
      exact counter_amend hlt f x
    · rw [hobjects]
      simp
    · have hpart := hholds x
      refine held_of hcall hcalls ?_
      simp only [hclients, holds_eq]
      omega
    · have hpart := hbuilds x
      refine building_of hcall hcalls ?_
      simp only [builds_eq]
      omega
    · have hpart := hdeletes x
      refine deleting_of hcall hcalls ?_
      simp only [deletes_eq]
      omega
    · have hpart := hlends p
      have howned := owned_amend (w := s) hlt f p
      have hsame : s'.owned p = (s.amend c f).owned p := by rw [owned, hobjects]; rfl
      refine balance_of hcall hcalls (h.sound.balance p) hsame ?_
      simp only [lends_eq]
      omega
  · exact fun heq => hapart.1 (heq ▸ hx)
  · intro call heq
    obtain rfl := Option.some.inj heq
    refine hnew ?_
    rw [object_congr hobjects, object_amend hlt, if_pos rfl]

theorem inv_queryAlias (h : s.Inv) (t : Nat) (answer : Option Pointer) (wrapper : Bool) :
    (s.queryAlias t answer wrapper).Inv := by
  unfold queryAlias
  split
  · next u real c hcall =>
    have hshape := h.shaped t _ hcall
    refine inv_amend h hcall (c := c) (by simp [builds])
      (f := fun x => (x.setReal (!u) answer).setWrapper (!u) (answer.isSome && wrapper)) rfl rfl rfl rfl
      (fun x => ?_) (fun x => ?_) (fun x => ?_) (fun p => ?_) (fun hbody => ?_) rfl
    · simp [holds, builds]
    · simp [builds]
    · simp [deletes]
    · rw [WrapperDevice8State.owns_eq _ u, WrapperDevice8State.owns_eq _ u, hshape.1, hshape.2]
      simp [hshape.1, lends]
      omega
    · exact (congrArg (WrapperDevice8State.real · u) hbody).trans (by simp [hshape.1])
  · exact h

theorem inv_queryIdentity (h : s.Inv) (t : Nat) (answer : Option Pointer) :
    (s.queryIdentity t answer).Inv := by
  unfold queryIdentity
  split
  · next u real c hcall =>
    have hshape := h.shaped t _ hcall
    split
    · refine h.next (n := some (.identified u real c _)) ?_ rfl (fun _ hb => hb) (fun _ _ => rfl)
        (fun _ _ _ _ _ _ => rfl) ?_ (List.append_nil _).symm nofun
      · refine h.sound.go hcall rfl rfl rfl (fun x => ?_) (fun x => ?_) (fun x => ?_) (fun q => ?_)
          (.refl rfl)
        · simp [holds, builds]
        · simp [builds]
        · simp [deletes]
        · simp [lends]
          omega
      · intro call heq
        obtain rfl := Option.some.inj heq
        exact hshape
    · refine h.next (n := some (.constructed u real c)) ?_ rfl (fun _ hb => hb) (fun _ _ => rfl)
        (fun _ _ _ _ _ _ => rfl) ?_ (List.append_nil _).symm nofun
      · refine h.sound.go hcall rfl rfl rfl (fun x => ?_) (fun x => ?_) (fun x => ?_) (fun q => ?_)
          (.refl rfl)
        · simp [holds, builds]
        · simp [builds]
        · simp [deletes]
        · simp [lends]
      · intro call heq
        obtain rfl := Option.some.inj heq
        exact hshape
  · exact h

theorem inv_keepIdentity (h : s.Inv) (t : Nat) : (s.keepIdentity t).Inv := by
  unfold keepIdentity
  split
  · next u real c i hcall =>
    have hshape := h.shaped t _ hcall
    refine inv_amend h hcall (c := c) (by simp [builds]) (f := ({ · with identity := some i })) rfl rfl rfl
      rfl (fun x => ?_) (fun x => ?_) (fun x => ?_) (fun p => ?_) (fun hbody => ?_) rfl
    · simp [holds, builds]
    · simp [builds]
    · simp [deletes]
    · have hle := lends_le hcall (h.sound.balance p)
      simp [lends, Owner.owns] at hle ⊢
      omega
    · exact (congrArg (WrapperDevice8State.real · u) hbody).trans hshape
  · exact h

theorem inv_discard (h : s.Inv) {u : Bool} {real : Pointer} {c : Nat}
    (hcall : s.calls[t]? = some (.constructed u real c)) : (s.discard t u real c).Inv := by
  have hshape : (s.object c).body.real u = some real := h.shaped t _ hcall
  refine inv_amend h hcall (c := c) (by simp [builds]) (f := (·.setReal u none)) rfl rfl rfl
    rfl (fun x => ?_) (fun x => ?_) (fun x => ?_) (fun p => ?_) (fun _ => trivial) rfl
  · simp [holds, builds]
  · simp [builds]
  · simp [deletes]
  · rw [WrapperDevice8State.owns_eq _ u, WrapperDevice8State.owns_eq _ u, hshape]
    simp [lends, discard]
    omega

theorem inv_resolve (h : s.Inv) (hsmall : ∀ e, s.held e < 2 ^ 32) (t : Nat) : (s.resolve t).Inv := by
  unfold resolve
  split
  · next u real c hcall =>
    have hbuilt := h.sound.built (e := c) hcall (by simp [builds])
    have hapart := apart h.sound (c := c) hcall (by simp [builds])
    dsimp only
    split
    · split
      · next e hfind =>
        split
        · have hlisted : e ∈ s.lives.listed := List.mem_of_find?_eq_some hfind
          have hpos : 0 < s.held e := h.sound.lives.listed_held e hlisted
          have hcount : (s.object e).refCount ≠ 0 := fun hzero => by
            have hnobody : s.held e = 0 := (h.sound.lives.count_eq_zero_iff (hsmall e)).mp hzero
            omega
          refine h.next (n := some (.reusing real c e)) ?_ rfl (fun _ hb => hb) (fun x _ => body_addRef x)
            (fun _ _ x _ _ _ => body_addRef x) ?_ rfl ?_
          · refine h.sound.addRef hpos (h.sound.lives.unlisted_of_listed hlisted) rfl rfl (fun x => ?_)
              (fun x => ?_) (fun x => ?_) (fun p => ?_) (.single rfl hcount)
            · refine held_of hcall rfl ?_
              simp [holds, builds]
              omega
            · refine building_of hcall rfl ?_
              simp [builds]
            · refine deleting_of hcall rfl ?_
              simp [deletes]
            · refine balance_of hcall rfl (h.sound.balance p) (owned_addRef p) ?_
              simp [lends]
          · simp [Shape]
          · simp [Happening.Settled]
        · exact inv_discard h hcall
      · next hfind =>
        have hunwanted : ∀ e ∈ s.registry, ¬ s.isWanted real (s.object c).body.identity e := by
          simpa using hfind
        refine h.take (n := some .idle) ?_ rfl (fun b hb d hd i hbi hdi => ?_)
          (fun _ _ x _ _ _ => body_register x) ?_ (List.append_assoc ..) ?_
        · refine h.sound.register hbuilt.1 rfl rfl (fun x => ?_) (fun x => ?_) (fun x => ?_) (fun p => ?_)
            ⟨_, List.append_assoc .., ?_⟩
          · refine held_of hcall rfl ?_
            simp [holds, builds]
          · have hle := builds_le hcall x
            refine building_of hcall rfl ?_
            simp [builds] at hle ⊢
            omega
          · refine deleting_of hcall rfl ?_
            simp [deletes]
          · refine balance_of hcall rfl (h.sound.balance p) (owned_register p) ?_
            simp [lends]
          · simp [Happening.IsQuiet]
        · have hbi' : (s.object b).body.identity = some i := (congrArg _ (body_register b)).symm.trans hbi
          have hdi' : (s.object d).body.identity = some i := (congrArg _ (body_register d)).symm.trans hdi
          have hnone {e : Nat} (he : e ∈ s.registry) (hc : (s.object c).body.identity = some i)
              (hid : (s.object e).body.identity = some i) : False :=
            hunwanted e he (by simp [isWanted, hc, hid])
          cases List.mem_cons.mp hb with
          | inl hbc =>
            cases List.mem_cons.mp hd with
            | inl hdc => exact hbc.trans hdc.symm
            | inr hdold => exact (hnone hdold (hbc ▸ hbi') hdi').elim
          | inr hbold =>
            cases List.mem_cons.mp hd with
            | inl hdc => exact (hnone hbold (hdc ▸ hdi') hbi').elim
            | inr hdold => exact h.distinct b hbold d hdold i hbi' hdi'
        · simp [Shape]
        · simp [Happening.Settled]
    · exact inv_discard h hcall
  · exact h

/-- The candidate's own reference is its only one, so the locked part leaves it to be deleted. -/
theorem inv_releaseOwn (h : s.Inv) {old : DeviceCall} {c : Nat} {after : AfterRelease}
    (hcall : s.calls[t]? = some old) (hbuilds : ∀ x, builds x old = one (some c) x)
    (hholds : ∀ x, holds x old = one (some c) x + after.holds x) (hdeletes : ∀ x, deletes x old = 0)
    (hlends : ∀ p, lends p old = after.lends p) (hafter : (DeviceCall.deleting c after).Shape s) :
    Inv ((s.release c).go t (s.afterRelease c after)) := by
  obtain ⟨hbuilding, hone⟩ := h.sound.built (e := c) hcall (by simp [hbuilds])
  have hlt := h.sound.lt_of_held (e := c) (by omega)
  have hlast : (s.object c).refCount - 1 = 0 :=
    (h.sound.lives.count_give_eq_zero_iff (b := c) (by simp [lives, hone]) (by simp [lives, hone])).mpr hone
  have hnew : s.afterRelease c after = .deleting c after := if_pos hlast
  have hcalls : ((s.release c).go t (.deleting c after)).calls = s.calls.set t (.deleting c after) := by
    simp
  rw [hnew]
  refine h.next (t := t) (n := some (.deleting c after)) ?_ hcalls (fun b hb => ?_)
    (fun x _ => body_release hlt x) (fun _ _ x _ _ _ => body_release hlt x) ?_ (l := []) (by simp)
    fun x hx => absurd hx List.not_mem_nil
  · refine h.sound.release (e := c) (by omega) (by omega) rfl rfl (fun x => ?_) (fun x => ?_) (fun x => ?_)
      (fun p => ?_) (.refl (by simp))
    · have hle : one (some c) x ≤ s.held x := one_le (by omega) x
      have hnow : holds x (.deleting c after) = after.holds x := Nat.zero_add _
      refine held_of hcall hcalls ?_
      simp only [go_clients, release_clients, holds_eq, hholds, hnow]
      omega
    · have hle := builds_le hcall x
      have hnow : builds x (.deleting c after) = 0 := rfl
      refine building_of hcall hcalls ?_
      simp only [builds_eq, hbuilds, hnow] at hle ⊢
      omega
    · have hnow : deletes x (.deleting c after) = one (some c) x := rfl
      refine deleting_of hcall hcalls ?_
      simp only [deletes_eq, hdeletes, hnow, if_pos hlast]
      omega
    · have hnow : lends p (.deleting c after) = after.lends p := rfl
      refine balance_of hcall hcalls (h.sound.balance p) (owned_release p) ?_
      simp only [go_real, go_callers, release_real, release_callers, lends_eq, hlends, hnow]
  · have hregistry : ((s.release c).go t (.deleting c after)).registry = _ :=
      registry_release hlt (h.sound.marked c)
    rw [hregistry, if_pos hlast] at hb
    exact List.mem_of_mem_erase hb
  · intro call heq
    obtain rfl := Option.some.inj heq
    cases after <;> exact hafter

theorem inv_releaseCandidate (h : s.Inv) (t : Nat) : (s.releaseCandidate t).Inv := by
  unfold releaseCandidate
  split
  · next real c existing hcall =>
    have hafter : (DeviceCall.deleting c (.reused real c existing)).Shape s := rfl
    refine inv_releaseOwn h hcall (fun x => ?_) (fun x => ?_) (fun x => ?_) (fun p => ?_) hafter
    · simp [builds]
    · simp [holds, builds, AfterRelease.holds]
    · simp [deletes]
    · simp [lends, AfterRelease.lends]
  · next real c hcall =>
    have hafter : (DeviceCall.deleting c (.discarded real c)).Shape s := rfl
    refine inv_releaseOwn h hcall (fun x => ?_) (fun x => ?_) (fun x => ?_) (fun p => ?_) hafter
    · simp [builds]
    · simp [holds, builds, AfterRelease.holds]
    · simp [deletes]
    · simp [lends, AfterRelease.lends]
  · exact h

theorem inv_delete (h : s.Inv) (t : Nat) : (s.delete t).Inv := by
  unfold delete
  split
  · next e after hcall =>
    have hshape := h.shaped t _ hcall
    obtain ⟨hdeleting, hlt⟩ := h.sound.dying (e := e) hcall (by simp [deletes])
    have hnobody : s.held e = 0 := (h.sound.lives.dead_of_ending hdeleting).2
    have hbody {x : Nat} (hx : 0 < s.held x) : ((s.free e).object x).body = (s.object x).body := by
      have hne : e ≠ x := fun heq => by
        subst heq
        omega
      simp [object, World.free, List.getElem?_set_ne hne]
    refine h.next (t := t) (n := some (.returning after)) ?_ rfl (fun _ hb => hb) (fun x hx => ?_)
      (fun k call x hk _ hx => ?_) ?_ rfl ?_
    · refine h.sound.free hdeleting rfl rfl (fun x => ?_) (fun x => ?_) (fun x => ?_) (fun p => ?_) rfl
        fun x hx => absurd hx List.not_mem_nil
      · refine held_of hcall rfl ?_
        simp [holds, builds]
      · refine building_of hcall rfl ?_
        simp [builds]
      · have hle := deletes_le hcall x
        refine deleting_of hcall rfl ?_
        simp [deletes] at hle ⊢
        omega
      · have howned := owned_free (w := s) hlt p
        have hle := lends_le hcall (h.sound.balance p)
        refine balance_of hcall rfl (h.sound.balance p) (Nat.eq_sub_of_add_eq howned) ?_
        simp [lends, Owner.owns] at howned hle ⊢
        omega
    · exact hbody (h.sound.lives.listed_held x hx)
    · refine hbody ?_
      have := h.sound.built hk hx
      omega
    · intro call heq
      obtain rfl := Option.some.inj heq
      cases after with
      | released => trivial
      | reused real c existing =>
        have hce : c = e := hshape
        simp [Shape, hce]
      | discarded real c =>
        have hce : c = e := hshape
        simp [Shape, hce]
    · simp [Happening.Settled]
  · exact h

theorem inv_finish (h : s.Inv) (t : Nat) : (s.finish t).Inv := by
  unfold finish
  split
  · next hcall =>
    refine h.next (n := some .idle) ?_ rfl (fun _ hb => hb) (fun _ _ => rfl)
      (fun _ _ _ _ _ _ => rfl) ?_ (List.append_nil _).symm nofun
    · refine h.sound.go hcall rfl rfl rfl (fun x => ?_) (fun x => ?_) (fun x => ?_) (fun q => ?_) (.refl rfl)
      · simp [holds, builds, AfterRelease.holds]
      · simp [builds]
      · simp [deletes]
      · simp [lends, AfterRelease.lends]
    · simp [Shape]
  · next real c existing hcall =>
    have hdone : .deleted c ∈ s.history := h.shaped t _ hcall
    refine h.next (n := some .idle) ?_ rfl (fun _ hb => hb) (fun _ _ => rfl)
      (fun _ _ _ _ _ _ => rfl) ?_ rfl ?_
    · refine h.sound.go hcall rfl rfl rfl (fun x => ?_) (fun x => ?_) (fun x => ?_) (fun q => ?_)
        (.single rfl trivial)
      · simp [holds, builds, AfterRelease.holds]
      · simp [builds]
      · simp [deletes]
      · simp [lends, AfterRelease.lends]
    · simp [Shape]
    · simp [Happening.Settled, hdone]
  · next real c hcall =>
    have hdone : .deleted c ∈ s.history := h.shaped t _ hcall
    refine h.next (n := some .idle) ?_ rfl (fun _ hb => hb) (fun _ _ => rfl)
      (fun _ _ _ _ _ _ => rfl) ?_ rfl ?_
    · refine h.sound.go hcall rfl rfl rfl (fun x => ?_) (fun x => ?_) (fun x => ?_) (fun q => ?_)
        (.single rfl trivial)
      · simp [holds, builds, AfterRelease.holds]
      · simp [builds]
      · simp [deletes]
      · simp [lends, AfterRelease.lends]
    · simp [Shape]
    · simp [Happening.Settled, hdone]
  · exact h

theorem inv_clientAddRef (h : s.Inv) (e : Nat) : (s.clientAddRef e).Inv := by
  unfold clientAddRef
  split
  · next hclient =>
    obtain ⟨hpos, hpublic⟩ := h.sound.shared hclient
    refine h.next (t := 0) (n := none) ?_ rfl (fun _ hb => hb) (fun x _ => body_addRef x)
      (fun _ _ x _ _ _ => body_addRef x) nofun (List.append_nil _).symm nofun
    refine h.sound.addRef hpos hpublic rfl rfl (fun x => ?_) (fun _ => rfl) (fun _ => rfl) (fun p => ?_)
      (.refl rfl)
    · simp [held]
      omega
    · show s.real p = s.callers p + (s.addRef e).owned p + total (Accounts.lends p) s.calls
      rw [owned_addRef]
      exact h.sound.balance p
  · exact h

theorem inv_trade (h : s.Inv) (hobjects : s'.objects = s.objects) (hregistry : s'.registry = s.registry)
    (hcalls : s'.calls = s.calls) (hclients : s'.clients = s.clients) {x : Happening Pointer}
    (hhistory : s'.history = s.history ++ [x]) (hx : x.IsQuiet)
    (hsettled : Happening.Settled s'.history x)
    (hreal : ∀ p, s'.real p + s.callers p = s.real p + s'.callers p) : s'.Inv := by
  have hbody (x : Nat) : (s'.object x).body = (s.object x).body := by rw [object_congr hobjects]
  refine h.next (t := 0) (n := none)
    (h.sound.trade hobjects hregistry hcalls hclients (.single hhistory hx) hreal) hcalls
    (fun b hb => hregistry ▸ hb) (fun x _ => hbody x) (fun _ _ x _ _ _ => hbody x) nofun hhistory ?_
  intro y hy
  rw [List.mem_singleton.mp hy]
  exact hsettled

theorem inv_queryInterface (h : s.Inv) (e : Nat) (u : Bool) (request : DeviceRequest)
    (answer : Option Pointer) : (s.queryInterface e u request answer).Inv := by
  have hforward : Inv (if 0 < s.clients e ∧ ((s.object e).body.real u).isSome then
      ((s.acquire answer).entrust answer).log (.granted answer) else s) := by
    split
    · refine inv_trade h rfl rfl rfl rfl rfl trivial trivial fun p => ?_
      simp
      omega
    · exact h
  cases request with
  | unknown => exact inv_clientAddRef h e
  | device v =>
    unfold queryInterface
    dsimp only
    split
    · exact inv_clientAddRef h e
    · exact hforward
  | other => exact hforward

theorem holds_afterRelease (e x : Nat) : holds x (s.afterRelease e .released) = 0 := by
  unfold afterRelease
  split <;> rfl

theorem builds_afterRelease (e x : Nat) : builds x (s.afterRelease e .released) = 0 := by
  unfold afterRelease
  split <;> rfl

theorem lends_afterRelease (e : Nat) (p : Pointer) : lends p (s.afterRelease e .released) = 0 := by
  unfold afterRelease
  split <;> rfl

theorem deletes_afterRelease (e x : Nat) : deletes x (s.afterRelease e .released) =
    if (s.object e).refCount - 1 = 0 then one (some e) x else 0 := by
  unfold afterRelease
  split <;> rfl

theorem inv_clientRelease (h : s.Inv) (hsmall : ∀ e, s.held e < 2 ^ 32) (t e : Nat) :
    (s.clientRelease t e).Inv := by
  unfold clientRelease
  split
  · next hcond =>
    obtain ⟨hcall, hclient⟩ := hcond
    obtain ⟨hpos, hpublic⟩ := h.sound.shared hclient
    have hlt := h.sound.lt_of_held hpos
    have hcalls : (((s.release e).takeBack (some e)).go t (s.afterRelease e .released)).calls =
        s.calls.set t (s.afterRelease e .released) := by simp
    refine h.next (t := t) (n := some (s.afterRelease e .released)) ?_ hcalls (fun b hb => ?_)
      (fun x _ => body_release hlt x) (fun _ _ x _ _ _ => body_release hlt x) ?_ (l := []) (by simp)
      nofun
    · refine h.sound.release hpos (hsmall e) rfl rfl (fun x => ?_) (fun x => ?_) (fun x => ?_) (fun p => ?_)
        (.refl (by simp))
      · have hle : one (some e) x ≤ s.held x := one_le hpos x
        have hclients := one_le hclient x
        refine held_of hcall hcalls ?_
        simp [holds_afterRelease, holds_idle]
        omega
      · refine building_of hcall hcalls ?_
        simp [builds_afterRelease, builds_idle, sub_one_of_zero hpublic]
      · refine deleting_of hcall hcalls ?_
        simp [deletes_afterRelease, deletes_idle]
      · refine balance_of hcall hcalls (h.sound.balance p) (owned_release p) ?_
        simp [lends_afterRelease, lends_idle]
    · have hregistry : (((s.release e).takeBack (some e)).go t (s.afterRelease e .released)).registry = _ :=
        registry_release hlt (h.sound.marked e)
      rw [hregistry] at hb
      split at hb
      · exact List.mem_of_mem_erase hb
      · exact hb
    · intro call heq
      obtain rfl := Option.some.inj heq
      unfold afterRelease
      split <;> trivial
  · exact h

theorem inv_obtain (h : s.Inv) (p : Pointer) : (s.obtain p).Inv := by
  refine inv_trade h rfl rfl rfl rfl rfl trivial trivial fun q => ?_
  simp [obtain]
  omega

theorem inv_drop (h : s.Inv) (p : Pointer) : (s.drop p).Inv := by
  unfold drop
  split
  · next howner =>
    refine inv_trade h rfl rfl rfl rfl rfl trivial trivial fun q => ?_
    have hle := one_le howner q
    have hbalance := h.sound.balance q
    simp only [accounted] at hbalance
    simp
    omega
  · exact h

/-- What one step of any thread preserves, as long as the counters have not wrapped. -/
theorem inv_step (h : s.Inv) (hsmall : ∀ e, s.held e < 2 ^ 32) (action : DeviceAction) :
    (s.step action).Inv := by
  cases action with
  | publish t u real => exact inv_publish h t u real
  | allocate t candidate state => exact inv_allocateCandidate h t candidate state
  | queryAlias t answer wrapper => exact inv_queryAlias h t answer wrapper
  | queryIdentity t answer => exact inv_queryIdentity h t answer
  | keepIdentity t => exact inv_keepIdentity h t
  | resolve t => exact inv_resolve h hsmall t
  | releaseCandidate t => exact inv_releaseCandidate h t
  | delete t => exact inv_delete h t
  | finish t => exact inv_finish h t
  | addRef e => exact inv_clientAddRef h e
  | queryInterface e u request answer => exact inv_queryInterface h e u request answer
  | release t e => exact inv_clientRelease h hsmall t e
  | obtain p => exact inv_obtain h p
  | drop p => exact inv_drop h p

end DeviceRegistry
end FfbInterceptor.Proxy
