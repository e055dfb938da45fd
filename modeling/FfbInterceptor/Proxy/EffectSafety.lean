import FfbInterceptor.Proxy.EffectRegistry

/-! What every interleaving keeps of the effect registry: it is a machine of counted objects,
and the references of the real interfaces are all accounted for. -/
namespace FfbInterceptor.Proxy
open Library Library.Lifetimes Library.Registry

theorem one_le_of_all {callers : Pointer → Nat} {real : Option Pointer}
    (h : real.all (0 < callers ·)) (p : Pointer) : one real p ≤ callers p := by
  cases real with
  | none => simp
  | some q =>
    by_cases heq : p = q
    · subst heq; simpa [Nat.lt_iff_add_one_le] using h
    · simp [one_of_ne heq]

namespace EffectRegistry
open World EffectCall

variable {s : EffectRegistry}

theorem sound_create (h : s.Sound) (t : Nat) (real : Option Pointer) (allocated : Bool) :
    (s.create t real allocated).Sound := by
  unfold create
  split
  · next hcall =>
    split
    · next hreal =>
      split
      · refine h.allocate (b := { real }) rfl rfl (fun x => ?_) (fun x => ?_) (fun x => ?_)
          (fun p => ?_) (.refl rfl)
        · refine held_of hcall rfl ?_
          simp [holds]
          omega
        · refine building_of hcall rfl ?_
          simp [builds]
        · refine deleting_of hcall rfl ?_
          simp [deletes]
        · have hle := one_le_of_all hreal p
          refine balance_of hcall rfl (h.balance p) (owned_allocate (w := s) ({ real } : WrapperEffect) p) ?_
          simp [lends, Owner.owns]
          omega
      · exact h.pass (fun _ => ⟨rfl, rfl⟩) rfl rfl (fun _ => rfl) (fun _ => rfl) (fun _ => rfl) h.balance
          (.single rfl trivial)
    · exact h
  · exact h

theorem sound_queryIdentity (h : s.Sound) (t : Nat) (answer : Option Pointer) :
    (s.queryIdentity t answer).Sound := by
  unfold queryIdentity
  split
  · next e hcall =>
    split
    · refine h.go hcall rfl rfl rfl (fun x => ?_) (fun x => ?_) (fun x => ?_) (fun p => ?_) (.refl rfl)
      · simp [holds]
      · simp [builds]
      · simp [deletes]
      · simp [lends]
        omega
    · refine h.go hcall rfl rfl rfl (fun x => ?_) (fun x => ?_) (fun x => ?_) (fun p => ?_) (.refl rfl)
      · simp [holds]
      · simp [builds]
      · simp [deletes]
      · simp [lends]
  · exact h

theorem sound_keepIdentity (h : s.Sound) (t : Nat) : (s.keepIdentity t).Sound := by
  unfold keepIdentity
  split
  · next e i hcall =>
    obtain ⟨hbuilding, hheld⟩ := h.built (e := e) hcall (by simp [builds])
    have hlt := h.lt_of_held (e := e) (by omega)
    refine h.pass (counter_amend hlt ({ · with identity := some i })) ?_ rfl (fun x => ?_)
      (fun x => ?_) (fun x => ?_) (fun p => ?_) (.refl rfl)
    · simp
    · refine held_of hcall rfl ?_
      simp [holds]
    · refine building_of hcall rfl ?_
      simp [builds]
    · refine deleting_of hcall rfl ?_
      simp [deletes]
    · have hle := lends_le hcall (h.balance p)
      have howned := owned_amend (w := s) hlt ({ · with identity := some i }) p
      refine balance_of hcall rfl (h.balance p) (Nat.add_right_cancel howned) ?_
      simp [lends] at hle ⊢
      omega
  · exact h

theorem sound_registerInstance (h : s.Sound) (t : Nat) : (s.registerInstance t).Sound := by
  unfold registerInstance
  split
  · next e hcall =>
    obtain ⟨hbuilding, hheld⟩ := h.built (e := e) hcall (by simp [builds])
    refine h.register hbuilding rfl rfl (fun x => ?_) (fun x => ?_) (fun x => ?_) (fun p => ?_) ?_
    · refine held_of hcall rfl ?_
      simp [holds]
    · have hle := builds_le hcall x
      refine building_of hcall rfl ?_
      simp only [builds_eq, builds] at hle ⊢
      omega
    · refine deleting_of hcall rfl ?_
      simp [deletes]
    · refine balance_of hcall rfl (h.balance p) (owned_register p) ?_
      simp [lends]
    · exact ⟨_, List.append_assoc .., by simp [Happening.IsQuiet]⟩
  · exact h

theorem find_of_ne {t : Nat} (h : s.calls[t]? ≠ some .idle) (real answer : Option Pointer) :
    s.find t real answer = s := by
  unfold find
  cases hcall : s.calls[t]? with
  | none => rfl
  | some call =>
    rw [hcall] at h
    cases call with
    | idle => exact absurd rfl h
    | _ => rfl

theorem find_of_none {t : Nat} (h : s.calls[t]? = some .idle) (answer : Option Pointer) :
    s.find t none answer = s.log (.returned t none none none false) := by
  unfold find
  rw [h]

theorem find_of_some {t : Nat} (h : s.calls[t]? = some .idle) (p : Pointer) (answer : Option Pointer) :
    s.find t (some p) answer = (s.acquire answer).go t (.seeking p answer) := by
  unfold find
  rw [h]

theorem sound_find (h : s.Sound) (t : Nat) (real answer : Option Pointer) :
    (s.find t real answer).Sound := by
  by_cases hcall : s.calls[t]? = some .idle
  · cases real with
    | none =>
      rw [find_of_none hcall]
      exact h.pass (fun _ => ⟨rfl, rfl⟩) rfl rfl (fun _ => rfl) (fun _ => rfl) (fun _ => rfl) h.balance
        (.single rfl trivial)
    | some p =>
      rw [find_of_some hcall]
      refine h.go hcall rfl rfl rfl (fun x => ?_) (fun x => ?_) (fun x => ?_) (fun p => ?_) (.refl rfl)
      · simp [holds]
      · simp [builds]
      · simp [deletes]
      · simp [lends]
        omega
  · rw [find_of_ne hcall]
    exact h

theorem sound_look (h : s.Sound) (hsmall : ∀ e, s.held e < 2 ^ 32) (t : Nat) : (s.look t).Sound := by
  unfold look
  split
  · next real identity hcall =>
    split
    · next e hfind =>
      have hlisted : e ∈ s.lives.listed := List.mem_of_find?_eq_some hfind
      have hpos : 0 < s.held e := h.lives.listed_held e hlisted
      have hcount : (s.object e).refCount ≠ 0 := fun hzero => by
        have hnobody : s.held e = 0 := (h.lives.count_eq_zero_iff (hsmall e)).mp hzero
        omega
      refine h.addRef hpos (h.lives.unlisted_of_listed hlisted) rfl rfl (fun x => ?_) (fun x => ?_)
        (fun x => ?_) (fun p => ?_) (.single rfl hcount)
      · refine held_of hcall rfl ?_
        simp [holds]
        omega
      · refine building_of hcall rfl ?_
        simp [builds]
      · refine deleting_of hcall rfl ?_
        simp [deletes]
      · refine balance_of hcall rfl (h.balance p) (owned_addRef p) ?_
        simp [lends]
    · refine h.go hcall rfl rfl rfl (fun x => ?_) (fun x => ?_) (fun x => ?_) (fun p => ?_) (.refl rfl)
      · simp [holds]
      · simp [builds]
      · simp [deletes]
      · simp [lends]
  · exact h

theorem sound_leave (h : s.Sound) (t : Nat) : (s.leave t).Sound := by
  unfold leave
  split
  · next identity result hcall =>
    refine h.go hcall rfl rfl rfl (fun x => ?_) (fun x => ?_) (fun x => ?_) (fun p => ?_)
      (.single rfl trivial)
    · simp [holds]
    · simp [builds]
    · simp [deletes]
    · have hle := lends_le hcall (h.balance p)
      simp [lends] at hle ⊢
      omega
  · exact h

theorem sound_clientAddRef (h : s.Sound) (e : Nat) : (s.clientAddRef e).Sound := by
  unfold clientAddRef
  split
  · next hclient =>
    obtain ⟨hpos, hpublic⟩ := h.shared hclient
    refine h.addRef hpos hpublic rfl rfl (fun x => ?_) (fun _ => rfl) (fun _ => rfl) (fun p => ?_)
      (.refl rfl)
    · simp [held]
      omega
    · show s.real p = s.callers p + (s.addRef e).owned p + total (Accounts.lends p) s.calls
      rw [owned_addRef]
      exact h.balance p
  · exact h

theorem sound_queryInterface (h : s.Sound) (e : Nat) (own : Bool) (answer : Option Pointer) :
    (s.queryInterface e own answer).Sound := by
  unfold queryInterface
  split
  · exact sound_clientAddRef h e
  · split
    · split
      · refine h.trade rfl rfl rfl rfl (.single rfl trivial) fun p => ?_
        simp
        omega
      · exact h
    · exact h

theorem holds_afterRelease (e x : Nat) : holds x (s.afterRelease e) = 0 := by
  unfold afterRelease
  split <;> rfl

theorem builds_afterRelease (e x : Nat) : builds x (s.afterRelease e) = 0 := by
  unfold afterRelease
  split <;> rfl

theorem lends_afterRelease (e : Nat) (p : Pointer) : lends p (s.afterRelease e) = 0 := by
  unfold afterRelease
  split <;> rfl

theorem deletes_afterRelease (e x : Nat) : deletes x (s.afterRelease e) =
    if (s.object e).refCount - 1 = 0 then one (some e) x else 0 := by
  unfold afterRelease
  split <;> rfl

theorem sound_clientRelease (h : s.Sound) (hsmall : ∀ e, s.held e < 2 ^ 32) (t e : Nat) :
    (s.clientRelease t e).Sound := by
  unfold clientRelease
  split
  · next hcond =>
    obtain ⟨hcall, hclient⟩ := hcond
    obtain ⟨hpos, hpublic⟩ := h.shared hclient
    have hcalls : (((s.release e).takeBack (some e)).go t (s.afterRelease e)).calls =
        s.calls.set t (s.afterRelease e) := by simp
    have hle := one_le hclient
    refine h.release hpos (hsmall e) rfl rfl (fun x => ?_) (fun x => ?_) (fun x => ?_) (fun p => ?_)
      (.refl (by simp))
    · have hx := hle x
      have hheld : one (some e) x ≤ s.held x := Nat.le_trans hx (Nat.le_add_right ..)
      refine held_of hcall hcalls ?_
      simp [holds_afterRelease]
      omega
    · refine building_of hcall hcalls ?_
      simp [builds_afterRelease, sub_one_of_zero hpublic]
    · refine deleting_of hcall hcalls ?_
      simp [deletes_afterRelease]
    · refine balance_of hcall hcalls (h.balance p) (owned_release p) ?_
      simp [lends_afterRelease]
  · exact h

theorem sound_delete (h : s.Sound) (t : Nat) : (s.delete t).Sound := by
  unfold delete
  split
  · next e hcall =>
    obtain ⟨hdeleting, hlt⟩ := h.dying (e := e) hcall (by simp [deletes])
    refine h.free hdeleting rfl rfl (fun x => ?_) (fun x => ?_) (fun x => ?_) (fun p => ?_) rfl nofun
    · refine held_of hcall rfl ?_
      simp [holds]
    · refine building_of hcall rfl ?_
      simp [builds]
    · have hle := deletes_le hcall x
      refine deleting_of hcall rfl ?_
      simp only [deletes_eq, deletes] at hle ⊢
      omega
    · have howned := owned_free (w := s) hlt p
      have hle := lends_le hcall (h.balance p)
      refine balance_of hcall rfl (h.balance p) (Nat.eq_sub_of_add_eq howned) ?_
      simp only [Owner.owns, lends_eq, lends] at howned hle ⊢
      simp
      omega
  · exact h

theorem sound_obtain (h : s.Sound) (p : Pointer) : (s.obtain p).Sound := by
  refine h.trade rfl rfl rfl rfl (.single rfl trivial) fun q => ?_
  simp [obtain]
  omega

theorem sound_drop (h : s.Sound) (p : Pointer) : (s.drop p).Sound := by
  unfold drop
  split
  · next howner =>
    refine h.trade rfl rfl rfl rfl (.single rfl trivial) fun q => ?_
    have hle := one_le howner q
    have hbalance := h.balance q
    simp only [accounted] at hbalance
    simp
    omega
  · exact h

/-- What one step of any thread preserves, as long as the counters have not wrapped. -/
theorem sound_step (h : s.Sound) (hsmall : ∀ e, s.held e < 2 ^ 32) (action : EffectAction) :
    (s.step action).Sound := by
  cases action with
  | create t real allocated => exact sound_create h t real allocated
  | queryIdentity t answer => exact sound_queryIdentity h t answer
  | keepIdentity t => exact sound_keepIdentity h t
  | registerInstance t => exact sound_registerInstance h t
  | find t real answer => exact sound_find h t real answer
  | look t => exact sound_look h hsmall t
  | leave t => exact sound_leave h t
  | addRef e => exact sound_clientAddRef h e
  | queryInterface e own answer => exact sound_queryInterface h e own answer
  | release t e => exact sound_clientRelease h hsmall t e
  | delete t => exact sound_delete h t
  | obtain p => exact sound_obtain h p
  | drop p => exact sound_drop h p

end EffectRegistry
end FfbInterceptor.Proxy
