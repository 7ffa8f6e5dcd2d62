import Agora.Proofs.Race.Run

namespace Agora

open Store

namespace Toggle

inductive Phase.Alike : Phase → Phase → Prop
  | refl (p) : Alike p p
  | failed (e e') : Alike (.done (.error e)) (.done (.error e'))

theorem Phase.Alike.reply? {p q : Phase} (h : p.Alike q) :
    p.reply?.map Except.toOption = q.reply?.map Except.toOption := by
  cases h <;> rfl

theorem Phase.Alike.eq_of_going {p q : Phase} (h : p.Alike q) (hp : p.reply? = none) : p = q := by
  cases h with
  | refl => rfl
  | failed => cases hp

variable {t : Toggle} {db db' db₁ db₁' : Database} {p p' p₁' : Phase} {c c₁ : Call}
  {m : Option Mark}

/-- What the toggle's key holds is all that a call of it depends on, unless no id is left. -/
theorem Turn.alike (h : Turn t db p c p' db') (h₁ : Turn t db₁ p c₁ p₁' db₁') (hdb : Orderly db)
    (hdb₁ : Orderly db₁) (hm : t.key.Holds db m) (hm₁ : t.key.Holds db₁ m)
    (hroom : ∀ sql, p' ≠ .done (.error (noIdLeft sql)))
    (hroom₁ : ∀ sql, p₁' ≠ .done (.error (noIdLeft sql))) :
    p'.Alike p₁' ∧ ∃ m', t.key.Holds db' m' ∧ t.key.Holds db₁' m' := by
  cases h with
  | asks =>
    cases h₁ with
    | asks => exact ⟨.refl _, m, hm, hm₁⟩
  | finds hfound =>
    cases h₁ with
    | finds hfound₁ =>
      rw [hfound.unique hdb hm, hfound₁.unique hdb₁ hm₁]
      exact ⟨.refl _, m, hm, hm₁⟩
  | decides =>
    cases h₁ with
    | decides => exact ⟨.refl _, m, hm, hm₁⟩
  | writes hnow hleaves hbecomes =>
    obtain rfl := hnow.unique hdb hm
    cases h₁ with
    | writes hnow₁ hleaves₁ hbecomes₁ =>
      rw [hnow₁.unique hdb₁ hm₁, hleaves] at hleaves₁
      obtain rfl := Option.some.inj hleaves₁
      exact ⟨.refl _, _, hbecomes.holds, hbecomes₁.holds⟩
    | refused hnow₁ hne =>
      rw [hnow₁.unique hdb₁ hm₁] at hne
      simp [leaves, hne] at hleaves
    | @full _ sql => exact absurd rfl (hroom₁ sql)
  | refused hnow hne =>
    obtain rfl := hnow.unique hdb hm
    cases h₁ with
    | writes hnow₁ hleaves₁ =>
      rw [hnow₁.unique hdb₁ hm₁] at hleaves₁
      simp [leaves, hne] at hleaves₁
    | refused => exact ⟨.failed _ _, _, hm, hm₁⟩
    | @full _ sql => exact absurd rfl (hroom₁ sql)
  | @full _ sql => exact absurd rfl (hroom sql)

end Toggle

namespace Race

variable {σ : Type} {synthesizer : Synthesizer σ} {options : CompilerOptions} {Q : σ → Prop}
  {r r₁ r' r₁' : Race σ} {p p₁ p' p₁' : Nat → Toggle.Phase} {k : Key} {i : Nat} {x x₁ : Racer}
  {c c₁ : Call}

def isOn (r : Race σ) (k : Key) (i : Nat) : Bool :=
  r.toggles[i]?.any (·.key = k)

structure Mirrors (k : Key) (r : Race σ) (p : Nat → Toggle.Phase) (r₁ : Race σ)
    (p₁ : Nat → Toggle.Phase) : Prop where
  toggles : r.toggles = r₁.toggles
  alike : ∀ i t, r.toggles[i]? = some t → t.key = k → (p i).Alike (p₁ i)
  content : ∃ m, k.Holds r.database m ∧ k.Holds r₁.database m

theorem Mirrors.refl (h : Sound options synthesizer Q r p) (k : Key) : Mirrors k r p r p := by
  obtain ⟨m, hm⟩ := k.exists_holds h.orderly
  exact ⟨rfl, fun i _ _ _ => .refl (p i), m, hm, hm⟩

theorem Mirrors.of_other (h : Mirrors k r p r₁ p₁) (hadvance : Advance r p i x c r' p')
    (hne : k ≠ x.toggle.key) : Mirrors k r' p' r₁ p₁ := by
  obtain ⟨m, hm, hm₁⟩ := h.content
  refine ⟨hadvance.toggles.trans h.toggles, fun j t ht htk => ?_,
    m, hadvance.turn.other hne hm, hm₁⟩
  rw [hadvance.toggles] at ht
  have hj : j ≠ i := by
    rintro rfl
    obtain rfl := Option.some.inj (ht.symm.trans (toggle_of_racers hadvance.self))
    exact hne htk.symm
  rw [(hadvance.other j hj).2]
  exact h.alike j t ht htk

theorem Mirrors.of_both (h : Mirrors k r p r₁ p₁) (hs : Sound options synthesizer Q r p)
    (hs₁ : Sound options synthesizer Q r₁ p₁) (hadvance : Advance r p i x c r' p')
    (hadvance₁ : Advance r₁ p₁ i x₁ c₁ r₁' p₁') (hk : x.toggle.key = k)
    (hroom : ∀ sql, p' i ≠ .done (.error (noIdLeft sql)))
    (hroom₁ : ∀ sql, p₁' i ≠ .done (.error (noIdLeft sql))) : Mirrors k r' p' r₁' p₁' := by
  subst hk
  have ht := toggle_of_racers hadvance.self
  have ht₁ := toggle_of_racers hadvance₁.self
  have htoggle : x₁.toggle = x.toggle :=
    Option.some.inj (ht₁.symm.trans ((congrArg (·[i]?) h.toggles.symm).trans ht))
  have hturn₁ := hadvance₁.turn
  rw [htoggle, ← (h.alike i _ ht rfl).eq_of_going hadvance.turn.going] at hturn₁
  obtain ⟨m, hm, hm₁⟩ := h.content
  obtain ⟨halike, hcontent⟩ := hadvance.turn.alike hturn₁ hs.orderly hs₁.orderly hm hm₁ hroom hroom₁
  refine ⟨hadvance.toggles.trans (h.toggles.trans hadvance₁.toggles.symm), fun j t hj htk => ?_,
    hcontent⟩
  by_cases hji : j = i
  · exact hji ▸ halike
  · rw [(hadvance.other j hji).2, (hadvance₁.other j hji).2]
    exact h.alike j t (hadvance.toggles ▸ hj) htk

theorem Mirrors.replies (h : Mirrors k r p r₁ p₁) (hs : Sound options synthesizer Q r p)
    (hs₁ : Sound options synthesizer Q r₁ p₁) {t : Toggle} (ht : r.toggles[i]? = some t)
    (hk : t.key = k) :
    (r.reply? i).map Except.toOption = (r₁.reply? i).map Except.toOption := by
  obtain ⟨x, hx, -⟩ := racers_of_toggle ht
  obtain ⟨x₁, hx₁, -⟩ := racers_of_toggle (h.toggles ▸ ht)
  rw [hs.reply?_eq hx, hs₁.reply?_eq hx₁]
  exact (h.alike i t ht hk).reply?

theorem isOn_step (synthesizer : Synthesizer σ) (r : Race σ) (k : Key) (j : Nat) :
    (r.step synthesizer j).isOn k = r.isOn k := by
  funext i
  simp only [isOn, toggles_step]

theorem isOn_iff : r.isOn k i = true ↔ ∃ t, r.toggles[i]? = some t ∧ t.key = k := by
  simp [isOn, Option.any_eq_true]

theorem Mirrors.step_off (h : Mirrors k r p r₁ p₁) (hs : Sound options synthesizer Q r p)
    (hi : ¬ r.isOn k i) : ∃ p', Sound options synthesizer Q (r.step synthesizer i) p' ∧
      Mirrors k (r.step synthesizer i) p' r₁ p₁ := by
  rcases hs.step i with ⟨hidle, -⟩ | ⟨x, c, p', hadvance, hs'⟩
  · exact ⟨p, hidle.symm ▸ hs, hidle.symm ▸ h⟩
  · refine ⟨p', hs', h.of_other hadvance fun hk => hi ?_⟩
    exact isOn_iff.2 ⟨_, toggle_of_racers hadvance.self, hk.symm⟩

theorem Mirrors.step_on (h : Mirrors k r p r₁ p₁) (hs : Sound options synthesizer Q r p)
    (hs₁ : Sound options synthesizer Q r₁ p₁) (hi : r.isOn k i) {moves moves₁ : List Nat}
    (hroom : ((r.step synthesizer i).run synthesizer moves).NoneFull)
    (hroom₁ : ((r₁.step synthesizer i).run synthesizer moves₁).NoneFull) :
    ∃ p' p₁', Sound options synthesizer Q (r.step synthesizer i) p' ∧
      Sound options synthesizer Q (r₁.step synthesizer i) p₁' ∧
      Mirrors k (r.step synthesizer i) p' (r₁.step synthesizer i) p₁' := by
  obtain ⟨t, ht, htk⟩ := isOn_iff.1 hi
  obtain ⟨x, hx, rfl⟩ := racers_of_toggle ht
  obtain ⟨x₁, hx₁, -⟩ := racers_of_toggle (h.toggles ▸ ht)
  have hsame := (h.alike i _ ht htk).reply?
  rcases hs.step i with ⟨hidle, hdone⟩ | ⟨y, c, p', hadvance, hs'⟩
  · rcases hs₁.step i with ⟨hidle₁, -⟩ | ⟨y₁, c₁, p₁', hadvance₁, -⟩
    · exact ⟨p, p₁, hidle.symm ▸ hs, hidle₁.symm ▸ hs₁, by rwa [hidle, hidle₁]⟩
    · have hended := hdone x hx
      rw [hadvance₁.turn.going] at hsame
      simp [Option.map_eq_none_iff.1 hsame] at hended
  · obtain rfl := Option.some.inj (hx.symm.trans hadvance.self)
    rcases hs₁.step i with ⟨-, hdone₁⟩ | ⟨y₁, c₁, p₁', hadvance₁, hs₁'⟩
    · have hended := hdone₁ x₁ hx₁
      rw [hadvance.turn.going] at hsame
      simp [Option.map_eq_none_iff.1 hsame.symm] at hended
    · obtain ⟨z, hz, -⟩ := racers_of_toggle (hadvance.toggles ▸ ht)
      obtain ⟨z₁, hz₁, -⟩ := racers_of_toggle (hadvance₁.toggles ▸ h.toggles ▸ ht)
      exact ⟨p', p₁', hs', hs₁', h.of_both hs hs₁ hadvance hadvance₁ htk (hroom.ne_noIdLeft hs' hz)
        (hroom₁.ne_noIdLeft hs₁' hz₁)⟩

theorem mirrors_run (moves : List Nat) (h : Mirrors k r p r₁ p₁)
    (hs : Sound options synthesizer Q r p) (hs₁ : Sound options synthesizer Q r₁ p₁)
    (hroom : (r.run synthesizer moves).NoneFull)
    (hroom₁ : (r₁.run synthesizer (moves.filter (r.isOn k))).NoneFull) {t : Toggle}
    (ht : r.toggles[i]? = some t) (hk : t.key = k) :
    ((r.run synthesizer moves).reply? i).map Except.toOption =
      ((r₁.run synthesizer (moves.filter (r.isOn k))).reply? i).map Except.toOption := by
  induction moves generalizing r r₁ p p₁ with
  | nil => exact h.replies hs hs₁ ht hk
  | cons j moves ih =>
    rw [run_cons] at hroom ⊢
    rw [← toggles_step synthesizer r j] at ht
    by_cases hj : r.isOn k j
    · rw [List.filter_cons_of_pos hj, run_cons] at hroom₁ ⊢
      obtain ⟨p', p₁', hs', hs₁', h'⟩ := h.step_on hs hs₁ hj hroom hroom₁
      rw [← isOn_step synthesizer r k j] at hroom₁ ⊢
      exact ih h' hs' hs₁' hroom hroom₁ ht
    · rw [List.filter_cons_of_neg hj] at hroom₁ ⊢
      obtain ⟨p', hs', h'⟩ := h.step_off hs hj
      rw [← isOn_step synthesizer r k j] at hroom₁ ⊢
      exact ih h' hs' hs₁ hroom hroom₁ ht

end Race

end Agora
