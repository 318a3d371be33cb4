import NamedTape.Session

/-!
# Actions step by step

What a compound action gives once the result of its first part is known, how two actions compare
whose parts do, and how actions on a part of the state carry over to the whole.
-/

namespace NamedTape

namespace Action

variable {σ α β : Type} {act : Action σ α} {s t : σ} {a : α} {e : Raised}

theorem bind_of_ok (h : act s = .ok a t) (f : α → Action σ β) : (act >>= f) s = f a t := by
  simp only [bind, EStateM.bind, h]

theorem bind_of_error (h : act s = .error e t) (f : α → Action σ β) :
    (act >>= f) s = .error e t := by
  simp only [bind, EStateM.bind, h]

theorem eq_ok_of_bind {act : Action σ α} {f : α → Action σ β} {s u : σ} {b : β}
    (h : (act >>= f) s = .ok b u) : ∃ a t, act s = .ok a t ∧ f a t = .ok b u := by
  cases ha : act s with
  | ok a t => exact ⟨a, t, rfl, (bind_of_ok ha f).symm.trans h⟩
  | error e t => cases (bind_of_error ha f).symm.trans h

theorem eq_error_of_bind {act : Action σ α} {f : α → Action σ β} {s u : σ} {e : Raised}
    (h : (act >>= f) s = .error e u) :
    act s = .error e u ∨ ∃ a t, act s = .ok a t ∧ f a t = .error e u := by
  cases ha : act s with
  | ok a t => exact .inr ⟨a, t, rfl, (bind_of_ok ha f).symm.trans h⟩
  | error e' t =>
    cases (bind_of_error ha f).symm.trans h
    exact .inl rfl

theorem get_bind (f : σ → Action σ α) (s : σ) : (get >>= f) s = f s s := rfl

theorem map_of_ok (h : act s = .ok a t) (f : α → β) : (f <$> act) s = .ok (f a) t := by
  simp only [Functor.map, EStateM.map, h]

theorem map_of_error (h : act s = .error e t) (f : α → β) : (f <$> act) s = .error e t := by
  simp only [Functor.map, EStateM.map, h]

theorem restating_of_ok (h : act s = .ok a t) (restate : σ → Raised → Raised) :
    act.restating restate s = .ok a t := by
  simp only [restating, h]

theorem restating_of_error (h : act s = .error e t) (restate : σ → Raised → Raised) :
    act.restating restate s = .error (restate t e) t := by
  simp only [restating, h]

/-! ## Contracts -/

/-- From a state in `P` the action ends with a result and a state in `Q`, or fails with what is
in `E`. -/
def Meets (P : σ → Prop) (act : Action σ α) (Q : α → σ → Prop) (E : Raised → σ → Prop) : Prop :=
  ∀ s, P s → match act s with
    | .ok a t => Q a t
    | .error e t => E e t

/-- The action stays in `P`, however it ends. -/
abbrev Keeps (P : σ → Prop) (act : Action σ α) : Prop := Meets P act (fun _ => P) (fun _ => P)

/-- The state that the action leaves, however it ends. -/
def final (act : Action σ α) (s : σ) : σ :=
  match act s with
  | .ok _ t | .error _ t => t

theorem final_of_ok (h : act s = .ok a t) : act.final s = t := by
  simp only [final, h]

theorem final_of_error (h : act s = .error e t) : act.final s = t := by
  simp only [final, h]

/-- A failure of the action leaves the state as it was. -/
def FailsInPlace (act : Action σ α) : Prop := ∀ s e t, act s = .error e t → t = s

theorem FailsInPlace.map (h : FailsInPlace act) (f : α → β) : FailsInPlace (f <$> act) := by
  intro s e t he
  cases ha : act s with
  | ok a u => cases (map_of_ok ha f).symm.trans he
  | error e' u =>
    cases (map_of_error ha f).symm.trans he
    exact h s _ _ ha

section contracts

variable {P : σ → Prop} {Q : α → σ → Prop} {R : β → σ → Prop} {E : Raised → σ → Prop}

theorem Meets.ok {act : Action σ α} (h : Meets P act Q E) {s t : σ} {a : α} (hs : P s)
    (hr : act s = .ok a t) : Q a t := by
  have := h s hs
  rwa [hr] at this

theorem Meets.error {act : Action σ α} (h : Meets P act Q E) {s t : σ} {e : Raised} (hs : P s)
    (hr : act s = .error e t) : E e t := by
  have := h s hs
  rwa [hr] at this

theorem Meets.final {P' : σ → Prop} {act : Action σ α}
    (h : Meets P act (fun _ => P') fun _ => P') {s : σ} (hs : P s) : P' (act.final s) := by
  cases ha : act s with
  | ok a t =>
    rw [final_of_ok ha]
    exact h.ok hs ha
  | error e t =>
    rw [final_of_error ha]
    exact h.error hs ha

theorem Meets.bind {act : Action σ α} {f : α → Action σ β} (h : Meets P act Q E)
    (hf : ∀ a, Meets (Q a) (f a) R E) : Meets P (act >>= f) R E := by
  intro s hs
  cases ha : act s with
  | ok a t =>
    rw [bind_of_ok ha]
    exact hf a t (h.ok hs ha)
  | error e t =>
    rw [bind_of_error ha]
    exact h.error hs ha

theorem Meets.get {f : σ → Action σ β} (h : ∀ s, P s → Meets (· = s) (f s) R E) :
    Meets P (get >>= f) R E :=
  fun s hs => h s hs s rfl

theorem Meets.pure {a : α} (h : ∀ s, P s → Q a s) : Meets P (pure a) Q E := h

theorem Meets.throw {e : Raised} (h : ∀ s, P s → E e s) :
    Meets P (throw e : Action σ α) Q E := h

theorem Meets.modify {f : σ → σ} {Q : PUnit → σ → Prop} (h : ∀ s, P s → Q ⟨⟩ (f s)) :
    Meets P (modify f) Q E := h

theorem Meets.map {act : Action σ α} {f : α → β} (h : Meets P act (fun a => R (f a)) E) :
    Meets P (f <$> act) R E := by
  intro s hs
  cases ha : act s with
  | ok a t =>
    rw [map_of_ok ha]
    exact h.ok hs ha
  | error e t =>
    rw [map_of_error ha]
    exact h.error hs ha

theorem Meets.restating {act : Action σ α} {restate : σ → Raised → Raised}
    (h : Meets P act Q fun e t => E (restate t e) t) :
    Meets P (act.restating restate) Q E := by
  intro s hs
  cases ha : act s with
  | ok a t =>
    rw [restating_of_ok ha]
    exact h.ok hs ha
  | error e t =>
    rw [restating_of_error ha]
    exact h.error hs ha

theorem Meets.mono {P' : σ → Prop} {Q' : α → σ → Prop} {E' : Raised → σ → Prop}
    {act : Action σ α} (h : Meets P act Q E) (hP : ∀ s, P' s → P s) (hQ : ∀ a t, Q a t → Q' a t)
    (hE : ∀ e t, E e t → E' e t) : Meets P' act Q' E' := by
  intro s hs
  cases ha : act s with
  | ok a t => exact hQ a t (h.ok (hP s hs) ha)
  | error e t => exact hE e t (h.error (hP s hs) ha)

theorem Meets.mono_error {E' : Raised → σ → Prop} {act : Action σ α} (h : Meets P act Q E)
    (hE : ∀ e t, E e t → E' e t) : Meets P act Q E' :=
  h.mono (fun _ hs => hs) (fun _ _ ht => ht) hE

theorem Meets.of_failsInPlace {act : Action σ α} (hf : FailsInPlace act)
    (h : ∀ s, P s → ∀ a t, act s = .ok a t → P t) : Keeps P act := by
  intro s hs
  cases ha : act s with
  | ok a t => exact h s hs a t ha
  | error e t =>
    cases hf s e t ha
    exact hs

end contracts

/-! ## Two actions compared -/

section tallies

variable {τ : Type} {R : σ → τ → Prop} {F : Raised → Raised → Prop}

/-- Both results are answers, and the same, or both are failures that correspond. So do the
states. -/
inductive Tally (R : σ → τ → Prop) (F : Raised → Raised → Prop) :
    EStateM.Result Raised σ α → EStateM.Result Raised τ α → Prop
  | ok {a : α} {s : σ} {t : τ} (h : R s t) : Tally R F (.ok a s) (.ok a t)
  | error {e e' : Raised} {s : σ} {t : τ} (h : R s t) (he : F e e') :
    Tally R F (.error e s) (.error e' t)

/-- From states that correspond the actions come to results that tally. -/
def Tallies (R : σ → τ → Prop) (F : Raised → Raised → Prop) (act : Action σ α)
    (act' : Action τ α) : Prop :=
  ∀ s t, R s t → Tally R F (act s) (act' t)

theorem Tally.of_ok {a : α} {s : σ} {r' : EStateM.Result Raised τ α}
    (h : Tally R F (.ok a s) r') : ∃ t, r' = .ok a t ∧ R s t := by
  cases h with
  | ok h => exact ⟨_, rfl, h⟩

theorem Tally.of_error {e : Raised} {s : σ} {r' : EStateM.Result Raised τ α}
    (h : Tally R F (.error e s) r') : ∃ e' t, r' = .error e' t ∧ R s t ∧ F e e' := by
  cases h with
  | error h he => exact ⟨_, _, rfl, h, he⟩

section results

variable {act : Action σ α} {act' : Action τ α} (h : Tallies R F act act') {s s' : σ} {t : τ}
  (hst : R s t)
include h hst

theorem Tallies.ok {a : α} (ha : act s = .ok a s') : ∃ t', act' t = .ok a t' ∧ R s' t' :=
  (ha ▸ h s t hst).of_ok

theorem Tallies.error {e : Raised} (ha : act s = .error e s') :
    ∃ e' t', act' t = .error e' t' ∧ R s' t' ∧ F e e' :=
  (ha ▸ h s t hst).of_error

end results

theorem Tally.flip {r : EStateM.Result Raised σ α} {r' : EStateM.Result Raised τ α}
    (h : Tally R F r r') : Tally (fun t s => R s t) (fun e' e => F e e') r' r := by
  cases h with
  | ok h => exact .ok h
  | error h he => exact .error h he

theorem Tallies.flip {act : Action σ α} {act' : Action τ α} (h : Tallies R F act act') :
    Tallies (fun t s => R s t) (fun e' e => F e e') act' act :=
  fun t s hst => (h s t hst).flip

/-- Results that tally leave states that correspond. -/
theorem Tally.final {act : Action σ α} {act' : Action τ α} {s : σ} {t : τ}
    (h : Tally R F (act s) (act' t)) : R (act.final s) (act'.final t) := by
  cases ha : act s with
  | ok a s' =>
    obtain ⟨t', ha', h⟩ := (ha ▸ h).of_ok
    rwa [final_of_ok ha, final_of_ok ha']
  | error e s' =>
    obtain ⟨e', t', ha', h, -⟩ := (ha ▸ h).of_error
    rwa [final_of_error ha, final_of_error ha']

theorem Tallies.pure (a : α) : Tallies R F (pure a) (pure a) := fun _ _ h => .ok h

theorem Tallies.throw {e e' : Raised} (he : F e e') :
    Tallies R F (throw e : Action σ α) (throw e') := fun _ _ h => .error h he

theorem Tallies.bind {act : Action σ α} {act' : Action τ α} {f : α → Action σ β}
    {f' : α → Action τ β} (h : Tallies R F act act') (hf : ∀ a, Tallies R F (f a) (f' a)) :
    Tallies R F (act >>= f) (act' >>= f') := by
  intro s t hst
  cases ha : act s with
  | ok a s' =>
    obtain ⟨t', ha', hst'⟩ := h.ok hst ha
    rw [bind_of_ok ha, bind_of_ok ha']
    exact hf a s' t' hst'
  | error e s' =>
    obtain ⟨e', t', ha', hst', he⟩ := h.error hst ha
    rw [bind_of_error ha, bind_of_error ha']
    exact .error hst' he

theorem Tallies.map {act : Action σ α} {act' : Action τ α} (h : Tallies R F act act')
    (f : α → β) : Tallies R F (f <$> act) (f <$> act') := by
  intro s t hst
  cases ha : act s with
  | ok a s' =>
    obtain ⟨t', ha', hst'⟩ := h.ok hst ha
    rw [map_of_ok ha, map_of_ok ha']
    exact .ok hst'
  | error e s' =>
    obtain ⟨e', t', ha', hst', he⟩ := h.error hst ha
    rw [map_of_error ha, map_of_error ha']
    exact .error hst' he

theorem Tally.mono {R' : σ → τ → Prop} {F' : Raised → Raised → Prop}
    {r : EStateM.Result Raised σ α} {r' : EStateM.Result Raised τ α} (h : Tally R F r r')
    (hR : ∀ s t, R s t → R' s t) (hF : ∀ e e', F e e' → F' e e') : Tally R' F' r r' := by
  cases h with
  | ok h => exact .ok (hR _ _ h)
  | error h he => exact .error (hR _ _ h) (hF _ _ he)

/-- An action does the same on equal states. -/
theorem tallies_eq (hF : ∀ e, F e e) (act : Action σ α) : Tallies (· = ·) F act act := by
  rintro s _ rfl
  cases act s with
  | ok a t => exact .ok rfl
  | error e t => exact .error rfl (hF e)

end tallies

end Action

namespace Store

open NamedTape.Action (Meets)

variable {σ α : Type} {a : α} {e : Raised}

theorem onTape_of_ok {act : Action Tape α} {s : Store σ} {tape : Tape}
    (h : act s.tape = .ok a tape) : onTape act s = .ok a { s with tape } := by
  simp only [onTape, h]

theorem onTape_of_error {act : Action Tape α} {s : Store σ} {tape : Tape}
    (h : act s.tape = .error e tape) : onTape act s = .error e { s with tape } := by
  simp only [onTape, h]

theorem onDevice_of_ok {act : Action Device α} {s : Store σ} {device : Device}
    (h : act s.device = .ok a device) : onDevice act s = .ok a { s with device } := by
  simp only [onDevice, h]

section parts

variable {P : Store σ → Prop} {Q : α → Store σ → Prop} {E : Raised → Store σ → Prop}

theorem meets_onTape {act : Action Tape α}
    (ok : ∀ s a tape, P s → act s.tape = .ok a tape → Q a { s with tape })
    (error : ∀ s e tape, P s → act s.tape = .error e tape → E e { s with tape }) :
    Meets P (onTape act) Q E := by
  intro s hs
  unfold onTape
  cases ha : act s.tape with
  | ok a tape => exact ok s a tape hs ha
  | error e tape => exact error s e tape hs ha

theorem meets_onAliases {act : Tape → Action AliasTable α}
    (ok : ∀ s a aliases, P s → act s.tape s.aliases = .ok a aliases → Q a { s with aliases })
    (error : ∀ s e aliases, P s → act s.tape s.aliases = .error e aliases →
      E e { s with aliases }) : Meets P (onAliases act) Q E := by
  intro s hs
  unfold onAliases
  cases ha : act s.tape s.aliases with
  | ok a aliases => exact ok s a aliases hs ha
  | error e aliases => exact error s e aliases hs ha

theorem meets_onDevice {act : Action Device α}
    (ok : ∀ s a device, P s → act s.device = .ok a device → Q a { s with device })
    (error : ∀ s e device, P s → act s.device = .error e device → E e { s with device }) :
    Meets P (onDevice act) Q E := by
  intro s hs
  unfold onDevice
  cases ha : act s.device with
  | ok a device => exact ok s a device hs ha
  | error e device => exact error s e device hs ha

end parts

end Store

namespace Session

open NamedTape.Action (Meets)

variable {σ α : Type} {a : α} {e : Raised}

theorem onStore_of_ok {act : Action (Store σ) α} {s : Session σ} {store : Store σ}
    (h : act s.store = .ok a store) : onStore act s = .ok a { s with store } := by
  simp only [onStore, h]

theorem onStore_of_error {act : Action (Store σ) α} {s : Session σ} {store : Store σ}
    (h : act s.store = .error e store) : onStore act s = .error e { s with store } := by
  simp only [onStore, h]

theorem meets_onStore {P : Session σ → Prop} {Q : α → Session σ → Prop}
    {E : Raised → Session σ → Prop} {act : Action (Store σ) α}
    (ok : ∀ s a store, P s → act s.store = .ok a store → Q a { s with store })
    (error : ∀ s e store, P s → act s.store = .error e store → E e { s with store }) :
    Meets P (onStore act) Q E := by
  intro s hs
  unfold onStore
  cases ha : act s.store with
  | ok a store => exact ok s a store hs ha
  | error e store => exact error s e store hs ha

end Session

end NamedTape
