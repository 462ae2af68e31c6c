/-
  Programs over a mutable state that may fail.

  `Returns x s a s'` says that `x`, started in `s`, ends in `s'` with the value
  `a`; the rules below take a returning program apart, one construct a rule.
  A failing program keeps its state, so a failure is `Fails x s e s'`.
-/
import Mathlib.Tactic

/-- A program over the state `σ` that returns or fails with an `ε`. -/
abbrev Program (σ ε : Type) := ExceptT ε (StateM σ)

namespace Program

variable {σ ε α β : Type}

/-- Run a program: its outcome and the state it leaves. -/
def exec (x : Program σ ε α) (s : σ) : Except ε α × σ := x.run.run s

/-- `x`, started in `s`, returns `a` in the state `s'`. -/
def Returns (x : Program σ ε α) (s : σ) (a : α) (s' : σ) : Prop := exec x s = (.ok a, s')

/-- `x`, started in `s`, fails with `e` in the state `s'`. -/
def Fails (x : Program σ ε α) (s : σ) (e : ε) (s' : σ) : Prop := exec x s = (.error e, s')

theorem exec_bind (x : Program σ ε α) (f : α → Program σ ε β) (s : σ) :
    exec (x >>= f) s = match exec x s with
      | (.ok a, s') => exec (f a) s'
      | (.error e, s') => (.error e, s') := by
  have h : exec (x >>= f) s = match (exec x s).1 with
      | .ok a => exec (f a) (exec x s).2
      | .error e => (.error e, (exec x s).2) := by
    rw [exec, ExceptT.run_bind, StateT.run_bind]
    show (match (exec x s).1 with
      | .ok a => (f a).run
      | .error e => pure (.error e) : StateM σ (Except ε β)).run (exec x s).2 = _
    cases (exec x s).1 <;> rfl
  rw [h]
  cases exec x s with
  | mk r s' => cases r <;> rfl

@[simp] theorem returns_pure {a b : α} {s s' : σ} :
    Returns (pure a : Program σ ε α) s b s' ↔ a = b ∧ s = s' := by
  show ((Except.ok a, s) : Except ε α × σ) = _ ↔ _
  simp

theorem returns_bind {x : Program σ ε α} {f : α → Program σ ε β} {b : β} {s s' : σ} :
    Returns (x >>= f) s b s' ↔ ∃ a s₁, Returns x s a s₁ ∧ Returns (f a) s₁ b s' := by
  unfold Returns
  rw [exec_bind]
  cases h : exec x s with
  | mk r s₁ =>
    cases r with
    | error e => simp
    | ok a => simp

@[simp] theorem returns_throw {e : ε} {a : α} {s s' : σ} :
    ¬ Returns (throw e : Program σ ε α) s a s' := by
  intro h
  cases h

@[simp] theorem returns_get {a s s' : σ} :
    Returns (get : Program σ ε σ) s a s' ↔ s = a ∧ s = s' := by
  show ((Except.ok s, s) : Except ε σ × σ) = _ ↔ _
  simp

/-- A run after a program that returns. -/
theorem Returns.exec_bind {x : Program σ ε α} {f : α → Program σ ε β} {a : α} {s s' : σ}
    (h : Returns x s a s') : exec (x >>= f) s = exec (f a) s' := by
  rw [Program.exec_bind, show exec x s = _ from h]

/-- A failure ends the run. -/
theorem Fails.bind {x : Program σ ε α} {e : ε} {s s' : σ} (h : Fails x s e s')
    (f : α → Program σ ε β) : Fails (x >>= f) s e s' := by
  rw [Fails, Program.exec_bind, show exec x s = _ from h]

/-- A program that first reads its state. -/
theorem returns_get_bind {f : σ → Program σ ε β} {b : β} {s s' : σ} :
    Returns (get >>= f) s b s' ↔ Returns (f s) s b s' := by
  rw [returns_bind]
  constructor
  · rintro ⟨a, s₁, h, hf⟩
    obtain ⟨rfl, rfl⟩ := returns_get.1 h
    exact hf
  · intro hf
    exact ⟨s, s, returns_get.2 ⟨rfl, rfl⟩, hf⟩

@[simp] theorem returns_set {a : PUnit} {t s s' : σ} :
    Returns (set t : Program σ ε PUnit) s a s' ↔ t = s' := by
  show ((Except.ok PUnit.unit, t) : Except ε PUnit × σ) = _ ↔ _
  simp

@[simp] theorem returns_modify {f : σ → σ} {a : PUnit} {s s' : σ} :
    Returns (modify f : Program σ ε PUnit) s a s' ↔ f s = s' := by
  show ((Except.ok PUnit.unit, f s) : Except ε PUnit × σ) = _ ↔ _
  simp

@[simp] theorem returns_ofExcept {x : Except ε α} {a : α} {s s' : σ} :
    Returns (ExceptT.mk (pure x) : Program σ ε α) s a s' ↔ x = .ok a ∧ s = s' := by
  show ((x, s) : Except ε α × σ) = _ ↔ _
  simp

theorem returns_ite {c : Prop} [Decidable c] {x y : Program σ ε α} {a : α} {s s' : σ} :
    Returns (if c then x else y) s a s' ↔ (c ∧ Returns x s a s') ∨ (¬ c ∧ Returns y s a s') := by
  split_ifs with h <;> simp [h]

/-- A run that ends well returns. -/
theorem returns_of_isOk {x : Program σ ε α} {s : σ} (h : (exec x s).1.isOk = true) :
    ∃ a s', Returns x s a s' := by
  cases he : exec x s with
  | mk r s' =>
    rw [he] at h
    cases r with
    | error e => cases h
    | ok a => exact ⟨a, s', he⟩

/-! ## What a program keeps -/

/-- However `x` ends, `R` relates the state it began in to the one it leaves. -/
def Keeps (R : σ → σ → Prop) (x : Program σ ε α) : Prop := ∀ s, R s (exec x s).2

section
variable {R : σ → σ → Prop}

theorem keeps_pure (hrefl : ∀ s, R s s) (a : α) : Keeps R (pure a : Program σ ε α) :=
  fun s => hrefl s

theorem keeps_throw (hrefl : ∀ s, R s s) (e : ε) : Keeps R (throw e : Program σ ε α) :=
  fun s => hrefl s

theorem keeps_bind (htrans : ∀ s s' s'', R s s' → R s' s'' → R s s'') {x : Program σ ε α}
    {f : α → Program σ ε β} (hx : Keeps R x) (hf : ∀ a, Keeps R (f a)) : Keeps R (x >>= f) := by
  intro s
  have h := hx s
  rw [exec_bind]
  cases he : exec x s with
  | mk r s₁ =>
    rw [he] at h
    cases r with
    | ok a => exact htrans _ _ _ h (hf a s₁)
    | error e => exact h

/-- A program that first reads its state. -/
theorem keeps_get_bind {f : σ → Program σ ε β} (hf : ∀ s, R s (exec (f s) s).2) :
    Keeps R (get >>= f) := by
  intro s
  rw [exec_bind]
  exact hf s

theorem keeps_modify {f : σ → σ} (hf : ∀ s, R s (f s)) :
    Keeps R (modify f : Program σ ε PUnit) := fun s => hf s

theorem keeps_ite {c : Prop} [Decidable c] {x y : Program σ ε α} (hx : c → Keeps R x)
    (hy : ¬ c → Keeps R y) : Keeps R (if c then x else y) := by
  split_ifs with h
  · exact hx h
  · exact hy h

end

/-! ## Pre- and postconditions -/

/-- `x` and then `y`, whether or not `x` fails; a failure of `y` is the one that is left. -/
def andFinally (x : Program σ ε α) (y : Program σ ε Unit) : Program σ ε α :=
  ExceptT.mk fun s => match exec x s with
    | (r, s') => match exec y s' with
      | (.ok _, s'') => (r, s'')
      | (.error e, s'') => (.error e, s'')

/-- From `P`, a return of `x` meets `Q`, and a failure `E`. -/
def Triple (P : σ → Prop) (x : Program σ ε α) (Q : α → σ → Prop) (E : σ → Prop) : Prop :=
  ∀ s, P s → match exec x s with
    | (.ok a, s') => Q a s'
    | (.error _, s') => E s'

section
variable {P P' : σ → Prop} {Q Q' : α → σ → Prop} {E E' : σ → Prop}

theorem Triple.imp {x : Program σ ε α} (h : Triple P x Q E) (hP : ∀ s, P' s → P s)
    (hQ : ∀ a s, Q a s → Q' a s) (hE : ∀ s, E s → E' s) : Triple P' x Q' E' := by
  intro s hs
  have := h s (hP s hs)
  revert this
  cases exec x s with
  | mk r s' =>
    cases r with
    | ok a => exact hQ a s'
    | error e => exact hE s'

/-- A precondition that no state decides. -/
theorem Triple.of_pure {φ : Prop} {x : Program σ ε α} (h : φ → Triple P x Q E) :
    Triple (fun s => P s ∧ φ) x Q E := fun s hs => h hs.2 s hs.1

theorem triple_pure {a : α} (h : ∀ s, P s → Q a s) : Triple P (pure a : Program σ ε α) Q E :=
  fun s hs => h s hs

theorem triple_throw {e : ε} (h : ∀ s, P s → E s) : Triple P (throw e : Program σ ε α) Q E :=
  fun s hs => h s hs

theorem triple_ofExcept {x : Except ε α} (h : ∀ s a, x = .ok a → P s → Q a s)
    (he : ∀ s, P s → E s) : Triple P (ExceptT.mk (pure x) : Program σ ε α) Q E := by
  intro s hs
  cases x with
  | ok a => exact h s a rfl hs
  | error e => exact he s hs

theorem Triple.bind {R : α → σ → Prop} {S : β → σ → Prop} {x : Program σ ε α}
    {f : α → Program σ ε β} (hx : Triple P x R E) (hf : ∀ a, Triple (R a) (f a) S E) :
    Triple P (x >>= f) S E := by
  intro s hs
  have h := hx s hs
  rw [exec_bind]
  revert h
  cases exec x s with
  | mk r s' =>
    cases r with
    | ok a => exact hf a s'
    | error e => exact fun h => h

theorem triple_get {Q : σ → σ → Prop} (h : ∀ s, P s → Q s s) :
    Triple P (MonadState.get : Program σ ε σ) Q E := fun s hs => h s hs

theorem triple_set {t : σ} {Q : PUnit → σ → Prop} (h : ∀ s, P s → Q PUnit.unit t) :
    Triple P (set t : Program σ ε PUnit) Q E := fun s hs => h s hs

theorem triple_get_bind {f : σ → Program σ ε α} (h : ∀ s, P s → Triple (· = s) (f s) Q E) :
    Triple P (MonadState.get >>= f) Q E := by
  intro s hs
  rw [exec_bind]
  exact h s hs s rfl

/-- A program that leaves the state as it is. -/
theorem Keeps.triple {x : Program σ ε α} {φ : α → Prop} (h : Keeps Eq x)
    (hφ : ∀ a s, Returns x s a s → φ a) (hE : ∀ s, P s → E s) :
    Triple P x (fun a s => P s ∧ φ a) E := by
  intro s hs
  have hx := h s
  have hret := fun a => hφ a s
  unfold Returns at hret
  revert hx hret
  cases exec x s with
  | mk r s' =>
    cases r with
    | ok a => rintro rfl hret; exact ⟨hs, hret a rfl⟩
    | error e => rintro rfl -; exact hE _ hs

theorem triple_modify {f : σ → σ} {Q : PUnit → σ → Prop} (h : ∀ s, P s → Q PUnit.unit (f s)) :
    Triple P (modify f : Program σ ε PUnit) Q E := fun s hs => h s hs

theorem triple_ite {c : Prop} [Decidable c] {x y : Program σ ε α} (hx : c → Triple P x Q E)
    (hy : ¬ c → Triple P y Q E) : Triple P (if c then x else y) Q E := by
  split_ifs with h
  · exact hx h
  · exact hy h

/-- A state that meets no precondition. -/
theorem triple_of_absurd {x : Program σ ε α} (h : ∀ s, ¬ P s) : Triple P x Q E :=
  fun s hs => absurd hs (h s)

theorem exec_andFinally (x : Program σ ε α) (y : Program σ ε Unit) (s : σ) :
    exec (x.andFinally y) s = match exec x s with
      | (r, s') => match exec y s' with
        | (.ok _, s'') => (r, s'')
        | (.error e, s'') => (.error e, s'') := rfl

theorem Triple.andFinally {x : Program σ ε α} {y : Program σ ε Unit} (hx : Triple P x Q E)
    (hQ : ∀ a, Triple (Q a) y (fun _ => Q a) E) (hE : Triple E y (fun _ => E) E) :
    Triple P (x.andFinally y) Q E := by
  intro s hs
  have h := hx s hs
  rw [exec_andFinally]
  revert h
  cases exec x s with
  | mk r s' =>
    cases r with
    | ok a =>
      intro h
      have h' := hQ a s' h
      revert h'
      dsimp only
      cases exec y s' with
      | mk r' s'' =>
        cases r' with
        | ok u => exact fun h' => h'
        | error e => exact fun h' => h'
    | error e =>
      intro h
      have h' := hE s' h
      revert h'
      dsimp only
      cases exec y s' with
      | mk r' s'' =>
        cases r' with
        | ok u => exact fun h' => h'
        | error e' => exact fun h' => h'

/-- A traversal of a list each of whose elements keeps `P`. -/
theorem triple_forM_mem {f : α → Program σ ε PUnit} :
    ∀ {l : List α}, (∀ a ∈ l, Triple P (f a) (fun _ => P) E) → Triple P (l.forM f) (fun _ => P) E
  | [], _ => triple_pure fun _ hs => hs
  | a :: l, hf => (hf a (by simp)).bind fun _ => triple_forM_mem fun b hb => hf b (by simp [hb])

theorem triple_forM {f : α → Program σ ε PUnit} (hf : ∀ a, Triple P (f a) (fun _ => P) E) :
    ∀ l : List α, Triple P (l.forM f) (fun _ => P) E
  | [] => triple_pure fun _ hs => hs
  | a :: l => (hf a).bind fun _ => triple_forM hf l

end

/-! ## Traversals -/

theorem returns_forM_nil {f : α → Program σ ε PUnit} {u : PUnit} {s s' : σ} :
    Returns ([].forM f) s u s' ↔ s = s' := by
  show Returns (pure PUnit.unit) s u s' ↔ _
  simp

theorem returns_forM_cons {f : α → Program σ ε PUnit} {a : α} {l : List α} {u : PUnit} {s s' : σ} :
    Returns ((a :: l).forM f) s u s' ↔
      ∃ s₁, Returns (f a) s PUnit.unit s₁ ∧ Returns (l.forM f) s₁ u s' := by
  show Returns (f a >>= fun _ => l.forM f) s u s' ↔ _
  rw [returns_bind]
  exact ⟨fun ⟨_, s₁, h⟩ => ⟨s₁, h⟩, fun ⟨s₁, h⟩ => ⟨_, s₁, h⟩⟩

theorem returns_mapM_nil {f : α → Program σ ε β} {bs : List β} {s s' : σ} :
    Returns ([].mapM f) s bs s' ↔ bs = [] ∧ s = s' := by
  rw [List.mapM_nil, returns_pure, eq_comm]

theorem returns_mapM_cons {f : α → Program σ ε β} {a : α} {l : List α} {bs : List β} {s s' : σ} :
    Returns ((a :: l).mapM f) s bs s' ↔
      ∃ b s₁ bs', Returns (f a) s b s₁ ∧ Returns (l.mapM f) s₁ bs' s' ∧ bs = b :: bs' := by
  simp only [List.mapM_cons, returns_bind, returns_pure]
  constructor
  · rintro ⟨b, s₁, hb, bs', s₂, hbs, rfl, rfl⟩; exact ⟨b, s₁, bs', hb, hbs, rfl⟩
  · rintro ⟨b, s₁, bs', hb, hbs, rfl⟩; exact ⟨b, s₁, hb, bs', s', hbs, rfl, rfl⟩

end Program
